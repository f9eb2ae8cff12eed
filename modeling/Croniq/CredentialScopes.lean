import Croniq.CredentialIssue
import Croniq.SessionTokens
import Croniq.SingleUse

/-!
# What a credential can lead to

Someone starts with one credential and goes on with whatever they obtain: tokens
for clients, API keys, personal access tokens, accounts they create, promote or
invite and the sessions of those.
-/

namespace Croniq.Auth

open CallPrograms Credential KeyedTables LabelledRuns List Option Program Scope Auth.Store

/-- The requests of a caller that hand out access. -/
inductive GrantRequest
  | createClient (request : CreateClientRequest)
  | updateClient (clientId : String) (request : UpdateClientRequest)
  | issueClientToken (clientId freshToken : String)
  | createApiKey (request : CreateApiKeyRequest)
  | createPat (request : CreatePatRequest)
  | createUser (request : CreateUserRequest)
  | updateUser (userId : String) (request : UpdateUserRequest)
  | createInvitation (request : CreateInvitationRequest)

def GrantRequest.handle (state : ServerState) (caller : CallerContext) (now : Int) :
    GrantRequest → Handler
  | .createClient request => handleCreateClient caller request
  | .updateClient clientId request => handleUpdateClient caller clientId request
  | .issueClientToken clientId freshToken => handleIssueClientToken state caller clientId freshToken
  | .createApiKey request => handleCreateApiKey caller request
  | .createPat request => handleCreatePat caller request
  | .createUser request => handleCreateUser state caller request
  | .updateUser userId request => handleUpdateUser caller userId request
  | .createInvitation request => handleCreateInvitation caller now request

inductive GrantEvent
  | present (credential : Credential) (request : GrantRequest)
  | acceptInvitation (request : AcceptInvitationRequest)
  | login (request : LoginRequest)
  | totpLogin (request : TotpLoginRequest)
  | refresh (tokenHash freshToken : String)

open GrantEvent

namespace GrantEvent

/-- A request is handled to its end, once the middleware lets it through. -/
def serve (state : ServerState) (store : Store) (now : Int) : GrantEvent → Response × Store
  | .present credential request =>
    match requireAuth store state.jwtConfig now credential with
    | none => (.status .unauthorized, store)
    | some caller => (request.handle state caller now).serve perform now store
  | .acceptInvitation request => (handleAccept state request).serve perform now store
  | .login request => (handleLogin state request).serve perform now store
  | .totpLogin request => (handleTotpLogin state request).serve perform now store
  | .refresh tokenHash freshToken =>
    (handleRefresh state tokenHash freshToken).serve perform now store

end GrantEvent

/-- What an answer hands out, and the account it is about. -/
structure Gain where
  credential : Option Credential := none
  refreshToken : Option String := none
  invitation : Option String := none
  account : Option String := none

/-- What is gained with an answer; the accounts are those created, promoted or invited. -/
def GrantEvent.gain : GrantEvent → Response → Gain
  | _, .tokens pair =>
    { credential := some (.access pair.access), refreshToken := some pair.refreshTokenHash }
  | .present _ (.createApiKey _), .apiKey keyHash => { credential := some (.apiKey keyHash) }
  | .present _ (.createPat _), .pat tokenHash _ => { credential := some (.pat tokenHash) }
  | .present _ (.createUser _), .user user => { account := some user.userId }
  | .present _ (.updateUser _ request), .user user =>
    { account := if request.role.isSome then some user.userId else none }
  | .present _ (.createInvitation _), .invitation tokenHash => { invitation := some tokenHash }
  | .acceptInvitation request, .status code =>
    { account := if code = .created then some request.freshUserId else none }
  | _, _ => { }

theorem GrantEvent.gain_tokens (event : GrantEvent) (pair : TokenPair) :
    event.gain (.tokens pair) =
      { credential := some (.access pair.access), refreshToken := some pair.refreshTokenHash } := by
  cases event with
  | present credential request => cases request <;> rfl
  | _ => rfl

/-- The requests that hand out tokens or nothing. -/
def GrantEvent.issuesTokens : GrantEvent → Bool
  | .present _ (.issueClientToken _ _) => true
  | .login _ => true
  | .totpLogin _ => true
  | .refresh _ _ => true
  | _ => false

theorem GrantEvent.gain_of_issuesTokens {event : GrantEvent} (issues : event.issuesTokens = true)
    {response : Response} (noTokens : ∀ pair, response ≠ .tokens pair) :
    event.gain response = { } := by
  cases response with
  | tokens pair => exact absurd rfl (noTokens pair)
  | _ =>
    cases event with
    | present credential request => cases request <;> first | rfl | cases issues
    | acceptInvitation => cases issues
    | _ => rfl

/-- What the one who started with a credential has by now. -/
structure GrantWorld where
  store : Store
  clock : Int
  credentials : List Credential
  (refreshTokens invitations accounts : List String)

namespace GrantWorld

def initial (store : Store) (clock : Int) (credential : Credential) : GrantWorld where
  store
  clock
  credentials := [credential]
  refreshTokens := []
  invitations := []
  accounts := []

variable (world : GrantWorld)

def holds : GrantEvent → Bool
  | .present credential _ => credential ∈ world.credentials
  | .acceptInvitation request => request.tokenHash ∈ world.invitations
  | .refresh tokenHash _ => tokenHash ∈ world.refreshTokens
  | _ => true

/-- The random token or key is none the server knows. -/
def isFresh : GrantEvent → Bool
  | .present _ (.issueClientToken _ freshToken) =>
    (world.store.refreshTokens.find? freshToken).isNone
  | .present _ (.createApiKey request) => (world.store.findApiKeyByHash request.freshKeyHash).isNone
  | .login request => (world.store.refreshTokens.find? request.freshToken).isNone
  | .totpLogin request => (world.store.refreshTokens.find? request.freshToken).isNone
  | .refresh _ freshToken => (world.store.refreshTokens.find? freshToken).isNone
  | _ => true

/-- A sign-in is to an account created, promoted or invited. -/
def ownsSession (event : GrantEvent) (answer : Response) : Bool :=
  match event, answer with
  | .login _, .tokens pair => pair.access.userId.any (· ∈ world.accounts)
  | .totpLogin _, .tokens pair => pair.access.userId.any (· ∈ world.accounts)
  | _, _ => true

/-- One request. Random values do not repeat, time does not run backwards. -/
def step (state : ServerState) (world : GrantWorld) : Int × GrantEvent → Option GrantWorld
  | (now, event) =>
    let served := event.serve state world.store now
    if (world.clock ≤ now ∧ world.isFresh event) ∧ world.holds event ∧
        world.ownsSession event served.1 then
      some
        { store := served.2
          clock := now
          credentials := world.credentials ++ (event.gain served.1).credential.toList
          refreshTokens := world.refreshTokens ++ (event.gain served.1).refreshToken.toList
          invitations := world.invitations ++ (event.gain served.1).invitation.toList
          accounts := world.accounts ++ (event.gain served.1).account.toList }
    else none

end GrantWorld

/-- The scopes in reach of the given ones. -/
def Attainable (scopes : List String) (scope : String) : Prop :=
  scope ∈ scopes ∨ usersAdmin ∈ scopes ∧ scope ∈ defaultScopesForRole .operator

section

variable {scopes : List String}

theorem not_attainable_admin (notAdmin : admin ∉ scopes) : ¬Attainable scopes admin := by
  rintro (isAdmin | ⟨-,isAdmin⟩)
  · exact notAdmin isAdmin
  · exact absurd isAdmin (by decide)

variable {role : Role} {scope : String}

theorem attainable_of_role (manages : usersAdmin ∈ scopes)
    (notAdmin : role ≠ .admin) (isScope : scope ∈ defaultScopesForRole role) :
    Attainable scopes scope := by
  refine .inr ⟨manages,?_⟩
  cases role with
  | admin => exact absurd rfl notAdmin
  | operator => exact isScope
  | viewer =>
    have narrower : ∀ other ∈ defaultScopesForRole .viewer,
        other ∈ defaultScopesForRole .operator := by
      decide
    exact narrower scope isScope

def Within (scopes : List String) (caller : CallerContext) : Prop :=
  ∀ scope ∈ caller.scopes, Attainable scopes scope

variable {caller : CallerContext} (within : Within scopes caller) (notAdmin : admin ∉ scopes)
include within notAdmin

theorem Within.isAdmin_eq_false : caller.isAdmin = false := by
  rw [CallerContext.isAdmin,List.any_eq_false]
  rintro scope isScope isAdmin
  rw [of_decide_eq_true isAdmin] at isScope
  exact not_attainable_admin notAdmin (within _ isScope)

theorem Within.of_hasScope (has : caller.hasScope scope = true) : Attainable scopes scope := by
  obtain ⟨held,isHeld,either⟩ := any_eq_true.mp has
  rcases of_decide_eq_true either with rfl | rfl
  · exact absurd (within _ isHeld) (not_attainable_admin notAdmin)
  · exact within _ isHeld

theorem Within.manages (allowed : requireUserAdmin caller = true) : usersAdmin ∈ scopes := by
  suffices attainable : Attainable scopes usersAdmin from attainable.elim id And.left
  simp only [requireUserAdmin,CallerContext.hasAnyScope,any_cons,any_nil,
    Bool.or_false,Bool.or_eq_true] at allowed
  rcases allowed with (isAdmin | isUserAdmin) | isUserAdmin
  · exact absurd (within.of_hasScope notAdmin isAdmin) (not_attainable_admin notAdmin)
  · exact within.of_hasScope notAdmin isUserAdmin
  · exact within.of_hasScope notAdmin isUserAdmin

theorem Within.role_ne_admin (allowed : requireMayAssignRole caller role = true) :
    role ≠ .admin := by
  rintro rfl
  simp [requireMayAssignRole,within.isAdmin_eq_false notAdmin] at allowed

theorem Within.of_grantable {requested : List String}
    (grantable : requireGrantableScopes caller requested = true) :
    ∀ scope ∈ requested, Attainable scopes scope := by
  intro scope isRequested
  simp only [requireGrantableScopes,CallerContext.canGrantScopes,
    within.isAdmin_eq_false notAdmin,Bool.false_or,List.all_eq_true] at grantable
  obtain ⟨held,isHeld,same⟩ := List.any_eq_true.mp (grantable scope isRequested)
  rw [← of_decide_eq_true same]
  exact within held isHeld

end

/-! What requests within the bounds do to the store. -/

def ClientWithin (scopes : List String) (store : Store) (clientId : String) : Prop :=
  ∀ client, store.clients.find? clientId = some client →
    ∀ scope ∈ client.scopes, Attainable scopes scope

/-- What is found by a key was found before with the same part, or that part is `fresh`. -/
def Grows {Row Part : Type} (part : Row → Part) (fresh : Part → Prop)
    (before after : String → Option Row) : Prop :=
  ∀ key row, after key = some row →
    (∃ earlier, before key = some earlier ∧ part earlier = part row) ∨ fresh (part row)

section

variable {Row Part : Type} {part : Row → Part} {fresh : Part → Prop}
  {before between after : String → Option Row}

theorem grows_self : Grows part fresh before before :=
  fun _ row found => .inl ⟨row,found,rfl⟩

theorem Grows.trans (earlier : Grows part fresh before between)
    (later : Grows part fresh between after) : Grows part fresh before after := by
  intro key row found
  rcases later key row found with ⟨other,foundOther,same⟩ | isFresh
  · rw [← same]
    exact earlier key other foundOther
  · exact .inr isFresh

end

/-- What is new or changed in a store is within the bounds. -/
structure Store.Evolves (scopes : List String) (before after : Store) : Prop where
  users : Grows User.role (usersAdmin ∈ scopes ∧ · ≠ .admin) before.usersGetById after.usersGetById
  clients : Grows ApiClient.scopes (∀ scope ∈ ·, Attainable scopes scope) before.clients.find?
    after.clients.find?
  apiKeys : Grows ApiKey.clientId (ClientWithin scopes after) before.findApiKeyByHash
    after.findApiKeyByHash
  tokens : Grows id (fun token => ∀ scope ∈ token.scopes, Attainable scopes scope)
    before.patFindByHash after.patFindByHash
  invitations : Grows Invitation.role (usersAdmin ∈ scopes ∧ · ≠ .admin)
    before.invitationsGetByTokenHash after.invitationsGetByTokenHash

section Evolution

variable {scopes : List String} {before after : Store}

theorem evolves_of_sameGrants (same : before.SameGrants after) : before.Evolves scopes after where
  users := funext same.users ▸ grows_self
  clients := same.clients ▸ grows_self
  apiKeys keyHash key found := .inl ⟨key,by
    simpa only [findApiKeyByHash,same.apiKeys] using found,rfl⟩
  tokens tokenHash token found := .inl ⟨token,by
    simpa only [patFindByHash,same.tokens] using found,rfl⟩
  invitations tokenHash invitation found := .inl ⟨invitation,by
    simpa only [invitationsGetByTokenHash,same.invitations] using found,rfl⟩

theorem Store.evolves_self (store : Store) : store.Evolves scopes store :=
  evolves_of_sameGrants store.sameGrants_self

theorem ClientWithin.of_evolves {clientId : String}
    (within : ClientWithin scopes before clientId) (evolves : before.Evolves scopes after) :
    ClientWithin scopes after clientId := by
  intro client found
  rcases evolves.clients clientId client found with ⟨earlier,foundEarlier,same⟩ | attainable
  · rw [← same]
    exact within earlier foundEarlier
  · exact attainable

/-- The account is one that `users:admin` could have made. -/
def Manageable (scopes : List String) (store : Store) (userId : String) : Prop :=
  usersAdmin ∈ scopes ∧ ∀ user, store.usersGetById userId = some user → user.role ≠ .admin

theorem Manageable.of_evolves {userId : String} (manageable : Manageable scopes before userId)
    (evolves : before.Evolves scopes after) : Manageable scopes after userId := by
  refine ⟨manageable.1,fun user looked => ?_⟩
  rcases evolves.users userId user looked with ⟨earlier,lookedEarlier,same⟩ | ⟨-,notAdmin⟩
  · rw [← same]
    exact manageable.2 earlier lookedEarlier
  · exact notAdmin

def Inviting (scopes : List String) (store : Store) (tokenHash : String) : Prop :=
  usersAdmin ∈ scopes ∧
    ∀ invitation, store.invitationsGetByTokenHash tokenHash = some invitation →
      invitation.role ≠ .admin

variable {tokenHash scope : String} {patScopes : List String} {role : Role}

theorem Inviting.of_evolves (inviting : Inviting scopes before tokenHash)
    (evolves : before.Evolves scopes after) : Inviting scopes after tokenHash := by
  refine ⟨inviting.1,fun invitation found => ?_⟩
  rcases evolves.invitations tokenHash invitation found with
    ⟨earlier,foundEarlier,same⟩ | ⟨-,notAdmin⟩
  · rw [← same]
    exact inviting.2 earlier foundEarlier
  · exact notAdmin

/-- The credential carries attainable scopes only. -/
def CarriesWithin (scopes : List String) (store : Store) (credential : Credential) : Prop :=
  ∀ scope ∈ credential.scopes store, Attainable scopes scope

theorem mem_scopes_pat {store : Store} :
    scope ∈ (pat tokenHash).scopes store ↔
      ∃ token, store.patFindByHash tokenHash = some token ∧
        ∃ user, store.usersGetById token.userId = some user ∧
          scope ∈ patEffectiveScopes token.scopes user.role := by
  simp only [scopes]
  cases store.patFindByHash tokenHash with
  | none => simp
  | some token => cases looked : store.usersGetById token.userId <;> simp [looked]

theorem mem_scopes_apiKey {store : Store} {keyHash : String} :
    scope ∈ (apiKey keyHash).scopes store ↔
      ∃ key, store.findApiKeyByHash keyHash = some key ∧
        ∃ client, store.clients.find? key.clientId = some client ∧ scope ∈ client.scopes := by
  simp only [scopes]
  cases store.findApiKeyByHash keyHash with
  | none => simp
  | some key => cases found : store.clients.find? key.clientId <;> simp [found]

theorem mem_of_mem_patEffectiveScopes (isScope : scope ∈ patEffectiveScopes patScopes role) :
    scope ∈ patScopes := by
  simp only [patEffectiveScopes] at isScope
  split at isScope
  · exact isScope
  · exact mem_of_mem_filter isScope

theorem mem_role_of_mem_patEffectiveScopes (notAdmin : role ≠ .admin)
    (isScope : scope ∈ patEffectiveScopes patScopes role) : scope ∈ defaultScopesForRole role := by
  have noWildcard : (defaultScopesForRole role).any (· = admin) = false := by
    cases role with
    | admin => exact absurd rfl notAdmin
    | operator => decide
    | viewer => decide
  simp only [patEffectiveScopes,noWildcard,Bool.false_eq_true,if_false] at isScope
  simpa using of_mem_filter isScope

theorem CarriesWithin.of_evolves {credential : Credential}
    (within : CarriesWithin scopes before credential) (evolves : before.Evolves scopes after) :
    CarriesWithin scopes after credential := by
  intro scope isScope
  cases credential with
  | access => exact within scope isScope
  | pat tokenHash =>
    obtain ⟨token,found,user,looked,isScope⟩ := mem_scopes_pat.mp isScope
    rcases evolves.tokens tokenHash token found with ⟨token,foundEarlier,rfl⟩ | attainable
    · -- The token is the same, so its owner can only have got another role.
      rcases evolves.users token.userId user looked with
        ⟨earlier,lookedEarlier,same⟩ | ⟨manages,notAdmin⟩
      · rw [← same] at isScope
        exact within scope (mem_scopes_pat.mpr ⟨token,foundEarlier,earlier,lookedEarlier,isScope⟩)
      · exact attainable_of_role manages notAdmin
          (mem_role_of_mem_patEffectiveScopes notAdmin isScope)
    · exact attainable scope (mem_of_mem_patEffectiveScopes isScope)
  | apiKey keyHash =>
    obtain ⟨key,found,client,foundClient,isScope⟩ := mem_scopes_apiKey.mp isScope
    rcases evolves.apiKeys keyHash key found with ⟨old,foundEarlier,sameClient⟩ | clientWithin
    · rcases evolves.clients key.clientId client foundClient with
        ⟨earlier,foundEarlierClient,same⟩ | attainable
      · rw [← same] at isScope
        rw [← sameClient] at foundEarlierClient
        exact within scope
          (mem_scopes_apiKey.mpr ⟨old,foundEarlier,earlier,foundEarlierClient,isScope⟩)
      · exact attainable scope isScope
    · exact clientWithin client foundClient scope isScope

/-- The refresh token is for an account obtained, or a client within the bounds. -/
def Renewable (scopes accounts : List String) (store : Store) (tokenHash : String) : Prop :=
  ∃ row, store.refreshTokens.find? tokenHash = some row ∧
    ((∃ userId ∈ accounts, row.userId = some userId) ∨
      row.userId = none ∧ ClientWithin scopes store row.clientId)

theorem Renewable.of_evolves {accounts : List String}
    (renewable : Renewable scopes accounts before tokenHash)
    (evolves : before.Evolves scopes after) (keeps : before.Keeps after)
    {more : List String} (grows : ∀ userId ∈ accounts, userId ∈ more) :
    Renewable scopes more after tokenHash := by
  obtain ⟨row,found,entitled⟩ := renewable
  obtain ⟨later,foundLater,sameUser,sameClient⟩ := keeps.owner ⟨row,found,rfl,rfl⟩
  refine ⟨later,foundLater,?_⟩
  rw [sameUser,sameClient]
  rcases entitled with ⟨userId,isAccount,own⟩ | ⟨noUser,within⟩
  · exact .inl ⟨userId,grows userId isAccount,own⟩
  · exact .inr ⟨noUser,within.of_evolves evolves⟩

theorem Store.Evolves.trans {first second third : Store} (earlier : first.Evolves scopes second)
    (later : second.Evolves scopes third) :
    first.Evolves scopes third where
  users := earlier.users.trans later.users
  clients := earlier.clients.trans later.clients
  apiKeys := by
    refine Grows.trans (fun keyHash key found => ?_) later.apiKeys
    exact (earlier.apiKeys keyHash key found).imp_right (·.of_evolves later)
  tokens := earlier.tokens.trans later.tokens
  invitations := earlier.invitations.trans later.invitations

end Evolution

/-! The calls that write grants. -/

section Grants

variable {scopes : List String} (store : Store)

theorem Store.find?_createClient (client : ApiClient) (clientId : String) :
    (store.createClient client).2.clients.find? clientId =
      if client.clientId = clientId then some client else store.clients.find? clientId := by
  have lands : (store.createClient client).2.clients =
      (store.clients.insert client).getD (store.clients.updateWhere
        (fun old => old.clientId = client.clientId)
        (fun old => { client with clientId := old.clientId }) fun _ => rfl) := by
    unfold createClient
    cases store.clients.insert client <;> rfl
  have seen := store.clients.find?_upsert id client
    (fun old => { client with clientId := old.clientId }) (fun _ => rfl)
    (fun old sameKey => by rw [sameKey]) clientId
  rw [lands]
  simpa using seen

variable {user : User} {token : PersonalAccessToken} {invitation : Invitation}

theorem Store.evolves_createClient {client : ApiClient}
    (attainable : (∃ earlier, store.clients.find? client.clientId = some earlier ∧
      earlier.scopes = client.scopes) ∨ ∀ scope ∈ client.scopes, Attainable scopes scope) :
    store.Evolves scopes (store.createClient client).2 := by
  have clients : Grows ApiClient.scopes (∀ scope ∈ ·, Attainable scopes scope) store.clients.find?
      (store.createClient client).2.clients.find? := by
    intro clientId found isFound
    rw [find?_createClient] at isFound
    split at isFound
    · rename_i isClient
      subst isClient
      cases isFound
      exact attainable
    · exact .inl ⟨found,isFound,rfl⟩
  revert clients
  unfold createClient
  split
  all_goals
    intro clients
    exact { store.evolves_self with clients, apiKeys := grows_self }

theorem Store.evolves_usersCreate
    (allowed : (∃ earlier, store.usersGetById user.userId = some earlier ∧
      earlier.role = user.role) ∨ usersAdmin ∈ scopes ∧ user.role ≠ .admin) :
    store.Evolves scopes (store.usersCreate user).2 := by
  have users : (store.usersCreate user).1 = true →
      Grows User.role (usersAdmin ∈ scopes ∧ · ≠ .admin) store.usersGetById
        (store.usersCreate user).2.usersGetById := by
    intro created userId found looked
    rw [store.usersGetById_usersCreate created] at looked
    split at looked
    · rename_i isUser
      subst isUser
      cases looked
      exact allowed
    · exact .inl ⟨found,looked,rfl⟩
  revert users
  unfold usersCreate
  split
  · exact fun _ => store.evolves_self
  split
  all_goals
    intro users
    exact { store.evolves_self with users := users rfl }

/-- Of several keys with one hash, the new one is found or the one found before. -/
theorem Store.evolves_createApiKey {key : ApiKey}
    (within : ClientWithin scopes store key.clientId) :
    store.Evolves scopes (store.createApiKey key).2 := by
  unfold createApiKey inserted
  split
  · exact store.evolves_self
  rename_i extended inserts
  refine { store.evolves_self with apiKeys := fun keyHash found isFound => ?_ }
  simp only [findApiKeyByHash,Table.rows_insert _ inserts,filter_append,foldl_append] at isFound ⊢
  by_cases sameHash : key.keyHash = keyHash
  · simp only [filter_singleton,sameHash,decide_true,cond_true,foldl_cons,foldl_nil] at isFound
    split at isFound
    · cases isFound
      exact .inr within
    rename_i best isBest
    split at isFound
    · cases isFound
      exact .inr within
    · cases isFound
      exact .inl ⟨_,isBest,rfl⟩
  · simp only [filter_singleton,sameHash,decide_false,cond_false,foldl_nil] at isFound
    exact .inl ⟨found,isFound,rfl⟩

theorem Store.evolves_patCreate (attainable : ∀ scope ∈ token.scopes, Attainable scopes scope) :
    store.Evolves scopes (store.patCreate token).2 := by
  unfold patCreate inserted
  split
  · exact store.evolves_self
  split
  · exact store.evolves_self
  rename_i extended inserts
  refine { store.evolves_self with tokens := fun tokenHash found isFound => ?_ }
  simp only [patFindByHash,Table.rows_insert _ inserts,find?_append] at isFound
  rcases or_eq_some_iff.mp isFound with isOld | ⟨-,isNew⟩
  · exact .inl ⟨found,isOld,rfl⟩
  · rw [mem_singleton.mp (mem_of_find?_eq_some isNew)]
    exact .inr attainable

theorem Store.patFindByHash_of_created (created : (store.patCreate token).1 = true) :
    store.patFindByHash token.tokenHash = none := by
  unfold patCreate at created
  split at created
  · cases created
  rename_i isFree
  rw [patFindByHash,find?_eq_none]
  intro row isRow sameHash
  exact isFree (any_eq_true.mpr ⟨row,isRow,sameHash⟩)

theorem Store.invitationsGetByTokenHash_of_created
    (created : (store.invitationsCreate invitation).1 = true) :
    store.invitationsGetByTokenHash invitation.tokenHash = none := by
  unfold invitationsCreate at created
  split at created
  · cases created
  rename_i isFree
  rw [invitationsGetByTokenHash,find?_eq_none]
  intro row isRow sameHash
  exact isFree (any_eq_true.mpr ⟨row,isRow,sameHash⟩)

theorem Store.evolves_invitationsCreate
    (manages : usersAdmin ∈ scopes) (notAdmin : invitation.role ≠ .admin) :
    store.Evolves scopes (store.invitationsCreate invitation).2 := by
  unfold invitationsCreate inserted
  split
  · exact store.evolves_self
  split
  · exact store.evolves_self
  rename_i extended inserts
  refine { store.evolves_self with invitations := fun tokenHash found isFound => ?_ }
  simp only [invitationsGetByTokenHash,Table.rows_insert _ inserts,find?_append] at isFound
  rcases or_eq_some_iff.mp isFound with isOld | ⟨-,isNew⟩
  · exact .inl ⟨found,isOld,rfl⟩
  · rw [mem_singleton.mp (mem_of_find?_eq_some isNew)]
    exact .inr ⟨manages,notAdmin⟩

theorem Store.evolves_invitationsClaim (invitationId : String) (instant : Int) :
    store.Evolves scopes (store.invitationsClaim invitationId instant).2 := by
  refine { store.evolves_self with invitations := fun tokenHash found isFound => ?_ }
  simp only [invitationsClaim,invitationsGetByTokenHash,Table.updateWhere,find?_map] at isFound
  obtain ⟨earlier,isEarlier,rfl⟩ := map_eq_some_iff.mp isFound
  refine .inl ⟨earlier,?_,?_⟩
  · rw [invitationsGetByTokenHash,← isEarlier]
    congr 1
    funext row
    simp only [Function.comp_apply,changeWhere]
    split <;> rfl
  · unfold changeWhere
    split <;> rfl

end Grants

/-! What the answer of a request within the bounds gives. -/

/-- The store and whatever is gained stay within the bounds. -/
structure Outcome (scopes accounts : List String) (gain : Response → Gain) (before : Store)
    (served : Response × Store) : Prop where
  evolves : before.Evolves scopes served.2
  credential : ∀ credential ∈ (gain served.1).credential, CarriesWithin scopes served.2 credential
  refreshToken : ∀ tokenHash ∈ (gain served.1).refreshToken,
    Renewable scopes accounts served.2 tokenHash
  invitation : ∀ tokenHash ∈ (gain served.1).invitation, Inviting scopes served.2 tokenHash
  account : ∀ userId ∈ (gain served.1).account, Manageable scopes served.2 userId

section Outcomes

variable {scopes accounts : List String} {gain : Response → Gain} {store : Store}
  {caller : CallerContext} {now : Int} {credential : Credential} {served : Response × Store}
  {user : User}

theorem outcome_of_evolves (nothing : gain served.1 = { })
    (evolves : store.Evolves scopes served.2) :
    Outcome scopes accounts gain store served where
  evolves
  credential := by simp [nothing]
  refreshToken := by simp [nothing]
  invitation := by simp [nothing]
  account := by simp [nothing]

theorem outcome_status {code : Status} (nothing : gain (.status code) = { }) :
    Outcome scopes accounts gain store (.status code, store) :=
  outcome_of_evolves nothing store.evolves_self

/-- An answer with well-issued tokens, to an account obtained or a client within the bounds. -/
theorem outcome_of_wellIssued {event : GrantEvent} (issues : event.issuesTokens = true)
    (issued : WellIssued store served) (entitled : ∀ pair, served.1 = .tokens pair →
      (∃ userId ∈ accounts, pair.access.userId = some userId ∧ Manageable scopes store userId) ∨
        pair.access.userId = none ∧ ClientWithin scopes store pair.access.clientId) :
    Outcome scopes accounts event.gain store served := by
  have evolves : store.Evolves scopes served.2 := evolves_of_sameGrants issued.1
  by_cases isTokens : ∃ pair, served.1 = .tokens pair
  · obtain ⟨pair,answers⟩ := isTokens
    have ⟨minted,entitlement⟩ := issued.2 pair answers
    have bound := entitled pair answers
    constructor
    · exact evolves
    · rw [answers,event.gain_tokens]
      rintro _ ⟨⟩
      intro scope isScope
      change scope ∈ pair.access.scopes at isScope
      rcases bound with ⟨userId,-,own,manageable⟩ | ⟨noUser,within⟩
      · rw [Entitled,own] at entitlement
        obtain ⟨user,looked,sameScopes⟩ := entitlement
        rw [sameScopes] at isScope
        have later := manageable.of_evolves evolves
        exact attainable_of_role later.1 (later.2 user looked) isScope
      · rw [Entitled,noUser] at entitlement
        obtain ⟨client,found,sameScopes⟩ := entitlement
        rw [sameScopes] at isScope
        exact within.of_evolves evolves client found scope isScope
    · rw [answers,event.gain_tokens]
      rintro _ ⟨⟩
      obtain ⟨row,stored,sameUser,sameClient⟩ := minted.row
      refine ⟨row,stored,?_⟩
      rw [sameUser,sameClient]
      rcases bound with ⟨userId,isAccount,own,-⟩ | ⟨noUser,within⟩
      · exact .inl ⟨userId,isAccount,own⟩
      · exact .inr ⟨noUser,within.of_evolves evolves⟩
    · simp [answers,event.gain_tokens]
    · simp [answers,event.gain_tokens]
  · exact outcome_of_evolves (gain_of_issuesTokens issues (not_exists.mp isTokens))
      evolves

theorem manageable_of_created (created : (store.usersCreate user).1 = true)
    (manages : usersAdmin ∈ scopes) (notAdmin : user.role ≠ .admin) {after : Store}
    (same : (store.usersCreate user).2.SameGrants after) : Manageable scopes after user.userId := by
  refine ⟨manages,fun other looked => ?_⟩
  rw [same.users,store.usersGetById_usersCreate created,if_pos rfl] at looked
  cases looked
  exact notAdmin

theorem outcome_writeUpdate (manages : usersAdmin ∈ scopes) {userId : String}
    (looked : store.usersGetById userId = some user) {request : UpdateUserRequest}
    (roleNotAdmin : ∀ role ∈ request.role, role ≠ .admin) :
    Outcome scopes accounts (present credential (.updateUser userId request)).gain
      store ((writeUpdate request user).serve perform now store) := by
  have evolves : store.Evolves scopes (store.usersCreate (request.applyTo user)).2 := by
    apply store.evolves_usersCreate
    cases given : request.role with
    | none =>
      refine .inl ⟨user,?_,?_⟩
      · rw [← looked,← userId_of_getById looked]
        rfl
      · simp [UpdateUserRequest.applyTo,given]
    | some role =>
      refine .inr ⟨manages,?_⟩
      simpa [UpdateUserRequest.applyTo,given] using roleNotAdmin role given
  have settled : ∀ after, (store.usersCreate (request.applyTo user)).1 = true →
      (store.usersCreate (request.applyTo user)).2.SameGrants after →
      Outcome scopes accounts (present credential (.updateUser userId request)).gain
        store (.user (request.applyTo user), after) := by
    intro after created same
    refine ⟨evolves.trans (evolves_of_sameGrants same),by rintro _ ⟨⟩,by rintro _ ⟨⟩,
      by rintro _ ⟨⟩,?_⟩
    intro account isAccount
    cases given : request.role with
    | none => simp [gain,given] at isAccount
    | some role =>
      simp only [gain,given,isSome_some,if_true,mem_some_iff] at isAccount
      subst isAccount
      refine manageable_of_created created manages ?_ same
      simpa [UpdateUserRequest.applyTo,given] using roleNotAdmin role given
  unfold writeUpdate
  rw [serve_call]
  split
  · rename_i created
    split
    · exact settled _ (some.inj created) (sameGrants_perform _ _ rfl)
    · exact settled _ (some.inj created) (sameGrants_self _)
  · exact outcome_of_evolves rfl evolves

theorem Outcome.of_evolves {before : Store}
    (rest : Outcome scopes accounts gain store served) (earlier : before.Evolves scopes store) :
    Outcome scopes accounts gain before served :=
  { rest with evolves := earlier.trans rest.evolves }

theorem outcome_createAccount (manages : usersAdmin ∈ scopes) {invitation : Invitation}
    (notAdmin : invitation.role ≠ .admin) (state : ServerState)
    (request : AcceptInvitationRequest) :
    Outcome scopes accounts (acceptInvitation request).gain store
      ((createAccount state request invitation).serve perform now store) := by
  let user : User :=
    { userId := request.freshUserId, username := request.username
      email := some invitation.email, role := invitation.role, isActive := true }
  have evolves : store.Evolves scopes (store.usersCreate user).2 :=
    store.evolves_usersCreate (.inr ⟨manages,notAdmin⟩)
  have stored := (store.usersCreate user).2.sameGrants_perform
    (.upsertCredentials
      { userId := request.freshUserId, username := request.username
        passwordHash := state.hasher.hash request.password
        failedAttempts := 0, lockedUntil := none }) rfl
  have evolvesStored := evolves.trans (evolves_of_sameGrants stored)
  rw [createAccount,serve_call]
  split
  · rename_i created
    rw [serve_redeem,serve_call]
    split
    · refine ⟨evolvesStored,by rintro _ ⟨⟩,by rintro _ ⟨⟩,by rintro _ ⟨⟩,?_⟩
      rintro _ ⟨⟩
      exact manageable_of_created (some.inj created) manages notAdmin stored
    · exact outcome_of_evolves rfl evolvesStored
  · exact outcome_of_evolves rfl evolves

theorem outcome_accept {request : AcceptInvitationRequest}
    (inviting : Inviting scopes store request.tokenHash) (state : ServerState) :
    Outcome scopes accounts (acceptInvitation request).gain store
      ((handleAccept state request).serve perform now store) := by
  unfold handleAccept
  split
  · exact outcome_status rfl
  rw [serve_call]
  split
  · exact outcome_status rfl
  rename_i invitation found
  have roleNotAdmin := inviting.2 invitation found
  split
  · exact outcome_status rfl
  split
  · exact outcome_status rfl
  rw [serve_call]
  split
  · exact outcome_status rfl
  have claimed : store.Evolves scopes
      (store.invitationsClaim invitation.invitationId now).2 :=
    store.evolves_invitationsClaim _ _
  rw [serve_call]
  split
  · exact outcome_of_evolves rfl claimed
  · exact outcome_of_evolves rfl claimed
  · exact (outcome_createAccount inviting.1 roleNotAdmin state request).of_evolves claimed

variable (within : Within scopes caller) (notAdmin : admin ∉ scopes)
include within notAdmin

theorem outcome_createClient (request : CreateClientRequest) :
    Outcome scopes accounts (present credential (.createClient request)).gain store
      ((handleCreateClient caller request).serve perform now store) := by
  unfold handleCreateClient
  split
  · exact outcome_status rfl
  split
  · exact outcome_status rfl
  split
  · exact outcome_status rfl
  rename_i grantable
  have granted := within.of_grantable notAdmin (by simpa using grantable)
  have evolves : store.Evolves scopes (store.createClient
      { clientId := request.freshClientId, name := request.name, scopes := request.scopes
        isActive := true, managedByEnv := false }).2 :=
    store.evolves_createClient (.inr granted)
  rw [serve_call]
  split
  · exact outcome_of_evolves rfl evolves
  · exact outcome_of_evolves rfl evolves

theorem outcome_updateClient (clientId : String) (request : UpdateClientRequest) :
    Outcome scopes accounts (present credential (.updateClient clientId request)).gain
      store ((handleUpdateClient caller clientId request).serve perform now store) := by
  unfold handleUpdateClient
  split
  · exact outcome_status rfl
  split
  · exact outcome_status rfl
  split
  · exact outcome_status rfl
  rename_i grantable
  rw [serve_call]
  split
  · exact outcome_status rfl
  · exact outcome_status rfl
  rename_i client found
  split
  · exact outcome_status rfl
  split
  · exact outcome_status rfl
  have evolves : store.Evolves scopes (store.createClient (request.applyTo client)).2 := by
    apply store.evolves_createClient
    cases scopesGiven : request.scopes with
    | none =>
      refine .inl ⟨client,?_,?_⟩
      · rw [← some.inj found,← store.clients.key_of_find? (some.inj found)]
        rfl
      · simp [UpdateClientRequest.applyTo,scopesGiven]
    | some =>
      refine .inr fun scope isScope => ?_
      simp only [UpdateClientRequest.applyTo,scopesGiven,getD_some] at isScope
      apply within.of_grantable notAdmin _ scope isScope
      simpa [scopesGiven] using grantable
  rw [serve_call]
  split
  · exact outcome_of_evolves rfl evolves
  · exact outcome_of_evolves rfl evolves

theorem outcome_issueClientToken (state : ServerState) (clientId : String) {freshToken : String}
    (isFresh : store.refreshTokens.find? freshToken = none) :
    Outcome scopes accounts
      (present credential (.issueClientToken clientId freshToken)).gain store
      ((handleIssueClientToken state caller clientId freshToken).serve perform now store) := by
  unfold handleIssueClientToken
  split
  · exact outcome_status rfl
  rw [serve_call]
  split
  · exact outcome_status rfl
  · exact outcome_status rfl
  rename_i client found
  split
  · exact outcome_status rfl
  rename_i grantable
  have granted := within.of_grantable notAdmin (by simpa using grantable)
  have foundById : store.clients.find? client.clientId = some client := by
    rw [store.clients.key_of_find? (some.inj found)]
    exact some.inj found
  rw [serve_call]
  split
  · apply outcome_of_wellIssued rfl
    · exact wellIssued_of_created isFresh rfl rfl rfl (by rintro _ ⟨⟩) ⟨client,foundById,rfl⟩
    · rintro _ ⟨⟩
      refine .inr ⟨rfl,fun other foundOther => ?_⟩
      rw [show other = client from some.inj (foundOther.symm.trans foundById)]
      exact granted
  · exact outcome_of_evolves rfl (evolves_of_sameGrants (store.sameGrants_createRefreshToken _))

theorem outcome_createApiKey {request : CreateApiKeyRequest}
    (isFresh : store.findApiKeyByHash request.freshKeyHash = none) :
    Outcome scopes accounts (present credential (.createApiKey request)).gain store
      ((handleCreateApiKey caller request).serve perform now store) := by
  unfold handleCreateApiKey
  split
  · exact outcome_status rfl
  rw [serve_call]
  split
  · exact outcome_status rfl
  · exact outcome_status rfl
  rename_i client found
  split
  · exact outcome_status rfl
  split
  · exact outcome_status rfl
  rename_i grantable
  have granted := within.of_grantable notAdmin (by simpa using grantable)
  have clientWithin : ClientWithin scopes store request.clientId := by
    intro other foundOther
    rw [show other = client from some.inj (foundOther.symm.trans (some.inj found))]
    exact granted
  have evolves : store.Evolves scopes (store.createApiKey
      { keyId := request.freshKeyId, clientId := request.clientId
        keyHash := request.freshKeyHash, expiresAt := none, revokedAt := none
        createdAt := now }).2 :=
    store.evolves_createApiKey clientWithin
  rw [serve_call]
  split
  · refine ⟨evolves,?_,by rintro _ ⟨⟩,by rintro _ ⟨⟩,by rintro _ ⟨⟩⟩
    rintro _ ⟨⟩ scope isScope
    obtain ⟨key,foundKey,other,foundOther,isScope⟩ := mem_scopes_apiKey.mp isScope
    rcases evolves.apiKeys _ key foundKey with ⟨_,foundBefore,-⟩ | keyWithin
    · rw [isFresh] at foundBefore
      cases foundBefore
    · exact keyWithin other foundOther scope isScope
  · exact outcome_of_evolves rfl evolves

theorem outcome_createPat (request : CreatePatRequest) :
    Outcome scopes accounts (present credential (.createPat request)).gain store
      ((handleCreatePat caller request).serve perform now store) := by
  unfold handleCreatePat
  split
  · exact outcome_status rfl
  split
  · exact outcome_status rfl
  rename_i userId own
  split
  · exact outcome_status rfl
  split
  · exact outcome_status rfl
  rw [serve_call]
  split
  · exact outcome_status rfl
  · exact outcome_status rfl
  rename_i user _
  dsimp only
  split
  · exact outcome_status rfl
  split
  · exact outcome_status rfl
  rename_i grantable
  have granted := within.of_grantable notAdmin (by simpa using grantable)
  split
  · exact outcome_status rfl
  split
  · exact outcome_status rfl
  rename_i expiresAt _
  have evolves : store.Evolves scopes (store.patCreate
      { tokenId := request.freshTokenId, userId, name := request.name
        tokenHash := request.freshTokenHash, scopes := request.granted caller user
        expiresAt, revokedAt := none }).2 :=
    store.evolves_patCreate granted
  rw [serve_call]
  split
  · rename_i created
    refine ⟨evolves,?_,by rintro _ ⟨⟩,by rintro _ ⟨⟩,by rintro _ ⟨⟩⟩
    rintro _ ⟨⟩ scope isScope
    obtain ⟨token,found,other,-,isScope⟩ := mem_scopes_pat.mp isScope
    rcases evolves.tokens _ token found with ⟨_,foundBefore,-⟩ | carried
    · rw [store.patFindByHash_of_created (some.inj created)] at foundBefore
      cases foundBefore
    · exact carried scope (mem_of_mem_patEffectiveScopes isScope)
  · exact outcome_of_evolves rfl evolves

theorem outcome_createUser (state : ServerState) (request : CreateUserRequest) :
    Outcome scopes accounts (present credential (.createUser request)).gain store
      ((handleCreateUser state caller request).serve perform now store) := by
  unfold handleCreateUser
  split
  · exact outcome_status rfl
  rename_i allowed
  have manages := within.manages notAdmin (by simpa using allowed)
  split
  · exact outcome_status rfl
  rename_i mayAssign
  have roleNotAdmin := within.role_ne_admin notAdmin (by simpa using mayAssign)
  split
  · exact outcome_status rfl
  rw [serve_call]
  split
  · exact outcome_status rfl
  · exact outcome_status rfl
  rw [serve_call]
  split
  · rename_i created
    rw [serve_call]
    have stored := (store.usersCreate
      { userId := request.freshUserId, username := request.username, email := request.email
        role := request.role, isActive := true }).2.sameGrants_perform
      (.upsertCredentials
        { userId := request.freshUserId, username := request.username
          passwordHash := state.hasher.hash request.password
          failedAttempts := 0, lockedUntil := none }) rfl
    have evolves := (store.evolves_usersCreate (.inr ⟨manages,roleNotAdmin⟩)).trans
      (evolves_of_sameGrants stored)
    split
    · refine ⟨evolves,by rintro _ ⟨⟩,by rintro _ ⟨⟩,by rintro _ ⟨⟩,?_⟩
      rintro _ ⟨⟩
      exact manageable_of_created (some.inj created) manages roleNotAdmin stored
    · exact outcome_of_evolves rfl evolves
  · exact outcome_of_evolves rfl (store.evolves_usersCreate (.inr ⟨manages,roleNotAdmin⟩))

theorem outcome_updateUser (userId : String) (request : UpdateUserRequest) :
    Outcome scopes accounts (present credential (.updateUser userId request)).gain
      store ((handleUpdateUser caller userId request).serve perform now store) := by
  unfold handleUpdateUser
  split
  · exact outcome_status rfl
  rename_i allowed
  have manages := within.manages notAdmin (by simpa using allowed)
  rw [serve_call]
  split
  · exact outcome_status rfl
  · exact outcome_status rfl
  rename_i user looked
  split
  · exact outcome_status rfl
  split
  · exact outcome_status rfl
  rename_i mayAssign
  have roleNotAdmin : ∀ role ∈ request.role, role ≠ .admin := by
    intro role given
    apply within.role_ne_admin notAdmin
    simpa [mem_def.mp given] using mayAssign
  split
  · rw [serve_call]
    dsimp only
    split
    · exact outcome_status rfl
    · exact outcome_writeUpdate manages (some.inj looked) roleNotAdmin
  · exact outcome_writeUpdate manages (some.inj looked) roleNotAdmin

theorem outcome_createInvitation (instant : Int) (request : CreateInvitationRequest) :
    Outcome scopes accounts (present credential (.createInvitation request)).gain
      store ((handleCreateInvitation caller instant request).serve perform now store) := by
  unfold handleCreateInvitation
  split
  · exact outcome_status rfl
  rename_i allowed
  have manages := within.manages notAdmin (by simpa using allowed)
  split
  · exact outcome_status rfl
  rename_i mayAssign
  have roleNotAdmin := within.role_ne_admin notAdmin (by simpa using mayAssign)
  split
  · exact outcome_status rfl
  split
  · exact outcome_status rfl
  rename_i invitedBy _
  split
  · exact outcome_status rfl
  rename_i expiresAt _
  have evolves : store.Evolves scopes (store.invitationsCreate
      { invitationId := request.freshInvitationId, email := request.email
        role := request.role, tokenHash := request.freshTokenHash, invitedBy
        expiresAt, acceptedAt := none, revokedAt := none }).2 :=
    store.evolves_invitationsCreate manages roleNotAdmin
  rw [serve_call]
  split
  · rename_i created
    refine ⟨evolves,by rintro _ ⟨⟩,by rintro _ ⟨⟩,?_,by rintro _ ⟨⟩⟩
    rintro _ ⟨⟩
    refine ⟨manages,fun invitation found => ?_⟩
    rcases evolves.invitations _ invitation found with ⟨earlier,foundEarlier,-⟩ | ⟨-,isNot⟩
    · rw [store.invitationsGetByTokenHash_of_created (some.inj created)] at foundEarlier
      cases foundEarlier
    · exact isNot
  · exact outcome_of_evolves rfl evolves

end Outcomes

/-! Every step stays within the bounds. -/

/-- All that was obtained is within the bounds. -/
structure GrantWorld.Bounded (scopes : List String) (world : GrantWorld) : Prop where
  credentials : ∀ credential ∈ world.credentials, CarriesWithin scopes world.store credential
  refreshTokens : ∀ tokenHash ∈ world.refreshTokens,
    Renewable scopes world.accounts world.store tokenHash
  invitations : ∀ tokenHash ∈ world.invitations, Inviting scopes world.store tokenHash
  accounts : ∀ userId ∈ world.accounts, Manageable scopes world.store userId

section

variable {scopes : List String} {world : GrantWorld} {state : ServerState} {now : Int}

theorem outcome_request (notAdmin : admin ∉ scopes) {caller : CallerContext}
    (within : Within scopes caller) {credential : Credential} {request : GrantRequest}
    (isFresh : world.isFresh (.present credential request) = true) :
    Outcome scopes world.accounts (present credential request).gain world.store
      ((request.handle state caller now).serve perform now world.store) := by
  cases request with
  | createClient request => exact outcome_createClient within notAdmin request
  | updateClient clientId request => exact outcome_updateClient within notAdmin clientId request
  | issueClientToken clientId =>
    exact outcome_issueClientToken within notAdmin state clientId
      (isNone_iff_eq_none.mp isFresh)
  | createApiKey => exact outcome_createApiKey within notAdmin (isNone_iff_eq_none.mp isFresh)
  | createPat request => exact outcome_createPat within notAdmin request
  | createUser request => exact outcome_createUser within notAdmin state request
  | updateUser userId request => exact outcome_updateUser within notAdmin userId request
  | createInvitation request => exact outcome_createInvitation within notAdmin now request

variable {event : GrantEvent}

theorem outcome_signIn (bounded : world.Bounded scopes)
    (issues : event.issuesTokens = true) {served : Response × Store}
    (issued : WellIssued world.store served)
    (owns : ∀ pair, served.1 = .tokens pair → pair.access.userId.any (· ∈ world.accounts) = true) :
    Outcome scopes world.accounts event.gain world.store served := by
  apply outcome_of_wellIssued issues issued
  intro pair answers
  obtain ⟨userId,own,isAccount⟩ := (any_eq_true _ _).mp (owns pair answers)
  have isAccount := of_decide_eq_true isAccount
  exact .inl ⟨userId,isAccount,own,bounded.accounts userId isAccount⟩

theorem outcome_refresh (bounded : world.Bounded scopes) {tokenHash freshToken : String}
    (isHeld : tokenHash ∈ world.refreshTokens)
    (isFresh : world.store.refreshTokens.find? freshToken = none) :
    Outcome scopes world.accounts (refresh tokenHash freshToken).gain world.store
      ((handleRefresh state tokenHash freshToken).serve perform now world.store) := by
  apply outcome_of_wellIssued rfl
  · exact (issues_handleRefresh state tokenHash).wellIssued isFresh
  · intro pair answers
    obtain ⟨row,stored,owner⟩ := bounded.refreshTokens tokenHash isHeld
    obtain ⟨valid,isValid,-,sameUser,sameClient⟩ := valid_of_refreshed answers
    obtain ⟨found,-⟩ := validateRefreshToken_eq_some_iff.mp isValid
    rw [stored] at found
    cases found
    rw [← sameUser,← sameClient]
    rcases owner with ⟨userId,isAccount,own⟩ | ⟨noUser,clientWithin⟩
    · exact .inl ⟨userId,isAccount,own,bounded.accounts userId isAccount⟩
    · exact .inr ⟨noUser,clientWithin⟩

theorem outcome_of_step (notAdmin : admin ∉ scopes) (bounded : world.Bounded scopes)
    (isFresh : world.isFresh event = true) (holds : world.holds event = true)
    (owns : world.ownsSession event (event.serve state world.store now).1 = true) :
    Outcome scopes world.accounts event.gain world.store (event.serve state world.store now) := by
  cases event with
  | present credential request =>
    simp only [GrantEvent.serve]
    cases accepted : requireAuth world.store state.jwtConfig now credential with
    | none =>
      apply outcome_status
      cases request <;> rfl
    | some caller =>
      have isHeld : credential ∈ world.credentials := of_decide_eq_true holds
      have within : Within scopes caller := by
        intro scope isScope
        rw [scopes_of_requireAuth accepted] at isScope
        exact bounded.credentials credential isHeld scope isScope
      exact outcome_request notAdmin within isFresh
  | acceptInvitation request =>
    exact outcome_accept (bounded.invitations _ (of_decide_eq_true holds)) state
  | login request =>
    apply outcome_signIn bounded rfl
    · exact (issues_handleLogin state request).wellIssued
        (isNone_iff_eq_none.mp isFresh)
    · intro pair answers
      rw [answers] at owns
      exact owns
  | totpLogin request =>
    apply outcome_signIn bounded rfl
    · exact (issues_handleTotpLogin state request).wellIssued
        (isNone_iff_eq_none.mp isFresh)
    · intro pair answers
      rw [answers] at owns
      exact owns
  | refresh tokenHash freshToken =>
    exact outcome_refresh bounded (of_decide_eq_true holds)
      (isNone_iff_eq_none.mp isFresh)

theorem keeps_grantServe (event : GrantEvent) (state : ServerState) (store : Store) (now : Int) :
    store.Keeps (event.serve state store now).2 := by
  cases event with
  | present =>
    simp only [GrantEvent.serve]
    split
    · exact store.keeps_self
    · exact keeps_serve _ now store
  | _ => exact keeps_serve _ now store

theorem mem_append_toList {α : Type*} {members : List α} {gained : Option α} {member : α}
    (isMember : member ∈ members ++ gained.toList) : member ∈ members ∨ member ∈ gained := by
  rcases mem_append.mp isMember with isOld | isNew
  · exact .inl isOld
  · exact .inr (mem_toList.mp isNew)

theorem GrantWorld.Bounded.step (notAdmin : admin ∉ scopes)
    (bounded : world.Bounded scopes) {after : GrantWorld}
    (step : world.step state (now, event) = some after) : after.Bounded scopes := by
  simp only [GrantWorld.step] at step
  split at step
  · rename_i allowed
    obtain ⟨⟨-,isFresh⟩,holds,owns⟩ := allowed
    have outcome := outcome_of_step notAdmin bounded isFresh holds owns
    have keeps := keeps_grantServe event state world.store now
    cases step
    constructor
    · intro credential isHeld
      rcases mem_append_toList isHeld with isOld | isNew
      · exact (bounded.credentials credential isOld).of_evolves outcome.evolves
      · exact outcome.credential credential isNew
    · intro tokenHash isHeld
      have grows : ∀ userId ∈ world.accounts, userId ∈ world.accounts ++
          (event.gain (event.serve state world.store now).1).account.toList :=
        fun _ => mem_append_left _
      rcases mem_append_toList isHeld with isOld | isNew
      · exact (bounded.refreshTokens tokenHash isOld).of_evolves outcome.evolves keeps grows
      · exact (outcome.refreshToken tokenHash isNew).of_evolves (evolves_self _)
          (keeps_self _) grows
    · intro tokenHash isHeld
      rcases mem_append_toList isHeld with isOld | isNew
      · exact (bounded.invitations tokenHash isOld).of_evolves outcome.evolves
      · exact outcome.invitation tokenHash isNew
    · intro userId isHeld
      rcases mem_append_toList isHeld with isOld | isNew
      · exact (bounded.accounts userId isOld).of_evolves outcome.evolves
      · exact outcome.account userId isNew
  · cases step

end

/-- From a credential without the wildcard, whatever is obtained carries its scopes or, if it
manages users, default scopes of operators. -/
theorem credentials_stay_attainable {state : ServerState} {start : Store} {clock : Int}
    {credential : Credential} (notAdmin : admin ∉ credential.scopes start)
    {events : List (Int × GrantEvent)} {final : GrantWorld}
    (reaches : run (GrantWorld.step state) (.initial start clock credential) events = some final)
    {obtained : Credential} (isObtained : obtained ∈ final.credentials) {scope : String}
    (carries : scope ∈ obtained.scopes final.store) :
    scope ∈ credential.scopes start ∨
      usersAdmin ∈ credential.scopes start ∧ scope ∈ defaultScopesForRole .operator := by
  have bounded : final.Bounded (credential.scopes start) := by
    apply invariant_of_run (GrantWorld.Bounded (credential.scopes start)) _ _ reaches
    · rintro world ⟨now,event⟩ next bounded step
      exact bounded.step notAdmin step
    · refine ⟨?_,by rintro _ ⟨⟩,by rintro _ ⟨⟩,by rintro _ ⟨⟩⟩
      intro other isStart scope isScope
      rw [mem_singleton.mp isStart] at isScope
      exact .inl isScope
  exact bounded.credentials obtained isObtained scope carries

/-- One client that may manage users, and a key for it. -/
def userManager : Store :=
  { empty with
    clients := .single _
      { clientId := "c1", name := "provisioning", scopes := [usersAdmin], isActive := true
        managedByEnv := false }
    apiKeys := .single _
      { keyId := "k1", clientId := "c1", keyHash := "key", expiresAt := none, revokedAt := none
        createdAt := 0 } }

/-- The key creates an operator and signs in as it. -/
def operatorSession : List (Int × GrantEvent) :=
  [(1, .present (.apiKey "key") (.createUser
      { username := "bob", password := "password", role := .operator, email := none
        freshUserId := "u9" })),
    (2, .login
      { throttled := false, username := "bob", password := "password", code := none
        recoveryCode := none, freshToken := "session" })]

theorem credentials_stay_attainable_operator :
    ∃ final, run (GrantWorld.step plainServer) (.initial userManager 0 (.apiKey "key"))
        operatorSession = some final ∧
      admin ∉ (apiKey "key").scopes userManager ∧
      ∀ obtained ∈ final.credentials, ∀ scope ∈ obtained.scopes final.store,
        scope = usersAdmin ∨ scope ∈ defaultScopesForRole .operator := by
  have notAdmin : admin ∉ (apiKey "key").scopes userManager := by decide
  have ⟨final,reaches⟩ : ∃ final, run (GrantWorld.step plainServer)
      (.initial userManager 0 (.apiKey "key")) operatorSession = some final :=
    ⟨_,rfl⟩
  refine ⟨final,reaches,notAdmin,fun obtained isObtained scope carries => ?_⟩
  rcases credentials_stay_attainable notAdmin reaches isObtained carries with own | ⟨-,ofRole⟩
  · exact .inl (mem_singleton.mp own)
  · exact .inr ofRole

/-- The operator's session can write jobs, which the key cannot. -/
theorem operator_session_exceeds_key :
    ∃ final, run (GrantWorld.step plainServer) (.initial userManager 0 (.apiKey "key"))
        operatorSession = some final ∧
      admin ∉ (apiKey "key").scopes userManager ∧
      ∃ obtained ∈ final.credentials, jobsWrite ∈ obtained.scopes final.store ∧
        jobsWrite ∉ (apiKey "key").scopes userManager := by
  refine ⟨_,rfl,by decide,_,mem_cons_of_mem _ mem_cons_self,?_,by decide⟩
  decide

end Croniq.Auth
