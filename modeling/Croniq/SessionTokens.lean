import Croniq.CredentialLedger
import Croniq.UserAccounts

/-!
# The tokens that requests issue

A pair of tokens in an answer is backed by the store: its refresh token has a
row of the same account, and the generation in its access token is one the
account has reached.
-/

namespace Croniq.Auth

open CallPrograms KeyedTables Option Program Auth.Store

variable {before after store : Store} {tokenHash userId : String} {pair : TokenPair}
  {state : ServerState} {row : RefreshToken}

theorem Store.Keeps.owner (keeps : before.Keeps after) {clientId : String} {userId : Option String}
    (stored : ∃ row, before.refreshTokens.find? tokenHash = some row ∧ row.userId = userId ∧
      row.clientId = clientId) :
    ∃ row, after.refreshTokens.find? tokenHash = some row ∧ row.userId = userId ∧
      row.clientId = clientId := by
  obtain ⟨row,found,sameUser,sameClient⟩ := stored
  obtain ⟨later,foundLater,⟨sameUserLater,sameClientLater,-⟩,-⟩ := keeps.refreshTokens found
  exact ⟨later,foundLater,sameUserLater.trans sameUser,sameClientLater.trans sameClient⟩

structure Minted (pair : TokenPair) (store : Store) : Prop where
  row : ∃ row, store.refreshTokens.find? pair.refreshTokenHash = some row ∧
    row.userId = pair.access.userId ∧ row.clientId = pair.access.clientId
  generation : ∀ userId, pair.access.userId = some userId →
    ∃ generation, pair.access.tokenGeneration = some generation ∧
      ∃ user, store.users.find? userId = some user ∧ generation ≤ user.tokenGeneration

theorem Minted.of_keeps (minted : Minted pair before) (keeps : before.Keeps after) :
    Minted pair after where
  row := keeps.owner minted.row
  generation := by
    intro userId own
    obtain ⟨generation,stamped,user,found,reached⟩ := minted.generation userId own
    obtain ⟨later,foundLater,grows⟩ := keeps.users found
    exact ⟨generation,stamped,later,foundLater,reached.trans grows⟩

/-- The access token has the scopes of its account or client. -/
def Entitled (pair : TokenPair) (store : Store) : Prop :=
  match pair.access.userId with
  | some userId =>
    ∃ user, store.usersGetById userId = some user ∧
      pair.access.scopes = defaultScopesForRole user.role
  | none =>
    ∃ client, store.clients.find? pair.access.clientId = some client ∧
      pair.access.scopes = client.scopes

/-- Every account, client, key, token and invitation stays. -/
structure Store.SameGrants (before after : Store) : Prop where
  users : ∀ userId, after.usersGetById userId = before.usersGetById userId
  clients : after.clients = before.clients
  apiKeys : after.apiKeys = before.apiKeys
  tokens : after.tokens = before.tokens
  invitations : after.invitations = before.invitations

theorem Store.sameGrants_self (store : Store) : store.SameGrants store :=
  ⟨fun _ => rfl,rfl,rfl,rfl,rfl⟩

theorem Store.SameGrants.trans {first second third : Store} (earlier : first.SameGrants second)
    (later : second.SameGrants third) :
    first.SameGrants third where
  users userId := (later.users userId).trans (earlier.users userId)
  clients := later.clients.trans earlier.clients
  apiKeys := later.apiKeys.trans earlier.apiKeys
  tokens := later.tokens.trans earlier.tokens
  invitations := later.invitations.trans earlier.invitations

/-- The calls that write what someone is granted. -/
def StoreCall.grants : StoreCall → Bool
  | .createClient _ => true
  | .createApiKey _ => true
  | .usersCreate _ => true
  | .invitationsCreate _ => true
  | .invitationsClaim _ _ => true
  | .patCreate _ => true
  | _ => false

theorem Store.usersGetById_of_map {condition : UserRow → Bool} {change : UserRow → UserRow}
    (keepsKey : ∀ row, (change row).userId = row.userId)
    (changed : after.users = before.users.updateWhere condition change keepsKey)
    (keepsUser : ∀ row, (change row).toUser = row.toUser) (userId : String) :
    after.usersGetById userId = before.usersGetById userId := by
  have sameUser : ∀ row, (changeWhere condition change row).toUser = row.toUser := by
    intro row
    unfold changeWhere
    split
    · exact keepsUser row
    · rfl
  simp only [usersGetById,changed,Table.find?_updateWhere,map_map]
  exact congrFun (congrArg _ (funext sameUser)) _

theorem Store.sameGrants_perform (store : Store) (what : StoreCall) (grants : what.grants = false) :
    store.SameGrants (store.perform what).2 := by
  have same := store.sameGrants_self
  cases what with
  | usersSetLastLogin userId instant | usersBumpTokenGeneration =>
    refine { same with users := usersGetById_of_map (fun _ => ?_) rfl fun _ => ?_ }
    all_goals rfl
  | createClient _ | createApiKey | usersCreate | invitationsCreate | invitationsClaim
  | patCreate => cases grants
  | _ =>
    simp only [perform,upsertCredentials,createRefreshToken,passwordResetsCreate,inserted]
    repeat' split
    all_goals exact { same with }

theorem Store.sameGrants_createRefreshToken (store : Store) (token : RefreshToken) :
    store.SameGrants (store.createRefreshToken token).2 :=
  store.sameGrants_perform (.createRefreshToken token) rfl

/-- All grants stay, and a pair in the answer is minted for its account. -/
def WellIssued (before : Store) (served : Response × Store) : Prop :=
  before.SameGrants served.2 ∧
    ∀ pair, served.1 = .tokens pair → Minted pair served.2 ∧ Entitled pair served.2

/-- The handler issues well where the fresh token is fresh and the known users are as they were. -/
def Issues (freshToken : String) (known : List User) (now : Int) (handler : Handler) : Prop :=
  ∀ store : Store, store.refreshTokens.find? freshToken = none →
    (∀ user ∈ known, store.usersGetById user.userId = some user) →
    WellIssued store (handler.serve perform now store)

theorem Issues.wellIssued {freshToken : String} {now : Int} {handler : Handler}
    (issues : Issues freshToken [] now handler)
    (isFresh : store.refreshTokens.find? freshToken = none) :
    WellIssued store (handler.serve perform now store) :=
  issues store isFresh fun _ => by simp

def StoreCall.mints : StoreCall → Bool
  | .createRefreshToken _ => true
  | _ => false

variable {what : StoreCall}

theorem Store.find?_refreshTokens_perform (mints : what.mints = false)
    (store : Store) {token : String} (isFresh : store.refreshTokens.find? token = none) :
    (store.perform what).2.refreshTokens.find? token = none := by
  cases what with
  | createRefreshToken => cases mints
  | revokeRefreshToken =>
    simp only [perform,revokeRefreshToken,Table.find?_updateWhere,isFresh,map_none]
  | revokeRefreshTokensForUser =>
    simp only [perform,revokeRefreshTokensForUser,Table.find?_updateWhere,isFresh,map_none]
  | _ =>
    simp only [perform,createClient,createApiKey,upsertCredentials,usersCreate,
      invitationsCreate,passwordResetsCreate,patCreate,inserted]
    repeat' split
    all_goals exact isFresh

section Rules

variable {freshToken : String} {known : List User} {now : Int}

theorem issues_done {response : Response} (noTokens : ∀ pair, response ≠ .tokens pair) :
    Issues freshToken known now (.done response) :=
  fun store _ _ => ⟨store.sameGrants_self,fun pair answers => absurd answers (noTokens pair)⟩

theorem issues_status (code : Status) : Issues freshToken known now (.done (.status code)) :=
  issues_done fun _ => Response.noConfusion

theorem issues_call (mints : what.mints = false)
    (grants : what.grants = false) {next : Int → Option what.Answer → Handler}
    (goesOn : ∀ answer, Issues freshToken known now (next now (some answer))) :
    Issues freshToken known now (.call what next) := by
  intro store isFresh isKnown
  have same := store.sameGrants_perform what grants
  obtain ⟨rest,answers⟩ := goesOn (store.perform what).1 (store.perform what).2
    (store.find?_refreshTokens_perform mints isFresh)
    fun user isUser => (same.users _).trans (isKnown user isUser)
  exact ⟨same.trans rest,answers⟩

theorem issues_getById {userId : String}
    {next : Int → Option (StoreCall.Answer (.usersGetById userId)) → Handler}
    (missing : Issues freshToken known now (next now (some none)))
    (found : ∀ user : User, user.userId = userId →
      Issues freshToken (user :: known) now (next now (some (some user)))) :
    Issues freshToken known now (.call (.usersGetById userId) next) := by
  intro store isFresh isKnown
  rw [serve_call]
  change WellIssued store ((next now (some (store.usersGetById userId))).serve _ now store)
  cases looked : store.usersGetById userId with
  | none => exact missing store isFresh isKnown
  | some user =>
    have sameId := userId_of_getById looked
    refine found user sameId store isFresh ?_
    intro other isOther
    rcases List.mem_cons.mp isOther with rfl | isOther
    · rw [sameId,looked]
    · exact isKnown other isOther

theorem Entitled.of_sameGrants {pair : TokenPair} {before after : Store}
    (entitled : Entitled pair before) (same : before.SameGrants after) : Entitled pair after := by
  unfold Entitled at entitled ⊢
  split
  · rename_i userId own
    rw [own] at entitled
    rwa [same.users]
  · rename_i noUser
    rw [noUser] at entitled
    rwa [same.clients]

theorem WellIssued.of_sameGrants {before middle : Store} {served : Response × Store}
    (rest : WellIssued middle served) (same : before.SameGrants middle) :
    WellIssued before served :=
  ⟨same.trans rest.1,rest.2⟩

/-- The last step of every issue: the refresh token is stored for its account or client. -/
theorem wellIssued_of_created {store : Store} {pair : TokenPair} {token : RefreshToken}
    (isFresh : store.refreshTokens.find? token.tokenHash = none)
    (sameHash : pair.refreshTokenHash = token.tokenHash)
    (sameUser : token.userId = pair.access.userId)
    (sameClient : token.clientId = pair.access.clientId)
    (generation : ∀ userId, pair.access.userId = some userId →
      ∃ user, store.users.find? userId = some user ∧
        pair.access.tokenGeneration = some user.tokenGeneration) (entitled : Entitled pair store) :
    WellIssued store (.tokens pair, (store.createRefreshToken token).2) := by
  have same := store.sameGrants_createRefreshToken token
  refine ⟨same,?_⟩
  rintro _ ⟨⟩
  refine ⟨⟨⟨token,?_,sameUser,sameClient⟩,?_⟩,entitled.of_sameGrants same⟩
  · obtain ⟨extended,inserts⟩ := store.refreshTokens.exists_insert_of_find?_eq_none isFresh
    simp only [createRefreshToken,inserted,inserts]
    rw [sameHash,Table.find?_insert _ inserts,if_pos rfl]
  · intro userId own
    obtain ⟨user,found,stamped⟩ := generation userId own
    exact ⟨_,stamped,(store.keeps_perform (.createRefreshToken token)).users found⟩

variable (state : ServerState)

theorem issues_mintUserTokens {authMethod : AuthMethod} {user : User} (isKnown : user ∈ known)
    (recoveryCode : Option String) :
    Issues freshToken known now
      (mintUserTokens state authMethod user recoveryCode freshToken) := by
  intro store isFresh knows
  have same : store.SameGrants (store.usersSetLastLogin user.userId now) :=
    store.sameGrants_perform (.usersSetLastLogin user.userId now) rfl
  have looked := knows user isKnown
  obtain ⟨row,found,-⟩ := map_eq_some_iff.mp looked
  have generation : store.usersTokenGeneration user.userId = some row.tokenGeneration := by
    simp [usersTokenGeneration,found]
  have signedIn : ∃ later, (store.usersSetLastLogin user.userId now).users.find? user.userId =
      some later ∧ later.tokenGeneration = row.tokenGeneration := by
    simp only [usersSetLastLogin,Table.find?_updateWhere,found,map_some]
    refine ⟨_,rfl,?_⟩
    unfold changeWhere
    split <;> rfl
  obtain ⟨later,foundLater,sameGeneration⟩ := signedIn
  simp only [mintUserTokens,serve_call,perform,generation]
  cases recoveryCode
  all_goals
    simp only [serve_redeem,serve_done]
    refine WellIssued.of_sameGrants ?_ same
    refine wellIssued_of_created isFresh rfl rfl rfl ?_ ⟨user,?_,rfl⟩
    · rintro userId ⟨⟩
      exact ⟨later,foundLater,by rw [sameGeneration]; rfl⟩
    · exact (same.users user.userId).trans looked

theorem issues_countFailedAttempt (stored : PasswordCredential) {rest : Handler}
    (goesOn : Issues freshToken known now rest) :
    Issues freshToken known now (countFailedAttempt stored rest) :=
  issues_call rfl rfl fun _ => issues_call rfl rfl fun _ => goesOn

theorem issues_clearFailedAttempts (stored : PasswordCredential) {rest : Handler}
    (goesOn : Issues freshToken known now rest) :
    Issues freshToken known now (clearFailedAttempts stored rest) := by
  apply issues_call rfl rfl
  intro found
  dsimp only
  split
  · exact issues_call rfl rfl fun _ => goesOn
  · exact goesOn

theorem issues_verifySecondFactor (userId : String) (code : Option CodeCheck)
    (recoveryCode : Option String) {refused : Status → Handler} {passed : Option String → Handler}
    (refuses : ∀ refusal, Issues freshToken known now (refused refusal))
    (passes : ∀ usedCode, Issues freshToken known now (passed usedCode)) :
    Issues freshToken known now (verifySecondFactor userId code recoveryCode refused passed) := by
  unfold verifySecondFactor
  split
  · exact passes none
  · exact refuses _
  · exact refuses _
  · apply issues_call rfl rfl
    intro found
    cases found with
    | none => exact refuses _
    | some => exact issues_call rfl rfl fun _ => passes _
  · exact refuses _

theorem issues_handleLogin (request : LoginRequest) :
    Issues request.freshToken known now (handleLogin state request) := by
  unfold handleLogin
  split
  · exact issues_status _
  split
  · exact issues_status _
  apply issues_call rfl rfl
  intro found
  cases found with
  | none => exact issues_status _
  | some stored =>
  dsimp only
  split
  · exact issues_status _
  split
  · exact issues_status _
  · exact issues_countFailedAttempt stored (issues_status _)
  apply issues_getById
  · exact issues_status _
  intro user sameId
  have isKnown : user ∈ user :: known := List.mem_cons_self
  dsimp only
  split
  · exact issues_status _
  apply issues_call rfl rfl
  intro secret
  dsimp only
  split
  · split
    · exact issues_done fun _ => Response.noConfusion
    · apply issues_verifySecondFactor
      · intro refusal
        split
        · exact issues_countFailedAttempt stored (issues_status _)
        · exact issues_status _
      · intro usedCode
        apply issues_clearFailedAttempts
        exact issues_mintUserTokens state isKnown usedCode
  · split
    · apply issues_clearFailedAttempts
      exact issues_done fun _ => Response.noConfusion
    · apply issues_clearFailedAttempts
      exact issues_mintUserTokens state isKnown none

theorem issues_handleTotpLogin (request : TotpLoginRequest) :
    Issues request.freshToken known now (handleTotpLogin state request) := by
  unfold handleTotpLogin
  split
  · exact issues_status _
  split
  · exact issues_status _
  split
  · exact issues_status _
  rename_i userId stepUp
  apply issues_getById
  · exact issues_status _
  intro user sameId
  have isKnown : user ∈ user :: known := List.mem_cons_self
  dsimp only
  split
  · exact issues_status _
  apply issues_call rfl rfl
  intro stored
  dsimp only
  split
  · exact issues_status _
  apply issues_call rfl rfl
  intro secret
  cases secret with
  | none => exact issues_status _
  | some =>
  dsimp only
  split
  · exact issues_status _
  apply issues_verifySecondFactor
  · intro refusal
    cases stored with
    | none => exact issues_status _
    | some stored =>
      dsimp only
      split
      · exact issues_countFailedAttempt stored (issues_status _)
      · exact issues_status _
  · intro usedCode
    cases stored with
    | none => exact issues_mintUserTokens state isKnown usedCode
    | some =>
      apply issues_clearFailedAttempts
      exact issues_mintUserTokens state isKnown usedCode

theorem issues_handleEnrollTotpConfirm (request : EnrollTotpConfirmRequest) :
    Issues request.freshToken known now (handleEnrollTotpConfirm state request) := by
  unfold handleEnrollTotpConfirm
  split
  · exact issues_status _
  split
  · exact issues_status _
  apply issues_getById
  · exact issues_status _
  intro user sameId
  dsimp only
  split
  · exact issues_status _
  apply issues_call rfl rfl
  intro secret
  cases secret with
  | none => exact issues_status _
  | some =>
  dsimp only
  split
  · exact issues_status _
  split
  · exact issues_status _
  · exact issues_status _
  · apply issues_call rfl rfl
    exact fun _ => issues_mintUserTokens state List.mem_cons_self none

theorem issues_finishCallback {user : User} (isKnown : user ∈ known) :
    Issues freshToken known now (finishCallback state freshToken user) := by
  unfold finishCallback
  split
  · exact issues_status _
  · exact issues_mintUserTokens state isKnown none

theorem issues_exchange (presented : String) (token : RefreshToken) :
    Issues freshToken known now (exchange state presented token freshToken) := by
  unfold exchange
  split
  · rename_i userId isUser
    apply issues_getById
    · exact issues_status _
    · intro user sameId
      dsimp only
      split
      · exact issues_status _
      -- The generation is read from the row of the user.
      intro store isFresh knows
      have looked := knows user List.mem_cons_self
      obtain ⟨row,found,-⟩ := map_eq_some_iff.mp looked
      have generation : store.usersTokenGeneration user.userId = some row.tokenGeneration := by
        simp [usersTokenGeneration,found]
      simp only [serve_call,perform,generation,rotate,serve_redeem,serve_done]
      refine wellIssued_of_created isFresh rfl (by rw [isUser,← sameId]; rfl) rfl ?_
        ⟨user,looked,rfl⟩
      rintro _ ⟨⟩
      exact ⟨row,found,rfl⟩
  · rename_i isClient
    intro store isFresh knows
    cases looked : store.clients.find? token.clientId with
    | none =>
      simp only [serve_call,perform,looked]
      exact issues_status _ store isFresh knows
    | some client =>
      simp only [serve_call,perform,looked]
      split
      · exact issues_status _ store isFresh knows
      simp only [rotate,serve_call,perform,serve_redeem,serve_done]
      refine wellIssued_of_created isFresh rfl isClient rfl ?_ ⟨client,looked,rfl⟩
      rintro _ ⟨⟩

theorem issues_handleRefresh (tokenHash : String) :
    Issues freshToken known now (handleRefresh state tokenHash freshToken) := by
  apply issues_call rfl rfl
  intro found
  cases found with
  | none =>
    apply issues_call rfl rfl
    intro row
    cases row with
    | none => exact issues_done fun _ => Response.noConfusion
    | some =>
      dsimp only
      split
      · unfold endSessionsAfterReuse
        split
        · refine issues_call rfl rfl fun _ => issues_call rfl rfl fun _ => ?_
          exact issues_done fun _ => Response.noConfusion
        · exact issues_done fun _ => Response.noConfusion
      · exact issues_status _
  | some token =>
    dsimp only
    split
    · exact issues_done fun _ => Response.noConfusion
    · exact issues_call rfl rfl fun _ => issues_exchange state tokenHash token

end Rules

/-! The other requests answer without tokens. -/

def Mute (handler : Handler) : Prop :=
  ∀ now store pair, (handler.serve perform now store).1 ≠ .tokens pair

theorem mute_done {response : Response} (noTokens : ∀ pair, response ≠ .tokens pair) :
    Mute (.done response) :=
  fun _ _ => noTokens

theorem mute_status (code : Status) : Mute (.done (.status code)) :=
  mute_done nofun

theorem mute_redeem (credential : Redeemable) {rest : Handler} (goesOn : Mute rest) :
    Mute (.redeem credential rest) :=
  goesOn

theorem mute_call {next : Int → Option what.Answer → Handler}
    (goesOn : ∀ now answer, Mute (next now (some answer))) : Mute (.call what next) :=
  fun now store => goesOn now (store.perform what).1 now (store.perform what).2

theorem mute_handleLogout (instant : Int) (tokenHashes : List String) :
    Mute (handleLogout instant tokenHashes) := by
  induction tokenHashes with
  | nil => exact mute_status _
  | cons tokenHash rest ih => exact mute_call fun _ _ => ih

section

variable (state : ServerState)

theorem mute_handleChangePassword (caller : CallerContext) (oldPassword newPassword : String) :
    Mute (handleChangePassword state caller oldPassword newPassword) := by
  unfold handleChangePassword
  split
  · exact mute_status _
  split
  · exact mute_status _
  apply mute_call
  intro _ user
  split
  · exact mute_status _
  apply mute_call
  intro _ stored
  split
  · exact mute_status _
  split
  · apply mute_call
    intro _ written
    split
    · exact mute_call fun _ _ => mute_status _
    · exact mute_status _
  · exact mute_status _

theorem mute_handleRequest (request : ResetRequest) : Mute (handleRequest state request) := by
  unfold handleRequest
  split
  · exact mute_status _
  split
  · exact mute_status _
  apply mute_call
  intro _ user
  split
  · exact mute_status _
  split
  · exact mute_status _
  apply mute_call
  intro _ retired
  apply mute_call
  intro _ created
  split
  · exact mute_status _
  · exact mute_status _

theorem mute_handleConfirm (tokenHash newPassword : String) :
    Mute (handleConfirm state tokenHash newPassword) := by
  unfold handleConfirm
  split
  · exact mute_status _
  split
  · exact mute_status _
  apply mute_call
  intro _ reset
  split
  · exact mute_status _
  split
  · exact mute_status _
  split
  · exact mute_status _
  apply mute_call
  intro _ user
  split
  · exact mute_status _
  split
  · exact mute_status _
  apply mute_call
  intro _ stored
  split
  · exact mute_status _
  apply mute_call
  intro _ written
  split
  · apply mute_redeem
    exact mute_call fun _ _ => mute_call fun _ _ => mute_status _
  · exact mute_status _

end

theorem mute_writeUpdate (request : UpdateUserRequest) (user : User) :
    Mute (writeUpdate request user) := by
  have answered : Mute (.done (.user (request.applyTo user))) := mute_done nofun
  apply mute_call
  intro _ written
  split
  · split
    · exact mute_call fun _ _ => answered
    · exact answered
  · exact mute_status _

theorem mute_handleUpdateUser (caller : CallerContext) (userId : String)
    (request : UpdateUserRequest) : Mute (handleUpdateUser caller userId request) := by
  unfold handleUpdateUser
  split
  · exact mute_status _
  apply mute_call
  intro _ user
  cases user with
  | none => exact mute_status _
  | some user =>
    dsimp only
    split
    · exact mute_status _
    split
    · exact mute_status _
    split
    · apply mute_call
      intro _ activeAdmins
      dsimp only
      split
      · exact mute_status _
      · exact mute_writeUpdate request user
    · exact mute_writeUpdate request user

/-! What a refresh needs, and what it is enough to have. -/
variable {fresh newPassword : String} {caller : CallerContext}

theorem owner_of_exchange {presented : String} {token : RefreshToken} {now : Int}
    (answers : ((exchange state presented token fresh).serve perform now store).1 = .tokens pair) :
    token.userId = pair.access.userId ∧ token.clientId = pair.access.clientId := by
  unfold exchange at answers
  cases owner : token.userId with
  | some userId =>
    simp only [owner,serve_call,perform] at answers
    cases looked : store.usersGetById userId with
    | none => simp [looked] at answers
    | some =>
      simp only [looked] at answers
      split at answers <;> cases answers
      rw [← userId_of_getById looked]
      exact ⟨rfl,rfl⟩
  | none =>
    simp only [owner,serve_call,perform] at answers
    cases looked : store.clients.find? token.clientId with
    | none => simp [looked] at answers
    | some =>
      simp only [looked] at answers
      split at answers <;> cases answers
      exact ⟨rfl,rfl⟩

theorem Store.validateRefreshToken_eq_some_iff :
    store.validateRefreshToken tokenHash = some row ↔
      store.refreshTokens.find? tokenHash = some row ∧ row.revokedAt = none := by
  simp [validateRefreshToken,filter_eq_some_iff]

theorem valid_of_refreshed {now : Int}
    (answers : ((handleRefresh state tokenHash fresh).serve perform now store).1 = .tokens pair) :
    ∃ row, store.validateRefreshToken tokenHash = some row ∧ now ≤ row.expiresAt ∧
      row.userId = pair.access.userId ∧ row.clientId = pair.access.clientId := by
  cases valid : store.validateRefreshToken tokenHash with
  | none =>
    simp only [handleRefresh,serve_call,perform,valid] at answers
    split at answers
    · cases answers
    · cases answers
    split at answers
    · unfold endSessionsAfterReuse at answers
      split at answers <;> cases answers
    · cases answers
  | some row =>
    simp only [handleRefresh,serve_call,perform,valid] at answers
    split at answers
    · cases answers
    · exact ⟨row,rfl,not_lt.mp ‹_›,owner_of_exchange answers⟩

theorem refreshed_of_valid {now : Int} (valid : store.validateRefreshToken tokenHash = some row)
    (unexpired : now ≤ row.expiresAt) (owner : row.userId = some userId) {user : UserRow}
    (found : store.users.find? userId = some user) (isActive : user.isActive = true)
    (state : ServerState) (fresh : String) :
    ∃ pair, ((handleRefresh state tokenHash fresh).serve perform now store).1 = .tokens pair := by
  have looked : (store.revokeRefreshToken tokenHash now).usersGetById userId =
      some user.toUser := by
    simp [usersGetById,revokeRefreshToken,found]
  simp only [handleRefresh,serve_call,perform,valid,if_neg (not_lt.mpr unexpired),
    exchange,owner,looked,isActive]
  exact ⟨_,rfl⟩

/-! What ends sessions raises the generation of the account. -/

def Bumps (userId : String) (before after : Store) : Prop :=
  ∀ row, before.users.find? userId = some row →
    ∃ later, after.users.find? userId = some later ∧ row.tokenGeneration < later.tokenGeneration

theorem bumps_of_keeps {middle : Store} (earlier : before.Keeps middle)
    (later : (middle.usersBumpTokenGeneration userId).Keeps after) : Bumps userId before after := by
  intro row found
  obtain ⟨between,foundBetween,grows⟩ := earlier.users found
  have bumped : (middle.usersBumpTokenGeneration userId).users.find? userId =
      some { between with tokenGeneration := between.tokenGeneration + 1 } :=
    middle.users.find?_updateWhere_of_met (by intro; rfl) foundBetween
      (decide_eq_true (middle.users.key_of_find? foundBetween))
  obtain ⟨last,foundLast,growsAgain⟩ := later.users bumped
  exact ⟨last,foundLast,grows.trans_lt growsAgain⟩

theorem Store.refreshTokens_upsertCredentials (store : Store) (credential : PasswordCredential) :
    (store.upsertCredentials credential).2.refreshTokens = store.refreshTokens := by
  unfold upsertCredentials
  repeat' split
  all_goals rfl

theorem Store.refreshTokens_usersCreate (store : Store) (user : User) :
    (store.usersCreate user).2.refreshTokens = store.refreshTokens := by
  unfold usersCreate
  repeat' split
  all_goals rfl

theorem Store.usersGetById_usersCreate (store : Store) {user : User}
    (created : (store.usersCreate user).1 = true) (userId : String) :
    (store.usersCreate user).2.usersGetById userId =
      if user.userId = userId then some user else store.usersGetById userId := by
  have lands : (store.usersCreate user).2.users =
      (store.users.insert { user with lastLoginAt := none, tokenGeneration := 0 }).getD
        (store.users.updateWhere (fun old => old.userId = user.userId)
          (fun old => { old with
            username := user.username, email := user.email, role := user.role
            isActive := user.isActive }) fun _ => rfl) := by
    unfold usersCreate at created ⊢
    split at created
    · cases created
    · rw [if_neg ‹_›]
      cases store.users.insert { user with lastLoginAt := none, tokenGeneration := 0 } <;> rfl
  rw [usersGetById,lands]
  refine store.users.find?_upsert UserRow.toUser _ _ _ (fun old sameKey => ?_) userId
  simp [show old.userId = user.userId from sameKey]

theorem minted_of_callback {answer : ProviderAnswer} {now : Int}
    (isFresh : store.refreshTokens.find? fresh = none)
    (answers : ((handleCallback state answer fresh).serve perform now store).1 = .tokens pair) :
    Minted pair ((handleCallback state answer fresh).serve perform now store).2 := by
  cases answer with
  | refused => cases answers
  | linked userId =>
    have issues : Issues fresh [] now (handleCallback state (.linked userId) fresh) :=
      issues_getById (issues_status _) fun _ _ => issues_finishCallback state List.mem_cons_self
    exact ((issues.wellIssued isFresh).2 pair answers).1
  | unlinked user =>
    simp only [handleCallback,serve_call,perform] at answers ⊢
    cases taken : store.usersGetByUsername user.username with
    | some => simp [taken] at answers
    | none =>
      simp only [taken,serve_call,perform] at answers ⊢
      cases created : (store.usersCreate { user with isActive := true }).1 with
      | false => simp [created] at answers
      | true =>
      simp only [created] at answers ⊢
      refine ((issues_finishCallback state (List.mem_singleton.mpr rfl) _ ?_ ?_).2 pair answers).1
      · rwa [store.refreshTokens_usersCreate]
      · intro known isKnown
        rw [List.mem_singleton.mp isKnown,store.usersGetById_usersCreate created,if_pos rfl]

/-- The access tokens of the account end, the refresh tokens stay. -/
def EndsAccess (userId : String) (before after : Store) : Prop :=
  Bumps userId before after ∧ after.refreshTokens = before.refreshTokens

theorem endsAccess_handleChangePassword
    {oldPassword : String} {now : Int} (self : requireSelfUser caller = some userId)
    (answers : ((handleChangePassword state caller oldPassword newPassword).serve
      perform now store).1 = .status .noContent) :
    EndsAccess userId store ((handleChangePassword state caller oldPassword newPassword).serve
      perform now store).2 := by
  revert answers
  simp only [handleChangePassword,self]
  split
  · rintro ⟨⟩
  rw [serve_call]
  split
  · rintro ⟨⟩
  rw [serve_call]
  split
  · rintro ⟨⟩
  split
  · rename_i credential _ _
    rw [serve_call]
    split
    · intro _
      refine ⟨?_,?_⟩
      · exact bumps_of_keeps (keeps_perform store (.upsertCredentials _))
          (keeps_self _)
      · exact store.refreshTokens_upsertCredentials _
    · rintro ⟨⟩
  · rintro ⟨⟩

theorem endsAccess_handleConfirm {reset : PasswordReset} {now : Int}
    (presented : store.passwordResetsGetByTokenHash tokenHash = some reset)
    (answers : ((handleConfirm state tokenHash newPassword).serve perform now store).1 =
      .status .noContent) :
    EndsAccess reset.userId store
      ((handleConfirm state tokenHash newPassword).serve perform now store).2 := by
  revert answers
  unfold handleConfirm
  split
  · rintro ⟨⟩
  split
  · rintro ⟨⟩
  rw [serve_call]
  split
  · rintro ⟨⟩
  rename_i other found
  have same : store.passwordResetsGetByTokenHash tokenHash = some other := found
  rw [presented] at same
  cases same
  split
  · rintro ⟨⟩
  split
  · rintro ⟨⟩
  rw [serve_call]
  split
  · rintro ⟨⟩
  rename_i user found
  have looked : store.usersGetById reset.userId = some user := found
  split
  · rintro ⟨⟩
  rw [serve_call]
  split
  · rintro ⟨⟩
  rw [setPassword,serve_call]
  split
  · intro _
    rw [← userId_of_getById looked]
    refine ⟨?_,?_⟩
    · exact bumps_of_keeps (keeps_perform store (.upsertCredentials _))
        (keeps_perform _ (.passwordResetsInvalidateForUser _ _))
    · exact store.refreshTokens_upsertCredentials _
  · rintro ⟨⟩

theorem endsAccess_handleUpdateUser {request : UpdateUserRequest}
    {now : Int} {user edited : User} (looked : store.usersGetById userId = some user)
    (deactivates : request.deactivates user = true)
    (answers : ((handleUpdateUser caller userId request).serve perform now store).1 =
      .user edited) :
    EndsAccess userId store
      ((handleUpdateUser caller userId request).serve perform now store).2 := by
  have written : ∀ edited, ((writeUpdate request user).serve perform now store).1 =
      .user edited →
      EndsAccess userId store ((writeUpdate request user).serve perform now store).2 := by
    intro edited
    simp only [writeUpdate,deactivates,if_true]
    rw [serve_call]
    split
    · intro _
      rw [← userId_of_getById looked]
      refine ⟨?_,?_⟩
      · exact bumps_of_keeps (keeps_perform store (.usersCreate _)) (keeps_self _)
      · exact store.refreshTokens_usersCreate _
    · rintro ⟨⟩
  revert answers
  unfold handleUpdateUser
  split
  · rintro ⟨⟩
  simp only [serve_call,perform,looked]
  split
  · rintro ⟨⟩
  split
  · rintro ⟨⟩
  split
  · rw [serve_call]
    dsimp only
    split
    · rintro ⟨⟩
    · exact written edited
  · exact written edited

theorem Store.revoked_of_owner (stored : store.refreshTokens.find? tokenHash = some row)
    (owner : row.userId = some userId) (now : Int) :
    ∃ later, (store.revokeRefreshTokensForUser userId now).refreshTokens.find? tokenHash =
      some later ∧ later.revokedAt.isSome = true := by
  simp only [revokeRefreshTokensForUser,Table.find?_updateWhere,stored,map_some]
  refine ⟨_,rfl,?_⟩
  unfold changeWhere
  split
  · rfl
  · rename_i unmet
    simpa [owner,isSome_iff_ne_none] using unmet

theorem serve_handleRefresh_of_reused {now : Int}
    (invalid : store.validateRefreshToken tokenHash = none)
    (stored : store.refreshTokens.find? tokenHash = some row) (owner : row.userId = some userId)
    (reused : refreshReuseDetected row now = true) (state : ServerState) (fresh : String) :
    (handleRefresh state tokenHash fresh).serve perform now store =
      (.noSession,
        (store.revokeRefreshTokensForUser userId now).usersBumpTokenGeneration userId) := by
  simp only [handleRefresh,serve_call,perform,invalid,stored,reused,if_true,
    endSessionsAfterReuse,owner,serve_done]

end Croniq.Auth
