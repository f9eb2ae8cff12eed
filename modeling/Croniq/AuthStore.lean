import Croniq.KeyedTables

/-!
# The tables behind sign-in

Users, their passwords and second factors, the links and invitations sent to
them, the refresh tokens and the credentials of machine clients, with the calls
of the store that the sign-in and credential endpoints make.
-/

namespace Croniq.Auth

open KeyedTables

inductive Role
  | admin
  | operator
  | viewer
  deriving DecidableEq

structure User where
  (userId username : String)
  email : Option String
  role : Role
  isActive : Bool
  deriving DecidableEq

/-- A row of `users`; `User` lacks the generation of its credentials. -/
structure UserRow extends User where
  lastLoginAt : Option Int
  tokenGeneration : Nat
  deriving DecidableEq

structure PasswordCredential where
  (userId username passwordHash : String)
  failedAttempts : Nat
  lockedUntil : Option Int
  deriving DecidableEq

/-- Stored by its hash; a revoked one keeps its row. -/
structure RefreshToken where
  (tokenHash clientId : String)
  userId : Option String
  expiresAt : Int
  revokedAt : Option Int
  deriving DecidableEq

structure TotpSecret where
  userId : String
  enabled : Bool
  deriving DecidableEq

structure RecoveryCode where
  (codeId userId codeHash : String)
  usedAt : Option Int
  deriving DecidableEq

structure PasswordReset where
  (resetId userId tokenHash : String)
  expiresAt : Int
  usedAt : Option Int
  deriving DecidableEq

structure Invitation where
  (invitationId email : String)
  role : Role
  (tokenHash invitedBy : String)
  expiresAt : Int
  (acceptedAt revokedAt : Option Int)
  deriving DecidableEq

/-- A client of the API; the environment owns those it declares. -/
structure ApiClient where
  (clientId name : String)
  scopes : List String
  (isActive managedByEnv : Bool)
  deriving DecidableEq

structure ApiKey where
  (keyId clientId keyHash : String)
  (expiresAt revokedAt : Option Int)
  createdAt : Int
  deriving DecidableEq

structure PersonalAccessToken where
  (tokenId userId name tokenHash : String)
  scopes : List String
  (expiresAt revokedAt : Option Int)
  deriving DecidableEq

structure Store where
  users : Table (fun row : UserRow => row.userId)
  credentials : Table PasswordCredential.userId
  refreshTokens : Table RefreshToken.tokenHash
  totpSecrets : Table TotpSecret.userId
  recoveryCodes : Table RecoveryCode.codeId
  passwordResets : Table PasswordReset.resetId
  invitations : Table Invitation.invitationId
  clients : Table ApiClient.clientId
  apiKeys : Table ApiKey.keyId
  tokens : Table PersonalAccessToken.tokenId

def Store.empty : Store where
  users := .empty _
  credentials := .empty _
  refreshTokens := .empty _
  totpSecrets := .empty _
  recoveryCodes := .empty _
  passwordResets := .empty _
  invitations := .empty _
  clients := .empty _
  apiKeys := .empty _
  tokens := .empty _

inductive StoreCall
  | createClient (client : ApiClient)
  | getClient (clientId : String)
  | createApiKey (key : ApiKey)
  | findApiKeyByHash (keyHash : String)
  | getCredentials (username : String)
  | upsertCredentials (credential : PasswordCredential)
  | createRefreshToken (token : RefreshToken)
  | validateRefreshToken (tokenHash : String)
  | revokeRefreshToken (tokenHash : String) (now : Int)
  | refreshTokenGet (tokenHash : String)
  | revokeRefreshTokensForUser (userId : String) (now : Int)
  | usersCreate (user : User)
  | usersGetById (userId : String)
  | usersGetByUsername (username : String)
  | usersSetLastLogin (userId : String) (instant : Int)
  | usersCountActiveAdmins
  | usersTokenGeneration (userId : String)
  | usersBumpTokenGeneration (userId : String)
  | invitationsCreate (invitation : Invitation)
  | invitationsGetByTokenHash (tokenHash : String)
  | invitationsClaim (invitationId : String) (instant : Int)
  | passwordResetsCreate (reset : PasswordReset)
  | passwordResetsGetByTokenHash (tokenHash : String)
  | passwordResetsInvalidateForUser (userId : String) (instant : Int)
  | totpGet (userId : String)
  | totpSetEnabled (userId : String) (enabled : Bool)
  | recoveryCodesFindUnused (userId codeHash : String)
  | recoveryCodesMarkUsed (codeId : String) (instant : Int)
  | patCreate (token : PersonalAccessToken)
  | patFindByHash (tokenHash : String)

/-- What the handlers see of a call: of a mere write, whether it met the constraints. -/
def StoreCall.Answer : StoreCall → Type
  | .getClient _ => Option ApiClient
  | .findApiKeyByHash _ => Option ApiKey
  | .getCredentials _ => Option PasswordCredential
  | .validateRefreshToken _ => Option RefreshToken
  | .refreshTokenGet _ => Option RefreshToken
  | .usersGetById _ => Option User
  | .usersGetByUsername _ => Option User
  | .usersCountActiveAdmins => Nat
  | .usersTokenGeneration _ => Option Nat
  | .invitationsGetByTokenHash _ => Option Invitation
  | .passwordResetsGetByTokenHash _ => Option PasswordReset
  | .totpGet _ => Option TotpSecret
  | .recoveryCodesFindUnused _ _ => Option RecoveryCode
  | .patFindByHash _ => Option PersonalAccessToken
  | _ => Bool

/-- A live key goes first, then one without expiry, then the later expiry, then the later creation.
-/
def ApiKey.goesBefore (first second : ApiKey) : Bool :=
  if first.revokedAt.isNone ≠ second.revokedAt.isNone then first.revokedAt.isNone
  else
    match first.expiresAt, second.expiresAt with
    | none, some _ => true
    | some _, none => false
    | some expiry, some other =>
      if expiry = other then second.createdAt < first.createdAt else other < expiry
    | none, none => second.createdAt < first.createdAt

namespace Store

/-- Insert under a fresh key. -/
def inserted {Row : Type} {key : Row → String} (table : Table key) (row : Row)
    (replace : Table key → Store) (store : Store) : Bool × Store :=
  match table.insert row with
  | none => (false, store)
  | some extended => (true, replace extended)

variable (store : Store)

def createClient (client : ApiClient) : Bool × Store :=
  match store.clients.insert client with
  | some clients => (true, { store with clients })
  | none =>
    (true, { store with
      clients := store.clients.updateWhere (·.clientId = client.clientId)
        (fun row => { client with clientId := row.clientId }) fun _ => rfl })

def createApiKey (key : ApiKey) : Bool × Store :=
  inserted store.apiKeys key (fun apiKeys => { store with apiKeys }) store

def findApiKeyByHash (keyHash : String) : Option ApiKey :=
  (store.apiKeys.rows.filter (·.keyHash = keyHash)).foldl
    (fun best row =>
      match best with
      | none => some row
      | some best => if ApiKey.goesBefore row best then some row else some best) none

def getCredentials (username : String) : Option PasswordCredential :=
  store.credentials.rows.find? (·.username = username)

def upsertCredentials (credential : PasswordCredential) : Bool × Store :=
  if store.credentials.rows.any fun row =>
      row.username = credential.username ∧ row.userId ≠ credential.userId then (false, store)
  else
    match store.credentials.insert credential with
    | some credentials => (true, { store with credentials })
    | none =>
      (true, { store with
        credentials := store.credentials.updateWhere (·.userId = credential.userId)
          (fun row => { credential with userId := row.userId }) fun _ => rfl })

def createRefreshToken (token : RefreshToken) : Bool × Store :=
  inserted store.refreshTokens token (fun refreshTokens => { store with refreshTokens }) store

variable (tokenHash : String)

def validateRefreshToken : Option RefreshToken :=
  (store.refreshTokens.find? tokenHash).filter (·.revokedAt.isNone)

def revokeRefreshToken (now : Int) : Store :=
  { store with
    refreshTokens := store.refreshTokens.updateWhere (·.tokenHash = tokenHash)
      (fun row => { row with revokedAt := some now }) fun _ => rfl }

variable (userId : String)

def revokeRefreshTokensForUser (now : Int) : Store :=
  { store with
    refreshTokens := store.refreshTokens.updateWhere
      (fun row => row.userId = some userId ∧ row.revokedAt = none)
      (fun row => { row with revokedAt := some now }) fun _ => rfl }

/-- A user that exists keeps its last sign-in and its generation. -/
def usersCreate (user : User) : Bool × Store :=
  if store.users.rows.any fun row => row.username = user.username ∧ row.userId ≠ user.userId then
    (false, store)
  else
    match store.users.insert { user with lastLoginAt := none, tokenGeneration := 0 } with
    | some users => (true, { store with users })
    | none =>
      (true, { store with
        users := store.users.updateWhere (·.userId = user.userId)
          (fun row => { row with
            username := user.username, email := user.email, role := user.role
            isActive := user.isActive }) fun _ => rfl })

def usersGetById : Option User :=
  (store.users.find? userId).map UserRow.toUser

def usersGetByUsername (username : String) : Option User :=
  (store.users.rows.find? (·.username = username)).map UserRow.toUser

def usersSetLastLogin (instant : Int) : Store :=
  { store with
    users := store.users.updateWhere (·.userId = userId)
      (fun row => { row with lastLoginAt := some instant }) fun _ => rfl }

def usersCountActiveAdmins : Nat :=
  store.users.count fun row => row.role = .admin ∧ row.isActive = true

def usersTokenGeneration : Option Nat :=
  (store.users.find? userId).map UserRow.tokenGeneration

def usersBumpTokenGeneration : Store :=
  { store with
    users := store.users.updateWhere (·.userId = userId)
      (fun row => { row with tokenGeneration := row.tokenGeneration + 1 }) fun _ => rfl }

def invitationsCreate (invitation : Invitation) : Bool × Store :=
  if store.invitations.rows.any (·.tokenHash = invitation.tokenHash) then (false, store)
  else
    inserted store.invitations invitation (fun invitations => { store with invitations }) store

def invitationsGetByTokenHash : Option Invitation :=
  store.invitations.rows.find? (·.tokenHash = tokenHash)

/-- Neither accepted nor revoked. -/
def isClaimable (invitationId : String) (row : Invitation) : Bool :=
  row.invitationId = invitationId ∧ row.acceptedAt = none ∧ row.revokedAt = none

def invitationsClaim (invitationId : String) (instant : Int) : Bool × Store :=
  (store.invitations.count (isClaimable invitationId) = 1,
    { store with
      invitations := store.invitations.updateWhere (isClaimable invitationId)
        (fun row => { row with acceptedAt := some instant }) fun _ => rfl })

def passwordResetsCreate (reset : PasswordReset) : Bool × Store :=
  if store.passwordResets.rows.any (·.tokenHash = reset.tokenHash) then (false, store)
  else
    inserted store.passwordResets reset (fun passwordResets => { store with passwordResets }) store

def passwordResetsGetByTokenHash : Option PasswordReset :=
  store.passwordResets.rows.find? (·.tokenHash = tokenHash)

def passwordResetsInvalidateForUser (instant : Int) : Store :=
  { store with
    passwordResets := store.passwordResets.updateWhere
      (fun row => row.userId = userId ∧ row.usedAt = none)
      (fun row => { row with usedAt := some instant }) fun _ => rfl }

def totpSetEnabled (enabled : Bool) : Store :=
  { store with
    totpSecrets := store.totpSecrets.updateWhere (·.userId = userId)
      (fun row => { row with enabled }) fun _ => rfl }

def recoveryCodesFindUnused (userId codeHash : String) : Option RecoveryCode :=
  store.recoveryCodes.rows.find? fun row =>
    row.userId = userId ∧ row.codeHash = codeHash ∧ row.usedAt = none

def recoveryCodesMarkUsed (codeId : String) (instant : Int) : Store :=
  { store with
    recoveryCodes := store.recoveryCodes.updateWhere (·.codeId = codeId)
      (fun row => { row with usedAt := some instant }) fun _ => rfl }

def patCreate (token : PersonalAccessToken) : Bool × Store :=
  if store.tokens.rows.any (·.tokenHash = token.tokenHash) then (false, store)
  else inserted store.tokens token (fun tokens => { store with tokens }) store

def patFindByHash : Option PersonalAccessToken :=
  store.tokens.rows.find? (·.tokenHash = tokenHash)

def perform : (what : StoreCall) → what.Answer × Store
  | .createClient client => store.createClient client
  | .getClient clientId => (store.clients.find? clientId, store)
  | .createApiKey key => store.createApiKey key
  | .findApiKeyByHash keyHash => (store.findApiKeyByHash keyHash, store)
  | .getCredentials username => (store.getCredentials username, store)
  | .upsertCredentials credential => store.upsertCredentials credential
  | .createRefreshToken token => store.createRefreshToken token
  | .validateRefreshToken tokenHash => (store.validateRefreshToken tokenHash, store)
  | .revokeRefreshToken tokenHash now => (true, store.revokeRefreshToken tokenHash now)
  | .refreshTokenGet tokenHash => (store.refreshTokens.find? tokenHash, store)
  | .revokeRefreshTokensForUser userId now => (true, store.revokeRefreshTokensForUser userId now)
  | .usersCreate user => store.usersCreate user
  | .usersGetById userId => (store.usersGetById userId, store)
  | .usersGetByUsername username => (store.usersGetByUsername username, store)
  | .usersSetLastLogin userId instant => (true, store.usersSetLastLogin userId instant)
  | .usersCountActiveAdmins => (store.usersCountActiveAdmins, store)
  | .usersTokenGeneration userId => (store.usersTokenGeneration userId, store)
  | .usersBumpTokenGeneration userId => (true, store.usersBumpTokenGeneration userId)
  | .invitationsCreate invitation => store.invitationsCreate invitation
  | .invitationsGetByTokenHash tokenHash => (store.invitationsGetByTokenHash tokenHash, store)
  | .invitationsClaim invitationId instant => store.invitationsClaim invitationId instant
  | .passwordResetsCreate reset => store.passwordResetsCreate reset
  | .passwordResetsGetByTokenHash tokenHash => (store.passwordResetsGetByTokenHash tokenHash, store)
  | .passwordResetsInvalidateForUser userId instant =>
    (true, store.passwordResetsInvalidateForUser userId instant)
  | .totpGet userId => (store.totpSecrets.find? userId, store)
  | .totpSetEnabled userId enabled => (true, store.totpSetEnabled userId enabled)
  | .recoveryCodesFindUnused userId codeHash =>
    (store.recoveryCodesFindUnused userId codeHash, store)
  | .recoveryCodesMarkUsed codeId instant => (true, store.recoveryCodesMarkUsed codeId instant)
  | .patCreate token => store.patCreate token
  | .patFindByHash tokenHash => (store.patFindByHash tokenHash, store)

theorem userId_of_getById {store : Store} {userId : String} {user : User}
    (found : store.usersGetById userId = some user) : user.userId = userId := by
  obtain ⟨row,stored,rfl⟩ := Option.map_eq_some_iff.mp found
  exact store.users.key_of_find? stored

end Store

end Croniq.Auth
