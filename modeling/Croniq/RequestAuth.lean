import Croniq.SignIn

/-!
# Who is calling

The middleware in front of every request that needs a caller: it takes a signed
access token, a personal access token or an API key, and finds out whose it is
and which scopes it carries.
-/

namespace Croniq.Auth

/-- What a request presents. -/
inductive Credential
  | access (claims : Claims)
  | pat (tokenHash : String)
  | apiKey (keyHash : String)
  deriving DecidableEq

def validateToken (config : JwtConfig) (now : Int) (claims : Claims) : Bool :=
  now / oneSecond - config.leewaySecs ≤ claims.exp

variable (store : Store)

/-- A token from before the last change of the credentials is refused, and so are
those of a user that is gone. -/
def enforceTokenGeneration (claims : Claims) : Bool :=
  match claims.userId with
  | none => true
  | some userId =>
    match store.usersTokenGeneration userId with
    | none => false
    | some current => claims.tokenGeneration.getD 0 = current

def Claims.context (claims : Claims) : CallerContext where
  callerType := claims.callerType
  callerId := claims.sub
  clientId := claims.clientId
  userId := claims.userId
  role := claims.role
  authMethod := claims.authMethod
  scopes := claims.scopes
  tokenGeneration := claims.tokenGeneration

/-- The scopes of a personal access token, cut down to its owner's role unless that is
administrator. -/
def patEffectiveScopes (patScopes : List String) (role : Role) : List String :=
  let allowed := defaultScopesForRole role
  if allowed.any (· = Scope.admin) then patScopes
  else patScopes.filter fun scope => scope ∈ allowed

def resolvePat (now : Int) (tokenHash : String) : Option CallerContext :=
  match store.patFindByHash tokenHash with
  | none => none
  | some pat =>
    if pat.revokedAt.isSome then none
    else if pat.expiresAt.any (· < now) then none
    else
      match store.usersGetById pat.userId with
      | none => none
      | some user =>
        if !user.isActive then none
        else
          some
            { callerType := .user, callerId := user.userId, clientId := user.userId
              userId := some user.userId, role := some user.role, authMethod := .pat
              scopes := patEffectiveScopes pat.scopes user.role, tokenGeneration := none }

def resolveApiKey (now : Int) (keyHash : String) : Option CallerContext :=
  match store.findApiKeyByHash keyHash with
  | none => none
  | some apiKey =>
    if apiKey.revokedAt.isSome then none
    else if apiKey.expiresAt.any (· < now) then none
    else
      match store.clients.find? apiKey.clientId with
      | none => none
      | some client =>
        if !client.isActive then none
        else
          some
            { callerType := .apiKey, callerId := apiKey.keyId, clientId := apiKey.clientId
              userId := none, role := none, authMethod := .apiKey, scopes := client.scopes
              tokenGeneration := none }

/-- The caller of an accepted request. -/
def requireAuth (config : JwtConfig) (now : Int) : Credential → Option CallerContext
  | .access claims =>
    if validateToken config now claims && enforceTokenGeneration store claims then
      some claims.context
    else none
  | .pat tokenHash => resolvePat store now tokenHash
  | .apiKey keyHash => resolveApiKey store now keyHash

/-- The scopes of a credential: signed into an access token, else looked up. -/
def Credential.scopes : Credential → List String
  | .access claims => claims.scopes
  | .pat tokenHash =>
    ((store.patFindByHash tokenHash).bind fun pat =>
      (store.usersGetById pat.userId).map fun user =>
        patEffectiveScopes pat.scopes user.role).getD []
  | .apiKey keyHash =>
    ((store.findApiKeyByHash keyHash).bind fun apiKey =>
      (store.clients.find? apiKey.clientId).map ApiClient.scopes).getD []

theorem scopes_of_requireAuth {store : Store} {config : JwtConfig} {now : Int}
    {credential : Credential} {caller : CallerContext}
    (accepted : requireAuth store config now credential = some caller) :
    caller.scopes = credential.scopes store := by
  cases credential with
  | access =>
    simp only [requireAuth] at accepted
    split at accepted
    · cases accepted
      rfl
    · cases accepted
  | pat tokenHash =>
    simp only [requireAuth,resolvePat] at accepted
    cases found : store.patFindByHash tokenHash with
    | none => simp [found] at accepted
    | some pat =>
      simp only [found] at accepted
      split_ifs at accepted
      cases looked : store.usersGetById pat.userId with
      | none => simp [looked] at accepted
      | some =>
        simp only [looked] at accepted
        split_ifs at accepted
        cases accepted
        simp [Credential.scopes,found,looked]
  | apiKey keyHash =>
    simp only [requireAuth,resolveApiKey] at accepted
    cases found : store.findApiKeyByHash keyHash with
    | none => simp [found] at accepted
    | some apiKey =>
      simp only [found] at accepted
      split_ifs at accepted
      cases looked : store.clients.find? apiKey.clientId with
      | none => simp [looked] at accepted
      | some =>
        simp only [looked] at accepted
        split_ifs at accepted
        cases accepted
        simp [Credential.scopes,found,looked]

end Croniq.Auth
