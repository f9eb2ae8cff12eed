import Croniq.AuthStore

/-!
# Callers and their scopes

Who is calling, how the caller signed in and which scopes the presented
credential carries.  `admin` is the wildcard: it passes every check.
-/

namespace Croniq.Auth

inductive CallerType
  | apiKey
  | user
  deriving DecidableEq

/-- How the caller signed in. -/
inductive AuthMethod
  | password
  | apiKey
  | pat
  | oidc
  deriving DecidableEq

/-- Who calls, as the presented credential says. -/
structure CallerContext where
  callerType : CallerType
  (callerId clientId : String)
  userId : Option String
  role : Option Role
  authMethod : AuthMethod
  scopes : List String
  tokenGeneration : Option Nat
  deriving DecidableEq

namespace Scope

def admin : String := "admin"
def jobsRead : String := "jobs:read"
def jobsWrite : String := "jobs:write"
def jobsTrigger : String := "jobs:trigger"
def schedulesRead : String := "schedules:read"
def schedulesWrite : String := "schedules:write"
def executionsRead : String := "executions:read"
def executionsCancel : String := "executions:cancel"
def deadLettersRead : String := "dead-letters:read"
def deadLettersWrite : String := "dead-letters:write"
def calendarsRead : String := "calendars:read"
def calendarsWrite : String := "calendars:write"
def runnersRead : String := "runners:read"
def apiClientsAdmin : String := "api-clients:admin"
def apiKeysAdmin : String := "api-keys:admin"
def usersAdmin : String := "users:admin"
def alertsRead : String := "alerts:read"
def alertsAck : String := "alerts:ack"
def notesWrite : String := "notes:write"

end Scope

open Scope in
/-- The scopes of a user who signs in, by role. -/
def defaultScopesForRole : Role → List String
  | .admin => [admin]
  | .operator =>
    [jobsRead,jobsWrite,jobsTrigger,schedulesRead,schedulesWrite,calendarsRead,calendarsWrite,
      executionsRead,executionsCancel,deadLettersRead,deadLettersWrite,runnersRead,alertsRead,
      alertsAck,notesWrite]
  | .viewer =>
    [jobsRead,schedulesRead,calendarsRead,executionsRead,deadLettersRead,runnersRead,alertsRead]

/-- A user who signed in with a password. -/
def callerOf (userId : String) (role : Role) : CallerContext where
  callerType := .user
  callerId := userId
  clientId := userId
  userId := some userId
  role := some role
  authMethod := .password
  scopes := defaultScopesForRole role
  tokenGeneration := some 0

namespace CallerContext

variable (caller : CallerContext)

/-- The scope is held, or `admin` stands for it. -/
def hasScope (scope : String) : Bool :=
  caller.scopes.any fun held => held = Scope.admin ∨ held = scope

def hasAnyScope (scopes : List String) : Bool :=
  scopes.any caller.hasScope

def isAdmin : Bool :=
  caller.scopes.any (· = Scope.admin)

/-- Only an administrator may grant what the caller does not hold. -/
def canGrantScopes (requested : List String) : Bool :=
  caller.isAdmin || requested.all fun want => caller.scopes.any (· = want)

/-- The candidates that the caller may grant. -/
def grantableSubset (candidates : List String) : List String :=
  if caller.isAdmin then candidates
  else candidates.filter fun want => caller.scopes.any (· = want)

end CallerContext

/-- What an access token says of its bearer. -/
structure Claims where
  (sub clientId : String)
  callerType : CallerType
  userId : Option String
  role : Option Role
  authMethod : AuthMethod
  scopes : List String
  tokenGeneration : Option Nat
  exp : Int
  deriving DecidableEq

/-- The lifetimes of tokens, and the clock difference that the library which checks them allows. -/
structure JwtConfig where
  (accessTtlSecs refreshTtlSecs leewaySecs : Int)
  deriving DecidableEq

/-- An access token, and the refresh token issued with it. -/
structure TokenPair where
  access : Claims
  refreshTokenHash : String
  refreshExpiresAt : Int
  deriving DecidableEq

end Croniq.Auth
