import Croniq.RequestAuth
import Croniq.UserAccounts

/-!
# Issuing credentials

The endpoints with which a caller hands out access: API clients with their keys
and tokens, personal access tokens and invitations.
-/

namespace Croniq.Auth

open CallPrograms CivilCalendar

variable (caller : CallerContext)

def requireScope (scope : String) : Bool :=
  caller.hasScope scope

/-- A new credential has scopes of the presented one only. -/
def requireGrantableScopes (requested : List String) : Bool :=
  caller.canGrantScopes requested

structure CreateClientRequest where
  name : String
  scopes : List String
  freshClientId : String

/-- `POST /v1/api-clients` -/
def handleCreateClient (request : CreateClientRequest) : Handler :=
  if !requireScope caller Scope.apiClientsAdmin then reply .forbidden
  else if Config.trim request.name = "" ∨ request.scopes = [] then reply .badRequest
  else if !requireGrantableScopes caller request.scopes then reply .forbidden
  else
    .call (.createClient
        { clientId := request.freshClientId, name := request.name, scopes := request.scopes
          isActive := true, managedByEnv := false }) fun _ created =>
      match created with
      | some true => .done (.client request.freshClientId)
      | _ => reply .internalServerError

structure UpdateClientRequest where
  name : Option String
  scopes : Option (List String)
  isActive : Option Bool

/-- The client after the edit. -/
def UpdateClientRequest.applyTo (request : UpdateClientRequest) (client : ApiClient) : ApiClient :=
  { client with
    name := request.name.getD client.name
    scopes := request.scopes.getD client.scopes
    isActive := request.isActive.getD client.isActive }

/-- `PUT /v1/api-clients/{id}`: not for a client of the environment. -/
def handleUpdateClient (clientId : String) (request : UpdateClientRequest) : Handler :=
  if !requireScope caller Scope.apiClientsAdmin then reply .forbidden
  else if request.scopes = some [] then reply .badRequest
  else if request.scopes.any (!requireGrantableScopes caller ·) then reply .forbidden
  else
    .call (.getClient clientId) fun _ found =>
      match found with
      | none => reply .internalServerError
      | some none => reply .notFound
      | some (some client) =>
        if client.managedByEnv then reply .conflict
        else if request.name.any (Config.trim · = "") then reply .badRequest
        else
          .call (.createClient (request.applyTo client)) fun _ written =>
            match written with
            | some true => .done (.client client.clientId)
            | _ => reply .internalServerError

/-- `POST /v1/api-clients/{id}/tokens`: with the scopes of the client. -/
def handleIssueClientToken (state : ServerState) (caller : CallerContext)
    (clientId freshToken : String) : Handler :=
  if !requireScope caller Scope.apiClientsAdmin then reply .forbidden
  else
    .call (.getClient clientId) fun now found =>
      match found with
      | none => reply .internalServerError
      | some none => reply .notFound
      | some (some client) =>
        if !requireGrantableScopes caller client.scopes then reply .forbidden
        else
          let pair := issueTokenPair state.jwtConfig now client.clientId client.clientId .apiKey
            none none .apiKey client.scopes none freshToken
          .call (.createRefreshToken
              { tokenHash := freshToken, clientId := client.clientId, userId := none
                expiresAt := pair.refreshExpiresAt, revokedAt := none }) fun _ created =>
            match created with
            | some true => .done (.tokens pair)
            | _ => reply .internalServerError

structure CreateApiKeyRequest where
  (clientId freshKeyId freshKeyHash : String)

/-- `POST /v1/api-keys` -/
def handleCreateApiKey (request : CreateApiKeyRequest) : Handler :=
  if !requireScope caller Scope.apiKeysAdmin then reply .forbidden
  else
    .call (.getClient request.clientId) fun now found =>
      match found with
      | none => reply .internalServerError
      | some none => reply .notFound
      | some (some client) =>
        if client.managedByEnv then reply .conflict
        else if !requireGrantableScopes caller client.scopes then reply .forbidden
        else
          .call (.createApiKey
              { keyId := request.freshKeyId, clientId := request.clientId
                keyHash := request.freshKeyHash, expiresAt := none, revokedAt := none
                createdAt := now }) fun _ created =>
            match created with
            | some true => .done (.apiKey request.freshKeyHash)
            | _ => reply .internalServerError

structure CreatePatRequest where
  name : String
  scopes : Option (List String)
  expiresAt : Option Int
  expiresInHours : Option Nat
  (freshTokenId freshTokenHash : String)

def latestInstant : Int :=
  (yearStart 262143 * 86400) * oneSecond - 1

variable (request : CreatePatRequest)

/-- An expiry is an instant or in hours, not both. -/
def CreatePatRequest.expiry (now : Int) : Option (Option Int) :=
  match request.expiresAt, request.expiresInHours with
  | some _, some _ => none
  | some instant, none => some (some instant)
  | none, some hours =>
    let instant := now + hours * 3600 * oneSecond
    if hours = 0 ∨ latestInstant < instant then none else some (some instant)
  | none, none => some none

/-- The scopes of the token, by default those of the caller's role. -/
def CreatePatRequest.granted (caller : CallerContext) (user : User) : List String :=
  request.scopes.getD (caller.grantableSubset (defaultScopesForRole user.role))

/-- `POST /v1/users/me/tokens`: a personal access token mints no other. -/
def handleCreatePat : Handler :=
  if caller.callerType ≠ .user then reply .forbidden
  else
    match caller.userId with
    | none => reply .unauthorized
    | some userId =>
      if caller.authMethod = .pat then reply .forbidden
      else if Config.trim request.name = "" then reply .badRequest
      else
        .call (.usersGetById userId) fun now found =>
          match found with
          | none => reply .internalServerError
          | some none => reply .unauthorized
          | some (some user) =>
            let roleScopes := defaultScopesForRole user.role
            let granted := request.granted caller user
            if !roleScopes.any (· = Scope.admin) ∧ granted.any (· ∉ roleScopes) then
              reply .forbidden
            else if !requireGrantableScopes caller granted then reply .forbidden
            else if granted = [] then reply .badRequest
            else
              match request.expiry now with
              | none => reply .badRequest
              | some expiresAt =>
                .call (.patCreate
                    { tokenId := request.freshTokenId, userId, name := request.name
                      tokenHash := request.freshTokenHash, scopes := granted, expiresAt
                      revokedAt := none }) fun _ created =>
                  match created with
                  | some true => .done (.pat request.freshTokenHash granted)
                  | _ => reply .internalServerError

structure CreateInvitationRequest where
  email : String
  role : Role
  expiresInHours : Option Nat
  (freshInvitationId freshTokenHash : String)

def inviteTokenTtl : Int := 7 * 24 * 3600 * oneSecond
def inviteTokenMaxTtlHours : Nat := 30 * 24

def CreateInvitationRequest.expiry (request : CreateInvitationRequest) (now : Int) : Option Int :=
  match request.expiresInHours with
  | none => some (now + inviteTokenTtl)
  | some hours =>
    if hours = 0 ∨ inviteTokenMaxTtlHours < hours then none
    else some (now + hours * 3600 * oneSecond)

/-- `POST /v1/invitations`: API keys cannot invite. -/
def handleCreateInvitation (now : Int) (request : CreateInvitationRequest) : Handler :=
  if !requireUserAdmin caller then reply .forbidden
  else if !requireMayAssignRole caller request.role then reply .forbidden
  else if Config.trim request.email = "" then reply .badRequest
  else
    match caller.userId with
    | none => reply .forbidden
    | some invitedBy =>
      match request.expiry now with
      | none => reply .badRequest
      | some expiresAt =>
        .call (.invitationsCreate
            { invitationId := request.freshInvitationId, email := request.email
              role := request.role, tokenHash := request.freshTokenHash, invitedBy
              expiresAt, acceptedAt := none, revokedAt := none }) fun _ created =>
          match created with
          | some true => .done (.invitation request.freshTokenHash)
          | _ => reply .internalServerError

end Croniq.Auth
