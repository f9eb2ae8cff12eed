import Croniq.SignIn

/-!
# The accounts of the users

The endpoints that create and change accounts, for callers the middleware has
let through.
-/

namespace Croniq.Auth

open CallPrograms

variable (caller : CallerContext)

def requireUserAdmin : Bool :=
  caller.hasAnyScope [Scope.admin,Scope.usersAdmin] || caller.hasScope Scope.usersAdmin

def requireMayAssignRole (role : Role) : Bool :=
  !(role = .admin && !caller.isAdmin)

def requireMayManageUser (user : User) : Bool :=
  !(user.role = .admin && !caller.isAdmin)

def requireSelfUser : Option String :=
  if caller.callerType = .user then caller.userId else none

structure CreateUserRequest where
  (username password : String)
  role : Role
  email : Option String
  freshUserId : String

/-- `POST /v1/users` -/
def handleCreateUser (state : ServerState) (caller : CallerContext)
    (request : CreateUserRequest) : Handler :=
  if !requireUserAdmin caller then reply .forbidden
  else if !requireMayAssignRole caller request.role then reply .forbidden
  else if Config.trim request.username = "" ∨ !validatePassword request.password then
    reply .badRequest
  else
    .call (.usersGetByUsername request.username) fun _ found =>
      match found with
      | none => reply .internalServerError
      | some (some _) => reply .conflict
      | some none =>
        let user : User :=
          { userId := request.freshUserId, username := request.username
            email := request.email, role := request.role, isActive := true }
        .call (.usersCreate user) fun _ created =>
          match created with
          | some true =>
            .call (.upsertCredentials
                { userId := request.freshUserId, username := request.username
                  passwordHash := state.hasher.hash request.password
                  failedAttempts := 0, lockedUntil := none }) fun _ stored =>
              match stored with
              | some true => .done (.user user)
              | _ => reply .internalServerError
          | _ => reply .internalServerError

structure UpdateUserRequest where
  email : Option String
  role : Option Role
  isActive : Option Bool

variable (request : UpdateUserRequest)

section

variable (user : User)

/-- The user after the edit. -/
def UpdateUserRequest.applyTo : User :=
  { user with
    email := request.email.or user.email
    role := request.role.getD user.role
    isActive := request.isActive.getD user.isActive }

def UpdateUserRequest.deactivates : Bool :=
  request.isActive = some false && user.isActive

def UpdateUserRequest.demotesAdmin : Bool :=
  request.role.any fun role => user.role = .admin && role ≠ .admin

/-- The edit is written; a deactivation ends the sessions. -/
def writeUpdate : Handler :=
  let edited := request.applyTo user
  .call (.usersCreate edited) fun _ written =>
    match written with
    | some true =>
      if request.deactivates user then
        .call (.usersBumpTokenGeneration user.userId) fun _ bumped =>
          match bumped with
          | none => reply .internalServerError
          | some _ => .done (.user edited)
      else .done (.user edited)
    | _ => reply .internalServerError

end

/-- `PATCH /v1/users/{id}`: the last active administrator is neither demoted nor deactivated. -/
def handleUpdateUser (userId : String) (request : UpdateUserRequest) : Handler :=
  if !requireUserAdmin caller then reply .forbidden
  else
    .call (.usersGetById userId) fun _ found =>
      match found with
      | none => reply .internalServerError
      | some none => reply .notFound
      | some (some user) =>
        if !requireMayManageUser caller user then reply .forbidden
        else if request.role.any (!requireMayAssignRole caller ·) then
          reply .forbidden
        else if request.demotesAdmin user ∨ request.deactivates user ∧ user.role = .admin then
          .call .usersCountActiveAdmins fun _ activeAdmins =>
            match activeAdmins with
            | none => reply .internalServerError
            | some (activeAdmins : Nat) =>
              -- An administrator that is not active does not count.
              if user.role = .admin ∧ user.isActive = true ∧ activeAdmins ≤ 1 then
                reply .conflict
              else writeUpdate request user
        else writeUpdate request user

structure UpdateMeRequest where
  email : Option String

/-- `PATCH /v1/users/me`: the caller's row is written back with a new address. -/
def handleUpdateMe (request : UpdateMeRequest) : Handler :=
  if caller.callerType ≠ .user then reply .forbidden
  else
    match caller.userId with
    | none => reply .unauthorized
    | some userId =>
      .call (.usersGetById userId) fun _ found =>
        match found with
        | none => reply .internalServerError
        | some none => reply .notFound
        | some (some user) =>
          let edited : User := { user with email := request.email.or user.email }
          .call (.usersCreate edited) fun _ written =>
            match written with
            | some true => .done (.user edited)
            | _ => reply .internalServerError

/-- `POST /v1/users/me/change-password` -/
def handleChangePassword (state : ServerState) (caller : CallerContext)
    (oldPassword newPassword : String) : Handler :=
  match requireSelfUser caller with
  | none => reply .unauthorized
  | some userId =>
    if !validatePassword newPassword then reply .badRequest
    else
      .call (.usersGetById userId) fun _ found =>
        match found.getD none with
        | none => reply .notFound
        | some user =>
          .call (.getCredentials user.username) fun _ found =>
            match found.getD none with
            | none => reply .notFound
            | some credential =>
              match state.hasher.verify oldPassword credential.passwordHash with
              | some true =>
                .call (.upsertCredentials
                    { credential with
                      passwordHash := state.hasher.hash newPassword
                      failedAttempts := 0, lockedUntil := none }) fun _ written =>
                  match written with
                  | some true =>
                    .call (.usersBumpTokenGeneration userId) fun _ bumped =>
                      match bumped with
                      | none => reply .internalServerError
                      | some _ => reply .noContent
                  | _ => reply .internalServerError
              | _ => reply .unauthorized

end Croniq.Auth
