import Croniq.CallPrograms
import Croniq.CallerScopes
import Croniq.Placeholders

/-!
# Signing in, staying signed in and the links sent by mail

The public endpoints that exchange something for a session or an account: the
two ways to sign in, the refresh of a session, the completion of a password
reset and the acceptance of an invitation.
-/

namespace Croniq.Auth

open CallPrograms

inductive Status
  | ok
  | created
  | accepted
  | noContent
  | badRequest
  | unauthorized
  | forbidden
  | notFound
  | conflict
  | gone
  | tooManyRequests
  | internalServerError
  deriving DecidableEq

inductive Response
  | status (code : Status)
  /-- A 401 that tells the client not to retry. -/
  | noSession
  | tokens (pair : TokenPair)
  | mfaRequired (userId : String)
  | enrollmentRequired (userId : String)
  | pat (tokenHash : String) (scopes : List String)
  | apiKey (keyHash : String)
  | client (clientId : String)
  | invitation (tokenHash : String)
  | user (user : User)
  deriving DecidableEq

/-- What can be redeemed once. -/
inductive Redeemable
  | refreshToken (tokenHash : String)
  | recoveryCode (codeId : String)
  | passwordReset (resetId userId : String)
  | invitation (invitationId : String)
  deriving DecidableEq

abbrev Handler : Type :=
  Program StoreCall StoreCall.Answer Redeemable Response

abbrev reply (code : Status) : Handler := .done (.status code)

/-- The library for passwords; a malformed hash cannot be checked. -/
structure Hasher where
  hash : String → String
  verify : String → String → Option Bool

structure ServerState where
  (passwordLoginEnabled requireTotp : Bool)
  jwtConfig : JwtConfig
  hasher : Hasher

def passwordMinLen : Nat := 8
def passwordMaxBytes : Nat := 72

def validatePassword (password : String) : Bool :=
  passwordMinLen ≤ password.utf8ByteSize && password.utf8ByteSize ≤ passwordMaxBytes

def issueTokenPair (config : JwtConfig) (now : Int) (callerId clientId : String)
    (callerType : CallerType) (userId : Option String) (role : Option Role)
    (authMethod : AuthMethod) (scopes : List String) (tokenGeneration : Option Nat)
    (refreshTokenHash : String) : TokenPair where
  access :=
    { sub := callerId, clientId, callerType, userId, role, authMethod, scopes, tokenGeneration
      exp := (now + config.accessTtlSecs * oneSecond) / oneSecond }
  refreshTokenHash
  refreshExpiresAt := now + config.refreshTtlSecs * oneSecond

variable (state : ServerState)

/-- Mint and store the tokens; a recovery code used has then completed a sign-in. -/
def mintUserTokens (authMethod : AuthMethod) (user : User) (recoveryCode : Option String)
    (freshToken : String) : Handler :=
  .call (.usersTokenGeneration user.userId) fun now generation =>
    match generation with
    | none => reply .internalServerError
    | some generation =>
      let pair := issueTokenPair state.jwtConfig now user.userId user.userId .user
        (some user.userId) (some user.role) authMethod (defaultScopesForRole user.role)
        generation freshToken
      .call (.usersSetLastLogin user.userId now) fun _ _ =>
        .call (.createRefreshToken
            { tokenHash := freshToken, clientId := user.userId, userId := some user.userId
              expiresAt := pair.refreshExpiresAt, revokedAt := none }) fun _ _ =>
          match recoveryCode with
          | some codeId => .redeem (.recoveryCode codeId) (.done (.tokens pair))
          | none => .done (.tokens pair)

variable (credential : PasswordCredential)

/-- Five failures in a row lock the account for a quarter of an hour; the row is read again. -/
def countFailedAttempt (rest : Handler) : Handler :=
  .call (.getCredentials credential.username) fun now found =>
    let current := (found.getD none).getD credential
    let failedAttempts := current.failedAttempts + 1
    .call (.upsertCredentials
        { current with
          failedAttempts
          lockedUntil :=
            if failedAttempts ≥ 5 then some (now + 15 * 60 * oneSecond)
            else current.lockedUntil }) fun _ _ => rest

def clearFailedAttempts (rest : Handler) : Handler :=
  .call (.getCredentials credential.username) fun _ found =>
    let current := (found.getD none).getD credential
    if 0 < current.failedAttempts ∨ current.lockedUntil.isSome then
      .call (.upsertCredentials { current with failedAttempts := 0, lockedUntil := none })
        fun _ _ => rest
    else rest

/-- What the check of a code against the stored secret and the used codes comes to. -/
inductive CodeCheck
  | accepted
  | rejected
  | unreadable
  deriving DecidableEq

/-- Exactly one of a code and a recovery code has to be given; the latter is marked as used before
any token is minted. -/
def verifySecondFactor (userId : String) (code : Option CodeCheck)
    (recoveryCode : Option String) (refused : Status → Handler)
    (passed : Option String → Handler) : Handler :=
  match code, recoveryCode with
  | some .accepted, none => passed none
  | some .rejected, none => refused .unauthorized
  | some .unreadable, none => refused .internalServerError
  | none, some codeHash =>
    .call (.recoveryCodesFindUnused userId codeHash) fun now found =>
      match found with
      | none => refused .internalServerError
      | some none => refused .unauthorized
      | some (some row) =>
        .call (.recoveryCodesMarkUsed row.codeId now) fun _ marked =>
          match marked with
          | none => refused .internalServerError
          | some _ => passed (some row.codeId)
  | _, _ => refused .badRequest

structure LoginRequest where
  throttled : Bool
  (username password : String)
  code : Option CodeCheck
  recoveryCode : Option String
  freshToken : String

variable (request : LoginRequest)

/-- After the password: the account has to be active, and a confirmed second factor presented. -/
def finishLogin (credential : PasswordCredential) : Handler :=
  .call (.usersGetById credential.userId) fun _ user =>
    match user with
    | none => reply .internalServerError
    | some none => reply .unauthorized
    | some (some user) =>
      if !user.isActive then reply .forbidden
      else
        .call (.totpGet user.userId) fun _ secret =>
          match secret with
          | none => reply .internalServerError
          | some secret =>
            if secret.any TotpSecret.enabled then
              if request.code.isNone ∧ request.recoveryCode.isNone then
                .done (.mfaRequired user.userId)
              else
                verifySecondFactor user.userId request.code request.recoveryCode
                  (fun refusal =>
                    if refusal = .unauthorized then
                      countFailedAttempt credential (reply refusal)
                    else reply refusal)
                  fun usedCode =>
                    clearFailedAttempts credential
                      (mintUserTokens state .password user usedCode request.freshToken)
            else if state.requireTotp then
              clearFailedAttempts credential (.done (.enrollmentRequired user.userId))
            else
              clearFailedAttempts credential
                (mintUserTokens state .password user none request.freshToken)

/-- `POST /v1/auth/login`: the password, and the second factor if given. -/
def handleLogin : Handler :=
  if !state.passwordLoginEnabled then reply .forbidden
  else if request.throttled then reply .tooManyRequests
  else
    .call (.getCredentials request.username) fun now found =>
      match found with
      | none => reply .internalServerError
      | some none => reply .unauthorized
      | some (some credential) =>
        if credential.lockedUntil.any (now < ·) then reply .unauthorized
        else
          match state.hasher.verify request.password credential.passwordHash with
          | none => reply .internalServerError
          | some false => countFailedAttempt credential (reply .unauthorized)
          | some true => finishLogin state request credential

/-- The step-up token names the user whose password was right, if it is valid and has
failures left. -/
structure TotpLoginRequest where
  throttled : Bool
  stepUp : Option String
  code : Option CodeCheck
  recoveryCode : Option String
  freshToken : String

/-- `POST /v1/auth/login/totp`: the second factor on its own. -/
def handleTotpLogin (request : TotpLoginRequest) : Handler :=
  if !state.passwordLoginEnabled then reply .forbidden
  else if request.throttled then reply .tooManyRequests
  else
    match request.stepUp with
    | none => reply .unauthorized
    | some userId =>
      .call (.usersGetById userId) fun _ user =>
        match user with
        | none => reply .internalServerError
        | some none => reply .unauthorized
        | some (some user) =>
          if !user.isActive then reply .forbidden
          else
            .call (.getCredentials user.username) fun now credential =>
              match credential with
              | none => reply .internalServerError
              | some credential =>
                if (credential.bind PasswordCredential.lockedUntil).any (now < ·) then
                  reply .unauthorized
                else
                  .call (.totpGet userId) fun _ secret =>
                    match secret with
                    | none => reply .internalServerError
                    | some none => reply .unauthorized
                    | some (some secret) =>
                      if !secret.enabled then reply .unauthorized
                      else
                        verifySecondFactor userId request.code request.recoveryCode
                          (fun refusal =>
                            match credential with
                            | some credential =>
                              if refusal = .unauthorized then
                                countFailedAttempt credential (reply refusal)
                              else reply refusal
                            | none => reply refusal)
                          fun usedCode =>
                            match credential with
                            | some credential =>
                              clearFailedAttempts credential
                                (mintUserTokens state .password user usedCode request.freshToken)
                            | none =>
                              mintUserTokens state .password user usedCode request.freshToken

/-- The token names the account that has to enrol, if it is valid. -/
structure EnrollTotpConfirmRequest where
  enrollToken : Option String
  code : CodeCheck
  freshToken : String

/-- `POST /v1/auth/login/enroll/totp/confirm`: the first code enables the second factor. -/
def handleEnrollTotpConfirm (request : EnrollTotpConfirmRequest) : Handler :=
  if !state.passwordLoginEnabled then reply .forbidden
  else
    match request.enrollToken with
    | none => reply .unauthorized
    | some userId =>
      .call (.usersGetById userId) fun _ user =>
        match user with
        | none => reply .internalServerError
        | some none => reply .unauthorized
        | some (some user) =>
          if !user.isActive then reply .forbidden
          else
            .call (.totpGet userId) fun _ secret =>
              match secret with
              | none => reply .internalServerError
              | some none => reply .notFound
              | some (some secret) =>
                if secret.enabled then reply .conflict
                else
                  match request.code with
                  | .unreadable => reply .internalServerError
                  | .rejected => reply .unauthorized
                  | .accepted =>
                    .call (.totpSetEnabled userId true) fun _ enabled =>
                      if enabled.isNone then reply .internalServerError
                      else mintUserTokens state .password user none request.freshToken

/-- What the exchange with the identity provider came to: no identity, one that is linked to an
account, or a new one and the account to be made for it. -/
inductive ProviderAnswer
  | refused (code : Status)
  | linked (userId : String)
  | unlinked (user : User)

def finishCallback (freshToken : String) (user : User) : Handler :=
  if !user.isActive then reply .forbidden else mintUserTokens state .oidc user none freshToken

/-- `GET /v1/auth/oidc/callback`: a name that is taken is not linked to the identity. -/
def handleCallback (answer : ProviderAnswer) (freshToken : String) : Handler :=
  match answer with
  | .refused code => reply code
  | .linked userId =>
    .call (.usersGetById userId) fun _ user =>
      match user with
      | some (some user) => finishCallback state freshToken user
      | _ => reply .internalServerError
  | .unlinked user =>
    .call (.usersGetByUsername user.username) fun _ taken =>
      match taken with
      | none => reply .internalServerError
      | some (some existing) => reply (if existing.isActive then .conflict else .forbidden)
      | some none =>
        let created := { user with isActive := true }
        .call (.usersCreate created) fun _ written =>
          match written with
          | some true => finishCallback state freshToken created
          | _ => reply .internalServerError

def refreshReuseGrace : Int := 60 * oneSecond

def refreshReuseDetected (row : RefreshToken) (now : Int) : Bool :=
  match row.revokedAt with
  | some revoked => revoked + refreshReuseGrace < now && now ≤ row.expiresAt
  | none => false

/-- A token that was exchanged or logged out came back: every session of its account ends. -/
def endSessionsAfterReuse (row : RefreshToken) (now : Int) (rest : Handler) : Handler :=
  match row.userId with
  | some userId =>
    .call (.revokeRefreshTokensForUser userId now) fun _ _ =>
      .call (.usersBumpTokenGeneration userId) fun _ _ => rest
  | none => rest

/-- The pair that replaces the presented token. -/
def rotate (presented : String) (token : RefreshToken) (callerType : CallerType)
    (userId : Option String) (role : Option Role) (authMethod : AuthMethod)
    (scopes : List String) (tokenGeneration : Option Nat) (freshToken : String) (now : Int) :
    Handler :=
  let pair := issueTokenPair state.jwtConfig now (userId.getD token.clientId) token.clientId
    callerType userId role authMethod scopes tokenGeneration freshToken
  .call (.createRefreshToken
      { tokenHash := freshToken, clientId := token.clientId, userId := token.userId
        expiresAt := pair.refreshExpiresAt, revokedAt := none }) fun _ _ =>
    .redeem (.refreshToken presented) (.done (.tokens pair))

/-- The new pair, with the current role, scopes and generation, once the old token is revoked. -/
def exchange (presented : String) (token : RefreshToken) (freshToken : String) : Handler :=
  match token.userId with
  | some userId =>
    .call (.usersGetById userId) fun _ user =>
      match user with
      | none => reply .internalServerError
      | some none => reply .unauthorized
      | some (some user) =>
        if !user.isActive then reply .forbidden
        else
          .call (.usersTokenGeneration user.userId) fun now generation =>
            match generation with
            | none => reply .internalServerError
            | some generation =>
              rotate state presented token .user (some user.userId) (some user.role)
                .password (defaultScopesForRole user.role) generation freshToken now
  | none =>
    .call (.getClient token.clientId) fun now client =>
      match client with
      | none => reply .internalServerError
      | some none => reply .unauthorized
      | some (some client) =>
        if !client.isActive then reply .forbidden
        else
          rotate state presented token .apiKey none none .apiKey client.scopes none
            freshToken now

/-- `POST /v1/auth/refresh`: a token back long after it was revoked ends every session. -/
def handleRefresh (tokenHash freshToken : String) : Handler :=
  .call (.validateRefreshToken tokenHash) fun now found =>
    match found with
    | none => reply .internalServerError
    | some none =>
      .call (.refreshTokenGet tokenHash) fun now row =>
        match row with
        | none => reply .internalServerError
        | some none => .done .noSession
        | some (some row) =>
          if refreshReuseDetected row now then
            endSessionsAfterReuse row now (.done .noSession)
          else reply .unauthorized
    | some (some token) =>
      if token.expiresAt < now then .done .noSession
      else
        .call (.revokeRefreshToken tokenHash now) fun _ _ =>
          exchange state tokenHash token freshToken

/-- `POST /v1/auth/logout`: the tokens of body and cookie are revoked. -/
def handleLogout (now : Int) : List String → Handler
  | [] => reply .noContent
  | tokenHash :: rest => .call (.revokeRefreshToken tokenHash now) fun _ _ => handleLogout now rest

def resetTokenTtl : Int := 60 * 60 * oneSecond

structure ResetRequest where
  (throttled mailAllowed : Bool)
  (username freshResetId freshToken : String)

/-- `POST /v1/auth/password-reset/request`: one answer for all; a new link retires the older ones.
-/
def handleRequest (request : ResetRequest) : Handler :=
  if !state.passwordLoginEnabled then reply .forbidden
  else if request.throttled then reply .tooManyRequests
  else
    .call (.usersGetByUsername request.username) fun now found =>
      match found.getD none with
      | none => reply .accepted
      | some user =>
        if !user.isActive ∨ !request.mailAllowed then reply .accepted
        else
          .call (.passwordResetsInvalidateForUser user.userId now) fun _ retired =>
            match retired with
            | none => reply .internalServerError
            | some _ =>
              .call (.passwordResetsCreate
                  { resetId := request.freshResetId, userId := user.userId
                    tokenHash := request.freshToken, expiresAt := now + resetTokenTtl
                    usedAt := none }) fun _ created =>
                match created with
                | some true => reply .accepted
                | _ => reply .internalServerError

/-- The writes of a reset: the password, the generation and the links. -/
def setPassword (reset : PasswordReset) (user : User)
    (credential : PasswordCredential) (newPassword : String) : Handler :=
  .call (.upsertCredentials
      { credential with
        passwordHash := state.hasher.hash newPassword, failedAttempts := 0
        lockedUntil := none }) fun _ written =>
    match written with
    | some true =>
      -- From here on the link has set the password.
      .redeem (.passwordReset reset.resetId reset.userId)
        (.call (.usersBumpTokenGeneration user.userId) fun now bumped =>
          match bumped with
          | none => reply .internalServerError
          | some _ =>
            .call (.passwordResetsInvalidateForUser user.userId now) fun _ _ => reply .noContent)
    | _ => reply .internalServerError

/-- `POST /v1/auth/password-reset/confirm` -/
def handleConfirm (tokenHash newPassword : String) : Handler :=
  if !state.passwordLoginEnabled then reply .forbidden
  else if !validatePassword newPassword then reply .badRequest
  else
    .call (.passwordResetsGetByTokenHash tokenHash) fun now found =>
      match found.getD none with
      | none => reply .unauthorized
      | some reset =>
        if reset.usedAt.isSome then reply .gone
        else if reset.expiresAt < now then reply .gone
        else
          .call (.usersGetById reset.userId) fun _ found =>
            match found.getD none with
            | none => reply .notFound
            | some user =>
              if !user.isActive then reply .gone
              else
                .call (.getCredentials user.username) fun _ found =>
                  match found.getD none with
                  | none => reply .notFound
                  | some credential => setPassword state reset user credential newPassword

structure AcceptInvitationRequest where
  (tokenHash username password freshUserId : String)

/-- The account of a claimed invitation, and its password. -/
def createAccount (request : AcceptInvitationRequest) (invitation : Invitation) : Handler :=
  .call (.usersCreate
      { userId := request.freshUserId, username := request.username
        email := some invitation.email, role := invitation.role, isActive := true })
    fun _ created =>
      match created with
      | some true =>
        .redeem (.invitation invitation.invitationId)
          (.call (.upsertCredentials
              { userId := request.freshUserId, username := request.username
                passwordHash := state.hasher.hash request.password
                failedAttempts := 0, lockedUntil := none }) fun _ stored =>
            match stored with
            | some true => reply .created
            | _ => reply .internalServerError)
      | _ => reply .internalServerError

/-- `POST /v1/invitations/accept`: the invitation is claimed before the account is
created. -/
def handleAccept (request : AcceptInvitationRequest) : Handler :=
  if Config.trim request.username = "" ∨ !validatePassword request.password then
    reply .badRequest
  else
    .call (.invitationsGetByTokenHash request.tokenHash) fun now found =>
      match found.getD none with
      | none => reply .unauthorized
      | some invitation =>
        if invitation.revokedAt.isSome ∨ invitation.acceptedAt.isSome then
          reply .gone
        else if invitation.expiresAt < now then reply .gone
        else
          .call (.usersGetByUsername request.username) fun now taken =>
            if (taken.getD none).isSome then reply .conflict
            else
              .call (.invitationsClaim invitation.invitationId now) fun _ claimed =>
                match claimed with
                | none => reply .internalServerError
                | some false => reply .gone
                | some true => createAccount state request invitation

end Croniq.Auth
