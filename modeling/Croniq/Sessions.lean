import Croniq.RequestAuth
import Croniq.SessionTokens
import Croniq.SingleUse

/-!
# Sessions and their end

A session is a chain of token pairs: a sign-in issues the first one, and each
refresh exchanges the refresh token of one pair for the next.
-/

namespace Croniq.Auth

open CallPrograms KeyedTables LabelledRuns List Auth.Store

/-- The requests that start, continue or end sessions. -/
inductive SessionEvent
  | login (request : LoginRequest)
  | totpLogin (request : TotpLoginRequest)
  | enrollTotpConfirm (request : EnrollTotpConfirmRequest)
  | callback (answer : ProviderAnswer) (freshToken : String)
  | refresh (tokenHash freshToken : String)
  | logout (tokenHashes : List String)
  | changePassword (caller : CallerContext) (oldPassword newPassword : String)
  | requestReset (request : ResetRequest)
  | confirmReset (tokenHash newPassword : String)
  | updateUser (caller : CallerContext) (userId : String) (request : UpdateUserRequest)

namespace SessionEvent

def handle (state : ServerState) (now : Int) : SessionEvent → Handler
  | .login request => handleLogin state request
  | .totpLogin request => handleTotpLogin state request
  | .enrollTotpConfirm request => handleEnrollTotpConfirm state request
  | .callback answer freshToken => handleCallback state answer freshToken
  | .refresh tokenHash freshToken => handleRefresh state tokenHash freshToken
  | .logout tokenHashes => handleLogout now tokenHashes
  | .changePassword caller oldPassword newPassword =>
    handleChangePassword state caller oldPassword newPassword
  | .requestReset request => handleRequest state request
  | .confirmReset tokenHash newPassword => handleConfirm state tokenHash newPassword
  | .updateUser caller userId request => handleUpdateUser caller userId request

def freshToken : SessionEvent → Option String
  | .login request => some request.freshToken
  | .totpLogin request => some request.freshToken
  | .enrollTotpConfirm request => some request.freshToken
  | .callback _ freshToken => some freshToken
  | .refresh _ freshToken => some freshToken
  | _ => none

def presented : SessionEvent → Option String
  | .refresh tokenHash _ => some tokenHash
  | _ => none

end SessionEvent

/-- A pair that was issued, and the refresh token it was exchanged for. -/
structure Issued where
  pair : TokenPair
  parent : Option String

structure SessionWorld where
  store : Store
  clock : Int
  issued : List Issued

open SessionWorld

def SessionWorld.initial (store : Store) (clock : Int) : SessionWorld where
  store
  clock
  issued := []

/-- A pair of tokens in a response is recorded. -/
def SessionWorld.record (world : SessionWorld) (event : SessionEvent) : Response → List Issued
  | .tokens pair => world.issued ++ [{ pair, parent := event.presented }]
  | _ => world.issued

def SessionWorld.isFresh (world : SessionWorld) (token : String) : Bool :=
  (world.store.refreshTokens.find? token).isNone

/-- One request is handled to its end. Random tokens do not repeat, time does not run backwards. -/
def SessionWorld.step (state : ServerState) (world : SessionWorld) :
    Int × SessionEvent → Option SessionWorld
  | (now, event) =>
    if world.clock ≤ now ∧ event.freshToken.all world.isFresh then
      let served := (event.handle state now).serve perform now world.store
      some { store := served.2, clock := now, issued := world.record event served.1 }
    else none

namespace SessionWorld

variable (state : ServerState) (world : SessionWorld) (now : Int)

def acceptsAccess (claims : Claims) : Bool :=
  validateToken state.jwtConfig now claims && enforceTokenGeneration world.store claims

def AcceptsRefresh (tokenHash : String) : Prop :=
  ∃ freshToken pair,
    ((handleRefresh state tokenHash freshToken).serve perform now world.store).1 = .tokens pair

/-- The event ends the sessions of the account, by its answer. -/
def Ends (userId : String) : SessionEvent → Prop
  | .changePassword caller oldPassword newPassword =>
    requireSelfUser caller = some userId ∧
      ((handleChangePassword state caller oldPassword newPassword).serve perform now
        world.store).1 = .status .noContent
  | .confirmReset tokenHash newPassword =>
    (∃ reset, world.store.passwordResetsGetByTokenHash tokenHash = some reset ∧
      reset.userId = userId) ∧
      ((handleConfirm state tokenHash newPassword).serve perform now world.store).1 =
        .status .noContent
  | .updateUser caller target request =>
    target = userId ∧
      (∃ user, world.store.usersGetById userId = some user ∧ request.deactivates user = true) ∧
      ∃ user, ((handleUpdateUser caller target request).serve perform now
        world.store).1 = .user user
  | .refresh tokenHash _ =>
    world.store.validateRefreshToken tokenHash = none ∧
      ∃ row, world.store.refreshTokens.find? tokenHash = some row ∧
        row.userId = some userId ∧ refreshReuseDetected row now = true
  | _ => False

end SessionWorld

/-- A pair of the account among the given ones, or obtained by refreshing such a pair. -/
inductive Stems (userId : String) (earlier issued : List Issued) : Issued → Prop
  | earlier {entry : Issued} (isEarlier : entry ∈ earlier)
      (own : entry.pair.access.userId = some userId) : Stems userId earlier issued entry
  | refreshed {entry parent : Issued} (isIssued : entry ∈ issued)
      (exchanged : entry.parent = some parent.pair.refreshTokenHash)
      (stems : Stems userId earlier issued parent) : Stems userId earlier issued entry

/-- From the state on, no pair of the account from before is of any use. -/
def SessionsEnded (state : ServerState) (userId : String) (earlier : List Issued)
    (world : SessionWorld) : Prop :=
  ∀ events final, run (step state) world events = some final →
    ∀ entry, Stems userId earlier final.issued entry →
      ∀ now, final.clock ≤ now →
        final.acceptsAccess state now entry.pair.access = false ∧
          ¬final.AcceptsRefresh state now entry.pair.refreshTokenHash

def Usable (store : Store) (now : Int) (tokenHash : String) : Prop :=
  ∃ row, store.validateRefreshToken tokenHash = some row ∧ now ≤ row.expiresAt

/-! No two users share a name. -/

def Store.UniqueNames (store : Store) : Prop :=
  ∀ first ∈ store.users.rows, ∀ second ∈ store.users.rows,
    first.username = second.username → first.userId = second.userId

theorem Store.uniqueNames_of_map {before after : Store} (unique : before.UniqueNames)
    {change : UserRow → UserRow} (changed : after.users.rows = before.users.rows.map change)
    (keepsName : ∀ row, (change row).username = row.username)
    (keepsId : ∀ row, (change row).userId = row.userId) : after.UniqueNames := by
  intro first isFirst second isSecond same
  rw [changed] at isFirst isSecond
  obtain ⟨first,wasFirst,rfl⟩ := mem_map.mp isFirst
  obtain ⟨second,wasSecond,rfl⟩ := mem_map.mp isSecond
  rw [keepsName,keepsName] at same
  rw [keepsId,keepsId]
  exact unique first wasFirst second wasSecond same

theorem Store.uniqueNames_usersCreate {store : Store} (unique : store.UniqueNames) (user : User) :
    (store.usersCreate user).2.UniqueNames := by
  unfold usersCreate
  split
  · exact unique
  rename_i isFree
  have ownName : ∀ row ∈ store.users.rows, row.username = user.username →
      row.userId = user.userId := by
    simpa using isFree
  split
  · rename_i extended inserts
    intro first isFirst second isSecond same
    rw [Table.rows_insert _ inserts,mem_append,mem_singleton] at isFirst isSecond
    rcases isFirst with isFirst | rfl
    · rcases isSecond with isSecond | rfl
      · exact unique first isFirst second isSecond same
      · exact ownName first isFirst same
    · rcases isSecond with isSecond | rfl
      · exact (ownName second isSecond same.symm).symm
      · rfl
  · intro first isFirst second isSecond same
    obtain ⟨first,wasFirst,rfl⟩ := mem_map.mp isFirst
    obtain ⟨second,wasSecond,rfl⟩ := mem_map.mp isSecond
    simp only [changeWhere] at same ⊢
    split_ifs at same ⊢ with isUser isUser' isUser'
    · exact (of_decide_eq_true isUser).trans (of_decide_eq_true isUser').symm
    · exact (of_decide_eq_true isUser).trans (ownName second wasSecond same.symm).symm
    · exact (ownName first wasFirst same).trans (of_decide_eq_true isUser').symm
    · exact unique first wasFirst second wasSecond same

theorem Store.uniqueNames_perform {store : Store} (unique : store.UniqueNames) (what : StoreCall) :
    (store.perform what).2.UniqueNames := by
  cases what with
  | usersCreate user => exact uniqueNames_usersCreate unique user
  | usersSetLastLogin userId instant | usersBumpTokenGeneration =>
    refine uniqueNames_of_map unique rfl (fun row => ?_) fun row => ?_
    all_goals
      unfold changeWhere
      split <;> rfl
  | _ =>
    simp only [perform,createClient,createApiKey,upsertCredentials,createRefreshToken,
      invitationsCreate,passwordResetsCreate,patCreate,inserted]
    repeat' split
    all_goals exact unique

theorem Store.uniqueNames_serve {store : Store} (unique : store.UniqueNames)
    (handler : Handler) (now : Int) : (handler.serve perform now store).2.UniqueNames := by
  refine handler.serve_rel (fun before after => before.UniqueNames → after.UniqueNames)
    ?_ ?_ ?_ now store unique
  · exact fun _ => id
  · exact fun earlier later => later ∘ earlier
  · exact fun _ what unique => uniqueNames_perform unique what

/-! What a run keeps. -/

namespace SessionWorld

variable {state : ServerState} {world after : SessionWorld} {now : Int} {event : SessionEvent}

theorem eq_of_step (step : world.step state (now, event) = some after) : (world.clock ≤ now ∧
      ∀ token ∈ event.freshToken, world.store.refreshTokens.find? token = none) ∧
      let served := (event.handle state now).serve perform now world.store
      after = { store := served.2, clock := now, issued := world.record event served.1 } := by
  simp only [SessionWorld.step] at step
  split at step
  · rename_i allowed
    refine ⟨⟨allowed.1,?_⟩,(Option.some.inj step).symm⟩
    intro token isToken
    have isFresh := allowed.2
    rw [Option.mem_def.mp isToken] at isFresh
    exact Option.isNone_iff_eq_none.mp isFresh
  · cases step

theorem mem_record {response : Response} {entry : Issued}
    (isIssued : entry ∈ world.record event response) :
    entry ∈ world.issued ∨
      ∃ pair, response = .tokens pair ∧ entry = { pair, parent := event.presented } := by
  cases response with
  | tokens pair =>
    rcases mem_append.mp isIssued with isOld | isNew
    · exact .inl isOld
    · exact .inr ⟨pair,rfl,mem_singleton.mp isNew⟩
  | _ => exact .inl isIssued

theorem keeps_of_step (step : world.step state (now, event) = some after) :
    world.store.Keeps after.store := by
  obtain ⟨-,rfl⟩ := eq_of_step step
  exact keeps_serve _ now world.store

/-- Every pair issued rests on the store, and was exchanged for a token of the same account. -/
structure Sound (world : SessionWorld) : Prop where
  minted : ∀ entry ∈ world.issued, Minted entry.pair world.store
  exchanged : ∀ entry ∈ world.issued, ∀ tokenHash, entry.parent = some tokenHash →
    ∃ row, world.store.refreshTokens.find? tokenHash = some row ∧
      row.userId = entry.pair.access.userId
  names : world.store.UniqueNames

end SessionWorld

section

variable {store : Store} {pair : TokenPair} {state : ServerState} {now : Int}
  {event : SessionEvent}
  (answers : ((event.handle state now).serve perform now store).1 = .tokens pair)
include answers

theorem minted_of_handle
    (isFresh : ∀ token ∈ event.freshToken, store.refreshTokens.find? token = none) :
    Minted pair ((event.handle state now).serve perform now store).2 := by
  cases event with
  | login request =>
    exact (((issues_handleLogin state request).wellIssued (isFresh _ rfl)).2 pair answers).1
  | totpLogin request =>
    exact (((issues_handleTotpLogin state request).wellIssued (isFresh _ rfl)).2 pair answers).1
  | enrollTotpConfirm request =>
    exact (((issues_handleEnrollTotpConfirm state request).wellIssued (isFresh _ rfl)).2 pair
      answers).1
  | callback => exact minted_of_callback (isFresh _ rfl) answers
  | refresh tokenHash =>
    exact (((issues_handleRefresh state tokenHash).wellIssued (isFresh _ rfl)).2 pair answers).1
  | logout tokenHashes => exact absurd answers (mute_handleLogout now tokenHashes now store pair)
  | changePassword caller oldPassword newPassword =>
    exact absurd answers (mute_handleChangePassword state caller oldPassword newPassword now
      store pair)
  | requestReset request => exact absurd answers (mute_handleRequest state request now store pair)
  | confirmReset tokenHash newPassword =>
    exact absurd answers (mute_handleConfirm state tokenHash newPassword now store pair)
  | updateUser caller userId request =>
    exact absurd answers (mute_handleUpdateUser caller userId request now store pair)

theorem valid_of_presented {tokenHash : String} (presented : event.presented = some tokenHash) :
    ∃ row, store.validateRefreshToken tokenHash = some row ∧ now ≤ row.expiresAt ∧
      row.userId = pair.access.userId := by
  cases event with
  | refresh =>
    cases presented
    obtain ⟨row,valid,unexpired,sameUser,-⟩ := valid_of_refreshed answers
    exact ⟨row,valid,unexpired,sameUser⟩
  | _ => cases presented

end

namespace SessionWorld

variable {state : ServerState} {world after : SessionWorld} {now : Int} {event : SessionEvent}

theorem Sound.step (sound : world.Sound) (step : world.step state (now, event) = some after) :
    after.Sound := by
  have keeps := keeps_of_step step
  obtain ⟨⟨-,isFresh⟩,rfl⟩ := eq_of_step step
  constructor
  · intro entry isIssued
    rcases mem_record isIssued with isOld | ⟨pair,answers,rfl⟩
    · exact (sound.minted entry isOld).of_keeps keeps
    · exact minted_of_handle answers isFresh
  · intro entry isIssued tokenHash parent
    suffices stored : ∃ row, world.store.refreshTokens.find? tokenHash = some row ∧
        row.userId = entry.pair.access.userId by
      obtain ⟨row,found,sameUser⟩ := stored
      obtain ⟨later,foundLater,sameUserLater,-⟩ := keeps.owner ⟨row,found,sameUser,rfl⟩
      exact ⟨later,foundLater,sameUserLater⟩
    rcases mem_record isIssued with isOld | ⟨pair,answers,rfl⟩
    · exact sound.exchanged entry isOld tokenHash parent
    · obtain ⟨row,valid,-,sameUser⟩ := valid_of_presented answers parent
      exact ⟨row,(validateRefreshToken_eq_some_iff.mp valid).1,sameUser⟩
  · exact uniqueNames_serve sound.names _ now

theorem sound_of_run {start : Store} {clock : Int} {events : List (Int × SessionEvent)}
    {final : SessionWorld} (names : start.UniqueNames)
    (reaches : run (step state) (.initial start clock) events = some final) : final.Sound := by
  apply invariant_of_run SessionWorld.Sound _ _ reaches
  · rintro world ⟨now,event⟩ next sound step
    exact sound.step step
  · exact ⟨by simp [initial],by simp [initial],names⟩

/-- The pairs of the account among the given ones are of no use any more, and no pair
has come from them. -/
structure Ended (userId : String) (earlier : List Issued) (world : SessionWorld) : Prop where
  access : ∀ entry ∈ earlier, entry.pair.access.userId = some userId →
    ∃ user, world.store.users.find? userId = some user ∧
      entry.pair.access.tokenGeneration.getD 0 < user.tokenGeneration
  refresh : ∀ entry ∈ earlier, entry.pair.access.userId = some userId →
    ∃ row, world.store.refreshTokens.find? entry.pair.refreshTokenHash = some row ∧
      (row.revokedAt.isSome = true ∨ row.expiresAt < world.clock)
  closed : ∀ entry ∈ world.issued, ∀ parent ∈ earlier,
    parent.pair.access.userId = some userId →
    entry.parent = some parent.pair.refreshTokenHash →
    entry ∈ earlier ∧ entry.pair.access.userId = some userId

variable {userId : String} {earlier : List Issued} {entry : Issued}

section

variable (ended : Ended userId earlier world)
include ended

theorem Ended.not_valid (isEarlier : entry ∈ earlier)
    (own : entry.pair.access.userId = some userId) (isLater : world.clock ≤ now)
    {row : RefreshToken}
    (valid : world.store.validateRefreshToken entry.pair.refreshTokenHash = some row) :
    row.expiresAt < now := by
  obtain ⟨other,stored,dead⟩ := ended.refresh entry isEarlier own
  obtain ⟨found,unrevoked⟩ := validateRefreshToken_eq_some_iff.mp valid
  rw [stored] at found
  cases found
  rcases dead with revoked | expired
  · rw [unrevoked] at revoked
    cases revoked
  · omega

theorem Ended.step (step : world.step state (now, event) = some after) :
    Ended userId earlier after := by
  have keeps := keeps_of_step step
  obtain ⟨⟨isLater,-⟩,rfl⟩ := eq_of_step step
  constructor
  · intro entry isEarlier own
    obtain ⟨user,found,older⟩ := ended.access entry isEarlier own
    obtain ⟨later,foundLater,grows⟩ := keeps.users found
    exact ⟨later,foundLater,older.trans_le grows⟩
  · intro entry isEarlier own
    obtain ⟨row,stored,dead⟩ := ended.refresh entry isEarlier own
    obtain ⟨later,storedLater,⟨-,-,sameExpiry⟩,stays⟩ := keeps.refreshTokens stored
    refine ⟨later,storedLater,dead.imp stays fun expired => ?_⟩
    rw [sameExpiry]
    exact expired.trans_le isLater
  · intro entry isIssued parent isEarlier own exchanged
    rcases mem_record isIssued with isOld | ⟨pair,answers,rfl⟩
    · exact ended.closed entry isOld parent isEarlier own exchanged
    · obtain ⟨row,valid,unexpired,-⟩ := valid_of_presented answers exchanged
      exact absurd (ended.not_valid isEarlier own isLater valid) (not_lt.mpr unexpired)

/-- Refreshing ended sessions leads nowhere, so whatever stems from them is one of
them. -/
theorem Ended.mem_of_stems (stems : Stems userId earlier world.issued entry) :
    entry ∈ earlier ∧ entry.pair.access.userId = some userId := by
  induction stems with
  | earlier isEarlier own => exact ⟨isEarlier,own⟩
  | refreshed isIssued exchanged _ ih => exact ended.closed _ isIssued _ ih.1 ih.2 exchanged

theorem Ended.refuses_access (isEarlier : entry ∈ earlier)
    (own : entry.pair.access.userId = some userId) (now : Int) :
    world.acceptsAccess state now entry.pair.access = false := by
  obtain ⟨user,found,older⟩ := ended.access entry isEarlier own
  have generation : world.store.usersTokenGeneration userId = some user.tokenGeneration := by
    simp [usersTokenGeneration,found]
  simp [acceptsAccess,enforceTokenGeneration,own,generation,older.ne]

theorem Ended.sessionsEnded : SessionsEnded state userId earlier world := by
  intro events final reaches entry stems later isLater
  have endedLater : Ended userId earlier final := by
    apply invariant_of_run (Ended userId earlier) _ ended reaches
    rintro world ⟨now,event⟩ next ended step
    exact ended.step step
  obtain ⟨isEarlier,own⟩ := endedLater.mem_of_stems stems
  refine ⟨endedLater.refuses_access isEarlier own later,?_⟩
  rintro ⟨freshToken,pair,answers⟩
  obtain ⟨row,valid,unexpired,-⟩ := valid_of_refreshed answers
  exact absurd (endedLater.not_valid isEarlier own isLater valid) (not_lt.mpr unexpired)

end

theorem ended_of_bumps (sound : world.Sound) (step : world.step state (now, event) = some after)
    (bumps : Bumps userId world.store after.store)
    (dead : ∀ entry ∈ world.issued, entry.pair.access.userId = some userId →
      ∃ row, after.store.refreshTokens.find? entry.pair.refreshTokenHash = some row ∧
        (row.revokedAt.isSome = true ∨ row.expiresAt < now))
    (invalid : ∀ tokenHash, event.presented = some tokenHash →
      world.store.validateRefreshToken tokenHash = none) : Ended userId world.issued after := by
  obtain ⟨-,rfl⟩ := eq_of_step step
  refine ⟨?_,dead,?_⟩
  · intro entry isEarlier own
    obtain ⟨generation,stamped,user,found,reached⟩ :=
      (sound.minted entry isEarlier).generation userId own
    obtain ⟨later,foundLater,grows⟩ := bumps user found
    refine ⟨later,foundLater,?_⟩
    rw [stamped]
    exact reached.trans_lt grows
  · intro entry isIssued parent isEarlier own exchanged
    rcases mem_record isIssued with isOld | ⟨pair,answers,rfl⟩
    · obtain ⟨row,stored,sameUser⟩ := sound.exchanged entry isOld _ exchanged
      obtain ⟨parentRow,storedParent,sameOwner,-⟩ := (sound.minted parent isEarlier).row
      rw [stored] at storedParent
      cases storedParent
      exact ⟨isOld,by rw [← sameUser,sameOwner,own]⟩
    · obtain ⟨row,valid,-,-⟩ := valid_of_presented answers exchanged
      rw [invalid _ exchanged] at valid
      cases valid

theorem endsAccess_of_ends (ends : world.Ends state now userId event)
    (noRefresh : event.presented = none) :
    EndsAccess userId world.store ((event.handle state now).serve perform now world.store).2 := by
  cases event with
  | changePassword => exact endsAccess_handleChangePassword ends.1 ends.2
  | confirmReset =>
    obtain ⟨⟨reset,presented,rfl⟩,answers⟩ := ends
    exact endsAccess_handleConfirm presented answers
  | updateUser =>
    obtain ⟨rfl,⟨user,looked,deactivates⟩,edited,answers⟩ := ends
    exact endsAccess_handleUpdateUser looked deactivates answers
  | refresh => cases noRefresh
  | _ => cases ends

theorem ended_of_reuse {tokenHash freshToken : String} (sound : world.Sound)
    (step : world.step state (now, .refresh tokenHash freshToken) = some after)
    (ends : world.Ends state now userId (.refresh tokenHash freshToken)) :
    Ended userId world.issued after := by
  obtain ⟨invalid,row,stored,owner,reused⟩ := ends
  have lands : after.store =
      (world.store.revokeRefreshTokensForUser userId now).usersBumpTokenGeneration userId := by
    obtain ⟨-,rfl⟩ := eq_of_step step
    have served := serve_handleRefresh_of_reused invalid stored owner reused state freshToken
    exact congrArg Prod.snd served
  apply ended_of_bumps sound step
  · rw [lands]
    exact bumps_of_keeps (keeps_perform world.store (.revokeRefreshTokensForUser userId now))
      (keeps_self _)
  · intro entry isEarlier own
    obtain ⟨row,stored,sameUser,-⟩ := (sound.minted entry isEarlier).row
    obtain ⟨later,storedLater,revoked⟩ := revoked_of_owner stored (sameUser.trans own) now
    refine ⟨later,?_,.inl revoked⟩
    rw [lands]
    exact storedLater
  · rintro _ ⟨⟩
    exact invalid

end SessionWorld

/-! An account that was deactivated can be activated again. -/

def administrator : CallerContext :=
  callerOf "root" .admin

def reactivate (userId : String) : SessionEvent :=
  .updateUser administrator userId { email := none, role := none, isActive := some true }

variable {store : Store} {row : UserRow}

theorem Store.usersCreate_of_found (names : store.UniqueNames) (user : User)
    (found : store.users.find? user.userId = some row)
    (sameName : user.username = row.username) : (store.usersCreate user).1 = true ∧
      ∃ later, (store.usersCreate user).2.users.find? user.userId = some later ∧
        later.isActive = user.isActive := by
  have ⟨isRow,sameId⟩ := store.users.find?_eq_some_iff.mp found
  have isFree : (store.users.rows.any fun row =>
      row.username = user.username ∧ row.userId ≠ user.userId) = false := by
    rw [any_eq_false]
    intro other isOther
    simp only [decide_eq_true_eq,not_and,not_not]
    intro sameNameOther
    rw [← sameId]
    exact names other isOther row isRow (sameNameOther.trans sameName)
  have created : (store.usersCreate user).1 = true := by
    rw [usersCreate,isFree,if_neg Bool.false_ne_true]
    split <;> rfl
  have looked := store.usersGetById_usersCreate created user.userId
  rw [if_pos rfl] at looked
  obtain ⟨later,foundLater,rfl⟩ := Option.map_eq_some_iff.mp looked
  exact ⟨created,later,foundLater,rfl⟩

theorem serve_reactivate {userId : String} {user : User}
    (looked : store.usersGetById userId = some user) (state : ServerState) (now : Int)
    (created : (store.usersCreate { user with isActive := true }).1 = true) :
    (((reactivate userId).handle state now).serve perform now store).2 =
      (store.usersCreate { user with isActive := true }).2 := by
  have allowed : requireUserAdmin administrator = true := by decide
  have isAdmin : administrator.isAdmin = true := by decide
  simp [reactivate,SessionEvent.handle,handleUpdateUser,allowed,Program.serve_call,
    perform,looked,requireMayManageUser,isAdmin,UpdateUserRequest.demotesAdmin,
    UpdateUserRequest.deactivates,writeUpdate,UpdateUserRequest.applyTo,created]

theorem active_of_reactivate {userId : String} (names : store.UniqueNames)
    (found : store.users.find? userId = some row) (state : ServerState) (now : Int) :
    let served := ((reactivate userId).handle state now).serve perform now store
    (∃ later, served.2.users.find? userId = some later ∧ later.isActive = true) ∧
      served.2.refreshTokens = store.refreshTokens := by
  have looked : store.usersGetById userId = some row.toUser := by simp [usersGetById,found]
  have sameId := store.users.key_of_find? found
  subst sameId
  let edited : User := { row.toUser with isActive := true }
  obtain ⟨created,active⟩ := usersCreate_of_found names edited found rfl
  dsimp only
  rw [serve_reactivate looked state now created]
  exact ⟨active,store.refreshTokens_usersCreate edited⟩

namespace SessionWorld

variable {state : ServerState} {world after : SessionWorld} {now : Int} {event : SessionEvent}

/-- The refresh token of a session survives a change of the password and is exchanged for a new
pair. -/
theorem not_sessionsEnded {userId : String} (sound : world.Sound)
    (step : world.step state (now, event) = some after)
    (ends : world.Ends state now userId event) (noRefresh : event.presented = none)
    {entry : Issued} (isIssued : entry ∈ world.issued)
    (own : entry.pair.access.userId = some userId)
    (usable : Usable world.store now entry.pair.refreshTokenHash) :
    ¬SessionsEnded state userId world.issued after := by
  obtain ⟨row,valid,unexpired⟩ := usable
  have ⟨stored,unrevoked⟩ := validateRefreshToken_eq_some_iff.mp valid
  obtain ⟨-,-,user,found,-⟩ := (sound.minted entry isIssued).generation userId own
  have owner : row.userId = some userId := by
    obtain ⟨other,storedOther,sameUser,-⟩ := (sound.minted entry isIssued).row
    rw [stored] at storedOther
    cases storedOther
    rw [sameUser,own]
  obtain ⟨later,foundLater,-⟩ := (keeps_of_step step).users found
  have soundAfter := sound.step step
  have ⟨untouched,clockAfter⟩ :
      after.store.refreshTokens = world.store.refreshTokens ∧ after.clock = now := by
    have touchesNone := (endsAccess_of_ends ends noRefresh).2
    obtain ⟨-,rfl⟩ := eq_of_step step
    exact ⟨touchesNone,rfl⟩
  obtain ⟨⟨active,foundActive,isActive⟩,sameTokens⟩ :=
    active_of_reactivate soundAfter.names foundLater state now
  have reactivates : after.step state (now, reactivate userId) =
      some
        { store := (((reactivate userId).handle state now).serve perform now after.store).2
          clock := now
          issued := after.record (reactivate userId)
            (((reactivate userId).handle state now).serve perform now after.store).1 } :=
    if_pos ⟨clockAfter.le,rfl⟩
  intro ended
  have refused := (ended [(now, reactivate userId)] _ (by rw [run_cons_iff]; exact
    ⟨_,reactivates,rfl⟩) entry (.earlier isIssued own) now le_rfl).2
  have valid := validateRefreshToken_eq_some_iff.mpr
    ⟨(sameTokens.trans untouched).symm ▸ stored,unrevoked⟩
  obtain ⟨pair,answers⟩ := refreshed_of_valid valid unexpired owner foundActive isActive state ""
  exact refused ⟨"",pair,answers⟩

end SessionWorld

/-- After a change or reset of the password or a deactivation no earlier token is accepted again
exactly when no refresh token was usable; after a returning refresh token none ever is. -/
theorem sessions_end_iff {state : ServerState} {start : Store} {clock now : Int}
    {events : List (Int × SessionEvent)} {before after : SessionWorld} {event : SessionEvent}
    {userId : String} (names : start.UniqueNames)
    (reaches : run (step state) (.initial start clock) events = some before)
    (step : before.step state (now, event) = some after)
    (ends : before.Ends state now userId event) :
    SessionsEnded state userId before.issued after ↔
      (∃ tokenHash freshToken, event = .refresh tokenHash freshToken) ∨
        ∀ entry ∈ before.issued, entry.pair.access.userId = some userId →
          ¬Usable before.store now entry.pair.refreshTokenHash := by
  have sound := sound_of_run names reaches
  cases presented : event.presented with
  | some =>
    cases event with
    | refresh other freshToken =>
      have ended := ended_of_reuse sound step ends
      exact ⟨fun _ => .inl ⟨other,freshToken,rfl⟩,fun _ => ended.sessionsEnded⟩
    | _ => cases presented
  | none =>
    have noRefresh : ¬∃ tokenHash freshToken, event = .refresh tokenHash freshToken := by
      rintro ⟨tokenHash,freshToken,rfl⟩
      cases presented
    rw [or_iff_right noRefresh]
    constructor
    · intro ended entry isIssued own usable
      exact not_sessionsEnded sound step ends presented isIssued own usable ended
    · intro unusable
      apply SessionWorld.Ended.sessionsEnded
      have ⟨bumps,untouched⟩ := endsAccess_of_ends ends presented
      obtain ⟨-,rfl⟩ := eq_of_step step
      apply ended_of_bumps sound step bumps
      · intro entry isIssued own
        obtain ⟨row,stored,-⟩ := (sound.minted entry isIssued).row
        refine ⟨row,by rw [untouched,stored],?_⟩
        by_contra alive
        rw [not_or,not_lt] at alive
        have unrevoked : row.revokedAt = none := by simpa using alive.1
        exact unusable entry isIssued own
          ⟨row,validateRefreshToken_eq_some_iff.mpr ⟨stored,unrevoked⟩,alive.2⟩
      · intro tokenHash isPresented
        rw [presented] at isPresented
        cases isPresented

def signIn (freshToken : String) : SessionEvent :=
  .login
    { throttled := false, username := "alex", password := "old password"
      code := some .accepted, recoveryCode := none, freshToken }

theorem uniqueNames_oneAccount : oneAccount.UniqueNames := by
  intro first isFirst second isSecond _
  rw [mem_singleton.mp isFirst,mem_singleton.mp isSecond]

/-- A token that was logged out comes back after a minute. -/
theorem sessions_end_iff_reuse :
    ∃ before after,
      run (step plainServer) (.initial oneAccount 0)
          [(1, signIn "first"),(2, signIn "second"),(3, .logout ["first"])] = some before ∧
        before.step plainServer (61 * oneSecond, .refresh "first" "third") = some after ∧
        before.issued.length = 2 ∧ SessionsEnded plainServer "u1" before.issued after := by
  have ⟨before,reaches,issued,ends⟩ : ∃ before,
      run (step plainServer) (.initial oneAccount 0)
        [(1, signIn "first"),(2, signIn "second"),(3, .logout ["first"])] = some before ∧
      (before.issued.length = 2 ∧ before.clock = 3 ∧ before.isFresh "third" = true) ∧
      before.Ends plainServer (61 * oneSecond) "u1" (.refresh "first" "third") :=
    ⟨_,rfl,⟨rfl,rfl,rfl⟩,by decide,_,rfl,rfl,by decide⟩
  have step : before.step plainServer (61 * oneSecond, .refresh "first" "third") = some _ :=
    if_pos ⟨by rw [issued.2.1]; decide,issued.2.2⟩
  exact ⟨before,_,reaches,step,issued.1,
    (sessions_end_iff uniqueNames_oneAccount reaches step ends).mpr (.inl ⟨_,_,rfl⟩)⟩

/-- A new password, a reset and a deactivation of the account. -/
def endings : List SessionEvent :=
  [.changePassword (callerOf "u1" .viewer) "old password" "new password",
    .confirmReset "link" "new password",
    .updateUser administrator "u1" { email := none, role := none, isActive := some false }]

/-- A session's refresh token survives each of them. -/
theorem sessions_survive_endings :
    endings ≠ [] ∧ ∀ event ∈ endings, ∃ before after,
      run (step plainServer) (.initial oneAccount 0) [(1, signIn "first")] = some before ∧
        before.step plainServer (2, event) = some after ∧
        before.Ends plainServer 2 "u1" event ∧
        ¬SessionsEnded plainServer "u1" before.issued after := by
  refine ⟨cons_ne_nil _ _,?_⟩
  intro event isEnding
  have ⟨before,reaches,issued,ends⟩ : ∃ before,
      run (step plainServer) (.initial oneAccount 0) [(1, signIn "first")] = some before ∧
      (before.clock = 1 ∧ ∃ entry ∈ before.issued, entry.pair.access.userId = some "u1" ∧
        ∃ row, before.store.validateRefreshToken entry.pair.refreshTokenHash = some row ∧
          2 ≤ row.expiresAt) ∧
      before.Ends plainServer 2 "u1" event := by
    refine ⟨_,rfl,⟨rfl,_,mem_singleton.mpr rfl,rfl,_,rfl,by decide⟩,?_⟩
    simp only [endings,mem_cons,not_mem_nil,or_false] at isEnding
    rcases isEnding with rfl | rfl | rfl
    · exact ⟨rfl,rfl⟩
    · exact ⟨⟨_,rfl,rfl⟩,rfl⟩
    · exact ⟨rfl,⟨_,rfl,rfl⟩,_,rfl⟩
  have ⟨noFresh,noRefresh⟩ : event.freshToken = none ∧ event.presented = none := by
    simp only [endings,mem_cons,not_mem_nil,or_false] at isEnding
    rcases isEnding with rfl | rfl | rfl <;> exact ⟨rfl,rfl⟩
  have step : before.step plainServer (2, event) = some _ :=
    if_pos ⟨by rw [issued.1]; decide,by rw [noFresh]; rfl⟩
  obtain ⟨-,entry,isIssued,own,usable⟩ := issued
  have sound := sound_of_run uniqueNames_oneAccount reaches
  refine ⟨before,_,reaches,step,ends,?_⟩
  exact not_sessionsEnded sound step ends noRefresh isIssued own usable

end Croniq.Auth
