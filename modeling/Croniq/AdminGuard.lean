import Croniq.RequestViews
import Croniq.UserAccounts

/-!
# The last administrator

Updates, self-updates and deletions of accounts that run side by side.
-/

namespace Croniq.Auth

open CallPrograms KeyedTables LabelledRuns

/-- Delete the user with all that belongs to it, by own statements or by the foreign keys. -/
def Store.usersDelete (store : Store) (userId : String) : Store :=
  { store with
    invitations := store.invitations.deleteWhere (·.invitedBy = userId)
    refreshTokens := store.refreshTokens.deleteWhere (·.userId = some userId)
    credentials := store.credentials.delete userId
    users := store.users.delete userId
    totpSecrets := store.totpSecrets.delete userId
    recoveryCodes := store.recoveryCodes.deleteWhere (·.userId = userId)
    passwordResets := store.passwordResets.deleteWhere (·.userId = userId)
    tokens := store.tokens.deleteWhere (·.userId = userId) }

inductive AccountCall
  | stored (what : StoreCall)
  | usersDelete (userId : String)

def AccountCall.Answer : AccountCall → Type
  | .stored what => what.Answer
  | .usersDelete _ => Unit

def Store.performAccount (store : Store) : (what : AccountCall) → what.Answer × Store
  | .stored what => store.perform what
  | .usersDelete userId => ((), store.usersDelete userId)

abbrev AccountHandler : Type :=
  Program AccountCall AccountCall.Answer Redeemable Response

def Handler.onAccounts : Handler → AccountHandler
  | .done response => .done response
  | .redeem credential rest => .redeem credential (Handler.onAccounts rest)
  | .call what next => .call (.stored what) fun now answer => Handler.onAccounts (next now answer)

variable (caller : CallerContext)

/-- `DELETE /v1/users/{id}`: the last active administrator stays. A failed read counts as no row. -/
def handleDeleteUser (userId : String) : AccountHandler :=
  let remove : AccountHandler :=
    .call (.usersDelete userId) fun _ deleted =>
      match deleted with
      | none => .done (.status .internalServerError)
      | some _ => .done (.status .noContent)
  if !requireUserAdmin caller then .done (.status .forbidden)
  else
    .call (.stored (.usersGetById userId)) fun _ found =>
      match found with
      | none | some none => .done (.status .notFound)
      | some (some user) =>
        if !requireMayManageUser caller user then .done (.status .forbidden)
        else if user.role = .admin ∧ user.isActive = true then
          .call (.stored .usersCountActiveAdmins) fun _ activeAdmins =>
            match activeAdmins with
            | none => .done (.status .internalServerError)
            | some (activeAdmins : Nat) =>
              if activeAdmins ≤ 1 then .done (.status .conflict) else remove
        else remove

inductive AccountRequest
  | update (caller : CallerContext) (userId : String) (request : UpdateUserRequest)
  | updateMe (caller : CallerContext) (request : UpdateMeRequest)
  | delete (caller : CallerContext) (userId : String)

def handleAccount : AccountRequest → AccountHandler
  | .update caller userId request => (handleUpdateUser caller userId request).onAccounts
  | .updateMe caller request => (handleUpdateMe caller request).onAccounts
  | .delete caller userId => handleDeleteUser caller userId

def accountService :
    Service Store AccountRequest AccountCall AccountCall.Answer Redeemable Response where
  handle := handleAccount
  perform := Store.performAccount

def User.IsActiveAdmin (user : User) : Prop :=
  user.role = .admin ∧ user.isActive = true

instance (user : User) : Decidable user.IsActiveAdmin :=
  inferInstanceAs (Decidable (_ ∧ _))

def Store.ActiveAdmin (store : Store) (userId : String) : Prop :=
  ∃ row ∈ store.users.find? userId, row.toUser.IsActiveAdmin

instance (store : Store) (userId : String) : Decidable (store.ActiveAdmin userId) :=
  inferInstanceAs (Decidable (∃ row ∈ store.users.find? userId, row.toUser.IsActiveAdmin))

/-- Some account is. -/
def Store.HasActiveAdmin (store : Store) : Prop :=
  ∃ row ∈ store.users.rows, row.toUser.IsActiveAdmin

instance (store : Store) : Decidable store.HasActiveAdmin :=
  inferInstanceAs (Decidable (∃ row ∈ store.users.rows, row.toUser.IsActiveAdmin))

variable {store : Store} {edited : User}

theorem Store.exists_other_admin (several : 1 < store.usersCountActiveAdmins) (userId : String) :
    ∃ row ∈ store.users.rows, row.toUser.IsActiveAdmin ∧ row.userId ≠ userId := by
  obtain ⟨row,member,isAdmin,other⟩ := store.users.exists_of_one_lt_count several userId
  exact ⟨row,member,of_decide_eq_true isAdmin,other⟩

theorem Store.mem_usersCreate {row : UserRow}
    (member : row ∈ store.users.rows) (isAdmin : row.toUser.IsActiveAdmin)
    (stays : row.userId = edited.userId → edited.IsActiveAdmin) :
    (store.usersCreate edited).2.HasActiveAdmin := by
  unfold Store.usersCreate
  split
  · exact ⟨row,member,isAdmin⟩
  split
  · rename_i users inserts
    exact ⟨row,by simp [store.users.rows_insert inserts,member],isAdmin⟩
  refine ⟨_,List.mem_map_of_mem member,?_⟩
  unfold changeWhere
  split
  · rename_i isEdited
    exact stays (of_decide_eq_true isEdited)
  · exact isAdmin

section

variable (hasAdmin : store.HasActiveAdmin)
include hasAdmin

theorem Store.hasActiveAdmin_usersCreate (stays : store.ActiveAdmin edited.userId →
      edited.IsActiveAdmin ∨ 1 < store.usersCountActiveAdmins) :
    (store.usersCreate edited).2.HasActiveAdmin := by
  obtain ⟨row,member,isAdmin⟩ := hasAdmin
  by_cases isEdited : row.userId = edited.userId
  · obtain remains | several := stays
      ⟨row,store.users.find?_eq_some_iff.mpr ⟨member,isEdited⟩,isAdmin⟩
    · exact mem_usersCreate member isAdmin fun _ => remains
    · obtain ⟨another,isRow,alsoAdmin,other⟩ := exists_other_admin several edited.userId
      exact mem_usersCreate isRow alsoAdmin fun same => absurd same other
  · exact mem_usersCreate member isAdmin fun same => absurd same isEdited

theorem Store.hasActiveAdmin_usersDelete {userId : String}
    (stays : store.ActiveAdmin userId → 1 < store.usersCountActiveAdmins) :
    (store.usersDelete userId).HasActiveAdmin := by
  have survives : ∀ row ∈ store.users.rows, row.userId ≠ userId →
      row ∈ (store.usersDelete userId).users.rows := by
    intro row member other
    exact List.mem_filter.mpr ⟨member,by simpa using other⟩
  obtain ⟨row,member,isAdmin⟩ := hasAdmin
  by_cases isDeleted : row.userId = userId
  · have several := stays
      ⟨row,store.users.find?_eq_some_iff.mpr ⟨member,isDeleted⟩,isAdmin⟩
    obtain ⟨another,isRow,alsoAdmin,other⟩ := exists_other_admin several userId
    exact ⟨another,survives another isRow other,alsoAdmin⟩
  · exact ⟨row,survives row member isDeleted,isAdmin⟩

theorem Store.hasActiveAdmin_bump
    (userId : String) : (store.usersBumpTokenGeneration userId).HasActiveAdmin := by
  obtain ⟨row,member,isAdmin⟩ := hasAdmin
  refine ⟨_,List.mem_map_of_mem member,?_⟩
  unfold changeWhere
  split
  · exact isAdmin
  · exact isAdmin

end

/-- The row a request has read last, and how many active administrators it was told of. -/
structure AccountView where
  copy : Option User
  told : Option Nat

def accountObserver : Observer AccountCall AccountCall.Answer AccountView where
  initial := { copy := none, told := none }
  observe view
    | .stored (.usersGetById _), (found : Option User) => { view with copy := found.or view.copy }
    | .stored .usersCountActiveAdmins, (activeAdmins : Nat) =>
      { view with told := some activeAdmins }
    | _, _ => view

/-- An active administrator in the copy stays one, or the request was told of another. -/
def AccountView.Entitles (view : AccountView) (userId : String) (stays : Prop) : Prop :=
  ∃ user, view.copy = some user ∧ user.userId = userId ∧
    (user.IsActiveAdmin → stays ∨ ∃ told, view.told = some told ∧ 1 < told)

/-- What the endpoints call, and the writes among it. -/
def AccountView.Grants (view : AccountView) : AccountCall → Prop
  | .stored (.usersGetById _) => True
  | .stored .usersCountActiveAdmins => True
  | .stored (.usersBumpTokenGeneration _) => True
  | .stored (.usersCreate edited) => view.Entitles edited.userId edited.IsActiveAdmin
  | .usersDelete userId => view.Entitles userId False
  | _ => False

section

/-- The handler writes only what its view entitles it to. -/
abbrev Respectful (view : AccountView) (handler : AccountHandler) : Prop :=
  handler.Respects Store.performAccount accountObserver AccountView.Grants view

variable {view : AccountView} {user : User}

theorem respectful_call {what : AccountCall} {next : Int → Option what.Answer → AccountHandler}
    (granted : view.Grants what)
    (unseen : ∀ answer, accountObserver.observe view what answer = view)
    (goesOn : ∀ now answer, Respectful view (next now answer)) :
    Respectful view (.call what next) := by
  refine ⟨granted,fun now => ⟨fun store => ?_,goesOn now none⟩⟩
  rw [unseen]
  exact goesOn now _

theorem respectful_getById {userId : String} {next : Int → Option (Option User) → AccountHandler}
    (found : ∀ now user, user.userId = userId →
      Respectful { view with copy := some user } (next now (some (some user))))
    (missing : ∀ now, Respectful view (next now (some none)))
    (failed : ∀ now, Respectful view (next now none)) :
    Respectful view (.call (.stored (.usersGetById userId)) next) := by
  refine ⟨trivial,fun now => ⟨fun store => ?_,failed now⟩⟩
  change Respectful { view with copy := (store.usersGetById userId).or view.copy }
    (next now (some (store.usersGetById userId)))
  cases read : store.usersGetById userId with
  | none => exact missing now
  | some user => exact found now user (Store.userId_of_getById read)

theorem respectful_count {next : Int → Option Nat → AccountHandler}
    (counted : ∀ now (activeAdmins : Nat),
      Respectful { view with told := some activeAdmins } (next now (some activeAdmins)))
    (failed : ∀ now, Respectful view (next now none)) :
    Respectful view (.call (.stored .usersCountActiveAdmins) next) :=
  ⟨trivial,fun now => ⟨fun _ => counted now _,failed now⟩⟩

variable {request : UpdateUserRequest}

theorem respectful_writeUpdate
    (entitled : view.Entitles user.userId (request.applyTo user).IsActiveAdmin) :
    Respectful view (writeUpdate request user).onAccounts := by
  refine respectful_call entitled (fun _ => rfl) ?_
  rintro now (_ | _ | _)
  · trivial
  · trivial
  · split
    · refine respectful_call trivial (fun _ => rfl) ?_
      rintro now (_ | _)
      · trivial
      · trivial
    · trivial

theorem UpdateUserRequest.isActiveAdmin_applyTo
    (harmless : ¬(request.demotesAdmin user ∨ request.deactivates user ∧ user.role = .admin))
    (isAdmin : user.IsActiveAdmin) : (request.applyTo user).IsActiveAdmin := by
  obtain ⟨isRole,isActive⟩ := isAdmin
  rw [not_or,not_and] at harmless
  obtain ⟨keepsRole,keepsActive⟩ := harmless
  have stillActive := fun off => keepsActive off isRole
  constructor
  · simp only [applyTo]
    cases asked : request.role with
    | none => exact isRole
    | some => simpa [demotesAdmin,asked,isRole] using keepsRole
  · simp only [applyTo]
    cases asked : request.isActive with
    | none => exact isActive
    | some => simpa [deactivates,asked,isActive] using stillActive

theorem respectful_handleUpdateUser (userId : String) (request : UpdateUserRequest) :
    Respectful view (handleUpdateUser caller userId request).onAccounts := by
  unfold handleUpdateUser
  split
  · trivial
  refine respectful_getById (fun now user isUser => ?_) (fun _ => trivial) fun _ => trivial
  dsimp only
  split
  · trivial
  split
  · trivial
  split
  · refine respectful_count (fun now activeAdmins => ?_) fun _ => trivial
    dsimp only
    split
    · trivial
    rename_i another
    refine respectful_writeUpdate ⟨user,rfl,rfl,fun isAdmin => .inr ⟨_,rfl,?_⟩⟩
    by_contra last
    exact another ⟨isAdmin.1,isAdmin.2,Nat.le_of_not_lt last⟩
  · rename_i harmless
    exact respectful_writeUpdate ⟨user,rfl,rfl,fun isAdmin =>
      .inl (UpdateUserRequest.isActiveAdmin_applyTo harmless isAdmin)⟩

theorem respectful_handleUpdateMe (request : UpdateMeRequest) :
    Respectful view (handleUpdateMe caller request).onAccounts := by
  unfold handleUpdateMe
  split
  · trivial
  split
  · trivial
  · refine respectful_getById (fun now user isUser => ?_) (fun _ => trivial) fun _ => trivial
    refine respectful_call ⟨user,rfl,rfl,fun isAdmin => .inl isAdmin⟩ (fun _ => rfl) ?_
    rintro now (_ | _ | _) <;> trivial

theorem respectful_handleDeleteUser (userId : String) :
    Respectful view (handleDeleteUser caller userId) := by
  have removes : ∀ {view : AccountView}, view.Entitles userId False →
      Respectful view (.call (.usersDelete userId) fun _ deleted =>
        match deleted with
        | none => .done (.status .internalServerError)
        | some _ => .done (.status .noContent)) := by
    intro view entitled
    refine respectful_call entitled (fun _ => rfl) ?_
    rintro now (_ | _) <;> trivial
  unfold handleDeleteUser
  split
  · trivial
  refine respectful_getById (fun now user isUser => ?_) (fun _ => trivial) fun _ => trivial
  dsimp only
  split
  · trivial
  split
  · refine respectful_count (fun now activeAdmins => ?_) fun _ => trivial
    dsimp only
    split
    · trivial
    · rename_i another
      exact removes ⟨user,rfl,isUser,fun _ => .inr ⟨_,rfl,Nat.lt_of_not_le another⟩⟩
  · rename_i noAdmin
    exact removes ⟨user,rfl,isUser,fun isAdmin => absurd isAdmin noAdmin⟩

theorem respectful_handleAccount (request : AccountRequest) :
    Respectful view (handleAccount request) := by
  cases request with
  | update caller userId request => exact respectful_handleUpdateUser caller userId request
  | updateMe caller request => exact respectful_handleUpdateMe caller request
  | delete caller userId => exact respectful_handleDeleteUser caller userId

end

/-- The copy is right about active administrators, and the number told has not fallen. -/
def AccountView.UpToDate (view : AccountView) (store : Store) : Prop :=
  (∀ user ∈ view.copy, store.ActiveAdmin user.userId → user.IsActiveAdmin) ∧
    ∀ told ∈ view.told, told ≤ store.usersCountActiveAdmins

instance (view : AccountView) (store : Store) : Decidable (view.UpToDate store) :=
  inferInstanceAs (Decidable ((∀ user ∈ view.copy, _ → _) ∧ ∀ told ∈ view.told, _))

/-- The account that a write leaves as no active administrator. -/
def AccountCall.takenFrom : AccountCall → Option String
  | .stored (.usersCreate edited) => if edited.IsActiveAdmin then none else some edited.userId
  | .usersDelete userId => some userId
  | _ => none

/-- A write that takes an active administrator away has an up-to-date view. -/
def AccountView.TakesInTime (view : AccountView) (store : Store) (what : AccountCall) : Prop :=
  ∀ userId ∈ what.takenFrom, store.ActiveAdmin userId → view.UpToDate store

instance (view : AccountView) (store : Store) (what : AccountCall) :
    Decidable (view.TakesInTime store what) :=
  inferInstanceAs (Decidable (∀ userId ∈ what.takenFrom, store.ActiveAdmin userId → _))

theorem AccountView.Entitles.several {view : AccountView} {store : Store} {userId : String}
    {stays : Prop} (entitled : view.Entitles userId stays) (upToDate : view.UpToDate store)
    (isAdmin : store.ActiveAdmin userId) (goes : ¬stays) : 1 < store.usersCountActiveAdmins := by
  obtain ⟨user,isCopy,rfl,guarded⟩ := entitled
  obtain remains | ⟨told,wasTold,several⟩ := guarded (upToDate.1 user isCopy isAdmin)
  · exact absurd remains goes
  · exact Nat.lt_of_lt_of_le several (upToDate.2 told wasTold)

theorem Store.hasActiveAdmin_performAccount {view : AccountView} {store : Store}
    {what : AccountCall} (granted : view.Grants what) (inTime : view.TakesInTime store what)
    (hasAdmin : store.HasActiveAdmin) : (store.performAccount what).2.HasActiveAdmin := by
  cases what with
  | usersDelete userId =>
    exact hasActiveAdmin_usersDelete hasAdmin fun isAdmin =>
      granted.several (inTime userId rfl isAdmin) isAdmin id
  | stored what =>
    cases what with
    | usersGetById | usersCountActiveAdmins => exact hasAdmin
    | usersBumpTokenGeneration userId => exact hasActiveAdmin_bump hasAdmin userId
    | usersCreate edited =>
      refine hasActiveAdmin_usersCreate hasAdmin fun isAdmin => ?_
      by_cases remains : edited.IsActiveAdmin
      · exact .inl remains
      · have upToDate := inTime edited.userId (by simp [AccountCall.takenFrom,remains]) isAdmin
        exact .inr (granted.several upToDate isAdmin remains)
    | _ => exact granted.elim

/-- Account requests side by side, from the given store. -/
abbrev AccountScene : Type :=
  Scene Store AccountCall AccountCall.Answer Redeemable Response AccountView

def AccountScene.step : AccountScene → Label AccountRequest → Option AccountScene :=
  Scene.step accountService accountObserver

/-- **An active administrator remains** after any interleaving in which none is taken away on an
outdated copy or count. -/
theorem active_admin_remains {store : Store} {labels : List (Label AccountRequest)}
    {final : AccountScene} (hasAdmin : store.HasActiveAdmin)
    (inTime : Along AccountScene.step (Scene.Timely AccountView.TakesInTime)
      (Scene.initial accountObserver store) labels)
    (reaches : run AccountScene.step (Scene.initial accountObserver store) labels = some final) :
    final.store.HasActiveAdmin :=
  invariant_of_timely respectful_handleAccount Store.hasActiveAdmin_performAccount hasAdmin inTime
    reaches

variable (userId : String)

def accountRow (role : Role) : UserRow where
  userId
  username := userId
  email := none
  role
  isActive := true
  lastLoginAt := none
  tokenGeneration := 0

def threeAccounts : Store :=
  { Store.empty with
    users :=
      { rows := [accountRow "ann" .admin,accountRow "bea" .admin,accountRow "cal" .viewer]
        keysUnique := by decide } }

def assignRole (role : Role) : AccountRequest :=
  .update (callerOf "ann" .admin) userId { email := none, role := some role, isActive := none }

def steps (slot count : Nat) : List (Label AccountRequest) :=
  List.replicate count (.act slot 0 false)

/-- Two demotions in turn: the second is refused. -/
def demotionsInTurn : List (Label AccountRequest) :=
  .start 0 (assignRole "ann" .viewer) :: steps 0 4 ++
    .start 0 (assignRole "bea" .viewer) :: steps 0 3

theorem active_admin_remains_inTurn :
    threeAccounts.HasActiveAdmin ∧
      Along AccountScene.step (Scene.Timely AccountView.TakesInTime)
        (Scene.initial accountObserver threeAccounts) demotionsInTurn ∧
      ∃ final, run AccountScene.step (Scene.initial accountObserver threeAccounts)
        demotionsInTurn = some final ∧ final.store.HasActiveAdmin := by
  have hasAdmin : threeAccounts.HasActiveAdmin := by decide
  have inTime : Along AccountScene.step (Scene.Timely AccountView.TakesInTime)
      (Scene.initial accountObserver threeAccounts) demotionsInTurn := by decide
  exact ⟨hasAdmin,inTime,_,rfl,active_admin_remains hasAdmin inTime rfl⟩

/-- Both demotions count two administrators before either writes. -/
def demotionsAtOnce : List (Label AccountRequest) :=
  .start 0 (assignRole "ann" .viewer) :: .start 1 (assignRole "bea" .viewer) ::
    (steps 0 2 ++ steps 1 2 ++ steps 0 2 ++ steps 1 2)

/-- A self-update writes back a viewer's copy from before the account became the only
administrator. -/
def staleSelfUpdate : List (Label AccountRequest) :=
  .start 0 (.updateMe (callerOf "cal" .viewer) { email := some "cal@example.org" }) ::
    steps 0 1 ++
    .start 1 (assignRole "cal" .admin) :: steps 1 3 ++
    .start 1 (assignRole "ann" .viewer) :: steps 1 4 ++
    .start 1 (.delete (callerOf "ann" .admin) "bea") :: steps 1 4 ++
    steps 0 2

/-- Two demotions at once leave no administrator, and so does an update of a stale row. -/
theorem no_admin_left :
    threeAccounts.HasActiveAdmin ∧
      (∃ final, run AccountScene.step (Scene.initial accountObserver threeAccounts)
        demotionsAtOnce = some final ∧ ¬final.store.HasActiveAdmin) ∧
      ∃ final, run AccountScene.step (Scene.initial accountObserver threeAccounts)
        staleSelfUpdate = some final ∧ ¬final.store.HasActiveAdmin := by
  refine ⟨by decide,⟨_,rfl,by decide⟩,_,rfl,by decide⟩

end Croniq.Auth
