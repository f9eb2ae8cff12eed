import Croniq.SignIn

/-!
# The ledger of the credentials that are used once

A refresh token is exchanged for a pair of tokens, a recovery code completes a
sign-in, a reset link sets a password and an invitation creates an account.
-/

namespace Croniq.Auth

open CallPrograms KeyedTables LabelledRuns Table

inductive Request
  | login (request : LoginRequest)
  | totpLogin (request : TotpLoginRequest)
  | refresh (tokenHash freshToken : String)
  | logout (now : Int) (tokenHashes : List String)
  | requestReset (request : ResetRequest)
  | confirmReset (tokenHash newPassword : String)
  | acceptInvitation (request : AcceptInvitationRequest)

def handle (state : ServerState) : Request → Handler
  | .login request => handleLogin state request
  | .totpLogin request => handleTotpLogin state request
  | .refresh tokenHash freshToken => handleRefresh state tokenHash freshToken
  | .logout now tokenHashes => handleLogout now tokenHashes
  | .requestReset request => handleRequest state request
  | .confirmReset tokenHash newPassword => handleConfirm state tokenHash newPassword
  | .acceptInvitation request => handleAccept state request

def publicService (state : ServerState) :
    Service Store Request StoreCall StoreCall.Answer Redeemable Response where
  handle := handle state
  perform := Store.perform

def effect : Redeemable → (what : StoreCall) → what.Answer → Effect
  | .refreshToken tokenHash, .validateRefreshToken presented, found =>
    if presented = tokenHash ∧ Option.isSome found then .sees else .nothing
  | .refreshToken tokenHash, .revokeRefreshToken presented _, _ =>
    if presented = tokenHash then .spends else .nothing
  | .recoveryCode codeId, .recoveryCodesFindUnused _ _, found =>
    if Option.any (·.codeId = codeId) found then .sees else .nothing
  | .recoveryCode codeId, .recoveryCodesMarkUsed used _, _ =>
    if used = codeId then .spends else .nothing
  | .passwordReset resetId userId, .passwordResetsGetByTokenHash _, found =>
    if Option.any (fun row : PasswordReset =>
        row.resetId = resetId ∧ row.userId = userId ∧ row.usedAt = none) found then .sees
    else .nothing
  | .passwordReset _ userId, .passwordResetsInvalidateForUser owner _, _ =>
    if owner = userId then .spends else .nothing
  | .invitation invitationId, .invitationsClaim claimed _, true =>
    if claimed = invitationId then .claims else .nothing
  | _, _, _ => .nothing

/-- An exchange goes on when the old token was not revoked, and a reset has set the password by
then. -/
def vital : Redeemable → StoreCall → Bool
  | .refreshToken tokenHash, .revokeRefreshToken presented _ => presented = tokenHash
  | .passwordReset _ userId, .usersBumpTokenGeneration owner => owner = userId
  | .passwordReset _ userId, .passwordResetsInvalidateForUser owner _ => owner = userId
  | _, _ => false

def Known (store : Store) : Redeemable → Prop
  | .refreshToken tokenHash => ∃ row, store.refreshTokens.find? tokenHash = some row
  | .recoveryCode codeId => ∃ row, store.recoveryCodes.find? codeId = some row
  | .passwordReset resetId userId =>
    ∃ row, store.passwordResets.find? resetId = some row ∧ row.userId = userId
  | .invitation invitationId => ∃ row, store.invitations.find? invitationId = some row

def Spent (store : Store) : Redeemable → Prop
  | .refreshToken tokenHash =>
    ∃ row, store.refreshTokens.find? tokenHash = some row ∧ row.revokedAt.isSome = true
  | .recoveryCode codeId =>
    ∃ row, store.recoveryCodes.find? codeId = some row ∧ row.usedAt.isSome = true
  | .passwordReset resetId userId =>
    ∃ row, store.passwordResets.find? resetId = some row ∧ row.userId = userId ∧
      row.usedAt.isSome = true
  | .invitation invitationId =>
    ∃ row, store.invitations.find? invitationId = some row ∧ row.acceptedAt.isSome = true

def ledger : Ledger Store StoreCall StoreCall.Answer Redeemable where
  effect
  vital
  Known
  Spent

/-- What is marked as used stays so, with its owner. Users stay, and their generations do not fall.
-/
structure Store.Keeps (before after : Store) : Prop where
  users : Table.Keeps (fun row later => row.tokenGeneration ≤ later.tokenGeneration)
    before.users after.users
  refreshTokens : Table.Keeps
    (fun row later =>
      (later.userId = row.userId ∧ later.clientId = row.clientId ∧
        later.expiresAt = row.expiresAt) ∧
      (row.revokedAt.isSome = true → later.revokedAt.isSome = true))
    before.refreshTokens after.refreshTokens
  recoveryCodes : Table.Keeps
    (fun row later => row.usedAt.isSome = true → later.usedAt.isSome = true)
    before.recoveryCodes after.recoveryCodes
  passwordResets : Table.Keeps
    (fun row later => later.userId = row.userId ∧
      (row.usedAt.isSome = true → later.usedAt.isSome = true))
    before.passwordResets after.passwordResets
  invitations : Table.Keeps
    (fun row later => row.acceptedAt.isSome = true → later.acceptedAt.isSome = true)
    before.invitations after.invitations

theorem Store.keeps_self (store : Store) : store.Keeps store where
  users := Table.keeps_self _ fun _ => le_rfl
  refreshTokens := Table.keeps_self _ fun _ => ⟨⟨rfl,rfl,rfl⟩,id⟩
  recoveryCodes := Table.keeps_self _ fun _ => id
  passwordResets := Table.keeps_self _ fun _ => ⟨rfl,id⟩
  invitations := Table.keeps_self _ fun _ => id

theorem Store.Keeps.trans {first second third : Store} (earlier : first.Keeps second)
    (later : second.Keeps third) :
    first.Keeps third where
  users := by
    refine earlier.users.trans ?_ later.users
    exact le_trans
  refreshTokens := by
    refine earlier.refreshTokens.trans ?_ later.refreshTokens
    rintro _ _ _ ⟨⟨sameUser,sameClient,sameExpiry⟩,stays⟩
      ⟨⟨sameUser',sameClient',sameExpiry'⟩,stays'⟩
    exact ⟨⟨sameUser'.trans sameUser,sameClient'.trans sameClient,sameExpiry'.trans sameExpiry⟩,
      stays' ∘ stays⟩
  recoveryCodes := by
    refine earlier.recoveryCodes.trans ?_ later.recoveryCodes
    exact fun stays stays' => stays' ∘ stays
  passwordResets := by
    refine earlier.passwordResets.trans ?_ later.passwordResets
    rintro _ _ _ ⟨sameUser,stays⟩ ⟨sameUser',stays'⟩
    exact ⟨sameUser'.trans sameUser,stays' ∘ stays⟩
  invitations := by
    refine earlier.invitations.trans ?_ later.invitations
    exact fun stays stays' => stays' ∘ stays

theorem Store.keeps_perform (store : Store) (what : StoreCall) :
    store.Keeps (store.perform what).2 := by
  have same := store.keeps_self
  cases what with
  | createRefreshToken token =>
    simp only [perform,createRefreshToken,inserted]
    split
    · exact same
    · rename_i extended inserts
      exact { same with
        refreshTokens := keeps_insert _ (fun _ => ⟨⟨rfl,rfl,rfl⟩,id⟩) inserts }
  | revokeRefreshToken tokenHash now | revokeRefreshTokensForUser =>
    refine { same with refreshTokens := ?_ }
    apply keeps_updateWhere
    · exact fun _ => ⟨⟨rfl,rfl,rfl⟩,id⟩
    · exact fun _ => rfl
    · exact fun _ => ⟨⟨rfl,rfl,rfl⟩,fun _ => rfl⟩
  | recoveryCodesMarkUsed =>
    refine { same with recoveryCodes := ?_ }
    apply keeps_updateWhere
    · exact fun _ => id
    · exact fun _ => rfl
    · exact fun _ _ => rfl
  | passwordResetsCreate reset =>
    simp only [perform,passwordResetsCreate,inserted]
    split
    · exact same
    split
    · exact same
    · rename_i extended inserts
      exact { same with
        passwordResets := keeps_insert _ (fun _ => ⟨rfl,id⟩) inserts }
  | passwordResetsInvalidateForUser =>
    refine { same with passwordResets := ?_ }
    apply keeps_updateWhere
    · exact fun _ => ⟨rfl,id⟩
    · exact fun _ => rfl
    · exact fun _ => ⟨rfl,fun _ => rfl⟩
  | invitationsCreate invitation =>
    simp only [perform,invitationsCreate,inserted]
    split
    · exact same
    split
    · exact same
    · rename_i extended inserts
      exact { same with invitations := keeps_insert _ (fun _ => id) inserts }
  | invitationsClaim =>
    refine { same with invitations := ?_ }
    apply keeps_updateWhere
    · exact fun _ => id
    · exact fun _ => rfl
    · exact fun _ _ => rfl
  | usersCreate user =>
    simp only [perform,usersCreate]
    split
    · exact same
    split
    · rename_i extended inserts
      refine { same with users := ?_ }
      apply keeps_insert
      · exact fun _ => le_rfl
      · exact inserts
    · refine { same with users := ?_ }
      apply keeps_updateWhere
      · exact fun _ => le_rfl
      · exact fun _ => rfl
      · exact fun _ => le_rfl
  | usersSetLastLogin userId instant | usersBumpTokenGeneration =>
    refine { same with users := ?_ }
    apply keeps_updateWhere
    · exact fun _ => le_rfl
    · exact fun _ => rfl
    · exact fun _ => by simp
  | _ =>
    simp only [perform,createClient,createApiKey,upsertCredentials,patCreate,inserted]
    repeat' split
    all_goals exact { same with }

theorem Store.keeps_serve (handler : Handler) (now : Int) (store : Store) :
    store.Keeps (handler.serve Store.perform now store).2 :=
  handler.serve_rel Store.Keeps Store.keeps_self Store.Keeps.trans Store.keeps_perform now store

variable {store : Store} {credential : Redeemable} {what : StoreCall}

theorem known_perform (what : StoreCall) (known : Known store credential) :
    Known (store.perform what).2 credential := by
  have keeps := store.keeps_perform what
  cases credential with
  | refreshToken =>
    obtain ⟨row,found⟩ := known
    obtain ⟨later,foundLater,-⟩ := keeps.refreshTokens found
    exact ⟨later,foundLater⟩
  | recoveryCode =>
    obtain ⟨row,found⟩ := known
    obtain ⟨later,foundLater,-⟩ := keeps.recoveryCodes found
    exact ⟨later,foundLater⟩
  | passwordReset =>
    obtain ⟨row,found,owner⟩ := known
    obtain ⟨later,foundLater,sameOwner,-⟩ := keeps.passwordResets found
    exact ⟨later,foundLater,sameOwner.trans owner⟩
  | invitation =>
    obtain ⟨row,found⟩ := known
    obtain ⟨later,foundLater,-⟩ := keeps.invitations found
    exact ⟨later,foundLater⟩

theorem spent_perform (what : StoreCall) (spent : Spent store credential) :
    Spent (store.perform what).2 credential := by
  have keeps := store.keeps_perform what
  cases credential with
  | refreshToken =>
    obtain ⟨row,found,revoked⟩ := spent
    obtain ⟨later,foundLater,-,stays⟩ := keeps.refreshTokens found
    exact ⟨later,foundLater,stays revoked⟩
  | recoveryCode =>
    obtain ⟨row,found,used⟩ := spent
    obtain ⟨later,foundLater,stays⟩ := keeps.recoveryCodes found
    exact ⟨later,foundLater,stays used⟩
  | passwordReset =>
    obtain ⟨row,found,owner,used⟩ := spent
    obtain ⟨later,foundLater,sameOwner,stays⟩ := keeps.passwordResets found
    exact ⟨later,foundLater,sameOwner.trans owner,stays used⟩
  | invitation =>
    obtain ⟨row,found,accepted⟩ := spent
    obtain ⟨later,foundLater,stays⟩ := keeps.invitations found
    exact ⟨later,foundLater,stays accepted⟩

theorem direct_invitation (invitationId : String) : ledger.Direct (.invitation invitationId) := by
  intro what answer sees
  change effect _ _ _ = _ at sees
  cases what <;> simp only [effect,reduceCtorEq] at sees
  case invitationsClaim claimed instant =>
    cases answer <;> simp only [reduceCtorEq] at sees
    split at sees <;> cases sees

theorem Store.claimable_of_won {invitationId : String} {instant : Int}
    (won : (store.invitationsClaim invitationId instant).1 = true) :
    ∃ row, store.invitations.find? invitationId = some row ∧
      isClaimable invitationId row = true := by
  have one : store.invitations.count (isClaimable invitationId) = 1 := of_decide_eq_true won
  have oneKey : ∀ row, isClaimable invitationId row = true → row.invitationId = invitationId := by
    intro row claimable
    exact (of_decide_eq_true claimable).1
  exact (store.invitations.count_pos_iff oneKey).mp (by omega)

theorem effect_spec (store : Store) (credential : Redeemable) (what : StoreCall) :
    match effect credential what (store.perform what).1 with
    | .nothing => True
    | .sees => Known store credential ∧ ¬Spent store credential
    | .claims => Known store credential ∧ ¬Spent store credential ∧ ledger.Direct credential ∧
        Spent (store.perform what).2 credential
    | .spends => Known store credential → Spent (store.perform what).2 credential := by
  generalize answers : (store.perform what).1 = answer
  cases credential with
  | refreshToken tokenHash =>
    cases what
    case validateRefreshToken presented =>
      simp only [effect]
      split_ifs with isFound
      · obtain ⟨rfl,valid⟩ := isFound
        rw [← answers] at valid
        obtain ⟨row,found⟩ := Option.isSome_iff_exists.mp valid
        obtain ⟨stored,live⟩ := Option.filter_eq_some_iff.mp found
        exact ⟨⟨row,stored⟩,by simpa [Spent,stored] using live⟩
      · trivial
    case revokeRefreshToken presented now =>
      simp only [effect]
      split_ifs with isToken
      · rintro ⟨row,found⟩
        subst isToken
        exact ⟨_,find?_updateWhere_of_met _ (by intro; rfl) found
          (decide_eq_true (key_of_find? _ found)),rfl⟩
      · trivial
    all_goals trivial
  | recoveryCode codeId =>
    cases what
    case recoveryCodesFindUnused userId codeHash =>
      simp only [effect]
      split_ifs with isFound
      · obtain ⟨row,rfl,isCode⟩ := (Option.any_eq_true _ _).mp isFound
        have stored : store.recoveryCodes.find? codeId = some row :=
          store.recoveryCodes.find?_eq_some_iff.mpr
            ⟨List.mem_of_find?_eq_some answers,of_decide_eq_true isCode⟩
        have unused := List.find?_some answers
        exact ⟨⟨row,stored⟩,by simp_all [Spent]⟩
      · trivial
    case recoveryCodesMarkUsed used instant =>
      simp only [effect]
      split_ifs with isCode
      · rintro ⟨row,found⟩
        subst isCode
        exact ⟨_,find?_updateWhere_of_met _ (by intro; rfl) found
          (decide_eq_true (key_of_find? _ found)),rfl⟩
      · trivial
    all_goals trivial
  | passwordReset resetId userId =>
    cases what
    case passwordResetsGetByTokenHash tokenHash =>
      simp only [effect]
      split_ifs with isFound
      · obtain ⟨row,rfl,isReset⟩ := (Option.any_eq_true _ _).mp isFound
        obtain ⟨isId,owner,unused⟩ := of_decide_eq_true isReset
        have stored : store.passwordResets.find? resetId = some row :=
          store.passwordResets.find?_eq_some_iff.mpr
            ⟨List.mem_of_find?_eq_some answers,isId⟩
        exact ⟨⟨row,stored,owner⟩,by simp [Spent,stored,unused]⟩
      · trivial
    case passwordResetsInvalidateForUser retired instant =>
      simp only [effect]
      split_ifs with isOwner
      · rintro ⟨row,found,owner⟩
        subst isOwner
        -- A link that was used before stays used at its earlier instant.
        by_cases unused : row.usedAt = none
        · exact ⟨_,find?_updateWhere_of_met _ (by intro; rfl) found
            (by simp [owner,unused]),owner,rfl⟩
        · exact ⟨row,find?_updateWhere_of_not _ (by intro; rfl) found (by simp [unused]),
            owner,Option.isSome_iff_ne_none.mpr unused⟩
      · trivial
    all_goals trivial
  | invitation invitationId =>
    cases what
    case invitationsClaim claimed instant =>
      cases answer
      · trivial
      simp only [effect]
      split_ifs with isClaimed
      · subst isClaimed
        obtain ⟨row,stored,isClaimable⟩ := Store.claimable_of_won answers
        obtain ⟨-,notAccepted,-⟩ := of_decide_eq_true isClaimable
        exact ⟨⟨row,stored⟩,by simp [Spent,stored,notAccepted],direct_invitation claimed,
          _,find?_updateWhere_of_met _ (by intro; rfl) stored isClaimable,rfl⟩
      · trivial
    all_goals trivial

theorem ledger_lawful (credential : Redeemable) : ledger.Lawful Store.perform credential where
  keepsKnown := known_perform _
  keepsSpent := spent_perform _
  sees {store what} sees := by
    have spec := effect_spec store credential what
    rw [show effect _ _ _ = _ from sees] at spec
    exact spec
  claims {store what} claims := by
    have spec := effect_spec store credential what
    rw [show effect _ _ _ = _ from claims] at spec
    exact spec
  spends {store what} spends := by
    have spec := effect_spec store credential what
    rw [show effect _ _ _ = _ from spends] at spec
    exact spec

end Croniq.Auth
