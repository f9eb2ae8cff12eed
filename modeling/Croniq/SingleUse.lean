import Croniq.CredentialLedger

/-!
# Credentials that are used once

The requests of the public endpoints are in flight together, and their calls to
the store interleave freely.
-/

namespace Croniq.Auth

open CallPrograms Hold KeyedTables LabelledRuns List Option Redeemable

def StoreCall.isNeutral : StoreCall → Bool
  | .validateRefreshToken _ => false
  | .revokeRefreshToken _ _ => false
  | .recoveryCodesFindUnused _ _ => false
  | .recoveryCodesMarkUsed _ _ => false
  | .passwordResetsGetByTokenHash _ => false
  | .passwordResetsInvalidateForUser _ _ => false
  | .invitationsClaim _ _ => false
  | _ => true

theorem effect_of_neutral {what : StoreCall} (neutral : what.isNeutral = true)
    (credential : Redeemable) (answer : what.Answer) :
    effect credential what answer = .nothing := by
  cases credential <;> cases what <;> first | rfl | cases neutral

/-! What the calls of each flow mean for a credential. -/

section

variable (credential : Redeemable)
include credential

theorem effect_findUnused (userId codeHash : String) (row : RecoveryCode) :
    effect credential (.recoveryCodesFindUnused userId codeHash) (some row) =
      if credential = .recoveryCode row.codeId then .sees else .nothing := by
  cases credential <;> simp [effect,eq_comm]

theorem effect_markUsed (codeId : String) (instant : Int)
    (answer : StoreCall.Answer (.recoveryCodesMarkUsed codeId instant)) :
    effect credential (.recoveryCodesMarkUsed codeId instant) answer =
      if credential = .recoveryCode codeId then .spends else .nothing := by
  cases credential <;> simp [effect,eq_comm]

variable (tokenHash : String)

theorem effect_validate_none :
    effect credential (.validateRefreshToken tokenHash) none = .nothing := by
  cases credential <;> simp [effect]

theorem effect_validate (row : RefreshToken) :
    effect credential (.validateRefreshToken tokenHash) (some row) =
      if credential = .refreshToken tokenHash then .sees else .nothing := by
  cases credential <;> simp [effect,eq_comm]

theorem effect_revoke (now : Int) (answer : StoreCall.Answer (.revokeRefreshToken tokenHash now)) :
    effect credential (.revokeRefreshToken tokenHash now) answer =
      if credential = .refreshToken tokenHash then .spends else .nothing := by
  cases credential <;> simp [effect,eq_comm]

theorem effect_getReset (row : PasswordReset) :
    effect credential (.passwordResetsGetByTokenHash tokenHash) (some row) =
      if credential = .passwordReset row.resetId row.userId ∧ row.usedAt = none then .sees
      else .nothing := by
  cases credential with
  | passwordReset resetId userId =>
    simp only [effect,any_some,decide_eq_true_eq,passwordReset.injEq,and_assoc]
    refine if_congr ⟨?_,?_⟩ rfl rfl
    · rintro ⟨rfl,rfl,unused⟩
      exact ⟨rfl,rfl,unused⟩
    · rintro ⟨rfl,rfl,unused⟩
      exact ⟨rfl,rfl,unused⟩
  | _ => simp [effect]

theorem effect_claim (invitationId : String) (instant : Int) :
    effect credential (.invitationsClaim invitationId instant) true =
      if credential = .invitation invitationId then .claims else .nothing := by
  cases credential <;> simp [effect,eq_comm]

end

section Fairness

variable {credential : Redeemable} {hold : Hold}

abbrev Fair (credential : Redeemable) (hold : Hold) (handler : Handler) : Prop :=
  handler.Fair Store.perform ledger credential hold

variable {what : StoreCall} {next : Int → Option what.Answer → Handler} {other : Redeemable}
  {rest : Handler} {presented : String}

theorem fair_call_effect (answered : ∀ now store, Fair credential
      (hold.after (effect credential what (Store.perform store what).1))
      (next now (some (Store.perform store what).1)))
    (failed : ∀ now, hold = .free ∨ vital credential what = false →
      Fair credential hold (next now none)) : Fair credential hold (.call what next) :=
  fun now => ⟨answered now,failed now⟩

theorem fair_call (neutral : what.isNeutral = true)
    (goesOn : ∀ now answer, Fair credential hold (next now answer)) :
    Fair credential hold (.call what next) := by
  refine fair_call_effect (fun now store => ?_) fun now _ => goesOn now none
  rw [effect_of_neutral neutral,after_nothing]
  exact goesOn now _

theorem fair_redeem (same : other = credential →
      (hold = .seen ∨ hold = .cleared) ∧ Fair credential hold.redeemed rest)
    (different : other ≠ credential → Fair credential hold rest) :
    Fair credential hold (.redeem other rest) := by
  unfold Fair Program.Fair
  split
  · exact same ‹_›
  · exact different ‹_›

theorem settled (response : Response) : Fair credential .free (.done response) :=
  noConfusion

/-- The request may redeem the other credential and owes nothing. -/
def Ready (credential : Redeemable) (hold : Hold) (other : Option Redeemable) : Prop :=
  hold ≠ .owing ∧ (other = some credential → hold = .cleared)

theorem Ready.fair_redeem (ready : Ready credential hold (some other)) (response : Response) :
    Fair credential hold (.redeem other (.done response)) := by
  refine Auth.fair_redeem (fun same => ?_) fun _ => ready.1
  rw [ready.2 (congrArg some same)]
  exact ⟨.inr rfl,noConfusion⟩

variable (state : ServerState)

theorem fair_mintUserTokens (user : User) {recoveryCode : Option String}
    (ready : Ready credential hold (recoveryCode.map .recoveryCode)) (freshToken : String) :
    Fair credential hold (mintUserTokens state .password user recoveryCode freshToken) := by
  apply fair_call rfl
  intro now generation
  cases generation with
  | none => exact ready.1
  | some =>
    apply fair_call rfl
    intro _ _
    apply fair_call rfl
    intro _ _
    cases recoveryCode with
    | none => exact ready.1
    | some => exact ready.fair_redeem _

variable (stored : PasswordCredential)

theorem fair_countFailedAttempt (goesOn : Fair credential hold rest) :
    Fair credential hold (countFailedAttempt stored rest) := by
  apply fair_call rfl
  intro _ _
  apply fair_call rfl
  intro _ _
  exact goesOn

theorem fair_clearFailedAttempts (goesOn : Fair credential hold rest) :
    Fair credential hold (clearFailedAttempts stored rest) := by
  apply fair_call rfl
  intro _ found
  dsimp only
  split
  · apply fair_call rfl
    intro _ _
    exact goesOn
  · exact goesOn

theorem fair_verifySecondFactor (userId : String) (code : Option CodeCheck)
    (recoveryCode : Option String) {refused : Status → Handler} {passed : Option String → Handler}
    (fairRefused : ∀ hold, hold ≠ .owing → ∀ refusal, Fair credential hold (refused refusal))
    (fairPassed : ∀ hold usedCode, Ready credential hold (usedCode.map .recoveryCode) →
      Fair credential hold (passed usedCode)) :
    Fair credential .free (verifySecondFactor userId code recoveryCode refused passed) := by
  have refusedFree := fairRefused .free noConfusion
  unfold verifySecondFactor
  split
  · exact fairPassed .free none ⟨noConfusion,by simp⟩
  · exact refusedFree _
  · exact refusedFree _
  · rename_i codeHash
    refine fair_call_effect (fun now store => ?_) fun _ _ => refusedFree _
    generalize (store.perform (.recoveryCodesFindUnused userId codeHash)).1 = found
    cases found with
    | none => cases credential <;> exact refusedFree _
    | some row =>
      rw [effect_findUnused]
      refine fair_call_effect (fun _ _ => ?_) fun _ _ => fairRefused _ ?_ _
      · rw [effect_markUsed]
        apply fairPassed
        by_cases isCode : credential = .recoveryCode row.codeId
        · simp [Ready,isCode,Hold.after]
        · simp [Ready,isCode,Hold.after,Ne.symm isCode]
      · split <;> exact noConfusion
  · exact refusedFree _

theorem fair_handleLogin (request : LoginRequest) :
    Fair credential .free (handleLogin state request) := by
  unfold handleLogin
  split
  · exact settled _
  split
  · exact settled _
  apply fair_call rfl
  intro now found
  split
  · exact settled _
  · exact settled _
  rename_i stored
  split
  · exact settled _
  split
  · exact settled _
  · exact fair_countFailedAttempt stored (settled _)
  apply fair_call rfl
  intro _ user
  split
  · exact settled _
  · exact settled _
  rename_i user
  split
  · exact settled _
  apply fair_call rfl
  intro _ secret
  split
  · exact settled _
  split
  · split
    · exact settled _
    · apply fair_verifySecondFactor
      · intro hold notOwing refusal
        split
        · exact fair_countFailedAttempt stored notOwing
        · exact notOwing
      · intro hold usedCode ready
        exact fair_clearFailedAttempts stored (fair_mintUserTokens state user ready _)
  · split
    · exact fair_clearFailedAttempts stored (settled _)
    · exact fair_clearFailedAttempts stored
        (fair_mintUserTokens state user ⟨noConfusion,by simp⟩ _)

theorem fair_handleTotpLogin (request : TotpLoginRequest) :
    Fair credential .free (handleTotpLogin state request) := by
  unfold handleTotpLogin
  split
  · exact settled _
  split
  · exact settled _
  split
  · exact settled _
  apply fair_call rfl
  intro _ user
  split
  · exact settled _
  · exact settled _
  rename_i user
  split
  · exact settled _
  apply fair_call rfl
  intro now stored
  split
  · exact settled _
  rename_i stored
  split
  · exact settled _
  apply fair_call rfl
  intro _ secret
  split
  · exact settled _
  · exact settled _
  split
  · exact settled _
  apply fair_verifySecondFactor
  · intro hold notOwing refusal
    cases stored with
    | none => exact notOwing
    | some stored =>
      dsimp only
      split
      · exact fair_countFailedAttempt stored notOwing
      · exact notOwing
  · intro hold usedCode ready
    cases stored with
    | none => exact fair_mintUserTokens state user ready _
    | some stored => exact fair_clearFailedAttempts stored (fair_mintUserTokens state user ready _)

theorem fair_rotate (token : RefreshToken)
    (ready : Ready credential hold (some (.refreshToken presented))) (callerType : CallerType)
    (userId : Option String) (role : Option Role) (authMethod : AuthMethod)
    (scopes : List String) (generation : Option Nat) (freshToken : String) (now : Int) :
    Fair credential hold (rotate state presented token callerType userId role authMethod scopes
      generation freshToken now) := by
  apply fair_call rfl
  intro _ _
  exact ready.fair_redeem _

theorem fair_exchange (token : RefreshToken)
    (ready : Ready credential hold (some (.refreshToken presented))) (freshToken : String) :
    Fair credential hold (exchange state presented token freshToken) := by
  unfold exchange
  split
  · apply fair_call rfl
    intro _ user
    split
    · exact ready.1
    · exact ready.1
    split
    · exact ready.1
    apply fair_call rfl
    intro now generation
    split
    · exact ready.1
    · exact fair_rotate state token ready _ _ _ _ _ _ _ _
  · apply fair_call rfl
    intro now client
    split
    · exact ready.1
    · exact ready.1
    split
    · exact ready.1
    · exact fair_rotate state token ready _ _ _ _ _ _ _ _

theorem fair_handleRefresh (tokenHash freshToken : String) :
    Fair credential .free (handleRefresh state tokenHash freshToken) := by
  refine fair_call_effect (fun now store => ?_) fun _ _ => settled _
  generalize (store.perform (.validateRefreshToken tokenHash)).1 = found
  cases found with
  | none =>
    rw [effect_validate_none]
    apply fair_call rfl
    intro now row
    split
    · exact settled _
    · exact settled _
    split
    · unfold endSessionsAfterReuse
      split
      · apply fair_call rfl
        intro _ _
        apply fair_call rfl
        intro _ _
        exact settled _
      · exact settled _
    · exact settled _
  | some token =>
    rw [effect_validate]
    change Fair credential _ (if token.expiresAt < now then _ else _)
    by_cases isToken : credential = .refreshToken tokenHash
    · subst isToken
      rw [if_pos rfl]
      split
      · exact noConfusion
      -- The exchange goes on when the token was not revoked, so that write is vital.
      refine fair_call_effect (fun _ _ => ?_) fun _ survives => ?_
      · rw [effect_revoke,if_pos rfl]
        exact fair_exchange state token ⟨noConfusion,fun _ => rfl⟩ freshToken
      · simp [Hold.after,vital] at survives
    · rw [if_neg isToken]
      have ready : Ready credential .free (some (.refreshToken tokenHash)) :=
        ⟨noConfusion,fun same => absurd (some.inj same).symm isToken⟩
      split
      · exact noConfusion
      refine fair_call_effect (fun _ _ => ?_)
        fun _ _ => fair_exchange state token ready freshToken
      rw [effect_revoke,if_neg isToken]
      exact fair_exchange state token ready freshToken

theorem fair_handleLogout (now : Int) (tokenHashes : List String) :
    Fair credential .free (handleLogout now tokenHashes) := by
  induction tokenHashes with
  | nil => exact noConfusion
  | cons tokenHash rest ih =>
    refine fair_call_effect (fun _ _ => ?_) fun _ _ => ih
    rw [effect_revoke]
    split <;> exact ih

theorem after_invalidate (credential : Redeemable) (userId : String) (instant : Int)
    (answer : StoreCall.Answer (.passwordResetsInvalidateForUser userId instant)) :
    after .free (effect credential (.passwordResetsInvalidateForUser userId instant) answer) =
      .free := by
  cases credential with
  | passwordReset =>
    simp only [effect]
    split <;> rfl
  | _ => rfl

theorem fair_handleRequest (request : ResetRequest) :
    Fair credential .free (handleRequest state request) := by
  unfold handleRequest
  split
  · exact settled _
  split
  · exact settled _
  apply fair_call rfl
  intro now found
  split
  · exact settled _
  split
  · exact settled _
  refine fair_call_effect (fun _ _ => ?_) fun _ _ => settled _
  rw [after_invalidate]
  apply fair_call rfl
  intro _ created
  split <;> exact settled _

theorem fair_setPassword (reset : PasswordReset) {user : User}
    (owner : user.userId = reset.userId) (stored : PasswordCredential) (newPassword : String)
    (hasSeen : credential = .passwordReset reset.resetId reset.userId → hold = .seen)
    (isFree : credential ≠ .passwordReset reset.resetId reset.userId → hold = .free) :
    Fair credential hold (setPassword state reset user stored newPassword) := by
  have settled : ∀ response, Fair credential hold (.done response) := by
    intro response
    by_cases isReset : credential = .passwordReset reset.resetId reset.userId
    · rw [hasSeen isReset]
      exact noConfusion
    · rw [isFree isReset]
      exact noConfusion
  apply fair_call rfl
  intro now written
  match written with
  | none => exact settled _
  | some false => exact settled _
  | some true =>
    apply fair_redeem
    · intro isReset
      subst isReset
      rw [hasSeen rfl]
      refine ⟨.inl rfl,?_⟩
      refine fair_call_effect (fun now store => ?_) fun _ survives => ?_
      · rw [effect_of_neutral rfl,after_nothing]
        refine fair_call_effect (fun _ _ => ?_) fun _ survives => ?_
        · simp [effect,owner,Hold.redeemed,Hold.after,Fair,Program.Fair]
        · simp [vital,owner,redeemed] at survives
      · simp [vital,owner,redeemed] at survives
    · intro otherReset
      rw [isFree (Ne.symm otherReset)]
      apply fair_call rfl
      intro _ bumped
      cases bumped with
      | none => exact noConfusion
      | some =>
        refine fair_call_effect (fun _ _ => ?_) fun _ _ => noConfusion
        rw [after_invalidate]
        exact noConfusion

theorem fair_handleConfirm (tokenHash newPassword : String) :
    Fair credential .free (handleConfirm state tokenHash newPassword) := by
  unfold handleConfirm
  split
  · exact settled _
  split
  · exact settled _
  refine fair_call_effect (fun now store => ?_) fun _ _ => settled _
  generalize (store.perform (.passwordResetsGetByTokenHash tokenHash)).1 = found
  cases found with
  | none => cases credential <;> exact settled _
  | some reset =>
    rw [effect_getReset]
    generalize reached : after .free _ = hold
    have hasSeen : reset.usedAt = none →
        credential = .passwordReset reset.resetId reset.userId → hold = .seen := by
      intro unused isReset
      rw [← reached,if_pos ⟨isReset,unused⟩]
      rfl
    have isFree : credential ≠ .passwordReset reset.resetId reset.userId → hold = .free := by
      intro otherReset
      rw [← reached,if_neg fun both => otherReset both.1]
      rfl
    have notOwing : ∀ response, Fair credential hold (.done response) := by
      intro response
      rw [← reached]
      split <;> exact noConfusion
    change Fair credential hold (if reset.usedAt.isSome then _ else _)
    split
    · exact notOwing _
    rename_i unused
    rw [Bool.not_eq_true,isSome_eq_false_iff,isNone_iff_eq_none] at unused
    split
    · exact notOwing _
    refine fair_call_effect (fun _ store => ?_) fun _ _ => notOwing _
    rw [effect_of_neutral rfl,after_nothing]
    generalize found : (store.perform (.usersGetById reset.userId)).1 = answer
    cases answer with
    | none => exact notOwing _
    | some user =>
      change Fair credential hold (if !user.isActive then _ else _)
      split
      · exact notOwing _
      apply fair_call rfl
      intro _ stored
      split
      · exact notOwing _
      · exact fair_setPassword state reset (Store.userId_of_getById found) _ _
          (hasSeen unused) isFree

variable (request : AcceptInvitationRequest)

theorem fair_createAccount (invitation : Invitation)
    (ready : Ready credential hold (some (.invitation invitation.invitationId))) :
    Fair credential hold (createAccount state request invitation) := by
  apply fair_call rfl
  intro _ created
  match created with
  | none => exact ready.1
  | some false => exact ready.1
  | some true =>
    apply fair_redeem
    · intro same
      rw [ready.2 (by rw [same])]
      refine ⟨.inr rfl,?_⟩
      apply fair_call rfl
      intro _ stored
      split <;> exact noConfusion
    · intro _
      apply fair_call rfl
      intro _ stored
      split <;> exact ready.1

theorem fair_handleAccept : Fair credential .free (handleAccept state request) := by
  unfold handleAccept
  split
  · exact settled _
  apply fair_call rfl
  intro now found
  split
  · exact settled _
  rename_i invitation _
  split
  · exact settled _
  split
  · exact settled _
  apply fair_call rfl
  intro now taken
  split
  · exact settled _
  refine fair_call_effect (fun _ store => ?_) fun _ _ => settled _
  generalize (store.perform (.invitationsClaim invitation.invitationId now)).1 = claimed
  cases claimed with
  | false => cases credential <;> exact settled _
  | true =>
    rw [effect_claim]
    apply fair_createAccount
    by_cases isInvitation : credential = .invitation invitation.invitationId
    · simp [Ready,isInvitation,Hold.after]
    · simp [Ready,isInvitation,Hold.after,Ne.symm isInvitation]

theorem fair_handle (request : Request) : Fair credential .free (handle state request) := by
  cases request with
  | login request => exact fair_handleLogin state request
  | totpLogin request => exact fair_handleTotpLogin state request
  | refresh tokenHash freshToken => exact fair_handleRefresh state tokenHash freshToken
  | logout now tokenHashes => exact fair_handleLogout now tokenHashes
  | requestReset request => exact fair_handleRequest state request
  | confirmReset tokenHash newPassword => exact fair_handleConfirm state tokenHash newPassword
  | acceptInvitation request => exact fair_handleAccept state request

end Fairness

abbrev RequestWorld : Type :=
  World Store StoreCall StoreCall.Answer Redeemable Response

abbrev RequestWorld.step (state : ServerState) :
    RequestWorld → Label Request → Option RequestWorld :=
  World.step (publicService state) ledger

/-- Nobody looks at the credential between another's look at it and the write that marks it, which
does not fail. -/
def Exclusive (state : ServerState) (store : Store) (labels : List (Label Request))
    (credential : Redeemable) : Prop :=
  Along (RequestWorld.step state) (World.Orderly (publicService state) ledger credential)
    (World.initial store) labels

def Redeemable.isReset (resetId : String) : Redeemable → Bool
  | .passwordReset redeemed _ => redeemed = resetId
  | _ => false

section

variable {state : ServerState} {store : Store} {labels : List (Label Request)}
  {final : RequestWorld}
  (reaches : run (RequestWorld.step state) (World.initial store) labels = some final)
include reaches

theorem sound_of_exclusive {credential : Redeemable}
    (exclusive : Exclusive state store labels credential) :
    World.Sound (publicService state) ledger credential final :=
  redeemed_at_most_once (ledger_lawful credential) (fair_handle state) exclusive reaches

/-- A link belongs to one account, so its redemptions are those for it. -/
theorem resets_at_most_once {resetId : String}
    (exclusive : ∀ userId, Exclusive state store labels (.passwordReset resetId userId)) :
    final.redeemed.countP (isReset resetId) ≤ 1 := by
  have sound := fun userId => sound_of_exclusive reaches (exclusive userId)
  by_cases redeemed : ∃ userId, passwordReset resetId userId ∈ final.redeemed
  · obtain ⟨userId,isRedeemed⟩ := redeemed
    have sameOwner : ∀ owner, passwordReset resetId owner ∈ final.redeemed → owner = userId := by
      intro owner alsoRedeemed
      obtain ⟨row,found,rfl⟩ := (sound userId).books.recorded
        (count_pos_iff.mpr isRedeemed).ne'
      obtain ⟨other,otherFound,rfl⟩ := (sound owner).books.recorded
        (count_pos_iff.mpr alsoRedeemed).ne'
      rw [found] at otherFound
      cases otherFound
      rfl
    calc
      final.redeemed.countP (isReset resetId) =
          final.redeemed.count (.passwordReset resetId userId) := by
        apply countP_congr
        intro credential isCredential
        cases credential with
        | passwordReset other owner =>
          simp only [isReset,decide_eq_true_eq,beq_iff_eq,passwordReset.injEq]
          constructor
          · rintro rfl
            exact ⟨rfl,sameOwner owner isCredential⟩
          · exact And.left
        | _ => simp [isReset]
      _ ≤ 1 := (sound userId).books.once
  · have none : final.redeemed.countP (isReset resetId) = 0 := by
      rw [countP_eq_zero]
      intro credential isCredential isReset
      cases credential with
      | passwordReset other owner =>
        have sameReset : other = resetId := of_decide_eq_true isReset
        subst sameReset
        exact redeemed ⟨owner,isCredential⟩
      | _ => cases isReset
    omega

omit reaches in
/-- However the requests interleave, an invitation creates at most one account; and a refresh
token, a recovery code and a reset link are used at most once, as long as requests exclude each
other between the look at one and the write that marks it. -/
theorem credentials_used_once
    (reaches : run (RequestWorld.step state) (World.initial store) labels = some final) :
    (∀ invitationId, final.redeemed.count (.invitation invitationId) ≤ 1) ∧
    (∀ tokenHash, Exclusive state store labels (.refreshToken tokenHash) →
      final.redeemed.count (.refreshToken tokenHash) ≤ 1) ∧
    (∀ codeId, Exclusive state store labels (.recoveryCode codeId) →
      final.redeemed.count (.recoveryCode codeId) ≤ 1) ∧
    ∀ resetId, (∀ userId, Exclusive state store labels (.passwordReset resetId userId)) →
      final.redeemed.countP (isReset resetId) ≤ 1 := by
  refine ⟨?_,?_,?_,?_⟩
  · intro invitationId
    have exclusive : Exclusive state store labels (.invitation invitationId) := by
      apply along_of_forall_mem
      intro label _ world
      exact World.orderly_of_direct (direct_invitation invitationId) (fun _ => rfl) world label
    exact (sound_of_exclusive reaches exclusive).books.once
  · intro tokenHash exclusive
    exact (sound_of_exclusive reaches exclusive).books.once
  · intro codeId exclusive
    exact (sound_of_exclusive reaches exclusive).books.once
  · intro resetId exclusive
    exact resets_at_most_once reaches exclusive

end

def labelledHasher : Hasher where
  hash password := "$argon2id$" ++ password
  verify password hash :=
    if hash.toList.take 10 = "$argon2id$".toList then some (hash = "$argon2id$" ++ password)
    else none

def plainServer : ServerState where
  passwordLoginEnabled := true
  requireTotp := false
  jwtConfig := { accessTtlSecs := 3600, refreshTtlSecs := 604800, leewaySecs := 60 }
  hasher := labelledHasher

/-- An account with a session, a second factor and a reset link. -/
def oneAccount : Store where
  users := .single _
    { userId := "u1", username := "alex", email := none, role := .viewer, isActive := true
      lastLoginAt := none, tokenGeneration := 0 }
  credentials := .single _
    { userId := "u1", username := "alex", passwordHash := "$argon2id$old password"
      failedAttempts := 0
      lockedUntil := none }
  refreshTokens := .single _
    { tokenHash := "session", clientId := "u1", userId := some "u1", expiresAt := 1000
      revokedAt := none }
  totpSecrets := .single _ { userId := "u1", enabled := true }
  recoveryCodes := .single _ { codeId := "c1", userId := "u1", codeHash := "code", usedAt := none }
  passwordResets := .single _
    { resetId := "r1", userId := "u1", tokenHash := "link", expiresAt := 1000, usedAt := none }
  invitations := .empty _
  clients := .empty _
  apiKeys := .empty _
  tokens := .empty _

/-- A request handled to its end, with enough steps. -/
def oneRequest (request : Request) (steps : Nat) : List (Label Request) :=
  .start 0 request :: replicate steps (.act 0 5 false)

/-- A token that is presented twice in a row is exchanged once. -/
theorem credentials_used_once_session :
    (∃ final, run (RequestWorld.step plainServer) (World.initial oneAccount)
        (oneRequest (.refresh "session" "next") 7 ++ oneRequest (.refresh "session" "more") 3) =
          some final ∧
      final.redeemed.count (.refreshToken "session") ≤ 1) ∧
    Exclusive plainServer oneAccount
      (oneRequest (.refresh "session" "next") 7 ++ oneRequest (.refresh "session" "more") 3)
      (.refreshToken "session") := by
  have exclusive : Exclusive plainServer oneAccount
      (oneRequest (.refresh "session" "next") 7 ++ oneRequest (.refresh "session" "more") 3)
      (.refreshToken "session") := by
    apply World.along_orderly_of_alone 0
    simp [oneRequest,Label.isAlone]
  exact ⟨⟨_,rfl,(credentials_used_once rfl).2.1 "session" exclusive⟩,exclusive⟩

/-- Two requests that look before either marks. -/
def overlapping (first second : Request) (before after : Nat) : List (Label Request) :=
  .start 0 first :: .start 1 second ::
    (replicate before (.act 0 5 false) ++ replicate before (.act 1 5 false) ++
      replicate after (.act 0 5 false) ++ replicate after (.act 1 5 false))

def recoveryLogin (freshToken : String) : Request :=
  .login
    { throttled := false, username := "alex", password := "old password", code := none
      recoveryCode := some "code", freshToken }

/-- Overlapping requests exchange one refresh token twice, sign in twice with one code, and set
two passwords with one link. -/
theorem overlapping_redemptions : ((run (RequestWorld.step plainServer) (World.initial oneAccount)
        (overlapping (.refresh "session" "one") (.refresh "session" "two") 1 5)).map
          (·.redeemed.count (.refreshToken "session")) = some 2) ∧
    ((run (RequestWorld.step plainServer) (World.initial oneAccount)
        (overlapping (recoveryLogin "one") (recoveryLogin "two") 4 6)).map
          (·.redeemed.count (.recoveryCode "c1")) = some 2) ∧
    ((run (RequestWorld.step plainServer) (World.initial oneAccount)
        (overlapping (.confirmReset "link" "password one") (.confirmReset "link" "password two")
          1 4)).map (·.redeemed.countP (isReset "r1")) = some 2) := by
  decide

end Croniq.Auth
