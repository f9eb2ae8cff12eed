import Croniq.LabelledRuns
import Mathlib.Data.List.Count
import Mathlib.Logic.Function.Basic

/-!
# Requests that share a store

A request is a program: it makes one call to a shared store after the other,
each chosen from the answers to the calls before, and ends with a result.
-/

namespace CallPrograms

open Function LabelledRuns

/-- A request: its calls, the credentials it redeems and its result. -/
inductive Program (Call : Type) (Answer : Call → Type) (Credential Result : Type) : Type
  | done (result : Result)
  | redeem (credential : Credential) (rest : Program Call Answer Credential Result)
  | call (what : Call)
      (next : Int → Option (Answer what) → Program Call Answer Credential Result)

/-- A service: the program of each request, and the store the calls go to. -/
structure Service (Store Request Call : Type) (Answer : Call → Type)
    (Credential Result : Type) where
  handle : Request → Program Call Answer Credential Result
  perform : Store → (what : Call) → Answer what × Store

variable {Store Request Call : Type} {Answer : Call → Type} {Credential Result : Type}

/-- A program alone, at one instant and without failures. -/
def Program.serve (perform : Store → (what : Call) → Answer what × Store) (now : Int) :
    Program Call Answer Credential Result → Store → Result × Store
  | .done result, store => (result, store)
  | .redeem _ rest, store => rest.serve perform now store
  | .call what next, store =>
    (next now (some (perform store what).1)).serve perform now (perform store what).2

section

variable (perform : Store → (what : Call) → Answer what × Store) (now : Int)
include perform now

@[simp]
theorem Program.serve_done (result : Result) (store : Store) :
    (Program.done result : Program Call Answer Credential Result).serve perform now store =
      (result, store) :=
  rfl

@[simp]
theorem Program.serve_redeem
    (credential : Credential) (rest : Program Call Answer Credential Result) (store : Store) :
    (Program.redeem credential rest).serve perform now store = rest.serve perform now store :=
  rfl

theorem Program.serve_call
    (what : Call) (next : Int → Option (Answer what) → Program Call Answer Credential Result)
    (store : Store) : (Program.call what next).serve perform now store =
      (next now (some (perform store what).1)).serve perform now (perform store what).2 :=
  rfl

end

theorem Program.serve_rel {perform : Store → (what : Call) → Answer what × Store}
    (relation : Store → Store → Prop) (same : ∀ store, relation store store)
    (chain : ∀ {first second third}, relation first second → relation second third →
      relation first third)
    (performs : ∀ store what, relation store (perform store what).2) (now : Int)
    (program : Program Call Answer Credential Result) (store : Store) :
    relation store (program.serve perform now store).2 := by
  induction program generalizing store with
  | done => exact same store
  | redeem credential rest ih => exact ih store
  | call what next ih => exact chain (performs store what) (ih now _ _)

inductive Effect
  | nothing
  /-- The credential was found unspent. -/
  | sees
  /-- The credential was found unspent and is spent by the same call. -/
  | claims
  /-- The credential is spent, whatever it was. -/
  | spends
  deriving DecidableEq

/-- How far a request has come with a credential. -/
inductive Hold
  | free
  /-- It has seen the credential unspent. -/
  | seen
  /-- It has spent the credential and may redeem it. -/
  | cleared
  /-- It has redeemed the credential and not spent it. -/
  | owing
  deriving DecidableEq

/-- Between a look at the credential and spending it. -/
def Hold.isOpen : Hold → Bool
  | .seen => true
  | .owing => true
  | _ => false

def Hold.after : Hold → Effect → Hold
  | .free, .sees => .seen
  | .free, .claims => .cleared
  | .seen, .spends => .cleared
  | .owing, .spends => .free
  | hold, _ => hold

theorem Hold.after_nothing (hold : Hold) : hold.after .nothing = hold := by
  cases hold <;> rfl

def Hold.redeemed : Hold → Hold
  | .seen => .owing
  | .cleared => .free
  | hold => hold

/-- What the calls mean for the credentials.  A vital call that fails leaves one redeemed and
unspent. -/
structure Ledger (Store Call : Type) (Answer : Call → Type) (Credential : Type) where
  effect : Credential → (what : Call) → Answer what → Effect
  vital : Credential → Call → Bool
  /-- The store has the credential. -/
  Known : Store → Credential → Prop
  Spent : Store → Credential → Prop

/-- A credential is redeemed once seen or claimed, and then spent unless a vital call fails. -/
def Program.Fair [DecidableEq Credential] (perform : Store → (what : Call) → Answer what × Store)
    (ledger : Ledger Store Call Answer Credential) (credential : Credential) :
    Hold → Program Call Answer Credential Result → Prop
  | hold, .done _ => hold ≠ .owing
  | hold, .redeem other rest =>
    if other = credential then
      (hold = .seen ∨ hold = .cleared) ∧ rest.Fair perform ledger credential hold.redeemed
    else rest.Fair perform ledger credential hold
  | hold, .call what next =>
    ∀ now,
      (∀ store, (next now (some (perform store what).1)).Fair perform ledger credential
        (hold.after (ledger.effect credential what (perform store what).1))) ∧
      (hold = .free ∨ ledger.vital credential what = false →
        (next now none).Fair perform ledger credential hold)

/-- The store, the requests in flight with their holds, and the redemptions so far. -/
structure World (Store Call : Type) (Answer : Call → Type) (Credential Result : Type) where
  store : Store
  requests : Nat → Option (Program Call Answer Credential Result)
  holds : Nat → Credential → Hold
  redeemed : List Credential

open World

def World.initial (store : Store) : World Store Call Answer Credential Result where
  store
  requests := fun _ => none
  holds := fun _ _ => .free
  redeemed := []

/-- A request comes in, or the one in the slot makes its next step. -/
inductive Label (Request : Type)
  | start (slot : Nat) (request : Request)
  | act (slot : Nat) (now : Int) (fails : Bool)

section

variable [DecidableEq Credential] (service : Service Store Request Call Answer Credential Result)
  (ledger : Ledger Store Call Answer Credential)

def World.step (world : World Store Call Answer Credential Result) :
    Label Request → Option (World Store Call Answer Credential Result)
  | .start slot request =>
    match world.requests slot with
    | some _ => none
    | none =>
      some { world with
        requests := update world.requests slot (some (service.handle request)) }
  | .act slot now fails =>
    match world.requests slot with
    | none => none
    | some (.done _) =>
      some { world with
        requests := update world.requests slot none
        holds := update world.holds slot fun _ => .free }
    | some (.redeem credential rest) =>
      some { world with
        requests := update world.requests slot (some rest)
        holds := update world.holds slot
          (update (world.holds slot) credential
            (world.holds slot credential).redeemed)
        redeemed := credential :: world.redeemed }
    | some (.call what next) =>
      if fails then
        some { world with
          requests := update world.requests slot (some (next now none)) }
      else
        let performed := service.perform world.store what
        some { world with
          store := performed.2
          requests := update world.requests slot
            (some (next now (some performed.1)))
          holds := update world.holds slot fun credential =>
            (world.holds slot credential).after (ledger.effect credential what performed.1) }

inductive Change (world : World Store Call Answer Credential Result) :
    Label Request → World Store Call Answer Credential Result → Prop
  | started (slot : Nat) (request : Request) (idle : world.requests slot = none) :
      Change world (.start slot request)
        { world with
          requests := update world.requests slot (some (service.handle request)) }
  | finished (slot : Nat) (now : Int) (fails : Bool) (result : Result)
      (runs : world.requests slot = some (.done result)) :
      Change world (.act slot now fails)
        { world with
          requests := update world.requests slot none
          holds := update world.holds slot fun _ => .free }
  | redeemed (slot : Nat) (now : Int) (fails : Bool) (credential : Credential)
      (rest : Program Call Answer Credential Result)
      (runs : world.requests slot = some (.redeem credential rest)) :
      Change world (.act slot now fails)
        { world with
          requests := update world.requests slot (some rest)
          holds := update world.holds slot
            (update (world.holds slot) credential
              (world.holds slot credential).redeemed)
          redeemed := credential :: world.redeemed }
  | failed (slot : Nat) (now : Int) (what : Call)
      (next : Int → Option (Answer what) → Program Call Answer Credential Result)
      (runs : world.requests slot = some (.call what next)) :
      Change world (.act slot now true)
        { world with
          requests := update world.requests slot (some (next now none)) }
  | performed (slot : Nat) (now : Int) (what : Call)
      (next : Int → Option (Answer what) → Program Call Answer Credential Result)
      (runs : world.requests slot = some (.call what next)) :
      Change world (.act slot now false)
        { world with
          store := (service.perform world.store what).2
          requests := update world.requests slot
            (some (next now (some (service.perform world.store what).1)))
          holds := update world.holds slot fun credential =>
            (world.holds slot credential).after
              (ledger.effect credential what (service.perform world.store what).1) }

variable {service ledger}

theorem World.change_of_step {world next : World Store Call Answer Credential Result}
    {label : Label Request} (step : world.step service ledger label = some next) :
    Change service ledger world label next := by
  cases label with
  | start slot request =>
    simp only [World.step] at step
    split at step
    · cases step
    · rename_i idle
      cases step
      exact .started slot request idle
  | act slot now fails =>
    simp only [World.step] at step
    split at step
    · cases step
    · rename_i result runs
      cases step
      exact .finished slot now fails result runs
    · rename_i credential rest runs
      cases step
      exact .redeemed slot now fails credential rest runs
    rename_i what next runs
    cases fails with
    | true =>
      cases step
      exact .failed slot now what next runs
    | false =>
      cases step
      exact .performed slot now what next runs

end

/-- What the requests hold of one credential, whether it is stored and spent, and its redemptions.
-/
structure Books (direct : Prop) (holds : Nat → Hold) (isKnown isSpent : Prop)
    (times : Nat) : Prop where
  known : ∀ slot, holds slot ≠ .free → isKnown
  single : ∀ first second, holds first ≠ .free → holds second ≠ .free → first = second
  cleared : ∀ slot, holds slot = .cleared → isSpent
  /-- A credential that is only ever claimed is never open. -/
  claimed : direct → ∀ slot, (holds slot).isOpen = false
  pending : ∀ slot, holds slot = .seen ∨ holds slot = .cleared → times = 0
  once : times ≤ 1
  unspent : ¬isSpent → (∀ slot, holds slot = .free) → times = 0
  recorded : times ≠ 0 → isKnown

namespace Books

variable {direct isKnown isSpent : Prop} {holds : Nat → Hold} {times : Nat}

theorem initial : Books direct (fun _ => .free) isKnown isSpent 0 := by
  constructor <;> simp [Hold.isOpen]

variable {slot : Nat} {isKnown' isSpent' : Prop} {hold : Hold}

theorem free_of_ne (books : Books direct holds isKnown isSpent times) {other : Nat}
    (held : holds slot ≠ .free) (isOther : other ≠ slot) : holds other = .free := by
  by_contra alsoHeld
  exact isOther (books.single other slot alsoHeld held)

theorem mono (books : Books direct holds isKnown isSpent times)
    (keepsKnown : isKnown → isKnown') (keepsSpent : isSpent → isSpent') :
    Books direct holds isKnown' isSpent' times where
  known slot held := keepsKnown (books.known slot held)
  single := books.single
  cleared slot isCleared := keepsSpent (books.cleared slot isCleared)
  claimed := books.claimed
  pending := books.pending
  once := books.once
  unspent notSpent := books.unspent fun wasSpent => notSpent (keepsSpent wasSpent)
  recorded some := keepsKnown (books.recorded some)

/-- The books are in order if at most one slot has a hold, which is in order. -/
theorem of_others (others : ∀ other, other ≠ slot → holds other = .free)
    (known : hold ≠ .free → isKnown) (cleared : hold = .cleared → isSpent)
    (claimed : direct → hold.isOpen = false)
    (pending : hold = .seen ∨ hold = .cleared → times = 0) (once : times ≤ 1)
    (unspent : ¬isSpent → hold = .free → times = 0) (recorded : times ≠ 0 → isKnown) :
    Books direct (update holds slot hold) isKnown isSpent times := by
  have held : update holds slot hold = fun other => if other = slot then hold else .free := by
    funext other
    by_cases isSlot : other = slot
    · simp [isSlot]
    · simp [isSlot,others other isSlot]
  rw [held]
  refine ⟨?_,?_,?_,?_,?_,once,?_,recorded⟩
  · intro other
    split <;> simp_all
  · intro first second
    split <;> split <;> simp_all
  · intro other
    split <;> simp_all
  · intro isDirect other
    split
    · exact claimed isDirect
    · rfl
  · intro other
    split <;> simp_all
  · exact fun notSpent allFree => unspent notSpent (by simpa using allFree slot)

section

variable (books : Books direct holds isKnown isSpent times)
include books

theorem release (settled : holds slot ≠ .owing) :
    Books direct (update holds slot .free) isKnown isSpent times := by
  by_cases isFree : holds slot = .free
  · rwa [← isFree,update_eq_self]
  -- What the request held and gave up had not been redeemed.
  have none : times = 0 := by
    apply books.pending slot
    cases hold : holds slot <;> simp_all
  exact of_others (fun _ => books.free_of_ne isFree) nofun nofun (fun _ => rfl) nofun books.once
    (fun _ _ => none) books.recorded

theorem redeem (entitled : holds slot = .seen ∨ holds slot = .cleared) :
    Books direct (update holds slot (holds slot).redeemed) isKnown isSpent (times + 1) := by
  have held : holds slot ≠ .free := by
    rintro isFree
    simp [isFree] at entitled
  have none : times = 0 := books.pending slot entitled
  have claimed := fun isDirect => books.claimed isDirect slot
  have cleared := books.cleared slot
  refine of_others (fun _ => books.free_of_ne held) (fun _ => books.known slot held) ?_ ?_ ?_
    (by omega) ?_ fun _ => books.known slot held
  all_goals
    obtain isSeen | isCleared := entitled
    · simp_all [Hold.redeemed,Hold.isOpen]
    · simp_all [Hold.redeemed,Hold.isOpen]

theorem take
    (allFree : ∀ other, holds other = .free) (none : times = 0) (isHere : isKnown)
    (entitled : hold = .seen ∧ ¬direct ∨ hold = .cleared ∧ isSpent) :
    Books direct (update holds slot hold) isKnown isSpent times := by
  refine of_others (fun other _ => allFree other) (fun _ => isHere) ?_ ?_ (fun _ => none)
    books.once (fun _ _ => none) books.recorded
  all_goals
    obtain ⟨rfl,notDirect⟩ | ⟨rfl,spent⟩ := entitled
    · simp_all [Hold.isOpen]
    · simp_all [Hold.isOpen]

theorem spend
    (wasOpen : (holds slot).isOpen = true) (spent : isSpent)
    (entitled : holds slot = .seen ∧ hold = .cleared ∨ hold = .free) :
    Books direct (update holds slot hold) isKnown isSpent times := by
  have held : holds slot ≠ .free := by
    intro isFree
    simp [isFree,Hold.isOpen] at wasOpen
  refine of_others (fun _ => books.free_of_ne held) (fun _ => books.known slot held)
    (fun _ => spent) (fun isDirect => ?_) ?_ books.once (absurd spent) books.recorded
  · simp [books.claimed isDirect slot] at wasOpen
  · obtain ⟨wasSeen,-⟩ | rfl := entitled
    · exact fun _ => books.pending slot (.inl wasSeen)
    · simp

theorem free_of_unspent
    (notSpent : ¬isSpent) (isFree : holds slot = .free)
    (exclusive : ∀ other, other ≠ slot → (holds other).isOpen = false) (other : Nat) :
    holds other = .free := by
  by_cases isSlot : other = slot
  · rw [isSlot,isFree]
  have notOpen := exclusive other isSlot
  cases hold : holds other with
  | free => rfl
  | seen | owing => simp [hold,Hold.isOpen] at notOpen
  | cleared => exact absurd (books.cleared other hold) notSpent

theorem perform {effect : Effect}
    (keepsKnown : isKnown → isKnown') (keepsSpent : isSpent → isSpent')
    (sees : effect = .sees → isKnown ∧ ¬isSpent ∧ ¬direct)
    (claims : effect = .claims → isKnown ∧ ¬isSpent ∧ direct ∧ isSpent')
    (spends : effect = .spends → isKnown → isSpent')
    (exclusive : effect = .sees → ∀ other, other ≠ slot → (holds other).isOpen = false) :
    Books direct (update holds slot ((holds slot).after effect)) isKnown' isSpent' times := by
  have after := books.mono keepsKnown keepsSpent
  cases hold : holds slot with
  | free =>
    cases effect with
    | sees =>
      obtain ⟨isHere,notSpent,notDirect⟩ := sees rfl
      have allFree := books.free_of_unspent notSpent hold (exclusive rfl)
      exact after.take allFree (books.unspent notSpent allFree) (keepsKnown isHere)
        (.inl ⟨rfl,notDirect⟩)
    | claims =>
      obtain ⟨isHere,notSpent,isDirect,spent⟩ := claims rfl
      have allFree := books.free_of_unspent notSpent hold
        fun other _ => books.claimed isDirect other
      exact after.take allFree (books.unspent notSpent allFree) (keepsKnown isHere)
        (.inr ⟨rfl,spent⟩)
    | nothing | spends =>
      simp only [Hold.after,← hold,update_eq_self]
      exact after
  | seen =>
    have isHere := books.known slot (by simp [hold])
    cases effect with
    | spends =>
      exact after.spend (by simp [hold,Hold.isOpen]) (spends rfl isHere)
        (.inl ⟨hold,rfl⟩)
    | _ =>
      simp only [Hold.after,← hold,update_eq_self]
      exact after
  | cleared =>
    simp only [Hold.after,← hold,update_eq_self]
    exact after
  | owing =>
    have isHere := books.known slot (by simp [hold])
    cases effect with
    | spends => exact after.spend (by simp [hold,Hold.isOpen]) (spends rfl isHere) (.inr rfl)
    | _ =>
      simp only [Hold.after,← hold,update_eq_self]
      exact after

end

end Books

/-- No call shows the credential without spending it. -/
def Ledger.Direct (ledger : Ledger Store Call Answer Credential) (credential : Credential) : Prop :=
  ∀ what answer, ledger.effect credential what answer ≠ .sees

structure Ledger.Lawful (ledger : Ledger Store Call Answer Credential)
    (perform : Store → (what : Call) → Answer what × Store) (credential : Credential) : Prop where
  keepsKnown : ∀ {store what}, ledger.Known store credential →
    ledger.Known (perform store what).2 credential
  keepsSpent : ∀ {store what}, ledger.Spent store credential →
    ledger.Spent (perform store what).2 credential
  sees : ∀ {store what}, ledger.effect credential what (perform store what).1 = .sees →
    ledger.Known store credential ∧ ¬ledger.Spent store credential
  claims : ∀ {store what}, ledger.effect credential what (perform store what).1 = .claims →
    ledger.Known store credential ∧ ¬ledger.Spent store credential ∧
      ledger.Direct credential ∧ ledger.Spent (perform store what).2 credential
  spends : ∀ {store what}, ledger.effect credential what (perform store what).1 = .spends →
    ledger.Known store credential → ledger.Spent (perform store what).2 credential

section

variable (service : Service Store Request Call Answer Credential Result)
  (ledger : Ledger Store Call Answer Credential) (credential : Credential)

/-- The request does not look at the credential while another has it open, and its vital calls do
not fail. -/
def World.Orderly (world : World Store Call Answer Credential Result) : Label Request → Prop
  | .start _ _ => True
  | .act slot _ fails =>
    match world.requests slot with
    | some (.call what _) =>
      if fails then world.holds slot credential = .free ∨ ledger.vital credential what = false
      else
        ledger.effect credential what (service.perform world.store what).1 = .sees →
          ∀ other, other ≠ slot → (world.holds other credential).isOpen = false
    | _ => True

variable {service ledger credential}

theorem World.orderly_of_direct (direct : ledger.Direct credential)
    (never : ∀ what, ledger.vital credential what = false)
    (world : World Store Call Answer Credential Result) (label : Label Request) :
    world.Orderly service ledger credential label := by
  cases label with
  | start slot request => trivial
  | act slot now fails =>
    simp only [World.Orderly]
    split
    · split
      · exact .inr (never _)
      · exact fun seen => absurd seen (direct _ _)
    · trivial

end

theorem holds_update {holds : Nat → Credential → Hold} {credential : Credential} (slot : Nat)
    (own : Credential → Hold) : (fun other => update holds slot own other credential) =
      update (holds · credential) slot (own credential) := by
  funext other
  by_cases isSlot : other = slot
  · subst isSlot
    simp
  · simp [update_of_ne isSlot]

section Redemptions

variable [DecidableEq Credential] (service : Service Store Request Call Answer Credential Result)
  (ledger : Ledger Store Call Answer Credential) (credential : Credential)

/-- The requests in flight are fair, and the books are in order. -/
structure World.Sound (world : World Store Call Answer Credential Result) : Prop where
  fair : ∀ slot program, world.requests slot = some program →
    program.Fair service.perform ledger credential (world.holds slot credential)
  idle : ∀ slot, world.requests slot = none → world.holds slot credential = .free
  books : Books (ledger.Direct credential) (world.holds · credential)
    (ledger.Known world.store credential) (ledger.Spent world.store credential)
    (world.redeemed.count credential)

variable {service ledger credential}

theorem World.sound_initial (store : Store) :
    (initial store : World Store Call Answer Credential Result).Sound service ledger
      credential where
  fair slot program running := by cases running
  idle _ _ := rfl
  books := .initial

variable {world next : World Store Call Answer Credential Result} {store : Store}
  {labels : List (Label Request)}

theorem World.Sound.update_slot
    (sound : world.Sound service ledger credential) {slot : Nat} (own : Credential → Hold)
    {program : Option (Program Call Answer Credential Result)}
    (requests : next.requests = update world.requests slot program)
    (holds : next.holds = update world.holds slot own)
    (fair : ∀ running, program = some running →
      running.Fair service.perform ledger credential (own credential))
    (idle : program = none → own credential = .free) (books : Books (ledger.Direct credential)
      (update (world.holds · credential) slot (own credential))
      (ledger.Known next.store credential) (ledger.Spent next.store credential)
      (next.redeemed.count credential)) :
    next.Sound service ledger credential where
  fair other running runs := by
    rw [requests] at runs
    rw [holds]
    by_cases isSlot : other = slot
    · subst isSlot
      rw [update_self] at runs ⊢
      exact fair running runs
    · rw [update_of_ne isSlot] at runs ⊢
      exact sound.fair other running runs
  idle other isIdle := by
    rw [requests] at isIdle
    rw [holds]
    by_cases isSlot : other = slot
    · subst isSlot
      rw [update_self] at isIdle ⊢
      exact idle isIdle
    · rw [update_of_ne isSlot] at isIdle ⊢
      exact sound.idle other isIdle
  books := by
    rw [holds,holds_update]
    exact books

variable (lawful : ledger.Lawful service.perform credential)
  (fair : ∀ request, (service.handle request).Fair service.perform ledger credential .free)
include lawful fair

theorem World.Sound.step (sound : world.Sound service ledger credential)
    {label : Label Request} (orderly : world.Orderly service ledger credential label)
    (step : world.step service ledger label = some next) :
    next.Sound service ledger credential := by
  cases change_of_step step with
  | started slot request idle =>
    have isFree := sound.idle slot idle
    refine sound.update_slot (world.holds slot) rfl (update_eq_self _ _).symm ?_ ?_ ?_
    · rintro running ⟨rfl⟩
      rw [isFree]
      exact fair request
    · exact nofun
    · rw [update_eq_self]
      exact sound.books
  | finished slot now fails result runs =>
    have settled := sound.fair slot _ runs
    refine sound.update_slot _ rfl rfl (fun running absent => by cases absent) (fun _ => rfl) ?_
    exact sound.books.release settled
  | redeemed slot now fails other rest runs =>
    have entitled := sound.fair slot _ runs
    by_cases same : other = credential
    · subst same
      simp only [Program.Fair,if_true] at entitled
      refine sound.update_slot _ rfl rfl ?_ nofun ?_
      · rintro running ⟨rfl⟩
        rw [update_self]
        exact entitled.2
      · rw [update_self,List.count_cons_self]
        exact sound.books.redeem entitled.1
    · simp only [Program.Fair,if_neg same] at entitled
      have own : update (world.holds slot) other (world.holds slot other).redeemed
          credential = world.holds slot credential :=
        update_of_ne (Ne.symm same) _ _
      refine sound.update_slot _ rfl rfl ?_ nofun ?_
      · rintro running ⟨rfl⟩
        rw [own]
        exact entitled
      · rw [own,update_eq_self,List.count_cons_of_ne same]
        exact sound.books
  | failed slot now what continuation runs =>
    have goesOn := (sound.fair slot _ runs now).2
    simp only [World.Orderly,runs,if_true] at orderly
    refine sound.update_slot (world.holds slot) rfl (update_eq_self _ _).symm ?_ ?_ ?_
    · rintro running ⟨rfl⟩
      exact goesOn orderly
    · exact nofun
    · rw [update_eq_self]
      exact sound.books
  | performed slot now what continuation runs =>
    have goesOn := (sound.fair slot _ runs now).1 world.store
    simp only [World.Orderly,runs,Bool.false_eq_true,if_false] at orderly
    refine sound.update_slot _ rfl rfl ?_ nofun ?_
    · rintro running ⟨rfl⟩
      exact goesOn
    · refine sound.books.perform lawful.keepsKnown lawful.keepsSpent ?_ ?_ lawful.spends orderly
      · intro seen
        obtain ⟨isHere,notSpent⟩ := lawful.sees seen
        exact ⟨isHere,notSpent,fun direct => direct _ _ seen⟩
      · exact lawful.claims

/-- Fair programs redeem a credential at most once, unless one looks at it while another has it
open or a vital call fails. -/
theorem redeemed_at_most_once {final : World Store Call Answer Credential Result}
    (orderly : Along (step service ledger) (World.Orderly service ledger credential)
      (initial store) labels)
    (reaches : run (step service ledger) (initial store) labels = some final) :
    final.Sound service ledger credential :=
  invariant_of_along (fun _ _ _ sound orderlyStep step => sound.step lawful fair orderlyStep step)
    (sound_initial store) orderly reaches

omit lawful fair

/-- A step of the slot that does not fail. -/
def Label.isAlone (slot : Nat) : Label Request → Prop
  | .start other _ => other = slot
  | .act other _ fails => other = slot ∧ fails = false

theorem World.along_orderly_of_alone (slot : Nat) (alone : ∀ label ∈ labels, label.isAlone slot) :
    Along (step service ledger) (World.Orderly service ledger credential)
      (initial store) labels := by
  -- The other slots never hold anything.
  have preserved : ∀ (world : World Store Call Answer Credential Result) label next,
      (∀ other, other ≠ slot → world.holds other credential = .free) → label.isAlone slot →
        world.step service ledger label = some next →
          ∀ other, other ≠ slot → next.holds other credential = .free := by
    intro world label next others isAlone step other isOther
    cases change_of_step step with
    | started | failed => exact others other isOther
    | finished | redeemed | performed =>
      obtain ⟨rfl,-⟩ := isAlone
      simpa [update_of_ne isOther] using others other isOther
  refine along_of_invariant preserved ?_ alone fun _ _ => rfl
  intro world label others isAlone
  cases label with
  | start => trivial
  | act other now fails =>
    obtain ⟨rfl,rfl⟩ := isAlone
    simp only [World.Orderly]
    split
    · intro _ another isOther
      rw [others another isOther]
      rfl
    · trivial

end Redemptions

end CallPrograms
