import Croniq.WorkDispatch
import Mathlib.Data.List.Induction

/-!
# The work queue

The items wait in the order in which they came, beside a counter for each job.
-/

namespace Croniq

open Function List WorkItem

structure WorkQueue where
  items : List WorkItem
  perJobCount : String → Option Nat

open WorkQueue

namespace WorkQueue

def new : WorkQueue where
  items := []
  perJobCount := fun _ => none

/-- Add an item at the back, unless its execution is queued. -/
def enqueue (queue : WorkQueue) (item : WorkItem) : Bool × WorkQueue :=
  if queue.items.any (·.executionId = item.executionId) then (false, queue)
  else
    (true,
      { items := queue.items ++ [item]
        perJobCount :=
          update queue.perJobCount item.jobKey
            (some ((queue.perJobCount item.jobKey).getD 0 + 1)) })

def decCount (perJobCount : String → Option Nat) (jobKey : String) : String → Option Nat :=
  match perJobCount jobKey with
  | none => perJobCount
  | some count => update perJobCount jobKey (if count - 1 = 0 then none else some (count - 1))

def takeAt (queue : WorkQueue) (index : Nat) : Option (WorkItem × WorkQueue) :=
  queue.items[index]?.map fun item =>
    (item,
      { items := queue.items.eraseIdx index
        perJobCount := decCount queue.perJobCount item.jobKey })

/-- The scan from an index on, with the rank and the index of the best item so far. -/
def scanBest (now : Int) (capabilities : List String) (eligible : WorkItem → Bool) :
    Nat → Option (Nat × Nat) → List WorkItem → Option (Nat × Nat)
  | _, best, [] => best
  | index, best, item :: rest =>
    let rank := item.effectivePriority now
    if !item.require.all capabilities.contains then
      scanBest now capabilities eligible (index + 1) best rest
    else if best.any (rank ≤ ·.1) then
      scanBest now capabilities eligible (index + 1) best rest
    else if eligible item then
      if rank = rankCeiling then some (rank, index)
      else scanBest now capabilities eligible (index + 1) (some (rank, index)) rest
    else scanBest now capabilities eligible (index + 1) best rest

def dequeueForWhereAt (queue : WorkQueue) (now : Int) (capabilities : List String)
    (eligible : WorkItem → Bool) : Option (WorkItem × WorkQueue) :=
  (scanBest now capabilities eligible 0 none queue.items).bind fun best => queue.takeAt best.2

def dequeueManyFor (now : Int) (capabilities : List String) :
    Nat → WorkQueue → List WorkItem × WorkQueue
  | 0, queue => ([], queue)
  | limit + 1, queue =>
    match queue.dequeueForWhereAt now capabilities fun _ => true with
    | none => ([], queue)
    | some (item, rest) =>
      let more := dequeueManyFor now capabilities limit rest
      (item :: more.1, more.2)

section

variable (queue : WorkQueue)

def countForJob (jobKey : String) : Nat :=
  (queue.perJobCount jobKey).getD 0

def remove (executionId : ExecutionId) : Bool × WorkQueue :=
  match (queue.items.findIdx? (·.executionId = executionId)).bind queue.takeAt with
  | none => (false, queue)
  | some (_, rest) => (true, rest)

/-- Remove every item of a job, and its counter. -/
def removeJob (jobKey : String) : List ExecutionId × WorkQueue :=
  let removed := (queue.items.filter (·.jobKey = jobKey)).map executionId
  (removed,
    { items := queue.items.filter (·.jobKey ≠ jobKey)
      perJobCount :=
        if removed = [] then queue.perJobCount
        else update queue.perJobCount jobKey none })

def drain : List WorkItem × WorkQueue :=
  (queue.items, new)

end

/-! ## The item that a dequeue takes -/

/-- An item that the runner can execute and the caller accepts. -/
def dispatchable (capabilities : List String) (eligible : WorkItem → Bool) (item : WorkItem) :
    Bool :=
  item.require.all capabilities.contains && eligible item

/-- The item between two parts of the queue is the first of the highest rank among those that
may be taken. -/
structure Leads (rank : WorkItem → Nat) (allowed : WorkItem → Bool)
    (before : List WorkItem) (item : WorkItem) (after : List WorkItem) : Prop where
  isAllowed : allowed item = true
  below : ∀ other ∈ before, allowed other = true → rank other < rank item
  notAbove : ∀ other ∈ after, allowed other = true → rank other ≤ rank item

def Scanned (rank : WorkItem → Nat) (allowed : WorkItem → Bool) (items : List WorkItem) :
    Option (Nat × Nat) → Prop
  | none => ∀ item ∈ items, allowed item = false
  | some (best, index) =>
    ∃ before item after, items = before ++ item :: after ∧ index = before.length ∧
      best = rank item ∧ Leads rank allowed before item after

section

variable {rank : WorkItem → Nat} {allowed : WorkItem → Bool} {items : List WorkItem}
  {best : Option (Nat × Nat)} {item : WorkItem}

theorem Scanned.append {more : List WorkItem} {best : Nat × Nat}
    (scanned : Scanned rank allowed items (some best))
    (notAbove : ∀ other ∈ more, allowed other = true → rank other ≤ best.1) :
    Scanned rank allowed (items ++ more) (some best) := by
  obtain ⟨before,item,after,rfl,isIndex,isRank,leads⟩ := scanned
  refine ⟨before,item,after ++ more,by simp,isIndex,isRank,leads.isAllowed,leads.below,?_⟩
  intro other isOther isAllowed
  rcases mem_append.mp isOther with isAfter | isMore
  · exact leads.notAbove other isAfter isAllowed
  · exact isRank ▸ notAbove other isMore isAllowed

theorem Scanned.skip (scanned : Scanned rank allowed items best) (refused : allowed item = false) :
    Scanned rank allowed (items ++ [item]) best := by
  match best with
  | none =>
    intro other isOther
    rcases mem_append.mp isOther with isBefore | isLast
    · exact scanned other isBefore
    · rw [mem_singleton.mp isLast,refused]
  | some best =>
    refine scanned.append ?_
    intro other isOther isAllowed
    rw [mem_singleton.mp isOther,refused] at isAllowed
    cases isAllowed

theorem Scanned.lead (scanned : Scanned rank allowed items best) (isAllowed : allowed item = true)
    (beats : ¬best.any (rank item ≤ ·.1) = true) :
    Scanned rank allowed (items ++ [item]) (some (rank item, items.length)) := by
  refine ⟨items,item,[],rfl,rfl,rfl,isAllowed,?_,by simp⟩
  intro other isOther otherAllowed
  match best with
  | none =>
    rw [scanned other isOther] at otherAllowed
    cases otherAllowed
  | some best =>
    obtain ⟨before,leader,after,rfl,-,isRank,leads⟩ := scanned
    have above : rank leader < rank item := by simpa [isRank] using beats
    rcases mem_append.mp isOther with isBefore | isRest
    · exact Nat.lt_trans (leads.below other isBefore otherAllowed) above
    · rcases mem_cons.mp isRest with rfl | isAfter
      · exact above
      · exact Nat.lt_of_le_of_lt (leads.notAbove other isAfter otherAllowed) above

end

theorem effectivePriority_le_rankCeiling (item : WorkItem) (now : Int) :
    item.effectivePriority now ≤ rankCeiling := by
  have base : item.basePriority ≤ 2 := by
    unfold basePriority
    split <;> omega
  simp only [effectivePriority,rankCeiling]
  omega

theorem scanBest_scanned (now : Int) (capabilities : List String) (eligible : WorkItem → Bool)
    (rest behind : List WorkItem) (best : Option (Nat × Nat))
    (scanned : Scanned (·.effectivePriority now) (dispatchable capabilities eligible) behind best) :
    Scanned (·.effectivePriority now) (dispatchable capabilities eligible) (behind ++ rest)
      (scanBest now capabilities eligible behind.length best rest) := by
  induction rest generalizing behind best with
  | nil => simpa [scanBest] using scanned
  | cons item rest ih =>
    have next : ∀ best, Scanned (·.effectivePriority now) (dispatchable capabilities eligible)
        (behind ++ [item]) best →
        Scanned (·.effectivePriority now) (dispatchable capabilities eligible)
          (behind ++ item :: rest)
          (scanBest now capabilities eligible (behind.length + 1) best rest) := by
      intro best reached
      simpa using ih (behind ++ [item]) best reached
    simp only [scanBest]
    split
    · rename_i incapable
      rw [Bool.not_eq_true'] at incapable
      exact next best (scanned.skip (by rw [dispatchable,incapable,Bool.false_and]))
    split
    · rename_i beaten
      obtain ⟨found,rfl⟩ : ∃ found, best = some found := by cases best <;> simp_all
      refine next _ (scanned.append ?_)
      intro other isOther _
      rw [mem_singleton.mp isOther]
      simpa using beaten
    rename_i beats
    split
    · have isAllowed : dispatchable capabilities eligible item = true := by simp_all [dispatchable]
      have leads := scanned.lead isAllowed beats
      split
      · -- nothing ranks above the ceiling, so what the scan leaves out cannot win
        rename_i atCeiling
        have notAbove : ∀ other ∈ rest, dispatchable capabilities eligible other = true →
            other.effectivePriority now ≤ item.effectivePriority now := fun other _ _ =>
          atCeiling ▸ effectivePriority_le_rankCeiling other now
        simpa using leads.append notAbove
      · exact next _ leads
    · exact next best (scanned.skip (by simp_all [dispatchable]))

theorem takeAt_length (before after : List WorkItem) (item : WorkItem)
    (perJobCount : String → Option Nat) :
    takeAt ⟨before ++ item :: after,perJobCount⟩ before.length =
      some (item, ⟨before ++ after,decCount perJobCount item.jobKey⟩) := by
  simp [takeAt,eraseIdx_append_of_length_le]

theorem dequeueForWhereAt_cases (queue : WorkQueue) (now : Int) (capabilities : List String)
    (eligible : WorkItem → Bool) :
    ((∀ item ∈ queue.items, dispatchable capabilities eligible item = false) ∧
        queue.dequeueForWhereAt now capabilities eligible = none) ∨
      ∃ before item after, queue.items = before ++ item :: after ∧
        Leads (·.effectivePriority now) (dispatchable capabilities eligible) before item after ∧
        queue.dequeueForWhereAt now capabilities eligible =
          some (item, ⟨before ++ after,decCount queue.perJobCount item.jobKey⟩) := by
  have scanned := scanBest_scanned now capabilities eligible queue.items [] none (by simp [Scanned])
  rw [nil_append,length_nil] at scanned
  rw [dequeueForWhereAt]
  match isBest : scanBest now capabilities eligible 0 none queue.items with
  | none =>
    rw [isBest] at scanned
    exact .inl ⟨scanned,rfl⟩
  | some (best, index) =>
    rw [isBest] at scanned
    obtain ⟨before,item,after,isItems,rfl,-,leads⟩ := scanned
    refine .inr ⟨before,item,after,isItems,leads,?_⟩
    obtain ⟨items,perJobCount⟩ := queue
    cases isItems
    exact takeAt_length before after item perJobCount

/-- A dequeue takes the first of the items with the highest priority among those it may hand out. -/
theorem dequeue_selects_first_of_highest (queue : WorkQueue) (now : Int)
    (capabilities : List String) (eligible : WorkItem → Bool) :
    (queue.dequeueForWhereAt now capabilities eligible = none ↔
        ∀ item ∈ queue.items, dispatchable capabilities eligible item = false) ∧
      ∀ item rest, queue.dequeueForWhereAt now capabilities eligible = some (item, rest) →
        dispatchable capabilities eligible item = true ∧
          ∃ before after, queue.items = before ++ item :: after ∧ rest.items = before ++ after ∧
            (∀ other ∈ before, dispatchable capabilities eligible other = true →
              other.effectivePriority now < item.effectivePriority now) ∧
            ∀ other ∈ after, dispatchable capabilities eligible other = true →
              other.effectivePriority now ≤ item.effectivePriority now := by
  rcases dequeueForWhereAt_cases queue now capabilities eligible with
    ⟨noneAllowed,refuses⟩ | ⟨before,taken,after,isItems,leads,takes⟩
  · simpa [refuses] using noneAllowed
  constructor
  · refine iff_of_false (by simp [takes]) ?_
    intro noneAllowed
    have refused := noneAllowed taken (by simp [isItems])
    rw [leads.isAllowed] at refused
    cases refused
  · intro item rest same
    rw [takes] at same
    cases same
    exact ⟨leads.isAllowed,before,after,isItems,rfl,leads.below,leads.notAbove⟩

/-! ## The counters and the contents -/

/-- The entry of a counter; there is none for zero. -/
def counter (count : Nat) : Option Nat :=
  if count = 0 then none else some count

@[simp] theorem counter_zero : counter 0 = none :=
  rfl

@[simp] theorem counter_getD (count : Nat) : (counter count).getD 0 = count := by
  unfold counter
  split <;> simp_all

/-- Each counter is the number of items of its job. -/
def Counted (queue : WorkQueue) : Prop :=
  ∀ jobKey, queue.perJobCount jobKey = counter (queue.items.countP (·.jobKey = jobKey))

theorem filter_left_append (items : List WorkItem) (left more : List ExecutionId) :
    (items.filter (·.executionId ∉ left)).filter (·.executionId ∉ more) =
      items.filter (·.executionId ∉ left ++ more) := by
  simp [Bool.and_comm]

/-- The queue after some executions left it, the others in order. -/
structure Removes (queue : WorkQueue) (left : List ExecutionId) (rest : WorkQueue) : Prop where
  items_eq : rest.items = queue.items.filter (·.executionId ∉ left)
  present : left ⊆ queue.items.map executionId
  counted : queue.Counted → rest.Counted

theorem removes_nothing (queue : WorkQueue) : queue.Removes [] queue where
  items_eq := by simp
  present := nil_subset _
  counted := id

variable {left : List ExecutionId} {before after : List WorkItem} {item : WorkItem}
  {perJobCount : String → Option Nat}

theorem Removes.trans {queue rest last : WorkQueue} {more : List ExecutionId}
    (first : queue.Removes left rest) (second : rest.Removes more last) :
    queue.Removes (left ++ more) last where
  items_eq := by rw [second.items_eq,first.items_eq,filter_left_append]
  present := by
    refine append_subset.mpr ⟨first.present,fun id isMore => ?_⟩
    have kept := second.present isMore
    rw [first.items_eq] at kept
    exact filter_sublist.map _ |>.subset kept
  counted := fun counted => second.counted (first.counted counted)

theorem counted_takeOut (counted : Counted ⟨before ++ item :: after,perJobCount⟩) :
    Counted ⟨before ++ after,decCount perJobCount item.jobKey⟩ := by
  intro jobKey
  have itemCounter := counted item.jobKey
  have isCounter := counted jobKey
  simp only [countP_append,countP_cons,decide_true,if_true] at itemCounter isCounter ⊢
  rw [counter,if_neg (by simp)] at itemCounter
  rw [decCount,itemCounter]
  by_cases same : jobKey = item.jobKey
  · subst same
    dsimp only
    rw [update_self,counter,← Nat.add_assoc,Nat.add_sub_cancel]
  · have other : item.jobKey ≠ jobKey := Ne.symm same
    simpa [update_of_ne same,other] using isCounter

theorem removes_takeOut (unique : ((before ++ item :: after).map executionId).Nodup) :
    Removes ⟨before ++ item :: after,perJobCount⟩ [item.executionId]
      ⟨before ++ after,decCount perJobCount item.jobKey⟩ where
  items_eq := by
    have others : ∀ other ∈ before ++ after, other.executionId ≠ item.executionId := by
      intro other isOther same
      have moved : ((item :: (before ++ after)).map executionId).Nodup :=
        (perm_middle.map _).nodup_iff.mp unique
      rw [map_cons,nodup_cons] at moved
      exact moved.1 (mem_map.mpr ⟨other,isOther,same⟩)
    have kept : (before ++ after).filter (·.executionId ∉ [item.executionId]) = before ++ after :=
      filter_eq_self.mpr (by simpa using others)
    simpa [filter_append] using kept.symm
  present := by simp
  counted := counted_takeOut

theorem Removes.unique {queue rest : WorkQueue}
    (removes : queue.Removes left rest) (unique : (queue.items.map executionId).Nodup) :
    (rest.items.map executionId).Nodup := by
  rw [removes.items_eq]
  exact unique.sublist (filter_sublist.map _)

section

variable {queue : WorkQueue} (unique : (queue.items.map executionId).Nodup)
include unique

theorem removes_dequeueForWhereAt {now : Int} {capabilities : List String}
    {eligible : WorkItem → Bool} {item : WorkItem} {rest : WorkQueue}
    (takes : queue.dequeueForWhereAt now capabilities eligible = some (item, rest)) :
    queue.Removes [item.executionId] rest := by
  rcases dequeueForWhereAt_cases queue now capabilities eligible with
    ⟨-,refuses⟩ | ⟨before,taken,after,isItems,-,isTaken⟩
  · rw [refuses] at takes
    cases takes
  rw [isTaken] at takes
  cases takes
  obtain ⟨items,perJobCount⟩ := queue
  cases isItems
  exact removes_takeOut unique

theorem removes_dequeueManyFor (now : Int) (capabilities : List String) (limit : Nat) :
    queue.Removes ((dequeueManyFor now capabilities limit queue).1.map executionId)
      (dequeueManyFor now capabilities limit queue).2 := by
  induction limit generalizing queue with
  | zero => exact removes_nothing queue
  | succ limit ih =>
    rw [dequeueManyFor]
    split
    · exact removes_nothing queue
    · rename_i item rest takes
      have first := removes_dequeueForWhereAt unique takes
      exact first.trans (ih (first.unique unique))

theorem removes_remove (executionId : ExecutionId) :
    queue.Removes (if (queue.remove executionId).1 then [executionId] else [])
      (queue.remove executionId).2 := by
  rw [remove]
  split
  · exact removes_nothing queue
  rename_i item rest takes
  obtain ⟨index,isIndex,takes⟩ := Option.bind_eq_some_iff.mp takes
  obtain ⟨inside,found,-⟩ := findIdx?_eq_some_iff_getElem.mp isIndex
  rw [decide_eq_true_eq] at found
  obtain ⟨items,perJobCount⟩ := queue
  have isSplit : items = items.take index ++ items[index] :: items.drop (index + 1) := by simp
  have isLength : (items.take index).length = index := length_take_of_le (Nat.le_of_lt inside)
  have takesOut := takeAt_length (items.take index) (items.drop (index + 1)) items[index]
    perJobCount
  rw [isLength,← isSplit,takes] at takesOut
  cases takesOut
  have removes := @removes_takeOut _ _ _ perJobCount (isSplit ▸ unique)
  rwa [← isSplit,found] at removes

theorem removes_removeJob (jobKey : String) :
    queue.Removes (queue.removeJob jobKey).1 (queue.removeJob jobKey).2 where
  items_eq := by
    refine filter_congr fun item isItem => ?_
    have itsJob : item.jobKey = jobKey ↔ item.executionId ∈ (queue.removeJob jobKey).1 := by
      simp only [removeJob,mem_map,mem_filter,decide_eq_true_eq]
      constructor
      · intro same
        exact ⟨item,⟨isItem,same⟩,rfl⟩
      · rintro ⟨other,⟨isOther,same⟩,sameId⟩
        rwa [← inj_on_of_nodup_map unique isOther isItem sameId]
    simp [itsJob]
  present := filter_sublist.map _ |>.subset
  counted := by
    intro counted other
    have isCounter := counted other
    simp only [removeJob,countP_filter]
    by_cases same : other = jobKey
    · subst same
      split
      · rename_i noneRemoved
        have isZero : queue.items.countP (·.jobKey = other) = 0 :=
          countP_eq_zero.mpr (by simpa using noneRemoved)
        simpa [isZero] using isCounter
      · simp
    · have kept : ∀ item : WorkItem,
          (decide (item.jobKey = other) && decide (item.jobKey ≠ jobKey)) =
            decide (item.jobKey = other) := by
        intro item
        by_cases isOther : item.jobKey = other <;> simp_all
      simp only [kept]
      split
      · exact isCounter
      · rwa [update_of_ne same]

omit unique in
theorem removes_drain : queue.Removes (queue.drain.1.map executionId) queue.drain.2 where
  items_eq := by
    refine (filter_eq_nil_iff.mpr fun item isItem => ?_).symm
    simpa [drain] using ⟨item,isItem,rfl⟩
  present := List.Subset.refl _
  counted := fun _ _ => by simp [drain,new]

end

theorem counted_enqueue {queue : WorkQueue} (counted : queue.Counted) (item : WorkItem) :
    (queue.enqueue item).2.Counted := by
  rw [enqueue]
  split
  · exact counted
  intro jobKey
  have isCounter := counted jobKey
  simp only [countP_append,countP_singleton]
  by_cases same : jobKey = item.jobKey
  · subst same
    rw [update_self,isCounter,counter_getD]
    simp [counter]
  · have other : item.jobKey ≠ jobKey := Ne.symm same
    simpa [update_of_ne same,other] using isCounter

end WorkQueue

/-! ## Every sequence of operations -/

inductive QueueOp where
  | enqueue (item : WorkItem)
  | dequeue (now : Int) (capabilities : List String) (eligible : WorkItem → Bool)
  | dequeueMany (now : Int) (capabilities : List String) (limit : Nat)
  | remove (executionId : ExecutionId)
  | removeJob (jobKey : String)
  | drain

def QueueOp.enqueued? : QueueOp → Option WorkItem
  | .enqueue item => some item
  | _ => none

/-- A queue and the executions that were returned or removed. -/
structure QueueLedger where
  queue : WorkQueue
  left : List ExecutionId

namespace QueueLedger

def initial : QueueLedger where
  queue := .new
  left := []

def leave (ledger : QueueLedger) (left : List ExecutionId) (rest : WorkQueue) : QueueLedger where
  queue := rest
  left := ledger.left ++ left

def step (ledger : QueueLedger) : QueueOp → QueueLedger
  | .enqueue item => { ledger with queue := (ledger.queue.enqueue item).2 }
  | .dequeue now capabilities eligible =>
    match ledger.queue.dequeueForWhereAt now capabilities eligible with
    | none => ledger
    | some (item, rest) => ledger.leave [item.executionId] rest
  | .dequeueMany now capabilities limit =>
    let taken := dequeueManyFor now capabilities limit ledger.queue
    ledger.leave (taken.1.map executionId) taken.2
  | .remove executionId =>
    let removed := ledger.queue.remove executionId
    ledger.leave (if removed.1 then [executionId] else []) removed.2
  | .removeJob jobKey =>
    let removed := ledger.queue.removeJob jobKey
    ledger.leave removed.1 removed.2
  | .drain =>
    let drained := ledger.queue.drain
    ledger.leave (drained.1.map executionId) drained.2

/-- The queue holds what was enqueued and has not left, in order. -/
structure Holds (enqueued : List WorkItem) (ledger : QueueLedger) : Prop where
  counted : ledger.queue.Counted
  items_eq : ledger.queue.items = enqueued.filter (·.executionId ∉ ledger.left)
  left_subset : ledger.left ⊆ enqueued.map executionId

variable {enqueued : List WorkItem} {ledger : QueueLedger}

theorem Holds.leave (holds : ledger.Holds enqueued) {left : List ExecutionId} {rest : WorkQueue}
    (removes : ledger.queue.Removes left rest) : (ledger.leave left rest).Holds enqueued where
  counted := removes.counted holds.counted
  items_eq := by rw [QueueLedger.leave,removes.items_eq,holds.items_eq,filter_left_append]
  left_subset := by
    refine append_subset.mpr ⟨holds.left_subset,fun id isLeft => ?_⟩
    have kept := removes.present isLeft
    rw [holds.items_eq] at kept
    exact filter_sublist.map _ |>.subset kept

theorem Holds.enqueue (holds : ledger.Holds enqueued) {item : WorkItem}
    (fresh : item.executionId ∉ enqueued.map executionId) :
    (ledger.step (.enqueue item)).Holds (enqueued ++ [item]) where
  counted := counted_enqueue holds.counted item
  items_eq := by
    have isNew : ¬(ledger.queue.items.any (·.executionId = item.executionId)) = true := by
      rw [holds.items_eq,any_eq_true]
      rintro ⟨other,isOther,same⟩
      exact fresh (mem_map.mpr
        ⟨other,mem_of_mem_filter isOther,of_decide_eq_true same⟩)
    have stays : item.executionId ∉ ledger.left := fun gone => fresh (holds.left_subset gone)
    simp only [step,WorkQueue.enqueue,if_neg isNew]
    rw [filter_append,holds.items_eq]
    simp [stays]
  left_subset := by
    intro id gone
    rw [map_append]
    exact mem_append_left _ (holds.left_subset gone)

theorem exists_leave {op : QueueOp} (isOther : op.enqueued? = none)
    (unique : (ledger.queue.items.map executionId).Nodup) :
    ∃ left rest, ledger.queue.Removes left rest ∧ ledger.step op = ledger.leave left rest := by
  cases op with
  | enqueue => cases isOther
  | dequeue now capabilities eligible =>
    rw [step]
    split
    · exact ⟨[],ledger.queue,removes_nothing _,by simp [QueueLedger.leave]⟩
    · rename_i takes
      exact ⟨_,_,removes_dequeueForWhereAt unique takes,rfl⟩
  | dequeueMany now capabilities limit =>
    exact ⟨_,_,removes_dequeueManyFor unique now capabilities limit,rfl⟩
  | remove executionId => exact ⟨_,_,removes_remove unique executionId,rfl⟩
  | removeJob jobKey => exact ⟨_,_,removes_removeJob unique jobKey,rfl⟩
  | drain => exact ⟨_,_,removes_drain,rfl⟩

theorem holds_of_run (ops : List QueueOp)
    (distinct : ((ops.filterMap QueueOp.enqueued?).map executionId).Nodup) :
    (ops.foldl step initial).Holds (ops.filterMap QueueOp.enqueued?) := by
  induction ops using reverseRecOn with
  | nil => exact ⟨fun _ => rfl,rfl,nil_subset _⟩
  | append_singleton ops op ih =>
    rw [filterMap_append,map_append] at distinct
    obtain ⟨distinctBefore,-,apart⟩ := nodup_append.mp distinct
    have holds := ih distinctBefore
    rw [foldl_append,filterMap_append,foldl_cons,foldl_nil]
    cases isItem : op.enqueued? with
    | some item =>
      obtain rfl : op = .enqueue item := by cases op <;> simp_all [QueueOp.enqueued?]
      exact holds.enqueue fun present => apart _ present _ (by simp [isItem]) rfl
    | none =>
      have unique : ((ops.foldl step initial).queue.items.map executionId).Nodup := by
        rw [holds.items_eq]
        exact distinctBefore.sublist (filter_sublist.map _)
      obtain ⟨left,rest,removes,isStep⟩ := exists_leave isItem unique
      simpa [isItem,isStep] using holds.leave removes

end QueueLedger

end Croniq
