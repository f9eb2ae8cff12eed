import Croniq.JobCompile
import Croniq.TriggerFold
import Croniq.WatchdogSweep
import Mathlib.Data.List.DropRight

/-!
# The work item of an execution

An execution is handed out as a work item in the queue.
-/

namespace Croniq

open Config DecimalText List

structure DispatchItem extends WorkItem where
  scheduledFor : Int
  attempt : Nat
  prefer : List String
  timeout : String
deriving DecidableEq

structure DispatchJob extends FoldJob where
  prefer : List String
  timeout : Option String
  isEphemeral : Bool
deriving DecidableEq

/-- How a list of capabilities is stored as a text. -/
structure CapabilityText where
  encode : List String → String
  decode : String → Option (List String)
  decode_encode : ∀ capabilities, decode (encode capabilities) = some capabilities

def preferMetadataKey : String := "__prefer"

def timeoutMetadataKey : String := "__timeout"

def requestedMetadataKey : String := "__requested"

def requestedByTrigger : String := "trigger"

/-! ### Durations -/

/-- The digits of a duration, and the milliseconds of its unit. -/
def durationParts (text : List Char) : List Char × Nat :=
  if ['m','s'].isSuffixOf text then (text.dropLast.dropLast, 1)
  else
    match text.getLast? with
    | some 's' => (text.dropLast, 1000)
    | some 'm' => (text.dropLast, 60 * 1000)
    | some 'h' => (text.dropLast, 3600 * 1000)
    | some 'd' => (text.dropLast, 86400 * 1000)
    | _ => (text, 1000)

def parseDuration (text : String) : Option Nat :=
  let (digits, millisPerUnit) := durationParts (trim text).toList
  ((parseUnsigned 64 digits).map (· * millisPerUnit)).filter (· < 2 ^ 64)

/-- A blank duration counts as absent; any other has to be readable. -/
def validateOptionalDuration (value : Option String) : Option (Option String) :=
  match (value.map trim).filter (· ≠ "") with
  | none => some none
  | some trimmed => if (parseDuration trimmed).isSome then some (some trimmed) else none

def defaultExecutionTimeout : String := "5m"

/-- The stamp of the row, then the job, then the default; what is no duration is passed over. -/
def effectiveTimeout (metadata : Metadata) (jobTimeout : Option String) : String :=
  (((metadata.lookup timeoutMetadataKey).toList ++ jobTimeout.toList).map trim).find?
    (fun text => (parseDuration text).isSome) |>.getD defaultExecutionTimeout

/-! ### The producers -/

section

variable (text : CapabilityText)

/-- The stamped capabilities, or else those of the job. -/
def stampedCapabilities (metadata : Metadata) (key : String)
    (fallback : List String) : List String :=
  ((metadata.lookup key).bind text.decode).getD fallback

def itemMetadata (metadata : Metadata) : List (String × MetadataValue) :=
  metadata.map fun (key, value) => (key, .text value)

variable (job : DispatchJob)

/-- The item rebuilt from a row; the rest comes from the job. -/
def DispatchJob.workItemFromExecution (execution : Execution) : DispatchItem where
  executionId := .uuid execution.id
  jobKey := execution.jobKey
  fireAt := execution.fireAt
  scheduledFor := execution.scheduledFor
  attempt := execution.attempt
  require := stampedCapabilities text execution.metadata requireMetadataKey job.require
  prefer := stampedCapabilities text execution.metadata preferMetadataKey job.prefer
  metadata := itemMetadata execution.metadata
  timeout := effectiveTimeout execution.metadata job.timeout
  isEphemeral := false

def jobToWorkItem (id : Uuid) (fireAt scheduledFor : Int) (attempt : Nat) : DispatchItem where
  executionId := .uuid id
  jobKey := job.key
  fireAt := fireAt
  scheduledFor := scheduledFor
  attempt := attempt
  require := job.require
  prefer := job.prefer
  metadata := itemMetadata job.metadata
  timeout := job.timeout.getD "5m"
  isEphemeral := job.isEphemeral

/-- An empty list leaves no stamp. -/
def capabilityStamp (key : String) (capabilities : List String) : Metadata :=
  if capabilities.isEmpty then [] else [(key, text.encode capabilities)]

def capabilityStamps (require prefer : List String) : Metadata :=
  capabilityStamp text requireMetadataKey require ++ capabilityStamp text preferMetadataKey prefer

def jobExecutionMetadata : Metadata :=
  (capabilityStamps text job.require job.prefer ++
    (job.timeout.map fun timeout => (timeoutMetadataKey, timeout)).toList).foldl
      insertMetadata job.metadata

/-- A fire of the schedule, or an adoption. An ephemeral job has no row. -/
def fireRun (id : Uuid) (fireAt now : Int) : Option (Execution × DispatchItem) :=
  if job.isEphemeral then none
  else
    some ((newExecution id job.key fireAt now none (jobExecutionMetadata text job)).execution,
      jobToWorkItem job id fireAt fireAt 1)

def defaultTriggerTimeout : String := "5m"

/-- What a trigger does not say is inherited. -/
def inheritedWhenEmpty (requested inherited : List String) : List String :=
  if requested.isEmpty then inherited else requested

variable (request : TriggerRequest)

def triggeredMetadata (job : DispatchJob) (timeout : String) : Metadata :=
  triggerMetadata request (some job.toFoldJob)
    (capabilityStamps text (inheritedWhenEmpty request.require job.require)
      (inheritedWhenEmpty request.prefer job.prefer) ++
        [(timeoutMetadataKey, timeout),(requestedMetadataKey, requestedByTrigger)])

/-- The run a trigger asks for; a timeout that cannot be read is refused. -/
def triggerRun (job : DispatchJob) (id : Uuid) (now : Int) : Option (Execution × DispatchItem) :=
  (validateOptionalDuration request.timeout).map fun requestedTimeout =>
    let timeout := (requestedTimeout.or job.timeout).getD defaultTriggerTimeout
    let metadata := triggeredMetadata text request job timeout
    ((newExecution id request.jobKey now now request.idempotencyKey metadata).execution,
      { executionId := .uuid id
        jobKey := request.jobKey
        fireAt := now
        scheduledFor := now
        attempt := 1
        require := inheritedWhenEmpty request.require job.require
        prefer := inheritedWhenEmpty request.prefer job.prefer
        metadata := itemMetadata metadata
        timeout
        isEphemeral := false })

/-- The retry of a run: the row is copied, the capabilities are those of the job. -/
def retryRun (report : Report) (job : DispatchJob) (retryId : Uuid) (nextAttempt delay : Nat) :
    Execution × DispatchItem :=
  ((report.retryExecution retryId nextAttempt delay).execution,
    { report.retryItem retryId delay with
      scheduledFor := report.execution.scheduledFor
      attempt := nextAttempt
      require := job.require
      prefer := job.prefer
      timeout := effectiveTimeout report.execution.metadata job.timeout })

inductive WorkProducer where
  | tick (id : Uuid) (fireAt now : Int)
  | adoption (id : Uuid) (now : Int)
  | trigger (request : TriggerRequest) (id : Uuid) (now : Int)
  | retry (report : Report) (retryId : Uuid) (nextAttempt delay : Nat)
  | requeue (row : Execution)
  | restore (row : Execution)

/-- The row and the item that a producer leaves. -/
def WorkProducer.produce (producer : WorkProducer) (job : DispatchJob) :
    Option (Execution × DispatchItem) :=
  match producer with
  | .tick id fireAt now => fireRun text job id fireAt now
  | .adoption id now => fireRun text job id now now
  | .trigger request id now => triggerRun text request job id now
  | .retry report retryId nextAttempt delay => some (retryRun report job retryId nextAttempt delay)
  | .requeue row => some (row, job.workItemFromExecution text row)
  | .restore row => some (row, job.workItemFromExecution text row)

end

structure DispatchItem.Agrees (item other : DispatchItem) : Prop where
  jobKey : item.jobKey = other.jobKey
  fireAt : item.fireAt = other.fireAt
  scheduledFor : item.scheduledFor = other.scheduledFor
  attempt : item.attempt = other.attempt
  require : item.require = other.require
  prefer : item.prefer = other.prefer
  timeout : item.timeout = other.timeout

/-! ### Reading the stamps back -/

theorem lookup_filter_ne (metadata : Metadata) {key other : String}
    (differs : key ≠ other) : (metadata.filter (·.1 ≠ other)).lookup key = metadata.lookup key := by
  induction metadata with
  | nil => rfl
  | cons entry metadata ih =>
    by_cases isOther : entry.1 = other
    · rw [filter_cons_of_neg (by simpa using isOther),ih,lookup_cons,
        beq_false_of_ne (isOther ▸ differs)]
    · rw [filter_cons_of_pos (by simpa using isOther),lookup_cons,lookup_cons,ih]

theorem lookup_insertMetadata (metadata : Metadata) (entry : String × String)
    (key : String) : (insertMetadata metadata entry).lookup key =
      ([entry].lookup key).or (metadata.lookup key) := by
  rw [insertMetadata,lookup_cons,lookup_cons]
  by_cases isEntry : key = entry.1
  · simp [isEntry]
  · rw [beq_false_of_ne isEntry,lookup_filter_ne _ isEntry]
    rfl

theorem lookup_foldl_insertMetadata (stamps metadata : Metadata) (key : String) :
    (stamps.foldl insertMetadata metadata).lookup key =
      (stamps.reverse.lookup key).or (metadata.lookup key) := by
  induction stamps generalizing metadata with
  | nil => rfl
  | cons entry stamps ih =>
    rw [foldl_cons,ih,lookup_insertMetadata,reverse_cons,lookup_append,Option.or_assoc]

theorem lookup_triggerMetadata (request : TriggerRequest) (job : FoldJob)
    (stamps : Metadata) {key : String} (reserved : Config.isReservedMetadataKey key = true)
    (notCoalesce : key ≠ coalesceMetadataKey) :
    (triggerMetadata request (some job) stamps).lookup key =
      (stamps.reverse.lookup key).or (job.metadata.lookup key) := by
  have overlaid : ∀ entries : Metadata,
      ((entries.filter fun entry => !Config.isReservedMetadataKey entry.1).foldl insertMetadata
        job.metadata).lookup key = job.metadata.lookup key := by
    intro entries
    have notThere : (entries.filter fun entry =>
        !Config.isReservedMetadataKey entry.1).reverse.lookup key = none := by
      rw [lookup_eq_none_iff]
      intro entry isEntry
      have notReserved := (mem_filter.mp (mem_reverse.mp isEntry)).2
      rw [bne_iff_ne]
      rintro rfl
      simp [reserved] at notReserved
    rw [lookup_foldl_insertMetadata,notThere]
    rfl
  rw [triggerMetadata,lookup_foldl_insertMetadata]
  congr 1
  split
  on_goal 2 => rw [lookup_filter_ne _ notCoalesce]
  all_goals
    split
    · exact overlaid _
    · rfl

/-- The metadata of the job hold no stamp of a row. -/
structure DispatchJob.Unstamped (job : DispatchJob) : Prop where
  require : job.metadata.lookup requireMetadataKey = none
  prefer : job.metadata.lookup preferMetadataKey = none
  timeout : job.metadata.lookup timeoutMetadataKey = none

section

variable (text : CapabilityText)

theorem lookup_capabilityStamp_self (key : String) (capabilities : List String) :
    (capabilityStamp text key capabilities).reverse.lookup key =
      if capabilities.isEmpty then none else some (text.encode capabilities) := by
  unfold capabilityStamp
  split <;> simp

/-- What a row was stamped with is read back; without a stamp the job has no capabilities either. -/
theorem stampedCapabilities_of_stamp {metadata : Metadata} {key : String}
    {capabilities fallback : List String} (stamped : metadata.lookup key =
      if capabilities.isEmpty then none else some (text.encode capabilities))
    (inherited : capabilities = [] → fallback = []) :
    stampedCapabilities text metadata key fallback = capabilities := by
  unfold stampedCapabilities
  rw [stamped]
  cases capabilities with
  | nil => exact inherited rfl
  | cons => simp [text.decode_encode]

end

/-! ### Timeouts -/

/-- The text is a duration, with nothing around it. -/
def UsableTimeout (timeout : String) : Prop :=
  trim timeout = timeout ∧ (parseDuration timeout).isSome = true

instance (timeout : String) : Decidable (UsableTimeout timeout) :=
  inferInstanceAs (Decidable (_ ∧ _))

theorem usableTimeout_default : UsableTimeout defaultExecutionTimeout := by
  decide

variable {metadata : Metadata} {timeout : String}

theorem effectiveTimeout_of_usable (stamped : metadata.lookup timeoutMetadataKey = some timeout)
    (usable : UsableTimeout timeout) (jobTimeout : Option String) :
    effectiveTimeout metadata jobTimeout = timeout := by
  simp [effectiveTimeout,stamped,usable.1,usable.2]

/-- A timeout on the row and on the job is in force exactly if it is usable. -/
theorem eq_effectiveTimeout_iff (stamped : metadata.lookup timeoutMetadataKey = some timeout) :
    timeout = effectiveTimeout metadata (some timeout) ↔ UsableTimeout timeout := by
  constructor
  · intro inForce
    by_cases readable : (parseDuration (trim timeout)).isSome = true
    · have trimmed : effectiveTimeout metadata (some timeout) = trim timeout := by
        simp [effectiveTimeout,stamped,readable]
      have same : trim timeout = timeout := (inForce.trans trimmed).symm
      exact ⟨same,same ▸ readable⟩
    · have default : effectiveTimeout metadata (some timeout) = defaultExecutionTimeout := by
        simp [effectiveTimeout,stamped,readable]
      rw [inForce,default]
      exact usableTimeout_default
  · intro usable
    exact (effectiveTimeout_of_usable stamped usable _).symm

theorem trim_trim (text : String) : trim (trim text) = trim text := by
  have ended : ∀ chars : List Char, trimEnd chars = chars.rdropWhile isWhitespace :=
    fun _ => rfl
  simp only [trim,String.toList_ofList,ended]
  generalize started : text.toList.dropWhile isWhitespace = chars
  have inner : (chars.rdropWhile isWhitespace).dropWhile isWhitespace =
      chars.rdropWhile isWhitespace := by
    have startKept : chars.dropWhile isWhitespace = chars := by
      rw [← started,dropWhile_idempotent]
    have isPrefix := chars.rdropWhile_prefix (p := isWhitespace)
    rw [dropWhile_eq_self_iff] at startKept ⊢
    intro nonempty
    rw [isPrefix.getElem nonempty]
    exact startKept (lt_of_lt_of_le nonempty isPrefix.length_le)
  rw [inner,rdropWhile_idempotent]

/-! ### Each producer against the rebuilt item -/

def DispatchJob.TimeoutUsable (job : DispatchJob) : Prop :=
  ∀ timeout, job.timeout = some timeout → UsableTimeout timeout

/-- What makes the item of a producer agree with the rebuilt one. -/
def WorkProducer.Follows (text : CapabilityText) (job : DispatchJob) : WorkProducer → Prop
  | .tick _ _ _ => job.TimeoutUsable
  | .adoption _ _ => job.TimeoutUsable
  | .trigger request _ _ => validateOptionalDuration request.timeout ≠ some none ∨ job.TimeoutUsable
  | .retry report _ _ _ =>
    stampedCapabilities text report.execution.metadata requireMetadataKey job.require =
        job.require ∧
      stampedCapabilities text report.execution.metadata preferMetadataKey job.prefer = job.prefer
  | .requeue _ => True
  | .restore _ => True

section

variable {text : CapabilityText} {job : DispatchJob}

structure Stamped (text : CapabilityText) (metadata : Metadata)
    (require prefer : List String) (timeout : Option String) : Prop where
  require : metadata.lookup requireMetadataKey =
    if require.isEmpty then none else some (text.encode require)
  prefer : metadata.lookup preferMetadataKey =
    if prefer.isEmpty then none else some (text.encode prefer)
  timeout : metadata.lookup timeoutMetadataKey = timeout

variable {metadata : Metadata} {timeout : Option String} {row : Execution}
  {item : DispatchItem} {id : Uuid} {now : Int}

theorem stamped_of_lookup (unstamped : job.Unstamped) {others : Metadata}
    {require prefer : List String}
    (found : ∀ key ∈ [requireMetadataKey,preferMetadataKey,timeoutMetadataKey],
      metadata.lookup key = ((capabilityStamps text require prefer ++ others).reverse.lookup
        key).or (job.metadata.lookup key))
    (noRequire : others.reverse.lookup requireMetadataKey = none)
    (noPrefer : others.reverse.lookup preferMetadataKey = none)
    (isTimeout : others.reverse.lookup timeoutMetadataKey = timeout) :
    Stamped text metadata require prefer timeout := by
  simp only [capabilityStamps,reverse_append,lookup_append] at found
  have otherKey {key other : String} (differs : key ≠ other) (capabilities : List String) :
      (capabilityStamp text other capabilities).reverse.lookup key = none := by
    unfold capabilityStamp
    split
    · rfl
    · simp [lookup_cons,beq_false_of_ne differs]
  constructor
  · rw [found _ (by simp),noRequire,otherKey (by decide : requireMetadataKey ≠ preferMetadataKey),
      lookup_capabilityStamp_self,unstamped.require]
    simp
  · rw [found _ (by simp),noPrefer,otherKey (by decide : preferMetadataKey ≠ requireMetadataKey),
      lookup_capabilityStamp_self,unstamped.prefer]
    simp
  · rw [found _ (by simp),otherKey (by decide : timeoutMetadataKey ≠ preferMetadataKey),
      otherKey (by decide : timeoutMetadataKey ≠ requireMetadataKey),unstamped.timeout,isTimeout]
    simp

theorem stamped_jobExecutionMetadata (text : CapabilityText) (unstamped : job.Unstamped) :
    Stamped text (jobExecutionMetadata text job) job.require job.prefer job.timeout := by
  apply stamped_of_lookup unstamped fun key _ => lookup_foldl_insertMetadata _ job.metadata key
  all_goals cases job.timeout <;> rfl

theorem stamped_triggeredMetadata (text : CapabilityText) (unstamped : job.Unstamped)
    (request : TriggerRequest) (timeout : String) :
    Stamped text (triggeredMetadata text request job timeout)
      (inheritedWhenEmpty request.require job.require)
      (inheritedWhenEmpty request.prefer job.prefer) (some timeout) := by
  have reserved : ∀ key ∈ [requireMetadataKey,preferMetadataKey,timeoutMetadataKey],
      Config.isReservedMetadataKey key = true ∧ key ≠ coalesceMetadataKey := by decide
  apply stamped_of_lookup unstamped
  · intro key isStamp
    exact lookup_triggerMetadata request job.toFoldJob _ (reserved key isStamp).1
      (reserved key isStamp).2
  all_goals rfl

/-- An item built with its row, with stamped capabilities, differs from the rebuilt one at most in
the timeout. -/
theorem agrees_iff_timeout (jobKey : item.jobKey = row.jobKey) (fireAt : item.fireAt = row.fireAt)
    (scheduledFor : item.scheduledFor = row.scheduledFor) (attempt : item.attempt = row.attempt)
    (stamped : Stamped text row.metadata item.require item.prefer timeout)
    (noRequire : item.require = [] → job.require = [])
    (noPrefer : item.prefer = [] → job.prefer = []) :
    item.Agrees (job.workItemFromExecution text row) ↔
      item.timeout = effectiveTimeout row.metadata job.timeout := by
  constructor
  · exact DispatchItem.Agrees.timeout
  · intro sameTimeout
    exact ⟨jobKey,fireAt,scheduledFor,attempt,
      (stampedCapabilities_of_stamp text stamped.require noRequire).symm,
      (stampedCapabilities_of_stamp text stamped.prefer noPrefer).symm,sameTimeout⟩

theorem eq_effectiveTimeout_of_job_iff
    (stamped : metadata.lookup timeoutMetadataKey = job.timeout) :
    job.timeout.getD "5m" = effectiveTimeout metadata job.timeout ↔ job.TimeoutUsable := by
  unfold DispatchJob.TimeoutUsable
  cases isSet : job.timeout with
  | none => simp [effectiveTimeout,stamped,isSet,defaultExecutionTimeout]
  | some =>
    rw [isSet] at stamped
    rw [Option.getD_some,eq_effectiveTimeout_iff stamped]
    simp

theorem fireRun_agrees_iff (unstamped : job.Unstamped) {fireAt : Int}
    (produced : fireRun text job id fireAt now = some (row, item)) :
    item.Agrees (job.workItemFromExecution text row) ↔ job.TimeoutUsable := by
  unfold fireRun at produced
  split at produced
  · cases produced
  cases produced
  have stamped := stamped_jobExecutionMetadata text unstamped
  rw [agrees_iff_timeout rfl rfl rfl rfl stamped (fun empty => empty) fun empty => empty]
  exact eq_effectiveTimeout_of_job_iff stamped.timeout

theorem usable_of_validateOptionalDuration {value : Option String} {requested : String}
    (valid : validateOptionalDuration value = some (some requested)) : UsableTimeout requested := by
  unfold validateOptionalDuration at valid
  split at valid
  · cases valid
  rename_i trimmed present
  split at valid
  · rename_i readable
    cases valid
    obtain ⟨mapped,-⟩ := Option.filter_eq_some_iff.mp present
    obtain ⟨raw,-,rfl⟩ := Option.map_eq_some_iff.mp mapped
    exact ⟨trim_trim raw,readable⟩
  · cases valid

theorem eq_nil_of_inheritedWhenEmpty {requested inherited : List String}
    (empty : inheritedWhenEmpty requested inherited = []) : inherited = [] := by
  unfold inheritedWhenEmpty at empty
  split at empty
  · exact empty
  · rename_i notEmpty
    simp [empty] at notEmpty

theorem triggerRun_agrees_iff (unstamped : job.Unstamped) {request : TriggerRequest}
    (produced : triggerRun text request job id now = some (row, item)) :
    item.Agrees (job.workItemFromExecution text row) ↔
      validateOptionalDuration request.timeout ≠ some none ∨ job.TimeoutUsable := by
  obtain ⟨requestedTimeout,valid,made⟩ := Option.map_eq_some_iff.mp produced
  cases made
  have stamped := stamped_triggeredMetadata text unstamped request
    ((requestedTimeout.or job.timeout).getD defaultTriggerTimeout)
  rw [agrees_iff_timeout rfl rfl rfl rfl stamped eq_nil_of_inheritedWhenEmpty
    eq_nil_of_inheritedWhenEmpty,valid]
  cases requestedTimeout with
  | some =>
    have usable := usable_of_validateOptionalDuration valid
    simpa [newExecution] using (effectiveTimeout_of_usable stamped.timeout usable _).symm
  | none =>
    unfold DispatchJob.TimeoutUsable
    cases isSet : job.timeout with
    | none =>
      rw [isSet] at stamped
      have default := effectiveTimeout_of_usable stamped.timeout usableTimeout_default none
      simpa [newExecution] using default.symm
    | some =>
      rw [isSet] at stamped
      simpa [newExecution] using eq_effectiveTimeout_iff stamped.timeout

end

/-- The item of every producer agrees with the one rebuilt from its row exactly under the
condition of the producer. -/
theorem work_items_follow_rows_iff (text : CapabilityText) (producer : WorkProducer)
    {job : DispatchJob} (unstamped : job.Unstamped) {row : Execution} {item : DispatchItem}
    (produced : producer.produce text job = some (row, item)) :
    item.Agrees (job.workItemFromExecution text row) ↔ producer.Follows text job := by
  cases producer with
  | tick id fireAt now | adoption => exact fireRun_agrees_iff unstamped produced
  | trigger => exact triggerRun_agrees_iff unstamped produced
  | retry =>
    cases produced
    constructor
    · intro agrees
      exact ⟨agrees.require.symm,agrees.prefer.symm⟩
    · rintro ⟨require,prefer⟩
      exact ⟨rfl,rfl,rfl,rfl,require.symm,prefer.symm,rfl⟩
  | requeue row | restore =>
    cases produced
    exact ⟨fun _ => trivial,fun _ => ⟨rfl,rfl,rfl,rfl,rfl,rfl,rfl⟩⟩

/-! ### A run and its retry -/

def controlDigits (code : Nat) : Char × Char :=
  (Nat.digitChar (code / 16), Nat.digitChar (code % 16))

/-- A character of a JSON string. -/
def jsonChar (char : Char) : List Char :=
  if char = '"' ∨ char = '\\' then ['\\',char]
  else if char.toNat < 32 then
    ['\\','u','0','0',(controlDigits char.toNat).1,(controlDigits char.toNat).2]
  else [char]

/-- A JSON string after its opening quote. -/
def jsonString (text : String) : List Char :=
  text.toList.flatMap jsonChar ++ ['"']

/-- The entries of a JSON array, from within the first one. -/
def readJson : List Char → List Char → Option (List String)
  | ['"',']'], entry => some [String.ofList entry.reverse]
  | '"' :: ',' :: '"' :: rest, entry =>
    (readJson rest []).map fun entries => String.ofList entry.reverse :: entries
  | '\\' :: 'u' :: '0' :: '0' :: high :: low :: rest, entry =>
    ((range 32).find? (controlDigits · = (high, low))).bind fun code =>
      readJson rest (Char.ofNat code :: entry)
  | '\\' :: char :: rest, entry =>
    if char = '"' ∨ char = '\\' then readJson rest (char :: entry) else none
  | char :: rest, entry =>
    if char = '"' ∨ char = '\\' ∨ char.toNat < 32 then none else readJson rest (char :: entry)
  | [], _ => none

theorem readJson_jsonChar (char : Char) (rest entry : List Char) :
    readJson (jsonChar char ++ rest) entry = readJson rest (char :: entry) := by
  unfold jsonChar
  split
  · rename_i isMark
    rcases isMark with rfl | rfl <;> rfl
  rename_i notMark
  split
  · rename_i isControl
    have found : ∀ code < 32,
        (range 32).find? (controlDigits · = controlDigits code) = some code := by decide
    simp [readJson,found _ isControl]
  · rename_i notControl
    simp_all [readJson]

theorem readJson_jsonString (chars rest entry : List Char) :
    readJson (chars.flatMap jsonChar ++ rest) entry = readJson rest (chars.reverse ++ entry) := by
  induction chars generalizing entry with
  | nil => rfl
  | cons char chars ih =>
    rw [flatMap_cons,append_assoc,readJson_jsonChar,ih,reverse_cons,append_assoc]
    rfl

/-- Capabilities as a JSON array of strings. -/
def jsonText : CapabilityText where
  encode
    | [] => "[]"
    | first :: rest => String.ofList ('[' :: '"' :: jsonString first ++
        rest.flatMap (fun entry => ',' :: '"' :: jsonString entry) ++ [']'])
  decode text :=
    match text.toList with
    | ['[',']'] => some []
    | '[' :: '"' :: rest => readJson rest []
    | _ => none
  decode_encode := by
    rintro (_ | ⟨first,rest⟩)
    · rfl
    · simp only [String.toList_ofList,cons_append]
      induction rest generalizing first with
      | nil =>
        rw [jsonString,append_assoc,append_assoc,readJson_jsonString]
        simp [readJson]
      | cons second rest ih =>
        rw [jsonString,append_assoc,append_assoc,readJson_jsonString]
        simpa [readJson] using ih second

def shortJob : DispatchJob where
  key := "report:daily"
  metadata := []
  maxQueueDepth := none
  require := ["cpu"]
  prefer := []
  timeout := some "30s"
  isEphemeral := false

/-- A trigger that asks for another runner and more time. -/
def longRequest : TriggerRequest where
  jobKey := "report:daily"
  payload := .null
  require := ["gpu"]
  prefer := []
  timeout := some "4h"
  idempotencyKey := none

theorem work_items_follow_rows_triggered :
    ∃ row item, (WorkProducer.trigger longRequest 1 0).produce jsonText shortJob =
        some (row, item) ∧
      item.require = ["gpu"] ∧ item.timeout = "4h" ∧
      item.Agrees (shortJob.workItemFromExecution jsonText row) := by
  have ⟨row,item,produced,require,timeout⟩ : ∃ row item,
      (WorkProducer.trigger longRequest 1 0).produce jsonText shortJob = some (row, item) ∧
      item.require = ["gpu"] ∧ item.timeout = "4h" :=
    ⟨_,_,rfl,by decide,by decide⟩
  refine ⟨row,item,produced,require,timeout,?_⟩
  rw [work_items_follow_rows_iff jsonText _ ⟨rfl,rfl,rfl⟩ produced]
  exact .inl (by decide)

/-- The run fails, and its policy grants another attempt. -/
def failedReport (execution : Execution) : Report where
  event :=
    { runnerId := "r1", executionId := .uuid execution.id, status := .failure, error := none
      durationMs := 1000, attempt := 1 }
  now := 60000000000
  execution := execution
  job :=
    { policy :=
        { retry := { strategy := .fixed 0, maxAttempts := 3 }
          timeout := { duration := 30000000000 }
          deadLetter := { enabled := false, retention := 0, operatorHint := none } }
      require := shortJob.require }

/-- The retry of a triggered run asks for another runner than its row, and an unreadable timeout
is handed out with the fire only. -/
theorem work_items_leave_rows : (∃ row item retryRow retryItem,
      (WorkProducer.trigger longRequest 1 0).produce jsonText shortJob = some (row, item) ∧
      (failedReport row).decision id = .retry 2 0 ∧
      (WorkProducer.retry (failedReport row) 2 2 0).produce jsonText shortJob =
        some (retryRow, retryItem) ∧
      retryItem.require = ["cpu"] ∧
      (shortJob.workItemFromExecution jsonText retryRow).require = ["gpu"]) ∧
    ∃ row item,
      (WorkProducer.tick 1 0 0).produce jsonText { shortJob with timeout := some "5min" } =
        some (row, item) ∧
      item.timeout = "5min" ∧
      (DispatchJob.workItemFromExecution jsonText { shortJob with timeout := some "5min" }
        row).timeout = "5m" :=
  ⟨⟨_,_,_,_,rfl,by decide,rfl,by decide,by decide⟩,⟨_,_,rfl,by decide,by decide⟩⟩

end Croniq
