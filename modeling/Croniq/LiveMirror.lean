import Croniq.JobRequests

/-!
# Live edits and the running scheduler

After a request has written its row the scheduler is behind the store, until the
request has sent its command.
-/

namespace Croniq

open Function List

namespace Config

open CallPrograms KeyedTables LabelledRuns

/-! ### What the rows call for -/

section Mirror

variable (platform : Platform) (view : FileView) (calendars : List CalendarDefinition)

/-- The trigger and the configuration of a job's enabled row, if its expression reads and the job
is not inactive. -/
def calledFor (job : Option JobDefinition) (rows : List TriggerDefinition) :
    Option (TriggerSpec × JobConfig) :=
  if markedInactive job then none
  else
    (rows.find? TriggerDefinition.usable).bind fun row =>
      (row.schedule? platform.parsers).map fun schedule =>
        ((specFromDefinition platform (resolvedCalendars platform view calendars) row schedule).1,
          jobConfigFromDefinition platform row job)

section

variable (running : RunningScheduler)

/-- The scheduler holds the job as called for. -/
def RunningScheduler.Holds (key : String) : Option (TriggerSpec × JobConfig) → Prop
  | none => running.triggers key = none ∧ running.jobs key = none
  | some (spec, config) =>
    running.jobs key = some config ∧
      ∃ trigger, running.triggers key = some trigger ∧ trigger.definition = spec.definition

/-- The scheduler after it has applied the commands, each at its instant. -/
def RunningScheduler.after (applied : List (SchedulerCommand × Int)) : RunningScheduler :=
  applied.foldl (fun running (command, now) => running.applyCommand now command) running

/-- Once the scheduler has applied what was sent, it holds what the rows of the job call
for. -/
def LiveStore.Mirrored (store : LiveStore) (key : String) : Prop :=
  view.isDslManaged key = false →
    ∀ applied : List (SchedulerCommand × Int), applied.map Prod.fst = store.sent →
      (running.after applied).Holds key
        (calledFor platform view calendars (store.jobs.find? key) (store.rowsOf key))

end

/-- The command that brings about what is called for. -/
def commandFor (key : String) (now : Int) : Option (TriggerSpec × JobConfig) → SchedulerCommand
  | none => .removeJob key
  | some (spec, config) => .addJob config (spec.build now)

variable {key : String} {command : SchedulerCommand} {what : JobCall} {store : LiveStore}
  {known : Known} {reads : SyncReads} {now : Int} {target : Option (TriggerSpec × JobConfig)}
  {rows : List TriggerDefinition} {next : Int → Option what.Answer → EditHandler}
  {job : JobDefinition}

theorem RunningScheduler.holds_applyCommand_self (running : RunningScheduler)
    (ofKey : ∀ wanted ∈ target, wanted.2.key = key) (built now : Int) :
    (running.applyCommand now (commandFor key built target)).Holds key target := by
  cases target with
  | none => simp [commandFor,applyCommand,Holds]
  | some wanted =>
    obtain rfl := ofKey wanted rfl
    simp [commandFor,applyCommand,Holds,definition_rebuiltTrigger,Trigger.definition_build]

theorem RunningScheduler.holds_applyCommand_of_ne {running : RunningScheduler}
    (holds : running.Holds key target) (isOther : key ≠ command.jobKey) (now : Int) :
    (running.applyCommand now command).Holds key target := by
  have sameTrigger : (running.applyCommand now command).triggers key = running.triggers key := by
    cases command <;> exact update_of_ne isOther _ _
  have sameJob : (running.applyCommand now command).jobs key = running.jobs key := by
    cases command <;> exact update_of_ne isOther _ _
  cases target with
  | none | some => simpa [Holds,sameTrigger,sameJob] using holds

theorem calledFor_key (job : Option JobDefinition) (ofKey : ∀ row ∈ rows, row.jobKey = key) :
    ∀ wanted ∈ calledFor platform view calendars job rows, wanted.2.key = key := by
  intro wanted isWanted
  unfold calledFor at isWanted
  split at isWanted
  · cases isWanted
  · obtain ⟨row,found,built⟩ := Option.bind_eq_some_iff.mp isWanted
    obtain ⟨schedule,-,rfl⟩ := Option.map_eq_some_iff.mp built
    exact ofKey row (mem_of_find?_eq_some found)

/-! ### What a request has seen -/

/-- What a request has last read or written of a job, and the row it has looked up. -/
structure EditView where
  job : Option (Option JobDefinition)
  rows : Option (List TriggerDefinition)
  lookup : Option (Option TriggerDefinition)

def editObserver : Observer JobCall JobCall.Answer EditView where
  initial := { job := none, rows := none, lookup := none }
  observe seen
    | .getJobDefinition _ _, job => { seen with job := some job }
    | .createJobDefinition job, _ => { seen with job := some (some job) }
    | .deleteJobDefinition _, _ => { seen with job := some none, rows := some [] }
    | .getTrigger _, row => { seen with lookup := some row }
    | .listTriggers _, rows => { seen with rows := some rows }
    | .createTrigger row, _ => { seen with rows := some [row] }
    | .updateTrigger row, _ => { seen with rows := some [row] }
    | .deleteTrigger _, _ => { seen with rows := some [] }
    | .listCalendars, _ => seen
    | .send _, _ => seen

/-- The rows of the job are as the request has seen them. -/
structure EditView.InTime (seen : EditView) (store : LiveStore) (key : String) : Prop where
  job : ∀ job ∈ seen.job, store.jobs.find? key = job
  rows : ∀ rows ∈ seen.rows, store.rowsOf key = rows

/-- A command is sent in time, a row is changed while it belongs to the job looked up, and a new
row has a new id. -/
def EditView.Timely (seen : EditView) (store : LiveStore) : JobCall → Prop
  | .createTrigger row => store.triggers.find? row.triggerId = none
  | .updateTrigger row => ∀ stored ∈ store.triggers.find? row.triggerId, stored.jobKey = row.jobKey
  | .deleteTrigger triggerId =>
    ∀ stored ∈ store.triggers.find? triggerId,
      ∃ row, seen.lookup = some (some row) ∧ stored.jobKey = row.jobKey
  | .send command => seen.InTime store command.jobKey
  | _ => True

/-- The reads of a sync must not fail, and sending does not. -/
def JobCall.mayFail : JobCall → Bool
  | .getJobDefinition .sync _ | .listTriggers _ | .listCalendars | .send _ => false
  | _ => true

def JobCall.Commands : JobCall → String → Prop
  | .send command, key => command.jobKey = key
  | _, _ => False

def mirrorDuties (running : RunningScheduler) : Duties LiveStore JobCall EditView String where
  Settled := LiveStore.Mirrored platform view calendars running
  Settles := JobCall.Commands
  mayFail := JobCall.mayFail
  Condition := EditView.Timely

theorem JobCall.mayFail_of_commands (commands : what.Commands key) : what.mayFail = false := by
  cases what with
  | send => rfl
  | _ => exact commands.elim

variable {platform view calendars} {running : RunningScheduler}

theorem LiveStore.Mirrored.of_same {after : LiveStore}
    (mirrored : store.Mirrored platform view calendars running key)
    (sent : after.sent = store.sent) (job : after.jobs.find? key = store.jobs.find? key)
    (rows : after.rowsOf key = store.rowsOf key) :
    after.Mirrored platform view calendars running key := by
  intro notInFile applied isSent
  rw [job,rows]
  exact mirrored notInFile applied (isSent.trans sent)

def JobCall.changes (store : LiveStore) : JobCall → Option String
  | .createJobDefinition job => some job.jobKey
  | .deleteJobDefinition jobKey => some jobKey
  | .createTrigger row => some row.jobKey
  | .updateTrigger row => if store.triggers.rows.any (LiveStore.editable row) then some row.jobKey
      else none
  | .deleteTrigger triggerId => (store.triggers.find? triggerId).map TriggerDefinition.jobKey
  | _ => none

theorem LiveStore.rowsOf_updateTrigger (store : LiveStore) (row : TriggerDefinition)
    (others : ∀ stored ∈ store.triggers.rows, editable row stored = true → stored.jobKey ≠ key) :
    (store.updateTrigger row).rows.filter (·.jobKey = key) = store.rowsOf key := by
  have sameKey : ∀ stored : TriggerDefinition,
      (changeWhere (editable row) (fun old =>
        { old with
          cronExpression := row.cronExpression
          timezone := row.timezone
          calendar := row.calendar
          window := row.window
          enabled := row.enabled }) stored).jobKey = stored.jobKey := by
    intro stored
    unfold changeWhere
    split <;> rfl
  unfold updateTrigger rowsOf Table.updateWhere
  simp only [filter_map,comp_def,sameKey]
  refine (map_congr_left fun stored member => ?_).trans (map_id _)
  obtain ⟨isStored,ofKey⟩ := mem_filter.mp member
  rw [changeWhere,if_neg fun isEditable => others stored isStored isEditable (by simpa using ofKey)]
  rfl

variable {seen : EditView}

theorem LiveStore.perform_same (timely : seen.Timely store what)
    (isOther : what.changes store ≠ some key) :
    (store.perform calendars what).2.jobs.find? key = store.jobs.find? key ∧
      (store.perform calendars what).2.rowsOf key = store.rowsOf key := by
  cases what with
  | createJobDefinition job =>
    have keyNe : job.jobKey ≠ key := fun same => isOther (congrArg some same)
    refine ⟨?_,rfl⟩
    have upserted := store.jobs.find?_upsert id job
      (fun old => { job with jobKey := old.jobKey }) (fun _ => rfl)
      (fun old sameKey => by rw [id,sameKey]; rfl) key
    simpa [keyNe,perform,createJobDefinition] using upserted
  | deleteJobDefinition jobKey =>
    have keyNe : jobKey ≠ key := fun same => isOther (congrArg some same)
    refine ⟨(store.jobs.find?_delete jobKey key).trans (if_neg keyNe),?_⟩
    simp only [perform,rowsOf,Table.deleteWhere,filter_filter]
    refine filter_congr fun row _ => ?_
    by_cases ofKey : row.jobKey = key <;> simp [ofKey,Ne.symm keyNe]
  | createTrigger row =>
    have keyNe : row.jobKey ≠ key := fun same => isOther (congrArg some same)
    obtain ⟨inserted,inserts⟩ := store.triggers.exists_insert_of_find?_eq_none timely
    refine ⟨rfl,?_⟩
    simp only [perform,createTrigger,inserts,Option.getD_some,rowsOf,
      store.triggers.rows_insert inserts,filter_append]
    simp [keyNe]
  | updateTrigger row =>
    refine ⟨rfl,store.rowsOf_updateTrigger row fun stored member isEditable ofKey => ?_⟩
    have sameId : stored.triggerId = row.triggerId := by
      simp only [editable,Bool.and_eq_true,decide_eq_true_eq] at isEditable
      exact isEditable.1
    have ofRow : stored.jobKey = row.jobKey :=
      timely stored (store.triggers.find?_eq_some_iff.mpr ⟨member,sameId⟩)
    apply isOther
    rw [JobCall.changes,if_pos (any_eq_true.mpr ⟨stored,member,isEditable⟩),← ofRow,ofKey]
  | deleteTrigger triggerId =>
    refine ⟨rfl,?_⟩
    simp only [perform,rowsOf,Table.delete,filter_filter]
    refine filter_congr fun row member => ?_
    by_cases ofKey : row.jobKey = key
    · have idNe : row.triggerId ≠ triggerId := by
        intro sameId
        apply isOther
        rw [JobCall.changes,store.triggers.find?_eq_some_iff.mpr ⟨member,sameId⟩,
          Option.map_some,ofKey]
      simp [ofKey,idNe]
    · simp [ofKey]
  | _ => exact ⟨rfl,rfl⟩

theorem LiveStore.perform_sent (silent : ∀ key, ¬ what.Commands key) (store : LiveStore) :
    (store.perform calendars what).2.sent = store.sent := by
  cases what with
  | send command => exact absurd rfl (silent command.jobKey)
  | _ => rfl

/-! ### Programs that mind what they owe -/

abbrev EditHandler.Owes (platform : Platform) (view : FileView)
    (calendars : List CalendarDefinition) (running : RunningScheduler) (key : String)
    (program : EditHandler) : Prop :=
  Program.Owes (LiveStore.perform calendars) (mirrorDuties platform view calendars running) key
    program

abbrev EditHandler.Minds (platform : Platform) (view : FileView)
    (calendars : List CalendarDefinition) (running : RunningScheduler) (seen : EditView)
    (program : EditHandler) : Prop :=
  Program.Minds (LiveStore.perform calendars) editObserver
    (mirrorDuties platform view calendars running) seen program

theorem minds_call (silent : ∀ key, ¬ what.Commands key)
    (owed : ∀ now store key, seen.Timely store what → what.changes store = some key →
      (next now (some (store.perform calendars what).1)).Owes platform view calendars running key ∨
        view.isDslManaged key = true)
    (answered : ∀ now (store : LiveStore), seen.Timely store what →
      (next now (some (store.perform calendars what).1)).Minds platform view calendars running
        (editObserver.observe seen what (store.perform calendars what).1))
    (failed : what.mayFail = true → ∀ now,
      (next now none).Minds platform view calendars running seen) :
    EditHandler.Minds platform view calendars running seen (.call what next) := by
  intro now
  refine ⟨fun store timely => ⟨⟨fun key commands => (silent key commands).elim,?_⟩,
    answered now store timely⟩,fun mayFail => failed mayFail now⟩
  intro key mirrored
  by_cases changes : what.changes store = some key
  · obtain owes | inFile := owed now store key timely changes
    · exact .inr owes
    · exact .inl fun notInFile => absurd inFile (by simp [notInFile])
  · obtain ⟨sameJob,sameRows⟩ := LiveStore.perform_same timely changes
    exact .inl (mirrored.of_same (LiveStore.perform_sent silent store) sameJob sameRows)

theorem minds_read
    (silent : ∀ key, ¬ what.Commands key) (unchanging : ∀ store, what.changes store = none)
    (answered : ∀ now (store : LiveStore),
      (next now (some (store.perform calendars what).1)).Minds platform view calendars running
        (editObserver.observe seen what (store.perform calendars what).1))
    (failed : what.mayFail = true → ∀ now,
      (next now none).Minds platform view calendars running seen) :
    EditHandler.Minds platform view calendars running seen (.call what next) := by
  refine minds_call silent ?_ (fun now store _ => answered now store) failed
  intro now store key timely changes
  rw [unchanging store] at changes
  cases changes

theorem exists_of_map_fst_append {sent : List SchedulerCommand}
    {applied : List (SchedulerCommand × Int)} (isSent : applied.map Prod.fst = sent ++ [command]) :
    ∃ before appliedAt, applied = before ++ [(command, appliedAt)] ∧
      before.map Prod.fst = sent := by
  obtain ⟨before,last,rfl,isBefore,isLast⟩ := map_eq_append_iff.mp isSent
  obtain ⟨⟨other,appliedAt⟩,rfl,rfl⟩ := map_eq_singleton_iff.mp isLast
  exact ⟨before,appliedAt,rfl,isBefore⟩

theorem mirrored_send_self {built : Int} (right : command = commandFor command.jobKey built
      (calledFor platform view calendars (store.jobs.find? command.jobKey)
        (store.rowsOf command.jobKey))) :
    (store.perform calendars (.send command)).2.Mirrored platform view calendars running
      command.jobKey := by
  intro _ applied isSent
  obtain ⟨before,appliedAt,rfl,-⟩ := exists_of_map_fst_append isSent
  have ofKey : ∀ row ∈ store.rowsOf command.jobKey, row.jobKey = command.jobKey := by
    simp [LiveStore.rowsOf]
  have holds := (running.after before).holds_applyCommand_self
    (calledFor_key platform view calendars (store.jobs.find? command.jobKey) ofKey) built appliedAt
  rw [← right] at holds
  rw [RunningScheduler.after,foldl_append]
  exact holds

theorem mirrored_send_of_ne (isOther : key ≠ command.jobKey)
    (mirrored : store.Mirrored platform view calendars running key) :
    (store.perform calendars (.send command)).2.Mirrored platform view calendars running key := by
  intro notInFile applied isSent
  obtain ⟨before,appliedAt,rfl,isBefore⟩ := exists_of_map_fst_append isSent
  rw [RunningScheduler.after,foldl_append]
  exact RunningScheduler.holds_applyCommand_of_ne (mirrored notInFile before isBefore) isOther
    appliedAt

/-- A command may be sent if it brings about what the rows call for, as long as these are as seen.
-/
theorem minds_send (answer : EditAnswer) (right : ∀ store, seen.InTime store command.jobKey →
      ∃ now, command = commandFor command.jobKey now
        (calledFor platform view calendars (store.jobs.find? command.jobKey)
          (store.rowsOf command.jobKey))) :
    (sendThen (some command) (.done answer)).Minds platform view calendars running seen := by
  intro now
  refine ⟨fun store inTime => ?_,nofun⟩
  obtain ⟨built,isRight⟩ := right store inTime
  refine ⟨⟨?_,?_⟩,trivial⟩
  · rintro key rfl
    exact mirrored_send_self isRight
  · intro key mirrored
    by_cases isOwn : key = command.jobKey
    · subst isOwn
      exact .inl (mirrored_send_self isRight)
    · exact .inl (mirrored_send_of_ne isOwn mirrored)

/-! ### The sync -/

/-- What the caller of a sync brings is right: the row written, and the calendars in force. -/
structure Known.Fits (platform : Platform) (view : FileView) (calendars : List CalendarDefinition)
    (seen : EditView) (key : String) (known : Known) : Prop where
  edited : ∀ edited ∈ known.edited, edited.jobKey = key ∧ seen.rows = some [edited]
  calendars : ∀ brought ∈ known.calendars, brought = resolvedCalendars platform view calendars

theorem exists_command_syncJobWith (now : Int) (notInFile : view.isDslManaged key = false)
    (ofKey : ∀ row ∈ known.triggerDefinition reads, row.jobKey = key) :
    ∃ command, (syncJobWith platform view now reads known key).command key = some command ∧
      command.jobKey = key := by
  unfold syncJobWith
  simp only [notInFile,Bool.false_eq_true,if_false]
  split
  · exact ⟨_,rfl,rfl⟩
  split
  · exact ⟨_,rfl,rfl⟩
  next row isRow =>
    split
    · exact ⟨_,rfl,rfl⟩
    · exact ⟨_,rfl,ofKey row isRow⟩

/-- The program minds its debts, and owes its job a command. -/
abbrev EditHandler.Syncs (platform : Platform) (view : FileView)
    (calendars : List CalendarDefinition) (running : RunningScheduler) (seen : EditView)
    (key : String) (program : EditHandler) : Prop :=
  program.Minds platform view calendars running seen ∧
    program.Owes platform view calendars running key

theorem syncs_conclude {answer : EditAnswer} {job : Option JobDefinition}
    (notInFile : view.isDslManaged key = false)
    (ofKey : ∀ row ∈ known.triggerDefinition reads, row.jobKey = key)
    (readsJob : reads.jobDefinition = some job) (seenJob : seen.job = some job)
    (right : markedInactive job = false → ∃ rows, seen.rows = some rows ∧
      known.triggerDefinition reads = rows.find? TriggerDefinition.usable ∧
      ((rows.find? TriggerDefinition.usable).isSome →
        known.calendars.getD (resolvedCalendars platform view (reads.calendars.getD [])) =
          resolvedCalendars platform view calendars)) :
    (sendThen ((syncJobWith platform view now reads known key).command key)
      (.done answer)).Syncs platform view calendars running seen key := by
  obtain ⟨command,isCommand,isKey⟩ := exists_command_syncJobWith now notInFile ofKey
  rw [isCommand]
  subst isKey
  refine ⟨minds_send answer fun store inTime => ⟨now,Option.some.inj (isCommand.symm.trans ?_)⟩,
    .inl rfl⟩
  rw [inTime.job _ seenJob]
  unfold syncJobWith calledFor
  simp only [notInFile,readsJob,Option.getD_some,Bool.false_eq_true,if_false]
  cases inactive : markedInactive job with
  | true => rfl
  | false =>
    obtain ⟨rows,isKnown,picks,resolves⟩ := right inactive
    rw [inTime.rows _ isKnown,picks]
    cases found : rows.find? TriggerDefinition.usable with
    | none => rfl
    | some row =>
      rw [resolves (by simp [found])]
      simp only [triggerFromDefinition,Option.bind_some]
      cases row.schedule? platform.parsers <;> rfl

theorem syncs_read (silent : ∀ key, ¬ what.Commands key)
    (unchanging : ∀ store, what.changes store = none) (answers : what.mayFail = false)
    (answered : ∀ now (store : LiveStore),
      (next now (some (store.perform calendars what).1)).Syncs platform view calendars running
        (editObserver.observe seen what (store.perform calendars what).1) key) :
    EditHandler.Syncs platform view calendars running seen key (.call what next) := by
  have noFailure : ¬ what.mayFail = true := by simp [answers]
  refine ⟨minds_read silent unchanging (fun now store => (answered now store).1)
    fun fails => absurd fails noFailure,.inr fun now => ?_⟩
  exact ⟨fun store => (answered now store).2,fun fails => absurd fails noFailure⟩

theorem syncs_readCalendars {next : Int → SyncReads → EditHandler}
    (brings : ∀ brought ∈ known.calendars, brought = resolvedCalendars platform view calendars)
    (goesOn : ∀ now read,
      known.calendars.getD (resolvedCalendars platform view (read.getD [])) =
        resolvedCalendars platform view calendars →
      (next now { reads with calendars := read }).Syncs platform view calendars running seen key) :
    (readCalendars known reads next now).Syncs platform view calendars running seen key := by
  unfold readCalendars
  split
  next brought isBrought =>
    exact goesOn now reads.calendars (by rw [isBrought]; exact brings brought isBrought)
  next notBrought =>
    refine syncs_read (fun _ => id) (fun _ => rfl) rfl fun now store => ?_
    exact goesOn now (some calendars) (by rw [notBrought]; rfl)

theorem Known.Fits.triggerDefinition_key (fits : known.Fits platform view calendars seen key)
    (ofKey : ∀ row ∈ reads.triggers.getD [], row.jobKey = key) :
    ∀ row ∈ known.triggerDefinition reads, row.jobKey = key := by
  intro row isRow
  unfold Known.triggerDefinition at isRow
  split at isRow
  next edited isEdited =>
    split at isRow
    · obtain rfl := Option.some.inj isRow
      exact (fits.edited _ isEdited).1
    · cases isRow
  next => exact ofKey row (mem_of_find?_eq_some isRow)

theorem syncs_syncThen (fits : known.Fits platform view calendars seen key) (answer : EditAnswer) :
    let program := syncThen platform view known key (.done answer)
    program.Minds platform view calendars running seen ∧
      (program.Owes platform view calendars running key ∨ view.isDslManaged key = true) := by
  intro program
  by_cases inFile : view.isDslManaged key = true
  · refine ⟨?_,.inr inFile⟩
    simp only [program,syncThen,inFile,if_true]
    trivial
  have notInFile : view.isDslManaged key = false := by simpa using inFile
  suffices syncs : program.Syncs platform view calendars running seen key from
    ⟨syncs.1,.inl syncs.2⟩
  simp only [program,syncThen,notInFile,Bool.false_eq_true,if_false]
  refine syncs_read (fun _ => id) (fun _ => rfl) rfl fun now store => ?_
  dsimp only [LiveStore.perform,editObserver,Option.getD_some]
  split
  next isInactive =>
    have inactive : markedInactive (store.jobs.find? key) = true := isInactive
    exact syncs_conclude notInFile (fits.triggerDefinition_key (by simp)) rfl rfl
      (by simp [inactive])
  split
  next edited isEdited =>
    have isKnown := (fits.edited edited isEdited).2
    have picks : ∀ reads, known.triggerDefinition reads =
        [edited].find? TriggerDefinition.usable := by
      intro reads
      simp only [Known.triggerDefinition,isEdited,find?_singleton]
    split
    next usable =>
      refine syncs_readCalendars fits.calendars fun now read resolves => ?_
      exact syncs_conclude notInFile (fits.triggerDefinition_key (by simp)) rfl rfl
        fun _ => ⟨_,isKnown,picks _,fun _ => resolves⟩
    next notUsable =>
      exact syncs_conclude notInFile (fits.triggerDefinition_key (by simp)) rfl rfl
        fun _ => ⟨_,isKnown,picks _,by simp [notUsable]⟩
  next notEdited =>
    refine syncs_read (fun _ => id) (fun _ => rfl) rfl fun now reading => ?_
    have picks : ∀ reads : SyncReads, reads.triggers = some (reading.rowsOf key) →
        known.triggerDefinition reads = (reading.rowsOf key).find? TriggerDefinition.usable := by
      intro reads isRead
      simp only [Known.triggerDefinition,notEdited,isRead,Option.getD_some]
    have ofKey : ∀ row ∈ reading.rowsOf key, row.jobKey = key := by simp [LiveStore.rowsOf]
    split
    next found =>
      refine syncs_readCalendars fits.calendars fun now read resolves => ?_
      exact syncs_conclude notInFile (fits.triggerDefinition_key ofKey) rfl rfl
        fun _ => ⟨_,rfl,picks _ rfl,fun _ => resolves⟩
    next notFound =>
      exact syncs_conclude notInFile (fits.triggerDefinition_key ofKey) rfl rfl
        fun _ => ⟨_,rfl,picks _ rfl,fun found => absurd found notFound⟩

/-! ### The handlers -/

theorem Known.fits_nothing (seen : EditView) (key : String) :
    ({} : Known).Fits platform view calendars seen key where
  edited _ isEdited := by cases isEdited
  calendars _ isBrought := by cases isBrought

theorem Known.fits_edited (platform : Platform) (view : FileView)
    (calendars : List CalendarDefinition) (seen : EditView) (edited : TriggerDefinition) :
    Known.Fits platform view calendars { seen with rows := some [edited] } edited.jobKey
      { edited := edited
        calendars := resolvedCalendars platform view ((some calendars).getD []) } where
  edited row isEdited := by
    obtain rfl := Option.some.inj isEdited
    exact ⟨rfl,rfl⟩
  calendars _ isBrought := (Option.some.inj isBrought).symm

theorem calledFor_nil (job : Option JobDefinition) :
    calledFor platform view calendars job [] = none := by
  unfold calledFor
  split <;> rfl

theorem minds_writeJob (ofKey : job.jobKey = key) (failure : EditAnswer) :
    EditHandler.Minds platform view calendars running seen
      (.call (.createJobDefinition job) fun _ written =>
        match written with
        | none => .done failure
        | some _ => syncThen platform view {} key (.done (.job job))) := by
  refine minds_call (fun _ => id) ?_ (fun _ _ _ => (syncs_syncThen (Known.fits_nothing _ _) _).1)
    fun _ _ => trivial
  intro now store changed timely changes
  obtain rfl : key = changed := ofKey.symm.trans (Option.some.inj changes)
  exact (syncs_syncThen (Known.fits_nothing seen key) _).2

variable (caller : Auth.CallerContext)

theorem minds_changeJob (key : String)
    {change : JobDefinition → Except JobError JobDefinition}
    (keepsKey : ∀ job changed, change job = .ok changed → changed.jobKey = job.jobKey) :
    (changeJob platform view caller key change).Minds platform view calendars running seen := by
  unfold changeJob
  split
  · trivial
  split
  · trivial
  refine minds_read (fun _ => id) (fun _ => rfl) (fun now store => ?_) fun _ _ => trivial
  dsimp only [LiveStore.perform]
  cases found : store.jobs.find? key with
  | none => trivial
  | some job =>
    dsimp only
    cases changes : change job with
    | error error => trivial
    | ok changed =>
      exact minds_writeJob
        ((keepsKey job changed changes).trans (store.jobs.key_of_find? found)) _

theorem minds_handleCreateJob (request : CreateJobRequest) :
    (handleCreateJob platform view caller request).Minds platform view calendars running seen := by
  unfold handleCreateJob
  split
  · trivial
  split
  · trivial
  refine minds_read (fun _ => id) (fun _ => rfl) (fun now store => ?_) fun _ _ => trivial
  dsimp only [LiveStore.perform]
  cases store.jobs.find? request.jobKey with
  | some job => trivial
  | none =>
    cases validatedTimeout request.timeout with
    | error error => trivial
    | ok => exact minds_writeJob rfl _

theorem JobDefinition.jobKey_patched {changed : JobDefinition}
    {fields : String → Option JsonValue} (patches : job.patched fields = .ok changed) :
    changed.jobKey = job.jobKey := by
  unfold JobDefinition.patched at patches
  simp only [bind,Except.bind,pure,Except.pure] at patches
  repeat' split at patches
  all_goals cases patches
  all_goals rfl

theorem minds_handleDeleteJob (key : String) :
    (handleDeleteJob view caller key).Minds platform view calendars running seen := by
  unfold handleDeleteJob
  split
  · trivial
  split
  · trivial
  refine minds_call (fun _ => id) ?_ (fun now store _ => ?_) fun _ _ => trivial
  · intro now store changed timely changes
    exact .inl (.inl (Option.some.inj changes))
  · refine minds_send _ fun after inTime => ⟨0,?_⟩
    rw [inTime.rows [] rfl,calledFor_nil]
    rfl

theorem minds_handleCreateSchedule (request : CreateTriggerRequest) :
    (handleCreateSchedule platform view caller request).Minds platform view calendars running
      seen := by
  unfold handleCreateSchedule
  split
  · trivial
  split
  · trivial
  split
  · trivial
  refine minds_read (fun _ => id) (fun _ => rfl) (fun now store => ?_) fun mayFail => by
    cases mayFail
  dsimp only
  split
  · trivial
  have fits := Known.fits_edited platform view calendars seen request.row
  refine minds_call (fun _ => id) ?_ (fun now store _ => (syncs_syncThen fits _).1)
    fun _ _ => trivial
  intro now store changed timely changes
  obtain rfl : request.jobKey = changed := Option.some.inj changes
  exact (syncs_syncThen fits _).2

theorem minds_updateTrigger (edited : TriggerDefinition) (notFound : ValidationError) :
    EditHandler.Minds platform view calendars running seen
      (.call (.updateTrigger edited) fun _ updated =>
        match updated with
        | none => notPersisted.answer
        | some false => notFound.answer
        | some true =>
          syncThen platform view
            { edited := edited
              calendars := resolvedCalendars platform view ((some calendars).getD []) }
            edited.jobKey (.done (.schedule edited))) := by
  have fits := Known.fits_edited platform view calendars seen edited
  refine minds_call (fun _ => id) ?_ (fun now store _ => ?_) fun _ _ => trivial
  · intro now store changed timely changes
    rw [JobCall.changes] at changes
    split at changes
    next hasRow =>
      obtain rfl : edited.jobKey = changed := Option.some.inj changes
      dsimp only [LiveStore.perform]
      rw [hasRow]
      exact (syncs_syncThen fits _).2
    next => cases changes
  · dsimp only [LiveStore.perform]
    cases store.triggers.rows.any (LiveStore.editable edited) with
    | false => trivial
    | true => exact (syncs_syncThen fits _).1

theorem minds_handleUpdateSchedule (triggerId : String) (request : UpdateTriggerRequest) :
    (handleUpdateSchedule platform view caller triggerId request).Minds platform view calendars
      running seen := by
  unfold handleUpdateSchedule
  split
  · trivial
  split
  · trivial
  refine minds_read (fun _ => id) (fun _ => rfl) (fun now store => ?_) fun _ _ => trivial
  dsimp only [LiveStore.perform]
  cases store.triggers.find? triggerId with
  | none => trivial
  | some existing =>
    dsimp only
    split
    · trivial
    split
    · trivial
    refine minds_read (fun _ => id) (fun _ => rfl) (fun now store => ?_)
      nofun
    split
    · trivial
    · exact minds_updateTrigger _ _

theorem minds_deleteTrigger {jobKey : Option String}
    (looked : ∀ row ∈ seen.lookup, row.map TriggerDefinition.jobKey = jobKey) (triggerId : String) :
    EditHandler.Minds platform view calendars running seen
      (.call (.deleteTrigger triggerId) fun _ deleted =>
        match deleted with
        | none => (JobError.status .internalServerError).answer
        | some _ => sendThen (jobKey.map .removeJob) (.done .noContent)) := by
  refine minds_call (fun _ => id) ?_ (fun now store _ => ?_) fun _ _ => trivial
  · intro now store changed timely changes
    obtain ⟨stored,found,rfl⟩ := Option.map_eq_some_iff.mp changes
    obtain ⟨row,isLooked,sameJob⟩ := timely stored found
    obtain rfl : some stored.jobKey = jobKey := by
      rw [sameJob]
      exact looked _ isLooked
    exact .inl (.inl rfl)
  · cases jobKey with
    | none => trivial
    | some =>
      refine minds_send _ fun sending inTime => ⟨0,?_⟩
      rw [inTime.rows [] rfl,calledFor_nil]
      rfl

theorem minds_handleDeleteSchedule (notYet : seen.lookup = none) (caller : Auth.CallerContext)
    (triggerId : String) :
    (handleDeleteSchedule view caller triggerId).Minds platform view calendars running seen := by
  unfold handleDeleteSchedule
  split
  · trivial
  split
  · trivial
  refine minds_read (fun _ => id) (fun _ => rfl) (fun now store => ?_) fun _ now => ?_
  · dsimp only
    split
    · trivial
    · refine minds_deleteTrigger ?_ triggerId
      rintro row ⟨⟩
      rfl
  · refine minds_deleteTrigger ?_ triggerId
    intro row isLooked
    rw [notYet] at isLooked
    cases isLooked

theorem minds_handleEdit (request : EditRequest) :
    (handleEdit platform view caller request).Minds platform view calendars running
      editObserver.initial := by
  cases request with
  | createJob request => exact minds_handleCreateJob caller request
  | updateJob key body =>
    refine minds_changeJob caller key fun job changed changes => ?_
    cases body with
    | none => cases changes
    | some => exact JobDefinition.jobKey_patched changes
  | activate key =>
    unfold handleEdit handleActivate
    refine minds_changeJob caller key fun job changed changes => ?_
    obtain rfl := Except.ok.inj changes
    rfl
  | deactivate key =>
    unfold handleEdit handleDeactivate
    refine minds_changeJob caller key fun job changed changes => ?_
    obtain rfl := Except.ok.inj changes
    rfl
  | deleteJob key => exact minds_handleDeleteJob caller key
  | createSchedule request => exact minds_handleCreateSchedule caller request
  | updateSchedule triggerId request => exact minds_handleUpdateSchedule caller triggerId request
  | deleteSchedule triggerId => exact minds_handleDeleteSchedule rfl caller triggerId

/-- Once the requests have ended, the scheduler holds what the rows call for. -/
theorem live_edits_mirrored {store : LiveStore}
    {labels : List (Label (Auth.CallerContext × EditRequest))}
    {final : Scene LiveStore JobCall JobCall.Answer Empty EditAnswer EditView}
    (nothingSent : store.sent = []) (mirrors : ∀ key, view.isDslManaged key = false →
      running.Holds key
        (calledFor platform view calendars (store.jobs.find? key) (store.rowsOf key)))
    (careful : Along (Scene.step (editService platform view calendars) editObserver)
      (Scene.Careful (mirrorDuties platform view calendars running))
      (Scene.initial editObserver store) labels)
    (reaches : run (Scene.step (editService platform view calendars) editObserver)
      (Scene.initial editObserver store) labels = some final)
    (ended : ∀ slot, final.requests slot = none) {key : String}
    (ofApi : view.isDslManaged key = false) {applied : List (SchedulerCommand × Int)}
    (inOrder : applied.map Prod.fst = final.store.sent) : (running.after applied).Holds key
      (calledFor platform view calendars (final.store.jobs.find? key)
        (final.store.rowsOf key)) := by
  have initially : ∀ key, store.Mirrored platform view calendars running key := by
    intro key notInFile applied isSent
    obtain rfl : applied = [] := map_eq_nil_iff.mp (isSent.trans nothingSent)
    exact mirrors key notInFile
  exact settled_of_careful
    (fun request => minds_handleEdit request.1 request.2)
    (fun what key commands => JobCall.mayFail_of_commands commands) initially careful reaches ended
    key ofApi applied inOrder

end Mirror

/-! ### Edits that are mirrored, and edits that are not -/

def editor : Auth.CallerContext :=
  Auth.callerOf "ann" .admin

def scheduled (isActive : Bool) : LiveStore where
  jobs := .single _
    { jobKey := "reports:sync"
      description := none
      isActive := isActive
      metadata := fun _ => none
      timeout := none
      maxRetries := none
      deadLetterEnabled := none
      deadLetterRetention := none
      deadLetterOperatorHint := none
      deadLetterReplayMaxAge := none
      tags := [] }
  triggers := .single _ (apiRow "first" "5m" true)
  sent := []

def withoutJobs : LiveStore where
  jobs := .empty _
  triggers := .empty _
  sent := []

def noFile : FileView where
  jobs := []
  calendars := []
  strictCalendars := false

def idle : RunningScheduler where
  triggers := fun _ => none
  jobs := fun _ => none

def createRow (expression : Option String) : EditRequest :=
  .createSchedule
    { freshTriggerId := "first"
      jobKey := "reports:sync"
      cronExpression := expression
      timezone := none
      calendar := none
      window := none
      enabled := true }

abbrev EditScene :=
  Scene LiveStore JobCall JobCall.Answer Empty EditAnswer EditView

def EditScene.step : EditScene → Label (Auth.CallerContext × EditRequest) → Option EditScene :=
  Scene.step (editService quietPlatform noFile []) editObserver

def acts (slot count : Nat) : List (Label (Auth.CallerContext × EditRequest)) :=
  replicate count (.act slot 0 false)

/-- A job is deleted, and gets a new schedule while the answer is under way. -/
def deletedThenCreated : List (Label (Auth.CallerContext × EditRequest)) :=
  .start 1 (editor, .deleteJob "reports:sync") :: acts 1 2 ++
    .start 0 (editor, createRow (some "5m")) :: acts 0 4 ++ acts 1 1 ++ acts 0 1

theorem live_edits_mirrored_deletedThenCreated :
    ∃ final, run EditScene.step (Scene.initial editObserver withoutJobs) deletedThenCreated =
        some final ∧
      (calledFor quietPlatform noFile [] (final.store.jobs.find? "reports:sync")
        (final.store.rowsOf "reports:sync")).isSome ∧
      (idle.after (final.store.sent.map (·, 60))).Holds "reports:sync"
        (calledFor quietPlatform noFile [] (final.store.jobs.find? "reports:sync")
          (final.store.rowsOf "reports:sync")) := by
  have mirrors : ∀ key, noFile.isDslManaged key = false → idle.Holds key
      (calledFor quietPlatform noFile [] (withoutJobs.jobs.find? key) (withoutJobs.rowsOf key)) :=
    fun _ _ => ⟨rfl,rfl⟩
  have careful : Along EditScene.step
      (Scene.Careful (mirrorDuties quietPlatform noFile [] idle))
      (Scene.initial editObserver withoutJobs) deletedThenCreated := by
    refine .cons trivial rfl (.cons trivial rfl (.cons ?deleted rfl (.cons trivial rfl
      (.cons trivial rfl (.cons ?created rfl (.cons trivial rfl (.cons ?mirrored rfl
        (.cons trivial rfl (.cons trivial rfl trivial)))))))))
    case created => rfl
    all_goals exact ⟨by rintro _ ⟨⟩; rfl,by rintro _ ⟨⟩; rfl⟩
  refine ⟨_,rfl,rfl,live_edits_mirrored rfl mirrors careful rfl ?_ rfl rfl⟩
  intro slot
  match slot with
  | 0 => rfl
  | 1 => rfl
  | _ + 2 => rfl

/-- The scheduler has the job exactly if the store has an enabled row for it and the job is not
inactive. -/
def LiveStore.agreesWith (store : LiveStore) (running : RunningScheduler) (key : String) : Bool :=
  (running.jobs key).isSome ==
    ((store.rowsOf key).any (·.enabled) && !markedInactive (store.jobs.find? key))

/-- The request reads, another changes and mirrors the job, and then the first sends its command. -/
def activatedTooLate : List (Label (Auth.CallerContext × EditRequest)) :=
  .start 0 (editor, .activate "reports:sync") :: acts 0 5 ++
    .start 1 (editor, .deactivate "reports:sync") :: acts 1 5 ++ acts 0 2

def rowsUnread : List (Label (Auth.CallerContext × EditRequest)) :=
  .start 0 (editor, .activate "reports:sync") :: acts 0 3 ++ .act 0 0 true :: acts 0 2

/-- A schedule without an expression is not run, the earlier of two requests may have the last
word, and an unreadable row counts as none. -/
theorem live_edits_diverge : (∃ final, run EditScene.step (Scene.initial editObserver withoutJobs)
        (.start 0 (editor, createRow none) :: acts 0 5) = some final ∧
      final.requests 0 = none ∧
      final.store.agreesWith (idle.after (final.store.sent.map (·, 0))) "reports:sync" = false) ∧
    (∃ final, run EditScene.step (Scene.initial editObserver (scheduled false))
        activatedTooLate = some final ∧
      final.requests 0 = none ∧ final.requests 1 = none ∧
      (scheduled false).agreesWith idle "reports:sync" = true ∧
      final.store.agreesWith (idle.after (final.store.sent.map (·, 0))) "reports:sync" = false) ∧
    ∃ start final, run EditScene.step (Scene.initial editObserver (scheduled true))
        (.start 0 (editor, .activate "reports:sync") :: acts 0 7) = some start ∧
      run EditScene.step (Scene.initial editObserver (scheduled true)) rowsUnread = some final ∧
      final.requests 0 = none ∧
      let booted := idle.after (start.store.sent.map (·, 0))
      (scheduled true).agreesWith booted "reports:sync" = true ∧
      final.store.agreesWith (booted.after (final.store.sent.map (·, 0))) "reports:sync" = false :=
  ⟨⟨_,rfl,rfl,rfl⟩,⟨_,rfl,rfl,rfl,rfl,rfl⟩,⟨_,_,rfl,rfl,rfl,rfl,rfl⟩⟩

end Config

end Croniq
