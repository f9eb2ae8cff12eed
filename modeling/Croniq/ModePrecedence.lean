import Croniq.GuardStamps

/-!
# The execution mode of a job

The comments of the compiler and of the formatter put the prefix of a schedule
above an `execution_mode` directive.
-/

namespace Croniq.Config

def JobBlock.prefixMode (job : JobBlock) : Option ExecutionMode :=
  (job.schedule.bind ScheduleNode.mode).map fun
    | .ephemeral => .ephemeral
    | .queued => .queued

def modeArg (directive : Directive) : Option StringValue :=
  if directive.key.value = "execution_mode" then directive.args.head? else none

theorem lastWritten_bind {First Second : Type} (write : Directive → Option First)
    (next : First → Option Second) (directives : List Directive) :
    lastWritten (fun directive => (write directive).bind next) directives =
      match lastWritten write directives with
      | none => none
      | some first =>
        (next first).or
          (lastWritten (fun directive => (write directive).bind next) directives) := by
  unfold lastWritten
  induction directives.reverse with
  | nil => rfl
  | cons directive directives ih =>
    rw [List.findSome?_cons,List.findSome?_cons]
    cases write directive with
    | none => exact ih
    | some first => cases written : next first <;> simp [written]

section

variable (host : Host) (vars : Vars) (limits : String → Option Nat) (defaults : JobDefaults)
  (job : JobBlock)

/-- The mode as the compiler's comments state it. -/
def JobBlock.statedMode : ExecutionMode :=
  job.prefixMode.getD
    ((lastWritten (modeWrite host vars) job.plain).getD defaults.executionMode)

theorem executionMode_compileJob :
    (compileJob host vars limits defaults job).executionMode =
      (lastWritten (modeWrite host vars) job.plain).getD
        (job.prefixMode.getD defaults.executionMode) := by
  have start : (JobDraft.start defaults (job.schedule.bind ScheduleNode.mode)).executionMode =
      job.prefixMode.getD defaults.executionMode := by
    unfold JobBlock.prefixMode
    cases job.schedule.bind ScheduleNode.mode with
    | none => rfl
    | some mode => cases mode <;> rfl
  rw [← start,← executionMode_draft host vars limits,compileJob_eq]
  unfold JobDraft.withoutQueue
  split <;> rfl

theorem modeWrite_eq_bind_modeArg : modeWrite host vars = fun directive =>
    (modeArg directive).bind fun arg => ExecutionMode.parse (resolveStr host vars arg) := by
  funext directive
  unfold modeWrite modeArg firstArg
  split
  · cases directive.args.head? <;> rfl
  · rfl

theorem jobIsEphemeral_eq_getD_lastWritten :
    jobIsEphemeral job (decide (defaults.executionMode = .ephemeral)) =
      ((lastWritten modeArg job.plain).map fun arg => decide (arg.value = "ephemeral")).getD
        (decide (job.prefixMode.getD defaults.executionMode = .ephemeral)) := by
  have start : (job.schedule.bind ScheduleNode.mode).elim
      (decide (defaults.executionMode = .ephemeral)) (· = .ephemeral) =
        decide (job.prefixMode.getD defaults.executionMode = .ephemeral) := by
    unfold JobBlock.prefixMode
    cases job.schedule.bind ScheduleNode.mode with
    | none => rfl
    | some mode => cases mode <;> rfl
  rw [jobIsEphemeral,start,lastWritten,List.map_findSome?]
  refine @get_foldl_eq_lastWrite _ _ _ _ id _ _ (fun directive _ ephemeral => ?_) _
  rw [Function.comp_apply,modeArg]
  split
  · cases directive.args.head? <;> rfl
  · rfl

theorem resolveStr_of_ephemeral {arg : StringValue} (written : arg.value = "ephemeral") :
    resolveStr host vars arg = "ephemeral" := by
  have unknown : resolve host vars "ephemeral" = .error (.unknownPrefix "ephemeral") := rfl
  unfold resolveStr
  split <;> simp [written,unknown]

/-- The stated precedence holds where no directive sets another mode than the prefix; the
validator agrees with the compiler where the last argument of a directive is written `ephemeral`,
or the mode it stands for or leaves in force is another one. -/
theorem executionMode_precedence :
    ((compileJob host vars limits defaults job).executionMode = job.statedMode host vars defaults ↔
      ∀ mode ∈ job.prefixMode, ∀ written ∈ lastWritten (modeWrite host vars) job.plain,
        written = mode) ∧
    (jobIsEphemeral job (decide (defaults.executionMode = .ephemeral)) =
        decide ((compileJob host vars limits defaults job).executionMode = .ephemeral) ↔
      ∀ arg ∈ lastWritten modeArg job.plain, arg.value = "ephemeral" ∨
        (ExecutionMode.parse (resolveStr host vars arg)).getD
          ((lastWritten (modeWrite host vars) job.plain).getD
            (job.prefixMode.getD defaults.executionMode)) ≠ .ephemeral) := by
  rw [executionMode_compileJob,jobIsEphemeral_eq_getD_lastWritten]
  constructor
  · unfold JobBlock.statedMode
    cases job.prefixMode <;> cases lastWritten (modeWrite host vars) job.plain <;> simp
  have written := lastWritten_bind modeArg
    (fun arg => ExecutionMode.parse (resolveStr host vars arg)) job.plain
  rw [← modeWrite_eq_bind_modeArg] at written
  cases last : lastWritten modeArg job.plain with
  | none =>
    simp only [last] at written
    simp [written]
  | some arg =>
    simp only [last] at written
    have literal : arg.value = "ephemeral" → resolveStr host vars arg = "ephemeral" :=
      resolveStr_of_ephemeral host vars
    cases valid : ExecutionMode.parse (resolveStr host vars arg) with
    | some =>
      rw [valid,Option.some_or] at written
      rw [written]
      by_cases isEphemeral : arg.value = "ephemeral"
      · rw [literal isEphemeral] at valid
        simp [isEphemeral,← Option.some.inj valid]
      · simp [isEphemeral,valid]
    | none =>
      have other : arg.value ≠ "ephemeral" := fun same => by
        rw [literal same] at valid
        cases valid
      simp [other,valid]

end

/-- A job with the prefix `queued` and one mode directive. -/
def queuedJob (mode : StringValue) : JobBlock :=
  { guardedJob [⟨wordOf "execution_mode",[mode]⟩] with
    schedule := some ⟨.interval 5 .minutes,some .queued,[]⟩ }

/-- A directive overrides the prefix; the validator does not resolve its placeholder. -/
theorem executionMode_ne_stated :
    let modeOf := fun job : JobBlock =>
      (compileJob (hostWith modeEphemeral) (fun _ => none) (fun _ => none) {} job).executionMode
    modeOf (queuedJob (wordOf "ephemeral")) = .ephemeral ∧
      (queuedJob (wordOf "ephemeral")).statedMode quietHost (fun _ => none) {} = .queued ∧
      modeOf (queuedJob (placeholderOf "env.MODE")) = .ephemeral ∧
      jobIsEphemeral (queuedJob (placeholderOf "env.MODE")) false = false := by
  decide

end Croniq.Config
