import Mathlib.Algebra.Group.Nat.Defs

/-!
# What follows a finished attempt

The policies of a job: how often and how late a failed attempt is tried again,
when a run counts as timed out, and whether an exhausted one leaves a dead
letter.
-/

namespace Croniq

/-- The most seconds and a fraction. -/
def durationMax : Nat := (2 ^ 64 - 1) * 1000000000 + 999999999

def saturatingAdd (first second : Nat) : Nat :=
  min (first + second) durationMax

def saturatingMul (duration factor : Nat) : Nat :=
  min (duration * factor) durationMax

/-- One less in 32 bits; zero wraps around. -/
def wrappingPred (number : Nat) : Nat :=
  (number + 2 ^ 32 - 1) % 2 ^ 32

/-- A power of two in 64 bits, cut to its low 32 bits. -/
def backoffMultiplier (exponent : Nat) : Nat :=
  (if exponent < 64 then 2 ^ exponent else 2 ^ 64 - 1) % 2 ^ 32

inductive RetryStrategy where
  | exponential (base cap : Nat)
  | fixed (delay : Nat)
  | linear (base step cap : Nat)
deriving DecidableEq

structure RetryPolicy where
  strategy : RetryStrategy
  maxAttempts : Nat
deriving DecidableEq

inductive RetryDecision where
  | retryAfter (delay : Nat)
  | exhausted
deriving DecidableEq

namespace RetryPolicy

variable (policy : RetryPolicy)

def computeDelay (attempt : Nat) : Nat :=
  match policy.strategy with
  | .exponential base cap => min (saturatingMul base (backoffMultiplier (wrappingPred attempt))) cap
  | .fixed delay => delay
  | .linear base step cap =>
    min (saturatingAdd base (saturatingMul step (wrappingPred attempt))) cap

/-- Attempts are numbered from one. -/
def evaluate (applyJitter : Nat → Nat) (attempt : Nat) : RetryDecision :=
  if policy.maxAttempts ≤ attempt then .exhausted
  else .retryAfter (applyJitter (policy.computeDelay attempt))

/-- The delay in exact arithmetic, cut off at the longest duration. -/
def documentedDelay (attempt : Nat) : Nat :=
  match policy.strategy with
  | .exponential base cap => min (min (base * 2 ^ (attempt - 1)) durationMax) cap
  | .fixed delay => delay
  | .linear base step cap => min (min (base + step * (attempt - 1)) durationMax) cap

def Positive : Prop :=
  match policy.strategy with
  | .exponential base cap | .linear base _ cap => 0 < base ∧ 0 < cap
  | .fixed delay => 0 < delay

/-- Up to an attempt, the delays follow their formula, never shrink and, unless configured
as zero, are not zero. -/
def BackoffLaw (last : Nat) : Prop :=
  (∀ attempt, 1 ≤ attempt → attempt ≤ last →
    policy.computeDelay attempt = policy.documentedDelay attempt) ∧
  (∀ attempt later, 1 ≤ attempt → attempt ≤ later → later ≤ last →
    policy.computeDelay attempt ≤ policy.computeDelay later) ∧
  (policy.Positive → ∀ attempt, 1 ≤ attempt → attempt ≤ last → 0 < policy.computeDelay attempt)

variable {attempt : Nat}

theorem documentedDelay_mono {later : Nat} (notLater : attempt ≤ later) :
    policy.documentedDelay attempt ≤ policy.documentedDelay later := by
  have fewer : attempt - 1 ≤ later - 1 := Nat.sub_le_sub_right notLater 1
  unfold documentedDelay
  split
  · rename_i base _ _
    have grows := Nat.mul_le_mul_left base (Nat.pow_le_pow_right (Nat.zero_lt_two) fewer)
    omega
  · exact Nat.le_refl _
  · rename_i step _ _
    have grows := Nat.mul_le_mul_left step fewer
    omega

variable {policy}

theorem documentedDelay_pos (positive : policy.Positive) (attempt : Nat) :
    0 < policy.documentedDelay attempt := by
  have long : 0 < durationMax := by decide
  unfold Positive at positive
  unfold documentedDelay
  split at positive <;> rename_i isStrategy <;> simp only [isStrategy]
  · have grows := Nat.mul_pos positive.1 (Nat.two_pow_pos (attempt - 1))
    omega
  · omega
  · exact positive

theorem backoffMultiplier_of_lt {exponent : Nat} (small : exponent < 32) :
    backoffMultiplier exponent = 2 ^ exponent := by
  rw [backoffMultiplier,if_pos (by omega)]
  exact Nat.mod_eq_of_lt (Nat.pow_lt_pow_right (by decide) small)

/-- The delays of an exponential strategy hold to their law only up to the attempt whose multiplier
fits into 32 bits. -/
theorem backoff_law_iff (policy : RetryPolicy) (last : Nat) (fits : last < 2 ^ 32) :
    policy.BackoffLaw last ↔
      ∀ base cap, policy.strategy = .exponential base cap → last ≤ 32 ∨ base = 0 ∨ cap = 0 := by
  constructor
  · rintro ⟨-,-,positive⟩ base cap isStrategy
    refine Decidable.byContradiction fun large => ?_
    have isPositive : policy.Positive := by
      simp only [Positive,isStrategy]
      omega
    -- the multiplier of the attempt after the 32nd is cut to zero
    have isZero : policy.computeDelay 33 = 0 := by
      simp [computeDelay,isStrategy,saturatingMul,wrappingPred,backoffMultiplier]
    exact absurd (positive isPositive 33 (by decide) (by omega)) (by omega)
  · intro small
    have agrees : ∀ attempt, 1 ≤ attempt → attempt ≤ last →
        policy.computeDelay attempt = policy.documentedDelay attempt := by
      intro attempt isFirst within
      have pred : wrappingPred attempt = attempt - 1 := by
        simp only [wrappingPred] at *
        omega
      simp only [computeDelay,documentedDelay,pred,saturatingMul,saturatingAdd]
      split
      · rename_i base cap isStrategy
        rcases small base cap isStrategy with fitting | rfl | rfl
        · rw [backoffMultiplier_of_lt (by omega)]
        · simp
        · simp
      · rfl
      · omega
    refine ⟨agrees,?_,?_⟩
    · intro attempt later isFirst notLater within
      rw [agrees attempt isFirst (by omega),agrees later (by omega) within]
      exact policy.documentedDelay_mono notLater
    · intro positive attempt isFirst within
      rw [agrees attempt isFirst within]
      exact documentedDelay_pos positive attempt

theorem backoff_law_default_policy :
    let policy : RetryPolicy := ⟨.exponential 2000000000 30000000000,3⟩
    policy.BackoffLaw 32 ∧ ¬policy.BackoffLaw 33 := by
  intro policy
  constructor
  · exact (backoff_law_iff policy 32 (by decide)).mpr fun _ _ _ => .inl (by decide)
  · rw [backoff_law_iff policy 33 (by decide)]
    intro small
    simpa using small _ _ rfl

/-- Two seconds doubled 32 times are no delay. -/
theorem backoff_overflows :
    let policy : RetryPolicy := ⟨.exponential 2000000000 30000000000,100⟩
    policy.computeDelay 32 = 30000000000 ∧ policy.computeDelay 33 = 0 ∧
      policy.computeDelay 64 = 0 ∧ policy.documentedDelay 33 = 30000000000 ∧
      policy.evaluate id 33 = .retryAfter 0 := by
  decide

end RetryPolicy

structure TimeoutPolicy where
  duration : Nat
deriving DecidableEq

def TimeoutPolicy.isExpired (policy : TimeoutPolicy) (elapsed : Nat) : Bool :=
  policy.duration ≤ elapsed

structure DeadLetterPolicy where
  enabled : Bool
  retention : Nat
  operatorHint : Option String
deriving DecidableEq

/-- A retention of zero keeps dead letters for ever. -/
def DeadLetterPolicy.expiresAt (policy : DeadLetterPolicy) (now : Int) : Option Int :=
  if !policy.enabled || policy.retention = 0 then none else some (now + policy.retention)

structure ExecutionPolicy where
  retry : RetryPolicy
  timeout : TimeoutPolicy
  deadLetter : DeadLetterPolicy
deriving DecidableEq

structure ExecutionResult where
  success : Bool
  error : Option String
  (duration attempt : Nat)
deriving DecidableEq

inductive ExecutionOutcome where
  | success
  | retry (nextAttempt delay : Nat)
  | deadLetter (reason : String) (operatorHint : Option String) (expiresAfter : Option Nat)
  | dropped (reason : String)
  | cancelled
deriving DecidableEq

def ExecutionPolicy.evaluate (policy : ExecutionPolicy) (applyJitter : Nat → Nat)
    (result : ExecutionResult) : ExecutionOutcome :=
  if result.success then .success
  else
    let error :=
      result.error.getD
        (if policy.timeout.isExpired result.duration then "execution timed out"
        else "unknown error")
    match policy.retry.evaluate applyJitter result.attempt with
    | .retryAfter delay => .retry (result.attempt + 1) delay
    | .exhausted =>
      let reason := "exhausted after " ++ toString result.attempt ++ " attempts: " ++ error
      if policy.deadLetter.enabled then
        .deadLetter reason policy.deadLetter.operatorHint
          (if policy.deadLetter.retention = 0 then none else some policy.deadLetter.retention)
      else .dropped reason

theorem ExecutionPolicy.evaluate_eq_retry {policy : ExecutionPolicy} {applyJitter : Nat → Nat}
    {result : ExecutionResult} {nextAttempt delay : Nat}
    (retries : policy.evaluate applyJitter result = .retry nextAttempt delay) :
    result.success = false ∧ nextAttempt = result.attempt + 1 ∧
      nextAttempt ≤ policy.retry.maxAttempts := by
  unfold evaluate at retries
  split at retries
  · cases retries
  rename_i notSuccess
  simp only [RetryPolicy.evaluate] at retries
  by_cases exhausted : policy.retry.maxAttempts ≤ result.attempt
  · rw [if_pos exhausted] at retries
    dsimp only at retries
    split at retries <;> cases retries
  · rw [if_neg exhausted] at retries
    cases retries
    exact ⟨Bool.eq_false_iff.mpr notSuccess,rfl,Nat.lt_of_not_le exhausted⟩

end Croniq
