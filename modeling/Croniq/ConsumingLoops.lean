import Mathlib.Data.List.Basic

/-!
# Loops that consume their input

A hand-written lexer or parser is made of loops that look at what is left of the
input, stop, or read a piece and go on.
-/

namespace ConsumingLoops

variable {τ σ ε α β : Type}

/-- A condition on the value of a success. -/
def Yields (post : α → Prop) : Except ε α → Prop
  | .ok value => post value
  | .error _ => True

variable {post first : α → Prop} {value : α} {result : Except ε α}

@[simp] theorem yields_ok : Yields post (.ok value : Except ε α) ↔ post value := Iff.rfl

theorem Yields.map {post : β → Prop} {function : α → β}
    (yields : Yields first result) (after : ∀ value, first value → post (function value)) :
    Yields post (result.map function) := by
  cases result with
  | ok value => exact after value yields
  | error error => trivial

/-- A loop over an input with a state: what is skipped before a round, when it stops, what a round
does. -/
structure Loop (τ σ ε : Type) where
  skip : List τ → List τ
  stop : σ → List τ → Bool
  body : σ → List τ → Except ε (σ × List τ)

namespace Loop

variable (loop : Loop τ σ ε)

def iterate : Nat → σ → List τ → Except ε (σ × List τ)
  | 0, state, input => .ok (state, input)
  | fuel + 1, state, input =>
    if loop.stop state (loop.skip input) then .ok (state, loop.skip input)
    else loop.body state (loop.skip input) >>= fun (next, rest) => iterate fuel next rest

/-- The loop with a round for every piece of the input and one to stop. -/
def run (state : σ) (input : List τ) : Except ε (σ × List τ) :=
  loop.iterate (input.length + 1) state input

def Consumes : Prop :=
  ∀ state input, loop.stop state (loop.skip input) = false →
    Yields (fun (_, rest) => rest.length < input.length) (loop.body state (loop.skip input))

variable {loop}

theorem iterate_eq_iterate (consumes : loop.Consumes) {fuel fuel' : Nat} {state : σ}
    {input : List τ} (enough : input.length < fuel) (enough' : input.length < fuel') :
    loop.iterate fuel state input = loop.iterate fuel' state input := by
  induction fuel generalizing fuel' state input with
  | zero => omega
  | succ fuel ih =>
    obtain ⟨fuel',rfl⟩ : ∃ left, fuel' = left + 1 := ⟨fuel' - 1,by omega⟩
    rw [iterate,iterate]
    cases stops : loop.stop state (loop.skip input) with
    | true => rfl
    | false =>
      have shorter := consumes _ _ stops
      cases step : loop.body state (loop.skip input) with
      | error => rfl
      | ok result =>
        rw [step,yields_ok] at shorter
        exact ih (by omega) (by omega)

theorem run_eq (consumes : loop.Consumes) (state : σ) (input : List τ) :
    loop.run state input =
      if loop.stop state (loop.skip input) then .ok (state, loop.skip input)
      else loop.body state (loop.skip input) >>= fun (next, rest) => loop.run next rest := by
  rw [run,iterate]
  cases stops : loop.stop state (loop.skip input) with
  | true => rfl
  | false =>
    have shorter := consumes _ _ stops
    cases step : loop.body state (loop.skip input) with
    | error => rfl
    | ok result =>
      rw [step,yields_ok] at shorter
      exact iterate_eq_iterate consumes (by omega) (by omega)

end Loop

def collect (skip : List τ → List τ) (stop : List τ → Bool)
    (item : List τ → Except ε (α × List τ)) : Loop τ (List α) ε where
  skip := skip
  stop _ input := stop input
  body items input := (item input).map fun (read, rest) => (items ++ [read], rest)

variable {skip : List τ → List τ} {stop : List τ → Bool} {item : List τ → Except ε (α × List τ)}

theorem collect_consumes (skip_le : ∀ input, (skip input).length ≤ input.length)
    (item_lt : ∀ input, stop input = false →
      Yields (fun (_, rest) => rest.length < input.length) (item input)) :
    (collect skip stop item).Consumes := by
  intro items input goes
  apply (item_lt (skip input) goes).map
  intro result shorter
  exact Nat.lt_of_lt_of_le shorter (skip_le input)

theorem iterate_collect_append (fuel : Nat) (items before : List α) (input : List τ) :
    (collect skip stop item).iterate fuel (items ++ before) input =
      ((collect skip stop item).iterate fuel before input).map
        fun (read, rest) => (items ++ read, rest) := by
  induction fuel generalizing before input with
  | zero => rfl
  | succ fuel ih =>
    rw [Loop.iterate,Loop.iterate]
    cases stops : stop (skip input) with
    | true => simp [collect,stops,Except.map]
    | false =>
      cases read : item (skip input) with
      | error => simp [collect,stops,read,Except.map,bind,Except.bind]
      | ok result =>
        have step := ih (before ++ [result.1]) result.2
        simpa [collect,stops,read,Except.map,bind,Except.bind] using step

theorem run_collect_eq (consumes : (collect skip stop item).Consumes) (input : List τ) :
    (collect skip stop item).run [] input =
      if stop (skip input) then .ok ([], skip input)
      else item (skip input) >>= fun (read, rest) =>
        ((collect skip stop item).run [] rest).map fun (more, left) => (read :: more, left) := by
  rw [Loop.run_eq consumes]
  cases stops : stop (skip input) with
  | true => simp [collect,stops]
  | false =>
    cases read : item (skip input) with
    | error => simp [collect,stops,read,Except.map,bind,Except.bind]
    | ok result =>
      have step : (collect skip stop item).iterate (result.2.length + 1) [result.1] result.2 = _ :=
        iterate_collect_append _ [result.1] [] result.2
      simpa [collect,stops,read,Except.map,bind,Except.bind,Loop.run] using step

end ConsumingLoops
