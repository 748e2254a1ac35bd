/-!
# Loops that run until they are done

A loop is given by what one turn does: go on from a next state, or stop in a
final one.  It is run with a number of turns it may take.  Two rules cover its
use: a measure that every turn lowers bounds the turns it needs, and a relation
between a state and the final one is proved turn by turn, from the last turn
backwards.  What holds whenever a turn begins is proved the same way.  Where
some states never come to an end, whether a loop returns is carried from turn
to turn, and an invariant under which every turn goes on rules it out.
-/

namespace WhileLoop

variable {σ : Type}

/-- What one turn does. -/
inductive Turn (σ : Type) where
  | again (next : σ)
  | done (final : σ)

/-- Run until a turn is done; `none` when the turns do not suffice. -/
def loop (turn : σ → Turn σ) : Nat → σ → Option σ
  | 0, _ => none
  | turns + 1, state =>
      match turn state with
      | .again next => loop turn turns next
      | .done final => some final

variable {turn : σ → Turn σ}

theorem loop_again {state next : σ} (goesOn : turn state = .again next)
    (turns : Nat) :
    loop turn (turns + 1) state = loop turn turns next := by
  rw [loop, goesOn]

theorem loop_done {state final : σ} (stops : turn state = .done final)
    (turns : Nat) : loop turn (turns + 1) state = some final := by
  rw [loop, stops]

/-- A measure that goes down with every turn bounds the turns. -/
theorem loop_isSome (measure : σ → Nat)
    (decreases : ∀ state next, turn state = .again next →
      measure next < measure state)
    {turns : Nat} {state : σ} (enough : measure state < turns) :
    (loop turn turns state).isSome := by
  induction turns generalizing state with
  | zero => exact absurd enough (Nat.not_lt_zero _)
  | succ turns induction =>
      cases outcome : turn state with
      | again next =>
          have lower := decreases state next outcome
          rw [loop_again outcome]
          exact induction (Nat.lt_of_lt_of_le lower (Nat.le_of_lt_succ enough))
      | done final =>
          rw [loop_done outcome]
          rfl

/-- What holds of the last turn, and of a state whenever it holds of the next,
holds of the whole loop. -/
theorem loop_induction {motive : σ → σ → Prop}
    (done : ∀ state final, turn state = .done final → motive state final)
    (again : ∀ state next final, turn state = .again next →
      motive next final → motive state final)
    {turns : Nat} {state final : σ}
    (result : loop turn turns state = some final) : motive state final := by
  induction turns generalizing state with
  | zero => cases result
  | succ turns induction =>
      cases outcome : turn state with
      | again next =>
          rw [loop_again outcome] at result
          exact again state next final outcome (induction result)
      | done last =>
          rw [loop_done outcome] at result
          cases result
          exact done state final outcome

/-- Going on from `state`, the loop comes to the second state. -/
inductive Reaches (turn : σ → Turn σ) : σ → σ → Prop where
  | refl (state : σ) : Reaches turn state state
  | again {state next later : σ} :
      turn state = .again next → Reaches turn next later →
        Reaches turn state later

/-- Whenever a turn begins, the condition holds. -/
def EveryTurn (turn : σ → Turn σ) (condition : σ → Prop) (state : σ) : Prop :=
  ∀ later, Reaches turn state later → condition later

variable {condition : σ → Prop}

theorem everyTurn_done {state final : σ} (stops : turn state = .done final) :
    EveryTurn turn condition state ↔ condition state := by
  constructor
  · intro every
    exact every state (.refl state)
  · intro here later reached
    cases reached with
    | refl => exact here
    | again goesOn => cases goesOn.symm.trans stops

theorem everyTurn_again {state next : σ} (goesOn : turn state = .again next) :
    EveryTurn turn condition state ↔
      condition state ∧ EveryTurn turn condition next := by
  constructor
  · intro every
    exact ⟨every state (.refl state),
      fun later reached => every later (.again goesOn reached)⟩
  · intro here later reached
    cases reached with
    | refl => exact here.1
    | again other rest =>
        cases other.symm.trans goesOn
        exact here.2 later rest

/-- Some number of turns suffices. -/
def Returns (turn : σ → Turn σ) (state : σ) : Prop :=
  ∃ turns final, loop turn turns state = some final

theorem returns_done {state final : σ} (stops : turn state = .done final) :
    Returns turn state :=
  ⟨1, final, loop_done stops 0⟩

theorem returns_again {state next : σ} (goesOn : turn state = .again next) :
    Returns turn state ↔ Returns turn next := by
  constructor
  · rintro ⟨turns, final, result⟩
    cases turns with
    | zero => cases result
    | succ turns =>
        rw [loop_again goesOn] at result
        exact ⟨turns, final, result⟩
  · rintro ⟨turns, final, result⟩
    refine ⟨turns + 1, final, ?_⟩
    rw [loop_again goesOn, result]

theorem not_returns (invariant : σ → Prop)
    (goesOn : ∀ state, invariant state →
      ∃ next, turn state = .again next ∧ invariant next)
    {state : σ} (holds : invariant state) : ¬Returns turn state := by
  rintro ⟨turns, final, result⟩
  induction turns generalizing state with
  | zero => cases result
  | succ turns induction =>
      obtain ⟨next, again, kept⟩ := goesOn state holds
      rw [loop_again again] at result
      exact induction kept result

/-- The loop ends, and the condition holds whenever a turn begins. -/
def Completes (turn : σ → Turn σ) (condition : σ → Prop) (state : σ) : Prop :=
  Returns turn state ∧ EveryTurn turn condition state

theorem completes_done {state final : σ} (stops : turn state = .done final) :
    Completes turn condition state ↔ condition state :=
  (and_iff_right (returns_done stops)).trans (everyTurn_done stops)

theorem completes_again {state next : σ} (goesOn : turn state = .again next) :
    Completes turn condition state ↔
      condition state ∧ Completes turn condition next := by
  rw [Completes, Completes, returns_again goesOn, everyTurn_again goesOn]
  exact and_left_comm

end WhileLoop
