import Mathlib.Data.List.Induction

/-!
# Runs of a machine over a list of inputs

A machine is a step function; a run folds it over the inputs received so far.
The rules below are the induction over a run, stated once: an invariant holds
after every run, an invariant that needs a side condition on each input holds
after every run whose inputs meet it where they arrive, and a counter that
grows by at most one passes every value on its way.  A machine whose every step
is a run of another runs as the other does.
-/

namespace EventRun

variable {σ ι : Type} (step : σ → ι → σ)

def run (start : σ) (inputs : List ι) : σ :=
  inputs.foldl step start

@[simp] theorem run_nil (start : σ) : run step start [] = start := rfl

@[simp] theorem run_cons (start : σ) (input : ι) (inputs : List ι) :
    run step start (input :: inputs) = run step (step start input) inputs :=
  rfl

theorem run_append (start : σ) (first second : List ι) :
    run step start (first ++ second) =
      run step (run step start first) second := by
  simp [run]

theorem run_concat (start : σ) (inputs : List ι) (last : ι) :
    run step start (inputs ++ [last]) = step (run step start inputs) last := by
  simp [run]

/-- Every input meets `admits` in the state in which it arrives. -/
def Admitted (admits : σ → ι → Prop) (start : σ) (inputs : List ι) : Prop :=
  ∀ before input after, inputs = before ++ input :: after →
    admits (run step start before) input

variable {step} {start : σ} {inputs : List ι} {admits : σ → ι → Prop}

theorem Admitted.of_append {first second : List ι}
    (admitted : Admitted step admits start (first ++ second)) :
    Admitted step admits start first := by
  intro before input after equality
  refine admitted before input (after ++ second) ?_
  simp [equality]

theorem Admitted.last {last : ι}
    (admitted : Admitted step admits start (inputs ++ [last])) :
    admits (run step start inputs) last :=
  admitted inputs last [] rfl

theorem admitted_nil : Admitted step admits start [] := by
  intro before input after equality
  simp at equality

theorem admitted_concat {last : ι} :
    Admitted step admits start (inputs ++ [last]) ↔
      Admitted step admits start inputs ∧
        admits (run step start inputs) last := by
  constructor
  · intro admitted
    exact ⟨admitted.of_append, admitted.last⟩
  · rintro ⟨earlier, here⟩ before input after equality
    rcases List.eq_nil_or_concat after with rfl | ⟨front, final, rfl⟩
    · obtain ⟨rfl, rfl⟩ := List.append_inj' equality rfl |>.imp_right
        List.singleton_inj.mp
      exact here
    · have cut : inputs ++ [last] = (before ++ input :: front) ++ [final] := by
        simpa using equality
      exact earlier before input front (List.append_inj' cut rfl).1

theorem admitted_append {first second : List ι} :
    Admitted step admits start (first ++ second) ↔
      Admitted step admits start first ∧
        Admitted step admits (run step start first) second := by
  induction second using List.reverseRecOn with
  | nil => simp [admitted_nil]
  | append_singleton second last induction =>
      rw [← List.append_assoc, admitted_concat, induction, admitted_concat,
        run_append, and_assoc]

theorem admitted_of_forall
    (always : ∀ state, ∀ input ∈ inputs, admits state input) :
    Admitted step admits start inputs := by
  rintro before input after rfl
  exact always _ input (by simp)

/-- Where an invariant makes two conditions on a legal input the same, the
inputs of a run all meet the one exactly when they all meet the other. -/
theorem admitted_congr_of_legal {invariant : σ → Prop} {legal : ι → Prop}
    {other : σ → ι → Prop} (reached : ∀ earlier,
      invariant (run step start earlier))
    (same : ∀ state input, invariant state → legal input →
      (admits state input ↔ other state input))
    (allowed : ∀ input ∈ inputs, legal input) :
    Admitted step admits start inputs ↔ Admitted step other start inputs := by
  apply forall₄_congr
  rintro before input after rfl
  exact same _ input (reached before) (allowed input (by simp))

/-- A property that each step keeps exactly when it admits its input holds at
the end exactly when every input was admitted. -/
theorem run_iff_admitted {holds : σ → Prop} (initial : holds start)
    (exact_step : ∀ state input,
      holds (step state input) ↔ holds state ∧ admits state input)
    (inputs : List ι) :
    holds (run step start inputs) ↔ Admitted step admits start inputs := by
  induction inputs using List.reverseRecOn with
  | nil => exact iff_of_true initial admitted_nil
  | append_singleton inputs last induction =>
      rw [run_concat, exact_step, admitted_concat, induction]

theorem run_invariant_of_admitted {invariant : σ → Prop}
    (initial : invariant start)
    (preserved : ∀ state input, invariant state → admits state input →
      invariant (step state input))
    (admitted : Admitted step admits start inputs) :
    invariant (run step start inputs) := by
  induction inputs using List.reverseRecOn with
  | nil => exact initial
  | append_singleton inputs last induction =>
      rw [run_concat]
      exact preserved _ _ (induction admitted.of_append) admitted.last

theorem run_invariant {invariant : σ → Prop} (initial : invariant start)
    (preserved : ∀ state input, invariant state →
      invariant (step state input)) (inputs : List ι) :
    invariant (run step start inputs) := by
  induction inputs using List.reverseRecOn with
  | nil => exact initial
  | append_singleton inputs last induction =>
      rw [run_concat]
      exact preserved _ _ induction

/-- The property holds in every state of the run. -/
def Always (step : σ → ι → σ) (holds : σ → Prop) (start : σ)
    (inputs : List ι) : Prop :=
  ∀ before after, inputs = before ++ after → holds (run step start before)

theorem always_nil {holds : σ → Prop} :
    Always step holds start [] ↔ holds start := by
  constructor
  · intro always
    exact always [] [] rfl
  · intro initial before after equality
    rw [(List.append_eq_nil_iff.mp equality.symm).1]
    exact initial

theorem always_concat {holds : σ → Prop} {last : ι} :
    Always step holds start (inputs ++ [last]) ↔
      Always step holds start inputs ∧
        holds (run step start (inputs ++ [last])) := by
  constructor
  · intro always
    refine ⟨?_, always _ [] (List.append_nil _).symm⟩
    intro before after equality
    refine always before (after ++ [last]) ?_
    simp [equality]
  · rintro ⟨earlier, here⟩ before after equality
    rcases List.eq_nil_or_concat after with rfl | ⟨front, final, rfl⟩
    · rw [List.append_nil] at equality
      rw [← equality]
      exact here
    · have cut : inputs ++ [last] = (before ++ front) ++ [final] := by
        simpa using equality
      exact earlier before front (List.append_inj' cut rfl).1

/-- Among the runs whose inputs are all legal, a property that an invariant
gives, and that the first input not admitted breaks, holds all along exactly
when every input is admitted. -/
theorem always_iff_admitted_of_legal {invariant holds : σ → Prop}
    {legal : σ → ι → Prop} (initial : invariant start)
    (sound : ∀ state, invariant state → holds state)
    (preserved : ∀ state input, invariant state → legal state input →
      admits state input → invariant (step state input))
    (broken : ∀ state input, invariant state → legal state input →
      ¬admits state input → ¬holds (step state input))
    (allowed : Admitted step legal start inputs) :
    Always step holds start inputs ↔ Admitted step admits start inputs := by
  induction inputs using List.reverseRecOn with
  | nil =>
      rw [always_nil]
      exact iff_of_true (sound start initial) admitted_nil
  | append_singleton inputs last induction =>
      rw [always_concat, admitted_concat, induction allowed.of_append,
        run_concat]
      refine and_congr_right fun admitted => ?_
      have both : Admitted step (fun state input =>
          legal state input ∧ admits state input) start inputs :=
        fun before input after equality =>
          ⟨allowed.of_append before input after equality,
            admitted before input after equality⟩
      have reached : invariant (run step start inputs) :=
        run_invariant_of_admitted initial
          (fun _ _ here conditions =>
            preserved _ _ here conditions.1 conditions.2) both
      constructor
      · intro here
        by_contra refused
        exact broken _ _ reached allowed.last refused here
      · intro here
        exact sound _ (preserved _ _ reached allowed.last here)

/-- The same when every input is legal. -/
theorem always_iff_admitted {invariant holds : σ → Prop}
    (initial : invariant start)
    (sound : ∀ state, invariant state → holds state)
    (preserved : ∀ state input, invariant state → admits state input →
      invariant (step state input))
    (broken : ∀ state input, invariant state → ¬admits state input →
      ¬holds (step state input)) (inputs : List ι) :
    Always step holds start inputs ↔ Admitted step admits start inputs := by
  have all : Admitted step (fun _ _ => True) start inputs :=
    admitted_of_forall fun _ _ _ => trivial
  exact always_iff_admitted_of_legal initial sound
    (fun state input here _ => preserved state input here)
    (fun state input here _ => broken state input here) all

theorem run_observe {τ : Type} {other : τ → ι → τ} (observe : σ → τ)
    (follows : ∀ state input,
      observe (step state input) = other (observe state) input)
    (start : σ) (inputs : List ι) :
    observe (run step start inputs) = run other (observe start) inputs := by
  induction inputs using List.reverseRecOn with
  | nil => rfl
  | append_singleton inputs last induction =>
      rw [run_concat, follows, induction, run_concat]

theorem run_unchanged {τ : Type} (observe : σ → τ)
    (unchanged : ∀ state input, observe (step state input) = observe state)
    (start : σ) (inputs : List ι) :
    observe (run step start inputs) = observe start := by
  induction inputs using List.reverseRecOn with
  | nil => rfl
  | append_singleton inputs last induction =>
      rw [run_concat, unchanged, induction]

/-- A counter that a step leaves alone or raises by one takes every value
between the first and the last, one input at a time. -/
theorem exists_crossing (count : σ → Nat)
    (unit : ∀ state input, count (step state input) = count state ∨
      count (step state input) = count state + 1)
    {level : Nat} (low : count start ≤ level)
    (high : level < count (run step start inputs)) :
    ∃ before input after, inputs = before ++ input :: after ∧
      count (run step start before) = level ∧
      count (step (run step start before) input) = level + 1 := by
  induction inputs using List.reverseRecOn with
  | nil => exact absurd low (Nat.not_le_of_gt high)
  | append_singleton inputs last induction =>
      rw [run_concat] at high
      by_cases earlier : level < count (run step start inputs)
      · obtain ⟨before, input, after, rfl, reached, passed⟩ :=
          induction earlier
        exact ⟨before, input, after ++ [last], by simp, reached, passed⟩
      · have here := unit (run step start inputs) last
        exact ⟨inputs, last, [], rfl, by omega, by omega⟩

/-- Each input becomes some inputs of another machine, according to the state
it meets. -/
def translated {κ : Type} (step : σ → ι → σ) (outputs : σ → ι → List κ) :
    σ → List ι → List κ
  | _, [] => []
  | state, input :: inputs =>
      outputs state input ++ translated step outputs (step state input) inputs

theorem translated_concat {κ : Type} (outputs : σ → ι → List κ) (start : σ)
    (inputs : List ι) (last : ι) :
    translated step outputs start (inputs ++ [last]) =
      translated step outputs start inputs ++
        outputs (run step start inputs) last := by
  induction inputs generalizing start with
  | nil => simp [translated]
  | cons input inputs induction =>
      rw [List.cons_append, translated, translated, induction, run_cons,
        List.append_assoc]

/-- One machine runs as another does, when each of its admitted steps is a run
of the other. -/
theorem run_simulates {τ κ : Type} {other : τ → κ → τ}
    {outputs : σ → ι → List κ} {relates : σ → τ → Prop} {first : τ}
    (initial : relates start first)
    (simulates : ∀ state reached input, relates state reached →
      admits state input →
        relates (step state input) (run other reached (outputs state input)))
    (admitted : Admitted step admits start inputs) :
    relates (run step start inputs)
      (run other first (translated step outputs start inputs)) := by
  induction inputs using List.reverseRecOn with
  | nil => exact initial
  | append_singleton inputs last induction =>
      rw [run_concat, translated_concat, run_append]
      exact simulates _ _ last (induction admitted.of_append) admitted.last

/-- The state after the first `count` of endlessly many inputs. -/
def after (step : σ → ι → σ) (start : σ) (inputs : ℕ → ι) (count : ℕ) : σ :=
  run step start ((List.range count).map inputs)

theorem after_succ (inputs : ℕ → ι) (count : ℕ) :
    after step start inputs (count + 1) =
      step (after step start inputs count) (inputs count) := by
  rw [after, List.range_succ, List.map_append, List.map_singleton,
    run_concat]
  rfl

/-- A number that gets larger some time as long as it is below a goal reaches
the goal. -/
theorem exists_reached (number : ℕ → ℕ) {goal : ℕ}
    (grows : ∀ count, number count < goal →
      ∃ later, number count < number later) :
    ∃ count, goal ≤ number count := by
  have reaches : ∀ level, level ≤ goal → ∃ count, level ≤ number count := by
    intro level
    induction level with
    | zero => exact fun _ => ⟨0, Nat.zero_le _⟩
    | succ level induction =>
        intro below
        obtain ⟨count, reached⟩ := induction (Nat.le_of_succ_le below)
        rcases Nat.lt_or_ge (number count) goal with missing | done
        · obtain ⟨later, more⟩ := grows count missing
          exact ⟨later, Nat.lt_of_le_of_lt reached more⟩
        · exact ⟨count, Nat.le_trans below done⟩
  exact reaches goal (Nat.le_refl goal)

end EventRun
