import Mathlib.Data.List.Basic

/-!
# Bracketed histories

A history of opening and closing marks is bracketed when every opening is
followed by the closing of the same subject before anything else is opened, and
nothing is closed that is not open.  At most one subject is held at a time.
-/

namespace Bracketing

variable {κ : Type}

inductive Mark (κ : Type) where
  | opens (subject : κ)
  | closes (subject : κ)
deriving DecidableEq, Repr

/-- A bracketed history, oldest mark first, and the subject it leaves open. -/
inductive Bracketed : List (Mark κ) → Option κ → Prop where
  | nil : Bracketed [] none
  | opens {marks : List (Mark κ)} (subject : κ) :
      Bracketed marks none → Bracketed (marks ++ [.opens subject]) (some subject)
  | closes {marks : List (Mark κ)} {subject : κ} :
      Bracketed marks (some subject) → Bracketed (marks ++ [.closes subject]) none

variable {marks : List (Mark κ)} {subject : κ} {held other : Option κ}

private theorem concat_inj {first second : List (Mark κ)} {mark last : Mark κ}
    (same : first ++ [mark] = second ++ [last]) :
    first = second ∧ mark = last := by
  obtain ⟨front, final⟩ := List.append_inj' same rfl
  exact ⟨front, List.singleton_inj.mp final⟩

theorem bracketed_opens_iff :
    Bracketed (marks ++ [.opens subject]) held ↔
      held = some subject ∧ Bracketed marks none := by
  constructor
  · intro bracketed
    generalize whole : marks ++ [Mark.opens subject] = history at bracketed
    cases bracketed with
    | nil => simp at whole
    | opens opened earlier =>
        obtain ⟨rfl, same⟩ := concat_inj whole
        cases same
        exact ⟨rfl, earlier⟩
    | closes earlier => cases (concat_inj whole).2
  · intro opened
    obtain ⟨rfl, earlier⟩ := opened
    exact .opens subject earlier

theorem bracketed_closes_iff :
    Bracketed (marks ++ [.closes subject]) held ↔
      held = none ∧ Bracketed marks (some subject) := by
  constructor
  · intro bracketed
    generalize whole : marks ++ [Mark.closes subject] = history at bracketed
    cases bracketed with
    | nil => simp at whole
    | opens opened earlier => cases (concat_inj whole).2
    | closes earlier =>
        obtain ⟨rfl, same⟩ := concat_inj whole
        cases same
        exact ⟨rfl, earlier⟩
  · intro closed
    obtain ⟨rfl, earlier⟩ := closed
    exact .closes earlier

theorem Bracketed.unique (first : Bracketed marks held)
    (second : Bracketed marks other) : held = other := by
  induction first generalizing other with
  | nil =>
      generalize whole : ([] : List (Mark κ)) = history at second
      cases second with
      | nil => rfl
      | opens subject earlier => simp at whole
      | closes earlier => simp at whole
  | opens subject earlier induction =>
      exact (bracketed_opens_iff.mp second).1.symm
  | closes earlier induction =>
      exact (bracketed_closes_iff.mp second).1.symm

theorem not_bracketed_closes :
    ¬Bracketed [Mark.closes subject] held := by
  intro bracketed
  have nothing := (@bracketed_closes_iff κ [] subject held).mp bracketed
  cases Bracketed.unique nothing.2 .nil

end Bracketing
