import Mathlib.Logic.Function.Basic
import Tp79Boot.Lib.EventRun

/-!
# Drawing again only what has changed

A canvas has parts, and each part is drawn from a key.  A refresh works out the
next key of a part from the last one.  The plain machine draws the part at each
refresh; the thrifty machine draws it only where the key is a new one.  Where a
part may be drawn twice and the parts in any order, the two machines make the
same canvas.
-/

namespace Redraw

open EventRun

section

variable {ι γ : Type} {κ : ι → Type}

structure Parts (ι γ : Type) (κ : ι → Type) where
  draw : (part : ι) → κ part → γ → γ
  twice : ∀ part key canvas,
    draw part key (draw part key canvas) = draw part key canvas
  eitherOrder : ∀ part other key otherKey canvas, part ≠ other →
    draw part key (draw other otherKey canvas) =
      draw other otherKey (draw part key canvas)

structure State (γ : Type) (κ : ι → Type) where
  keys : (part : ι) → κ part
  canvas : γ

inductive Event (γ : Type) (κ : ι → Type) where
  | refresh (part : ι) (next : κ part → κ part)
  | elsewhere (effect : γ → γ)

/-- What is drawn elsewhere leaves every part alone. -/
def Event.Apart (parts : Parts ι γ κ) : Event γ κ → Prop
  | .refresh .. => True
  | .elsewhere effect => ∀ part key canvas,
      parts.draw part key (effect canvas) = effect (parts.draw part key canvas)

/-- Drawing the part anew would change nothing. -/
def Settled (parts : Parts ι γ κ) (state : State γ κ) (part : ι) : Prop :=
  parts.draw part (state.keys part) state.canvas = state.canvas

/-- The part that is refreshed. -/
def Event.part : Event γ κ → Option ι
  | .refresh part _ => some part
  | .elsewhere _ => none

/-- The refresh finds a new key. -/
def Event.Changes (keys : (part : ι) → κ part) : Event γ κ → Prop
  | .refresh part next => next (keys part) ≠ keys part
  | .elsewhere _ => True

variable [DecidableEq ι]

/-- If the part is refreshed, its first refresh finds a new key. -/
def ChangesFirst (keys : (part : ι) → κ part) (part : ι)
    (events : List (Event γ κ)) : Prop :=
  ∀ event, events.find? (fun event => event.part = some part) = some event →
    event.Changes keys

section

variable {keys : (part : ι) → κ part} {part other : ι}
  {events : List (Event γ κ)}

theorem ChangesFirst.head {next : κ part → κ part}
    (changes : ChangesFirst keys part (.refresh part next :: events)) :
    next (keys part) ≠ keys part :=
  changes (.refresh part next)
    (List.find?_cons_of_pos (decide_eq_true rfl))

theorem ChangesFirst.tail {event : Event γ κ}
    (changes : ChangesFirst keys part (event :: events))
    (elsewhere : event.part ≠ some part) : ChangesFirst keys part events := by
  intro found first
  apply changes found
  rw [List.find?_cons_of_neg (by simpa using elsewhere)]
  exact first

/-- Only the key of the part itself matters. -/
theorem ChangesFirst.update {key : κ other} (different : part ≠ other)
    (changes : ChangesFirst keys part events) :
    ChangesFirst (Function.update keys other key) part events := by
  intro event first
  have changed := changes event first
  have own : event.part = some part := by
    simpa using List.find?_some first
  cases event with
  | refresh refreshed next =>
      obtain rfl := Option.some.inj own
      rw [Event.Changes, Function.update_of_ne different]
      exact changed
  | elsewhere effect => trivial

end

variable (parts : Parts ι γ κ)

def plainStep (state : State γ κ) : Event γ κ → State γ κ
  | .refresh part next =>
      { keys := Function.update state.keys part (next (state.keys part))
        canvas := parts.draw part (next (state.keys part)) state.canvas }
  | .elsewhere effect => { state with canvas := effect state.canvas }

def thriftyStep [∀ part, DecidableEq (κ part)] (state : State γ κ) :
    Event γ κ → State γ κ
  | .refresh part next =>
      if next (state.keys part) = state.keys part then state
      else plainStep parts state (.refresh part next)
  | .elsewhere effect => { state with canvas := effect state.canvas }

variable {parts} {state : State γ κ} {part : ι}

theorem plainStep_settled_self (next : κ part → κ part) :
    Settled parts (plainStep parts state (.refresh part next)) part := by
  simp only [Settled, plainStep, Function.update_self]
  exact parts.twice part _ state.canvas

/-- A settled part stays settled. -/
theorem Settled.plainStep (settled : Settled parts state part)
    {event : Event γ κ} (apart : event.Apart parts) :
    Settled parts (plainStep parts state event) part := by
  cases event with
  | refresh other next =>
      by_cases same : other = part
      · subst other
        exact plainStep_settled_self next
      · have drawn : parts.draw part (state.keys part) state.canvas =
            state.canvas := settled
        simp only [Settled, Redraw.plainStep,
          Function.update_of_ne (Ne.symm same)]
        rw [parts.eitherOrder part other _ _ _ (Ne.symm same), drawn]
  | elsewhere effect =>
      exact (apart part (state.keys part) state.canvas).trans
        (congrArg effect settled)

/-- A part that has been refreshed is settled. -/
theorem run_settled {events : List (Event γ κ)}
    (apart : ∀ event ∈ events, event.Apart parts)
    (refreshed : ∃ next, Event.refresh part next ∈ events) :
    Settled parts (run (plainStep parts) state events) part := by
  obtain ⟨next, member⟩ := refreshed
  induction events using List.reverseRecOn with
  | nil => cases member
  | append_singleton events last induction =>
      rw [run_concat]
      rcases List.mem_append.mp member with earlier | final
      · have settled := induction
          (fun event inside => apart event (List.mem_append_left _ inside))
          earlier
        exact settled.plainStep (apart last (by simp))
      · obtain rfl := List.mem_singleton.mp final
        exact plainStep_settled_self next

variable [∀ part, DecidableEq (κ part)]

theorem thriftyStep_eq_plainStep {next : κ part → κ part}
    (ready : Settled parts state part ∨
      next (state.keys part) ≠ state.keys part) :
    thriftyStep parts state (.refresh part next) =
      plainStep parts state (.refresh part next) := by
  rw [thriftyStep]
  by_cases same : next (state.keys part) = state.keys part
  · have settled := ready.resolve_right (not_not_intro same)
    have drawn : parts.draw part (state.keys part) state.canvas =
        state.canvas := settled
    rw [if_pos same, plainStep, same, Function.update_eq_self, drawn]
  · exact if_neg same

/-- The two machines agree over every run in which each part is settled at the
start, or its first refresh finds a new key. -/
theorem run_thrifty_eq_plain {events : List (Event γ κ)}
    (apart : ∀ event ∈ events, event.Apart parts)
    (ready : ∀ part, Settled parts state part ∨
      ChangesFirst state.keys part events) :
    run (thriftyStep parts) state events =
      run (plainStep parts) state events := by
  induction events generalizing state with
  | nil => rfl
  | cons event events induction =>
      have here := apart event List.mem_cons_self
      have later (other : Event γ κ) (member : other ∈ events) :=
        apart other (List.mem_cons_of_mem event member)
      cases event with
      | refresh refreshed next =>
          have same : thriftyStep parts state (.refresh refreshed next) =
              plainStep parts state (.refresh refreshed next) := by
            apply thriftyStep_eq_plainStep
            rcases ready refreshed with settled | changes
            · exact Or.inl settled
            · exact Or.inr changes.head
          rw [run_cons, run_cons, same]
          apply induction later
          intro part
          by_cases own : refreshed = part
          · subst own
            exact Or.inl (plainStep_settled_self next)
          · rcases ready part with settled | changes
            · exact Or.inl (settled.plainStep here)
            · have rest := changes.tail fun same =>
                own (Option.some.inj same)
              exact Or.inr (rest.update (Ne.symm own))
      | elsewhere effect =>
          rw [run_cons, run_cons]
          apply induction later
          intro part
          rcases ready part with settled | changes
          · exact Or.inl (settled.plainStep here)
          · exact Or.inr (changes.tail (Option.some_ne_none part).symm)

end

section

variable {β δ α : Type}

/-- Where the stamp has no color, the canvas shows through. -/
def lay (stamp : β → δ → Option α) (canvas : β → δ → α) : β → δ → α :=
  fun column row => (stamp column row).getD (canvas column row)

theorem lay_lay (upper lower : β → δ → Option α) (canvas : β → δ → α) :
    lay upper (lay lower canvas) =
      lay (fun column row => (upper column row).or (lower column row))
        canvas := by
  funext column row
  cases covered : upper column row with
  | none => simp [lay, covered]
  | some color => simp [lay, covered]

/-- No place has a color of both stamps. -/
def NoOverlap (first second : β → δ → Option α) : Prop :=
  ∀ column row, first column row = none ∨ second column row = none

theorem NoOverlap.symm {first second : β → δ → Option α}
    (noOverlap : NoOverlap first second) : NoOverlap second first :=
  fun column row => (noOverlap column row).symm

theorem lay_twice (stamp : β → δ → Option α) (canvas : β → δ → α) :
    lay stamp (lay stamp canvas) = lay stamp canvas := by
  simp [lay_lay]

theorem lay_comm {first second : β → δ → Option α}
    (noOverlap : NoOverlap first second) (canvas : β → δ → α) :
    lay first (lay second canvas) = lay second (lay first canvas) := by
  rw [lay_lay, lay_lay]
  congr 1
  funext column row
  rcases noOverlap column row with none | none
  · rw [none, Option.none_or, Option.or_none]
  · rw [none, Option.none_or, Option.or_none]

variable {ι : Type} {κ : ι → Type}

/-- Parts that are stamped at different places. -/
def Parts.ofStamps (stamp : (part : ι) → κ part → β → δ → Option α)
    (noOverlap : ∀ part other key otherKey, part ≠ other →
      NoOverlap (stamp part key) (stamp other otherKey)) :
    Parts ι (β → δ → α) κ where
  draw part key := lay (stamp part key)
  twice part key canvas := lay_twice (stamp part key) canvas
  eitherOrder part other key otherKey canvas different :=
    lay_comm (noOverlap part other key otherKey different) canvas

end

end Redraw
