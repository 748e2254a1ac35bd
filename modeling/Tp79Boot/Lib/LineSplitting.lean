import Mathlib.Data.List.Basic

/-!
# Splitting a stream into terminated segments

`segments` lists the stretches of a stream that a terminator has closed, and
`unfinished` is the stretch after the last terminator.  When more arrives, only
the unfinished stretch has to be looked at again: a stream may be split piece
by piece, carrying the unfinished stretch from one piece to the next.
-/

namespace LineSplitting

variable {α : Type} (terminator : α → Bool)

/-- The segments closed by a terminator, in order, without the terminators. -/
def segments (stream : List α) : List (List α) :=
  (stream.splitOnP terminator).dropLast

/-- What follows the last terminator. -/
def unfinished (stream : List α) : List α :=
  (stream.splitOnP terminator).getLast (List.splitOnP_ne_nil _ _)

/-- There is no terminator in the stretch. -/
def Open (stretch : List α) : Prop :=
  ∀ item ∈ stretch, terminator item = false

/-- No stretch without terminators is longer than `bound`. -/
def RunsWithin (bound : Nat) (stream : List α) : Prop :=
  ∀ before stretch after, stream = before ++ stretch ++ after →
    Open terminator stretch → stretch.length ≤ bound

variable {terminator}

theorem open_or_line (stream : List α) :
    Open terminator stream ∨ ∃ line last rest, stream = line ++ last :: rest ∧
      Open terminator line ∧ terminator last = true := by
  induction stream with
  | nil =>
      left
      intro item member
      cases member
  | cons head stream induction =>
      by_cases terminated : terminator head = true
      · right
        refine ⟨[], head, stream, rfl, ?_, terminated⟩
        intro item member
        cases member
      · have headOpen : terminator head = false := by simpa using terminated
        rcases induction with openStream | ⟨line, last, rest, rfl, openLine,
          closes⟩
        · left
          intro item member
          rcases List.mem_cons.mp member with rfl | later
          · exact headOpen
          · exact openStream item later
        · right
          refine ⟨head :: line, last, rest, rfl, ?_, closes⟩
          intro item member
          rcases List.mem_cons.mp member with rfl | later
          · exact headOpen
          · exact openLine item later

theorem segments_of_open {stream : List α} (openStream : Open terminator stream) :
    segments terminator stream = [] := by
  simp [segments, List.splitOnP_eq_singleton openStream]

theorem unfinished_of_open {stream : List α}
    (openStream : Open terminator stream) :
    unfinished terminator stream = stream := by
  simp [unfinished, List.splitOnP_eq_singleton openStream]

theorem segments_line {line : List α} {last : α}
    (openLine : Open terminator line) (terminated : terminator last = true)
    (rest : List α) :
    segments terminator (line ++ last :: rest) =
      line :: segments terminator rest := by
  rw [segments, List.splitOnP_append_cons_of_forall_mem openLine last
    terminated, List.dropLast_cons_of_ne_nil (List.splitOnP_ne_nil _ _)]
  rfl

theorem unfinished_line {line : List α} {last : α}
    (openLine : Open terminator line) (terminated : terminator last = true)
    (rest : List α) :
    unfinished terminator (line ++ last :: rest) =
      unfinished terminator rest := by
  simp only [unfinished, List.splitOnP_append_cons_of_forall_mem openLine last
    terminated]
  exact List.getLast_cons _

/-- Induction over the lines of a stream. -/
theorem line_induction (terminator : α → Bool) {motive : List α → Prop}
    (unterminated : ∀ stream, Open terminator stream → motive stream)
    (line : ∀ line last rest, Open terminator line →
      terminator last = true → motive rest → motive (line ++ last :: rest))
    (stream : List α) : motive stream := by
  induction length : stream.length using Nat.strongRecOn
    generalizing stream with
  | _ size induction =>
      rcases open_or_line stream with openStream | ⟨first, last, rest, rfl,
        openLine, closes⟩
      · exact unterminated stream openStream
      · apply line first last rest openLine closes
        refine induction rest.length ?_ rest rfl
        rw [← length, List.length_append, List.length_cons]
        omega

theorem segments_append (first second : List α) :
    segments terminator (first ++ second) =
      segments terminator first ++
        segments terminator (unfinished terminator first ++ second) := by
  induction first using line_induction terminator with
  | unterminated stream openStream =>
      rw [segments_of_open openStream, unfinished_of_open openStream,
        List.nil_append]
  | line line last rest openLine closes induction =>
      rw [List.append_assoc, List.cons_append, segments_line openLine closes,
        segments_line openLine closes, unfinished_line openLine closes,
        induction, List.cons_append]

theorem unfinished_append (first second : List α) :
    unfinished terminator (first ++ second) =
      unfinished terminator (unfinished terminator first ++ second) := by
  induction first using line_induction terminator with
  | unterminated stream openStream =>
      rw [unfinished_of_open openStream]
  | line line last rest openLine closes induction =>
      rw [List.append_assoc, List.cons_append,
        unfinished_line openLine closes, unfinished_line openLine closes,
        induction]

theorem unfinished_suffix (stream : List α) :
    unfinished terminator stream <:+ stream := by
  induction stream using line_induction terminator with
  | unterminated stream openStream =>
      have whole := unfinished_of_open openStream
      exact ⟨[], whole⟩
  | line line last rest openLine closes induction =>
      rw [unfinished_line openLine closes]
      exact induction.trans ((List.suffix_cons last rest).trans
        (List.suffix_append line (last :: rest)))

theorem unfinished_open (stream : List α) :
    Open terminator (unfinished terminator stream) := by
  induction stream using line_induction terminator with
  | unterminated stream openStream =>
      rw [unfinished_of_open openStream]
      exact openStream
  | line line last rest openLine closes induction =>
      rw [unfinished_line openLine closes]
      exact induction

theorem runsWithin_of_length_le {bound : Nat} {stream : List α}
    (short : stream.length ≤ bound) : RunsWithin terminator bound stream := by
  rintro before stretch after rfl _
  simp only [List.length_append] at short
  omega

/-- A short line in front of a stream. -/
theorem RunsWithin.line {bound : Nat} {line rest : List α} {last : α}
    (short : line.length ≤ bound) (closes : terminator last = true)
    (within : RunsWithin terminator bound rest) :
    RunsWithin terminator bound (line ++ last :: rest) := by
  intro before stretch after equality openStretch
  have unclosed : last ∉ stretch := by
    intro member
    rw [openStretch last member] at closes
    cases closes
  rcases List.append_eq_append_iff.mp equality with
    ⟨between, upTo, from_⟩ | ⟨between, inLine, _⟩
  · cases between with
    | nil =>
        have front : stretch <:+ line := by
          rw [← List.append_nil line, ← upTo]
          exact List.suffix_append before stretch
        exact Nat.le_trans front.length_le short
    | cons first between =>
        obtain ⟨rfl, behind⟩ := List.cons.inj from_
        rcases List.append_eq_append_iff.mp upTo with
          ⟨_, _, closed⟩ | ⟨skipped, _, inRest⟩
        · exact absurd (by simp [closed]) unclosed
        · cases skipped with
          | nil =>
              rw [List.nil_append] at inRest
              exact absurd (by simp [← inRest]) unclosed
          | cons head skipped =>
              obtain ⟨_, later⟩ := List.cons.inj inRest
              refine within skipped stretch after ?_ openStretch
              rw [behind, later]
              rfl
  · have front : stretch <:+: line := ⟨before, between, inLine.symm⟩
    exact Nat.le_trans front.length_le short

theorem RunsWithin.of_suffix {bound : Nat} {stream tail : List α}
    (within : RunsWithin terminator bound stream) (suffix : tail <:+ stream) :
    RunsWithin terminator bound tail := by
  obtain ⟨front, rfl⟩ := suffix
  intro before stretch after equality openStretch
  refine within (front ++ before) stretch after ?_ openStretch
  simp [equality]

theorem RunsWithin.of_prefix {bound : Nat} {stream front : List α}
    (within : RunsWithin terminator bound stream) (isFront : front <+: stream) :
    RunsWithin terminator bound front := by
  obtain ⟨tail, rfl⟩ := isFront
  intro before stretch after equality openStretch
  refine within before stretch (after ++ tail) ?_ openStretch
  simp [equality]

theorem RunsWithin.unfinished_length {bound : Nat} {stream : List α}
    (within : RunsWithin terminator bound stream) :
    (unfinished terminator stream).length ≤ bound := by
  have tail : RunsWithin terminator bound (unfinished terminator stream) :=
    within.of_suffix (unfinished_suffix stream)
  exact tail [] (unfinished terminator stream) [] (List.append_nil _).symm
    (unfinished_open stream)

theorem RunsWithin.line_length {bound : Nat} {line rest : List α} {last : α}
    (within : RunsWithin terminator bound (line ++ last :: rest))
    (openLine : Open terminator line) : line.length ≤ bound :=
  within [] line (last :: rest) rfl openLine

end LineSplitting
