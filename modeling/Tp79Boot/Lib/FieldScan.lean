import Mathlib.Algebra.GroupWithZero.Nat
import Mathlib.Data.List.GetD

/-!
# Scanning a text for separators

A loop over the places of a text that acts at every separator.  What it does
may depend on how many separators came before and on where the last of them
was.  Such a loop visits the `marks` of the text in order, and the marks of a
text put together from fields are read off the lengths of the fields.
-/

namespace FieldScan

variable {α σ : Type}

/-- A separator as the loop meets it: how many came before, the place of the
last one (zero at the first), its own place. -/
structure Mark where
  count : Nat
  last : Nat
  place : Nat
deriving DecidableEq, Repr

/-- What the loop carries from place to place. -/
structure Cursor (σ : Type) where
  state : σ
  count : Nat
  last : Nat

/-- The place of the first item of a field. -/
def fieldStart (fields : List (List α)) (number : Nat) : Nat :=
  ((fields.take number).map fun field => field.length + 1).sum

@[simp] theorem fieldStart_zero (fields : List (List α)) :
    fieldStart fields 0 = 0 := rfl

theorem fieldStart_cons_succ (field : List α) (fields : List (List α))
    (number : Nat) :
    fieldStart (field :: fields) (number + 1) =
      field.length + 1 + fieldStart fields number := rfl

/-- The separator that closes a field. -/
def fieldMark (fields : List (List α)) (number : Nat) : Mark where
  count := number
  last := fieldStart fields number - 1
  place := fieldStart fields number + (fields.getD number []).length

/-- The marks of fields with a separator between each and the next: every
field but the last is closed by one. -/
def fieldMarks : List (List α) → Nat → Nat → Nat → List Mark
  | field :: next :: fields, count, last, place =>
      { count := count, last := last, place := place + field.length } ::
        fieldMarks (next :: fields) (count + 1) (place + field.length)
          (place + field.length + 1)
  | _, _, _, _ => []

private theorem fieldMarks_eq_map (fields : List (List α))
    (count last place : Nat) :
    fieldMarks fields count last place =
      (List.range (fields.length - 1)).map fun number =>
        { count := count + number
          last := if number = 0 then last
            else place + fieldStart fields number - 1
          place := place + fieldStart fields number +
            (fields.getD number []).length } := by
  induction fields generalizing count last place with
  | nil => rfl
  | cons field fields induction =>
      cases fields with
      | nil => rfl
      | cons next fields =>
          have length : (field :: next :: fields).length - 1 =
              (next :: fields).length - 1 + 1 := rfl
          rw [fieldMarks, induction, length, List.range_succ_eq_map,
            List.map_cons, List.map_map, List.cons.injEq]
          constructor
          · simp
          · apply List.map_congr_left
            intro number _
            rw [Function.comp_apply, fieldStart_cons_succ, Mark.mk.injEq]
            refine ⟨Nat.add_right_comm count 1 number, ?_, ?_⟩
            · by_cases first : number = 0
              · simp [first]
              · rw [if_neg first, if_neg (Nat.succ_ne_zero number)]
                omega
            · rw [List.getD_cons_succ]
              omega

variable {separator : α}

/-- There is nothing in the text but the separators and the fields. -/
theorem mem_intercalate {fields : List (List α)} {item : α}
    (member : item ∈ [separator].intercalate fields) :
    item = separator ∨ ∃ field ∈ fields, item ∈ field := by
  induction fields with
  | nil => cases member
  | cons field fields induction =>
      cases fields with
      | nil =>
          rw [List.intercalate_singleton] at member
          exact .inr ⟨field, List.mem_cons_self, member⟩
      | cons next fields =>
          rw [List.intercalate_cons_cons, List.append_assoc,
            List.mem_append, List.singleton_append, List.mem_cons] at member
          rcases member with first | here | later
          · exact .inr ⟨field, List.mem_cons_self, first⟩
          · exact .inl here
          · rcases induction later with here | ⟨other, among, inside⟩
            · exact .inl here
            · exact .inr ⟨other, List.mem_cons_of_mem _ among, inside⟩

/-- The text from a field on. -/
theorem drop_fieldStart {fields : List (List α)} {number : Nat}
    (inside : number < fields.length) (tail : List α) :
    ([separator].intercalate fields ++ tail).drop (fieldStart fields number) =
      [separator].intercalate (fields.drop number) ++ tail := by
  induction number generalizing fields with
  | zero => rfl
  | succ number induction =>
      obtain _ | ⟨field, _ | ⟨next, fields⟩⟩ := fields
      · cases inside
      · exact absurd (Nat.lt_of_succ_lt_succ inside) (Nat.not_lt_zero number)
      · have further := induction (Nat.lt_of_succ_lt_succ inside)
        have split : [separator].intercalate (field :: next :: fields) ++ tail =
            (field ++ [separator]) ++
              ([separator].intercalate (next :: fields) ++ tail) := by
          rw [List.intercalate_cons_cons]
          simp
        have front : field.length + 1 = (field ++ [separator]).length := by
          simp
        rw [fieldStart_cons_succ, split, front, ← List.drop_drop,
          List.drop_left, further]
        rfl

theorem intercalate_drop_length_le (separator : α) (fields : List (List α))
    (number : Nat) :
    ([separator].intercalate (fields.drop number)).length ≤
      ([separator].intercalate fields).length := by
  rcases Nat.lt_or_ge number fields.length with inside | past
  · have rest := @drop_fieldStart _ separator fields number inside []
    rw [List.append_nil, List.append_nil] at rest
    rw [← rest, List.length_drop]
    exact Nat.sub_le _ _
  · rw [List.drop_of_length_le past]
    exact Nat.zero_le _

/-- A field stands where it starts. -/
theorem getElem?_field {fields : List (List α)} {number : Nat}
    (inside : number < fields.length) (tail : List α) {place : Nat}
    (within : place < fields[number].length) :
    ([separator].intercalate fields ++ tail)[fieldStart fields number + place]? =
      some fields[number][place] := by
  rw [← List.getElem?_drop, drop_fieldStart inside,
    List.drop_eq_getElem_cons inside]
  generalize fields[number] = field at within ⊢
  cases fields.drop (number + 1) with
  | nil =>
      rw [List.intercalate_singleton, List.getElem?_append_left within,
        List.getElem?_eq_getElem within]
  | cons next later =>
      rw [List.intercalate_cons_cons, List.append_assoc, List.append_assoc,
        List.getElem?_append_left within, List.getElem?_eq_getElem within]

theorem fieldStart_succ {fields : List (List α)} {number : Nat}
    (inside : number < fields.length) :
    fieldStart fields (number + 1) = (fieldMark fields number).place + 1 := by
  have length : (fields.getD number []).length = fields[number].length := by
    rw [List.getD_eq_getElem _ _ inside]
  rw [fieldMark, length, fieldStart, List.take_add_one,
    List.getElem?_eq_getElem inside, List.map_append, List.sum_append,
    Nat.add_assoc]
  rfl

theorem getElem?_fieldMark {fields : List (List α)} {number : Nat}
    (inside : number + 1 < fields.length) (tail : List α) :
    ([separator].intercalate fields ++ tail)[(fieldMark fields number).place]? =
      some separator := by
  have here : number < fields.length := Nat.lt_of_succ_lt inside
  have length : (fields.getD number []).length = fields[number].length := by
    rw [List.getD_eq_getElem _ _ here]
  rw [fieldMark, length, ← List.getElem?_drop, drop_fieldStart here,
    List.drop_eq_getElem_cons here, List.drop_eq_getElem_cons inside,
    List.intercalate_cons_cons]
  simp

section

variable [DecidableEq α]

/-- One turn of the loop. -/
def visit (separator : α) (act : σ → Mark → σ) (text : List α)
    (cursor : Cursor σ) (place : Nat) : Cursor σ :=
  if text[place]? = some separator then
    { state := act cursor.state
        { count := cursor.count, last := cursor.last, place := place }
      count := cursor.count + 1
      last := place }
  else cursor

/-- The loop. -/
def scan (separator : α) (act : σ → Mark → σ) (text : List α) (state : σ) : σ :=
  ((List.range text.length).foldl (visit separator act text)
    { state := state, count := 0, last := 0 }).state

/-- The marks of a text whose first item is at `place`. -/
def marksFrom (separator : α) : List α → Nat → Nat → Nat → List Mark
  | [], _, _, _ => []
  | item :: text, count, last, place =>
      if item = separator then
        { count := count, last := last, place := place } ::
          marksFrom separator text (count + 1) place (place + 1)
      else marksFrom separator text count last (place + 1)

def marks (separator : α) (text : List α) : List Mark :=
  marksFrom separator text 0 0 0

theorem foldl_visit (act : σ → Mark → σ) (front text : List α)
    (cursor : Cursor σ) :
    ((List.range' front.length text.length).foldl
        (visit separator act (front ++ text)) cursor).state =
      (marksFrom separator text cursor.count cursor.last front.length).foldl
        act cursor.state := by
  induction text generalizing front cursor with
  | nil => rfl
  | cons item text induction =>
      have here : (front ++ item :: text)[front.length]? = some item := by simp
      have further := induction (front ++ [item])
      rw [List.length_append, List.length_singleton, List.append_assoc,
        List.singleton_append] at further
      rw [List.length_cons, List.range'_succ, List.foldl_cons, further]
      by_cases separates : item = separator
      · simp [visit, marksFrom, separates]
      · simp [visit, marksFrom, separates]

theorem scan_eq_foldl (act : σ → Mark → σ) (text : List α) (state : σ) :
    scan separator act text state =
      (marks separator text).foldl act state := by
  have whole := @foldl_visit α σ separator _ act [] text
    { state := state, count := 0, last := 0 }
  rw [scan, List.range_eq_range']
  exact whole

theorem marksFrom_field {field : List α} (inside : separator ∉ field)
    (rest : List α) (count last place : Nat) :
    marksFrom separator (field ++ rest) count last place =
      marksFrom separator rest count last (place + field.length) := by
  induction field generalizing place with
  | nil => rfl
  | cons item field induction =>
      have different : item ≠ separator := by
        rintro rfl
        exact inside List.mem_cons_self
      have later : separator ∉ field := by
        intro member
        exact inside (List.mem_cons_of_mem _ member)
      rw [List.cons_append, marksFrom, if_neg different, induction later,
        List.length_cons, Nat.add_right_comm, Nat.add_assoc]

theorem marksFrom_open {field : List α} (inside : separator ∉ field)
    (count last place : Nat) :
    marksFrom separator field count last place = [] := by
  have whole := marksFrom_field inside [] count last place
  rwa [List.append_nil] at whole

theorem marksFrom_intercalate {fields : List (List α)}
    (inside : ∀ field ∈ fields, separator ∉ field) {tail : List α}
    (tailInside : separator ∉ tail) (count last place : Nat) :
    marksFrom separator ([separator].intercalate fields ++ tail) count last
        place =
      fieldMarks fields count last place := by
  induction fields generalizing count last place with
  | nil => exact marksFrom_open tailInside count last place
  | cons field fields induction =>
      have first : separator ∉ field := inside field List.mem_cons_self
      cases fields with
      | nil =>
          rw [List.intercalate_singleton, marksFrom_field first]
          exact marksFrom_open tailInside count last _
      | cons next fields =>
          have later : ∀ field ∈ next :: fields, separator ∉ field := by
            intro field member
            exact inside field (List.mem_cons_of_mem _ member)
          rw [List.intercalate_cons_cons, List.append_assoc, List.append_assoc,
            marksFrom_field first, List.singleton_append, marksFrom,
            if_pos rfl, induction later, fieldMarks]

theorem marks_intercalate {fields : List (List α)}
    (inside : ∀ field ∈ fields, separator ∉ field) {tail : List α}
    (tailInside : separator ∉ tail) :
    marks separator ([separator].intercalate fields ++ tail) =
      fieldMarks fields 0 0 0 :=
  marksFrom_intercalate inside tailInside 0 0 0

/-- The marks of a text of fields, by the numbers of the fields. -/
theorem marks_eq_map {fields : List (List α)}
    (inside : ∀ field ∈ fields, separator ∉ field) {tail : List α}
    (tailInside : separator ∉ tail) :
    marks separator ([separator].intercalate fields ++ tail) =
      (List.range (fields.length - 1)).map (fieldMark fields) := by
  rw [marks_intercalate inside tailInside, fieldMarks_eq_map]
  apply List.map_congr_left
  intro number _
  rw [fieldMark, Mark.mk.injEq]
  refine ⟨Nat.zero_add number, ?_, by rw [Nat.zero_add]⟩
  by_cases first : number = 0
  · simp [first]
  · rw [if_neg first, Nat.zero_add]

/-- No field of a text that was split holds the separator. -/
theorem not_mem_of_mem_splitOn {text field : List α}
    (member : field ∈ text.splitOn separator) : separator ∉ field := by
  induction text generalizing field with
  | nil =>
      rw [List.splitOn_nil, List.mem_singleton] at member
      rw [member]
      exact List.not_mem_nil
  | cons item text induction =>
      rw [List.splitOn_cons_eq_if_modifyHead] at member
      by_cases separates : item = separator
      · rw [if_pos (beq_iff_eq.mpr separates)] at member
        rcases List.mem_cons.mp member with rfl | later
        · exact List.not_mem_nil
        · exact induction later
      · rw [if_neg (by simpa using separates)] at member
        have different : separator ≠ item := Ne.symm separates
        obtain ⟨first, later, split⟩ :=
          List.exists_cons_of_ne_nil (List.splitOn_ne_nil separator text)
        rw [split] at induction member
        rw [List.modifyHead_cons] at member
        rcases List.mem_cons.mp member with rfl | among
        · rw [List.mem_cons, not_or]
          exact ⟨different, induction List.mem_cons_self⟩
        · exact induction (List.mem_cons_of_mem _ among)

end

end FieldScan
