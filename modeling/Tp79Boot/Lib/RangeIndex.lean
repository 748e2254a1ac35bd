/-!
# Numbering the members of ranges

A list of ranges stands for the values in them.  The values are numbered in
order and without a gap, range by range; the list is searched from the front,
and a value that lies before a range is in none.
-/

namespace RangeIndex

structure Range where
  first : Nat
  last : Nat
  ordered : first ≤ last

def Range.count (range : Range) : Nat := range.last - range.first + 1

def total : List Range → Nat
  | [] => 0
  | range :: ranges => range.count + total ranges

/-- Each range lies behind the one before it. -/
def Ascending : Nat → List Range → Prop
  | _, [] => True
  | bound, range :: ranges =>
      bound ≤ range.first ∧ Ascending (range.last + 1) ranges

instance instDecidableAscending :
    (bound : Nat) → (ranges : List Range) → Decidable (Ascending bound ranges)
  | _, [] => inferInstanceAs (Decidable True)
  | bound, range :: ranges =>
      have := instDecidableAscending (range.last + 1) ranges
      inferInstanceAs (Decidable (bound ≤ range.first ∧ _))

/-- The number of a value, from `start` on. -/
def number : List Range → Nat → Nat → Option Nat
  | [], _, _ => none
  | range :: ranges, start, value =>
      if value < range.first then none
      else if value ≤ range.last then some (start + (value - range.first))
      else number ranges (start + range.count) value

variable {range : Range} {ranges : List Range} {start value place : Nat}

theorem number_inside (above : range.first ≤ value)
    (below : value ≤ range.last) :
    number (range :: ranges) start value =
      some (start + (value - range.first)) := by
  rw [number, if_neg (Nat.not_lt_of_le above), if_pos below]

theorem number_behind (behind : range.last < value) :
    number (range :: ranges) start value =
      number ranges (start + range.count) value := by
  have above : range.first ≤ value :=
    Nat.le_trans range.ordered (Nat.le_of_lt behind)
  rw [number, if_neg (Nat.not_lt_of_le above), if_neg (Nat.not_le_of_lt behind)]

theorem number_cases
    (numbered : number (range :: ranges) start value = some place) :
    range.first ≤ value ∧ value ≤ range.last ∧
        place = start + (value - range.first) ∨
      range.last < value ∧
        number ranges (start + range.count) value = some place := by
  rw [number] at numbered
  split at numbered
  next => cases numbered
  next above =>
    split at numbered
    next below =>
      cases numbered
      exact .inl ⟨Nat.le_of_not_lt above, below, rfl⟩
    next behind => exact .inr ⟨Nat.lt_of_not_le behind, numbered⟩

theorem number_bounds (numbered : number ranges start value = some place) :
    start ≤ place ∧ place < start + total ranges := by
  induction ranges generalizing start with
  | nil => cases numbered
  | cons range ranges induction =>
      rw [total]
      rcases number_cases numbered with ⟨above, below, rfl⟩ | ⟨_, rest⟩
      · unfold Range.count
        omega
      · have bounds := induction rest
        omega

theorem number_member (numbered : number ranges start value = some place) :
    ∃ range ∈ ranges, range.first ≤ value ∧ value ≤ range.last := by
  induction ranges generalizing start with
  | nil => cases numbered
  | cons range ranges induction =>
      rcases number_cases numbered with ⟨above, below, _⟩ | ⟨_, rest⟩
      · exact ⟨range, List.mem_cons_self, above, below⟩
      · obtain ⟨later, member, inside⟩ := induction rest
        exact ⟨later, List.mem_cons_of_mem range member, inside⟩

/-- The numbers go up with the values. -/
theorem number_strictMono {other next : Nat} (less : value < other)
    (here : number ranges start value = some place)
    (there : number ranges start other = some next) : place < next := by
  induction ranges generalizing start with
  | nil => cases here
  | cons range ranges induction =>
      rcases number_cases here with ⟨above, below, rfl⟩ | ⟨behind, rest⟩
      · rcases number_cases there with ⟨_, _, rfl⟩ | ⟨_, further⟩
        · omega
        · have bounds := number_bounds further
          unfold Range.count at bounds
          omega
      · rw [number_behind (Nat.lt_trans behind less)] at there
        exact induction rest there

/-- There is no gap between the numbers. -/
theorem number_onto {bound : Nat} (ascending : Ascending bound ranges)
    (first : start ≤ place) (last : place < start + total ranges) :
    ∃ value, bound ≤ value ∧ number ranges start value = some place := by
  induction ranges generalizing start bound with
  | nil => exact absurd last (Nat.not_lt_of_le first)
  | cons range ranges induction =>
      have ordered := range.ordered
      rcases Nat.lt_or_ge place (start + range.count) with here | later
      · unfold Range.count at here
        have numbered := @number_inside range ranges start
          (range.first + (place - start)) (by omega) (by omega)
        refine ⟨range.first + (place - start), ?_, ?_⟩
        · exact Nat.le_trans ascending.1 (Nat.le_add_right _ _)
        · rw [numbered]
          apply congrArg some
          omega
      · have inside : place < start + range.count + total ranges := by
          rw [total] at last
          omega
        obtain ⟨value, behind, numbered⟩ :=
          induction ascending.2 later inside
        refine ⟨value, ?_, ?_⟩
        · exact Nat.le_trans ascending.1 (Nat.le_trans ordered
            (Nat.le_of_lt behind))
        · exact (number_behind behind).trans numbered

theorem number_range {bound : Nat} (ascending : Ascending bound ranges) :
    (∃ value, number ranges start value = some place) ↔
      start ≤ place ∧ place < start + total ranges := by
  constructor
  · intro numbered
    obtain ⟨value, numbered⟩ := numbered
    exact number_bounds numbered
  · intro bounds
    obtain ⟨value, _, numbered⟩ := number_onto ascending bounds.1 bounds.2
    exact ⟨value, numbered⟩

end RangeIndex
