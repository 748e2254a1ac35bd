import Mathlib.Data.List.Basic
import Tp79Boot.WriteCode.Message

/-!
# Delimiters in a message

The loops of the parser look for single characters.  Where a known text stands
in the message, the positions they meet are the positions in that text.
-/

namespace Tp79Boot

/-- The text stands in the message at `start`. -/
def Stands (msg : List UInt8) (start : Nat) (text : List UInt8) : Prop :=
  ∀ place, place < text.length → byteAt msg (start + place) = byteAt text place

section

variable {msg text first second : List UInt8} {start : Nat}

theorem stands_append :
    Stands msg start (first ++ second) ↔
      Stands msg start first ∧ Stands msg (start + first.length) second := by
  constructor
  · intro stands
    constructor
    · intro place inside
      have bound : place < (first ++ second).length := by
        rw [List.length_append]
        exact Nat.lt_add_right _ inside
      rw [stands place bound, byteAt_append_left inside]
    · intro place inside
      have bound : first.length + place < (first ++ second).length := by
        rw [List.length_append]
        exact Nat.add_lt_add_left inside _
      rw [Nat.add_assoc, stands _ bound, byteAt_append_right]
  · rintro ⟨front, back⟩ place inside
    rcases Nat.lt_or_ge place first.length with earlier | later
    · rw [front place earlier, byteAt_append_left earlier]
    · obtain ⟨further, rfl⟩ := Nat.exists_eq_add_of_le later
      rw [List.length_append] at inside
      rw [← Nat.add_assoc, back further (Nat.lt_of_add_lt_add_left inside),
        byteAt_append_right]

theorem stands_cons {character : UInt8} :
    Stands msg start (character :: text) ↔
      byteAt msg start = character ∧ Stands msg (start + 1) text := by
  have split := @stands_append msg [character] text start
  rw [List.singleton_append, List.length_singleton] at split
  rw [split]
  refine and_congr_left fun _ => ?_
  constructor
  · intro stands
    exact stands 0 (Nat.zero_lt_one)
  · intro here place inside
    have zero : place = 0 := Nat.lt_one_iff.mp inside
    subst zero
    exact here

theorem stands_drop {count : Nat} :
    Stands (msg.drop count) start text ↔ Stands msg (count + start) text := by
  refine forall₂_congr fun place _ => ?_
  rw [byteAt_drop, Nat.add_assoc]

theorem stands_middle (front text rest : List UInt8) :
    Stands (front ++ (text ++ rest)) front.length text := by
  intro place inside
  rw [byteAt_append_right, byteAt_append_left inside]

theorem range'_filter_eq_findIdxs (test : UInt8 → Bool)
    (stands : Stands msg start text) :
    (List.range' start text.length).filter
        (fun place => test (byteAt msg place)) =
      text.findIdxs test start := by
  induction text generalizing start with
  | nil => rfl
  | cons character text induction =>
      obtain ⟨here, later⟩ := stands_cons.mp stands
      rw [List.length_cons, List.range'_succ, List.filter_cons, here,
        induction later, List.findIdxs_cons]

theorem positions_eq {stop : Nat} (character : UInt8)
    (stands : Stands msg start text) (whole : stop = start + text.length) :
    positions msg character start stop =
      text.findIdxs (fun byte => byte == character) start := by
  rw [positions, whole, Nat.add_sub_cancel_left]
  exact range'_filter_eq_findIdxs (fun byte => byte == character) stands

end

/-- The text has none of the characters that the parser looks for. -/
def delimiters : List UInt8 :=
  [chBracketOpen, chBracketClose, chParenOpen, chParenClose, chBraceOpen,
    chBraceClose, 0x3C, chGreater, chComma, chSemicolon]

def Plain (text : List UInt8) : Prop :=
  ∀ byte ∈ text, byte ∉ delimiters

instance (text : List UInt8) : Decidable (Plain text) :=
  List.decidableBAll (· ∉ delimiters) text

theorem Plain.findIdxs {text : List UInt8} (plain : Plain text)
    {test : UInt8 → Bool} (marks : ∀ byte, test byte = true → byte ∈ delimiters)
    (start : Nat) : text.findIdxs test start = [] := by
  apply List.findIdxs_eq_nil_iff.mpr
  intro byte member
  by_contra found
  exact plain byte member (marks byte (by simpa using found))

theorem Plain.append {first second : List UInt8} (front : Plain first)
    (back : Plain second) : Plain (first ++ second) := by
  intro byte member
  rcases List.mem_append.mp member with inFirst | inSecond
  · exact front byte inFirst
  · exact back byte inSecond

theorem hexChars_plain (bytes : List UInt8) : Plain (hexChars bytes) := by
  intro character member
  obtain ⟨digit, rfl⟩ := hexChars_digit member
  clear member
  revert digit
  decide

end Tp79Boot
