import Tp79Boot.MyString
import Tp79Boot.Lib.RangeIndex
import Tp79Boot.Display.GlyphWindows

/-!
# From Unicode to GB2312

`unicode_to_gb2312` looks a code point up in a table of the font ROM.  The
table has no slots for the code points between the ranges the ROM supports.
-/

namespace Tp79Boot

open ByteStore RangeIndex

/-- The index `h` of a code point; there is none where `result` is set. -/
def unicodeIndex (ucsData : UInt16) : Option Int :=
  let code : Int := ucsData.toNat
  if ucsData < 0xa0 then none
  else if ucsData ≤ 0xf7 then some (code - 160)
  else if ucsData < 0x2c7 then none
  else if ucsData ≤ 0x2c9 then some (code - 160 - 463)
  else if ucsData < 0x2010 then none
  else if ucsData ≤ 0x2312 then some (code - 160 - 463 - 7494)
  else if ucsData < 0x2460 then none
  else if ucsData ≤ 0x2642 then some (code - 160 - 463 - 7494 - 333)
  else if ucsData < 0x3000 then none
  else if ucsData ≤ 0x3017 then some (code - 160 - 463 - 7494 - 333 - 2493)
  else if ucsData < 0x3220 then none
  else if ucsData ≤ 0x3229 then
    some (code - 160 - 463 - 7494 - 333 - 2493 - 520)
  else if ucsData < 0x4e00 then none
  else if ucsData ≤ 0x9b54 then
    some (code - 160 - 463 - 7494 - 333 - 2493 - 520 - 7126)
  else if ucsData < 0x9c7c then none
  else if ucsData ≤ 0x9ce2 then
    some (code - 160 - 463 - 7494 - 333 - 2493 - 520 - 7126 - 295)
  else if ucsData < 0x9e1f then none
  else if ucsData ≤ 0x9fa0 then
    some (code - 160 - 463 - 7494 - 333 - 2493 - 520 - 7126 - 295 - 316)
  else if ucsData < 0xe76c then none
  else if ucsData ≤ 0xe774 then
    some (code - 160 - 463 - 7494 - 333 - 2493 - 520 - 7126 - 295 - 316 - 18379)
  else if ucsData < 0xff00 then none
  else if ucsData ≤ 0xff5f then
    some (code - 160 - 463 - 7494 - 333 - 2493 - 520 - 7126 - 295 - 316 -
      18379 - 6027)
  else if ucsData < 0xffe0 then none
  else if ucsData ≤ 0xffe5 then
    some (code - 160 - 463 - 7494 - 333 - 2493 - 520 - 7126 - 295 - 316 -
      18379 - 6027 - 128)
  else none

/-- The two bytes at `ADDR_UNICODE_TO_GB2312 + (h<<1)`. -/
def unicodeRead (h : Int) : FontRead :=
  { addr := addrUnicodeToGb2312 + UInt32.ofInt (2 * h)
    offset := 0
    datlen := 2 }

def unicodeReads (ucsData : UInt16) : List FontRead :=
  match unicodeIndex ucsData with
  | some h => [unicodeRead h]
  | none => []

/-- The halfword as it is read, with its bytes swapped. -/
def unicodeToGb2312 (rom : Nat → UInt8) (ucsData : UInt16) : UInt16 :=
  let gbcode : UInt16 :=
    match unicodeIndex ucsData with
    | some h =>
        let read := halfwordOfBytes ((unicodeRead h).bytes rom)
        (read >>> 8) + (read <<< 8)
    | none => 0x0000
  let result := (gbcode >>> 8) &&& (0xff : UInt16)
  ((gbcode <<< 8) &&& (0xff00 : UInt16)) ||| result

/-- The code points that the ROM supports. -/
def unicodeRanges : List Range :=
  [⟨0xa0, 0xf7, by decide⟩, ⟨0x2c7, 0x2c9, by decide⟩,
    ⟨0x2010, 0x2312, by decide⟩, ⟨0x2460, 0x2642, by decide⟩,
    ⟨0x3000, 0x3017, by decide⟩, ⟨0x3220, 0x3229, by decide⟩,
    ⟨0x4e00, 0x9b54, by decide⟩, ⟨0x9c7c, 0x9ce2, by decide⟩,
    ⟨0x9e1f, 0x9fa0, by decide⟩, ⟨0xe76c, 0xe774, by decide⟩,
    ⟨0xff00, 0xff5f, by decide⟩, ⟨0xffe0, 0xffe5, by decide⟩]

theorem number_branch {range : Range} {ranges : List Range}
    {start value : Nat} {below inside : Prop} [Decidable below]
    [Decidable inside] {h : Int} {further : Option Int}
    (before : below ↔ value < range.first)
    (within : inside ↔ value ≤ range.last)
    (index : range.first ≤ value → h = (start + (value - range.first) : Nat))
    (rest : further =
      (number ranges (start + range.count) value).map Int.ofNat) :
    (if below then none else if inside then some h else further) =
      (number (range :: ranges) start value).map Int.ofNat := by
  rw [number]
  by_cases less : below
  · rw [if_pos less, if_pos (before.mp less)]
    rfl
  · have above := mt before.mpr less
    rw [if_neg less, if_neg above]
    by_cases here : inside
    · rw [if_pos here, if_pos (within.mp here), index (Nat.le_of_not_lt above)]
      rfl
    · rw [if_neg here, if_neg (mt within.mpr here)]
      exact rest

theorem unicodeIndex_eq (ucsData : UInt16) :
    unicodeIndex ucsData =
      (number unicodeRanges 0 ucsData.toNat).map Int.ofNat := by
  unfold unicodeIndex unicodeRanges
  iterate 12
    refine number_branch Iff.rfl Iff.rfl ?_ ?_
    · intro above
      simp only [Range.count] at above ⊢
      omega
  rfl

theorem unicodeIndex_number {ucsData : UInt16} {h : Int}
    (indexed : unicodeIndex ucsData = some h) :
    ∃ place : Nat, h = place ∧
      number unicodeRanges 0 ucsData.toNat = some place := by
  rw [unicodeIndex_eq] at indexed
  obtain ⟨place, numbered, same⟩ := Option.map_eq_some_iff.mp indexed
  exact ⟨place, same.symm, numbered⟩

theorem unicodeRanges_ascending : Ascending 0 unicodeRanges := by
  decide

theorem unicodeRanges_total : total unicodeRanges = 21776 := rfl

theorem unicodeRanges_halfword :
    ∀ range ∈ unicodeRanges, range.last < 0x10000 := by
  have check : (unicodeRanges.all fun range => decide (range.last < 0x10000)) =
      true := by decide
  intro range member
  exact of_decide_eq_true (List.all_eq_true.mp check range member)

theorem swapped_back (read : UInt16) :
    ((((read >>> 8) + (read <<< 8)) <<< 8) &&& (0xff00 : UInt16)) |||
        ((((read >>> 8) + (read <<< 8)) >>> 8) &&& (0xff : UInt16)) =
      read := by
  have range := read.toNat_lt
  have swapped : (read >>> 8) + (read <<< 8) = swapBytes read := by
    apply UInt16.toNat_inj.mp
    rw [swapBytes_toNat]
    simp [Nat.shiftRight_eq_div_pow, Nat.shiftLeft_eq]
    omega
  have again := swapBytes_toNat (swapBytes read)
  rw [swapBytes_toNat read] at again
  rw [swapped, UInt16.or_comm]
  apply UInt16.toNat_inj.mp
  apply again.trans
  omega

theorem unicodeToGb2312_some (rom : Nat → UInt8) {ucsData : UInt16} {h : Int}
    (indexed : unicodeIndex ucsData = some h) :
    unicodeToGb2312 rom ucsData =
      halfwordOfBytes ((unicodeRead h).bytes rom) := by
  unfold unicodeToGb2312
  rw [indexed]
  exact swapped_back _

theorem unicodeToGb2312_none (rom : Nat → UInt8) {ucsData : UInt16}
    (missing : unicodeIndex ucsData = none) :
    unicodeToGb2312 rom ucsData = 0 := by
  have zero : (((0 : UInt16) <<< 8) &&& (0xff00 : UInt16)) |||
      (((0 : UInt16) >>> 8) &&& (0xff : UInt16)) = 0 := by decide
  unfold unicodeToGb2312
  rw [missing]
  exact zero

theorem unicodeRead_addr {place : Nat} (inside : place < 21776) :
    (unicodeRead place).addr.toNat = addrUnicodeToGb2312.toNat + place * 2 := by
  have base : addrUnicodeToGb2312.toNat = 0x67D70 := rfl
  have word : (UInt32.ofInt (2 * (place : Int))).toNat = 2 * place := by
    have value : (2 * (place : Int) % 2 ^ 32).toNat = 2 * place := by omega
    have small : 2 * place < 2 ^ 32 := by omega
    rw [UInt32.ofInt, value]
    exact UInt32.toNat_ofNat_of_lt' small
  rw [unicodeRead, UInt32.toNat_add, word, base]
  omega

theorem unicodeReads_cases {ucsData : UInt16} {read : FontRead}
    (member : read ∈ unicodeReads ucsData) :
    ∃ place : Nat, number unicodeRanges 0 ucsData.toNat = some place ∧
      place < 21776 ∧ read.datlen = 2 ∧
      read.addr.toNat = addrUnicodeToGb2312.toNat + place * 2 := by
  unfold unicodeReads at member
  cases indexed : unicodeIndex ucsData with
  | none =>
      rw [indexed] at member
      cases member
  | some h =>
      rw [indexed] at member
      cases List.mem_singleton.mp member
      obtain ⟨place, rfl, numbered⟩ := unicodeIndex_number indexed
      have inside := (number_bounds numbered).2
      rw [unicodeRanges_total, Nat.zero_add] at inside
      exact ⟨place, numbered, inside, rfl, unicodeRead_addr inside⟩

theorem unicodeReads_inTable {ucsData : UInt16} {read : FontRead}
    (member : read ∈ unicodeReads ucsData) :
    addrUnicodeToGb2312.toNat ≤ read.addr.toNat ∧
      read.addr.toNat + read.datlen.toNat ≤
        addrUnicodeToGb2312.toNat + 21776 * 2 := by
  obtain ⟨place, _, inside, size, addr⟩ := unicodeReads_cases member
  have two : (2 : UInt8).toNat = 2 := rfl
  rw [size, addr, two]
  omega

theorem unicodeReads_apart {first second : UInt16} (different : first ≠ second)
    {read other : FontRead} (member : read ∈ unicodeReads first)
    (otherMember : other ∈ unicodeReads second) : read.Apart other := by
  obtain ⟨place, numbered, _, size, addr⟩ := unicodeReads_cases member
  obtain ⟨next, nextNumbered, _, nextSize, nextAddr⟩ :=
    unicodeReads_cases otherMember
  have places : place ≠ next := by
    have values : first.toNat ≠ second.toNat := mt UInt16.toNat_inj.mp different
    rcases Nat.lt_or_gt_of_ne values with less | greater
    · exact Nat.ne_of_lt (number_strictMono less numbered nextNumbered)
    · exact Nat.ne_of_gt (number_strictMono greater nextNumbered numbered)
  unfold FontRead.Apart
  rw [addr, nextAddr, size, nextSize]
  exact ByteStore.slots_apart _ 2 places

theorem unicodeIndex_strictMono {first second : UInt16} {h next : Int}
    (less : first < second) (indexed : unicodeIndex first = some h)
    (nextIndexed : unicodeIndex second = some next) : h < next := by
  obtain ⟨place, rfl, numbered⟩ := unicodeIndex_number indexed
  obtain ⟨later, rfl, laterNumbered⟩ := unicodeIndex_number nextIndexed
  exact Int.ofNat_lt.mpr (number_strictMono less numbered laterNumbered)

theorem unicodeIndex_range (h : Int) :
    (∃ ucsData, unicodeIndex ucsData = some h) ↔ 0 ≤ h ∧ h ≤ 21775 := by
  have numbers (place : Nat) :=
    @number_range unicodeRanges 0 place 0 unicodeRanges_ascending
  simp only [unicodeRanges_total, Nat.zero_add] at numbers
  constructor
  · intro indexed
    obtain ⟨ucsData, indexed⟩ := indexed
    obtain ⟨place, rfl, numbered⟩ := unicodeIndex_number indexed
    have bounds := (numbers place).mp ⟨_, numbered⟩
    omega
  · intro bounds
    obtain ⟨place, rfl⟩ := Int.eq_ofNat_of_zero_le bounds.1
    obtain ⟨value, numbered⟩ := (numbers place).mpr (by omega)
    obtain ⟨range, member, _, last⟩ := number_member numbered
    have halfword := Nat.lt_of_le_of_lt last
      (unicodeRanges_halfword range member)
    refine ⟨UInt16.ofNat value, ?_⟩
    rw [unicodeIndex_eq, UInt16.toNat_ofNat_of_lt' halfword, numbered]
    rfl

/-- The index goes up with the code point and takes every value up to 21775;
the code points with an index are read from slots of their own inside the
table, and the others yield zero. -/
theorem unicodeIndex_dense :
    (∀ first second h next, first < second → unicodeIndex first = some h →
        unicodeIndex second = some next → h < next) ∧
      (∀ h, (∃ ucsData, unicodeIndex ucsData = some h) ↔ 0 ≤ h ∧ h ≤ 21775) ∧
      (∀ first second, first ≠ second → ∀ read ∈ unicodeReads first,
        ∀ other ∈ unicodeReads second, read.Apart other) ∧
      (∀ ucsData, ∀ read ∈ unicodeReads ucsData,
        addrUnicodeToGb2312.toNat ≤ read.addr.toNat ∧
          read.addr.toNat + read.datlen.toNat ≤
            addrUnicodeToGb2312.toNat + 21776 * 2) ∧
      ∀ rom ucsData,
        (∀ h, unicodeIndex ucsData = some h →
          unicodeToGb2312 rom ucsData =
            halfwordOfBytes ((unicodeRead h).bytes rom)) ∧
          (unicodeIndex ucsData = none → unicodeToGb2312 rom ucsData = 0) := by
  refine ⟨?_, ?_, ?_, ?_, ?_⟩
  · exact fun _ _ _ _ => unicodeIndex_strictMono
  · exact unicodeIndex_range
  · exact fun _ _ different _ member _ => unicodeReads_apart different member
  · exact fun _ _ => unicodeReads_inTable
  · intro rom ucsData
    constructor
    · exact fun _ => unicodeToGb2312_some rom
    · exact unicodeToGb2312_none rom

/-- The second range is numbered from where the first one ends. -/
theorem unicodeIndex_dense_joint :
    unicodeIndex 0xf7 = some 87 ∧ unicodeIndex 0x2c7 = some 88 ∧
      (87 : Int) < 88 := by
  have last : unicodeIndex 0xf7 = some 87 := by decide
  have first : unicodeIndex 0x2c7 = some 88 := by decide
  exact ⟨last, first, unicodeIndex_dense.1 0xf7 0x2c7 87 88 (by decide) last
    first⟩

end Tp79Boot
