import Tp79Boot.CString
import Tp79Boot.FontRom

/-!
# Looking up a character in the font ROM

The four lookups of `GT21L16S2Y.C` turn a character into an address of the ROM
and read its glyph from there.  A lookup is kept as the reads it makes.
-/

namespace Tp79Boot

def addrBase15x16 : UInt32 := 0
def addrBase11x16 : UInt32 := 0x3CF80
def addrAscii8x16 : UInt32 := 0x3B7C0
def addrAscii8x12 : UInt32 := 0x66D40
def addrUnicodeToGb2312 : UInt32 := 0x67D70

/-- `gt21l16s2_read_addr(addr, out_dat + offset, datlen)`. -/
structure FontRead where
  addr : UInt32
  offset : Nat
  datlen : UInt8
deriving DecidableEq, Repr

/-- What a lookup returns, and what it reads. -/
structure Lookup where
  found : Bool
  reads : List FontRead
deriving DecidableEq, Repr

def Lookup.missing : Lookup := { found := false, reads := [] }

/-- The characters with a glyph of their own among the narrow ones. -/
def NarrowChar (byte : UInt8) : Prop :=
  0x20 ≤ byte ∧ byte ≤ 0x7E

instance (byte : UInt8) : Decidable (NarrowChar byte) :=
  inferInstanceAs (Decidable (_ ∧ _))

def gt21l16s2GetAscii8x16 (offset : Nat) (ascii : UInt8) : Lookup :=
  if NarrowChar ascii then
    { found := true
      reads := [
        { addr := (ascii.toUInt32 - 0x20) * 16 + addrAscii8x16
          offset := offset
          datlen := 16 }] }
  else .missing

def gt21l16s2GetAscii6x12 (ascii : UInt8) : Lookup :=
  if NarrowChar ascii then
    { found := true
      reads := [
        { addr := (ascii.toUInt32 - 0x20) * 12 + addrAscii8x12
          offset := 0
          datlen := 12 }] }
  else .missing

section

-- What the variable `addr` holds before it is set.
variable (stale : UInt32)

/-- The last branch of both lookups: two narrow characters.  Where only the
first one is found, the read goes on with `addr` as it is. -/
def getAsciiPair (datlen msb lsb : UInt8) : Lookup :=
  let first := gt21l16s2GetAscii8x16 0 msb
  let second := gt21l16s2GetAscii8x16 16 lsb
  if first.found then
    if second.found then
      { found := true, reads := first.reads ++ second.reads }
    else
      { found := true
        reads := first.reads ++ second.reads ++
          [{ addr := stale, offset := 0, datlen := datlen }] }
  else .missing

def gt21l16s2GetGb231215x16 (msb lsb : UInt8) : Lookup :=
  let readAt (addr : UInt32) : Lookup :=
    { found := true, reads := [{ addr := addr, offset := 0, datlen := 32 }] }
  if 0xA4 ≤ msb ∧ msb ≤ 0xA8 ∧ 0xA1 ≤ lsb then readAt addrBase15x16
  else if 0xA1 ≤ msb ∧ msb ≤ 0xA9 ∧ 0xA1 ≤ lsb then
    readAt (((msb.toUInt32 - 0xA1) * 94 + (lsb.toUInt32 - 0xA1)) * 32 +
      addrBase15x16)
  else if 0xB0 ≤ msb ∧ msb ≤ 0xF7 ∧ 0xA1 ≤ lsb then
    readAt (((msb.toUInt32 - 0xB0) * 94 + (lsb.toUInt32 - 0xA1) + 846) * 32 +
      addrBase15x16)
  else getAsciiPair stale 32 msb lsb

def gt21l16s2GetGb231211x12 (msb lsb : UInt8) : Lookup :=
  let readAt (addr : UInt32) : Lookup :=
    { found := true, reads := [{ addr := addr, offset := 0, datlen := 24 }] }
  if 0xA1 ≤ msb ∧ msb ≤ 0xA3 ∧ 0xA1 ≤ lsb then
    readAt (((msb.toUInt32 - 0xA1) * 94 + (lsb.toUInt32 - 0xA1)) * 24 +
      addrBase11x16)
  else if msb = 0xA9 ∧ 0xA1 ≤ lsb then
    readAt ((282 + (lsb.toUInt32 - 0xA1)) * 24 + addrBase11x16)
  else if 0xB0 ≤ msb ∧ msb ≤ 0xF7 ∧ 0xA1 ≤ lsb then
    readAt (((msb.toUInt32 - 0xB0) * 94 + (lsb.toUInt32 - 0xA1) + 376) * 24 +
      addrBase11x16)
  else getAsciiPair stale 24 msb lsb

end

section

variable (rom : Nat → UInt8)

def FontRead.bytes (read : FontRead) : List UInt8 :=
  (List.range read.datlen.toNat).map fun index =>
    rom (read.addr.toNat % 2 ^ 24 + index)

/-- The buffer `out_dat` with the bytes of a lookup in it. -/
def Lookup.fill (lookup : Lookup) (outDat : List UInt8) : List UInt8 :=
  lookup.reads.foldl
    (fun buffer read => writeAt buffer read.offset (read.bytes rom)) outDat

theorem FontRead.bytes_eq (read : FontRead) (bus : SpiRom.Bus)
    (deselected : bus.chipSelect = true) :
    (gt21l16s2ReadAddr rom read.addr read.datlen bus).1 = read.bytes rom :=
  gt21l16s2ReadAddr_reads rom read.addr read.datlen deselected

end

/-- The rows of the wide characters in the font of fifteen by sixteen. -/
def WideRow15x16 (lead : UInt8) : Prop :=
  (0xA1 ≤ lead ∧ lead ≤ 0xA9) ∨ (0xB0 ≤ lead ∧ lead ≤ 0xF7)

/-- The rows of the wide characters in the font of eleven by twelve. -/
def WideRow11x12 (lead : UInt8) : Prop :=
  (0xA1 ≤ lead ∧ lead ≤ 0xA3) ∨ lead = 0xA9 ∨ (0xB0 ≤ lead ∧ lead ≤ 0xF7)

instance (lead : UInt8) : Decidable (WideRow15x16 lead) :=
  inferInstanceAs (Decidable (_ ∨ _))

instance (lead : UInt8) : Decidable (WideRow11x12 lead) :=
  inferInstanceAs (Decidable (_ ∨ _))

section

variable {stale : UInt32} {datlen msb lsb : UInt8}

theorem getAsciiPair_missing (wide : ¬ NarrowChar msb) :
    getAsciiPair stale datlen msb lsb = .missing := by
  have first : gt21l16s2GetAscii8x16 0 msb = .missing := if_neg wide
  rw [getAsciiPair, first]
  rfl

theorem gb231215x16_found_iff (wide : ¬ NarrowChar msb) :
    (gt21l16s2GetGb231215x16 stale msb lsb).found = true ↔
      WideRow15x16 msb ∧ 0xA1 ≤ lsb := by
  rw [gt21l16s2GetGb231215x16, getAsciiPair_missing wide]
  split
  next blank =>
    have row : WideRow15x16 msb :=
      .inl ⟨UInt8.le_trans (by decide) blank.1,
        UInt8.le_trans blank.2.1 (by decide)⟩
    exact iff_of_true rfl ⟨row, blank.2.2⟩
  next =>
    split
    next low => exact iff_of_true rfl ⟨.inl ⟨low.1, low.2.1⟩, low.2.2⟩
    next notLow =>
      split
      next high => exact iff_of_true rfl ⟨.inr ⟨high.1, high.2.1⟩, high.2.2⟩
      next notHigh =>
        apply iff_of_false Bool.false_ne_true
        rintro ⟨low | high, trail⟩
        · exact notLow ⟨low.1, low.2, trail⟩
        · exact notHigh ⟨high.1, high.2, trail⟩

theorem gb231211x12_found_iff (wide : ¬ NarrowChar msb) :
    (gt21l16s2GetGb231211x12 stale msb lsb).found = true ↔
      WideRow11x12 msb ∧ 0xA1 ≤ lsb := by
  rw [gt21l16s2GetGb231211x12, getAsciiPair_missing wide]
  split
  next low => exact iff_of_true rfl ⟨.inl ⟨low.1, low.2.1⟩, low.2.2⟩
  next notLow =>
    split
    next frame => exact iff_of_true rfl ⟨.inr (.inl frame.1), frame.2⟩
    next notFrame =>
      split
      next high =>
        exact iff_of_true rfl ⟨.inr (.inr ⟨high.1, high.2.1⟩), high.2.2⟩
      next notHigh =>
        apply iff_of_false Bool.false_ne_true
        rintro ⟨low | frame | high, trail⟩
        · exact notLow ⟨low.1, low.2, trail⟩
        · exact notFrame ⟨frame, trail⟩
        · exact notHigh ⟨high.1, high.2, trail⟩

end

end Tp79Boot
