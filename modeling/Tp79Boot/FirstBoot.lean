import Tp79Boot.FlashRoundTrip
import Tp79Boot.Poc.State

/-!
# The first boot

When the flag in the configuration page is missing, `device_init` copies the
characters of `VER_SOFT` over what it has just read, without the zero behind
them.  Where the text ends depends on what the page held there.
-/

namespace Tp79Boot

open NorMemory

/-- The field has a zero in it, and what stands before the first one is the
text. -/
def HoldsText {size : Nat} (field : Vector UInt8 size) (text : List UInt8) :
    Prop :=
  0 ∈ field.toList ∧ field.toList.takeWhile (fun byte => byte != 0) = text

theorem HoldsText.strlen_lt {size : Nat} {field : Vector UInt8 size}
    {text : List UInt8} (holds : HoldsText field text) (past : List UInt8) :
    strlen (field.toList ++ past) < size := by
  obtain ⟨place, inside, zero⟩ := List.getElem_of_mem holds.1
  have ends : byteAt (field.toList ++ past) place = 0 := by
    rw [byteAt_append_left inside, byteAt_of_lt inside, zero]
  have bound : place < size := by simpa using inside
  exact Nat.lt_of_le_of_lt (strlen_le_of_zero ends) bound

theorem holdsText_iff {size : Nat} {field : Vector UInt8 size}
    {text : List UInt8} {next : UInt8} {rest : List UInt8}
    (nonzero : ∀ byte ∈ text, byte ≠ 0)
    (bytes : field.toList = text ++ next :: rest) :
    HoldsText field text ↔ next = 0 := by
  have passed : ∀ byte ∈ text, (byte != 0) = true :=
    fun byte member => bne_iff_ne.mpr (nonzero byte member)
  rw [HoldsText, bytes, List.takeWhile_append_of_pos passed]
  by_cases zero : next = 0
  · simp [zero]
  · simp [zero]

theorem memcpyField_toList {size : Nat} (field : Vector UInt8 size)
    {source : List UInt8} (fits : source.length ≤ size) :
    (memcpyField field source source.length).toList =
      source ++ field.toList.drop source.length := by
  apply List.ext_getElem
  · simp [fits]
  · intro index inField inBoth
    have bound : index < size := by simpa using inField
    rw [Vector.getElem_toList, memcpyField_getElem _ _ _ _ bound]
    by_cases inText : index < source.length
    · rw [if_pos inText, List.getElem_append_left inText, byteAt_of_lt inText]
    · have past : source.length ≤ index := Nat.le_of_not_lt inText
      rw [if_neg inText, List.getElem_append_right past]
      simp [Nat.add_sub_cancel' past]

theorem verSoft_nonzero : ∀ byte ∈ verSoft, byte ≠ 0 :=
  nonzero_of_all (by decide)

/-- The version after the first boot: the text, and the second half of what
was read. -/
theorem deviceInit_ver {flash : Flash}
    (first : (deviceConfigRead flash).initFlag ≠ 0x66666666) :
    (deviceInit flash).1.ver.toList =
      verSoft ++ (deviceConfigRead flash).ver.toList.drop verSoft.length := by
  have copied : (deviceInit flash).1.ver =
      memcpyField (deviceConfigRead flash).ver verSoft verSoft.length := by
    simp only [deviceInit, if_pos first]
  rw [copied]
  exact memcpyField_toList _ (by decide)

/-- After the first boot the field holds `VER_SOFT` exactly when the page held
a zero in the place behind it; then no reader leaves the field. -/
theorem firstBoot_wellFormed_iff {flash : Flash}
    (first : (deviceConfigRead flash).initFlag ≠ 0x66666666) :
    (HoldsText (deviceInit flash).1.ver verSoft ∧
        ∀ past, strlen ((deviceInit flash).1.ver.toList ++ past) < 32) ↔
      flash.mem (flashAddrUserStart + (4 + mirrored 16)) = 0 := by
  have inside : 16 < (deviceConfigRead flash).ver.toList.length := by simp
  have bytes := deviceInit_ver first
  have split : (deviceConfigRead flash).ver.toList.drop verSoft.length =
      flash.mem (flashAddrUserStart + (4 + mirrored 16)) ::
        (deviceConfigRead flash).ver.toList.drop 17 := by
    have length : verSoft.length = 16 := rfl
    rw [length, List.drop_eq_getElem_cons inside, Vector.getElem_toList,
      deviceConfigRead_ver]
  rw [split] at bytes
  have text := holdsText_iff verSoft_nonzero bytes
  constructor
  · exact fun wellFormed => text.mp wellFormed.1
  · intro zero
    have holds := text.mpr zero
    exact ⟨holds, holds.strlen_lt⟩

def zeroFlash : Flash :=
  { mem := fun _ => 0
    log := [] }

theorem zeroFlash_first :
    (deviceConfigRead zeroFlash).initFlag ≠ 0x66666666 := by
  rw [deviceConfigRead_initFlag]
  decide

theorem blankFlash_first :
    (deviceConfigRead blankFlash).initFlag ≠ 0x66666666 := by
  rw [deviceConfigRead_initFlag]
  decide

/-- A page of zeros. -/
theorem firstBoot_wellFormed_zeros :
    HoldsText (deviceInit zeroFlash).1.ver verSoft :=
  ((firstBoot_wellFormed_iff zeroFlash_first).mpr rfl).1

/-- An erased page: `0xFF` follows the text up to the end of the field. -/
theorem firstBoot_unterminated :
    ¬∀ flash : Flash, (deviceConfigRead flash).initFlag ≠ 0x66666666 →
      HoldsText (deviceInit flash).1.ver verSoft := by
  intro wellFormed
  have text := wellFormed blankFlash blankFlash_first
  have bytes := deviceInit_ver blankFlash_first
  have zero : (0 : UInt8) ∈ verSoft ++
      (deviceConfigRead blankFlash).ver.toList.drop verSoft.length := by
    rw [← bytes]
    exact text.1
  rcases List.mem_append.mp zero with inText | behind
  · exact verSoft_nonzero 0 inText rfl
  · obtain ⟨index, inside, read⟩ :=
      List.getElem_of_mem (List.mem_of_mem_drop behind)
    have bound : index < 32 := by simpa using inside
    rw [Vector.getElem_toList, deviceConfigRead_ver blankFlash bound] at read
    have blank : (0xFF : UInt8) = 0 := read
    exact absurd blank (by decide)

end Tp79Boot
