import Tp79Boot.FlashUpdata

/-!
# What is read back from flash

`Flash_Write` and `Flash_Updata` store bytes in order, `Flash_Read` returns
each word with its bytes reversed, and `Flash_Read_for_download` returns them
in order.  Data survives the trip exactly when each of its words reads the
same from both ends, as the flag words `0x88888888` and `0x66666666` do.
-/

namespace Tp79Boot

open NorMemory

/-- Every word of the data is the same read from either end. -/
def WordsMirrored (data : List UInt8) : Prop :=
  ∀ index, index < data.length →
    byteAt data (mirrored index) = byteAt data index

instance (data : List UInt8) : Decidable (WordsMirrored data) :=
  inferInstanceAs (Decidable (∀ index, index < data.length → _ = _))

/-- A flash that never held anything. -/
def blankFlash : Flash :=
  { mem := fun _ => 0xFF
    log := [] }

private theorem flashRead_eq_iff {flash : Flash} {startAddr : Nat}
    {data : List UInt8} (whole : 4 ∣ data.length)
    (stored : ∀ index, index < data.length →
      flash.mem (startAddr + index) = byteAt data index) :
    flashRead flash startAddr data.length = data ↔ WordsMirrored data := by
  rw [eq_iff_byteAt (flashRead_length _ _ _), WordsMirrored]
  refine forall₂_congr fun index bound => ?_
  rw [flashRead_byteAt _ _ bound, stored _ (mirrored_lt whole bound)]

theorem flashWrite_stores {flash : Flash} {startAddr : Nat}
    {data : List UInt8} (whole : 4 ∣ data.length)
    (erased : Erased stm32f103ve flash.mem startAddr
      (startAddr + data.length)) :
    ∀ index, index < data.length →
      (flashWrite flash startAddr data data.length).mem (startAddr + index) =
        byteAt data index := by
  intro index bound
  obtain ⟨flashAddress, blank⟩ :=
    erased (startAddr + index) (by omega) (by omega)
  rw [flashWrite_mem _ _ _ whole, if_pos ⟨flashAddress, by omega, by omega⟩,
    and_of_blank blank, Nat.add_sub_cancel_left]

/-- Data is read back unchanged exactly when its words are mirrored, and the
two readers agree exactly on ranges whose words are mirrored. -/
theorem flash_readsBack_iff (flash : Flash) {startAddr : Nat}
    (data : List UInt8) (aligned : 4 ∣ startAddr) (whole : 4 ∣ data.length)
    (erased : Erased stm32f103ve flash.mem startAddr
      (startAddr + data.length)) :
    (flashRead (flashWrite flash startAddr data data.length) startAddr
        data.length = data ↔ WordsMirrored data) ∧
      (OnePage startAddr data.length →
        (flashRead (flashUpdata flash startAddr data data.length) startAddr
          data.length = data ↔ WordsMirrored data)) ∧
      ∀ (content : Flash) (start size : Nat),
        flashRead content start size = flashReadForDownload content start size ↔
          ∀ index, index < size →
            content.mem (start + mirrored index) =
              content.mem (start + index) := by
  refine ⟨?_, ?_, ?_⟩
  · exact flashRead_eq_iff whole (flashWrite_stores whole erased)
  · intro onePage
    apply flashRead_eq_iff whole
    intro index bound
    obtain ⟨flashAddress, _⟩ :=
      erased (startAddr + index) (by omega) (by omega)
    rw [flashUpdata_inside flash data onePage aligned whole flashAddress
      ⟨by omega, by omega⟩, Nat.add_sub_cancel_left]
  · intro content start size
    rw [eq_iff_byteAt (by simp), flashReadForDownload_length]
    refine forall₂_congr fun index bound => ?_
    rw [flashRead_byteAt _ _ bound, flashReadForDownload_byteAt _ _ bound]

private theorem blankFlash_erased {startAddr : Nat}
    (inside : 0x08000000 ≤ startAddr) (size : Nat)
    (fits : startAddr + size ≤ 0x08080000) :
    Erased stm32f103ve blankFlash.mem startAddr (startAddr + size) := by
  intro target above below
  refine ⟨?_, rfl⟩
  unfold Geometry.Contains
  simp only [stm32f103ve]
  omega

/-- The word `0x88888888` survives the trip through the boot-flag page. -/
theorem flash_readsBack_bootFlag :
    flashRead (flashWrite blankFlash flashAddrBootFlag
        [0x88, 0x88, 0x88, 0x88] 4) flashAddrBootFlag 4 =
        [0x88, 0x88, 0x88, 0x88] ∧
      flashRead (flashUpdata blankFlash flashAddrBootFlag
        [0x88, 0x88, 0x88, 0x88] 4) flashAddrBootFlag 4 =
        [0x88, 0x88, 0x88, 0x88] := by
  have mirroredWord : WordsMirrored [0x88, 0x88, 0x88, 0x88] := by decide
  obtain ⟨written, updated, _⟩ := flash_readsBack_iff blankFlash
    [0x88, 0x88, 0x88, 0x88] (show 4 ∣ flashAddrBootFlag by decide)
    (by decide) (blankFlash_erased (by decide) _ (by decide))
  exact ⟨written.mpr mirroredWord, (updated (by
    constructor
    · decide
    · decide)).mpr mirroredWord⟩

/-- The bytes `1, 2, 3, 4` come back as `4, 3, 2, 1`. -/
theorem flash_readsBack_reversed :
    ¬∀ (flash : Flash) (startAddr : Nat) (data : List UInt8),
      4 ∣ startAddr → 4 ∣ data.length →
      Erased stm32f103ve flash.mem startAddr (startAddr + data.length) →
      flashRead (flashWrite flash startAddr data data.length) startAddr
        data.length = data := by
  intro readsBack
  have returned := readsBack blankFlash 0x08004000 [1, 2, 3, 4] (by decide)
    (by decide) (blankFlash_erased (by decide) _ (by decide))
  have words := (flashRead_eq_iff (by decide) (flashWrite_stores (by decide)
    (blankFlash_erased (by decide) _ (by decide)))).mp returned
  exact absurd words (by decide)

end Tp79Boot
