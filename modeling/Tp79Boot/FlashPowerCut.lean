import Tp79Boot.FlashRoundTrip

/-!
# Power cuts during an update

`Flash_Updata` copies the page to the reserve page before it erases it, so
wherever its operations stop, the old contents are in the page or, with the
bytes of each word reversed, in the reserve page.
-/

namespace Tp79Boot

open NorMemory

/-- The page of `startAddr` is as it was. -/
def PageKept (old mem : Mem) (startAddr : Nat) : Prop :=
  ∀ index, index < 0x800 →
    mem (pageOf startAddr + index) = old (pageOf startAddr + index)

/-- The reserve page holds the old words of the page, each with its bytes
reversed. -/
def PageMirrored (old mem : Mem) (startAddr : Nat) : Prop :=
  ∀ index, index < 0x800 →
    mem (flashAddrReserve + mirrored index) = old (pageOf startAddr + index)

theorem pageMirrored_iff (flash cut : Flash) (startAddr : Nat) :
    PageMirrored flash.mem cut.mem startAddr ↔
      flashRead cut flashAddrReserve 0x800 =
        flashReadForDownload flash (pageOf startAddr) 0x800 := by
  rw [eq_iff_byteAt (by rw [flashRead_length, flashReadForDownload_length]),
    flashReadForDownload_length]
  refine forall₂_congr fun index bound => ?_
  rw [flashRead_byteAt _ _ bound, flashReadForDownload_byteAt _ _ bound]

/-- After any part of the operations of `Flash_Updata`, from the first one on,
the old contents of the page are in one of the two pages. -/
theorem flashUpdata_survives_cut (flash : Flash) {startAddr size : Nat}
    (data : List UInt8)
    (samePage : (startAddr + size - 1) / 0x800 = startAddr / 0x800)
    (notReserve : pageOf startAddr ≠ flashAddrReserve) :
    ∃ ops, flashUpdata flash startAddr data size =
        flash.execAll stm32f103ve ops ∧
      ∀ done, done <+: ops →
        PageKept flash.mem (flash.execAll stm32f103ve done).mem startAddr ∨
          PageMirrored flash.mem (flash.execAll stm32f103ve done).mem
            startAddr := by
  obtain ⟨saving, rewriting, runs, inReserve, inPage, copied⟩ :=
    flashUpdata_halves flash data samePage notReserve
  refine ⟨saving ++ rewriting, runs, ?_⟩
  intro done stopped
  have ownPage (place : Fin 0x800) :
      pageOf (pageOf startAddr + place) = pageOf startAddr :=
    pageOf_add (pageOf_pageOf startAddr) place.isLt
  have reservePage (place : Fin 0x800) :
      pageOf (flashAddrReserve + mirrored place) = flashAddrReserve :=
    pageOf_add pageOf_reserve (mirrored_lt (by decide) place.isLt)
  have present := @original_or_copy stm32f103ve flash.mem (Fin 0x800) saving
    rewriting done (fun place => pageOf startAddr + place)
    (fun place => flashAddrReserve + mirrored place)
    (fun op member place touched => notReserve
      ((ownPage place).symm.trans (inReserve op member _ touched)))
    (fun place => copied place place.isLt)
    (fun op member place touched => notReserve
      ((inPage op member _ touched).symm.trans (reservePage place)))
    stopped
  rw [Device.execAll_mem]
  rcases present with kept | mirrored
  · exact .inl fun index bound => kept ⟨index, bound⟩
  · exact .inr fun index bound => mirrored ⟨index, bound⟩

/-- Eight bytes in the middle of a page of an empty flash. -/
theorem flashUpdata_survives_cut_middle :
    ∃ ops, flashUpdata blankFlash 0x08004404 [1, 2, 3, 4, 5, 6, 7, 8] 8 =
        blankFlash.execAll stm32f103ve ops ∧
      ∀ done, done <+: ops →
        PageKept blankFlash.mem (blankFlash.execAll stm32f103ve done).mem
            0x08004404 ∨
          PageMirrored blankFlash.mem (blankFlash.execAll stm32f103ve done).mem
            0x08004404 :=
  flashUpdata_survives_cut blankFlash [1, 2, 3, 4, 5, 6, 7, 8] (by decide)
    (by decide)

end Tp79Boot
