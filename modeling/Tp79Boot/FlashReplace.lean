import Tp79Boot.FlashRoundTrip

/-!
# Replacing part of a page

What `Flash_Updata` promises a caller: the range holds the data, nothing else
outside the reserve page is different, and no word is programmed twice between
two erasures of its page.  It keeps the promise for ranges inside one page; a
range over several pages is not written at all.
-/

namespace Tp79Boot

open NorMemory

/-- `Flash_Updata` replaces the range and keeps every other byte of flash
outside the reserve page. -/
theorem flashUpdata_replaces (flash : Flash) {startAddr size : Nat}
    (data : List UInt8) (aligned : 4 ∣ startAddr) (whole : 4 ∣ size)
    (onePage : OnePage startAddr size)
    (flashAddress : stm32f103ve.Contains startAddr)
    (notReserve : pageOf startAddr ≠ flashAddrReserve) :
    (∀ index, index < size →
        (flashUpdata flash startAddr data size).mem (startAddr + index) =
          byteAt data index) ∧
      (∀ target, stm32f103ve.Contains target →
        pageOf target ≠ flashAddrReserve →
        ¬(startAddr ≤ target ∧ target < startAddr + size) →
        (flashUpdata flash startAddr data size).mem target =
          flash.mem target) ∧
      ∃ ops, (flashUpdata flash startAddr data size).log = flash.log ++ ops ∧
        ErasedFirst stm32f103ve flash.mem ops := by
  refine ⟨?_, ?_, ?_⟩
  · intro index bound
    have inFlash : stm32f103ve.Contains (startAddr + index) := by
      obtain ⟨above, below⟩ := flashAddress
      obtain ⟨_, samePage⟩ := onePage
      unfold Geometry.Contains
      simp only [stm32f103ve] at above below ⊢
      omega
    have stored := flashUpdata_inside flash data onePage aligned whole inFlash
      ⟨Nat.le_add_right _ _, Nat.add_lt_add_left bound _⟩
    rw [stored, Nat.add_sub_cancel_left]
  · intro target inFlash offReserve outside
    by_cases samePage : pageOf target = pageOf startAddr
    · exact flashUpdata_restored flash data onePage aligned whole notReserve
        inFlash samePage outside
    · exact flashUpdata_outside flash data onePage aligned whole samePage
        offReserve
  · exact flashUpdata_erasedFirst flash data onePage aligned whole flashAddress

/-- Eight bytes in the middle of a page of an empty flash. -/
theorem flashUpdata_replaces_middle :
    (∀ index, index < 8 →
        (flashUpdata blankFlash 0x08004404 [1, 2, 3, 4, 5, 6, 7, 8] 8).mem
            (0x08004404 + index) =
          byteAt [1, 2, 3, 4, 5, 6, 7, 8] index) ∧
      (flashUpdata blankFlash 0x08004404 [1, 2, 3, 4, 5, 6, 7, 8] 8).mem
          0x08004403 = 0xFF := by
  obtain ⟨replaced, kept, _⟩ := flashUpdata_replaces blankFlash
    [1, 2, 3, 4, 5, 6, 7, 8] (show 4 ∣ 0x08004404 by decide)
    (show 4 ∣ 8 by decide) ⟨by decide, by decide⟩ (by decide) (by decide)
  exact ⟨replaced, kept 0x08004403 (by decide) (by decide) (by decide)⟩

section SeveralPages

variable (flash : Flash) {startAddr size : Nat} (data : List UInt8)

/-- The range ends in a later page than it starts in. -/
def SpansPages (startAddr size : Nat) : Prop :=
  0 < size ∧ startAddr / 0x800 < (startAddr + size - 1) / 0x800

/-- No byte of the range is in the reserve page. -/
def AvoidsReserve (startAddr size : Nat) : Prop :=
  ∀ index, index < size → pageOf (startAddr + index) ≠ flashAddrReserve

instance (startAddr size : Nat) : Decidable (AvoidsReserve startAddr size) :=
  inferInstanceAs (Decidable (∀ index, index < size → _ ≠ _))

/-- What the range should hold, with everything else outside the reserve page
as it was. -/
def Replaced (flash updated : Flash) (startAddr : Nat) (data : List UInt8)
    (size : Nat) : Prop :=
  (∀ index, index < size →
      updated.mem (startAddr + index) = byteAt data index) ∧
    ∀ target, stm32f103ve.Contains target →
      pageOf target ≠ flashAddrReserve →
      ¬(startAddr ≤ target ∧ target < startAddr + size) →
      updated.mem target = flash.mem target

theorem flashUpdata_spans (spans : SpansPages startAddr size) :
    ∃ turns, flashUpdata flash startAddr data size =
      flash.execAll stm32f103ve
        (List.replicate turns (.erase flashAddrReserve)) := by
  have several : (startAddr + size - 1) / 0x800 ≠ startAddr / 0x800 :=
    Nat.ne_of_gt spans.2
  simp only [flashUpdata, if_neg several, ite_self]
  generalize (startAddr + size - 1) / 0x800 + 1 - startAddr / 0x800 = turns
  refine ⟨turns, ?_⟩
  induction turns with
  | zero => rfl
  | succ turns induction =>
      rw [List.range_succ, List.foldl_append, induction,
        List.replicate_succ', Device.execAll_append]
      rfl

theorem flashUpdata_spans_mem (spans : SpansPages startAddr size)
    {target : Nat} (notReserve : pageOf target ≠ flashAddrReserve) :
    (flashUpdata flash startAddr data size).mem target = flash.mem target := by
  obtain ⟨turns, erased⟩ := flashUpdata_spans flash data spans
  rw [erased, Device.execAll_mem]
  apply replay_of_not_touches
  intro op member touched
  rw [List.eq_of_mem_replicate member] at touched
  exact notReserve (congrArg (· * 0x800) touched.2)

/-- A range over several pages is replaced exactly when it held the data
before. -/
theorem flashUpdata_spans_iff (spans : SpansPages startAddr size)
    (avoids : AvoidsReserve startAddr size) :
    Replaced flash (flashUpdata flash startAddr data size) startAddr data
        size ↔
      ∀ index, index < size →
        flash.mem (startAddr + index) = byteAt data index := by
  constructor
  · intro replaced index bound
    have stored := replaced.1 index bound
    rwa [flashUpdata_spans_mem flash data spans (avoids index bound)] at stored
  · intro held
    refine ⟨?_, ?_⟩
    · intro index bound
      rw [flashUpdata_spans_mem flash data spans (avoids index bound)]
      exact held index bound
    · intro target _ notReserve _
      exact flashUpdata_spans_mem flash data spans notReserve

end SeveralPages

/-- The last word of one page and the first of the next are still blank. -/
theorem flashUpdata_spans_blank :
    Replaced blankFlash (flashUpdata blankFlash 0x080047FC
        (List.replicate 8 0xFF) 8) 0x080047FC (List.replicate 8 0xFF) 8 := by
  refine (flashUpdata_spans_iff blankFlash (List.replicate 8 0xFF)
    ⟨by decide, by decide⟩ (by decide)).mpr ?_
  decide

theorem flashUpdata_spans_skipped :
    ¬∀ (flash : Flash) (startAddr size : Nat) (data : List UInt8),
      4 ∣ startAddr → 4 ∣ size → data.length = size →
      SpansPages startAddr size → AvoidsReserve startAddr size →
      Replaced flash (flashUpdata flash startAddr data size) startAddr data
        size := by
  intro claim
  have spans : SpansPages 0x080047FC 8 := ⟨by decide, by decide⟩
  have replaced := claim blankFlash 0x080047FC 8 [1, 2, 3, 4, 5, 6, 7, 8]
    (by decide) (by decide) rfl spans (by decide)
  have first := replaced.1 0 (by decide)
  rw [flashUpdata_spans_mem blankFlash _ spans (by decide)] at first
  exact absurd first (by decide)

end Tp79Boot
