import Tp79Boot.FlashLaws

/-!
# Which pages are erased

`Flash_Erase` counts pages in eight bits and takes the size in whole pages,
rounded down.
-/

namespace Tp79Boot

open NorMemory

/-- A byte of the range lies in the page. -/
def PageMeets (startAddr size page : Nat) : Prop :=
  ∃ address, startAddr ≤ address ∧ address < startAddr + size ∧
    address / 0x800 = page

/-- The pages that meet the range have been erased, and nothing else has been
done. -/
def ErasedExactly (before after : Flash) (startAddr size : Nat) : Prop :=
  ∃ addresses : List Nat, after = before.execAll stm32f103ve (addresses.map Op.erase) ∧
    ∀ page, (∃ address ∈ addresses, address / 0x800 = page) ↔
      PageMeets startAddr size page

/-- The bytes of the pages that meet the range are blank, the others are as
before. -/
theorem ErasedExactly.contents {before after : Flash} {startAddr size : Nat}
    (erased : ErasedExactly before after startAddr size) (target : Nat) :
    (stm32f103ve.Contains target ∧ PageMeets startAddr size (target / 0x800) →
        after.mem target = 0xFF) ∧
      (¬PageMeets startAddr size (target / 0x800) →
        after.mem target = before.mem target) := by
  obtain ⟨addresses, rfl, pages⟩ := erased
  have unit : stm32f103ve.page = 0x800 := rfl
  rw [Device.execAll_mem, replay_erases, unit, ← pages]
  constructor
  · rintro ⟨inFlash, address, member, same⟩
    exact if_pos ⟨inFlash, address, member, same.symm⟩
  · intro apart
    apply if_neg
    rintro ⟨_, address, member, same⟩
    exact apart ⟨address, member, same.symm⟩

theorem flashEraseLoop_endless (startAddr : Nat) {size : Nat}
    (wide : 256 ≤ size / 0x800) (turns : Nat) (i : UInt8) (flash : Flash) :
    flashEraseLoop startAddr size turns i flash = none := by
  induction turns generalizing i flash with
  | zero => rfl
  | succ turns induction =>
      rw [flashEraseLoop, if_pos (Nat.lt_of_lt_of_le i.toNat_lt wide)]
      exact induction _ _

theorem flashEraseLoop_more {startAddr size : Nat} {turns : Nat} {i : UInt8}
    {flash after : Flash}
    (ended : flashEraseLoop startAddr size turns i flash = some after)
    (further : Nat) :
    flashEraseLoop startAddr size (turns + further) i flash = some after := by
  induction turns generalizing i flash with
  | zero => cases ended
  | succ turns induction =>
      rw [flashEraseLoop] at ended
      rw [Nat.succ_add, flashEraseLoop]
      split
      next inside =>
        rw [if_pos inside] at ended
        exact induction ended
      next outside =>
        rw [if_neg outside] at ended
        exact ended

theorem flashEraseLoop_ends_iff (flash after : Flash) (startAddr size : Nat) :
    (∃ turns, flashEraseLoop startAddr size turns 0 flash = some after) ↔
      flashErase flash startAddr size = some after := by
  constructor
  · rintro ⟨turns, ended⟩
    rcases Nat.lt_or_ge (size / 0x800) 256 with narrow | wide
    · have result := flashErase_eq flash startAddr narrow
      have here := flashEraseLoop_more ended 256
      have there := flashEraseLoop_more result turns
      rw [Nat.add_comm 256 turns, here] at there
      exact result.trans there.symm
    · cases (flashEraseLoop_endless startAddr wide turns 0 flash).symm.trans ended
  · intro ended
    exact ⟨256, ended⟩

theorem mem_erased_iff {startAddr pages page : Nat}
    (aligned : 0x800 ∣ startAddr) :
    (∃ address ∈ (List.range pages).map fun i => startAddr + i * 0x800,
        address / 0x800 = page) ↔
      startAddr / 0x800 ≤ page ∧ page < startAddr / 0x800 + pages := by
  constructor
  · rintro ⟨address, member, rfl⟩
    obtain ⟨i, bound, rfl⟩ := List.mem_map.mp member
    have below := List.mem_range.mp bound
    omega
  · rintro ⟨above, below⟩
    refine ⟨startAddr + (page - startAddr / 0x800) * 0x800, ?_, by omega⟩
    apply List.mem_map.mpr
    exact ⟨page - startAddr / 0x800, List.mem_range.mpr (by omega), rfl⟩

theorem pageMeets_iff {startAddr size page : Nat} (aligned : 0x800 ∣ startAddr) :
    PageMeets startAddr size page ↔
      startAddr / 0x800 ≤ page ∧ page * 0x800 < startAddr + size := by
  constructor
  · rintro ⟨address, above, below, rfl⟩
    omega
  · rintro ⟨above, below⟩
    refine ⟨page * 0x800, ?_, below, ?_⟩
    · omega
    · omega

theorem eraseOps_eq (startAddr pages : Nat) :
    eraseOps startAddr pages =
      ((List.range pages).map fun i => startAddr + i * 0x800).map Op.erase := by
  rw [List.map_map]
  rfl

theorem erasedExactly_iff (flash : Flash) {startAddr size : Nat}
    (aligned : 0x800 ∣ startAddr) :
    ErasedExactly flash
        (flash.execAll stm32f103ve (eraseOps startAddr (size / 0x800)))
        startAddr size ↔
      0x800 ∣ size := by
  rw [eraseOps_eq]
  constructor
  · rintro ⟨addresses, same, pages⟩
    have logs := congrArg Device.log same
    rw [Device.execAll_log, Device.execAll_log] at logs
    have operations := List.append_cancel_left logs
    have listed := (List.map_inj_right fun _ _ => Op.erase.inj).mp operations
    rw [← listed] at pages
    by_contra rest
    -- The last page of the range is only met in part, and not erased.
    have last := pages (startAddr / 0x800 + size / 0x800)
    rw [mem_erased_iff aligned, pageMeets_iff aligned] at last
    omega
  · intro whole
    refine ⟨_, rfl, fun page => ?_⟩
    rw [mem_erased_iff aligned, pageMeets_iff aligned]
    omega

/-- Inside the flash, an erase ends and has erased the pages it is asked to
erase exactly when the size is made of whole pages and is not the whole
flash. -/
theorem flashErase_erases_iff (flash : Flash) {startAddr size : Nat}
    (aligned : 0x800 ∣ startAddr) (inFlash : stm32f103ve.Contains startAddr)
    (inside : startAddr + size ≤ stm32f103ve.base + stm32f103ve.size) :
    (∃ turns after,
        flashEraseLoop startAddr size turns 0 flash = some after ∧
          ErasedExactly flash after startAddr size) ↔
      0x800 ∣ size ∧ size < stm32f103ve.size := by
  have above : 0x08000000 ≤ startAddr := inFlash.1
  have bound : startAddr + size ≤ 0x08000000 + 0x80000 := inside
  have whole : stm32f103ve.size = 0x80000 := rfl
  rw [whole]
  rcases Nat.lt_or_ge (size / 0x800) 256 with narrow | wide
  · have result := flashErase_eq flash startAddr narrow
    have pages := @erasedExactly_iff flash startAddr size aligned
    constructor
    · rintro ⟨turns, after, ended, erased⟩
      have same := (flashEraseLoop_ends_iff flash after startAddr size).mp
        ⟨turns, ended⟩
      cases result.symm.trans same
      exact ⟨pages.mp erased, by omega⟩
    · rintro ⟨divides, _⟩
      exact ⟨256, _, result, pages.mpr divides⟩
  · constructor
    · rintro ⟨turns, after, ended, _⟩
      cases (flashEraseLoop_endless startAddr wide turns 0 flash).symm.trans ended
    · rintro ⟨_, small⟩
      omega

/-- The application is erased in whole pages. -/
theorem flashErase_erases_app :
    (∃ turns after,
        flashEraseLoop 0x08004000 (390 * 1024) turns 0 ⟨fun _ => 0, []⟩ =
            some after ∧
          ErasedExactly ⟨fun _ => 0, []⟩ after 0x08004000 (390 * 1024)) ↔
      0x800 ∣ 390 * 1024 ∧ 390 * 1024 < stm32f103ve.size :=
  flashErase_erases_iff _ (by decide) (by decide) (by decide)

/-- An erase of the whole flash does not end; one of 2049 bytes leaves the
second page alone. -/
theorem flashErase_misses :
    (¬∃ turns after,
        flashEraseLoop 0x08000000 0x80000 turns 0 ⟨fun _ => 0, []⟩ =
            some after ∧
          ErasedExactly ⟨fun _ => 0, []⟩ after 0x08000000 0x80000) ∧
      ¬∃ turns after,
        flashEraseLoop 0x08000000 0x801 turns 0 ⟨fun _ => 0, []⟩ =
            some after ∧
          ErasedExactly ⟨fun _ => 0, []⟩ after 0x08000000 0x801 := by
  constructor
  · rintro ⟨turns, after, ended, _⟩
    cases (flashEraseLoop_endless 0x08000000 (by decide) turns 0 _).symm.trans
      ended
  · rintro ⟨turns, after, ended, erased⟩
    have same := (flashEraseLoop_ends_iff _ after _ _).mp ⟨turns, ended⟩
    have narrow : 0x801 / 0x800 < 256 := by decide
    have result := flashErase_eq ⟨fun _ => 0, []⟩ 0x08000000 narrow
    cases result.symm.trans same
    exact absurd ((erasedExactly_iff _ (by decide)).mp erased) (by decide)

end Tp79Boot
