import Tp79Boot.FlashLaws

/-!
# Updating part of a page

`Flash_Updata` saves a page to the reserve page, erases it and programs it
again with the new bytes in place.  Both copies go through `Flash_Read`, so the
reserve page holds every word with its bytes reversed and the page gets them
back in their order.
-/

namespace Tp79Boot

open NorMemory

/-- The word at `address` with its bytes reversed, as `Flash_Read` returns it. -/
def reversedWord (mem : Mem) (address : Nat) : List UInt8 :=
  [mem (address + 3), mem (address + 2), mem (address + 1), mem address]

@[simp] theorem reversedWord_length (mem : Mem) (address : Nat) :
    (reversedWord mem address).length = 4 := rfl

theorem reversedWord_getD (mem : Mem) (address : Nat) {place : Nat}
    (bound : place < 4) :
    (reversedWord mem address).getD place 0 = mem (address + (3 - place)) := by
  obtain rfl | rfl | rfl | rfl :
      place = 0 ∨ place = 1 ∨ place = 2 ∨ place = 3 := by omega
  all_goals rfl

private theorem reversedWord_congr {first second : Mem} {address : Nat}
    (same : ∀ place, place < 4 →
      first (address + place) = second (address + place)) :
    reversedWord first address = reversedWord second address := by
  have zero := same 0 (by omega)
  rw [Nat.add_zero] at zero
  simp only [reversedWord, zero, same 1 (by omega), same 2 (by omega),
    same 3 (by omega)]

theorem wordBytes_flashRead (flash : Flash) (address : Nat) :
    wordBytes (wordOfBytes (flashRead flash address 4)) =
      reversedWord flash.mem address := by
  have read : flashRead flash address 4 = reversedWord flash.mem address := by
    simp [flashRead, flashReadLoop, splitWord_readWord, reversedWord]
  rw [wordBytes_wordOfBytes, read]
  rfl

/-- First address of the page that holds `address`. -/
def pageOf (address : Nat) : Nat := address / 0x800 * 0x800

theorem pageOf_add {base place : Nat} (start : pageOf base = base)
    (bound : place < 0x800) : pageOf (base + place) = base := by
  unfold pageOf at start ⊢
  have samePage : (base + place) / 0x800 = base / 0x800 := by omega
  rw [samePage, start]

theorem pageOf_pageOf (address : Nat) :
    pageOf (pageOf address) = pageOf address := by
  unfold pageOf
  omega

theorem pageOf_reserve : pageOf flashAddrReserve = flashAddrReserve := rfl

def saveOps (mem : Mem) (startAddr : Nat) : List Op :=
  (List.range 0x200).map fun turn =>
    Op.program (flashAddrReserve + 4 * turn)
      (reversedWord mem (pageOf startAddr + 4 * turn))

/-- What the filling loop programs at its `turn`-th word. -/
def fillBlock (mem : Mem) (startAddr : Nat) (data : List UInt8)
    (size turn : Nat) : List UInt8 :=
  if startAddr % 0x800 ≤ 4 * turn ∧ 4 * turn < startAddr % 0x800 + size then
    bytesAt data (4 * turn - startAddr % 0x800) 4
  else reversedWord mem (flashAddrReserve + 4 * turn)

@[simp] theorem fillBlock_length (mem : Mem) (startAddr : Nat)
    (data : List UInt8) (size turn : Nat) :
    (fillBlock mem startAddr data size turn).length = 4 := by
  unfold fillBlock
  split
  next => simp
  next => rfl

def fillOps (mem : Mem) (startAddr : Nat) (data : List UInt8) (size : Nat) :
    List Op :=
  (List.range 0x200).map fun turn =>
    Op.program (pageOf startAddr + 4 * turn)
      (fillBlock mem startAddr data size turn)

/-- A loop that programs one page word by word leaves the words it has not
reached alone, so a word of this or another page read at its turn is the
original one. -/
private theorem later_word_untouched {written read turn place : Nat}
    (writtenPage : 0x800 ∣ written) (readPage : 0x800 ∣ read)
    (inside : turn < 0x200) (bound : place < 4)
    (block : Nat → List UInt8) (uniform : ∀ index, (block index).length = 4)
    (mem : Mem) :
    replay stm32f103ve ((List.range turn).map fun index =>
        Op.program (written + 4 * index) (block index)) mem
        (read + 4 * turn + place) =
      mem (read + 4 * turn + place) := by
  apply replay_of_not_touches
  intro op member touched
  obtain ⟨index, earlier, rfl⟩ := List.mem_map.mp member
  have before := List.mem_range.mp earlier
  obtain ⟨_, above, below⟩ := touched
  rw [uniform] at below
  omega

theorem flashUpdataSave_eq (flash : Flash) (startAddr : Nat) :
    flashUpdataSave flash startAddr =
      flash.execAll stm32f103ve (saveOps flash.mem startAddr) := by
  have reads := Device.foldl_exec_eq_execAll stm32f103ve flash
    (fun mem turn => Op.program (flashAddrReserve + 4 * turn)
      (reversedWord mem (pageOf startAddr + 4 * turn))) 0x200 (by
      intro turn below
      simp only [Op.program.injEq, true_and]
      apply reversedWord_congr
      intro place bound
      exact later_word_untouched (by decide) (Nat.dvd_mul_left _ _) below bound
        _ (fun _ => rfl) _)
  rw [saveOps, ← reads]
  simp only [flashUpdataSave, flashProgramWord, wordBytes_flashRead,
    Nat.mul_comm _ 4, pageOf]

/-- The counter `j` of the filling loop after `turns` words. -/
private def fillCounter (startAddr size turns : Nat) : Nat :=
  min (4 * turns - startAddr % 0x800) size

private theorem flashUpdataFill_loop (flash : Flash) {startAddr size : Nat}
    (data : List UInt8) (aligned : 4 ∣ startAddr) (whole : 4 ∣ size)
    (turns : Nat) :
    (List.range turns).foldl (fun (current, j) turn =>
      let i := 4 * turn
      if startAddr % 0x800 ≤ i ∧ i < startAddr % 0x800 + size then
        (flashProgramWord current (startAddr / 0x800 * 0x800 + i)
          (wordOfBytes (data.drop j)), j + 4)
      else
        (flashProgramWord current (startAddr / 0x800 * 0x800 + i)
          (wordOfBytes (flashRead current (flashAddrReserve + i) 4)), j))
      (flash, 0) =
    ((List.range turns).foldl (fun current turn =>
        current.exec stm32f103ve (Op.program (pageOf startAddr + 4 * turn)
          (fillBlock current.mem startAddr data size turn))) flash,
      fillCounter startAddr size turns) := by
  induction turns with
  | zero => simp [fillCounter]
  | succ turns induction =>
      rw [List.range_succ, List.foldl_append, induction, List.foldl_append]
      simp only [List.foldl_cons, List.foldl_nil, flashProgramWord]
      by_cases inside : startAddr % 0x800 ≤ 4 * turns ∧
          4 * turns < startAddr % 0x800 + size
      · have reached : fillCounter startAddr size turns =
            4 * turns - startAddr % 0x800 := by
          unfold fillCounter
          omega
        have next : fillCounter startAddr size turns + 4 =
            fillCounter startAddr size (turns + 1) := by
          unfold fillCounter
          omega
        rw [if_pos inside, next, reached, wordBytes_wordOfBytes_drop]
        simp only [fillBlock, if_pos inside, pageOf]
      · have next : fillCounter startAddr size turns =
            fillCounter startAddr size (turns + 1) := by
          unfold fillCounter
          omega
        rw [if_neg inside, next, wordBytes_flashRead]
        simp only [fillBlock, if_neg inside, pageOf]

theorem flashUpdataFill_eq (flash : Flash) {startAddr size : Nat}
    (data : List UInt8) (aligned : 4 ∣ startAddr) (whole : 4 ∣ size) :
    (flashUpdataFill flash startAddr data size).1 =
      flash.execAll stm32f103ve (fillOps flash.mem startAddr data size) := by
  have reads := Device.foldl_exec_eq_execAll stm32f103ve flash
    (fun mem turn => Op.program (pageOf startAddr + 4 * turn)
      (fillBlock mem startAddr data size turn)) 0x200 (by
      intro turn below
      simp only [Op.program.injEq, true_and]
      unfold fillBlock
      split
      next => rfl
      next =>
        apply reversedWord_congr
        intro place bound
        exact later_word_untouched (Nat.dvd_mul_left _ _) (by decide) below
          bound _ (fillBlock_length _ _ _ _) _)
  rw [flashUpdataFill, flashUpdataFill_loop flash data aligned whole, fillOps,
    ← reads]

theorem flashErasePage_mem (flash : Flash) (pageAddress target : Nat) :
    (flashErasePage flash pageAddress).mem target =
      if stm32f103ve.Contains target ∧ pageOf target = pageOf pageAddress
      then 0xFF else flash.mem target := by
  have samePage : target / 0x800 = pageAddress / 0x800 ↔
      pageOf target = pageOf pageAddress := by
    unfold pageOf
    omega
  have unit : stm32f103ve.page = 0x800 := rfl
  simp only [flashErasePage, Device.exec, Op.apply, Op.Touches, Op.result,
    unit, samePage]

private theorem replay_page {base : Nat} (block : Nat → List UInt8)
    (uniform : ∀ index, (block index).length = 4) (mem : Mem)
    {target : Nat} (flashAddress : stm32f103ve.Contains target)
    (inside : base ≤ target ∧ target < base + 0x800) :
    replay stm32f103ve ((List.range 0x200).map fun turn =>
        Op.program (base + 4 * turn) (block turn)) mem target =
      mem target &&&
        (block ((target - base) / 4)).getD ((target - base) % 4) 0 := by
  rw [replay_blocks base 4 (by omega) block uniform, if_pos]
  exact ⟨flashAddress, inside.1, by omega⟩

private theorem replay_page_outside {base : Nat} (block : Nat → List UInt8)
    (uniform : ∀ index, (block index).length = 4) (mem : Mem) {target : Nat}
    (outside : ¬(base ≤ target ∧ target < base + 0x800)) :
    replay stm32f103ve ((List.range 0x200).map fun turn =>
        Op.program (base + 4 * turn) (block turn)) mem target =
      mem target := by
  rw [replay_blocks base 4 (by omega) block uniform, if_neg]
  rintro ⟨_, above, below⟩
  exact outside ⟨above, by omega⟩

section OnePage

variable (flash : Flash) {startAddr size : Nat} (data : List UInt8)

/-- The range lies in one page. -/
def OnePage (startAddr size : Nat) : Prop :=
  0 < size ∧ (startAddr + size - 1) / 0x800 = startAddr / 0x800

private def saved (flash : Flash) (startAddr : Nat) : Flash :=
  let reserved := flashErasePage flash flashAddrReserve
  reserved.execAll stm32f103ve (saveOps reserved.mem startAddr)

private def emptied (flash : Flash) (startAddr : Nat) : Flash :=
  flashErasePage (saved flash startAddr) startAddr

private theorem flashUpdata_turn
    (samePage : (startAddr + size - 1) / 0x800 = startAddr / 0x800) :
    flashUpdata flash startAddr data size =
      (flashUpdataFill (emptied flash startAddr) startAddr data size).1 := by
  have once : startAddr / 0x800 + 1 - startAddr / 0x800 = 1 := by omega
  simp only [flashUpdata, samePage, once, List.range_one, List.foldl_cons,
    List.foldl_nil, if_true, flashUpdataSave_eq]
  rfl

theorem flashUpdata_eq (onePage : OnePage startAddr size)
    (aligned : 4 ∣ startAddr) (whole : 4 ∣ size) :
    flashUpdata flash startAddr data size =
      (emptied flash startAddr).execAll stm32f103ve
        (fillOps (emptied flash startAddr).mem startAddr data size) := by
  rw [flashUpdata_turn flash data onePage.2,
    flashUpdataFill_eq _ data aligned whole]

/-- The bytes of the range are the data, whatever the page held before. -/
theorem flashUpdata_inside (onePage : OnePage startAddr size)
    (aligned : 4 ∣ startAddr) (whole : 4 ∣ size) {target : Nat}
    (flashAddress : stm32f103ve.Contains target)
    (inside : startAddr ≤ target ∧ target < startAddr + size) :
    (flashUpdata flash startAddr data size).mem target =
      byteAt data (target - startAddr) := by
  obtain ⟨positive, samePage⟩ := onePage
  have page : pageOf target = pageOf startAddr := by
    unfold pageOf
    omega
  have place : pageOf startAddr ≤ target ∧
      target < pageOf startAddr + 0x800 := by
    unfold pageOf
    omega
  have blank : (emptied flash startAddr).mem target = 0xFF := by
    rw [emptied, flashErasePage_mem, if_pos ⟨flashAddress, page⟩]
  have turn : startAddr % 0x800 ≤ 4 * ((target - pageOf startAddr) / 4) ∧
      4 * ((target - pageOf startAddr) / 4) < startAddr % 0x800 + size := by
    unfold pageOf
    omega
  have position : 4 * ((target - pageOf startAddr) / 4) - startAddr % 0x800 +
      (target - pageOf startAddr) % 4 = target - startAddr := by
    unfold pageOf
    omega
  rw [flashUpdata_eq flash data ⟨positive, samePage⟩ aligned whole,
    Device.execAll_mem, fillOps,
    replay_page _ (fillBlock_length _ _ _ _) _ flashAddress place, blank,
    and_of_blank rfl, fillBlock, if_pos turn,
    List.getD_eq_getElem _ _ (by simp; omega), bytesAt_getElem, position]

/-- Once the page is saved, the reserve page holds its words with their bytes
reversed. -/
private theorem saved_mirrored
    (notReserve : pageOf startAddr ≠ flashAddrReserve) {index : Nat}
    (bound : index < 0x800) :
    (saved flash startAddr).mem (flashAddrReserve + mirrored index) =
      flash.mem (pageOf startAddr + index) := by
  have inReserve : mirrored index < 0x800 := mirrored_lt (by decide) bound
  have back := mirrored_mirrored index
  have reserveFlash : stm32f103ve.Contains
      (flashAddrReserve + mirrored index) := by
    unfold Geometry.Contains flashAddrReserve
    simp only [stm32f103ve]
    omega
  have reservePage : pageOf (flashAddrReserve + mirrored index) =
      flashAddrReserve := pageOf_add pageOf_reserve inReserve
  have blank : (flashErasePage flash flashAddrReserve).mem
      (flashAddrReserve + mirrored index) = 0xFF := by
    rw [flashErasePage_mem, if_pos ⟨reserveFlash, reservePage⟩]
  have offPage : pageOf (pageOf startAddr + index) ≠ flashAddrReserve := by
    rw [pageOf_add (pageOf_pageOf startAddr) bound]
    exact notReserve
  have original : (flashErasePage flash flashAddrReserve).mem
      (pageOf startAddr + index) = flash.mem (pageOf startAddr + index) := by
    rw [flashErasePage_mem, if_neg]
    exact fun both => offPage both.2
  have source : pageOf startAddr + 4 * (mirrored index / 4) +
      (3 - mirrored index % 4) = pageOf startAddr + index := by
    have expanded : 4 * (mirrored index / 4) + (3 - mirrored index % 4) =
        index := back
    omega
  rw [saved, Device.execAll_mem, saveOps,
    replay_page _ (fun _ => rfl) _ reserveFlash (by omega), blank,
    and_of_blank rfl, Nat.add_sub_cancel_left,
    reversedWord_getD _ _ (Nat.mod_lt _ (by omega)), source, original]

/-- Erasing the page leaves its copy alone. -/
private theorem saved_mirrors
    (notReserve : pageOf startAddr ≠ flashAddrReserve) {target : Nat}
    (page : pageOf target = pageOf startAddr) :
    (emptied flash startAddr).mem
        (flashAddrReserve + 4 * ((target - pageOf startAddr) / 4) +
          (3 - (target - pageOf startAddr) % 4)) =
      flash.mem target := by
  have place : pageOf startAddr ≤ target ∧
      target < pageOf startAddr + 0x800 := by
    rw [← page]
    unfold pageOf
    omega
  have bound : target - pageOf startAddr < 0x800 := by omega
  have copy : flashAddrReserve + 4 * ((target - pageOf startAddr) / 4) +
      (3 - (target - pageOf startAddr) % 4) =
        flashAddrReserve + mirrored (target - pageOf startAddr) := by
    unfold mirrored
    omega
  have inReserve : mirrored (target - pageOf startAddr) < 0x800 :=
    mirrored_lt (by decide) bound
  have reservePage :
      pageOf (flashAddrReserve + mirrored (target - pageOf startAddr)) =
        flashAddrReserve := pageOf_add pageOf_reserve inReserve
  have original : pageOf startAddr + (target - pageOf startAddr) = target := by
    omega
  rw [copy, emptied, flashErasePage_mem, if_neg (by
      rw [reservePage]
      exact fun both => notReserve both.2.symm),
    saved_mirrored flash notReserve bound, original]

/-- The other bytes of the page come back from the reserve page. -/
theorem flashUpdata_restored (onePage : OnePage startAddr size)
    (aligned : 4 ∣ startAddr) (whole : 4 ∣ size)
    (notReserve : pageOf startAddr ≠ flashAddrReserve) {target : Nat}
    (flashAddress : stm32f103ve.Contains target)
    (page : pageOf target = pageOf startAddr)
    (outside : ¬(startAddr ≤ target ∧ target < startAddr + size)) :
    (flashUpdata flash startAddr data size).mem target = flash.mem target := by
  have place : pageOf startAddr ≤ target ∧
      target < pageOf startAddr + 0x800 := by
    rw [← page]
    unfold pageOf
    omega
  have blank : (emptied flash startAddr).mem target = 0xFF := by
    rw [emptied, flashErasePage_mem, if_pos ⟨flashAddress, page⟩]
  have turn : ¬(startAddr % 0x800 ≤ 4 * ((target - pageOf startAddr) / 4) ∧
      4 * ((target - pageOf startAddr) / 4) < startAddr % 0x800 + size) := by
    obtain ⟨positive, samePage⟩ := onePage
    unfold pageOf at place ⊢
    omega
  have copied := saved_mirrors flash notReserve page
  rw [flashUpdata_eq flash data onePage aligned whole, Device.execAll_mem,
    fillOps, replay_page _ (fillBlock_length _ _ _ _) _ flashAddress place,
    blank, and_of_blank rfl, fillBlock, if_neg turn,
    reversedWord_getD _ _ (Nat.mod_lt _ (by omega)), copied]

/-- Neither the page nor the reserve page: nothing happens. -/
theorem flashUpdata_outside (onePage : OnePage startAddr size)
    (aligned : 4 ∣ startAddr) (whole : 4 ∣ size) {target : Nat}
    (otherPage : pageOf target ≠ pageOf startAddr)
    (notReserve : pageOf target ≠ flashAddrReserve) :
    (flashUpdata flash startAddr data size).mem target = flash.mem target := by
  have outsidePage : ¬(pageOf startAddr ≤ target ∧
      target < pageOf startAddr + 0x800) := by
    unfold pageOf at otherPage ⊢
    omega
  have outsideReserve : ¬(flashAddrReserve ≤ target ∧
      target < flashAddrReserve + 0x800) := by
    unfold pageOf flashAddrReserve at notReserve
    unfold flashAddrReserve
    omega
  rw [flashUpdata_eq flash data onePage aligned whole, Device.execAll_mem,
    fillOps, replay_page_outside _ (fillBlock_length _ _ _ _) _ outsidePage,
    emptied, flashErasePage_mem, if_neg (fun both => otherPage both.2), saved,
    Device.execAll_mem, saveOps,
    replay_page_outside _ (fun _ => rfl) _ outsideReserve, flashErasePage_mem,
    if_neg (fun both => notReserve (both.2.trans pageOf_reserve))]

/-- What `Flash_Updata` does to flash, in order. -/
private def updataOps (flash : Flash) (startAddr : Nat) (data : List UInt8)
    (size : Nat) : List Op :=
  (.erase flashAddrReserve ::
      saveOps (flashErasePage flash flashAddrReserve).mem startAddr) ++
    .erase startAddr :: fillOps (emptied flash startAddr).mem startAddr data size

private theorem flashUpdata_ops (onePage : OnePage startAddr size)
    (aligned : 4 ∣ startAddr) (whole : 4 ∣ size) :
    (flashUpdata flash startAddr data size).log =
      flash.log ++ updataOps flash startAddr data size := by
  rw [flashUpdata_eq flash data onePage aligned whole, Device.execAll_log]
  simp [updataOps, emptied, saved, flashErasePage, Device.exec]

/-- `Flash_Updata` erases the reserve page and its own page, and programs. -/
theorem flashUpdata_log (onePage : OnePage startAddr size)
    (aligned : 4 ∣ startAddr) (whole : 4 ∣ size) :
    ∃ ops, (flashUpdata flash startAddr data size).log = flash.log ++ ops ∧
      ∀ op ∈ ops, op = .erase flashAddrReserve ∨ op = .erase startAddr ∨
        ∃ address bytes, op = .program address bytes := by
  refine ⟨updataOps flash startAddr data size,
    flashUpdata_ops flash data onePage aligned whole, ?_⟩
  intro op member
  simp only [updataOps, List.mem_append, List.mem_cons, saveOps, fillOps,
    List.mem_map] at member
  rcases member with (reserve | ⟨_, _, rfl⟩) | own | ⟨_, _, rfl⟩
  · exact .inl reserve
  · exact .inr (.inr ⟨_, _, rfl⟩)
  · exact .inr (.inl own)
  · exact .inr (.inr ⟨_, _, rfl⟩)

/-- Each half erases a page and then programs that page only. -/
theorem flashUpdata_erasedFirst (onePage : OnePage startAddr size)
    (aligned : 4 ∣ startAddr) (whole : 4 ∣ size)
    (flashAddress : stm32f103ve.Contains startAddr) :
    ∃ ops, (flashUpdata flash startAddr data size).log = flash.log ++ ops ∧
      ErasedFirst stm32f103ve flash.mem ops := by
  refine ⟨updataOps flash startAddr data size,
    flashUpdata_ops flash data onePage aligned whole, ?_⟩
  obtain ⟨above, below⟩ := flashAddress
  simp only [stm32f103ve] at above below
  have reservePage := @erasedFirst_blocks stm32f103ve flash.mem
    flashAddrReserve flashAddrReserve 4 (by omega)
    (fun turn => reversedWord (flashErasePage flash flashAddrReserve).mem
      (pageOf startAddr + 4 * turn)) (fun _ => rfl) 0x200 (by
    intro target from_ to_
    unfold Geometry.Contains flashAddrReserve at *
    simp only [stm32f103ve]
    omega)
  have ownPage := fun mem => @erasedFirst_blocks stm32f103ve mem startAddr
    (pageOf startAddr) 4 (by omega)
    (fillBlock (emptied flash startAddr).mem startAddr data size)
    (fillBlock_length _ _ _ _) 0x200 (by
    intro target from_ to_
    unfold Geometry.Contains pageOf at *
    simp only [stm32f103ve]
    omega)
  exact ErasedFirst.append reservePage (ownPage _)

/-- The operations program words of a page, each at a turn before this one. -/
private def WordsOf (page turns : Nat) (ops : List Op) : Prop :=
  ∀ op ∈ ops, ∃ turn, turn < turns ∧ ∃ word,
    op = .program (page + 4 * turn) (wordBytes word)

private theorem WordsOf.concat {page turns : Nat} {ops : List Op}
    (words : WordsOf page turns ops) (word : UInt32) :
    WordsOf page (turns + 1)
      (ops ++ [Op.program (page + 4 * turns) (wordBytes word)]) := by
  intro op member
  rcases List.mem_append.mp member with old | last
  · obtain ⟨turn, below, earlier, rfl⟩ := words op old
    exact ⟨turn, Nat.lt_succ_of_lt below, earlier, rfl⟩
  · exact ⟨turns, Nat.lt_succ_self _, word, List.mem_singleton.mp last⟩

/-- Filling programs words of the page, for any range. -/
private theorem flashUpdataFill_programs (startAddr size turns : Nat) :
    ∃ ops, ((List.range turns).foldl (fun (current, j) turn =>
        let i := 4 * turn
        if startAddr % 0x800 ≤ i ∧ i < startAddr % 0x800 + size then
          (flashProgramWord current (startAddr / 0x800 * 0x800 + i)
            (wordOfBytes (data.drop j)), j + 4)
        else
          (flashProgramWord current (startAddr / 0x800 * 0x800 + i)
            (wordOfBytes (flashRead current (flashAddrReserve + i) 4)), j))
        (flash, 0)).1 = flash.execAll stm32f103ve ops ∧
      WordsOf (pageOf startAddr) turns ops := by
  induction turns with
  | zero => exact ⟨[], rfl, fun _ member => absurd member List.not_mem_nil⟩
  | succ turns induction =>
      obtain ⟨ops, reached, words⟩ := induction
      rw [List.range_succ, List.foldl_append]
      generalize List.foldl _ (flash, 0) (List.range turns) = state
        at reached ⊢
      obtain ⟨current, j⟩ := state
      simp only at reached
      subst reached
      have next (word : UInt32) : ∃ all,
          flashProgramWord (flash.execAll stm32f103ve ops)
              (pageOf startAddr + 4 * turns) word =
            flash.execAll stm32f103ve all ∧
          WordsOf (pageOf startAddr) (turns + 1) all := by
        refine ⟨_, ?_, words.concat word⟩
        rw [Device.execAll_append]
        rfl
      simp only [List.foldl_cons, List.foldl_nil]
      split
      · exact next _
      · exact next _

private theorem erase_touches {address target : Nat}
    (touched : (Op.erase address).Touches stm32f103ve target) :
    pageOf target = pageOf address :=
  congrArg (· * 0x800) touched.2

private theorem program_touches {page turn target : Nat} {bytes : List UInt8}
    (whole : pageOf page = page) (below : turn < 0x200)
    (word : bytes.length = 4)
    (touched : (Op.program (page + 4 * turn) bytes).Touches stm32f103ve
      target) : pageOf target = page := by
  obtain ⟨_, above, beneath⟩ := touched
  obtain ⟨place, rfl⟩ := Nat.exists_eq_add_of_le
    (Nat.le_trans (Nat.le_add_right page (4 * turn)) above)
  exact pageOf_add whole (by omega)

/-- The two halves: the reserve page is erased and gets a copy of the page,
and then only the page itself is touched. -/
theorem flashUpdata_halves
    (samePage : (startAddr + size - 1) / 0x800 = startAddr / 0x800)
    (notReserve : pageOf startAddr ≠ flashAddrReserve) :
    ∃ saving rewriting, flashUpdata flash startAddr data size =
        flash.execAll stm32f103ve (saving ++ rewriting) ∧
      (∀ op ∈ saving, ∀ target, op.Touches stm32f103ve target →
        pageOf target = flashAddrReserve) ∧
      (∀ op ∈ rewriting, ∀ target, op.Touches stm32f103ve target →
        pageOf target = pageOf startAddr) ∧
      ∀ index, index < 0x800 →
        replay stm32f103ve saving flash.mem
            (flashAddrReserve + mirrored index) =
          flash.mem (pageOf startAddr + index) := by
  obtain ⟨ops, filled, words⟩ := flashUpdataFill_programs
    (emptied flash startAddr) data startAddr size 0x200
  refine ⟨.erase flashAddrReserve ::
    saveOps (flashErasePage flash flashAddrReserve).mem startAddr,
    .erase startAddr :: ops, ?_, ?_, ?_, ?_⟩
  · rw [flashUpdata_turn flash data samePage, flashUpdataFill, filled,
      Device.execAll_append,
      Device.execAll_cons, Device.execAll_cons]
    simp only [emptied, saved, flashErasePage]
  · intro op member target touched
    rcases List.mem_cons.mp member with rfl | saves
    · exact erase_touches touched
    · obtain ⟨turn, below, rfl⟩ := List.mem_map.mp saves
      exact program_touches pageOf_reserve (List.mem_range.mp below) rfl
        touched
  · intro op member target touched
    rcases List.mem_cons.mp member with rfl | fills
    · exact erase_touches touched
    · obtain ⟨turn, below, word, rfl⟩ := words op fills
      exact program_touches (pageOf_pageOf _) below (wordBytes_length word)
        touched
  · intro index bound
    have mirror := saved_mirrored flash notReserve bound
    rw [saved, Device.execAll_mem] at mirror
    rw [replay_cons]
    exact mirror

end OnePage

end Tp79Boot
