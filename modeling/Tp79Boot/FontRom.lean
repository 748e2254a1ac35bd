import Tp79Boot.Lib.ByteBits
import Tp79Boot.Lib.SpiRom

/-!
# The two readers of the font ROM

`GT21L16S2Y.C` drives the serial bus of the font ROM from two places:
`SpiFlash_Read`, which starts from a low clock and takes a bit before the
falling edge that moves on to the next, and `gt21l16s2_read_addr`, which makes
a falling edge and takes the bit after it.  Both read the same bytes.
-/

namespace Tp79Boot

open ByteBits SpiRom

/-- `SpiRetValueType`, as far as `SpiFlash_Read` returns it. -/
inductive SpiRetValue where
  | retSuccess
  | retWriteCmdError
deriving DecidableEq, Repr

section

variable (rom : Nat → UInt8)

/-- One turn of the loop of `SpiFlash_WriteOneByte`. -/
def writeBit (state : UInt8 × Bus) : UInt8 × Bus :=
  let line := setMasterOut (state.1 &&& 0x80 != 0) (setClock rom false state.2)
  (state.1 <<< 1, setClock rom true line)

def spiFlashWriteOneByte (dataBuffer : UInt8) (bus : Bus) : Bus :=
  let written := (writeBit rom)^[8] (dataBuffer, setClock rom false bus)
  setMasterOut true (setClock rom false written.2)

def spiFlashWriteCmd (cmd : List UInt8) (bus : Bus) : SpiRetValue × Bus :=
  (.retSuccess,
    cmd.foldl (fun bus byte => spiFlashWriteOneByte rom byte bus) bus)

/-- One turn of the loop of `SpiFlash_ReadOneByte`. -/
def readBit (state : UInt8 × Bus) : UInt8 × Bus :=
  let shifted := state.1 <<< 1
  let high := setClock rom true state.2
  (if high.masterIn then shifted ||| 0x01 else shifted &&& 0xFE,
    setClock rom false high)

def spiFlashReadOneByte (bus : Bus) : UInt8 × Bus :=
  let read := (readBit rom)^[8] (0, setClock rom true bus)
  (read.1, setClock rom true read.2)

/-- The loop over the bytes of a buffer. -/
def readBytes (readOneByte : Bus → UInt8 × Bus) : Nat → Bus → List UInt8 × Bus
  | 0, bus => ([], bus)
  | count + 1, bus =>
      let first := readOneByte bus
      let later := readBytes readOneByte count first.2
      (first.1 :: later.1, later.2)

def pcmd (readAddr : UInt32) : List UInt8 :=
  [((readAddr &&& 0x00ff0000) >>> 16).toUInt8,
    ((readAddr &&& 0x0000ff00) >>> 8).toUInt8, readAddr.toUInt8]

def spiFlashRead (readAddr readBytesNum : UInt32) (bus : Bus) :
    SpiRetValue × List UInt8 × Bus :=
  let commanded := spiFlashWriteOneByte rom 0x03 (setChipSelect false bus)
  let written := spiFlashWriteCmd rom (pcmd readAddr) commanded
  if written.1 ≠ .retSuccess then (.retWriteCmdError, [], written.2)
  else
    let read := readBytes (spiFlashReadOneByte rom) readBytesNum.toNat written.2
    (.retSuccess, read.1, setChipSelect true read.2)

/-- One turn of the first loop. -/
def sendBit (addr : UInt32) (bus : Bus) (i : Nat) : Bus :=
  setClock rom true (setClock rom false
    (setMasterOut (addr &&& (0x80000000 >>> UInt32.ofNat i) != 0) bus))

/-- One turn of the innermost loop. -/
def takeBit (state : UInt8 × Bus) (j : Nat) : UInt8 × Bus :=
  let fell := setClock rom false (setClock rom true state.2)
  (if fell.masterIn then state.1 ||| (0x01 <<< UInt8.ofNat (7 - j))
    else state.1 &&& ~~~(0x01 <<< UInt8.ofNat (7 - j)), fell)

/-- A byte of the buffer, which was cleared before. -/
def takeByte (bus : Bus) : UInt8 × Bus :=
  (List.range 8).foldl (takeBit rom) (0, bus)

def gt21l16s2ReadAddr (addr : UInt32) (datlen : UInt8) (bus : Bus) :
    List UInt8 × Bus :=
  let word := (addr &&& 0x00ffffff) ||| 0x03000000
  let requested := (List.range 32).foldl (sendBit rom word)
    (setChipSelect false bus)
  let read := readBytes (takeByte rom) datlen.toNat requested
  (read.1, setChipSelect true read.2)

end

/-- The bits a byte is shifted out by. -/
def topBits : Nat → UInt8 → List Bool
  | 0, _ => []
  | count + 1, byte => (byte &&& 0x80 != 0) :: topBits count (byte <<< 1)

@[simp] theorem topBits_length (count : Nat) (byte : UInt8) :
    (topBits count byte).length = count := by
  induction count generalizing byte with
  | zero => rfl
  | succ count induction => rw [topBits, List.length_cons, induction]

theorem topBits_eq {count : Nat} (few : count ≤ 8) (byte : UInt8) :
    topBits count byte =
      (List.range count).map fun offset => byte.toNat.testBit (7 - offset) := by
  induction count generalizing byte with
  | zero => rfl
  | succ count induction =>
      have top : (byte &&& 0x80 != 0) = byte.toNat.testBit 7 :=
        mask_iff_testBit byte 7 (by decide)
      rw [topBits, induction (Nat.le_of_succ_le few), List.range_succ_eq_map,
        List.map_cons, List.map_map, top]
      congr 1
      apply List.map_congr_left
      intro offset member
      have below : offset < count := List.mem_range.mp member
      have place : 7 - offset = 7 - (offset + 1) + 1 := by omega
      rw [place]
      exact shiftLeft_testBit byte (by omega)

theorem topBits_eight (byte : UInt8) : topBits 8 byte = bits 8 byte.toNat :=
  topBits_eq (Nat.le_refl 8) byte

/-- What `SpiFlash_ReadOneByte` makes of a bit. -/
def shiftedIn (value : UInt8) (bit : Bool) : UInt8 :=
  if bit then value <<< 1 ||| 0x01 else value <<< 1 &&& 0xFE

private theorem shiftedIn_table : ∀ value : Fin 256,
    (bits 8 value).foldl shiftedIn 0 = UInt8.ofNat value := by
  decide +kernel

/-- What `gt21l16s2_read_addr` makes of a bit. -/
def placedIn (value : UInt8) (bit : Bool) (j : Nat) : UInt8 :=
  if bit then value ||| (0x01 <<< UInt8.ofNat (7 - j))
  else value &&& ~~~(0x01 <<< UInt8.ofNat (7 - j))

private theorem placedIn_table : ∀ value : Fin 256,
    (List.range 8).foldl
        (fun byte j => placedIn byte (value.val.testBit (7 - j)) j) 0 =
      UInt8.ofNat value := by
  decide +kernel

section

variable {rom : Nat → UInt8} {bus : Bus} {front : List Bool}
  {address index : Nat}

theorem bits_byte (byte : UInt8) :
    bits 8 byte.toNat =
      (List.range 8).map fun offset => byte.toNat.testBit (7 - offset) := rfl

theorem writeBit_iterate {byte : UInt8} {count : Nat}
    (receiving : Receiving bus front) (room : front.length + count ≤ 32) :
    Receiving ((writeBit rom)^[count] (byte, bus)).2
      (front ++ topBits count byte) := by
  induction count generalizing byte bus front with
  | zero =>
      rw [topBits, List.append_nil]
      exact receiving
  | succ count induction =>
      have short : front.length < 32 := by omega
      have sampled := @Receiving.bit rom _ _ receiving short (byte &&& 0x80 != 0)
      rw [← setMasterOut_setClock_false] at sampled
      have further := @induction _ _ (byte <<< 1) sampled (by
        rw [List.length_append, List.length_singleton]
        omega)
      rw [Function.iterate_succ_apply, topBits]
      rw [List.append_assoc, List.singleton_append] at further
      exact further

theorem writeBit_clock (byte : UInt8) :
    ((writeBit rom)^[8] (byte, bus)).2.clock = true := by
  rw [Function.iterate_succ_apply']
  exact setClock_clock true

theorem spiFlashWriteOneByte_receiving {byte : UInt8}
    (receiving : Receiving bus front) (room : front.length + 8 < 32) :
    Receiving (spiFlashWriteOneByte rom byte bus)
      (front ++ bits 8 byte.toNat) := by
  have low := (@Receiving.setClock_low rom _ _ receiving (by omega)).1
  have written := @writeBit_iterate rom _ _ byte 8 low (by omega)
  rw [topBits_eight] at written
  have short : (front ++ bits 8 byte.toNat).length < 32 := by
    rw [List.length_append, bits_length]
    exact room
  exact (@Receiving.setClock_low rom _ _ written short).1.setMasterOut true

/-- The ROM has a request, and the first bit that the master has not taken is
on the line. -/
structure Ready (rom : Nat → UInt8) (address index : Nat) (bus : Bus) :
    Prop where
  sending : Sending bus address (index + 1)
  line : bus.masterIn = dataBit rom address index

/-- The falling edge after the last bit of the request puts out the first bit
of the content. -/
theorem spiFlashWriteOneByte_ready {byte : UInt8}
    (receiving : Receiving bus front) (last : front.length + 8 = 32)
    (requested : request (front ++ bits 8 byte.toNat) = some address) :
    Ready rom address 0 (spiFlashWriteOneByte rom byte bus) := by
  have low := (@Receiving.setClock_low rom _ _ receiving (by omega)).1
  have written := @writeBit_iterate rom _ _ byte 8 low (by omega)
  rw [topBits_eight] at written
  have started := @Sending.setClock_low rom _ _ _ (written.sending requested)
    (writeBit_clock byte)
  exact { sending := started.1.setMasterOut true, line := started.2 }

private theorem masked_byte (value shift : Nat) :
    (value &&& (255 <<< shift)) >>> shift = value / 2 ^ shift % 256 := by
  rw [Nat.shiftRight_and_distrib, Nat.shiftLeft_shiftRight,
    Nat.and_two_pow_sub_one_eq_mod _ 8, Nat.shiftRight_eq_div_pow]

theorem pcmd_number (readAddr : UInt32) :
    (pcmd readAddr).map UInt8.toNat =
      [readAddr.toNat / 2 ^ 16 % 256, readAddr.toNat / 2 ^ 8 % 256,
        readAddr.toNat % 256] := by
  have high := congrArg (fun byte => byte % 2 ^ 8)
    (masked_byte readAddr.toNat 16)
  have middle := congrArg (fun byte => byte % 2 ^ 8)
    (masked_byte readAddr.toNat 8)
  simp only [pcmd, List.map_cons, List.map_nil, UInt32.toNat_toUInt8,
    UInt32.toNat_shiftRight, UInt32.toNat_and]
  congr 1
  · exact high.trans (Nat.mod_mod _ _)
  · congr 1
    exact middle.trans (Nat.mod_mod _ _)

theorem request_pcmd {readAddr : UInt32} {first second third : UInt8}
    (bytes : pcmd readAddr = [first, second, third]) :
    request (bits 8 3 ++ bits 8 first.toNat ++ bits 8 second.toNat ++
        bits 8 third.toNat) =
      some (readAddr.toNat % 2 ^ 24) := by
  have values := pcmd_number readAddr
  simp only [bytes, List.map_cons, List.map_nil, List.cons.injEq,
    and_true] at values
  obtain ⟨high, middle, low⟩ := values
  rw [List.append_assoc, List.append_assoc, request, if_pos]
  · rw [List.drop_left' (bits_length 8 _), number_append, number_append,
      number_bits, number_bits, number_bits]
    simp only [bits_length, List.length_append, high, middle, low]
    congr 1
    omega
  · rw [List.take_left' (bits_length 8 _), number_bits]
    simp

theorem request_word (addr : UInt32) :
    request (bits 32 ((addr &&& 0x00ffffff) ||| 0x03000000).toNat) =
      some (addr.toNat % 2 ^ 24) := by
  have word : ((addr &&& 0x00ffffff) ||| 0x03000000).toNat =
      2 ^ 24 * 3 + addr.toNat % 2 ^ 24 := by
    have below : addr.toNat % 2 ^ 24 < 2 ^ 24 := Nat.mod_lt _ (by decide)
    rw [UInt32.toNat_or, UInt32.toNat_and, Nat.two_pow_add_eq_or_of_lt below,
      Nat.or_comm, ← Nat.and_two_pow_sub_one_eq_mod]
    rfl
  rw [word, bits_add 8 24, request, if_pos]
  · rw [List.drop_left' (bits_length 8 _), number_bits]
    congr 1
    omega
  · rw [List.take_left' (bits_length 8 _), number_bits]
    constructor
    · simp
    · omega

/-- A byte taken by a reader is the byte of the ROM, and leaves the ROM ready
for the next. -/
structure TakesByte (readOneByte : Bus → UInt8 × Bus)
    (ready : Nat → Bus → Prop) (content : Nat → UInt8) : Prop where
  byte : ∀ {place bus}, ready place bus → (readOneByte bus).1 = content place
  next : ∀ {place bus}, ready place bus →
    ready (place + 1) (readOneByte bus).2

theorem readBytes_eq {readOneByte : Bus → UInt8 × Bus}
    {ready : Nat → Bus → Prop} {content : Nat → UInt8}
    (takes : TakesByte readOneByte ready content) {place : Nat}
    (start : ready place bus) (count : Nat) :
    (readBytes readOneByte count bus).1 =
      (List.range count).map fun index => content (place + index) := by
  induction count generalizing place bus with
  | zero => rfl
  | succ count induction =>
      change (readOneByte bus).1 ::
        (readBytes readOneByte count (readOneByte bus).2).1 = _
      rw [List.range_succ_eq_map, List.map_cons, List.map_map,
        takes.byte start, induction (takes.next start), List.cons.injEq]
      refine ⟨rfl, ?_⟩
      apply List.map_congr_left
      intro index _
      rw [Function.comp_apply, Nat.succ_eq_add_one, Nat.add_right_comm,
        Nat.add_assoc]

theorem readBit_iterate {value : UInt8} (ready : Ready rom address index bus)
    (count : Nat) :
    ((readBit rom)^[count] (value, bus)).1 =
        ((List.range count).map fun offset =>
          dataBit rom address (index + offset)).foldl shiftedIn value ∧
      Ready rom address (index + count) ((readBit rom)^[count] (value, bus)).2 := by
  induction count with
  | zero => exact ⟨rfl, ready⟩
  | succ count induction =>
      obtain ⟨taken, reached⟩ := induction
      obtain ⟨high, line⟩ := @Sending.setClock_high rom _ _ _ reached.sending
      obtain ⟨low, next⟩ := @Sending.setClock_low rom _ _ _ high
        (setClock_clock true)
      rw [Function.iterate_succ_apply']
      constructor
      · rw [readBit, line, reached.line, taken, List.range_succ,
          List.map_append, List.foldl_append]
        rfl
      · exact { sending := low, line := next }

theorem dataBits_byte (rom : Nat → UInt8) (address place : Nat) :
    ((List.range 8).map fun offset =>
        dataBit rom address (8 * place + offset)) =
      bits 8 (rom (address + place)).toNat := by
  rw [bits_byte]
  apply List.map_congr_left
  intro offset inside
  exact dataBit_byte place (List.mem_range.mp inside)

/-- `SpiFlash_ReadOneByte` takes the bit on the line before each falling
edge. -/
theorem spiFlashReadOneByte_takes (rom : Nat → UInt8) (address : Nat) :
    TakesByte (spiFlashReadOneByte rom)
      (fun place bus => Ready rom address (8 * place) bus)
      (fun place => rom (address + place)) where
  byte := by
    intro place bus ready
    obtain ⟨high, line⟩ := @Sending.setClock_high rom _ _ _ ready.sending
    have risen : Ready rom address (8 * place) (setClock rom true bus) :=
      { sending := high, line := line.trans ready.line }
    have table := shiftedIn_table
      ⟨(rom (address + place)).toNat, (rom (address + place)).toNat_lt⟩
    change ((readBit rom)^[8] (0, setClock rom true bus)).1 = _
    rw [(readBit_iterate risen 8).1, dataBits_byte, table, UInt8.ofNat_toNat]
  next := by
    intro place bus ready
    obtain ⟨high, line⟩ := @Sending.setClock_high rom _ _ _ ready.sending
    have risen : Ready rom address (8 * place) (setClock rom true bus) :=
      { sending := high, line := line.trans ready.line }
    obtain ⟨_, read⟩ := @readBit_iterate rom _ _ _ 0 risen 8
    obtain ⟨last, lastLine⟩ := @Sending.setClock_high rom _ _ _ read.sending
    exact { sending := last, line := lastLine.trans read.line }

theorem takeBit_foldl (count place : Nat)
    (sending : Sending bus address (8 * place)) (room : count ≤ 8) :
    ((List.range count).foldl (takeBit rom) (0, bus)).1 =
        (List.range count).foldl
          (fun byte j => placedIn byte
            ((rom (address + place)).toNat.testBit (7 - j)) j) 0 ∧
      Sending ((List.range count).foldl (takeBit rom) (0, bus)).2 address
        (8 * place + count) := by
  induction count with
  | zero => exact ⟨rfl, sending⟩
  | succ count induction =>
      obtain ⟨taken, reached⟩ := induction (Nat.le_of_succ_le room)
      obtain ⟨high, _⟩ := @Sending.setClock_high rom _ _ _ reached
      obtain ⟨low, line⟩ := @Sending.setClock_low rom _ _ _ high
        (setClock_clock true)
      rw [dataBit_byte place room] at line
      rw [List.range_succ, List.foldl_append, List.foldl_append,
        List.foldl_cons, List.foldl_nil, List.foldl_cons, List.foldl_nil]
      constructor
      · rw [takeBit, line, taken, placedIn]
      · exact low

theorem takeByte_takes (rom : Nat → UInt8) (address : Nat) :
    TakesByte (takeByte rom)
      (fun place bus => Sending bus address (8 * place))
      (fun place => rom (address + place)) where
  byte := by
    intro place bus sending
    have table := placedIn_table
      ⟨(rom (address + place)).toNat, (rom (address + place)).toNat_lt⟩
    rw [takeByte, (takeBit_foldl 8 place sending (Nat.le_refl 8)).1, table,
      UInt8.ofNat_toNat]
  next := by
    intro place bus sending
    exact (takeBit_foldl 8 place sending (Nat.le_refl 8)).2

theorem word_bit (word : UInt32) {i : Nat} (inside : i < 32) :
    (word &&& (0x80000000 >>> UInt32.ofNat i) != 0) =
      word.toNat.testBit (31 - i) := by
  have amount : (UInt32.ofNat i).toNat = i :=
    UInt32.toNat_ofNat_of_lt' (Nat.lt_trans inside (by decide))
  have mask : ((0x80000000 : UInt32) >>> UInt32.ofNat i).toNat =
      2 ^ (31 - i) := by
    rw [UInt32.toNat_shiftRight, amount, Nat.mod_eq_of_lt inside,
      Nat.shiftRight_eq_div_pow]
    exact Nat.pow_div (Nat.le_of_lt_succ inside) Nat.zero_lt_two
  rw [Bool.eq_iff_iff, bne_iff_ne, Ne, ← UInt32.toNat_inj, UInt32.toNat_and,
    mask, Nat.and_two_pow]
  cases word.toNat.testBit (31 - i) with
  | false => simp
  | true => simp

theorem word_bits (word : UInt32) :
    ((List.range 32).map fun i =>
        word &&& (0x80000000 >>> UInt32.ofNat i) != 0) =
      bits 32 word.toNat := by
  apply List.map_congr_left
  intro i inside
  exact word_bit word (List.mem_range.mp inside)

theorem sendBit_foldl {word : UInt32} (count : Nat) (room : count ≤ 32)
    (receiving : Receiving bus []) :
    Receiving ((List.range count).foldl (sendBit rom word) bus)
      ((List.range count).map fun i =>
        word &&& (0x80000000 >>> UInt32.ofNat i) != 0) := by
  induction count with
  | zero => exact receiving
  | succ count induction =>
      have reached := induction (Nat.le_of_succ_le room)
      have short : ((List.range count).map fun i =>
          word &&& (0x80000000 >>> UInt32.ofNat i) != 0).length < 32 := by
        rw [List.length_map, List.length_range]
        exact room
      rw [List.range_succ, List.foldl_append, List.map_append]
      exact reached.bit short _

variable (rom : Nat → UInt8)

/-- `SpiFlash_Read` returns the bytes of the ROM from the address on. -/
theorem spiFlashRead_reads (readAddr readBytesNum : UInt32)
    (deselected : bus.chipSelect = true) :
    (spiFlashRead rom readAddr readBytesNum bus).1 = .retSuccess ∧
      (spiFlashRead rom readAddr readBytesNum bus).2.1 =
        (List.range readBytesNum.toNat).map fun index =>
          rom (readAddr.toNat % 2 ^ 24 + index) := by
  have selected := receiving_select deselected
  have command := @spiFlashWriteOneByte_receiving rom _ _ 0x03 selected
    (by decide)
  obtain ⟨first, second, third, bytes⟩ : ∃ first second third,
      pcmd readAddr = [first, second, third] := ⟨_, _, _, rfl⟩
  have high := @spiFlashWriteOneByte_receiving rom _ _ first command (by
    rw [List.nil_append, bits_length]
    decide)
  have middle := @spiFlashWriteOneByte_receiving rom _ _ second high (by
    rw [List.nil_append, List.length_append, bits_length, bits_length]
    decide)
  have ready : Ready rom (readAddr.toNat % 2 ^ 24) (8 * 0) _ :=
    spiFlashWriteOneByte_ready middle (by simp) (request_pcmd bytes)
  have read := readBytes_eq
    (spiFlashReadOneByte_takes rom (readAddr.toNat % 2 ^ 24)) ready
    readBytesNum.toNat
  refine ⟨rfl, ?_⟩
  simp only [Nat.zero_add] at read
  rw [← read, spiFlashRead, spiFlashWriteCmd, bytes]
  rfl

theorem gt21l16s2ReadAddr_reads (addr : UInt32) (datlen : UInt8)
    (deselected : bus.chipSelect = true) :
    (gt21l16s2ReadAddr rom addr datlen bus).1 =
      (List.range datlen.toNat).map fun index =>
        rom (addr.toNat % 2 ^ 24 + index) := by
  have taken := @sendBit_foldl rom _ ((addr &&& 0x00ffffff) ||| 0x03000000) 32
    (Nat.le_refl 32) (receiving_select deselected)
  rw [word_bits] at taken
  have sending : Sending _ (addr.toNat % 2 ^ 24) (8 * 0) :=
    taken.sending (request_word addr)
  have read := readBytes_eq (takeByte_takes rom (addr.toNat % 2 ^ 24)) sending
    datlen.toNat
  simp only [Nat.zero_add] at read
  exact read

end

/-- Both readers fill the buffer with the bytes of the ROM from the address on,
whatever the levels of the lines were before. -/
theorem fontReaders_agree (rom : Nat → UInt8) (addr : UInt32) (length : UInt8)
    (spiBus fontBus : Bus) (address24 : addr.toNat < 2 ^ 24)
    (spiDeselected : spiBus.chipSelect = true)
    (fontDeselected : fontBus.chipSelect = true) :
    (spiFlashRead rom addr length.toUInt32 spiBus).1 = .retSuccess ∧
      (spiFlashRead rom addr length.toUInt32 spiBus).2.1 =
        (gt21l16s2ReadAddr rom addr length fontBus).1 ∧
      (gt21l16s2ReadAddr rom addr length fontBus).1 =
        (List.range length.toNat).map fun index => rom (addr.toNat + index) := by
  obtain ⟨success, spiRead⟩ :=
    spiFlashRead_reads rom addr length.toUInt32 spiDeselected
  have fontRead := gt21l16s2ReadAddr_reads rom addr length fontDeselected
  rw [UInt8.toNat_toUInt32, ← fontRead] at spiRead
  rw [Nat.mod_eq_of_lt address24] at fontRead
  exact ⟨success, spiRead, fontRead⟩

/-- The check of `spi_gpio_init`: both readers at address zero, one with the
clock high and one with it low. -/
theorem fontReaders_agree_start :
    (spiFlashRead (fun place => UInt8.ofNat place) 0 16
        { chipSelect := true, clock := true, masterOut := true,
          masterIn := false, received := [], sent := 0 }).2.1 =
      (gt21l16s2ReadAddr (fun place => UInt8.ofNat place) 0 16
        { chipSelect := true, clock := false, masterOut := true,
          masterIn := true, received := [], sent := 0 }).1 :=
  (fontReaders_agree (fun place => UInt8.ofNat place) 0 16 _ _ (by decide) rfl
    rfl).2.1

end Tp79Boot
