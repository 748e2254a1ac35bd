import Mathlib.Data.List.Induction
import Mathlib.Data.Nat.Bitwise

/-!
# A ROM on a serial bus

The ROM samples its input on the rising edges of the clock while it is
selected.  The first thirty-two bits are a command of eight bits and an address
of twenty-four, most significant bit first; after a reading command it puts out
the next bit of its content on every falling edge.  `Receiving` and `Sending`
are the two phases of a transfer, and the rules say what an edge does in each.
-/

namespace SpiRom

def bits (width value : Nat) : List Bool :=
  (List.range width).map fun index => value.testBit (width - 1 - index)

def number (sequence : List Bool) : Nat :=
  sequence.foldl (fun value bit => 2 * value + bit.toNat) 0

@[simp] theorem bits_length (width value : Nat) :
    (bits width value).length = width := by
  simp [bits]

theorem number_concat (sequence : List Bool) (bit : Bool) :
    number (sequence ++ [bit]) = 2 * number sequence + bit.toNat := by
  simp [number]

theorem number_append (first second : List Bool) :
    number (first ++ second) =
      number first * 2 ^ second.length + number second := by
  induction second using List.reverseRecOn with
  | nil => simp [number]
  | append_singleton second last induction =>
      rw [← List.append_assoc, number_concat, induction, number_concat,
        List.length_append, List.length_singleton, Nat.pow_succ, Nat.mul_add,
        Nat.add_assoc, Nat.mul_comm 2, Nat.mul_assoc]

/-- The front of the bits is that of the quotient. -/
theorem bits_add (front width value : Nat) :
    bits (front + width) value =
      bits front (value / 2 ^ width) ++ bits width value := by
  rw [bits, List.range_add, List.map_append, List.map_map]
  congr 1
  · apply List.map_congr_left
    intro index inside
    have below : index < front := List.mem_range.mp inside
    have place : front + width - 1 - index = front - 1 - index + width := by
      omega
    rw [place, Nat.testBit_div_two_pow]
  · apply List.map_congr_left
    intro index _
    have place : front + width - 1 - (front + index) = width - 1 - index := by
      omega
    rw [Function.comp_apply, place]

theorem number_bits (width value : Nat) :
    number (bits width value) = value % 2 ^ width := by
  induction width generalizing value with
  | zero => rw [Nat.pow_zero, Nat.mod_one]; rfl
  | succ width induction =>
      have last : bits 1 value = [value.testBit 0] := rfl
      rw [bits_add width 1, last, number_concat, induction, Nat.pow_one,
        Nat.pow_succ', Nat.mod_mul, Nat.testBit_zero, Nat.add_comm]
      rcases Nat.mod_two_eq_zero_or_one value with even | odd
      · simp [even]
      · simp [odd]

/-- The lines of the bus, and what the ROM has counted since it was selected. -/
structure Bus where
  chipSelect : Bool
  clock : Bool
  masterOut : Bool
  masterIn : Bool
  received : List Bool
  sent : Nat
deriving DecidableEq

/-- The address of a reading request. -/
def request (received : List Bool) : Option Nat :=
  if received.length = 32 ∧ number (received.take 8) = 3 then
    some (number (received.drop 8))
  else none

variable (rom : Nat → UInt8)

/-- The bits of the content from an address on. -/
def dataBit (address index : Nat) : Bool :=
  (rom (address + index / 8)).toNat.testBit (7 - index % 8)

/-- The select line; selecting starts a transfer. -/
def setChipSelect (level : Bool) (bus : Bus) : Bus :=
  if bus.chipSelect = true ∧ level = false then
    { bus with chipSelect := false, received := [], sent := 0 }
  else { bus with chipSelect := level }

def setMasterOut (level : Bool) (bus : Bus) : Bus :=
  { bus with masterOut := level }

def rising (bus : Bus) : Bus :=
  if bus.chipSelect = false ∧ bus.received.length < 32 then
    { bus with received := bus.received ++ [bus.masterOut] }
  else bus

def falling (bus : Bus) : Bus :=
  if bus.chipSelect = false then
    match request bus.received with
    | some address =>
        { bus with
          masterIn := dataBit rom address bus.sent
          sent := bus.sent + 1 }
    | none => bus
  else bus

def setClock (level : Bool) (bus : Bus) : Bus :=
  if level = bus.clock then bus
  else if level then { rising bus with clock := true }
  else { falling rom bus with clock := false }

/-- Selected, with some bits of the request taken. -/
structure Receiving (bus : Bus) (front : List Bool) : Prop where
  selected : bus.chipSelect = false
  received : bus.received = front
  fresh : bus.sent = 0

/-- Selected, with a reading request taken and some bits put out. -/
structure Sending (bus : Bus) (address index : Nat) : Prop where
  selected : bus.chipSelect = false
  requested : request bus.received = some address
  sent : bus.sent = index

variable {rom} {bus : Bus} {front : List Bool} {address index : Nat}

@[simp] theorem setClock_clock (level : Bool) :
    (setClock rom level bus).clock = level := by
  rw [setClock]
  split
  next same => exact same.symm
  next =>
    cases level with
    | false => rfl
    | true => rfl

theorem falling_setMasterOut (bit : Bool) :
    falling rom (setMasterOut bit bus) = setMasterOut bit (falling rom bus) := by
  by_cases selected : bus.chipSelect = false
  · cases requested : request bus.received with
    | none => simp [falling, setMasterOut, selected, requested]
    | some address => simp [falling, setMasterOut, selected, requested]
  · simp [falling, setMasterOut, selected]

theorem setMasterOut_setClock_false (bit : Bool) :
    setMasterOut bit (setClock rom false bus) =
      setClock rom false (setMasterOut bit bus) := by
  cases level : bus.clock with
  | false => simp [setClock, setMasterOut, level]
  | true =>
      have still : (setMasterOut bit bus).clock = true := level
      rw [setClock, setClock, level, still, falling_setMasterOut]
      rfl

theorem request_short (short : front.length < 32) : request front = none := by
  rw [request, if_neg]
  intro whole
  exact Nat.ne_of_lt short whole.1

theorem receiving_select (deselected : bus.chipSelect = true) :
    Receiving (setChipSelect false bus) [] := by
  rw [setChipSelect, if_pos ⟨deselected, rfl⟩]
  exact { selected := rfl, received := rfl, fresh := rfl }

namespace Receiving

theorem setMasterOut (receiving : Receiving bus front) (bit : Bool) :
    Receiving (setMasterOut bit bus) front where
  selected := receiving.selected
  received := receiving.received
  fresh := receiving.fresh

theorem setClock_low (receiving : Receiving bus front)
    (short : front.length < 32) :
    Receiving (setClock rom false bus) front ∧
      (setClock rom false bus).masterOut = bus.masterOut := by
  have still : falling rom bus = bus := by
    rw [falling, if_pos receiving.selected, receiving.received,
      request_short short]
  rw [setClock, still]
  split
  · exact ⟨receiving, rfl⟩
  · constructor
    · constructor
      · exact receiving.selected
      · exact receiving.received
      · exact receiving.fresh
    · rfl

theorem setClock_high (receiving : Receiving bus front)
    (short : front.length < 32) (low : bus.clock = false) :
    Receiving (setClock rom true bus) (front ++ [bus.masterOut]) := by
  have sampled : rising bus =
      { bus with received := bus.received ++ [bus.masterOut] } := by
    rw [rising, if_pos]
    refine ⟨receiving.selected, ?_⟩
    rw [receiving.received]
    exact short
  rw [setClock, sampled, low, if_neg (by decide), if_pos rfl]
  constructor
  · exact receiving.selected
  · exact congrArg (fun taken => taken ++ [bus.masterOut]) receiving.received
  · exact receiving.fresh

/-- A bit is sampled when the clock goes low and high again, whether it is put
on the line before the low edge or after it. -/
theorem bit (receiving : Receiving bus front) (short : front.length < 32)
    (bit : Bool) :
    Receiving (setClock rom true
      (setClock rom false (SpiRom.setMasterOut bit bus))) (front ++ [bit]) := by
  obtain ⟨ready, line⟩ :=
    @setClock_low rom _ _ (receiving.setMasterOut bit) short
  have sampled := @setClock_high rom _ _ ready short (setClock_clock false)
  rw [line] at sampled
  exact sampled

theorem sending (receiving : Receiving bus front)
    (requested : request front = some address) : Sending bus address 0 where
  selected := receiving.selected
  requested := by rw [receiving.received, requested]
  sent := receiving.fresh

end Receiving

namespace Sending

theorem setMasterOut (sending : Sending bus address index) (bit : Bool) :
    Sending (setMasterOut bit bus) address index where
  selected := sending.selected
  requested := sending.requested
  sent := sending.sent

/-- The ROM takes no more bits once it has a request. -/
theorem setClock_high (sending : Sending bus address index) :
    Sending (setClock rom true bus) address index ∧
      (setClock rom true bus).masterIn = bus.masterIn := by
  have whole : ¬ bus.received.length < 32 := by
    intro short
    have requested := sending.requested
    rw [request_short short] at requested
    cases requested
  have still : rising bus = bus := by
    rw [rising, if_neg]
    intro taking
    exact whole taking.2
  rw [setClock, still]
  split
  · exact ⟨sending, rfl⟩
  · constructor
    · constructor
      · exact sending.selected
      · exact sending.requested
      · exact sending.sent
    · rfl

theorem setClock_low (sending : Sending bus address index)
    (high : bus.clock = true) :
    Sending (setClock rom false bus) address (index + 1) ∧
      (setClock rom false bus).masterIn = dataBit rom address index := by
  have put : falling rom bus =
      { bus with
        masterIn := dataBit rom address bus.sent
        sent := bus.sent + 1 } := by
    rw [falling, if_pos sending.selected, sending.requested]
  rw [setClock, put, high, if_neg (by decide), if_neg (by decide)]
  constructor
  · constructor
    · exact sending.selected
    · exact sending.requested
    · exact congrArg Nat.succ sending.sent
  · exact congrArg (dataBit rom address) sending.sent

end Sending

theorem dataBit_byte (place : Nat) {offset : Nat} (inside : offset < 8) :
    dataBit rom address (8 * place + offset) =
      (rom (address + place)).toNat.testBit (7 - offset) := by
  have quotient : (8 * place + offset) / 8 = place := by omega
  have remainder : (8 * place + offset) % 8 = offset := by omega
  rw [dataBit, quotient, remainder]

end SpiRom
