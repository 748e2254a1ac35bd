import Tp79Boot.Poc.Receiver

/-!
# The receiver of the positioning module

`gps.c`: a second ring, drained by a loop of the same shape as that of the
radio module, but with a counter of eight bits and a buffer of 257 bytes.  What
fills `device_uart1` is not in the source; its positions are those of a ring
that an interrupt handler such as `usart2IrqHandler` fills.
-/

namespace Tp79Boot

open WhileLoop

/-- `gps_device_status_t`. -/
inductive GpsDeviceStatus where
  | notDetect
  | normal
  | moving
deriving DecidableEq, Repr

/-- `gps_snr_t`. -/
structure GpsSnr where
  snr : Vector (Vector UInt8 4) 32
  time : Vector UInt32 32

/-- `gps_device_t`. -/
structure GpsDevice where
  nsValue : Vector UInt8 32
  ns : UInt8
  ewValue : Vector UInt8 32
  ew : UInt8
  positionState : UInt8
  satellitesSum : Vector UInt8 4
  snr : GpsSnr
  status : GpsDeviceStatus

/-- The first loop of `gps_task`: what has not been renewed for ten seconds
loses its time. -/
def GpsDevice.expire (device : GpsDevice) (sysTickCnt : UInt32) : GpsDevice :=
  { device with
    snr :=
      { device.snr with
        time := device.snr.time.map fun time =>
          if sysTickCnt - time > 10000 then 0 else time } }

/-- `device_uart1` together with the two static variables of `gps_task`. -/
structure GpsReceiver where
  deviceUart : DeviceUart
  bufTempDeal : Vector UInt8 257
  cmpCnt : UInt8

namespace GpsReceiver

abbrev ring (receiver : GpsReceiver) : RingBuffer UInt8 uartRxbufLenMax :=
  receiver.deviceUart.recvBuf

def contents (receiver : GpsReceiver) : List UInt8 :=
  receiver.ring.contents

/-- The byte at the counter. -/
def here (receiver : GpsReceiver) : UInt8 :=
  receiver.ring.cell receiver.cmpCnt.toNat

/-- The receiver with its counter moved. -/
def counting (receiver : GpsReceiver) (cmpCnt : UInt8) : GpsReceiver :=
  { receiver with cmpCnt := cmpCnt }

@[simp] theorem counting_ring (receiver : GpsReceiver) (cmpCnt : UInt8) :
    (receiver.counting cmpCnt).ring = receiver.ring := rfl

@[simp] theorem counting_cmpCnt (receiver : GpsReceiver) (cmpCnt : UInt8) :
    (receiver.counting cmpCnt).cmpCnt = cmpCnt := rfl

/-- The receiver with its ring moved, and the counter back at zero. -/
def moved (receiver : GpsReceiver)
    (recvBuf : RingBuffer UInt8 uartRxbufLenMax) : GpsReceiver :=
  { receiver with
    deviceUart := { receiver.deviceUart with recvBuf := recvBuf }
    cmpCnt := 0 }

@[simp] theorem moved_ring (receiver : GpsReceiver)
    (recvBuf : RingBuffer UInt8 uartRxbufLenMax) :
    (receiver.moved recvBuf).ring = recvBuf := rfl

end GpsReceiver

/-- The copies made for a line of `cmpCnt` bytes. -/
def gpsCopies (readP cmpCnt : Nat) : List LineCopy :=
  if readP + cmpCnt < uartRxbufLenMax then
    [{ target := 0, source := readP, length := cmpCnt }]
  else
    [{ target := 0
       source := readP
       length := (uartRxbufLenMax - readP) % 256 },
      { target := uartRxbufLenMax - readP
        source := 0
        length := (readP + cmpCnt) % uartRxbufLenMax %
          (256 - (uartRxbufLenMax - readP) % 256) }]

/-- `memset(buf_temp_deal, 0, 256)`: the last byte keeps what it holds. -/
def gpsCleared (buffer : Vector UInt8 257) : Vector UInt8 257 :=
  Vector.ofFn fun index => if index.val < 256 then 0 else buffer[index]

/-- What a copy leaves in `buf_temp_deal`. -/
def gpsCopy (cells : List UInt8) (buffer : Vector UInt8 257)
    (copy : LineCopy) : Vector UInt8 257 :=
  Vector.ofFn fun index =>
    if copy.target ≤ index.val ∧ index.val < copy.target + copy.length then
      byteAt cells (copy.source + (index.val - copy.target))
    else buffer[index]

/-- `buf_temp_deal` with the line at the reading position in it. -/
def GpsReceiver.line (receiver : GpsReceiver) : Vector UInt8 257 :=
  (gpsCopies receiver.ring.readP receiver.cmpCnt.toNat).foldl
    (gpsCopy receiver.ring.cells.toList) (gpsCleared receiver.bufTempDeal)

theorem ringCell_eq (recvBuf : RingBuffer UInt8 uartRxbufLenMax)
    (place : Nat) :
    recvBuf.cell place =
      byteAt recvBuf.cells.toList ((recvBuf.readP + place) % 2048) :=
  (byteAt_toList _ (Nat.mod_lt _ (by decide))).symm

theorem byteAt_gpsCleared (buffer : Vector UInt8 257) {place : Nat}
    (inside : place < 256) : byteAt (gpsCleared buffer).toList place = 0 := by
  rw [byteAt_toList _ (Nat.lt_succ_of_lt inside)]
  simp [gpsCleared, inside]

theorem byteAt_gpsCopy (cells : List UInt8) (buffer : Vector UInt8 257)
    (copy : LineCopy) {place : Nat} (inside : place < 257) :
    byteAt (gpsCopy cells buffer copy).toList place =
      if copy.target ≤ place ∧ place < copy.target + copy.length then
        byteAt cells (copy.source + (place - copy.target))
      else byteAt buffer.toList place := by
  rw [byteAt_toList _ inside, byteAt_toList _ inside]
  simp [gpsCopy]

/-- The remainders cut nothing off: what is left of the ring is no longer than
the line, and the line is shorter than the buffer. -/
theorem gpsCopies_wrapped {readP cmpCnt : Nat} (inRing : readP < 2048)
    (counter : cmpCnt < 256) (wrapped : 2048 ≤ readP + cmpCnt) :
    gpsCopies readP cmpCnt =
      [{ target := 0, source := readP, length := 2048 - readP },
        { target := 2048 - readP
          source := 0
          length := cmpCnt - (2048 - readP) }] := by
  have firstLength : (2048 - readP) % 256 = 2048 - readP :=
    Nat.mod_eq_of_lt (by omega)
  have position : (readP + cmpCnt) % 2048 = cmpCnt - (2048 - readP) := by
    omega
  have secondLength : (cmpCnt - (2048 - readP)) % (256 - (2048 - readP)) =
      cmpCnt - (2048 - readP) := Nat.mod_eq_of_lt (by omega)
  rw [gpsCopies, if_neg (Nat.not_lt_of_ge wrapped), firstLength, position,
    secondLength]

/-- The bytes before the counter come to the front of the buffer, wherever the
line lies in the ring. -/
theorem GpsReceiver.byteAt_line (receiver : GpsReceiver) {place : Nat}
    (inside : place < 256) :
    byteAt receiver.line.toList place =
      if place < receiver.cmpCnt.toNat then receiver.ring.cell place else 0 := by
  have counter : receiver.cmpCnt.toNat < 256 := receiver.cmpCnt.toNat_lt
  have inRing : receiver.ring.readP < 2048 := receiver.ring.readP_lt
  have below : place < 257 := Nat.lt_succ_of_lt inside
  rw [GpsReceiver.line, ringCell_eq]
  generalize receiver.cmpCnt.toNat = cmpCnt at counter ⊢
  generalize receiver.ring.readP = readP at inRing ⊢
  by_cases straight : readP + cmpCnt < 2048
  · have once : gpsCopies readP cmpCnt =
        [{ target := 0, source := readP, length := cmpCnt }] :=
      if_pos straight
    rw [once, List.foldl_cons, List.foldl_nil, byteAt_gpsCopy _ _ _ below,
      byteAt_gpsCleared _ inside]
    by_cases copied : place < cmpCnt
    · have position : (readP + place) % 2048 = readP + place :=
        Nat.mod_eq_of_lt (by omega)
      rw [if_pos copied, position]
      simp [copied]
    · simp [copied]
  · rw [gpsCopies_wrapped inRing counter (Nat.le_of_not_lt straight),
      List.foldl_cons, List.foldl_cons, List.foldl_nil,
      byteAt_gpsCopy _ _ _ below, byteAt_gpsCopy _ _ _ below,
      byteAt_gpsCleared _ inside]
    by_cases behind : 2048 - readP ≤ place ∧
        place < 2048 - readP + (cmpCnt - (2048 - readP))
    · have copied : place < cmpCnt := by omega
      have position : (readP + place) % 2048 = place - (2048 - readP) := by
        omega
      rw [if_pos behind, if_pos copied, position, Nat.zero_add]
    · rw [if_neg behind]
      by_cases copied : place < cmpCnt
      · have front : place < 2048 - readP := by omega
        have position : (readP + place) % 2048 = readP + place :=
          Nat.mod_eq_of_lt (by omega)
        rw [if_pos copied, position]
        simp [front]
      · have notFront : ¬(0 ≤ place ∧ place < 0 + (2048 - readP)) := by omega
        rw [if_neg copied, if_neg notFront]

section

variable (deal : GpsDevice → List UInt8 → GpsDevice)

/-- What is done with the line in front of the counter. -/
def gpsHand (device : GpsDevice) (receiver : GpsReceiver) :
    GpsDevice × GpsReceiver :=
  if 2 ≤ receiver.cmpCnt then
    (deal device receiver.line.toList,
      { receiver with bufTempDeal := receiver.line })
  else (device, receiver)

/-- One turn of the loop. -/
def gpsTurn (device : GpsDevice) (receiver : GpsReceiver) :
    Turn (GpsDevice × GpsReceiver) :=
  if receiver.ring.readP = receiver.ring.writeP then .done (device, receiver)
  else if isLineEnd receiver.here then
    let (dealt, handed) := gpsHand deal device receiver
    .again (dealt,
      handed.moved (handed.ring.advance (handed.cmpCnt.toNat + 1)))
  else if UnreadAfter receiver.ring receiver.cmpCnt.toNat then
    .again (device, receiver.counting (receiver.cmpCnt + 1))
  else if 200 ≤ receiver.cmpCnt then
    .done (device, receiver.moved receiver.ring.rewind)
  else .done (device, receiver)

def gpsStep (drained : GpsDevice × GpsReceiver) :
    Turn (GpsDevice × GpsReceiver) :=
  gpsTurn deal drained.1 drained.2

/-- `gps_task`, with a number of turns its loop may take. -/
def gpsTask (sysTickCnt : UInt32) (turns : Nat) (device : GpsDevice)
    (receiver : GpsReceiver) : Option (GpsDevice × GpsReceiver) :=
  loop (gpsStep deal) turns (device.expire sysTickCnt, receiver)

variable {deal} {device : GpsDevice} {receiver : GpsReceiver}

theorem gpsTurn_empty (empty : receiver.ring.backlog = 0) :
    gpsTurn deal device receiver = .done (device, receiver) :=
  if_pos ((RingBuffer.backlog_eq_zero_iff _).mp empty)

theorem gpsTurn_line (unread : receiver.ring.backlog ≠ 0)
    (lineEnd : isLineEnd receiver.here = true) :
    ∃ dealt next, gpsTurn deal device receiver = .again (dealt, next) ∧
      next.ring = receiver.ring.advance (receiver.cmpCnt.toNat + 1) ∧
      next.cmpCnt = 0 := by
  have nonempty := (RingBuffer.backlog_eq_zero_iff _).not.mp unread
  rw [gpsTurn, if_neg nonempty, if_pos lineEnd, gpsHand]
  by_cases long : 2 ≤ receiver.cmpCnt
  · rw [if_pos long]
    exact ⟨_, _, rfl, rfl, rfl⟩
  · rw [if_neg long]
    exact ⟨_, _, rfl, rfl, rfl⟩

theorem gpsTurn_further (notEnd : isLineEnd receiver.here = false)
    (more : receiver.cmpCnt.toNat + 1 < receiver.ring.backlog) :
    gpsTurn deal device receiver =
      .again (device, receiver.counting (receiver.cmpCnt + 1)) := by
  have unread : receiver.ring.backlog ≠ 0 := by omega
  have nonempty := (RingBuffer.backlog_eq_zero_iff _).not.mp unread
  have after := (unreadAfter_iff receiver.cmpCnt.toNat).mpr more
  rw [gpsTurn, if_neg nonempty, if_neg (Bool.eq_false_iff.mp notEnd),
    if_pos after]

/-- The counter has caught up with the writing position. -/
theorem gpsTurn_last (unread : receiver.ring.backlog ≠ 0)
    (notEnd : isLineEnd receiver.here = false)
    (last : receiver.ring.backlog ≤ receiver.cmpCnt.toNat + 1) :
    gpsTurn deal device receiver =
      .done (device, if 200 ≤ receiver.cmpCnt then
        receiver.moved receiver.ring.rewind else receiver) := by
  have nonempty := (RingBuffer.backlog_eq_zero_iff _).not.mp unread
  have noMore := (unreadAfter_iff receiver.cmpCnt.toNat).not.mpr
    (Nat.not_lt_of_ge last)
  rw [gpsTurn, if_neg nonempty, if_neg (Bool.eq_false_iff.mp notEnd),
    if_neg noMore]
  split
  · rfl
  · rfl

end

end Tp79Boot
