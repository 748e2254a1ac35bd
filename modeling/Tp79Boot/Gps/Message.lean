import Tp79Boot.Gps.Task
import Tp79Boot.Lib.FieldScan

/-!
# The sentences of the positioning module

`gps_uart_msg_deal`: a sentence is scanned for commas, and what is taken at a
comma depends on how many came before.  The position sentence is given by the
writes it makes to `gps_device`, in order.  The conversion `ddmm2dd` makes
after its copy is floating-point arithmetic; it is a parameter here.
-/

namespace Tp79Boot

open FieldScan

/-- `gps_device` as `gps_init` leaves it. -/
def GpsDevice.start : GpsDevice where
  nsValue := Vector.replicate 32 0
  ns := 0
  ewValue := Vector.replicate 32 0
  ew := 0
  positionState := 0
  satellitesSum := Vector.replicate 4 0
  snr :=
    { snr := Vector.replicate 32 (Vector.replicate 4 0)
      time := Vector.replicate 32 0 }
  status := .notDetect

def comma : UInt8 := 44

/-- The bytes the loops run over: `len` has eight bits. -/
def scanned (line : List UInt8) : List UInt8 :=
  line.take (strlen line % 256)

/-- `NS_value` and `EW_value`. -/
inductive GpsValue where
  | nsValue
  | ewValue
deriving DecidableEq, Repr

/-- What is done to `gps_device` at a comma. -/
inductive GgaWrite where
  | value (target : GpsValue) (offset : Nat) (bytes : List UInt8)
  | convert (target : GpsValue) (offset : Nat)
  | ns (byte : UInt8)
  | ew (byte : UInt8)
  | positionState (byte : UInt8)
  | satellitesSum (bytes : List UInt8)
deriving DecidableEq, Repr

/-- `ddmm2dd`: the copy runs to the end of the line and takes its zero along. -/
def ddmm2dd (line : List UInt8) (ddmm : Nat) (target : GpsValue)
    (offset : Nat) : List GgaWrite :=
  [.value target offset (bytesAt line ddmm (strlen (line.drop ddmm) + 1)),
    .convert target offset]

def ggaWrites (line : List UInt8) (mark : Mark) : List GgaWrite :=
  if mark.count = 2 then ddmm2dd line (mark.last + 1) .nsValue 0
  else if mark.count = 3 then [.ns (byteAt line (mark.place - 1))]
  else if mark.count = 4 then
    .value .ewValue 0 [byteAt line (mark.last + 1)] ::
      ddmm2dd line (mark.last + 2) .ewValue 1
  else if mark.count = 5 then [.ew (byteAt line (mark.place - 1))]
  else if mark.count = 6 then [.positionState (byteAt line (mark.place - 1))]
  else if mark.count = 7 then
    [.satellitesSum (List.replicate 4 0),
      .satellitesSum
        (bytesAt line (mark.last + 1) (mark.place - mark.last - 1))]
  else []

/-- All writes of a `$GPGGA` line, in order. -/
def gga (line : List UInt8) : List GgaWrite :=
  scan comma (fun writes mark => writes ++ ggaWrites line mark) (scanned line) []

/-- A copy into a field; none when it does not fit. -/
def copyInto {size : Nat} (field : Vector UInt8 size) (offset : Nat)
    (bytes : List UInt8) : Option (Vector UInt8 size) :=
  if offset + bytes.length ≤ size then
    some (Vector.ofFn fun index =>
      if offset ≤ index.val ∧ index.val < offset + bytes.length then
        byteAt bytes (index.val - offset)
      else field.get index)
  else none

/-- The device after a write.  What a copy past the end of its field does to
the fields behind it is not followed. -/
def GpsDevice.write (convert : Vector UInt8 32 → Nat → Vector UInt8 32)
    (device : GpsDevice) : GgaWrite → Option GpsDevice
  | .value .nsValue offset bytes =>
      (copyInto device.nsValue offset bytes).map fun nsValue =>
        { device with nsValue := nsValue }
  | .value .ewValue offset bytes =>
      (copyInto device.ewValue offset bytes).map fun ewValue =>
        { device with ewValue := ewValue }
  | .convert .nsValue offset =>
      some { device with nsValue := convert device.nsValue offset }
  | .convert .ewValue offset =>
      some { device with ewValue := convert device.ewValue offset }
  | .ns byte => some { device with ns := byte }
  | .ew byte => some { device with ew := byte }
  | .positionState byte => some { device with positionState := byte }
  | .satellitesSum bytes =>
      (copyInto device.satellitesSum 0 bytes).map fun satellitesSum =>
        { device with satellitesSum := satellitesSum }

/-- The two digits in front of a comma. -/
def gsvId (line : List UInt8) (place : Nat) : UInt8 :=
  (byteAt line (place - 1) - 48) + (byteAt line (place - 2) - 48) * 10

def snrEntry (id : UInt8) : Fin 32 :=
  ⟨id.toNat % 32, Nat.mod_lt _ (by decide)⟩

/-- The value in front of a comma, which is taken only when it has two
characters. -/
def gsvSnr (line : List UInt8) (mark : Mark) : Vector UInt8 4 :=
  if mark.place - mark.last = 3 then
    #v[byteAt line (mark.place - 2), byteAt line (mark.place - 1), 0, 0]
  else #v[0, 0, 0, 0]

/-- `SNR[id % 32]` and `time[id % 32]` written. -/
def GpsSnr.record (table : GpsSnr) (id : UInt8) (value : Vector UInt8 4)
    (sysTickCnt : UInt32) : GpsSnr :=
  { snr := table.snr.set (snrEntry id) value
    time := table.time.set (snrEntry id) sysTickCnt }

/-- The table together with the static variable `id`. -/
structure GsvScan where
  table : GpsSnr
  id : UInt8

def gsvAct (line : List UInt8) (sysTickCnt : UInt32) (state : GsvScan)
    (mark : Mark) : GsvScan :=
  if mark.count = 4 then { state with id := gsvId line mark.place }
  else if mark.count = 7 then
    { state with
      table := state.table.record state.id (gsvSnr line mark) sysTickCnt }
  else if mark.count = 16 then { state with id := gsvId line mark.place }
  else if mark.count = 19 then
    { state with
      table := state.table.record state.id (gsvSnr line mark) sysTickCnt }
  else state

/-- A `$GPGSV` line. -/
def gsv (line : List UInt8) (sysTickCnt : UInt32) (state : GsvScan) : GsvScan :=
  scan comma (gsvAct line sysTickCnt) (scanned line) state

/-- `gps_device` together with the static variable `id`. -/
structure GpsState where
  device : GpsDevice
  id : UInt8

/-- `gps_uart_msg_deal`; none when a copy leaves its field. -/
def gpsUartMsgDeal (convert : Vector UInt8 32 → Nat → Vector UInt8 32)
    (sysTickCnt : UInt32) (state : GpsState) (line : List UInt8) :
    Option GpsState :=
  if memcmpEq line 0 (ascii "$GPGGA") 6 then
    ((gga line).foldlM (GpsDevice.write convert)
        { state.device with status := .normal }).map fun device =>
      { state with device := device }
  else if memcmpEq line 0 (ascii "$GPGSV") 6 then
    let after := gsv line sysTickCnt { table := state.device.snr, id := state.id }
    some
      { device := { state.device with snr := after.table }
        id := after.id }
  else some state

theorem scanned_eq {line : List UInt8} (nonzero : ∀ byte ∈ line, byte ≠ 0)
    (short : line.length ≤ 255) : scanned line = line := by
  have length : strlen line % 256 = line.length := by
    rw [strlen_of_nonzero nonzero]
    exact Nat.mod_eq_of_lt (Nat.lt_succ_of_le short)
  rw [scanned, length, List.take_length]

theorem byteAt_fieldStart {fields : List (List UInt8)} {number : Nat}
    {field : List UInt8} (numbered : fields[number]? = some field)
    (tail : List UInt8) {place : Nat} (within : place < field.length) :
    byteAt ([comma].intercalate fields ++ tail)
        (fieldStart fields number + place) =
      byteAt field place := by
  obtain ⟨inside, rfl⟩ := List.getElem?_eq_some_iff.mp numbered
  rw [byteAt, List.getD_eq_getElem?_getD, getElem?_field inside tail within,
    byteAt_of_lt within]
  rfl

theorem gga_eq_flatMap (line : List UInt8) :
    gga line = (marks comma (scanned line)).flatMap (ggaWrites line) := by
  rw [gga, scan_eq_foldl, ← List.flatMap_eq_foldl]

end Tp79Boot
