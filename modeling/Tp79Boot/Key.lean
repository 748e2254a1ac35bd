import Mathlib.Tactic.IntervalCases
import Tp79Boot.Lib.Bracketing
import Tp79Boot.Lib.EventRun

/-!
# The keypad

`key.c`: two ADC channels with nine keys each and three keys on pins of their
own.  `key_scan_task` takes a first reading, waits until the key has stopped
bouncing, and then puts a code into `key_value` for the press, for holding the
key three seconds, and for the release.
-/

namespace Tp79Boot

open EventRun Bracketing

/-- A value of `KEY_VALUE_T`.  The scanner calculates with them. -/
abbrev KeyValue := UInt8

def keyValueNone : KeyValue := 0
def keyValueDown1 : KeyValue := 1
def keyValueDown19 : KeyValue := 19
def keyValueDown20 : KeyValue := 20
def keyValueDown21 : KeyValue := 21
def keyValueDown1For3S : KeyValue := 22
def keyValueStatusDown : KeyValue := 44
def keyValueUp1 : KeyValue := 0x80 ||| keyValueDown1

def keyTingleTimerMax : UInt32 := 20
def keyTimer3SMax : UInt32 := 3000

/-- What the two ADC channels and the three pins read.  A pin reads zero while
its key is down. -/
structure Pads where
  adcKey19 : UInt16
  adcKey1018 : UInt16
  key19Down : Bool
  key20Down : Bool
  key21Down : Bool

/-- The first of the nine levels of a channel that the value is above; a value
near the upper end means that no key is down. -/
def adcLevel (levels : List Nat) (keyAdcValue : UInt16) : Option Nat :=
  if 0xFFD - 0xA8 < keyAdcValue.toNat then none
  else levels.findIdx? fun level => level - 0xA8 < keyAdcValue.toNat

def keyAdcTab : List Nat :=
  [0x0E91, 0x0D65, 0x0C5B, 0x0B40, 0x09BB, 0x083B, 0x0707, 0x057E, 0x0409]

/-- The levels `0xE91 - 0x150*i`. -/
def keyAdcSteps : List Nat :=
  (List.range 9).map fun i => 0xE91 - 0x150 * i

def keyGetAdcLev (pads : Pads) : KeyValue :=
  match adcLevel keyAdcTab pads.adcKey19 with
  | some i => UInt8.ofNat (i + 1)
  | none =>
      match adcLevel keyAdcSteps pads.adcKey1018 with
      | some i => UInt8.ofNat (9 + i + 1)
      | none => keyValueNone

def keyStatusIsdown (pads : Pads) : KeyValue :=
  if keyGetAdcLev pads ≠ keyValueNone then keyGetAdcLev pads
  else if pads.key19Down then keyValueDown19
  else if pads.key20Down then keyValueDown20
  else if pads.key21Down then keyValueDown21
  else keyValueNone

/-- The key taken for the press: of several pins the last one. -/
def pressedKey (pads : Pads) : KeyValue :=
  if keyGetAdcLev pads ≠ keyValueNone then keyGetAdcLev pads
  else if pads.key21Down then keyValueDown21
  else if pads.key20Down then keyValueDown20
  else if pads.key19Down then keyValueDown19
  else keyValueNone

/-- The static variables of `key_scan_task`, and the values put into
`key_value` so far. -/
structure KeyScan where
  keyTingleTimer : UInt32
  keyStatus : KeyValue
  keyValueTemp : KeyValue
  keyValues : List KeyValue

def KeyScan.start : KeyScan :=
  { keyTingleTimer := 0
    keyStatus := keyValueNone
    keyValueTemp := keyValueNone
    keyValues := [] }

namespace KeyScan

def put (scan : KeyScan) (keyValue : KeyValue) : KeyScan :=
  { scan with keyValues := scan.keyValues ++ [keyValue] }

/-- Back to waiting for a key. -/
def idle (scan : KeyScan) : KeyScan :=
  { scan with
    keyStatus := keyValueNone
    keyValueTemp := keyValueNone }

/-- A key is no longer down.  The test of `key_status` always succeeds. -/
def release (scan : KeyScan) : KeyScan :=
  if scan.keyStatus < keyValueStatusDown then
    (scan.put (scan.keyValueTemp + (keyValueUp1 - keyValueDown1))).idle
  else scan.idle

end KeyScan

def keyScanTask (sysTickCnt : UInt32) (pads : Pads) (scan : KeyScan) :
    KeyScan :=
  let elapsed := sysTickCnt - scan.keyTingleTimer
  if scan.keyValueTemp = keyValueNone then
    if keyStatusIsdown pads ≠ keyValueNone then
      { scan with
        keyValueTemp := pressedKey pads
        keyTingleTimer := sysTickCnt }
    else scan
  else if keyTingleTimerMax < elapsed ∧ elapsed < keyTimer3SMax then
    if keyStatusIsdown pads ≠ keyValueNone then
      if scan.keyStatus = keyValueNone then
        { scan.put scan.keyValueTemp with keyStatus := scan.keyValueTemp }
      else scan
    else scan.release
  else if keyTimer3SMax < elapsed then
    if keyStatusIsdown pads ≠ keyValueNone then
      { scan.put (scan.keyValueTemp + (keyValueDown1For3S - keyValueNone)) with
        keyStatus := scan.keyValueTemp }
    else scan.release
  else
    if keyStatusIsdown pads = keyValueNone ∨
        keyStatusIsdown pads ≠ scan.keyValueTemp then scan.idle
    else scan

theorem adcLevel_lt {levels : List Nat} {keyAdcValue : UInt16} {i : Nat}
    (found : adcLevel levels keyAdcValue = some i) : i < levels.length := by
  unfold adcLevel at found
  split at found
  · cases found
  · obtain ⟨below, _⟩ := List.findIdx?_eq_some_iff_getElem.mp found
    exact below

theorem keyGetAdcLev_le (pads : Pads) : keyGetAdcLev pads ≤ 18 := by
  unfold keyGetAdcLev
  split
  next i found =>
    have below : i < 9 := adcLevel_lt found
    interval_cases i <;> decide
  next =>
    split
    next i found =>
      have below : i < 9 := adcLevel_lt found
      interval_cases i <;> decide
    next => decide

theorem pressedKey_le (pads : Pads) : pressedKey pads ≤ keyValueDown21 := by
  have level := keyGetAdcLev_le pads
  unfold pressedKey
  split
  · exact UInt8.le_trans level (by decide)
  · split
    · decide
    · split
      · decide
      · split
        · decide
        · decide

theorem pressedKey_eq_none_iff (pads : Pads) :
    pressedKey pads = keyValueNone ↔ keyStatusIsdown pads = keyValueNone := by
  unfold pressedKey keyStatusIsdown
  by_cases level : keyGetAdcLev pads = keyValueNone
  · cases pads.key19Down <;> cases pads.key20Down <;>
      cases pads.key21Down <;> simp [level, keyValueNone, keyValueDown19,
        keyValueDown20, keyValueDown21]
  · simp [level]

/-- Everything a call can do to the scanner, with the readings and times at
which it does it. -/
inductive Scanned (sysTickCnt : UInt32) (pads : Pads) (scan : KeyScan) :
    KeyScan → Prop where
  | nothing : Scanned sysTickCnt pads scan scan
  | press : scan.keyValueTemp = keyValueNone →
      keyStatusIsdown pads ≠ keyValueNone →
      Scanned sysTickCnt pads scan
        { scan with
          keyValueTemp := pressedKey pads
          keyTingleTimer := sysTickCnt }
  | down : scan.keyValueTemp ≠ keyValueNone →
      scan.keyStatus = keyValueNone →
      keyTingleTimerMax < sysTickCnt - scan.keyTingleTimer →
      Scanned sysTickCnt pads scan
        { scan.put scan.keyValueTemp with keyStatus := scan.keyValueTemp }
  | hold : scan.keyValueTemp ≠ keyValueNone →
      keyTimer3SMax < sysTickCnt - scan.keyTingleTimer →
      keyStatusIsdown pads ≠ keyValueNone →
      Scanned sysTickCnt pads scan
        { scan.put (scan.keyValueTemp +
            (keyValueDown1For3S - keyValueNone)) with
          keyStatus := scan.keyValueTemp }
  | up : scan.keyValueTemp ≠ keyValueNone →
      keyTingleTimerMax < sysTickCnt - scan.keyTingleTimer →
      sysTickCnt - scan.keyTingleTimer ≠ keyTimer3SMax →
      keyStatusIsdown pads = keyValueNone →
      Scanned sysTickCnt pads scan scan.release
  | drop : scan.keyValueTemp ≠ keyValueNone →
      sysTickCnt - scan.keyTingleTimer ≤ keyTingleTimerMax ∨
        sysTickCnt - scan.keyTingleTimer = keyTimer3SMax →
      keyStatusIsdown pads ≠ scan.keyValueTemp →
      Scanned sysTickCnt pads scan scan.idle

theorem keyScanTask_scanned (sysTickCnt : UInt32) (pads : Pads)
    (scan : KeyScan) :
    Scanned sysTickCnt pads scan (keyScanTask sysTickCnt pads scan) := by
  unfold keyScanTask
  simp only
  by_cases waiting : scan.keyValueTemp = keyValueNone
  · rw [if_pos waiting]
    split
    next isDown => exact .press waiting isDown
    next => exact .nothing
  · rw [if_neg waiting]
    by_cases inside : keyTingleTimerMax < sysTickCnt - scan.keyTingleTimer ∧
        sysTickCnt - scan.keyTingleTimer < keyTimer3SMax
    · rw [if_pos inside]
      split
      next isDown =>
        split
        next fresh => exact .down waiting fresh inside.1
        next => exact .nothing
      next isUp =>
        exact .up waiting inside.1 (UInt32.ne_of_lt inside.2)
          (Classical.not_not.mp isUp)
    · rw [if_neg inside]
      by_cases long : keyTimer3SMax < sysTickCnt - scan.keyTingleTimer
      · rw [if_pos long]
        split
        next isDown => exact .hold waiting long isDown
        next isUp =>
          exact .up waiting (UInt32.lt_trans (by decide) long)
            (UInt32.ne_of_lt long).symm (Classical.not_not.mp isUp)
      · rw [if_neg long]
        split
        next other =>
          refine .drop waiting ?_ ?_
          · rw [UInt32.le_iff_toNat_le, ← UInt32.toNat_inj]
            rw [UInt32.lt_iff_toNat_lt] at long
            rw [UInt32.lt_iff_toNat_lt, UInt32.lt_iff_toNat_lt] at inside
            omega
          · rcases other with isUp | differs
            · rw [isUp]
              exact fun same => waiting same.symm
            · exact differs
        next => exact .nothing

end Tp79Boot
