import Tp79Boot.Lib.EventRun

/-!
# Blinking

`led.c`: two LEDs are toggled by one loop, and the time of the last toggle is a
static variable inside the loop, one for both.  So an LED that toggles starts
the other one's time anew.
-/

namespace Tp79Boot

open EventRun

/-- `led_device_t`. -/
structure LedDevice where
  ledBlinkEn : UInt8
  ledBlinkTimer1 : UInt16
  ledBlinkTimer2 : UInt16
deriving DecidableEq

/-- `led_device`, the output pins, and the static `blink_timer`. -/
structure Leds where
  device : Vector LedDevice 2
  output : Vector Bool 2
  blinkTimer : UInt32
deriving DecidableEq

/-- `LED_init`. -/
def Leds.start : Leds where
  device := Vector.replicate 2
    { ledBlinkEn := 0, ledBlinkTimer1 := 0, ledBlinkTimer2 := 0 }
  output := Vector.replicate 2 false
  blinkTimer := 0

/-- `LED_REVERSAL`. -/
def Leds.reversal (leds : Leds) (ledn : Fin 2) : Leds :=
  { leds with output := leds.output.set ledn (!leds.output[ledn]) }

def ledBlink (leds : Leds) (ledn : Fin 2) (timeron timeroff : UInt16) : Leds :=
  if timeron ≠ 0 then
    { leds with
      device := leds.device.set ledn
        { ledBlinkEn := 1
          ledBlinkTimer1 := timeron
          ledBlinkTimer2 := timeroff } }
  else
    { leds with
      output := leds.output.set ledn false
      device := leds.device.set ledn
        { leds.device[ledn] with ledBlinkEn := 0 } }

/-- One turn of the loop of `LED_task`. -/
def ledTurn (sysTickCnt : UInt32) (leds : Leds) (i : Fin 2) : Leds :=
  let device := leds.device[i]
  if device.ledBlinkEn ≠ 0 then
    if leds.output[i] = true ∧
        device.ledBlinkTimer1.toUInt32 < sysTickCnt - leds.blinkTimer then
      { leds with blinkTimer := sysTickCnt }.reversal i
    else if leds.output[i] = false ∧
        device.ledBlinkTimer2.toUInt32 < sysTickCnt - leds.blinkTimer then
      { leds with blinkTimer := sysTickCnt }.reversal i
    else leds
  else leds

def ledTask (leds : Leds) (sysTickCnt : UInt32) : Leds :=
  [0, 1].foldl (ledTurn sysTickCnt) leds

theorem ledTask_eq (leds : Leds) (sysTickCnt : UInt32) :
    ledTask leds sysTickCnt =
      ledTurn sysTickCnt (ledTurn sysTickCnt leds 0) 1 := by
  rw [ledTask, List.foldl_cons, List.foldl_cons, List.foldl_nil]

/-- The time an LED keeps its state. -/
def Leds.period (leds : Leds) (i : Fin 2) : UInt32 :=
  if leds.output[i] then leds.device[i].ledBlinkTimer1.toUInt32
  else leds.device[i].ledBlinkTimer2.toUInt32

/-- The LED blinks, and its time has passed. -/
def Leds.Due (leds : Leds) (i : Fin 2) (since sysTickCnt : UInt32) : Prop :=
  leds.device[i].ledBlinkEn ≠ 0 ∧ leds.period i < sysTickCnt - since

instance (leds : Leds) (i : Fin 2) (since sysTickCnt : UInt32) :
    Decidable (leds.Due i since sysTickCnt) :=
  inferInstanceAs (Decidable (_ ∧ _))

theorem ledTurn_eq (sysTickCnt : UInt32) (leds : Leds) (i : Fin 2) :
    ledTurn sysTickCnt leds i =
      if leds.Due i leds.blinkTimer sysTickCnt then
        { leds with blinkTimer := sysTickCnt }.reversal i
      else leds := by
  simp only [ledTurn, Leds.Due, Leds.period]
  by_cases enabled : leds.device[i.val].ledBlinkEn = 0
  · simp [enabled]
  · by_cases lit : leds.output[i.val] = true
    · simp [enabled, lit]
    · simp [enabled, lit]

section

variable {sysTickCnt : UInt32} {leds : Leds} {i j : Fin 2}

@[simp] theorem ledTurn_device :
    (ledTurn sysTickCnt leds i).device = leds.device := by
  rw [ledTurn_eq]
  split
  · rfl
  · rfl

theorem ledTurn_output_ne :
    (ledTurn sysTickCnt leds i).output[i] ≠ leds.output[i] ↔
      leds.Due i leds.blinkTimer sysTickCnt := by
  rw [ledTurn_eq]
  split
  next due =>
    have reversed : ({ leds with blinkTimer := sysTickCnt }.reversal i).output[i] =
        !leds.output[i] := Vector.getElem_set_self _
    rw [reversed]
    exact iff_of_true (by simp) due
  next early => exact iff_of_false (not_not_intro rfl) early

theorem ledTurn_output_other (different : i ≠ j) :
    (ledTurn sysTickCnt leds i).output[j] = leds.output[j] := by
  rw [ledTurn_eq]
  split
  · exact Vector.getElem_set_ne i.isLt j.isLt (Fin.val_ne_of_ne different)
  · rfl

theorem ledTurn_blinkTimer :
    (ledTurn sysTickCnt leds i).blinkTimer =
      if leds.Due i leds.blinkTimer sysTickCnt then sysTickCnt
      else leds.blinkTimer := by
  rw [ledTurn_eq]
  split
  · rfl
  · rfl

/-- What the loop finds in `blink_timer` when it comes to an LED: the second
finds the tick of this call when the first is due. -/
def Leds.found (leds : Leds) (sysTickCnt : UInt32) : Fin 2 → UInt32
  | 0 => leds.blinkTimer
  | 1 => if leds.Due 0 leds.blinkTimer sysTickCnt then sysTickCnt
      else leds.blinkTimer

theorem due_ledTurn (different : i ≠ j) (since : UInt32) :
    (ledTurn sysTickCnt leds i).Due j since sysTickCnt ↔
      leds.Due j since sysTickCnt := by
  rw [Leds.Due, Leds.period, ledTurn_device, ledTurn_output_other different,
    Leds.Due, Leds.period]

theorem ledTask_output_ne (i : Fin 2) :
    (ledTask leds sysTickCnt).output[i] ≠ leds.output[i] ↔
      leds.Due i (leds.found sysTickCnt i) sysTickCnt := by
  rw [ledTask_eq]
  match i with
  | 0 =>
      rw [ledTurn_output_other (by decide)]
      exact ledTurn_output_ne
  | 1 =>
      have before : (ledTurn sysTickCnt leds 0).output[(1 : Fin 2)] =
          leds.output[(1 : Fin 2)] := ledTurn_output_other (by decide)
      rw [← before, ledTurn_output_ne, ledTurn_blinkTimer]
      exact due_ledTurn (by decide) _

theorem ledTask_device : (ledTask leds sysTickCnt).device = leds.device := by
  rw [ledTask_eq, ledTurn_device, ledTurn_device]

end

def otherLed : Fin 2 → Fin 2
  | 0 => 1
  | 1 => 0

theorem otherLed_ne (i : Fin 2) : otherLed i ≠ i := by
  revert i
  decide

section

variable {sysTickCnt : UInt32} {leds : Leds} {i : Fin 2}

theorem not_due_of_disabled (disabled : leds.device[i].ledBlinkEn = 0)
    (since : UInt32) : ¬ leds.Due i since sysTickCnt := by
  intro due
  exact due.1 disabled

theorem ledTurn_of_disabled (disabled : leds.device[i].ledBlinkEn = 0) :
    ledTurn sysTickCnt leds i = leds := by
  rw [ledTurn_eq, if_neg (not_due_of_disabled disabled leds.blinkTimer)]

theorem ledTask_alone
    (disabled : leds.device[otherLed i].ledBlinkEn = 0) :
    ledTask leds sysTickCnt = ledTurn sysTickCnt leds i := by
  rw [ledTask_eq]
  match i with
  | 0 =>
      apply ledTurn_of_disabled
      rw [ledTurn_device]
      exact disabled
  | 1 =>
      have first : ledTurn sysTickCnt leds 0 = leds :=
        ledTurn_of_disabled disabled
      rw [first]

end

/-- Both LEDs set to blink. -/
def blinking (leds : Leds) (timeron timeroff : Fin 2 → UInt16) : Leds :=
  ledBlink (ledBlink leds 0 (timeron 0) (timeroff 0)) 1 (timeron 1)
    (timeroff 1)

/-- One LED set to blink, and the other one not. -/
def blinkingAlone (leds : Leds) (timeron timeroff : Fin 2 → UInt16)
    (i : Fin 2) : Leds :=
  ledBlink (ledBlink leds i (timeron i) (timeroff i)) (otherLed i) 0 0

/-- At every call each LED is what it is in the run in which the other one does
not blink. -/
def BlinkIndependent (leds : Leds) (timeron timeroff : Fin 2 → UInt16)
    (ticks : List UInt32) : Prop :=
  ∀ before after, ticks = before ++ after → ∀ i : Fin 2,
    (run ledTask (blinking leds timeron timeroff) before).output[i] =
      (run ledTask (blinkingAlone leds timeron timeroff i) before).output[i]

/-- The LEDs, and for each the tick of its own last toggle. -/
structure LedWatch where
  leds : Leds
  since : Fin 2 → UInt32

def LedWatch.start (leds : Leds) : LedWatch where
  leds := leds
  since := fun _ => leds.blinkTimer

def LedWatch.task (watch : LedWatch) (sysTickCnt : UInt32) : LedWatch where
  leds := ledTask watch.leds sysTickCnt
  since := fun i =>
    if (ledTask watch.leds sysTickCnt).output[i] = watch.leds.output[i] then
      watch.since i
    else sysTickCnt

theorem LedWatch.task_since (watch : LedWatch) (sysTickCnt : UInt32)
    (i : Fin 2) :
    (watch.task sysTickCnt).since i =
      if (ledTask watch.leds sysTickCnt).output[i] = watch.leds.output[i] then
        watch.since i
      else sysTickCnt := by
  rw [LedWatch.task]

theorem LedWatch.task_leds (watch : LedWatch) (sysTickCnt : UInt32) :
    (watch.task sysTickCnt).leds = ledTask watch.leds sysTickCnt := by
  rw [LedWatch.task]

/-- The timer both LEDs share tells each of them what the time of its own last
toggle would. -/
def LedWatch.Undisturbed (watch : LedWatch) (sysTickCnt : UInt32) : Prop :=
  ∀ i, watch.leds.Due i (watch.leds.found sysTickCnt i) sysTickCnt ↔
    watch.leds.Due i (watch.since i) sysTickCnt

/-- The run with both LEDs, and the two runs with one. -/
structure LedRuns where
  joint : LedWatch
  alone : Fin 2 → Leds

def LedRuns.task (runs : LedRuns) (sysTickCnt : UInt32) : LedRuns where
  joint := runs.joint.task sysTickCnt
  alone := fun i => ledTask (runs.alone i) sysTickCnt

/-- The run with one LED is that LED of the run with both, by the time of its
own last toggle. -/
structure Follows (watch : LedWatch) (alone : Leds) (i : Fin 2) : Prop where
  device : alone.device[i] = watch.leds.device[i]
  output : alone.output[i] = watch.leds.output[i]
  since : alone.blinkTimer = watch.since i
  disabled : alone.device[otherLed i].ledBlinkEn = 0

section

variable {watch : LedWatch} {alone : Leds} {i : Fin 2} {sysTickCnt : UInt32}

theorem Follows.due_iff (follows : Follows watch alone i) (since : UInt32) :
    alone.Due i since sysTickCnt ↔ watch.leds.Due i since sysTickCnt := by
  rw [Leds.Due, Leds.period, follows.device, follows.output, Leds.Due,
    Leds.period]

theorem Follows.output_ne (follows : Follows watch alone i) :
    (ledTask alone sysTickCnt).output[i] ≠ alone.output[i] ↔
      watch.leds.Due i (watch.since i) sysTickCnt := by
  rw [ledTask_alone follows.disabled, ledTurn_output_ne, follows.due_iff,
    follows.since]

theorem bool_eq_iff_ne {before after other : Bool} :
    after = other ↔ (after ≠ before ↔ other ≠ before) := by
  revert before after other
  decide

/-- The outputs still agree after a call exactly when the LED is due by the
shared timer as it is by its own. -/
theorem Follows.output_task_iff (follows : Follows watch alone i) :
    (watch.task sysTickCnt).leds.output[i] =
        (ledTask alone sysTickCnt).output[i] ↔
      (watch.leds.Due i (watch.leds.found sysTickCnt i) sysTickCnt ↔
        watch.leds.Due i (watch.since i) sysTickCnt) := by
  have joint := @ledTask_output_ne sysTickCnt watch.leds i
  have single := @Follows.output_ne watch alone i sysTickCnt follows
  rw [follows.output] at single
  rw [← joint, ← single]
  exact bool_eq_iff_ne

theorem Follows.since_task (follows : Follows watch alone i)
    (undisturbed : watch.Undisturbed sysTickCnt) :
    (ledTask alone sysTickCnt).blinkTimer =
      (watch.task sysTickCnt).since i := by
  have agree := follows.output_task_iff.mpr (undisturbed i)
  have toggled := @Follows.output_ne watch alone i sysTickCnt follows
  rw [LedWatch.task_leds] at agree
  rw [LedWatch.task_since, agree, ← follows.output, ledTask_alone follows.disabled,
    ledTurn_blinkTimer]
  rw [← follows.due_iff, ← follows.since, ledTask_alone follows.disabled]
    at toggled
  by_cases due : alone.Due i alone.blinkTimer sysTickCnt
  · rw [if_pos due, if_neg (toggled.mpr due)]
  · rw [if_neg due, if_pos (not_not.mp (toggled.not.mpr due)), follows.since]

theorem Follows.task (follows : Follows watch alone i)
    (undisturbed : watch.Undisturbed sysTickCnt) :
    Follows (watch.task sysTickCnt) (ledTask alone sysTickCnt) i := by
  have agree := follows.output_task_iff.mpr (undisturbed i)
  constructor
  · change (ledTask alone sysTickCnt).device[i] =
      (ledTask watch.leds sysTickCnt).device[i]
    rw [ledTask_device, ledTask_device]
    exact follows.device
  · exact agree.symm
  · exact follows.since_task undisturbed
  · rw [ledTask_device]
    exact follows.disabled

end

section

variable {leds other : Leds} {i j : Fin 2} {timeron timeroff : UInt16}

theorem ledBlink_blinkTimer :
    (ledBlink leds i timeron timeroff).blinkTimer = leds.blinkTimer := by
  rw [ledBlink]
  split
  · rfl
  · rfl

theorem ledBlink_other (different : i ≠ j) :
    (ledBlink leds i timeron timeroff).device[j] = leds.device[j] ∧
      (ledBlink leds i timeron timeroff).output[j] = leds.output[j] := by
  have places : i.val ≠ j.val := Fin.val_ne_of_ne different
  rw [ledBlink]
  split
  · exact ⟨Vector.getElem_set_ne i.isLt j.isLt places, rfl⟩
  · exact ⟨Vector.getElem_set_ne i.isLt j.isLt places,
      Vector.getElem_set_ne i.isLt j.isLt places⟩

theorem ledBlink_self (device : leds.device[i] = other.device[i])
    (output : leds.output[i] = other.output[i]) :
    (ledBlink leds i timeron timeroff).device[i] =
        (ledBlink other i timeron timeroff).device[i] ∧
      (ledBlink leds i timeron timeroff).output[i] =
        (ledBlink other i timeron timeroff).output[i] := by
  rw [ledBlink, ledBlink]
  split
  · constructor
    · exact (Vector.getElem_set_self _).trans (Vector.getElem_set_self _).symm
    · exact output
  · constructor
    · have reset := congrArg
        (fun device : LedDevice => { device with ledBlinkEn := 0 }) device
      exact (Vector.getElem_set_self _).trans
        (reset.trans (Vector.getElem_set_self _).symm)
    · exact (Vector.getElem_set_self _).trans (Vector.getElem_set_self _).symm

theorem ledBlink_disabled :
    (ledBlink leds i 0 0).device[i].ledBlinkEn = 0 := by
  have off : ¬ (0 : UInt16) ≠ 0 := not_not_intro rfl
  rw [ledBlink, if_neg off]
  exact congrArg LedDevice.ledBlinkEn (Vector.getElem_set_self _)

end

theorem blinking_at (leds : Leds) (timeron timeroff : Fin 2 → UInt16)
    (i : Fin 2) :
    (blinking leds timeron timeroff).device[i] =
        (ledBlink leds i (timeron i) (timeroff i)).device[i] ∧
      (blinking leds timeron timeroff).output[i] =
        (ledBlink leds i (timeron i) (timeroff i)).output[i] := by
  match i with
  | 0 => exact ledBlink_other (by decide)
  | 1 =>
      obtain ⟨device, output⟩ := @ledBlink_other leds 0 1 (timeron 0)
        (timeroff 0) (by decide)
      exact ledBlink_self device output

theorem follows_start (leds : Leds) (timeron timeroff : Fin 2 → UInt16)
    (i : Fin 2) :
    Follows (LedWatch.start (blinking leds timeron timeroff))
      (blinkingAlone leds timeron timeroff i) i := by
  obtain ⟨device, output⟩ := @ledBlink_other
    (ledBlink leds i (timeron i) (timeroff i)) _ _ 0 0 (otherLed_ne i)
  obtain ⟨jointDevice, jointOutput⟩ := blinking_at leds timeron timeroff i
  constructor
  · exact device.trans jointDevice.symm
  · exact output.trans jointOutput.symm
  · change (blinkingAlone leds timeron timeroff i).blinkTimer =
      (blinking leds timeron timeroff).blinkTimer
    rw [blinkingAlone, blinking, ledBlink_blinkTimer, ledBlink_blinkTimer,
      ledBlink_blinkTimer, ledBlink_blinkTimer]
  · exact ledBlink_disabled

/-- Both runs side by side, as long as nothing has disturbed them. -/
def LedRuns.Coupled (runs : LedRuns) : Prop :=
  ∀ i, Follows runs.joint (runs.alone i) i

/-- Each LED shows the same in the run with both and in the run by itself. -/
def LedRuns.Agree (runs : LedRuns) : Prop :=
  ∀ i : Fin 2, runs.joint.leds.output[i] = (runs.alone i).output[i]

section

variable {runs : LedRuns} {sysTickCnt : UInt32}

theorem LedRuns.task_joint :
    (runs.task sysTickCnt).joint = runs.joint.task sysTickCnt := rfl

theorem LedRuns.task_alone (i : Fin 2) :
    (runs.task sysTickCnt).alone i = ledTask (runs.alone i) sysTickCnt := by
  rw [LedRuns.task]

theorem LedRuns.Coupled.agree (coupled : runs.Coupled) : runs.Agree :=
  fun i => (coupled i).output.symm

theorem LedRuns.Coupled.task (coupled : runs.Coupled)
    (undisturbed : runs.joint.Undisturbed sysTickCnt) :
    (runs.task sysTickCnt).Coupled := by
  intro i
  rw [LedRuns.task_joint, LedRuns.task_alone]
  exact (coupled i).task undisturbed

theorem LedRuns.Coupled.undisturbed (coupled : runs.Coupled)
    (agree : (runs.task sysTickCnt).Agree) :
    runs.joint.Undisturbed sysTickCnt := by
  intro i
  have same := agree i
  rw [LedRuns.task_joint, LedRuns.task_alone] at same
  exact (coupled i).output_task_iff.mp same

end

section

variable (runs : LedRuns) (ticks : List UInt32) (i : Fin 2)

theorem run_joint :
    (run LedRuns.task runs ticks).joint = run LedWatch.task runs.joint ticks :=
  run_observe LedRuns.joint (fun _ _ => rfl) runs ticks

theorem run_watch_leds (watch : LedWatch) :
    (run LedWatch.task watch ticks).leds = run ledTask watch.leds ticks :=
  run_observe LedWatch.leds LedWatch.task_leds watch ticks

theorem run_alone :
    (run LedRuns.task runs ticks).alone i =
      run ledTask (runs.alone i) ticks := by
  apply run_observe fun runs : LedRuns => runs.alone i
  intro runs sysTickCnt
  exact runs.task_alone i

end

/-- The LEDs blink independently exactly when the shared timer never tells an
LED anything else than the time of its own last toggle would. -/
theorem blinkIndependent_iff (leds : Leds) (timeron timeroff : Fin 2 → UInt16)
    (ticks : List UInt32) :
    BlinkIndependent leds timeron timeroff ticks ↔
      Admitted LedWatch.task LedWatch.Undisturbed
        (LedWatch.start (blinking leds timeron timeroff)) ticks := by
  let start : LedRuns :=
    { joint := LedWatch.start (blinking leds timeron timeroff)
      alone := blinkingAlone leds timeron timeroff }
  have both : Always LedRuns.task LedRuns.Agree start ticks ↔
      Admitted LedRuns.task
        (fun runs sysTickCnt => runs.joint.Undisturbed sysTickCnt) start
        ticks := by
    have coupled : start.Coupled := follows_start leds timeron timeroff
    apply always_iff_admitted coupled
    · exact fun _ coupled => coupled.agree
    · exact fun _ _ coupled undisturbed => coupled.task undisturbed
    · exact fun _ _ coupled disturbed agree =>
        disturbed (coupled.undisturbed agree)
  simp only [Always, LedRuns.Agree, Admitted, run_joint, run_watch_leds,
    run_alone, LedWatch.start, start] at both
  simp only [BlinkIndependent, Admitted, LedWatch.start]
  exact both

/-- Two LEDs set alike: the first toggles after eleven ticks, and the second
never finds its own time passed. -/
theorem ledBlink_starved :
    ¬ BlinkIndependent Leds.start (fun _ => 10) (fun _ => 10) [11] := by
  intro independent
  have second := independent [11] [] rfl 1
  exact absurd second (by decide)

end Tp79Boot
