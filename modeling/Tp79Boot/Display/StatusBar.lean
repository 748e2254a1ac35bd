import Tp79Boot.Display.StatusIcons

/-!
# Runs of the status bar

Over any run of refreshes, and of drawings that keep off the icons, the display
shows what it would show if each refresh drew its icon again.  A battery whose
voltage ripples about one bound by less than 50 is drawn at most twice.
-/

namespace Tp79Boot

open EventRun Redraw

/-- The static variables of the three functions. -/
structure IconKeys where
  signal : UInt8
  bat : UInt16
  gps : UInt8

namespace IconKeys

def start : IconKeys :=
  { signal := 99
    bat := 99
    gps := 55 }

def key (keys : IconKeys) : (icon : StatusIcon) → icon.Key
  | .signal => keys.signal
  | .bat => keys.bat
  | .gps => keys.gps

end IconKeys

/-- A drawing that keeps off the icons. -/
structure OffIcons where
  steps : List LcdStep
  stamp : Nat → Nat → Option UInt16
  lays : ∀ lcd : Lcd, (run lcdStep lcd steps).panel.cells =
    lay stamp lcd.panel.cells
  off : ∀ icon key, NoOverlap (StatusIcon.stamp icon key) stamp

theorem StatusIcon.columns_aside (icon : StatusIcon) :
    icon.columns.2 ≤ 23 ∨ 120 ≤ icon.columns.1 := by
  cases icon with
  | signal => exact Or.inl (Nat.le_refl 23)
  | bat => exact Or.inr (by decide)
  | gps => exact Or.inr (Nat.le_refl 120)

theorem StatusIcon.noOverlap_rectangle {x y width height : Nat}
    (place : 16 ≤ y ∨ 23 ≤ x ∧ x + width ≤ 120)
    (pixel : Nat → Nat → UInt16) (icon : StatusIcon) (key : icon.Key) :
    NoOverlap (icon.stamp key) (rectangleStamp x y width height pixel) := by
  intro column row
  by_contra both
  rw [not_or] at both
  have inside := rectangleStamp_inside both.2
  have onIcon := stamp_place both.1
  have aside := icon.columns_aside
  unfold WindowedPanel.Inside at inside
  omega

/-- A picture below the bar, or between its icons. -/
def OffIcons.ofPaints {steps : List LcdStep} {x y width height : Nat}
    {pixel : Nat → Nat → UInt16} (paints : Paints steps x y width height pixel)
    (place : 16 ≤ y ∨ 23 ≤ x ∧ x + width ≤ 120) : OffIcons where
  steps := steps
  stamp := rectangleStamp x y width height pixel
  lays := paints.lay
  off := StatusIcon.noOverlap_rectangle place pixel

/-- The calls of `ui.c` that draw. -/
inductive UiCall where
  | signal (csq : UInt8)
  | bat (adcValue adcAgain : UInt16)
  | gps (positionState : UInt8)
  | other (drawing : OffIcons)

namespace UiCall

def icon : UiCall → Option StatusIcon
  | .signal _ => some .signal
  | .bat _ _ => some .bat
  | .gps _ => some .gps
  | .other _ => none

/-- What the call makes of the keys and of a picture. -/
def event : UiCall → Event Picture StatusIcon.Key
  | .signal csq => .refresh .signal fun _ => csq
  | .bat adcValue adcAgain =>
      .refresh .bat fun oldLevel => (uiDispIcanBat adcValue adcAgain oldLevel).1
  | .gps positionState => .refresh .gps fun _ => positionState
  | .other drawing => .elsewhere (lay drawing.stamp)

end UiCall

theorem uiDispIcanBat_eq (adcValue adcAgain oldLevel : UInt16) :
    uiDispIcanBat adcValue adcAgain oldLevel =
      if (uiDispIcanBat adcValue adcAgain oldLevel).1 = oldLevel then
        (oldLevel, [])
      else
        ((uiDispIcanBat adcValue adcAgain oldLevel).1,
          batSteps (uiDispIcanBat adcValue adcAgain oldLevel).1) := by
  unfold uiDispIcanBat
  by_cases same : oldLevel = icanBatLevel adcValue
  · simp [same]
  · simp only [ne_eq, same, not_false_eq_true, if_true]
    split
    · simp
    · simp [Ne.symm same]

structure StatusBar where
  keys : IconKeys
  lcd : Lcd

namespace StatusBar

def step (bar : StatusBar) : UiCall → StatusBar
  | .signal csq =>
      let drawn := uiDispIcanSignal csq bar.keys.signal
      { keys := { bar.keys with signal := drawn.1 }
        lcd := run lcdStep bar.lcd drawn.2 }
  | .bat adcValue adcAgain =>
      let drawn := uiDispIcanBat adcValue adcAgain bar.keys.bat
      { keys := { bar.keys with bat := drawn.1 }
        lcd := run lcdStep bar.lcd drawn.2 }
  | .gps positionState =>
      let drawn := uiDispIcanGps positionState bar.keys.gps
      { keys := { bar.keys with gps := drawn.1 }
        lcd := run lcdStep bar.lcd drawn.2 }
  | .other drawing =>
      { bar with lcd := run lcdStep bar.lcd drawing.steps }

/-- Each refresh draws its icon, whether or not its value has changed. -/
def redraw (bar : StatusBar) : UiCall → StatusBar
  | .signal csq =>
      { keys := { bar.keys with signal := csq }
        lcd := run lcdStep bar.lcd (signalSteps csq) }
  | .bat adcValue adcAgain =>
      let level := (uiDispIcanBat adcValue adcAgain bar.keys.bat).1
      { keys := { bar.keys with bat := level }
        lcd := run lcdStep bar.lcd (batSteps level) }
  | .gps positionState =>
      { keys := { bar.keys with gps := positionState }
        lcd := run lcdStep bar.lcd (gpsSteps positionState) }
  | .other drawing =>
      { bar with lcd := run lcdStep bar.lcd drawing.steps }

/-- The icons as the parts of a canvas. -/
def icons : Parts StatusIcon Picture StatusIcon.Key :=
  Parts.ofStamps StatusIcon.stamp StatusIcon.noOverlap

def observe (bar : StatusBar) : Redraw.State Picture StatusIcon.Key where
  keys := bar.keys.key
  canvas := bar.lcd.panel.cells

theorem update_key (keys : IconKeys) :
    (∀ csq, Function.update keys.key .signal csq =
      { keys with signal := csq }.key) ∧
    (∀ level, Function.update keys.key .bat level =
      { keys with bat := level }.key) ∧
    ∀ state, Function.update keys.key .gps state =
      { keys with gps := state }.key := by
  refine ⟨?_, ?_, ?_⟩ <;> intro key <;> funext icon <;> cases icon <;> rfl

theorem observe_redraw (bar : StatusBar) (call : UiCall) :
    observe (bar.redraw call) =
      plainStep icons (observe bar) call.event := by
  obtain ⟨signal, bat, gps⟩ := update_key bar.keys
  cases call with
  | signal csq =>
      have drawn := StatusIcon.run_steps .signal csq bar.lcd
      rw [StatusIcon.steps] at drawn
      rw [observe, redraw, drawn, ← signal csq]
      rfl
  | bat adcValue adcAgain =>
      have drawn := StatusIcon.run_steps .bat
        (uiDispIcanBat adcValue adcAgain bar.keys.bat).1 bar.lcd
      rw [StatusIcon.steps] at drawn
      rw [observe, redraw, drawn, ← bat _]
      rfl
  | gps positionState =>
      have drawn := StatusIcon.run_steps .gps positionState bar.lcd
      rw [StatusIcon.steps] at drawn
      rw [observe, redraw, drawn, ← gps positionState]
      rfl
  | other drawing =>
      exact congrArg (Redraw.State.mk bar.keys.key) (drawing.lays bar.lcd)

theorem step_signal (bar : StatusBar) (csq : UInt8) :
    bar.step (.signal csq) =
      if csq = bar.keys.signal then bar else bar.redraw (.signal csq) := by
  by_cases same : csq = bar.keys.signal
  · simp [step, uiDispIcanSignal, same]
  · simp [step, redraw, uiDispIcanSignal, same, Ne.symm same]

theorem step_bat (bar : StatusBar) (adcValue adcAgain : UInt16) :
    bar.step (.bat adcValue adcAgain) =
      if (uiDispIcanBat adcValue adcAgain bar.keys.bat).1 = bar.keys.bat then
        bar
      else bar.redraw (.bat adcValue adcAgain) := by
  have drawn := uiDispIcanBat_eq adcValue adcAgain bar.keys.bat
  by_cases same : (uiDispIcanBat adcValue adcAgain bar.keys.bat).1 =
      bar.keys.bat
  · rw [if_pos same] at drawn
    rw [if_pos same, step, drawn]
    rfl
  · rw [if_neg same] at drawn
    rw [if_neg same, step, redraw, drawn]

theorem step_gps (bar : StatusBar) (positionState : UInt8) :
    bar.step (.gps positionState) =
      if positionState = bar.keys.gps then bar
      else bar.redraw (.gps positionState) := by
  by_cases same : positionState = bar.keys.gps
  · simp [step, uiDispIcanGps, same]
  · simp [step, redraw, uiDispIcanGps, same, Ne.symm same]

theorem observe_step (bar : StatusBar) (call : UiCall) :
    observe (bar.step call) =
      thriftyStep icons (observe bar) call.event := by
  have redrawn := observe_redraw bar call
  cases call with
  | signal csq =>
      rw [step_signal, apply_ite observe, redrawn]
      rfl
  | bat adcValue adcAgain =>
      rw [step_bat, apply_ite observe, redrawn]
      rfl
  | gps positionState =>
      rw [step_gps, apply_ite observe, redrawn]
      rfl
  | other drawing => exact redrawn

theorem run_step_observe (bar : StatusBar) (calls : List UiCall) :
    observe (run step bar calls) =
      run (thriftyStep icons) (observe bar) (calls.map UiCall.event) := by
  have followed : observe (run step bar calls) =
      run (fun state (call : UiCall) => thriftyStep icons state call.event)
        (observe bar) calls :=
    run_observe observe observe_step bar calls
  rw [followed, run, run, List.foldl_map]

theorem run_redraw_observe (bar : StatusBar) (calls : List UiCall) :
    observe (run redraw bar calls) =
      run (plainStep icons) (observe bar) (calls.map UiCall.event) := by
  have followed : observe (run redraw bar calls) =
      run (fun state (call : UiCall) => plainStep icons state call.event)
        (observe bar) calls :=
    run_observe observe observe_redraw bar calls
  rw [followed, run, run, List.foldl_map]

/-- The display and the static variables as they are at the start. -/
def powered (lcd : Lcd) : StatusBar :=
  { keys := IconKeys.start
    lcd := lcd }

theorem event_apart (call : UiCall) : call.event.Apart icons := by
  cases call with
  | signal csq => trivial
  | bat adcValue adcAgain => trivial
  | gps positionState => trivial
  | other drawing =>
      intro icon key picture
      exact lay_comm (drawing.off icon key) picture

theorem event_part (call : UiCall) : call.event.part = call.icon := by
  cases call <;> rfl

end StatusBar

theorem icanBatLevel_le (adcValue : UInt16) :
    (icanBatLevel adcValue).toNat ≤ 13 := by
  have range : icanBatLevelValue.findIdx (fun value => adcValue.toNat < value) ≤
      13 := List.findIdx_le_length
  have small : icanBatLevelValue.findIdx (fun value => adcValue.toNat < value) <
      65536 := by omega
  rw [icanBatLevel, UInt16.toNat_ofNat_of_lt' small]
  exact range

/-- The level shown is the measured one, or the one below it where the second
reading is less than 50 above the bound between the two. -/
theorem uiDispIcanBat_level (adcValue adcAgain oldLevel : UInt16) :
    (uiDispIcanBat adcValue adcAgain oldLevel).1 = icanBatLevel adcValue ∨
      (uiDispIcanBat adcValue adcAgain oldLevel).1 = oldLevel ∧
        (icanBatLevel adcValue).toNat = oldLevel.toNat + 1 ∧
          (adcAgain.toNat : Int) <
            icanBatLevelValue.getD oldLevel.toNat 0 + 50 := by
  unfold uiDispIcanBat
  by_cases same : oldLevel = icanBatLevel adcValue
  · simp [same]
  · simp only [ne_eq, same, not_false_eq_true, if_true]
    split
    · next kept =>
      right
      exact ⟨rfl, kept.1.2, by omega⟩
    · left
      rfl

theorem StatusBar.first_bat (adcValue adcAgain : UInt16) :
    (uiDispIcanBat adcValue adcAgain 99).1 ≠ 99 := by
  intro same
  have range := icanBatLevel_le adcValue
  rcases uiDispIcanBat_level adcValue adcAgain 99 with level | ⟨_, above, _⟩
  · rw [← level, same] at range
    exact absurd range (by decide)
  · rw [above] at range
    exact absurd range (by decide)

theorem IconKeys.key_injective {keys other : IconKeys}
    (same : keys.key = other.key) : keys = other := by
  obtain ⟨signal, bat, gps⟩ := keys
  obtain ⟨otherSignal, otherBat, otherGps⟩ := other
  have signals : signal = otherSignal := congrFun same .signal
  have bats : bat = otherBat := congrFun same .bat
  have states : gps = otherGps := congrFun same .gps
  rw [signals, bats, states]

section

variable {calls : List UiCall}

theorem StatusBar.changesFirst
    (signal : ∀ csq, calls.find? (fun call => call.icon = some .signal) =
      some (.signal csq) → csq ≠ 99)
    (gps : ∀ state, calls.find? (fun call => call.icon = some .gps) =
      some (.gps state) → state ≠ 55) (icon : StatusIcon) :
    ChangesFirst IconKeys.start.key icon (calls.map UiCall.event) := by
  intro event first
  have parts : ((fun event : Event Picture StatusIcon.Key =>
      decide (event.part = some icon)) ∘ UiCall.event) =
        fun call => decide (call.icon = some icon) := by
    funext call
    simp only [Function.comp_apply, event_part]
  rw [List.find?_map, parts] at first
  obtain ⟨call, found, rfl⟩ := Option.map_eq_some_iff.mp first
  have own : call.icon = some icon := by
    simpa using List.find?_some found
  cases call with
  | signal csq =>
      obtain rfl := Option.some.inj own
      exact signal csq found
  | bat adcValue adcAgain =>
      exact first_bat adcValue adcAgain
  | gps state =>
      obtain rfl := Option.some.inj own
      exact gps state found
  | other drawing => trivial

/-- Where neither the first signal nor the first position state is the value
that the static variable starts with, the display shows after every run what it
would show if each refresh had drawn its icon, and each icon that has been
refreshed stands for its value. -/
theorem statusBar_redrawn (lcd : Lcd)
    (signal : ∀ csq, calls.find? (fun call => call.icon = some .signal) =
      some (.signal csq) → csq ≠ 99)
    (gps : ∀ state, calls.find? (fun call => call.icon = some .gps) =
      some (.gps state) → state ≠ 55) :
    (run StatusBar.step (StatusBar.powered lcd) calls).keys =
        (run StatusBar.redraw (StatusBar.powered lcd) calls).keys ∧
      (run StatusBar.step (StatusBar.powered lcd) calls).lcd.panel.cells =
        (run StatusBar.redraw (StatusBar.powered lcd)
          calls).lcd.panel.cells ∧
      ∀ icon, (∃ call ∈ calls, call.icon = some icon) →
        ∀ column row color,
          StatusIcon.stamp icon
              ((run StatusBar.step (StatusBar.powered lcd) calls).keys.key
                icon) column row = some color →
            (run StatusBar.step (StatusBar.powered lcd)
              calls).lcd.panel.cells column row = color := by
  have apart : ∀ event ∈ calls.map UiCall.event,
      event.Apart StatusBar.icons := by
    intro event member
    obtain ⟨call, _, rfl⟩ := List.mem_map.mp member
    exact StatusBar.event_apart call
  have changes := StatusBar.changesFirst signal gps
  have same : StatusBar.observe
        (run StatusBar.step (StatusBar.powered lcd) calls) =
      StatusBar.observe
        (run StatusBar.redraw (StatusBar.powered lcd) calls) := by
    rw [StatusBar.run_step_observe, StatusBar.run_redraw_observe]
    exact run_thrifty_eq_plain apart fun icon => Or.inr (changes icon)
  have keys := IconKeys.key_injective (congrArg Redraw.State.keys same)
  have cells := congrArg Redraw.State.canvas same
  refine ⟨keys, cells, ?_⟩
  rintro icon ⟨call, member, own⟩ column row color shown
  have refreshed : ∃ next, Event.refresh icon next ∈
      calls.map UiCall.event := by
    have mapped : call.event ∈ calls.map UiCall.event :=
      List.mem_map.mpr ⟨call, member, rfl⟩
    have part := (StatusBar.event_part call).trans own
    cases event : call.event with
    | refresh other next =>
        rw [event] at mapped part
        obtain rfl := Option.some.inj part
        exact ⟨next, mapped⟩
    | elsewhere effect =>
        rw [event] at part
        cases part
  have settled : Settled StatusBar.icons (StatusBar.observe
      (run StatusBar.step (StatusBar.powered lcd) calls)) icon := by
    rw [same, StatusBar.run_redraw_observe]
    exact run_settled apart refreshed
  have pixel := congrFun (congrFun settled column) row
  exact pixel.symm.trans (congrArg (Option.getD · _) shown)

/-- `lcd_color_clr(0,35,COLOR_WIGHT,160,78)` of the main menu. -/
def mainMenuClear : OffIcons :=
  OffIcons.ofPaints (nv3021ColorClr_paints 0 35 colorWight 160 78)
    (Or.inl (by decide))

theorem statusBar_redrawn_mainMenu :
    (run StatusBar.step (StatusBar.powered Lcd.blank)
        [.signal 20, .bat 3900 3900, .gps 0x31, .other mainMenuClear,
          .signal 20, .bat 3890 3890]).lcd.panel.cells 9 10 = colorWight :=
  (statusBar_redrawn Lcd.blank
    (by intro csq found; cases found; decide)
    (by intro state found; cases found; decide)).2.2 .signal
      ⟨.signal 20, by simp, rfl⟩ 9 10 colorWight (by decide)

end

/-- In an increasing list the first bound above a value comes no later than
another bound exactly when that one is above the value, too. -/
theorem findIdx_le_iff {bounds : List Nat}
    (increasing : bounds.Pairwise (· < ·)) (value : Nat) {place : Nat}
    (inside : place < bounds.length) :
    bounds.findIdx (fun bound => decide (value < bound)) ≤ place ↔
      value < bounds[place] := by
  rw [← Nat.not_lt, List.lt_findIdx_iff]
  constructor
  · intro found
    by_contra above
    refine found ⟨inside, ?_⟩
    intro earlier before
    have ordered : bounds[earlier] ≤ bounds[place] := by
      rcases Nat.lt_or_eq_of_le before with less | rfl
      · exact Nat.le_of_lt
          (List.pairwise_iff_getElem.mp increasing _ _ _ _ less)
      · exact Nat.le_refl _
    exact decide_eq_false (by omega)
  · rintro below ⟨_, all⟩
    exact of_decide_eq_false (all place (Nat.le_refl place)) below

theorem icanBatLevel_le_iff (adcValue : UInt16) {level : Nat}
    (inside : level < icanBatLevelValue.length) :
    (icanBatLevel adcValue).toNat ≤ level ↔
      adcValue.toNat < icanBatLevelValue[level] := by
  have small : icanBatLevelValue.findIdx (fun value => adcValue.toNat < value) <
      65536 := Nat.lt_of_le_of_lt List.findIdx_le_length (by decide)
  rw [icanBatLevel, UInt16.toNat_ofNat_of_lt' small]
  exact findIdx_le_iff (by decide) adcValue.toNat inside

/-- How often a run of readings draws the battery. -/
def batDraws : UInt16 → List (UInt16 × UInt16) → Nat
  | _, [] => 0
  | oldLevel, (adcValue, adcAgain) :: readings =>
      (if (uiDispIcanBat adcValue adcAgain oldLevel).2 = [] then 0 else 1) +
        batDraws (uiDispIcanBat adcValue adcAgain oldLevel).1 readings

/-- Both readings are less than 50 above the bound of a level, and the first
one is not below that of the level before it. -/
def Ripples (level : Nat) (reading : UInt16 × UInt16) : Prop :=
  (∀ before, before + 1 = level →
      icanBatLevelValue.getD before 0 ≤ reading.1.toNat) ∧
    reading.1.toNat < icanBatLevelValue.getD level 0 + 50 ∧
    reading.2.toNat < icanBatLevelValue.getD level 0 + 50

instance (level : Nat) (reading : UInt16 × UInt16) :
    Decidable (Ripples level reading) :=
  decidable_of_iff
    ((level = 0 ∨
        icanBatLevelValue.getD (level - 1) 0 ≤ reading.1.toNat) ∧
      reading.1.toNat < icanBatLevelValue.getD level 0 + 50 ∧
      reading.2.toNat < icanBatLevelValue.getD level 0 + 50)
    (and_congr_left' (by
      constructor
      · rintro low before rfl
        exact low.resolve_left (Nat.succ_ne_zero before)
      · intro low
        cases level with
        | zero => exact Or.inl rfl
        | succ before => exact Or.inr (low before rfl)))

section

variable {level : Nat} {adcValue adcAgain oldLevel : UInt16}

theorem bounds_apart (next : level + 1 < icanBatLevelValue.length) :
    icanBatLevelValue.getD level 0 + 50 ≤
      icanBatLevelValue.getD (level + 1) 0 := by
  have all : ∀ level : Fin 12, icanBatLevelValue.getD level.val 0 + 50 ≤
      icanBatLevelValue.getD (level.val + 1) 0 := by decide
  exact all ⟨level, Nat.lt_of_succ_lt_succ next⟩

theorem Ripples.measured (ripples : Ripples level (adcValue, adcAgain))
    (inside : level < icanBatLevelValue.length) :
    (icanBatLevel adcValue).toNat = level ∨
      (icanBatLevel adcValue).toNat = level + 1 := by
  obtain ⟨low, high, _⟩ := ripples
  have lower : level ≤ (icanBatLevel adcValue).toNat := by
    cases level with
    | zero => exact Nat.zero_le _
    | succ before =>
        have bound := low before rfl
        have earlier : before < icanBatLevelValue.length :=
          Nat.lt_of_succ_lt inside
        rw [List.getD_eq_getElem _ _ earlier] at bound
        have above := (icanBatLevel_le_iff adcValue earlier).not.mpr
          (Nat.not_lt_of_le bound)
        exact Nat.lt_of_not_le above
  have upper : (icanBatLevel adcValue).toNat ≤ level + 1 := by
    rcases Nat.lt_or_ge (level + 1) icanBatLevelValue.length with next | last
    · have apart := bounds_apart next
      rw [List.getD_eq_getElem _ _ next] at apart
      exact (icanBatLevel_le_iff adcValue next).mpr
        (Nat.lt_of_lt_of_le high apart)
    · exact Nat.le_trans (icanBatLevel_le adcValue) last
  omega

/-- While the voltage ripples, the level shown is kept, or it becomes one of
the two next to the bound; the lower of the two is kept. -/
theorem Ripples.next (ripples : Ripples level (adcValue, adcAgain))
    (inside : level < icanBatLevelValue.length) :
    ((uiDispIcanBat adcValue adcAgain oldLevel).1 = oldLevel ∨
      (uiDispIcanBat adcValue adcAgain oldLevel).1.toNat = level ∨
      (uiDispIcanBat adcValue adcAgain oldLevel).1.toNat = level + 1) ∧
    (oldLevel.toNat = level →
      (uiDispIcanBat adcValue adcAgain oldLevel).1 = oldLevel) := by
  have measured := ripples.measured inside
  constructor
  · rcases uiDispIcanBat_level adcValue adcAgain oldLevel with shown | kept
    · rw [shown]
      exact Or.inr measured
    · exact Or.inl kept.1
  · intro lowest
    rcases measured with same | above
    · have equal : oldLevel = icanBatLevel adcValue :=
        UInt16.toNat_inj.mp (lowest.trans same.symm)
      simp [uiDispIcanBat, equal]
    · have different : oldLevel ≠ icanBatLevel adcValue := by
        rintro rfl
        omega
      have higher : icanBatLevel adcValue > oldLevel := by
        rw [gt_iff_lt, UInt16.lt_iff_toNat_lt]
        omega
      have second := ripples.2.2
      have suppressed : (icanBatLevel adcValue > oldLevel ∧
            (icanBatLevel adcValue).toNat = oldLevel.toNat + 1) ∧
          (adcAgain.toNat : Int) -
            icanBatLevelValue.getD oldLevel.toNat 0 < 50 := by
        refine ⟨⟨higher, by omega⟩, ?_⟩
        rw [lowest]
        dsimp only at second
        omega
      rw [uiDispIcanBat, if_pos different, if_pos suppressed]

theorem uiDispIcanBat_kept
    (kept : (uiDispIcanBat adcValue adcAgain oldLevel).1 = oldLevel) :
    (uiDispIcanBat adcValue adcAgain oldLevel).2 = [] := by
  rw [uiDispIcanBat_eq, if_pos kept]

variable {readings : List (UInt16 × UInt16)}

theorem batDraws_cons_kept
    (kept : (uiDispIcanBat adcValue adcAgain oldLevel).1 = oldLevel) :
    batDraws oldLevel ((adcValue, adcAgain) :: readings) =
      batDraws oldLevel readings := by
  rw [batDraws, if_pos (uiDispIcanBat_kept kept), kept, Nat.zero_add]

theorem batDraws_cons_le :
    batDraws oldLevel ((adcValue, adcAgain) :: readings) ≤
      1 + batDraws (uiDispIcanBat adcValue adcAgain oldLevel).1 readings := by
  rw [batDraws]
  split <;> omega

theorem batDraws_lower (inside : level < icanBatLevelValue.length)
    (ripples : ∀ reading ∈ readings, Ripples level reading)
    (lower : oldLevel.toNat = level) : batDraws oldLevel readings = 0 := by
  induction readings with
  | nil => rfl
  | cons reading readings induction =>
      have here := @Ripples.next level reading.1 reading.2 oldLevel
        (ripples reading List.mem_cons_self) inside
      rw [batDraws_cons_kept (here.2 lower)]
      exact induction fun other member =>
        ripples other (List.mem_cons_of_mem reading member)

theorem batDraws_upper (inside : level < icanBatLevelValue.length)
    (ripples : ∀ reading ∈ readings, Ripples level reading)
    (upper : oldLevel.toNat = level + 1) : batDraws oldLevel readings ≤ 1 := by
  induction readings with
  | nil => exact Nat.zero_le 1
  | cons reading readings induction =>
      have later (other : UInt16 × UInt16) (member : other ∈ readings) :=
        ripples other (List.mem_cons_of_mem reading member)
      have here := @Ripples.next level reading.1 reading.2 oldLevel
        (ripples reading List.mem_cons_self) inside
      have kept (same : (uiDispIcanBat reading.1 reading.2 oldLevel).1 =
          oldLevel) : batDraws oldLevel (reading :: readings) ≤ 1 := by
        rw [batDraws_cons_kept same]
        exact induction later
      rcases here.1 with same | lower | same
      · exact kept same
      · have none := batDraws_lower inside later lower
        have one := @batDraws_cons_le reading.1 reading.2 oldLevel readings
        rwa [none] at one
      · exact kept (UInt16.toNat_inj.mp (same.trans upper.symm))

/-- Over any run in which the voltage ripples about one bound the battery is
drawn at most twice, whatever level is shown at the start. -/
theorem bat_ripple (inside : level < icanBatLevelValue.length)
    (ripples : ∀ reading ∈ readings, Ripples level reading) :
    batDraws oldLevel readings ≤ 2 := by
  induction readings with
  | nil => exact Nat.zero_le 2
  | cons reading readings induction =>
      have later (other : UInt16 × UInt16) (member : other ∈ readings) :=
        ripples other (List.mem_cons_of_mem reading member)
      have here := @Ripples.next level reading.1 reading.2 oldLevel
        (ripples reading List.mem_cons_self) inside
      have one := @batDraws_cons_le reading.1 reading.2 oldLevel readings
      rcases here.1 with same | lower | upper
      · rw [batDraws_cons_kept same]
        exact induction later
      · have none := batDraws_lower inside later lower
        exact Nat.le_trans one (by omega)
      · have rest := batDraws_upper inside later upper
        exact Nat.le_trans one (by omega)

theorem bat_ripple_aroundEmpty :
    batDraws 99 [(3065, 3065), (3010, 3010), (3069, 3068), (3025, 3060)] ≤ 2 := by
  apply @bat_ripple 1 99 _ (by decide)
  intro reading member
  have listed : reading = (3065, 3065) ∨ reading = (3010, 3010) ∨
      reading = (3069, 3068) ∨ reading = (3025, 3060) := by simpa using member
  rcases listed with rfl | rfl | rfl | rfl
  · decide
  · decide
  · decide
  · decide

end

end Tp79Boot
