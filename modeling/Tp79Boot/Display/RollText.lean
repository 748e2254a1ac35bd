import Mathlib.Data.List.TakeWhile
import Tp79Boot.Display.Drawing
import Tp79Boot.Lib.CyclicWindow

/-!
# Texts that roll

`ui.c` has three places for texts that are too long for the screen.  A text
that is put there is shown through a window that moves on by two bytes at each
turn; the turns of all three places share one buffer of blanks, which each text
that rolls cuts to its own width.
-/

namespace Tp79Boot

open EventRun

/-- `buffer[place] = 0`, inside the buffer. -/
def zeroAt (buffer : List UInt8) (place : Nat) : Option (List UInt8) :=
  if place < buffer.length then some (buffer.set place 0) else none

/-- The string at `buffer + place`, where it ends inside the buffer. -/
def stringFrom (buffer : List UInt8) (place : Nat) : Option (List UInt8) :=
  if 0 ∈ buffer.drop place then some (cString (buffer.drop place)) else none

/-- The string is cut at a place before its end. -/
def cutAt (buffer : List UInt8) (place length : Nat) : Option (List UInt8) :=
  if place < length then zeroAt buffer place else some buffer

/-- The arguments of `ui_disp_chinese_roll`. -/
structure RollText where
  textType : UInt8
  x : UInt8
  y : UInt8
  gb2312Dat : List UInt8
  blackColor : UInt16
  textColor : UInt16
  textlen : UInt8
  rollSpeed : UInt32
deriving DecidableEq

/-- `ui_text_roll_t`. -/
structure TextRoll where
  dispText : List UInt8
  speed : UInt32
  dispTimer : UInt32
  textlen : UInt8
  texttype : UInt8
  rollCnt : UInt8
  x : UInt8
  y : UInt8
  textColor : UInt16
  blackColor : UInt16
deriving DecidableEq

namespace TextRoll

/-- All bytes of the structure are zero. -/
def cleared : TextRoll where
  dispText := List.replicate 64 0
  speed := 0
  dispTimer := 0
  textlen := 0
  texttype := 0
  rollCnt := 0
  x := 0
  y := 0
  textColor := 0
  blackColor := 0

/-- The timer and the count are those that are there. -/
def fill (text : RollText) (roll : TextRoll) : TextRoll :=
  { roll with
    speed := text.rollSpeed
    textlen := text.textlen
    textColor := text.textColor
    blackColor := text.blackColor
    x := text.x
    y := text.y
    texttype := text.textType
    dispText := writeAt roll.dispText 0
      (text.gb2312Dat.take (strlen text.gb2312Dat % 64)) }

end TextRoll

/-- The first free place takes the text; without one nothing happens. -/
def uiDispChineseRoll (text : RollText) : List TextRoll → List TextRoll
  | [] => []
  | roll :: rolls =>
      if roll.speed = 0 then roll.fill text :: rolls
      else roll :: uiDispChineseRoll text rolls

def uiDispChineseRollStop (rolls : List TextRoll) : List TextRoll :=
  rolls.map fun _ => .cleared

/-- `clear_buf` as it is at the start of the task. -/
def clearBuf : List UInt8 :=
  List.replicate 39 0x20 ++ List.replicate 25 0

/-- The text of a place whose time has come: a blank, and the window over it. -/
def rollShow (sysTickCnt : UInt32) (clear : List UInt8) (roll : TextRoll) :
    Option (TextRoll × List Drawing) := do
  let length := (← stringFrom roll.dispText 0).length
  let start := roll.rollCnt.toNat * 2
  let dispBuf ← cutAt roll.dispText (start + roll.textlen.toNat) length
  let blank ← stringFrom clear 0
  let window ← stringFrom dispBuf start
  some
    ({ roll with
        dispTimer := sysTickCnt
        rollCnt :=
          if roll.rollCnt.toNat < length / 2 then (roll.rollCnt + 1) % 32
          else 0 },
      [.china11x12 roll.x.toUInt16 roll.y.toUInt16 blank roll.blackColor
          roll.textColor,
        .china11x12 roll.x.toUInt16 roll.y.toUInt16 window roll.blackColor
          roll.textColor])

/-- One turn of the loop, with the shared buffer. -/
def rollTurn (sysTickCnt : UInt32) (clear : List UInt8) (roll : TextRoll) :
    Option (List UInt8 × TextRoll × List Drawing) :=
  if 0 < roll.speed then do
    let clear ← zeroAt clear roll.textlen.toNat
    let speed := if roll.rollCnt = 1 then roll.speed * 4 else roll.speed
    if speed < sysTickCnt - roll.dispTimer then
      let shown ← rollShow sysTickCnt clear roll
      some (clear, shown)
    else some (clear, roll, [])
  else some (clear, roll, [])

def rollTurns (sysTickCnt : UInt32) :
    List UInt8 → List TextRoll → Option (List TextRoll × List Drawing)
  | _, [] => some ([], [])
  | clear, roll :: rolls => do
      let (clear, roll, drawn) ← rollTurn sysTickCnt clear roll
      let (rolls, later) ← rollTurns sysTickCnt clear rolls
      some (roll :: rolls, drawn ++ later)

/-- `none` where the task would leave one of its buffers. -/
def uiDispChineseRollTask (sysTickCnt : UInt32) (rolls : List TextRoll) :
    Option (List TextRoll × List Drawing) :=
  rollTurns sysTickCnt clearBuf rolls

/-- The calls that reach the three places. -/
inductive RollCall where
  | start (text : RollText)
  | stop
  | task (sysTickCnt : UInt32)

/-- A run from the places as they are, and all that it draws. -/
def runRolls : List TextRoll → List RollCall →
    Option (List TextRoll × List Drawing)
  | rolls, [] => some (rolls, [])
  | rolls, .start text :: calls => runRolls (uiDispChineseRoll text rolls) calls
  | rolls, .stop :: calls => runRolls (uiDispChineseRollStop rolls) calls
  | rolls, .task sysTickCnt :: calls => do
      let (rolls, drawn) ← uiDispChineseRollTask sysTickCnt rolls
      let (rolls, later) ← runRolls rolls calls
      some (rolls, drawn ++ later)

/-- A text that rolls, how often it has been shown, and when last. -/
structure Rolling where
  text : RollText
  shown : Nat
  timer : UInt32

namespace Rolling

/-- The part of the text that is kept. -/
def kept (rolling : Rolling) : List UInt8 :=
  (cString rolling.text.gb2312Dat).take
    (strlen rolling.text.gb2312Dat % 64)

/-- How many windows there are. -/
def turns (rolling : Rolling) : Nat :=
  rolling.kept.length / 2 + 1

/-- The window that is shown next. -/
def window (rolling : Rolling) : List UInt8 :=
  (rolling.kept.drop (rolling.shown % rolling.turns * 2)).take
    rolling.text.textlen.toNat

/-- The first window is held four times as long. -/
def pause (rolling : Rolling) : UInt32 :=
  if rolling.shown % rolling.turns = 1 then rolling.text.rollSpeed * 4
  else rolling.text.rollSpeed

/-- The same text after it has been shown more often. -/
def after (rolling : Rolling) (more : Nat) : Rolling :=
  { rolling with shown := rolling.shown + more }

def drawing (rolling : Rolling) (bytes : List UInt8) : Drawing :=
  .china11x12 rolling.text.x.toUInt16 rolling.text.y.toUInt16 bytes
    rolling.text.blackColor rolling.text.textColor

end Rolling

/-- A text whose pause is over is shown, after a blank as wide as the texts so
far have left it. -/
def Rolling.tick (sysTickCnt : UInt32) (width : Nat) (rolling : Rolling) :
    Rolling × List Drawing :=
  if rolling.pause < sysTickCnt - rolling.timer then
    ({ rolling with shown := rolling.shown + 1, timer := sysTickCnt },
      [rolling.drawing (List.replicate width 0x20),
        rolling.drawing rolling.window])
  else (rolling, [])

def tickRollings (sysTickCnt : UInt32) :
    Nat → List (Option Rolling) → List (Option Rolling) × List Drawing
  | _, [] => ([], [])
  | width, none :: rollings =>
      let later := tickRollings sysTickCnt width rollings
      (none :: later.1, later.2)
  | width, some rolling :: rollings =>
      let width := min width rolling.text.textlen.toNat
      let ticked := rolling.tick sysTickCnt width
      let later := tickRollings sysTickCnt width rollings
      (some ticked.1 :: later.1, ticked.2 ++ later.2)

def placeRolling (text : RollText) :
    List (Option Rolling) → List (Option Rolling)
  | [] => []
  | none :: rollings =>
      some { text := text, shown := 0, timer := 0 } :: rollings
  | some rolling :: rollings => some rolling :: placeRolling text rollings

def runRollings : List (Option Rolling) → List RollCall →
    List (Option Rolling) × List Drawing
  | rollings, [] => (rollings, [])
  | rollings, .start text :: calls =>
      runRollings (placeRolling text rollings) calls
  | rollings, .stop :: calls => runRollings (rollings.map fun _ => none) calls
  | rollings, .task sysTickCnt :: calls =>
      let ticked := tickRollings sysTickCnt 39 rollings
      let later := runRollings ticked.1 calls
      (later.1, ticked.2 ++ later.2)

section

variable {text rest : List UInt8}

theorem cString_append (nonzero : ∀ byte ∈ text, byte ≠ 0) :
    cString (text ++ 0 :: rest) = text := by
  have whole : text.takeWhile (fun byte => byte != 0) = text :=
    List.takeWhile_eq_self_iff.mpr fun byte member =>
      bne_iff_ne.mpr (nonzero byte member)
  rw [cString, List.takeWhile_append, if_pos (by rw [whole])]
  simp

theorem stringFrom_append (nonzero : ∀ byte ∈ text, byte ≠ 0) {place : Nat}
    (inside : place ≤ text.length) :
    stringFrom (text ++ 0 :: rest) place = some (text.drop place) := by
  have dropped : (text ++ 0 :: rest).drop place =
      text.drop place ++ 0 :: rest :=
    List.drop_append_of_le_length inside
  rw [stringFrom, dropped, if_pos (by simp), cString_append]
  intro byte member
  exact nonzero byte (List.mem_of_mem_drop member)

theorem zeroAt_append {place : Nat} (inside : place < text.length) :
    zeroAt (text ++ rest) place =
      some (text.take place ++ 0 :: (text.drop (place + 1) ++ rest)) := by
  have bound : place < (text ++ rest).length := by
    rw [List.length_append]
    omega
  rw [zeroAt, if_pos bound, List.set_append_left _ _ inside,
    List.set_eq_take_append_cons_drop, if_pos inside, List.append_assoc,
    List.cons_append]

end

/-- A buffer that holds `width` blanks and then the end of the string. -/
def Blank (width : Nat) (clear : List UInt8) : Prop :=
  clear.length = 64 ∧
    ∃ rest, clear = List.replicate width 0x20 ++ 0 :: rest

theorem clearBuf_blank : Blank 39 clearBuf :=
  ⟨rfl, List.replicate 24 0, rfl⟩

theorem Blank.stringFrom {width : Nat} {clear : List UInt8}
    (blank : Blank width clear) :
    stringFrom clear 0 = some (List.replicate width 0x20) := by
  obtain ⟨_, rest, rfl⟩ := blank
  apply stringFrom_append _ (Nat.zero_le _)
  intro byte member
  rw [List.eq_of_mem_replicate member]
  decide

theorem Blank.zeroAt {width place : Nat} {clear : List UInt8}
    (blank : Blank width clear) (inside : place < 64) :
    ∃ cut, zeroAt clear place = some cut ∧ Blank (min width place) cut := by
  obtain ⟨length, rest, rfl⟩ := blank
  rw [Tp79Boot.zeroAt, if_pos (length ▸ inside)]
  refine ⟨_, rfl, by rw [List.length_set, length], ?_⟩
  rcases Nat.lt_trichotomy place width with before | rfl | after
  · refine ⟨List.replicate (width - (place + 1)) 0x20 ++ 0 :: rest, ?_⟩
    have short : place < (List.replicate width (0x20 : UInt8)).length := by
      rwa [List.length_replicate]
    rw [List.set_append_left _ _ short, List.set_eq_take_append_cons_drop,
      if_pos short, List.take_replicate, List.drop_replicate, Nat.min_comm,
      List.append_assoc, List.cons_append]
  · refine ⟨rest, ?_⟩
    rw [List.set_append_right _ _ (by rw [List.length_replicate]),
      List.length_replicate, Nat.sub_self, List.set_cons_zero, Nat.min_self]
  · obtain ⟨further, rfl⟩ := Nat.exists_eq_add_of_lt after
    refine ⟨rest.set further 0, ?_⟩
    have past : width + further + 1 - width = further + 1 := by omega
    rw [List.set_append_right _ _ (by rw [List.length_replicate]; omega),
      List.length_replicate, past, List.set_cons_succ,
      Nat.min_eq_left (by omega)]

/-- The width fits the buffer of blanks, and the text moves. -/
def RollText.Proper (text : RollText) : Prop :=
  text.textlen.toNat < 64 ∧ text.rollSpeed ≠ 0

namespace Rolling

/-- A place that holds the text. -/
def roll (rolling : Rolling) : TextRoll where
  dispText := rolling.kept ++ List.replicate (64 - rolling.kept.length) 0
  speed := rolling.text.rollSpeed
  dispTimer := rolling.timer
  textlen := rolling.text.textlen
  texttype := rolling.text.textType
  rollCnt := UInt8.ofNat (rolling.shown % rolling.turns)
  x := rolling.text.x
  y := rolling.text.y
  textColor := rolling.text.textColor
  blackColor := rolling.text.blackColor

def placeOf : Option Rolling → TextRoll
  | none => .cleared
  | some rolling => rolling.roll

variable (rolling : Rolling)

theorem kept_length : rolling.kept.length < 64 := by
  have short := List.length_take_le
    (strlen rolling.text.gb2312Dat % 64) (cString rolling.text.gb2312Dat)
  exact Nat.lt_of_le_of_lt short (Nat.mod_lt _ (by decide))

theorem kept_nonzero : ∀ byte ∈ rolling.kept, byte ≠ 0 := by
  intro byte member
  have inside : byte ∈ rolling.text.gb2312Dat.takeWhile
      (fun byte => byte != 0) := List.mem_of_mem_take member
  have nonzero := List.mem_takeWhile_imp inside
  exact bne_iff_ne.mp nonzero

theorem turns_le : rolling.turns ≤ 32 := by
  have short := rolling.kept_length
  unfold turns
  omega

theorem turn_lt : rolling.shown % rolling.turns < rolling.turns :=
  Nat.mod_lt _ (Nat.succ_pos _)

theorem rollCnt_toNat :
    rolling.roll.rollCnt.toNat = rolling.shown % rolling.turns := by
  have small := rolling.turn_lt
  have most := rolling.turns_le
  exact UInt8.toNat_ofNat_of_lt' (show _ < 256 by omega)

/-- The count goes on to the next window, and from the last one to the
first. -/
theorem rollCnt_next :
    (if rolling.roll.rollCnt.toNat < rolling.kept.length / 2 then
        (rolling.roll.rollCnt + 1) % 32
      else 0) =
      UInt8.ofNat ((rolling.shown + 1) % rolling.turns) := by
  have small := rolling.turn_lt
  have most := rolling.turns_le
  have next : (rolling.shown + 1) % rolling.turns =
      (rolling.shown % rolling.turns + 1) % rolling.turns :=
    (Nat.mod_add_mod _ _ _).symm
  have count := rolling.rollCnt_toNat
  rw [count]
  apply UInt8.toNat_inj.mp
  rw [UInt8.toNat_ofNat_of_lt' (show _ < 256 by
    have later := Nat.mod_lt (rolling.shown + 1)
      (show 0 < rolling.turns from Nat.succ_pos _)
    omega), next]
  by_cases before : rolling.shown % rolling.turns < rolling.kept.length / 2
  · have inside : rolling.shown % rolling.turns + 1 < rolling.turns :=
      Nat.succ_lt_succ before
    rw [if_pos before, Nat.mod_eq_of_lt inside, UInt8.toNat_mod,
      UInt8.toNat_add, count]
    have one : (1 : UInt8).toNat = 1 := rfl
    have many : (32 : UInt8).toNat = 32 := rfl
    rw [one, many]
    omega
  · have last : rolling.shown % rolling.turns + 1 = rolling.turns := by
      unfold turns at *
      omega
    rw [if_neg before, last, Nat.mod_self]
    rfl

theorem dispText_eq : rolling.roll.dispText =
    rolling.kept ++ 0 :: List.replicate (63 - rolling.kept.length) 0 := by
  have short := rolling.kept_length
  have count : 64 - rolling.kept.length = (63 - rolling.kept.length) + 1 := by
    omega
  rw [roll, count, List.replicate_succ]

/-- What is left of the text in its window. -/
theorem cutAt_window : ∃ dispBuf,
    cutAt rolling.roll.dispText
        (rolling.shown % rolling.turns * 2 + rolling.roll.textlen.toNat)
        rolling.kept.length = some dispBuf ∧
      stringFrom dispBuf (rolling.shown % rolling.turns * 2) =
        some rolling.window := by
  have small := rolling.turn_lt
  have inside : rolling.shown % rolling.turns * 2 ≤ rolling.kept.length := by
    unfold turns at *
    omega
  have width : rolling.roll.textlen = rolling.text.textlen := rfl
  rw [cutAt, width, dispText_eq]
  split
  · next cuts =>
    rw [zeroAt_append cuts]
    refine ⟨_, rfl, ?_⟩
    have front : ∀ byte ∈ rolling.kept.take (rolling.shown % rolling.turns * 2 +
        rolling.text.textlen.toNat), byte ≠ 0 := fun byte member =>
      rolling.kept_nonzero byte (List.mem_of_mem_take member)
    rw [stringFrom_append front (by rw [List.length_take]; omega),
      List.drop_take, Nat.add_sub_cancel_left, window]
  · next whole =>
    refine ⟨_, rfl, ?_⟩
    rw [stringFrom_append rolling.kept_nonzero inside, window,
      List.take_of_length_le (by rw [List.length_drop]; omega)]

theorem rollShow_eq {width : Nat} {clear : List UInt8}
    (blank : Blank width clear) (sysTickCnt : UInt32) :
    rollShow sysTickCnt clear rolling.roll =
      some
        ({ rolling with shown := rolling.shown + 1, timer := sysTickCnt }.roll,
          [rolling.drawing (List.replicate width 0x20),
            rolling.drawing rolling.window]) := by
  have count := rolling.rollCnt_toNat
  have next := rolling.rollCnt_next
  have length : stringFrom rolling.roll.dispText 0 = some rolling.kept := by
    rw [dispText_eq, stringFrom_append rolling.kept_nonzero (Nat.zero_le _),
      List.drop_zero]
  obtain ⟨dispBuf, isCut, window⟩ := rolling.cutAt_window
  rw [count] at next
  simp only [rollShow, length, Option.bind_eq_bind, Option.bind_some, count,
    isCut, blank.stringFrom, window, next]
  rfl

theorem pause_eq :
    (if rolling.roll.rollCnt = 1 then rolling.roll.speed * 4
      else rolling.roll.speed) = rolling.pause := by
  have count := rolling.rollCnt_toNat
  have first : rolling.roll.rollCnt = 1 ↔
      rolling.shown % rolling.turns = 1 := by
    rw [← count, ← UInt8.toNat_inj]
    rfl
  simp only [first, pause]
  rfl

theorem rollTurn_eq {width : Nat} {clear : List UInt8}
    (blank : Blank width clear) (proper : rolling.text.Proper)
    (sysTickCnt : UInt32) :
    ∃ cut, Blank (min width rolling.text.textlen.toNat) cut ∧
      rollTurn sysTickCnt clear rolling.roll =
        some (cut,
          (rolling.tick sysTickCnt
            (min width rolling.text.textlen.toNat)).1.roll,
          (rolling.tick sysTickCnt
            (min width rolling.text.textlen.toNat)).2) := by
  obtain ⟨cut, isCut, blankCut⟩ := blank.zeroAt proper.1
  refine ⟨cut, blankCut, ?_⟩
  have moves : 0 < rolling.roll.speed := UInt32.pos_iff_ne_zero.mpr proper.2
  have cuts : Tp79Boot.zeroAt clear rolling.roll.textlen.toNat = some cut :=
    isCut
  have timer : rolling.roll.dispTimer = rolling.timer := rfl
  rw [rollTurn, if_pos moves, cuts]
  simp only [Option.bind_eq_bind, Option.bind_some, pause_eq, timer, tick,
    rolling.rollShow_eq blankCut]
  split
  · rfl
  · rfl

end Rolling

open Rolling

/-- Every text that rolls is proper. -/
def ProperRollings (rollings : List (Option Rolling)) : Prop :=
  ∀ rolling, some rolling ∈ rollings → rolling.text.Proper

theorem properRollings_cons {first : Option Rolling}
    {rollings : List (Option Rolling)} :
    ProperRollings (first :: rollings) ↔
      (∀ rolling, first = some rolling → rolling.text.Proper) ∧
        ProperRollings rollings := by
  constructor
  · intro proper
    refine ⟨?_, ?_⟩
    · rintro rolling rfl
      exact proper rolling List.mem_cons_self
    · intro rolling member
      exact proper rolling (List.mem_cons_of_mem first member)
  · rintro ⟨here, later⟩ rolling member
    rcases List.mem_cons.mp member with same | inside
    · exact here rolling same.symm
    · exact later rolling inside

theorem ProperRollings.tail {first : Option Rolling}
    {rollings : List (Option Rolling)}
    (proper : ProperRollings (first :: rollings)) : ProperRollings rollings :=
  (properRollings_cons.mp proper).2

theorem Rolling.tick_text (sysTickCnt : UInt32) (width : Nat)
    (rolling : Rolling) :
    (rolling.tick sysTickCnt width).1.text = rolling.text := by
  rw [tick]
  split
  · rfl
  · rfl

theorem ProperRollings.ticked {rollings : List (Option Rolling)}
    (proper : ProperRollings rollings) (sysTickCnt : UInt32) (width : Nat) :
    ProperRollings (tickRollings sysTickCnt width rollings).1 := by
  induction rollings generalizing width with
  | nil => exact proper
  | cons first rollings induction =>
      cases first with
      | none =>
          refine properRollings_cons.mpr ⟨?_, induction proper.tail width⟩
          intro rolling same
          cases same
      | some own =>
          refine properRollings_cons.mpr ⟨?_, induction proper.tail _⟩
          intro rolling same
          obtain rfl := Option.some.inj same
          rw [tick_text]
          exact proper own List.mem_cons_self

theorem ProperRollings.placed {rollings : List (Option Rolling)}
    (proper : ProperRollings rollings) {text : RollText}
    (fits : text.Proper) : ProperRollings (placeRolling text rollings) := by
  induction rollings with
  | nil => exact proper
  | cons first rollings induction =>
      cases first with
      | none =>
          refine properRollings_cons.mpr ⟨?_, proper.tail⟩
          intro rolling same
          obtain rfl := Option.some.inj same
          exact fits
      | some own =>
          exact properRollings_cons.mpr
            ⟨(properRollings_cons.mp proper).1, induction proper.tail⟩

theorem rollTurns_eq {rollings : List (Option Rolling)}
    (proper : ProperRollings rollings) {width : Nat} {clear : List UInt8}
    (blank : Blank width clear) (sysTickCnt : UInt32) :
    rollTurns sysTickCnt clear (rollings.map placeOf) =
      some ((tickRollings sysTickCnt width rollings).1.map placeOf,
        (tickRollings sysTickCnt width rollings).2) := by
  induction rollings generalizing width clear with
  | nil => rfl
  | cons first rollings induction =>
      cases first with
      | none =>
          have free : rollTurn sysTickCnt clear .cleared =
              some (clear, .cleared, []) := if_neg (by decide)
          rw [List.map_cons, rollTurns, placeOf, free]
          simp only [Option.bind_eq_bind, Option.bind_some,
            induction proper.tail blank]
          rfl
      | some rolling =>
          obtain ⟨cut, blankCut, turn⟩ := rolling.rollTurn_eq blank
            (proper rolling List.mem_cons_self) sysTickCnt
          rw [List.map_cons, rollTurns, placeOf, turn]
          simp only [Option.bind_eq_bind, Option.bind_some,
            induction proper.tail blankCut]
          rfl

theorem fill_cleared (text : RollText) :
    TextRoll.cleared.fill text =
      { text := text, shown := 0, timer := 0 : Rolling }.roll := by
  have string : text.gb2312Dat.take (strlen text.gb2312Dat % 64) =
      (cString text.gb2312Dat).take (strlen text.gb2312Dat % 64) := by
    have front : cString text.gb2312Dat =
        text.gb2312Dat.take (strlen text.gb2312Dat) :=
      List.prefix_iff_eq_take.mp (List.takeWhile_prefix _)
    rw [front, List.take_take, Nat.min_eq_left (Nat.mod_le _ _)]
  have buffer : writeAt TextRoll.cleared.dispText 0
      (text.gb2312Dat.take (strlen text.gb2312Dat % 64)) =
        { text := text, shown := 0, timer := 0 : Rolling }.roll.dispText := by
    rw [writeAt, string, TextRoll.cleared, List.take_zero, List.nil_append,
      List.drop_replicate, Nat.zero_add]
    rfl
  rw [TextRoll.fill, buffer]
  rfl

theorem uiDispChineseRoll_eq {rollings : List (Option Rolling)}
    (proper : ProperRollings rollings) (text : RollText) :
    uiDispChineseRoll text (rollings.map placeOf) =
      (placeRolling text rollings).map placeOf := by
  induction rollings with
  | nil => rfl
  | cons first rollings induction =>
      cases first with
      | none =>
          have free : TextRoll.cleared.speed = 0 := rfl
          rw [List.map_cons, uiDispChineseRoll, placeOf, if_pos free,
            fill_cleared]
          rfl
      | some own =>
          have busy : own.roll.speed ≠ 0 := (proper own List.mem_cons_self).2
          rw [List.map_cons, uiDispChineseRoll, placeOf, if_neg busy,
            induction proper.tail, placeRolling, List.map_cons, placeOf]

/-- Over every run of calls, from the places as the texts have left them, the
task stays inside its buffers, and the places show what the texts that roll
there show. -/
theorem runRolls_eq {rollings : List (Option Rolling)}
    (proper : ProperRollings rollings) {calls : List RollCall}
    (fits : ∀ text, RollCall.start text ∈ calls → text.Proper) :
    runRolls (rollings.map placeOf) calls =
      some ((runRollings rollings calls).1.map placeOf,
        (runRollings rollings calls).2) := by
  induction calls generalizing rollings with
  | nil => rfl
  | cons call calls induction =>
      have later (text : RollText) (member : .start text ∈ calls) :=
        fits text (List.mem_cons_of_mem call member)
      cases call with
      | start text =>
          have placed := proper.placed (fits text List.mem_cons_self)
          rw [runRolls, uiDispChineseRoll_eq proper, induction placed later,
            runRollings]
      | stop =>
          have cleared : uiDispChineseRollStop (rollings.map placeOf) =
              (rollings.map fun _ => none).map placeOf := by
            rw [uiDispChineseRollStop, List.map_map, List.map_map]
            rfl
          have none : ProperRollings (rollings.map fun _ => none) := by
            intro rolling member
            obtain ⟨_, _, same⟩ := List.mem_map.mp member
            cases same
          rw [runRolls, cleared, induction none later, runRollings]
      | task sysTickCnt =>
          have ticked := rollTurns_eq proper clearBuf_blank sysTickCnt
          rw [runRolls, uiDispChineseRollTask, ticked]
          simp only [Option.bind_eq_bind, Option.bind_some,
            induction (proper.ticked sysTickCnt 39) later]
          rfl

theorem Rolling.window_reaches (rolling : Rolling)
    (wide : 2 ≤ rolling.text.textlen.toNat) {place : Nat}
    (inside : place < rolling.kept.length) :
    ∃ more offset : Nat, more < rolling.turns ∧
      (rolling.after more).window[offset]? = some rolling.kept[place] := by
  have goal : place / 2 < rolling.turns := by
    unfold turns
    omega
  obtain ⟨more, short, reached⟩ :=
    CyclicWindow.exists_record goal rolling.shown
  refine ⟨more, place % 2, short, ?_⟩
  have here : (rolling.after more).window =
      (rolling.kept.drop (place / 2 * 2)).take
        rolling.text.textlen.toNat := by
    rw [← reached]
    rfl
  have whole : place / 2 * 2 + place % 2 = place := Nat.div_add_mod' place 2
  rw [here, List.getElem?_take_of_lt (by omega), List.getElem?_drop, whole,
    List.getElem?_eq_getElem inside]

/-- Over every run of calls the task stays inside its buffers and the places
show what the texts that roll there show; each byte of such a text comes past
within one round of windows. -/
theorem rolling_texts_shown {calls : List RollCall}
    (fits : ∀ text, RollCall.start text ∈ calls → text.Proper) :
    runRolls (List.replicate 3 .cleared) calls =
        some ((runRollings (List.replicate 3 none) calls).1.map placeOf,
          (runRollings (List.replicate 3 none) calls).2) ∧
      ∀ rolling, some rolling ∈
          (runRollings (List.replicate 3 none) calls).1 →
        2 ≤ rolling.text.textlen.toNat →
          ∀ place (inside : place < rolling.kept.length),
            ∃ more offset : Nat, more < rolling.turns ∧
              (rolling.after more).window[offset]? =
                some rolling.kept[place] := by
  have free : ProperRollings (List.replicate 3 none) := by
    intro rolling member
    cases List.eq_of_mem_replicate member
  refine ⟨runRolls_eq free fits, ?_⟩
  intro rolling _ wide place inside
  exact rolling.window_reaches wide inside

/-- A call log entry of 16 bytes in a window of 14, as `ui_task` shows it. -/
def longName : RollText where
  textType := 1
  x := 41
  y := 47
  gb2312Dat := ascii "0123456789abcdef" ++ [0]
  blackColor := 0xFFFF
  textColor := 0x001F
  textlen := 14
  rollSpeed := 500

theorem rolling_texts_shown_longName :
    runRolls (List.replicate 3 .cleared)
        [.start longName, .task 501, .task 1002, .task 2503] =
      some ((runRollings (List.replicate 3 none)
          [.start longName, .task 501, .task 1002, .task 2503]).1.map placeOf,
        (runRollings (List.replicate 3 none)
          [.start longName, .task 501, .task 1002, .task 2503]).2) := by
  apply (rolling_texts_shown _).1
  intro text member
  have same : text = longName := by simpa using member
  rw [same]
  exact ⟨by decide, by decide⟩

end Tp79Boot
