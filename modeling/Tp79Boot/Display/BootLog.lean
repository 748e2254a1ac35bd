import Tp79Boot.Display.Drawing
import Tp79Boot.Download

/-!
# The screen of the boot loader during a download

`download_code_bin` draws as it goes through its loop: the version announced
by the server, what the download is doing, a bar of its progress and dots that
show that the loop is alive.  Each of these has its own rows of the screen that
`boot_ui_init` has drawn, so in every run each of them looks as if the others
were not there, and the title, the stored version and the warning stay.
-/

namespace Tp79Boot

open EventRun NorMemory WindowedPanel

def colorRed : UInt16 := 0xF800
def colorWight : UInt16 := 0xFFFF
def colorBlue : UInt16 := 0x001F

/-- `english_text.h`. -/
structure BootTexts where
  mcuUpgrade : List UInt8
  noteDoNotPowerOff : List UInt8
  thisVersion : List UInt8
  upgradedVersion : List UInt8
  upgrading : List UInt8
  downloading : List UInt8
  updateSuccessed : List UInt8
  isTheLatestVersion : List UInt8
  timeoutRestart : List UInt8

/-- The texts without `LANGUAGE_ENGLISH`, in the bytes of GB2312. -/
def chineseTexts : BootTexts where
  mcuUpgrade := [0xB5, 0xA5, 0xC6, 0xAC, 0xBB, 0xFA, 0xC9, 0xFD, 0xBC, 0xB6]
  noteDoNotPowerOff := [0xBE, 0xAF, 0xB8, 0xE6, 0xA3, 0xBA, 0xC9, 0xFD, 0xBC,
    0xB6, 0xB9, 0xFD, 0xB3, 0xCC, 0xD6, 0xD0, 0xC7, 0xEB, 0xCE, 0xF0, 0xB6,
    0xCF, 0xB5, 0xE7, 0xA3, 0xA1]
  thisVersion := [0xB5, 0xB1, 0xC7, 0xB0, 0xB0, 0xE6, 0xB1, 0xBE, 0xA3, 0xBA]
  upgradedVersion := [0xC9, 0xFD, 0xBC, 0xB6, 0xB0, 0xE6, 0xB1, 0xBE, 0xA3,
    0xBA]
  upgrading := [0xD5, 0xFD, 0xD4, 0xDA, 0xC9, 0xFD, 0xBC, 0xB6, 0xB9, 0xCC,
    0xBC, 0xFE, 0x2E, 0x2E, 0x2E]
  downloading := [0xD5, 0xFD, 0xD4, 0xDA, 0xCF, 0xC2, 0xD4, 0xD8, 0xB9, 0xCC,
    0xBC, 0xFE, 0x2E, 0x2E, 0x2E]
  updateSuccessed := [0xC9, 0xFD, 0xBC, 0xB6, 0xB3, 0xC9, 0xB9, 0xA6, 0xA3,
    0xA1, 0xBC, 0xB4, 0xBD, 0xAB, 0xD6, 0xD8, 0xC6, 0xF4, 0x2E, 0x2E, 0x2E]
  isTheLatestVersion := [0xD2, 0xD1, 0xBE, 0xAD, 0xCA, 0xC7, 0xD7, 0xEE, 0xD0,
    0xC2, 0xB0, 0xE6, 0xB1, 0xBE, 0xA3, 0xA1]
  timeoutRestart := [0xC9, 0xFD, 0xBC, 0xB6, 0xB9, 0xCC, 0xBC, 0xFE, 0xB3,
    0xAC, 0xCA, 0xB1, 0x2C, 0xC6, 0xF4, 0xB6, 0xAF, 0xD3, 0xA6, 0xD3, 0xC3]

def englishTexts : BootTexts where
  mcuUpgrade := ascii "MCU upgrade"
  noteDoNotPowerOff := ascii "Note: Do not power off!"
  thisVersion := ascii "  This:   "
  upgradedVersion := ascii " Upgrade: "
  upgrading := ascii "upgrading..."
  downloading := ascii "Downloading..."
  updateSuccessed := ascii "   Update successed   "
  isTheLatestVersion := ascii "Is the latest version"
  timeoutRestart := ascii "Timeout, restart"

inductive Language where
  | chinese
  | english
deriving DecidableEq, Repr

def Language.texts : Language → BootTexts
  | .chinese => chineseTexts
  | .english => englishTexts

/-- What the download is doing. -/
inductive BootStatus where
  | downloading
  | upgrading
  | isTheLatestVersion
  | updateSuccessed
  | timeoutRestart
deriving DecidableEq, Repr

def BootStatus.text (status : BootStatus) (texts : BootTexts) : List UInt8 :=
  match status with
  | .downloading => texts.downloading
  | .upgrading => texts.upgrading
  | .isTheLatestVersion => texts.isTheLatestVersion
  | .updateSuccessed => texts.updateSuccessed
  | .timeoutRestart => texts.timeoutRestart

/-- What the loop draws. -/
inductive BootDraw where
  | serverVersion (serverSoftVer : List UInt8)
  | doing (status : BootStatus)
  | progress (curPt : UInt16)
  | dot (uci : UInt8)
  | clearDots
deriving DecidableEq, Repr

section

variable (texts : BootTexts)

/-- The call for it; `lcd_disp_tan` is `nv3021_disp_range`. -/
def BootDraw.drawing : BootDraw → Drawing
  | .serverVersion serverSoftVer =>
      .china11x12 60 43 serverSoftVer colorWight colorBlue
  | .doing status => .china11x12 0 60 (status.text texts) colorWight colorBlue
  | .progress curPt => .box 31 76 colorBlue curPt.toUInt8 14
  | .dot uci => .frame uci.toUInt16 123 2 2 1 colorRed
  | .clearDots => .frame 0 123 160 2 1 colorWight

/-- `boot_ui_init`, with the stored version. -/
def bootUiInit (ver : List UInt8) : List Drawing :=
  [.box 0 0 colorWight 160 128,
    .box 0 0 colorBlue 160 22,
    .china15x16 20 3 texts.mcuUpgrade colorBlue colorWight,
    .china11x12 0 28 texts.thisVersion colorWight colorBlue,
    .china11x12 60 28 ver colorWight colorBlue,
    .china11x12 0 43 texts.upgradedVersion colorWight colorBlue,
    .frame 30 75 101 16 1 colorBlue,
    .china11x12 0 95 texts.noteDoNotPowerOff colorWight colorRed]

end

/-- The variables of `download_code_bin` that have to do with the screen;
`uci` is not initialised.  `log` lists what has been drawn, oldest first. -/
structure BootScreen where
  download : Download
  uci : UInt8
  ulcnt : UInt32
  oldPt : UInt16
  downloadShown : Bool
  upgradeShown : Bool
  log : List BootDraw

/-- The dots of the three loops that draw them up to the end. -/
def exitDots : List BootDraw :=
  (List.range 40).map fun turn => .dot (UInt8.ofNat (4 * turn))

namespace BootScreen

def draw (screen : BootScreen) (draws : List BootDraw) : BootScreen :=
  { screen with log := screen.log ++ draws }

/-- The text of an exit and its dots. -/
def leave (screen : BootScreen) (status : BootStatus) : BootScreen :=
  { screen.draw (.doing status :: exitDots) with uci := 160 }

/-- The bar is drawn when its width has changed. -/
def bar (screen : BootScreen) (curPt : UInt16) : BootScreen :=
  if curPt ≠ screen.oldPt then
    { screen.draw [.progress curPt] with oldPt := curPt }
  else screen

/-- The branches on the status.  `percent` is what the quotient of two
numbers of type `double` is cut to. -/
def branch (percent : PocDevice → UInt16) (screen : BootScreen) : BootScreen :=
  let poc := screen.download.boot.pocDevice
  match poc.status with
  | .verDwonload =>
      if screen.downloadShown then screen
      else
        { screen.draw
            [.serverVersion poc.serverSoftVer.toList, .doing .downloading] with
          downloadShown := true }
  | .verSame => screen.leave .isTheLatestVersion
  | .verDwonloadSuccess => screen.leave .updateSuccessed
  | .verUpgrade =>
      let shown :=
        if screen.upgradeShown then screen
        else { screen.draw [.doing .upgrading] with upgradeShown := true }
      shown.bar (percent poc % 100)
  | _ => screen

/-- The end of a turn. -/
def count (screen : BootScreen) : BootScreen :=
  if screen.ulcnt + 1 > 20000 then
    let dotted :=
      { screen.draw [.dot screen.uci] with
        ulcnt := 0
        uci := screen.uci + 4 }
    if dotted.uci ≥ 159 then { dotted.draw [.clearDots] with uci := 0 }
    else dotted
  else { screen with ulcnt := screen.ulcnt + 1 }

/-- An event of the loop, with what is drawn at it. -/
def step (percent : PocDevice → UInt16) (screen : BootScreen)
    (event : LoopEvent) : BootScreen :=
  let shown : BootScreen :=
    match event with
    | .branch =>
        if screen.download.phase = .draining then screen.branch percent
        else screen
    | .timeout tick =>
        if screen.download.phase = .branched then
          if screen.download.boot.pocDevice.status ≠ .verUpgrade ∧
              tick > 300000 then
            screen.leave .timeoutRestart
          else screen.count
        else screen
    | _ => screen
  { shown with download := loopStep screen.download event }

def start (download : Download) (uci : UInt8) : BootScreen :=
  { download := download
    uci := uci
    ulcnt := 0
    oldPt := 0
    downloadShown := false
    upgradeShown := false
    log := [] }

end BootScreen

/-- The stored version as `boot_ui_init` finds it, with the memory behind
it. -/
def bootVersion (mem : Mem) (pastCfg : List UInt8) : List UInt8 :=
  (deviceConfigRead (deviceInit { mem := mem, log := [] }).2).ver.toList ++
    pastCfg

/-- What has been drawn since `boot_task` was called. -/
def bootDrawings (texts : BootTexts) (ver : List UInt8)
    (log : List BootDraw) : List Drawing :=
  bootUiInit texts ver ++ log.map (BootDraw.drawing texts)

inductive BootPart where
  | title
  | thisVersion
  | upgradedVersion
  | status
  | progress
  | warning
  | dots
deriving DecidableEq, Repr

namespace BootPart

def top : BootPart → Nat
  | .title => 0
  | .thisVersion => 28
  | .upgradedVersion => 43
  | .status => 60
  | .progress => 75
  | .warning => 95
  | .dots => 123

def bottom : BootPart → Nat
  | .title => 22
  | .thisVersion => 41
  | .upgradedVersion => 56
  | .status => 73
  | .progress => 91
  | .warning => 108
  | .dots => 125

end BootPart

def BootDraw.part : BootDraw → BootPart
  | .serverVersion _ => .upgradedVersion
  | .doing _ => .status
  | .progress _ => .progress
  | .dot _ => .dots
  | .clearDots => .dots

def whiteScreen : Picture := fun _ _ => colorWight

section

variable (texts : BootTexts) (ver : List UInt8) (log : List BootDraw)

/-- The calls of `boot_ui_init` on the white screen, each with its part. -/
def bootUiParts : List (BootPart × Drawing) :=
  [(.title, .box 0 0 colorBlue 160 22),
    (.title, .china15x16 20 3 texts.mcuUpgrade colorBlue colorWight),
    (.thisVersion, .china11x12 0 28 texts.thisVersion colorWight colorBlue),
    (.thisVersion, .china11x12 60 28 ver colorWight colorBlue),
    (.upgradedVersion,
      .china11x12 0 43 texts.upgradedVersion colorWight colorBlue),
    (.progress, .frame 30 75 101 16 1 colorBlue),
    (.warning, .china11x12 0 95 texts.noteDoNotPowerOff colorWight colorRed)]

theorem bootUiInit_eq :
    bootUiInit texts ver =
      .box 0 0 colorWight 160 128 :: (bootUiParts texts ver).map (·.2) :=
  rfl

/-- All calls on the white screen. -/
def partCalls : List (BootPart × Drawing) :=
  bootUiParts texts ver ++ log.map fun draw => (draw.part, draw.drawing texts)

/-- A part of the screen as if the others were not there. -/
def partPicture (rom : Nat → UInt8) (stale : UInt32) (part : BootPart) :
    Picture :=
  drawn rom stale whiteScreen
    (((partCalls texts ver log).filter (·.1 = part)).map (·.2))

end

section

variable {rom : Nat → UInt8} {stale : UInt32} {texts : BootTexts}
variable {ver : List UInt8} {log : List BootDraw} {column row : Nat}

theorem BootDraw.within (draw : BootDraw) (texts : BootTexts) :
    draw.part.top ≤ (draw.drawing texts).rows.1 ∧
      (draw.drawing texts).rows.2 ≤ draw.part.bottom := by
  cases draw with
  | serverVersion => exact ⟨Nat.le_refl 43, Nat.le_refl 56⟩
  | doing => exact ⟨Nat.le_refl 60, Nat.le_refl 73⟩
  | progress => exact ⟨Nat.le_succ 75, Nat.le_succ 90⟩
  | dot => exact ⟨Nat.le_refl 123, Nat.le_refl 125⟩
  | clearDots => exact ⟨Nat.le_refl 123, Nat.le_refl 125⟩

theorem bootUiParts_rows :
    (bootUiParts texts ver).map (fun call => (call.1, call.2.rows)) =
      [(.title, (0, 22)), (.title, (3, 19)), (.thisVersion, (28, 41)),
        (.thisVersion, (28, 41)), (.upgradedVersion, (43, 56)),
        (.progress, (75, 91)), (.warning, (95, 108))] :=
  rfl

theorem partCalls_within {call : BootPart × Drawing}
    (member : call ∈ partCalls texts ver log) :
    call.1.top ≤ call.2.rows.1 ∧ call.2.rows.2 ≤ call.1.bottom := by
  rcases List.mem_append.mp member with initial | logged
  · have listed := List.mem_map_of_mem
      (f := fun call : BootPart × Drawing => (call.1, call.2.rows)) initial
    rw [bootUiParts_rows] at listed
    have all : ∀ entry ∈ [(BootPart.title, (0, 22)), (.title, (3, 19)),
        (.thisVersion, (28, 41)), (.thisVersion, (28, 41)),
        (.upgradedVersion, (43, 56)), (.progress, (75, 91)),
        (.warning, (95, 108))],
        entry.1.top ≤ entry.2.1 ∧ entry.2.2 ≤ entry.1.bottom := by
      decide
    exact all _ listed
  · obtain ⟨draw, _, rfl⟩ := List.mem_map.mp logged
    exact draw.within texts

theorem BootPart.apart {first second : BootPart} (different : first ≠ second) :
    first.bottom ≤ second.top ∨ second.bottom ≤ first.top := by
  revert different
  cases first <;> cases second <;> decide

theorem white_first (before : Picture) (wide : column < 160)
    (high : row < 128) :
    (Drawing.box 0 0 colorWight 160 128).overlay rom stale before column row =
      whiteScreen column row :=
  if_pos ⟨Nat.zero_le _, Nat.lt_of_lt_of_eq wide (Nat.zero_add 160).symm,
    Nat.zero_le _, Nat.lt_of_lt_of_eq high (Nat.zero_add 128).symm⟩

theorem drawn_bootDrawings (before : Picture) (wide : column < 160)
    (high : row < 128) :
    drawn rom stale before (bootDrawings texts ver log) column row =
      drawn rom stale whiteScreen ((partCalls texts ver log).map (·.2)) column
        row := by
  have calls : bootDrawings texts ver log =
      .box 0 0 colorWight 160 128 ::
        (partCalls texts ver log).map (·.2) := by
    rw [bootDrawings, bootUiInit_eq, partCalls, List.map_append, List.map_map]
    rfl
  rw [calls, drawn_cons]
  exact drawn_congr (white_first before wide high)

theorem drawn_part (before : Picture) {part : BootPart} (wide : column < 160)
    (inside : part.top ≤ row ∧ row < part.bottom) :
    drawn rom stale before (bootDrawings texts ver log) column row =
      partPicture texts ver log rom stale part column row := by
  have below : part.bottom ≤ 128 := by cases part <;> decide
  rw [drawn_bootDrawings before wide (by omega), partPicture]
  apply drawn_labelled
  intro call member other touched
  have within := partCalls_within member
  have apart := BootPart.apart other
  unfold Drawing.Touches at touched
  omega

/-- Between the parts the screen is white. -/
theorem drawn_between (before : Picture) (wide : column < 160)
    (high : row < 128)
    (outside : ∀ part : BootPart, row < part.top ∨ part.bottom ≤ row) :
    drawn rom stale before (bootDrawings texts ver log) column row =
      colorWight := by
  rw [drawn_bootDrawings before wide high]
  apply drawn_untouched
  intro drawing member touched
  obtain ⟨call, listed, rfl⟩ := List.mem_map.mp member
  have within := partCalls_within listed
  have away := outside call.1
  unfold Drawing.Touches at touched
  omega

end

end Tp79Boot
