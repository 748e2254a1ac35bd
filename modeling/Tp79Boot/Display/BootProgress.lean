import Tp79Boot.Display.BootLog

/-!
# Progress on the screen of the boot loader

The bar grows inside its frame, and the dots run from the left to the right
and are cleared at the end of their line, in every run of the download loop.
Until they have been cleared once they may stand anywhere in their line, as
the variable `uci` is not initialised.
-/

namespace Tp79Boot

open EventRun NorMemory WindowedPanel

/-- The widest bar that has been drawn. -/
def barWidth (log : List BootDraw) : Nat :=
  log.foldr (fun draw width =>
    match draw with
    | .progress curPt => max curPt.toNat width
    | _ => width) 0

section

variable {rom : Nat → UInt8} {stale : UInt32} {texts : BootTexts}
variable {ver : List UInt8} {log : List BootDraw} {column row : Nat}

theorem partPicture_eq (part : BootPart) :
    partPicture texts ver log rom stale part =
      drawn rom stale
        (drawn rom stale whiteScreen
          (((bootUiParts texts ver).filter (·.1 = part)).map (·.2)))
        ((log.filter (·.part = part)).map (BootDraw.drawing texts)) := by
  rw [partPicture, partCalls, List.filter_append, List.map_append,
    drawn_append, List.filter_map, List.map_map]
  rfl

/-- Each bar is drawn over the one before it, and only a wider one shows. -/
theorem drawn_bars (before : Picture)
    (percents : ∀ curPt, .progress curPt ∈ log → curPt.toNat < 100) :
    drawn rom stale before
        ((log.filter (·.part = .progress)).map (BootDraw.drawing texts))
        column row =
      if Inside 31 76 (barWidth log) 14 column row then colorBlue
      else before column row := by
  induction log generalizing before with
  | nil =>
      have none : ¬ Inside 31 76 0 14 column row := by
        unfold Inside
        omega
      exact (if_neg none).symm
  | cons draw log induction =>
      have later (before : Picture) := induction before fun curPt member =>
        percents curPt (List.mem_cons_of_mem _ member)
      cases draw with
      | progress curPt =>
          have small := percents curPt List.mem_cons_self
          have width : curPt.toUInt8.toNat = curPt.toNat :=
            cut_toNat (Nat.lt_trans small (by decide))
          have wider : barWidth (.progress curPt :: log) =
              max curPt.toNat (barWidth log) := rfl
          have either :
              Inside 31 76 (max curPt.toNat (barWidth log)) 14 column row ↔
                Inside 31 76 (barWidth log) 14 column row ∨
                  Inside 31 76 curPt.toNat 14 column row := by
            unfold Inside
            omega
          rw [List.filter_cons, if_pos (by rfl), List.map_cons, drawn_cons,
            later, wider]
          simp only [either, ite_or]
          rw [← width]
          rfl
      | serverVersion => exact later before
      | doing => exact later before
      | dot => exact later before
      | clearDots => exact later before

theorem progress_shown
    (percents : ∀ curPt, .progress curPt ∈ log → curPt.toNat < 100) :
    partPicture texts ver log rom stale .progress column row =
      if Inside 31 76 (barWidth log) 14 column row ∨
          OnFrame 30 75 101 16 1 column row then colorBlue
      else colorWight := by
  have framed : drawn rom stale whiteScreen
      (((bootUiParts texts ver).filter (·.1 = .progress)).map (·.2)) column
        row =
      if OnFrame 30 75 101 16 1 column row then colorBlue
      else colorWight :=
    @frameOver_eq 30 75 101 16 1 colorBlue whiteScreen (by decide) (by decide)
      (by decide) (by decide) (by decide) (by decide) (by decide) (by decide)
      column row
  rw [partPicture_eq, drawn_bars _ percents, framed]
  exact (ite_or ..).symm

theorem barWidth_lt
    (percents : ∀ curPt, .progress curPt ∈ log → curPt.toNat < 100) :
    barWidth log < 100 := by
  induction log with
  | nil => exact Nat.succ_pos 99
  | cons draw log induction =>
      have later := induction fun curPt member =>
        percents curPt (List.mem_cons_of_mem _ member)
      cases draw with
      | progress curPt =>
          exact Nat.max_lt.mpr ⟨percents curPt List.mem_cons_self, later⟩
      | serverVersion => exact later
      | doing => exact later
      | dot => exact later
      | clearDots => exact later

end

/-- The dots up to a column, one for each four columns. -/
def DottedUpTo (uci column : Nat) : Prop :=
  column % 4 < 2 ∧ column < uci

instance (uci column : Nat) : Decidable (DottedUpTo uci column) :=
  inferInstanceAs (Decidable (_ ∧ _))

section

variable (rom : Nat → UInt8) (stale : UInt32) (texts : BootTexts)

/-- The line of the dots, from what has been drawn in it. -/
def dotsPicture (log : List BootDraw) : Picture :=
  drawn rom stale whiteScreen
    ((log.filter (·.part = .dots)).map (BootDraw.drawing texts))

/-- There are dots up to a column, and the rest of the line is white. -/
structure ShowsDots (log : List BootDraw) (dotted : Nat) : Prop where
  whole : dotted % 4 = 0
  inLine : dotted ≤ 160
  line : ∀ column row, column < 160 → 123 ≤ row → row < 125 →
    dotsPicture rom stale texts log column row =
      if DottedUpTo dotted column then colorRed else colorWight

end

section

variable {rom : Nat → UInt8} {stale : UInt32} {texts : BootTexts}
variable {log : List BootDraw} {uci : UInt8} {dotted column row : Nat}

theorem dotsPicture_append (draws : List BootDraw) :
    dotsPicture rom stale texts (log ++ draws) =
      drawn rom stale (dotsPicture rom stale texts log)
        ((draws.filter (·.part = .dots)).map (BootDraw.drawing texts)) := by
  rw [dotsPicture, List.filter_append, List.map_append, drawn_append]
  rfl

theorem ShowsDots.elsewhere (shows : ShowsDots rom stale texts log dotted)
    {draws : List BootDraw} (others : ∀ draw ∈ draws, draw.part ≠ .dots) :
    ShowsDots rom stale texts (log ++ draws) dotted := by
  have none : draws.filter (·.part = .dots) = [] :=
    List.filter_eq_nil_iff.mpr fun draw member => by
      simpa using others draw member
  refine ⟨shows.whole, shows.inLine, ?_⟩
  intro column row wide above below
  rw [dotsPicture_append, none]
  exact shows.line column row wide above below

theorem dot_over (before : Picture) (room : uci.toNat ≤ 156)
    (above : 123 ≤ row) (below : row < 125) :
    ((BootDraw.dot uci).drawing texts).overlay rom stale before column row =
      if uci.toNat ≤ column ∧ column < uci.toNat + 2 then colorRed
      else before column row := by
  have framed := @frameOver_eq uci.toUInt16 123 2 2 1 colorRed before
    (by rw [UInt8.toNat_toUInt16]; omega) (by decide) (by decide) (by decide)
    (by decide) (by decide)
    (by
      rw [UInt8.toNat_toUInt16]
      change uci.toNat + 2 - 1 < 256
      omega)
    (by decide) column row
  have on : OnFrame uci.toUInt16.toNat 123 2 2 1 column row ↔
      uci.toNat ≤ column ∧ column < uci.toNat + 2 := by
    rw [UInt8.toNat_toUInt16]
    unfold OnFrame Inside
    omega
  refine framed.trans ?_
  exact if_congr on rfl rfl

/-- A dot is drawn over one of the others or behind the last one. -/
theorem ShowsDots.dot (shows : ShowsDots rom stale texts log dotted)
    (whole : uci.toNat % 4 = 0) (behind : uci.toNat ≤ dotted)
    (room : uci.toNat ≤ 156) :
    ShowsDots rom stale texts (log ++ [.dot uci])
      (max dotted (uci.toNat + 4)) := by
  have earlier := shows.whole
  have inLine := shows.inLine
  refine ⟨by omega, by omega, ?_⟩
  intro column row wide above below
  have before := shows.line column row wide above below
  have either : DottedUpTo (max dotted (uci.toNat + 4)) column ↔
      (uci.toNat ≤ column ∧ column < uci.toNat + 2) ∨
        DottedUpTo dotted column := by
    unfold DottedUpTo
    omega
  rw [dotsPicture_append]
  refine (@dot_over rom stale texts uci column row
    (dotsPicture rom stale texts log) room above below).trans ?_
  rw [before]
  simp only [either, ite_or]

theorem showsDots_clear :
    ShowsDots rom stale texts (log ++ [.clearDots]) 0 := by
  refine ⟨rfl, Nat.zero_le _, ?_⟩
  intro column row wide above below
  have framed := @frameOver_eq 0 123 160 2 1 colorWight
    (dotsPicture rom stale texts log) (by decide) (by decide) (by decide)
    (by decide) (by decide) (by decide) (by decide) (by decide) column row
  have on : OnFrame 0 123 160 2 1 column row := by
    unfold OnFrame Inside
    omega
  have none : ¬ DottedUpTo 0 column := fun dotted =>
    Nat.not_lt_zero _ dotted.2
  rw [dotsPicture_append, if_neg none]
  exact framed.trans (if_pos on)

/-- The loop of an exit draws the dots up to the end of the line. -/
theorem ShowsDots.exit (shows : ShowsDots rom stale texts log dotted) :
    ShowsDots rom stale texts (log ++ exitDots) 160 := by
  have partly : ∀ turns ≤ 40, ShowsDots rom stale texts
      (log ++ (List.range turns).map fun turn => .dot (UInt8.ofNat (4 * turn)))
      (max dotted (4 * turns)) := by
    intro turns
    induction turns with
    | zero =>
        intro _
        rw [List.range_zero, List.map_nil, List.append_nil, Nat.mul_zero,
          Nat.max_eq_left (Nat.zero_le _)]
        exact shows
    | succ turns induction =>
        intro within
        have place : (UInt8.ofNat (4 * turns)).toNat = 4 * turns :=
          UInt8.toNat_ofNat_of_lt' (show 4 * turns < 256 by omega)
        have next := @ShowsDots.dot rom stale texts _
          (UInt8.ofNat (4 * turns)) _ (induction (Nat.le_of_succ_le within))
          (by omega) (by omega) (by omega)
        have last : max (max dotted (4 * turns))
            ((UInt8.ofNat (4 * turns)).toNat + 4) =
              max dotted (4 * (turns + 1)) := by
          omega
        rw [last, List.append_assoc] at next
        rw [List.range_succ, List.map_append, List.map_singleton]
        exact next
  have inLine := shows.inLine
  have all := partly 40 (Nat.le_refl 40)
  rwa [Nat.max_eq_right inLine] at all

end

/-- When a status may have been shown. -/
def BootStatus.Announced (screen : BootScreen) : BootStatus → Prop
  | .downloading => screen.downloadShown = true
  | .upgrading => screen.upgradeShown = true
  | _ => screen.download.phase = .left

/-- What holds before and after every step. -/
structure ScreenKeeps (rom : Nat → UInt8) (stale : UInt32)
    (texts : BootTexts) (screen : BootScreen) : Prop where
  percents : ∀ curPt, .progress curPt ∈ screen.log → curPt.toNat < 100
  versions : ∀ ver, .serverVersion ver ∈ screen.log → strlen ver < 65536
  oneVersion : (screen.log.filter (·.part = .upgradedVersion)).length ≤
    screen.downloadShown.toNat
  statuses : (screen.log.filter (·.part = .status)).Nodup
  announced : ∀ status, .doing status ∈ screen.log → status.Announced screen
  dots : .clearDots ∈ screen.log →
    ShowsDots rom stale texts screen.log screen.uci.toNat ∧
      (screen.download.phase ≠ .left → screen.uci < 159)

section

variable {rom : Nat → UInt8} {stale : UInt32} {texts : BootTexts}
variable {screen : BootScreen} {download : Download}

theorem not_dots_doing (status : BootStatus) :
    (BootDraw.doing status).part ≠ .dots := by
  intro same
  cases same

theorem nodup_append_new {before draws : List BootDraw}
    (nodup : before.Nodup) (fresh : draws.Nodup)
    (new : ∀ draw ∈ draws, draw ∉ before) : (before ++ draws).Nodup := by
  apply List.nodup_append.mpr
  refine ⟨nodup, fresh, ?_⟩
  intro draw member other here same
  exact new other here (same ▸ member)

/-- What a step draws keeps the conditions if it keeps them itself. -/
theorem ScreenKeeps.draw (keeps : ScreenKeeps rom stale texts screen)
    (next : BootScreen) (draws : List BootDraw)
    (log : next.log = screen.log ++ draws)
    (percents : ∀ curPt, .progress curPt ∈ draws → curPt.toNat < 100)
    (versions : ∀ ver, .serverVersion ver ∈ draws → strlen ver < 65536)
    (oneVersion : screen.downloadShown.toNat +
        (draws.filter (·.part = .upgradedVersion)).length ≤
      next.downloadShown.toNat)
    (statuses : (draws.filter (·.part = .status)).Nodup)
    (announced : ∀ status : BootStatus, status.Announced screen →
      status.Announced next)
    (fresh : ∀ status, .doing status ∈ draws →
      status.Announced next ∧ ¬ status.Announced screen)
    (dots : .clearDots ∈ screen.log ++ draws →
      ShowsDots rom stale texts (screen.log ++ draws) next.uci.toNat ∧
        (next.download.phase ≠ .left → next.uci < 159)) :
    ScreenKeeps rom stale texts next where
  percents := by
    intro curPt member
    rw [log] at member
    rcases List.mem_append.mp member with before | here
    · exact keeps.percents curPt before
    · exact percents curPt here
  versions := by
    intro ver member
    rw [log] at member
    rcases List.mem_append.mp member with before | here
    · exact keeps.versions ver before
    · exact versions ver here
  oneVersion := by
    have before := keeps.oneVersion
    rw [log, List.filter_append, List.length_append]
    omega
  statuses := by
    rw [log, List.filter_append]
    apply nodup_append_new keeps.statuses statuses
    intro draw here before
    have part := of_decide_eq_true (List.mem_filter.mp here).2
    cases draw with
    | doing status =>
        have new := (fresh status (List.mem_of_mem_filter here)).2
        exact new (keeps.announced status (List.mem_of_mem_filter before))
    | serverVersion => cases part
    | progress => cases part
    | dot => cases part
    | clearDots => cases part
  announced := by
    intro status member
    rw [log] at member
    rcases List.mem_append.mp member with before | here
    · exact announced status (keeps.announced status before)
    · exact (fresh status here).1
  dots := by
    rw [log]
    exact dots

/-- What the conditions are about is the same. -/
theorem ScreenKeeps.moved (keeps : ScreenKeeps rom stale texts screen)
    {next : BootScreen} (log : next.log = screen.log)
    (uci : next.uci = screen.uci)
    (downloadShown : next.downloadShown = screen.downloadShown)
    (upgradeShown : next.upgradeShown = screen.upgradeShown)
    (left : next.download.phase = .left ↔ screen.download.phase = .left) :
    ScreenKeeps rom stale texts next := by
  refine keeps.draw _ [] (log.trans (List.append_nil _).symm) ?_ ?_
    (Nat.le_of_eq (congrArg Bool.toNat downloadShown).symm) List.nodup_nil
    ?_ ?_ ?_
  · intro curPt member
    cases member
  · intro ver member
    cases member
  · intro status announced
    cases status with
    | downloading => exact downloadShown.trans announced
    | upgrading => exact upgradeShown.trans announced
    | isTheLatestVersion => exact left.mpr announced
    | updateSuccessed => exact left.mpr announced
    | timeoutRestart => exact left.mpr announced
  · intro status member
    cases member
  · intro cleared
    rw [List.append_nil] at cleared ⊢
    rw [uci]
    obtain ⟨shows, inside⟩ := keeps.dots cleared
    exact ⟨shows, fun stays => inside (left.not.mp stays)⟩

theorem mem_exitDots {draw : BootDraw} (member : draw ∈ exitDots) :
    ∃ uci, draw = .dot uci := by
  obtain ⟨turn, _, rfl⟩ := List.mem_map.mp member
  exact ⟨_, rfl⟩

/-- An exit shows its text for the first time and fills the line of dots. -/
theorem ScreenKeeps.leave (keeps : ScreenKeeps rom stale texts screen)
    (inside : screen.download.phase ≠ .left)
    (outside : download.phase = .left) {status : BootStatus}
    (exits : ∀ screen, status.Announced screen ↔
      screen.download.phase = .left) :
    ScreenKeeps rom stale texts
      { screen.leave status with download := download } := by
  have listed {draw : BootDraw} (member : draw ∈ .doing status :: exitDots) :
      draw = .doing status ∨ ∃ uci, draw = .dot uci :=
    (List.mem_cons.mp member).imp_right mem_exitDots
  refine keeps.draw _ (.doing status :: exitDots) rfl ?_ ?_ (Nat.le_refl _)
    (List.pairwise_singleton _ (BootDraw.doing status)) ?_ ?_ ?_
  · intro curPt member
    rcases listed member with text | ⟨uci, dot⟩
    · cases text
    · cases dot
  · intro ver member
    rcases listed member with text | ⟨uci, dot⟩
    · cases text
    · cases dot
  · intro other announced
    cases other with
    | downloading => exact announced
    | upgrading => exact announced
    | isTheLatestVersion => exact outside
    | updateSuccessed => exact outside
    | timeoutRestart => exact outside
  · intro other member
    rcases listed member with text | ⟨uci, dot⟩
    · cases text
      exact ⟨(exits _).mpr outside, (exits screen).not.mpr inside⟩
    · cases dot
  · intro cleared
    have before : .clearDots ∈ screen.log := by
      rcases List.mem_append.mp cleared with before | added
      · exact before
      · rcases listed added with text | ⟨uci, dot⟩
        · cases text
        · cases dot
    have texted := (keeps.dots before).1.elsewhere
      (List.forall_mem_singleton.mpr (not_dots_doing status))
    have filled := texted.exit
    rw [List.append_assoc] at filled
    exact ⟨filled, fun stays => absurd outside stays⟩

theorem ScreenKeeps.elsewhere (keeps : ScreenKeeps rom stale texts screen)
    {draws : List BootDraw} (others : ∀ draw ∈ draws, draw.part ≠ .dots)
    (cleared : .clearDots ∈ screen.log ++ draws) :
    ShowsDots rom stale texts (screen.log ++ draws) screen.uci.toNat ∧
      (screen.download.phase ≠ .left → screen.uci < 159) := by
  have before : .clearDots ∈ screen.log := by
    rcases List.mem_append.mp cleared with before | added
    · exact before
    · exact absurd rfl (others _ added)
  obtain ⟨shows, inside⟩ := keeps.dots before
  exact ⟨shows.elsewhere others, inside⟩

theorem ScreenKeeps.downloading (keeps : ScreenKeeps rom stale texts screen)
    (new : screen.downloadShown = false) {ver : List UInt8}
    (short : strlen ver < 65536) :
    ScreenKeeps rom stale texts
      { screen.draw [.serverVersion ver, .doing .downloading] with
        downloadShown := true } := by
  refine keeps.draw _ [.serverVersion ver, .doing .downloading] rfl ?_ ?_ ?_
    (List.pairwise_singleton _ (BootDraw.doing .downloading)) ?_ ?_ ?_
  · intro curPt member
    simp at member
  · intro other member
    have same : other = ver := by simpa using member
    rw [same]
    exact short
  · rw [new]
    exact Nat.le_refl 1
  · intro status announced
    cases status with
    | downloading => rfl
    | upgrading => exact announced
    | isTheLatestVersion => exact announced
    | updateSuccessed => exact announced
    | timeoutRestart => exact announced
  · intro status member
    have same : status = .downloading := by simpa using member
    rw [same]
    refine ⟨rfl, ?_⟩
    intro shown
    exact Bool.false_ne_true (new.symm.trans shown)
  · apply keeps.elsewhere
    simp [BootDraw.part]

theorem ScreenKeeps.upgrading (keeps : ScreenKeeps rom stale texts screen)
    (new : screen.upgradeShown = false) :
    ScreenKeeps rom stale texts
      { screen.draw [.doing .upgrading] with upgradeShown := true } := by
  refine keeps.draw _ [.doing .upgrading] rfl ?_ ?_ (Nat.le_refl _)
    (List.pairwise_singleton _ (BootDraw.doing .upgrading)) ?_ ?_ ?_
  · intro curPt member
    simp at member
  · intro other member
    simp at member
  · intro status announced
    cases status with
    | downloading => exact announced
    | upgrading => rfl
    | isTheLatestVersion => exact announced
    | updateSuccessed => exact announced
    | timeoutRestart => exact announced
  · intro status member
    have same : status = .upgrading := by simpa using member
    rw [same]
    refine ⟨rfl, ?_⟩
    intro shown
    exact Bool.false_ne_true (new.symm.trans shown)
  · apply keeps.elsewhere
    simp [BootDraw.part]

theorem ScreenKeeps.bar (keeps : ScreenKeeps rom stale texts screen)
    {curPt : UInt16} (percent : curPt.toNat < 100) :
    ScreenKeeps rom stale texts (screen.bar curPt) := by
  rw [BootScreen.bar]
  split
  case isFalse => exact keeps
  refine keeps.draw _ [.progress curPt] rfl ?_ ?_ (Nat.le_refl _)
    List.nodup_nil ?_ ?_ ?_
  · intro other member
    have same : other = curPt := by simpa using member
    rw [same]
    exact percent
  · intro other member
    simp at member
  · intro status announced
    cases status <;> exact announced
  · intro status member
    simp at member
  · apply keeps.elsewhere
    simp [BootDraw.part]

/-- The end of a turn draws a dot from time to time. -/
theorem ScreenKeeps.count (keeps : ScreenKeeps rom stale texts screen)
    (inside : screen.download.phase ≠ .left) :
    ScreenKeeps rom stale texts screen.count := by
  rw [BootScreen.count]
  split
  next =>
    have dotted : ScreenKeeps rom stale texts
        { screen.draw [.dot screen.uci] with
          ulcnt := 0
          uci := screen.uci + 4 } ∨ 159 ≤ screen.uci + 4 := by
      by_cases ended : 159 ≤ screen.uci + 4
      · exact .inr ended
      · left
        refine keeps.draw _ [.dot screen.uci] rfl ?_ ?_ (Nat.le_refl _)
          List.nodup_nil ?_ ?_ ?_
        · intro curPt member
          simp at member
        · intro ver member
          simp at member
        · intro status announced
          cases status <;> exact announced
        · intro status member
          simp at member
        · intro cleared
          have before : .clearDots ∈ screen.log := by simpa using cleared
          obtain ⟨shows, running⟩ := keeps.dots before
          have whole := shows.whole
          have below : screen.uci.toNat < 159 :=
            UInt8.lt_iff_toNat_lt.mp (running inside)
          have four : (screen.uci + 4).toNat = screen.uci.toNat + 4 := by
            rw [UInt8.toNat_add]
            exact Nat.mod_eq_of_lt (show screen.uci.toNat + 4 < 256 by omega)
          have next := shows.dot whole (Nat.le_refl _) (by omega)
          rw [Nat.max_eq_right (Nat.le_add_right _ 4), ← four] at next
          exact ⟨next, fun _ => UInt8.not_le.mp ended⟩
    dsimp only
    split
    next ended =>
      refine keeps.draw _ [.dot screen.uci, .clearDots]
        (List.append_assoc _ _ _) ?_ ?_ (Nat.le_refl _) List.nodup_nil ?_ ?_ ?_
      · intro curPt member
        simp at member
      · intro ver member
        simp at member
      · intro status announced
        cases status <;> exact announced
      · intro status member
        simp at member
      · intro _
        have cleared := @showsDots_clear rom stale texts
          (screen.log ++ [.dot screen.uci])
        rw [List.append_assoc] at cleared
        have zero : (0 : UInt8) < 159 := by decide
        exact ⟨cleared, fun _ => zero⟩
    next notEnded => exact dotted.resolve_right notEnded
  next =>
    exact keeps.moved rfl rfl rfl rfl Iff.rfl

/-- Only the two exits of the branches are left out. -/
theorem ScreenKeeps.branch (keeps : ScreenKeeps rom stale texts screen)
    (percent : PocDevice → UInt16)
    (notSame : screen.download.boot.pocDevice.status ≠ .verSame)
    (notSuccess :
      screen.download.boot.pocDevice.status ≠ .verDwonloadSuccess) :
    ScreenKeeps rom stale texts (screen.branch percent) := by
  have small (value : UInt16) : (value % 100).toNat < 100 := by
    rw [UInt16.toNat_mod]
    exact Nat.mod_lt _ (by decide)
  rw [BootScreen.branch]
  dsimp only
  split
  next =>
    split
    next => exact keeps
    next new =>
      apply keeps.downloading (Bool.eq_false_iff.mpr new)
      have field : strlen screen.download.boot.pocDevice.serverSoftVer.toList ≤
          32 :=
        Nat.le_trans (List.takeWhile_sublist _).length_le
          (Nat.le_of_eq Vector.length_toList)
      omega
  next same => exact absurd same notSame
  next success => exact absurd success notSuccess
  next =>
    have percentSmall := small (percent screen.download.boot.pocDevice)
    split
    next => exact keeps.bar percentSmall
    next new =>
      exact (keeps.upgrading (Bool.eq_false_iff.mpr new)).bar percentSmall
  next => exact keeps

theorem BootScreen.branch_download (screen : BootScreen)
    (percent : PocDevice → UInt16) :
    (screen.branch percent).download = screen.download := by
  rw [BootScreen.branch]
  dsimp only
  split
  next =>
    split
    next => rfl
    next => rfl
  next => rfl
  next => rfl
  next =>
    rw [BootScreen.bar]
    split
    next =>
      split
      next => rfl
      next => rfl
    next =>
      split
      next => rfl
      next => rfl
  next => rfl

theorem BootScreen.count_download (screen : BootScreen) :
    screen.count.download = screen.download := by
  rw [BootScreen.count]
  dsimp only
  split
  next =>
    split
    next => rfl
    next => rfl
  next => rfl

/-- The branches of a turn. -/
theorem ScreenKeeps.branched (keeps : ScreenKeeps rom stale texts screen)
    (draining : screen.download.phase = .draining)
    (percent : PocDevice → UInt16) :
    ScreenKeeps rom stale texts
      { screen.branch percent with
        download := loopStep screen.download .branch } := by
  have inside : screen.download.phase ≠ .left := by simp [draining]
  by_cases same : screen.download.boot.pocDevice.status = .verSame
  · have leaves : (loopStep screen.download .branch).phase = .left := by
      simp [loopStep, draining, same]
    have exit : screen.branch percent = screen.leave .isTheLatestVersion := by
      rw [BootScreen.branch, same]
    rw [exit]
    exact keeps.leave inside leaves fun _ => Iff.rfl
  · by_cases success :
        screen.download.boot.pocDevice.status = .verDwonloadSuccess
    · have leaves : (loopStep screen.download .branch).phase = .left := by
        simp [loopStep, draining, success]
      have exit : screen.branch percent = screen.leave .updateSuccessed := by
        rw [BootScreen.branch, success]
      rw [exit]
      exact keeps.leave inside leaves fun _ => Iff.rfl
    · have stays : (loopStep screen.download .branch).phase ≠ .left := by
        simp [loopStep, draining, same, success]
      refine (keeps.branch percent same success).moved rfl rfl rfl rfl ?_
      rw [BootScreen.branch_download]
      exact iff_of_false stays inside

/-- The end of a turn. -/
theorem ScreenKeeps.ended (keeps : ScreenKeeps rom stale texts screen)
    (branched : screen.download.phase = .branched) (tick : UInt32) :
    ScreenKeeps rom stale texts
      { (if screen.download.boot.pocDevice.status ≠ .verUpgrade ∧
            tick > 300000 then screen.leave .timeoutRestart
          else screen.count) with
        download := loopStep screen.download (.timeout tick) } := by
  have inside : screen.download.phase ≠ .left := by simp [branched]
  by_cases late : screen.download.boot.pocDevice.status ≠ .verUpgrade ∧
      tick > 300000
  · have leaves : (loopStep screen.download (.timeout tick)).phase = .left := by
      simp only [loopStep, if_pos branched, if_pos late]
    rw [if_pos late]
    exact keeps.leave inside leaves fun _ => Iff.rfl
  · have stays : (loopStep screen.download (.timeout tick)).phase ≠ .left := by
      simp only [loopStep, if_pos branched, if_neg late]
      decide
    rw [if_neg late]
    refine (keeps.count inside).moved rfl rfl rfl rfl ?_
    rw [BootScreen.count_download]
    exact iff_of_false stays inside

theorem ScreenKeeps.step (keeps : ScreenKeeps rom stale texts screen)
    (percent : PocDevice → UInt16) (event : LoopEvent) :
    ScreenKeeps rom stale texts (screen.step percent event) := by
  cases event with
  | poll tick =>
      refine keeps.moved rfl rfl rfl rfl ?_
      simp only [BootScreen.step, loopStep]
      split
      next polling => simp [polling]
      next => exact Iff.rfl
  | receive ptr =>
      refine keeps.moved rfl rfl rfl rfl ?_
      simp only [BootScreen.step, loopStep]
      split
      next => exact Iff.rfl
      next => exact Iff.rfl
  | branch =>
      simp only [BootScreen.step]
      split
      next draining => exact keeps.branched draining percent
      next other =>
        refine keeps.moved rfl rfl rfl rfl ?_
        simp only [loopStep, if_neg other]
  | timeout tick =>
      simp only [BootScreen.step]
      split
      next branched => exact keeps.ended branched tick
      next other =>
        refine keeps.moved rfl rfl rfl rfl ?_
        simp only [loopStep, if_neg other]

theorem screenKeeps_start (download : Download) (uci : UInt8) :
    ScreenKeeps rom stale texts (.start download uci) where
  percents := by
    intro curPt member
    cases member
  versions := by
    intro ver member
    cases member
  oneVersion := Nat.le_refl 0
  statuses := List.nodup_nil
  announced := by
    intro status member
    cases member
  dots := by
    intro cleared
    cases cleared

end

/-- The counter of a text can run through each of the texts. -/
def BootTexts.Short (texts : BootTexts) : Prop :=
  ∀ text ∈ [texts.mcuUpgrade, texts.noteDoNotPowerOff, texts.thisVersion,
    texts.upgradedVersion, texts.upgrading, texts.downloading,
    texts.updateSuccessed, texts.isTheLatestVersion, texts.timeoutRestart],
    strlen text < 65536

instance (texts : BootTexts) : Decidable texts.Short :=
  inferInstanceAs (Decidable (∀ text ∈ _, strlen text < 65536))

theorem language_short (language : Language) : language.texts.Short := by
  cases language with
  | chinese => decide
  | english => decide

section

variable {rom : Nat → UInt8} {stale : UInt32} {texts : BootTexts}

theorem BootTexts.Short.status (short : texts.Short) (status : BootStatus) :
    strlen (status.text texts) < 65536 := by
  apply short
  cases status <;> simp [BootStatus.text]

theorem bootDrawings_proper (short : texts.Short) {ver : List UInt8}
    (shortVer : strlen ver < 65536) {log : List BootDraw}
    (versions : ∀ ver, .serverVersion ver ∈ log → strlen ver < 65536) :
    ∀ drawing ∈ bootDrawings texts ver log, drawing.Proper := by
  intro drawing member
  rcases List.mem_append.mp member with initial | logged
  · simp only [bootUiInit, List.mem_cons, List.not_mem_nil, or_false]
      at initial
    rcases initial with rfl | rfl | rfl | rfl | rfl | rfl | rfl | rfl
    · trivial
    · trivial
    · exact ⟨by decide, short _ (by simp)⟩
    · exact ⟨by decide, short _ (by simp)⟩
    · exact ⟨by decide, shortVer⟩
    · exact ⟨by decide, short _ (by simp)⟩
    · trivial
    · exact ⟨by decide, short _ (by simp)⟩
  · obtain ⟨draw, listed, rfl⟩ := List.mem_map.mp logged
    cases draw with
    | serverVersion ver => exact ⟨by decide, versions ver listed⟩
    | doing status => exact ⟨by decide, short.status status⟩
    | progress => trivial
    | dot => trivial
    | clearDots => trivial

/-- The screen after what has been drawn. -/
structure BootShown (rom : Nat → UInt8) (stale : UInt32) (texts : BootTexts)
    (ver : List UInt8) (screen : BootScreen) (cells : Picture) : Prop where
  /-- Each part looks as if the others were not there. -/
  parts : ∀ part column row, column < 160 →
    part.top ≤ row ∧ row < part.bottom →
      cells column row =
        partPicture texts ver screen.log rom stale part column row
  between : ∀ column row, column < 160 → row < 128 →
    (∀ part : BootPart, row < part.top ∨ part.bottom ≤ row) →
      cells column row = colorWight
  /-- The server's version and each text are drawn once at most. -/
  oneVersion : (screen.log.filter (·.part = .upgradedVersion)).length ≤ 1
  statuses : (screen.log.filter (·.part = .status)).Nodup
  bar : ∀ column row, column < 160 → 75 ≤ row ∧ row < 91 →
    cells column row =
      if Inside 31 76 (barWidth screen.log) 14 column row ∨
          OnFrame 30 75 101 16 1 column row then colorBlue
      else colorWight
  /-- The bar does not reach its frame on the right. -/
  barInside : barWidth screen.log < 100
  dots : .clearDots ∈ screen.log →
    ∀ column row, column < 160 → 123 ≤ row ∧ row < 125 →
      cells column row =
        if DottedUpTo screen.uci.toNat column then colorRed else colorWight

theorem ScreenKeeps.shown {screen : BootScreen}
    (keeps : ScreenKeeps rom stale texts screen) (short : texts.Short)
    {ver : List UInt8} (shortVer : strlen ver < 65536) (lcd : Lcd) :
    BootShown rom stale texts ver screen
      (run lcdStep lcd ((bootDrawings texts ver screen.log).flatMap
        (Drawing.steps rom stale))).panel.cells := by
  rw [run_drawings rom stale
    (bootDrawings_proper short shortVer keeps.versions) lcd]
  have part (part : BootPart) (column row : Nat) (wide : column < 160)
      (inside : part.top ≤ row ∧ row < part.bottom) :=
    @drawn_part rom stale texts ver screen.log column row lcd.panel.cells part
      wide inside
  constructor
  · exact part
  · intro column row wide high outside
    exact drawn_between lcd.panel.cells wide high outside
  · exact Nat.le_trans keeps.oneVersion (Bool.toNat_le _)
  · exact keeps.statuses
  · intro column row wide inside
    rw [part .progress column row wide inside]
    exact progress_shown keeps.percents
  · exact barWidth_lt keeps.percents
  · intro cleared column row wide inside
    rw [part .dots column row wide inside, partPicture_eq]
    exact (keeps.dots cleared).1.line column row wide inside.1 inside.2

end

/-- In every run of the download loop, whatever the display was doing before
and whatever the percentages are cut to, the screen shows what the loop has
drawn: no part of it is painted over by another, the bar grows in its frame,
and the dots run along their line once it has been cleared. -/
theorem bootScreen_shown (rom : Nat → UInt8) (stale : UInt32)
    (language : Language) (mem : Mem) (pastCfg : List UInt8) (uci : UInt8)
    (percent : PocDevice → UInt16) (lcd : Lcd)
    (short : strlen (bootVersion mem pastCfg) < 65536)
    (events : List LoopEvent) :
    let screen := run (BootScreen.step percent)
      (.start (bootTask mem pastCfg) uci) events
    BootShown rom stale language.texts (bootVersion mem pastCfg) screen
      (run lcdStep lcd
        ((bootDrawings language.texts (bootVersion mem pastCfg)
          screen.log).flatMap (Drawing.steps rom stale))).panel.cells := by
  intro screen
  have keeps : ScreenKeeps rom stale language.texts screen :=
    run_invariant (screenKeeps_start (bootTask mem pastCfg) uci)
      (fun _ event keeps => keeps.step percent event) events
  exact keeps.shown (language_short language) short lcd

theorem bootVersion_strlen (mem : Mem) (pastCfg : List UInt8) :
    strlen (bootVersion mem pastCfg) ≤ 32 + pastCfg.length := by
  have cut : strlen (bootVersion mem pastCfg) ≤
      (bootVersion mem pastCfg).length :=
    (List.takeWhile_sublist _).length_le
  rw [bootVersion, List.length_append, Vector.length_toList] at cut
  exact cut

/-- Two packets are announced, half of them are said to be there, the module
logs in again and nothing comes any more. -/
def drawingEvents : List LoopEvent :=
  turn 0 [ascii "+POC:43020002"] ++ [.branch, .timeout 0] ++
    turn 0 [ascii "+POC:8202"] ++ [.branch, .timeout 300001]

def drawnScreen : BootScreen :=
  run (BootScreen.step fun _ => 50) (.start (bootTask (fun _ => 0xFF) []) 0)
    drawingEvents

set_option maxRecDepth 4000 in
theorem drawnScreen_log :
    drawnScreen.log =
      [.doing .upgrading, .progress 50, .doing .timeoutRestart] ++ exitDots :=
  rfl

/-- The bar and the dots are drawn, and shown. -/
theorem bootScreen_shown_dots :
    drawnScreen.log =
        [.doing .upgrading, .progress 50, .doing .timeoutRestart] ++
          exitDots ∧
      BootShown (fun _ => 0) 0 Language.chinese.texts
        (bootVersion (fun _ => 0xFF) []) drawnScreen
        (run lcdStep .blank
          ((bootDrawings Language.chinese.texts
            (bootVersion (fun _ => 0xFF) []) drawnScreen.log).flatMap
              (Drawing.steps (fun _ => 0) 0))).panel.cells := by
  refine ⟨drawnScreen_log, ?_⟩
  unfold drawnScreen
  exact bootScreen_shown (fun _ => 0) 0 .chinese (fun _ => 0xFF) [] 0
    (fun _ => 50) .blank
    (Nat.lt_of_le_of_lt (bootVersion_strlen _ []) (by decide)) drawingEvents

end Tp79Boot
