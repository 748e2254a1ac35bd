import Tp79Boot.Application.Task

/-!
# Idle menus

A menu that nobody uses is left by one of two timeouts.  The first one tests
the status of the module where the second one tests the call status, so it only
works while the module starts or has no SIM card.
-/

namespace Tp79Boot

/-- From the main menu to the last of its six menus. -/
def AppStatus.IsMenu (status : AppStatus) : Prop :=
  AppStatus.menuSetMain.ctorIdx ≤ status.ctorIdx ∧
    status.ctorIdx ≤ AppStatus.setSubmenu1_6.ctorIdx

instance (status : AppStatus) : Decidable status.IsMenu :=
  inferInstanceAs (Decidable (_ ∧ _))

/-- A menu is open and has not been used for 20 seconds, there is no call, and
the battery is not empty. -/
structure IdleMenu (app : Application) (call : AppCall) : Prop where
  menu : app.status.IsMenu
  noKey : call.keyValue = keyValueNone
  idle : 20000 < app.changeTimer call.sysTickCnt
  noCall : app.pocPara.callStatus = .callNomal ∨
    app.pocPara.callStatus = .callExit
  noTalker : app.pocPara.talkerId = 0
  powered : 2900 ≤ call.adcValue.toNat

/-- Ending a talk does not change what the timeouts look at. -/
def StopKeeps (calls : PocCalls) : Prop :=
  ∀ para, (calls.pocTalk .pocPttTalkStop para).status = para.status ∧
    (calls.pocTalk .pocPttTalkStop para).callStatus = para.callStatus ∧
    (calls.pocTalk .pocPttTalkStop para).talkerId = para.talkerId

/-- Everything the timeouts look at is as it was. -/
structure SameScreen (app next : Application) : Prop where
  menu : next.menu = app.menu
  cfg : next.cfg = app.cfg
  status : next.pocPara.status = app.pocPara.status
  callStatus : next.pocPara.callStatus = app.pocPara.callStatus
  talkerId : next.pocPara.talkerId = app.pocPara.talkerId

variable {calls : PocCalls} {call : AppCall} {app next : Application}

theorem screenTask_idle (menu : app.status.IsMenu)
    (noKey : call.keyValue = keyValueNone) :
    screenTask calls call app = some app := by
  have quiet (effect : Application → Application) :
      onKey call app effect = app := if_neg (not_not.mpr noKey)
  unfold screenTask
  revert menu
  cases app.status <;>
  · intro menu
    first
      | exact congrArg some (quiet _)
      | exact absurd menu (by decide)

theorem batCheck_powered (powered : 2900 ≤ call.adcValue.toNat) :
    SameScreen app (batCheck calls call app) := by
  unfold batCheck
  simp only [appBatCheckTask_powered powered, Bool.false_eq_true, if_false]
  exact ⟨rfl, rfl, rfl, rfl, rfl⟩

/-- Without a key the task can only end a talk. -/
theorem appPttTalkTask_quiet {talk : PttTalk} {talkCall : TalkCall}
    (noKey : talkCall.keyValue = keyValueNone) (none : talk.actions = []) :
    (appPttTalkTask talk talkCall).actions = [] ∨
      (appPttTalkTask talk talkCall).actions = [.pocPttTalkStop] := by
  have notDown : talkCall.keyValue ≠ keyFunPttDown := by
    rw [noKey]
    decide
  have notUp : talkCall.keyValue ≠ keyFunPttUp := by
    rw [noKey]
    decide
  have turned : (talkerTurn talkCall talk).actions = [] := by
    unfold talkerTurn
    split
    · split
      · split
        · exact none
        · exact none
      · exact none
    · exact none
  have pressed : (talkKey talkCall (talkerTurn talkCall talk)).actions = [] := by
    unfold talkKey
    rw [if_neg notDown, if_neg (fun up => notUp up.1)]
    exact turned
  have limited (talk : PttTalk) :
      (talkLimit talkCall talk).actions = talk.actions := by
    unfold talkLimit
    split
    · rfl
    · rfl
  rw [appPttTalkTask, limited]
  unfold talkStops
  split
  · exact .inr (by rw [pressed, List.nil_append])
  · exact .inl pressed

theorem pttTask_quiet (stopKeeps : StopKeeps calls)
    (noKey : call.keyValue = keyValueNone) :
    SameScreen app (pttTask calls call app) := by
  rcases @appPttTalkTask_quiet { app.talk with actions := [] }
      { keyValue := call.keyValue
        sysTickCnt := call.sysTickCnt
        talkerId := app.pocPara.talkerId
        talkerPriority := app.pocPara.talkerPriority
        status := app.pocPara.status
        appStatus := app.status } noKey rfl with silent | stops
  · simp only [pttTask, silent, List.foldl_nil]
    exact ⟨rfl, rfl, rfl, rfl, rfl⟩
  · obtain ⟨status, callStatus, talkerId⟩ := stopKeeps app.pocPara
    simp only [pttTask, stops, List.foldl_cons, List.foldl_nil, talkAction]
    exact ⟨rfl, rfl, status, callStatus, talkerId⟩

theorem keyWake_quiet (noKey : call.keyValue = keyValueNone) :
    keyWake call app = app :=
  if_neg fun woken => woken.1 noKey

theorem homeKey_quiet (noKey : call.keyValue = keyValueNone) :
    homeKey call app = app := by
  apply if_neg
  rintro ⟨_, home⟩
  rw [noKey] at home
  exact absurd home (by decide)

theorem incomingCall_quiet
    (noCall : app.pocPara.callStatus = .callNomal ∨
      app.pocPara.callStatus = .callExit) : incomingCall call app = app := by
  apply if_neg
  rintro ⟨_, _, called, _⟩
  rcases noCall with normal | exit
  · exact nomatch normal.symm.trans called
  · exact nomatch exit.symm.trans called

theorem moduleReadsIdle_iff (status : PocStatus) :
    moduleReadsIdle status = true ↔
      status = .statusStarting ∨ status = .statusSimError := by
  cases status <;> decide

theorem idleFallback_pocPara :
    (idleFallback call app).pocPara = app.pocPara := by
  unfold idleFallback
  split
  · rfl
  · rfl

theorem autoLock_pocPara : (autoLock call app).pocPara = app.pocPara := by
  unfold autoLock
  split
  · rfl
  · rfl

theorem applicationTask_idle (stopKeeps : StopKeeps calls)
    (idle : IdleMenu app call) :
    ∃ shown, SameScreen app shown ∧
      applicationTask calls call app =
        some (autoLock call (idleFallback call shown)) := by
  have powered := @batCheck_powered calls call app idle.powered
  have talked := @pttTask_quiet calls call (batCheck calls call app) stopKeeps
    idle.noKey
  refine ⟨pttTask calls call (batCheck calls call app), ?_, ?_⟩
  · exact ⟨talked.menu.trans powered.menu, talked.cfg.trans powered.cfg,
      talked.status.trans powered.status,
      talked.callStatus.trans powered.callStatus,
      talked.talkerId.trans powered.talkerId⟩
  · have noCall : (autoLock call (idleFallback call (pttTask calls call
          (batCheck calls call app)))).pocPara.callStatus = .callNomal ∨
        (autoLock call (idleFallback call (pttTask calls call
          (batCheck calls call app)))).pocPara.callStatus = .callExit := by
      rw [autoLock_pocPara, idleFallback_pocPara, talked.callStatus,
        powered.callStatus]
      exact idle.noCall
    simp only [applicationTask, screenTask_idle idle.menu idle.noKey,
      keyWake_quiet idle.noKey, homeKey_quiet idle.noKey,
      incomingCall_quiet noCall]

theorem autoLock_after_change (state : AppStatus) :
    autoLock call (app.change call.sysTickCnt state) =
      app.change call.sysTickCnt state := by
  have elapsed : (app.change call.sysTickCnt state).changeTimer
      call.sysTickCnt = 0 := by
    unfold Application.changeTimer Application.change MenuState.change
    exact UInt32.sub_self call.sysTickCnt
  apply if_neg
  rintro ⟨late, _⟩
  rw [elapsed] at late
  exact absurd late (UInt32.not_lt_zero)

/-- One of the two timeouts fires. -/
theorem timeouts_leave_iff (late : 20000 < app.changeTimer call.sysTickCnt)
    (pastMain : AppStatus.workingMain.ctorIdx < app.status.ctorIdx)
    (noCall : app.pocPara.callStatus = .callNomal ∨
      app.pocPara.callStatus = .callExit)
    (noTalker : app.pocPara.talkerId = 0) :
    (autoLock call (idleFallback call app)).status = .workingMain ∨
        (autoLock call (idleFallback call app)).status = .workingLocked ↔
      moduleReadsIdle app.pocPara.status = true ∨
        app.cfg.lcdSleepTimer < app.changeTimer call.sysTickCnt := by
  have pastLocked :
      AppStatus.workingLocked.ctorIdx ≤ app.status.ctorIdx :=
    Nat.le_trans (by decide) (Nat.le_of_lt pastMain)
  by_cases readsIdle : moduleReadsIdle app.pocPara.status = true
  · have fallen : idleFallback call app =
        app.change call.sysTickCnt .workingMain :=
      if_pos ⟨late, pastMain, readsIdle, noTalker⟩
    rw [fallen, autoLock_after_change]
    exact iff_of_true (.inl rfl) (.inl readsIdle)
  · have kept : idleFallback call app = app :=
      if_neg fun fires => readsIdle fires.2.2.1
    rw [kept]
    by_cases timeout :
        app.cfg.lcdSleepTimer < app.changeTimer call.sysTickCnt
    · have locked : autoLock call app =
          app.change call.sysTickCnt .workingLocked :=
        if_pos ⟨timeout, pastLocked, noCall, noTalker⟩
      rw [locked]
      exact iff_of_true (.inr rfl) (.inr timeout)
    · have open_ : autoLock call app = app :=
        if_neg fun fires => timeout fires.1
      rw [open_]
      refine iff_of_false ?_ (fun fires => fires.elim readsIdle timeout)
      rintro (main | locked)
      · rw [main] at pastMain
        exact Nat.lt_irrefl _ pastMain
      · rw [locked] at pastMain
        exact absurd pastMain (by decide)

/-- The menu is left exactly when the status of the module is one of the two
whose numbers stand for no call, or the display timeout has passed. -/
theorem idle_falls_back_iff (stopKeeps : StopKeeps calls)
    (idle : IdleMenu app call) :
    (∃ next, applicationTask calls call app = some next ∧
        (next.status = .workingMain ∨ next.status = .workingLocked)) ↔
      app.pocPara.status = .statusStarting ∨
        app.pocPara.status = .statusSimError ∨
        app.cfg.lcdSleepTimer < app.changeTimer call.sysTickCnt := by
  obtain ⟨shown, same, result⟩ := applicationTask_idle stopKeeps idle
  have screen : shown.status = app.status :=
    congrArg (fun menu : MenuState => menu.appDevice.status) same.menu
  have elapsed : shown.changeTimer call.sysTickCnt =
      app.changeTimer call.sysTickCnt :=
    congrArg (fun menu : MenuState =>
      call.sysTickCnt - menu.appDevice.changeTime) same.menu
  have late : 20000 < shown.changeTimer call.sysTickCnt := by
    rw [elapsed]
    exact idle.idle
  have pastMain : AppStatus.workingMain.ctorIdx < shown.status.ctorIdx := by
    rw [screen]
    exact idle.menu.1
  have noCall : shown.pocPara.callStatus = .callNomal ∨
      shown.pocPara.callStatus = .callExit := by
    rw [same.callStatus]
    exact idle.noCall
  have noTalker : shown.pocPara.talkerId = 0 :=
    same.talkerId.trans idle.noTalker
  rw [← or_assoc, ← moduleReadsIdle_iff, ← same.status, ← same.cfg, ← elapsed,
    ← timeouts_leave_iff late pastMain noCall noTalker, result]
  simp only [Option.some.injEq, exists_eq_left']

/-- Functions that leave everything as it is. -/
def quietCalls : PocCalls :=
  { pocMemberRefresh := id
    pocRefreshGroup := id
    pocGroupSetNew := fun _ => id
    pocCallMember := fun _ => id
    pocCallFriend := fun _ => id
    pocCallLogged := fun _ => id
    pocCallClr := id
    pocShutDown := id
    pocTalk := fun _ => id
    deviceConfigSetDefault := id
    writeCodeTask := id }

theorem quietCalls_stopKeeps : StopKeeps quietCalls :=
  fun _ => ⟨rfl, rfl, rfl⟩

/-- The main menu, opened at tick zero, with the display on for 30 seconds. -/
def openMenu (status : PocStatus) : Application :=
  { menu :=
      { appDevice :=
          { status := .menuSetMain
            menuSelect := 0
            menuLastSelect := 0
            changeTime := 0 }
        sums := [] }
    pocPara :=
      { status := status
        callStatus := .callNomal
        talkerId := 0
        talkerPriority := 0
        groupListSum := 0
        memberOnlineCnt := 0
        memberListId := fun _ => []
        userId := [] }
    cfg :=
      { lcdSleepTimer := 30000
        keySound := 0
        pttSound := 0
        singleCallFlag := 0x31 }
    talk := PttTalk.start
    battery := Battery.start }

/-- Nobody presses a key at this tick. -/
def idleCall (sysTickCnt : UInt32) : AppCall :=
  { keyValue := keyValueNone
    keyValueNum := 0
    sysTickCnt := sysTickCnt
    adcValue := 3700
    friendReadCnt := 0
    callLogReadCnt := 0 }

theorem openMenu_idle (status : PocStatus) :
    IdleMenu (openMenu status) (idleCall 20001) :=
  ⟨show AppStatus.menuSetMain.IsMenu by decide, rfl,
    show (20000 : UInt32) < 20001 - 0 by decide, .inl rfl, rfl, by decide⟩

/-- Without a SIM card the menu is left. -/
theorem idle_falls_back_noSim :
    ∃ next, applicationTask quietCalls (idleCall 20001)
        (openMenu .statusSimError) = some next ∧
      (next.status = .workingMain ∨ next.status = .workingLocked) :=
  (idle_falls_back_iff quietCalls_stopKeeps
    (openMenu_idle .statusSimError)).mpr (.inr (.inl rfl))

/-- A radio that is logged in stays in the menu. -/
theorem idle_menu_stays :
    ¬∀ (calls : PocCalls) (app : Application) (call : AppCall),
      StopKeeps calls → IdleMenu app call →
      ∃ next, applicationTask calls call app = some next ∧
        (next.status = .workingMain ∨ next.status = .workingLocked) := by
  intro leaves
  obtain ⟨next, returned, left⟩ := leaves quietCalls
    (openMenu .statusLandSuccessed) (idleCall 20001) quietCalls_stopKeeps
    (openMenu_idle .statusLandSuccessed)
  have stays : (applicationTask quietCalls (idleCall 20001)
      (openMenu .statusLandSuccessed)).map Application.status =
        some .menuSetMain := by decide
  rw [returned] at stays
  have screen : next.status = .menuSetMain := Option.some.inj stays
  rw [screen] at left
  exact absurd left (by decide)

end Tp79Boot
