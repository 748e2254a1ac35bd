import Tp79Boot.Application.Idle
import Tp79Boot.Application.Screens
import Tp79Boot.Application.TalkTime

/-!
# Runs of the application

The application from `application_init` on.  Between two calls the other tasks
may change the radio and the configuration in any way.  In every run the
selection of a menu of a fixed size is one of its choices, the menu of one
entry is about the entry that was selected when it was opened, and the working
screens are first seen when the radio has logged in or somebody calls.
-/

namespace Tp79Boot

open EventRun

/-- What the other tasks leave, and what the next call finds. -/
structure AppTurn where
  pocPara : PocPara
  cfg : AppCfg
  call : AppCall

def Application.start (pocPara : PocPara) (cfg : AppCfg) : Application :=
  { menu :=
      { appDevice :=
          { status := .normal
            menuSelect := 0
            menuLastSelect := 0
            changeTime := 0 }
        sums := [] }
    pocPara := pocPara
    cfg := cfg
    talk := .start
    battery := .start }

/-- A call that does not return ends the run. -/
def appTurn (calls : PocCalls) (app : Option Application) (turn : AppTurn) :
    Option Application :=
  app.bind fun app =>
    applicationTask calls turn.call
      { app with pocPara := turn.pocPara, cfg := turn.cfg }

/-- Back to the main screen or to the lock screen, if at all. -/
def Fallen (app next : Application) : Prop :=
  app.SameSelection next ∨
    app.status.pastSearch = true ∧ next.menu.menuSelect = 0 ∧
      (next.status = .workingMain ∨ next.status = .workingLocked)

/-- An incoming call is shown, if there is one. -/
def Called (app next : Application) : Prop :=
  app.SameSelection next ∨
    next.menu.menuSelect = 0 ∧ next.status = .beCalled ∧
      next.pocPara.callStatus = .beCalled ∧ next.cfg.singleCallFlag = 0x31

section

variable {calls : PocCalls} {call : AppCall} {app next last : Application}

namespace Application.SameSelection

protected theorem refl : app.SameSelection app :=
  ⟨rfl, rfl, rfl⟩

protected theorem trans (first : app.SameSelection next)
    (second : next.SameSelection last) : app.SameSelection last :=
  ⟨second.status.trans first.status, second.select.trans first.select,
    second.last.trans first.last⟩

end Application.SameSelection

namespace Fallen

protected theorem refl : Fallen app app :=
  .inl .refl

theorem past (fallen : Fallen app next)
    (later : next.status.pastSearch = true) :
    app.status.pastSearch = true := by
  rcases fallen with same | ⟨past, _⟩
  · rwa [same.status] at later
  · exact past

protected theorem trans (first : Fallen app next)
    (second : Fallen next last) : Fallen app last := by
  rcases second with same | ⟨later, select, status⟩
  · rcases first with earlier | ⟨past, select, status⟩
    · exact .inl (earlier.trans same)
    · right
      rw [same.select, same.status]
      exact ⟨past, select, status⟩
  · exact .inr ⟨first.past later, select, status⟩

theorem branch {condition : Prop} [Decidable condition]
    {sysTickCnt : UInt32} {state : AppStatus}
    (past : condition → app.status.pastSearch = true)
    (fallback : state = .workingMain ∨ state = .workingLocked) :
    Fallen app (if condition then app.change sysTickCnt state else app) := by
  split
  next holds => exact .inr ⟨past holds, rfl, fallback⟩
  next => exact .refl

end Fallen

theorem pastSearch_of_le {status other : AppStatus}
    (later : status.ctorIdx ≤ other.ctorIdx)
    (past : status.pastSearch = true) : other.pastSearch = true := by
  simp only [AppStatus.pastSearch, decide_eq_true_eq] at past ⊢
  exact Nat.lt_of_lt_of_le past later

theorem TalkCall.mayTalk_past {talkCall : TalkCall}
    (mayTalk : talkCall.mayTalk = true) :
    talkCall.appStatus.pastSearch = true := by
  rw [TalkCall.mayTalk, Bool.and_eq_true] at mayTalk
  exact mayTalk.2

/-- The talk key only asks for the main screen, and only past the search. -/
theorem talkKey_state {talk : PttTalk} {talkCall : TalkCall}
    (none : talk.actions = []) {state : AppStatus}
    (asked : .applicationStateChange state ∈
      (talkKey talkCall talk).actions) :
    talkCall.appStatus.pastSearch = true ∧ state = .workingMain := by
  have silent : TalkAction.applicationStateChange state ∉ talk.actions := by
    rw [none]
    exact List.not_mem_nil
  unfold talkKey at asked
  split at asked
  · split at asked
    · split at asked
      next mayTalk =>
        split at asked
        · refine ⟨TalkCall.mayTalk_past mayTalk, ?_⟩
          simp only [talkOpens, none, List.nil_append, List.mem_append,
            List.mem_ite_nil_right, List.mem_singleton, reduceCtorEq,
            and_false, or_false, false_or,
            TalkAction.applicationStateChange.injEq] at asked
          exact asked.2
        · simp [none] at asked
      next => exact absurd asked silent
    · split at asked
      · simp [none] at asked
      · exact absurd asked silent
  · split at asked
    · exact absurd asked silent
    · exact absurd asked silent

theorem appPttTalkTask_state {talk : PttTalk} {talkCall : TalkCall}
    (none : talk.actions = []) {state : AppStatus}
    (asked : .applicationStateChange state ∈
      (appPttTalkTask talk talkCall).actions) :
    talkCall.appStatus.pastSearch = true ∧ state = .workingMain := by
  have silent := (talkerTurn_actions talkCall talk).trans none
  rw [appPttTalkTask, talkLimit_actions] at asked
  unfold talkStops at asked
  split at asked
  · rcases List.mem_append.mp asked with keyed | stop
    · exact talkKey_state silent keyed
    · cases List.mem_singleton.mp stop
  · exact talkKey_state silent asked

theorem batCheck_shuts :
    app.SameSelection (batCheck calls call app) ∨
      (batCheck calls call app).status = .deviceShutdown ∧
        (batCheck calls call app).menu.menuSelect = 0 := by
  unfold batCheck
  simp only
  split
  · exact .inr ⟨rfl, rfl⟩
  · exact .inl ⟨rfl, rfl, rfl⟩

theorem pttTask_fallen : Fallen app (pttTask calls call app) := by
  have each : ∀ actions : List TalkAction, (∀ state,
      .applicationStateChange state ∈ actions →
        app.status.pastSearch = true ∧ state = .workingMain) →
      ∀ shown, Fallen app shown →
        Fallen app (actions.foldl (talkAction calls call) shown) := by
    intro actions
    induction actions with
    | nil => exact fun _ _ fallen => fallen
    | cons action actions induction =>
        intro asked shown fallen
        apply induction
        · intro state member
          exact asked state (List.mem_cons_of_mem action member)
        cases action with
        | applicationStateChange state =>
            obtain ⟨past, rfl⟩ := asked state List.mem_cons_self
            exact .inr ⟨past, rfl, .inl rfl⟩
        | _ => exact fallen.trans (.inl ⟨rfl, rfl, rfl⟩)
  unfold pttTask
  apply each
  · intro state asked
    exact @appPttTalkTask_state _ _ rfl state asked
  · exact .inl ⟨rfl, rfl, rfl⟩

theorem keyWake_fallen : Fallen app (keyWake call app) := by
  unfold keyWake
  split
  · exact .inl ⟨rfl, rfl, rfl⟩
  · exact .refl

theorem idleFallback_fallen : Fallen app (idleFallback call app) := by
  apply Fallen.branch
  · intro idle
    exact pastSearch_of_le (Nat.le_of_lt idle.2.1) rfl
  · exact .inl rfl

theorem autoLock_fallen : Fallen app (autoLock call app) := by
  apply Fallen.branch
  · intro idle
    exact pastSearch_of_le idle.2.1 rfl
  · exact .inr rfl

theorem homeKey_fallen : Fallen app (homeKey call app) := by
  apply Fallen.branch
  · intro home
    exact pastSearch_of_le home.1 rfl
  · exact .inl rfl

theorem incomingCall_called : Called app (incomingCall call app) := by
  unfold incomingCall
  split
  next arrived =>
    exact .inr ⟨rfl, rfl, arrived.2.2.1, arrived.2.2.2⟩
  next => exact .inl .refl

/-- What one call does to the screen. -/
inductive Turned (app next : Application) : Prop where
  | shows (shown : Application) (screen : Shown app shown)
      (same : shown.SameSelection next)
  | shuts (status : next.status = .deviceShutdown)
  | falls (past : app.status.pastSearch = true ∨
        app.pocPara.status = .statusLandSuccessed)
      (select : next.menu.menuSelect = 0)
      (status : next.status = .workingMain ∨ next.status = .workingLocked)
  | called (select : next.menu.menuSelect = 0)
      (status : next.status = .beCalled)
      (arrived : next.pocPara.callStatus = .beCalled ∧
        next.cfg.singleCallFlag = 0x31)

theorem Shown.past (shown : Shown app next)
    (later : next.status.pastSearch = true) :
    app.status.pastSearch = true ∨
      app.pocPara.status = .statusLandSuccessed := by
  cases shown with
  | stays same =>
      rw [same.status] at later
      exact .inl later
  | opens _ _ _ gate => exact gate later
  | moves here =>
      rw [here] at later
      exact .inl later
  | confirms left =>
      simp only [List.mem_cons, List.not_mem_nil, or_false] at left
      left
      rcases left with here | here | here
      · rw [here]
        rfl
      · rw [here]
        rfl
      · rw [here]
        rfl

theorem applicationTask_turned
    (returns : applicationTask calls call app = some next) :
    Turned app next := by
  unfold applicationTask at returns
  split at returns
  · cases returns
  next shown screenReturns =>
    have screen := screenTask_shown screenReturns
    cases returns
    have fallen : Fallen (batCheck calls call shown)
        (homeKey call (autoLock call (idleFallback call (keyWake call
          (pttTask calls call (batCheck calls call shown)))))) :=
      (((pttTask_fallen.trans keyWake_fallen).trans
        idleFallback_fallen).trans autoLock_fallen).trans homeKey_fallen
    rcases @incomingCall_called call (homeKey call (autoLock call
        (idleFallback call (keyWake call (pttTask calls call
          (batCheck calls call shown)))))) with
      unseen | ⟨select, status, arrived⟩
    · rcases @batCheck_shuts calls call shown with powered | ⟨off, _⟩
      · rcases fallen with same | ⟨past, select, status⟩
        · exact .shows shown screen ((powered.trans same).trans unseen)
        · rw [powered.status] at past
          refine .falls (screen.past past) ?_ ?_
          · rw [unseen.select]
            exact select
          · rw [unseen.status]
            exact status
      · rcases fallen with same | ⟨past, _⟩
        · exact .shuts (unseen.status.trans (same.status.trans off))
        · rw [off] at past
          cases past
    · exact .called select status arrived

theorem choices_pos {status : AppStatus} {sum : UInt16}
    (choices : status.choices = some sum) : 0 < sum := by
  cases status <;> cases choices <;> decide

theorem opener_of_leadsTo {status state list : AppStatus}
    (edge : state ∈ status.leadsTo) (menu : state.opener = some list) :
    status = list := by
  cases state <;> cases menu <;> revert edge <;> cases status <;> decide

theorem Shown.inChoices (shown : Shown app next)
    (inside : app.InChoices) : next.InChoices := by
  intro sum choices
  cases shown with
  | stays same =>
      rw [same.status] at choices
      rw [same.select]
      exact inside sum choices
  | opens _ first =>
      rw [first]
      exact choices_pos choices
  | moves _ _ kept => exact kept inside sum choices
  | confirms left back select =>
      rw [back] at choices
      cases choices
      simp only [List.mem_cons, List.not_mem_nil, or_false] at left
      rw [select]
      rcases left with here | here | here
      · exact UInt16.lt_trans (inside 4 (by rw [here]; rfl)) (by decide)
      · exact UInt16.lt_trans (inside 2 (by rw [here]; rfl)) (by decide)
      · exact UInt16.lt_trans (inside 2 (by rw [here]; rfl)) (by decide)

theorem Turned.inChoices (turned : Turned app next)
    (inside : app.InChoices) : next.InChoices := by
  intro sum choices
  cases turned with
  | shows shown screen same =>
      rw [same.status] at choices
      rw [same.select]
      exact screen.inChoices inside sum choices
  | shuts status =>
      rw [status] at choices
      cases choices
  | falls _ select =>
      rw [select]
      exact choices_pos choices
  | called select =>
      rw [select]
      exact choices_pos choices

/-- The menu of one entry has just been opened by its list, or stays. -/
theorem Turned.menu (turned : Turned app next) {list : AppStatus}
    (menu : next.status.opener = some list) :
    app.status = list ∧ next.lastSelect = app.menu.menuSelect ∨
      app.status = next.status ∧ next.lastSelect = app.lastSelect := by
  have elsewhere {state : AppStatus} (status : next.status = state)
      (noList : state.opener = none) : False := by
    rw [status, noList] at menu
    cases menu
  cases turned with
  | shows shown screen same =>
      rw [same.status] at menu ⊢
      rw [same.last]
      cases screen with
      | stays stayed => exact .inr ⟨stayed.status.symm, stayed.last⟩
      | opens edge _ last =>
          have list := opener_of_leadsTo edge menu
          exact .inl ⟨list, last (by rw [list]; exact menu)⟩
      | moves here last => exact .inr ⟨here.symm, last⟩
      | confirms _ back =>
          rw [back] at menu
          cases menu
  | shuts status => exact (elsewhere status rfl).elim
  | falls _ _ status =>
      rcases status with main | locked
      · exact (elsewhere main rfl).elim
      · exact (elsewhere locked rfl).elim
  | called _ status => exact (elsewhere status rfl).elim

/-- Before a working screen there was one, or the radio has logged in, or
somebody calls. -/
theorem Turned.past (turned : Turned app next)
    (later : next.status.pastSearch = true) :
    (app.status.pastSearch = true ∨
        app.pocPara.status = .statusLandSuccessed) ∨
      next.status = .beCalled ∧ next.pocPara.callStatus = .beCalled ∧
        next.cfg.singleCallFlag = 0x31 := by
  cases turned with
  | shows shown screen same =>
      rw [same.status] at later
      exact .inl (screen.past later)
  | shuts status =>
      rw [status] at later
      cases later
  | falls past => exact .inl past
  | called _ status arrived => exact .inr ⟨status, arrived⟩

end

/-- The application after some turns, unless one of them has not returned. -/
def appRun (calls : PocCalls) (pocPara : PocPara) (cfg : AppCfg)
    (turns : List AppTurn) : Option Application :=
  run (appTurn calls) (some (.start pocPara cfg)) turns

section

variable {calls : PocCalls} {pocPara : PocPara} {cfg : AppCfg}
  {turns : List AppTurn} {app : Application}

theorem appRun_concat {turn : AppTurn}
    (runs : appRun calls pocPara cfg (turns ++ [turn]) = some app) :
    ∃ earlier, appRun calls pocPara cfg turns = some earlier ∧
      Turned { earlier with pocPara := turn.pocPara, cfg := turn.cfg } app := by
  rw [appRun, run_concat] at runs
  obtain ⟨earlier, reached, returns⟩ := Option.bind_eq_some_iff.mp runs
  exact ⟨earlier, reached, applicationTask_turned returns⟩

/-- In every run the selection of a menu of a fixed size is one of its
choices. -/
theorem fixed_menus_in_range
    (runs : appRun calls pocPara cfg turns = some app) : app.InChoices := by
  induction turns using List.reverseRecOn generalizing app with
  | nil =>
      cases runs
      exact fun _ choices => nomatch choices
  | append_singleton turns turn induction =>
      obtain ⟨earlier, reached, turned⟩ := appRun_concat runs
      have inside : earlier.InChoices := induction reached
      exact turned.inChoices inside

/-- In every run the menu of one entry is about the entry that was selected in
the list when the menu was opened, and has been open since. -/
theorem menu_of_selected_entry {list : AppStatus}
    (runs : appRun calls pocPara cfg turns = some app)
    (menu : app.status.opener = some list) :
    ∃ before turn after opened, turns = before ++ turn :: after ∧
      appRun calls pocPara cfg before = some opened ∧
      opened.status = list ∧ opened.menu.menuSelect = app.lastSelect ∧
      ∀ middle rest, after = middle ++ rest → ∃ during,
        appRun calls pocPara cfg (before ++ turn :: middle) = some during ∧
          during.status = app.status ∧ during.lastSelect = app.lastSelect := by
  induction turns using List.reverseRecOn generalizing app with
  | nil =>
      cases runs
      cases menu
  | append_singleton turns turn induction =>
      obtain ⟨earlier, reached, turned⟩ := appRun_concat runs
      rcases turned.menu menu with ⟨here, last⟩ | ⟨here, last⟩
      · refine ⟨turns, turn, [], earlier, rfl, reached, here, last.symm, ?_⟩
        intro middle rest equality
        rw [(List.append_eq_nil_iff.mp equality.symm).1]
        exact ⟨app, runs, rfl, rfl⟩
      · obtain ⟨before, opening, after, opened, rfl, first, status, select,
          since⟩ := induction reached (by rw [← menu]; exact congrArg _ here)
        refine ⟨before, opening, after ++ [turn], opened, by simp, first,
          status, select.trans last.symm, ?_⟩
        intro middle rest equality
        rcases List.eq_nil_or_concat rest with rfl | ⟨front, final, rfl⟩
        · rw [List.append_nil] at equality
          rw [← equality]
          exact ⟨app, by simpa using runs, rfl, rfl⟩
        · have cut : after ++ [turn] = (middle ++ front) ++ [final] := by
            simpa using equality
          obtain ⟨during, there, stayed, kept⟩ :=
            since middle front (List.append_inj' cut rfl).1
          exact ⟨during, there, stayed.trans here, kept.trans last.symm⟩

/-- In every run a working screen is only open after the radio has reported
that it is logged in, or after a call has been shown. -/
theorem opened_after_login
    (runs : appRun calls pocPara cfg turns = some app)
    (working : app.status.pastSearch = true) :
    (∃ turn ∈ turns, turn.pocPara.status = .statusLandSuccessed) ∨
      ∃ before after called, turns = before ++ after ∧
        appRun calls pocPara cfg before = some called ∧
        called.status = .beCalled ∧ called.pocPara.callStatus = .beCalled ∧
        called.cfg.singleCallFlag = 0x31 := by
  induction turns using List.reverseRecOn generalizing app with
  | nil =>
      cases runs
      cases working
  | append_singleton turns turn induction =>
      obtain ⟨earlier, reached, turned⟩ := appRun_concat runs
      rcases turned.past working with (past | landed) | called
      · rcases induction reached past with ⟨other, member, landed⟩ |
          ⟨before, after, called, rfl, there⟩
        · exact .inl ⟨other, List.mem_append_left _ member, landed⟩
        · exact .inr ⟨before, after ++ [turn], called, by simp, there⟩
      · exact .inl ⟨turn, by simp, landed⟩
      · exact .inr ⟨turns ++ [turn], [], app, by simp, runs, called⟩

end

def quietRadio (status : PocStatus) : PocPara :=
  (openMenu status).pocPara

def friendCfg : AppCfg :=
  (openMenu .statusLandSuccessed).cfg

/-- A turn with three friends. -/
def friendTurn (status : PocStatus) (keyValue : KeyValue) : AppTurn :=
  { pocPara := quietRadio status
    cfg := friendCfg
    call := { idleCall 2000 with keyValue := keyValue, friendReadCnt := 3 } }

def friendTurns : List AppTurn :=
  [friendTurn .statusStarting keyValueNone,
    friendTurn .statusCheckedOk keyValueNone,
    friendTurn .statusLandSuccessed keyValueNone,
    friendTurn .statusLandSuccessed keyFunLowDown3S,
    friendTurn .statusLandSuccessed keyFunDownDown,
    friendTurn .statusLandSuccessed keyFunRightDown]

def friendApp : Application :=
  { menu :=
      { appDevice :=
          { status := .setSubmenu1_3_1
            menuSelect := 0
            menuLastSelect := 1
            changeTime := 2000 }
        sums := [3] }
    pocPara := quietRadio .statusLandSuccessed
    cfg := friendCfg
    talk := .start
    battery := { curLevel := 9, playTimer := 0xFFFFFFFF, times := 0 } }

theorem friendTurns_run :
    appRun quietCalls (quietRadio .statusStarting) friendCfg friendTurns =
      some friendApp := rfl

theorem fixed_menus_in_range_friend : friendApp.InChoices :=
  fixed_menus_in_range friendTurns_run

theorem menu_of_selected_entry_friend :
    ∃ before turn after opened, friendTurns = before ++ turn :: after ∧
      appRun quietCalls (quietRadio .statusStarting) friendCfg before =
        some opened ∧
      opened.status = .setSubmenu1_3 ∧ opened.menu.menuSelect = 1 ∧
      ∀ middle rest, after = middle ++ rest → ∃ during,
        appRun quietCalls (quietRadio .statusStarting) friendCfg
            (before ++ turn :: middle) = some during ∧
          during.status = .setSubmenu1_3_1 ∧ during.lastSelect = 1 :=
  menu_of_selected_entry friendTurns_run rfl

theorem opened_after_login_friend :
    (∃ turn ∈ friendTurns, turn.pocPara.status = .statusLandSuccessed) ∨
      ∃ before after called, friendTurns = before ++ after ∧
        appRun quietCalls (quietRadio .statusStarting) friendCfg before =
          some called ∧
        called.status = .beCalled ∧ called.pocPara.callStatus = .beCalled ∧
        called.cfg.singleCallFlag = 0x31 :=
  opened_after_login friendTurns_run rfl

end Tp79Boot
