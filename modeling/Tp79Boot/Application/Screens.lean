import Tp79Boot.Application.Task

/-!
# Screens

What one call of `application_task` can do to the screen: the open screen keeps
its selection, moves it, or opens another screen, and the parts that run on
every screen can only shut the device down, fall back to the main screen or the
lock screen, or show an incoming call.
-/

namespace Tp79Boot

/-- The screens that a screen opens by itself. -/
def AppStatus.leadsTo : AppStatus → List AppStatus
  | .normal => [.writeCode, .starting]
  | .starting => [.enterPoc]
  | .enterPoc => [.workingMain, .enterSimError]
  | .workingLocked =>
      [.workingUnlocking, .setSubmenu1_1, .setSubmenu1_2Seaching,
        .setSubmenu1_3]
  | .workingUnlocking => [.workingMain, .workingLocked]
  | .workingMain =>
      [.workingLocked, .menuSetMain, .setSubmenu1_1, .setSubmenu1_2Seaching,
        .setSubmenu1_3]
  | .menuSetMain =>
      [.workingMain, .workingLocked, .setSubmenu1_1, .setSubmenu1_2Seaching,
        .setSubmenu1_3, .setSubmenu1_4, .setSubmenu1_5, .setSubmenu1_6]
  | .setSubmenu1_1 => [.menuSetMain, .workingMain]
  | .setSubmenu1_2 => [.menuSetMain, .calling, .setSubmenu1_2_1]
  | .setSubmenu1_3 => [.menuSetMain, .calling, .setSubmenu1_3_1]
  | .setSubmenu1_4 => [.menuSetMain, .setSubmenu1_4_1]
  | .setSubmenu1_5 => [.menuSetMain]
  | .setSubmenu1_6 =>
      [.menuSetMain, .setSubmenu1_6_1, .setSubmenu1_6_2, .setSubmenu1_6_3,
        .setSubmenu1_6_4, .setSubmenu1_6_5]
  | .setSubmenu1_2Seaching => [.menuSetMain, .setSubmenu1_2]
  | .setSubmenu1_2_1 => [.setSubmenu1_2, .calling]
  | .setSubmenu1_3_1 => [.setSubmenu1_3, .calling]
  | .setSubmenu1_4_1 => [.setSubmenu1_4, .calling]
  | .setSubmenu1_6_1 => [.setSubmenu1_6]
  | .setSubmenu1_6_2 => [.setSubmenu1_6]
  | .setSubmenu1_6_3 => [.setSubmenu1_6, .workingMain]
  | .setSubmenu1_6_4 => [.setSubmenu1_6]
  | .setSubmenu1_6_5 => [.setSubmenu1_6]
  | .calling => [.workingMain]
  | .beCalled => [.workingMain]
  | _ => []

/-- How many choices there are in a menu whose size does not change. -/
def AppStatus.choices : AppStatus → Option UInt16
  | .menuSetMain => some 6
  | .setSubmenu1_6 => some 5
  | .setSubmenu1_6_1 => some 4
  | .setSubmenu1_6_4 => some 2
  | .setSubmenu1_6_5 => some 2
  | .setSubmenu1_2_1 => some 3
  | .setSubmenu1_3_1 => some 3
  | .setSubmenu1_4_1 => some 3
  | _ => none

/-- The list whose entry a menu is about. -/
def AppStatus.opener : AppStatus → Option AppStatus
  | .setSubmenu1_2_1 => some .setSubmenu1_2
  | .setSubmenu1_3_1 => some .setSubmenu1_3
  | .setSubmenu1_4_1 => some .setSubmenu1_4
  | _ => none

namespace Application

abbrev lastSelect (app : Application) : UInt16 :=
  app.menu.appDevice.menuLastSelect

/-- The selection is one of the choices of the open menu. -/
def InChoices (app : Application) : Prop :=
  ∀ sum, app.status.choices = some sum → app.menu.menuSelect < sum

/-- The same screen with the same selection. -/
structure SameSelection (app next : Application) : Prop where
  status : next.status = app.status
  select : next.menu.menuSelect = app.menu.menuSelect
  last : next.lastSelect = app.lastSelect

end Application

/-- What the open screen can do. -/
inductive Shown (app next : Application) : Prop where
  | stays (same : app.SameSelection next)
  | opens (edge : next.status ∈ app.status.leadsTo)
      (first : next.menu.menuSelect = 0)
      (last : next.status.opener = some app.status →
        next.lastSelect = app.menu.menuSelect)
      (gate : next.status.pastSearch = true → app.status.pastSearch = true ∨
        app.pocPara.status = .statusLandSuccessed)
  | moves (here : next.status = app.status)
      (last : next.lastSelect = app.lastSelect)
      (inside : app.InChoices → next.InChoices)
  | confirms (left : app.status ∈
        [.setSubmenu1_6_1, .setSubmenu1_6_4, .setSubmenu1_6_5])
      (back : next.status = .setSubmenu1_6)
      (select : next.menu.menuSelect = app.menu.menuSelect)

section

variable {calls : PocCalls} {call : AppCall} {app next : Application}
  {screen state : AppStatus}

namespace Shown

theorem of_menu (same : next.menu = app.menu) : Shown app next := by
  refine .stays ⟨?_, ?_, ?_⟩
  · exact congrArg (fun menu => menu.appDevice.status) same
  · exact congrArg MenuState.menuSelect same
  · exact congrArg (fun menu => menu.appDevice.menuLastSelect) same

protected theorem refl : Shown app app :=
  of_menu rfl

theorem of_change {sysTickCnt : UInt32} (here : app.status = screen)
    (changed : next.menu = app.menu.change sysTickCnt state)
    (edge : state ∈ screen.leadsTo) (past : screen.pastSearch = true) :
    Shown app next := by
  have status : next.status = state :=
    congrArg (fun menu => menu.appDevice.status) changed
  refine .opens ?_ ?_ ?_ ?_
  · rw [status, here]
    exact edge
  · exact congrArg MenuState.menuSelect changed
  · intro _
    exact congrArg (fun menu => menu.appDevice.menuLastSelect) changed
  · intro _
    left
    rw [here]
    exact past

/-- A screen has opened another one at some moment of the call, which no list
opens. -/
theorem of_status (state : AppStatus) (here : app.status = screen)
    (status : next.status = state) (edge : state ∈ screen.leadsTo)
    (noList : state.opener = none) (first : next.menu.menuSelect = 0)
    (gate : state.pastSearch = true → screen.pastSearch = true ∨
      app.pocPara.status = .statusLandSuccessed) : Shown app next := by
  refine .opens ?_ first ?_ ?_
  · rw [status, here]
    exact edge
  · intro list
    rw [status, noList] at list
    cases list
  · rw [status, here]
    exact gate

theorem branch {condition : Prop} [Decidable condition]
    {taken other : Application} (yes : condition → Shown app taken)
    (no : ¬condition → Shown app other) :
    Shown app (if condition then taken else other) := by
  split
  next holds => exact yes holds
  next fails => exact no fails

theorem online {effect : Application → Application}
    (shown : Shown app (effect app)) : Shown app (app.online effect) :=
  branch (fun _ => shown) (fun _ => .refl)

theorem onKey {effect : Application → Application}
    (shown : Shown app (effect app)) : Shown app (onKey call app effect) :=
  branch (fun _ => shown) (fun _ => .refl)

end Shown

/-- A key that goes one up or down stays among the choices. -/
theorem Shown.select {addSub : Bool} {sum : UInt16}
    (choices : app.status.choices = some sum) (positive : 0 < sum.toNat) :
    Shown app (app.select addSub 1 sum) := by
  have status : (app.select addSub 1 sum).status = app.status :=
    applicationSelectChange_status addSub 1 sum
  have last : (app.select addSub 1 sum).lastSelect = app.lastSelect := by
    unfold Application.lastSelect Application.select applicationSelectChange
    split
    · rfl
    · split
      · rfl
      · rfl
  refine .moves status last ?_
  intro inside other found
  rw [status, choices] at found
  cases found
  have below : InList sum.toNat app.menu.menuSelect :=
    .inl (inside sum choices)
  cases addSub with
  | false => exact up_inList positive below
  | true => exact down_inList positive

theorem choiceKeys_shown {back : AppStatus} {sum : UInt16}
    {confirm : Application → Application} (here : app.status = screen)
    (choices : screen.choices = some sum) (positive : 0 < sum.toNat)
    (edge : back ∈ screen.leadsTo) (past : screen.pastSearch = true)
    (chosen : Shown app (confirm app)) :
    Shown app (choiceKeys call app back sum confirm) := by
  rw [← here] at choices
  unfold choiceKeys
  apply Shown.branch
  · exact fun _ => .of_change here rfl edge past
  intro _
  apply Shown.branch
  · exact fun _ => .select choices positive
  intro _
  apply Shown.branch
  · exact fun _ => .select choices positive
  intro _
  exact .branch (fun _ => chosen) (fun _ => .refl)

theorem submenu1_2_1_shown (here : app.status = .setSubmenu1_2_1) :
    Shown app (submenu1_2_1 calls call app) := by
  apply choiceKeys_shown here rfl (by decide) (by decide) rfl
  apply Shown.branch
  · exact fun _ => .refl
  intro _
  apply Shown.branch
  · intro _
    apply Shown.branch
    · exact fun _ => .refl
    · exact fun _ => .of_change here rfl (by decide) rfl
  intro _
  apply Shown.branch
  · exact fun _ => .of_change here rfl (by decide) rfl
  · exact fun _ => .refl

theorem callChoice_shown {back : AppStatus} {dial : PocPara → PocPara}
    (here : app.status = screen) (edge : back ∈ screen.leadsTo)
    (dials : AppStatus.calling ∈ screen.leadsTo)
    (past : screen.pastSearch = true) :
    Shown app (callChoice call back dial app) := by
  unfold callChoice
  apply Shown.branch
  · exact fun _ => .refl
  intro _
  apply Shown.branch
  · intro _
    apply Shown.branch
    · exact fun _ => .of_change here rfl dials past
    · exact fun _ => .of_change here rfl edge past
  intro _
  apply Shown.branch
  · exact fun _ => .of_change here rfl edge past
  · exact fun _ => .refl

theorem submenu1_6_1_shown (here : app.status = .setSubmenu1_6_1) :
    Shown app (submenu1_6_1 call app) := by
  apply choiceKeys_shown here rfl (by decide) (by decide) rfl
  exact .confirms (by rw [here]; decide) rfl rfl

theorem submenu1_6_2_shown (here : app.status = .setSubmenu1_6_2) :
    Shown app (submenu1_6_2 call app) :=
  .branch (fun _ => .of_change here rfl (by decide) rfl) (fun _ => .refl)

theorem submenu1_6_3_shown (here : app.status = .setSubmenu1_6_3) :
    Shown app (submenu1_6_3 calls call app) := by
  apply Shown.branch
  · exact fun _ => .of_change here rfl (by decide) rfl
  intro _
  apply Shown.branch
  · exact fun _ => .of_change here rfl (by decide) rfl
  · exact fun _ => .refl

theorem submenu1_6_4_shown (here : app.status = .setSubmenu1_6_4) :
    Shown app (submenu1_6_4 call app) := by
  apply choiceKeys_shown here rfl (by decide) (by decide) rfl
  exact .confirms (by rw [here]; decide) rfl rfl

theorem submenu1_6_5_shown (here : app.status = .setSubmenu1_6_5) :
    Shown app (submenu1_6_5 call app) := by
  apply choiceKeys_shown here rfl (by decide) (by decide) rfl
  exact .confirms (by rw [here]; decide) rfl rfl

theorem seachMembers_shown (here : app.status = screen)
    (edge : AppStatus.setSubmenu1_2Seaching ∈ screen.leadsTo)
    (past : screen.pastSearch = true) :
    Shown app (app.online (seachMembers calls call)) :=
  .online (.of_change here rfl edge past)

theorem appMenuMainOpen_shown (here : app.status = .menuSetMain) :
    Shown app (appMenuMainOpen calls call app) := by
  unfold appMenuMainOpen
  apply Shown.branch
  · exact fun _ => .online (.of_change here rfl (by decide) rfl)
  intro _
  apply Shown.branch
  · exact fun _ => seachMembers_shown here (by decide) rfl
  intro _
  apply Shown.branch
  · exact fun _ => .of_change here rfl (by decide) rfl
  intro _
  apply Shown.branch
  · exact fun _ => .of_change here rfl (by decide) rfl
  intro _
  apply Shown.branch
  · exact fun _ => .of_change here rfl (by decide) rfl
  intro _
  apply Shown.branch
  · exact fun _ => .of_change here rfl (by decide) rfl
  · exact fun _ => .refl

theorem appMenuMain_shown (here : app.status = .menuSetMain) :
    Shown app (appMenuMain calls call app) := by
  have choices : app.status.choices = some 6 := by
    rw [here]
    rfl
  unfold appMenuMain
  apply Shown.branch
  · exact fun _ => .of_change here rfl (by decide) rfl
  intro _
  apply Shown.branch
  · exact fun _ => .select choices (by decide)
  intro _
  apply Shown.branch
  · exact fun _ => .select choices (by decide)
  intro _
  apply Shown.branch
  · exact fun _ => .of_change here rfl (by decide) rfl
  intro _
  apply Shown.branch
  · exact fun _ => seachMembers_shown here (by decide) rfl
  intro _
  apply Shown.branch
  · exact fun _ => .online (.of_change here rfl (by decide) rfl)
  intro _
  apply Shown.branch
  · exact fun _ => .of_change here rfl (by decide) rfl
  intro _
  apply Shown.branch
  · exact fun _ => appMenuMainOpen_shown here
  · exact fun _ => .refl

theorem appMenuSetSetup_shown (here : app.status = .setSubmenu1_6) :
    Shown app (appMenuSetSetup call app) := by
  have choices : app.status.choices = some 5 := by
    rw [here]
    rfl
  unfold appMenuSetSetup
  apply Shown.branch
  · exact fun _ => .select choices (by decide)
  intro _
  apply Shown.branch
  · exact fun _ => .select choices (by decide)
  intro _
  apply Shown.branch
  · exact fun _ => .of_change here rfl (by decide) rfl
  intro _
  apply Shown.branch
  · intro _
    apply Shown.branch
    · exact fun _ => .of_change here rfl (by decide) rfl
    intro _
    apply Shown.branch
    · exact fun _ => .of_change here rfl (by decide) rfl
    intro _
    apply Shown.branch
    · exact fun _ => .of_change here rfl (by decide) rfl
    intro _
    apply Shown.branch
    · exact fun _ => .of_change here rfl (by decide) rfl
    intro _
    apply Shown.branch
    · exact fun _ => .of_change here rfl (by decide) rfl
    · exact fun _ => .refl
  · exact fun _ => .refl

/-- A list menu is left for another screen, or moves its selection. -/
inductive Listed (screen : AppStatus) (menu : MenuState) :
    MenuState → Prop where
  | leaves (sysTickCnt : UInt32) (state : AppStatus) :
      state ∈ screen.leadsTo →
      Listed screen menu (menu.change sysTickCnt state)
  | stays (next : MenuState) :
      next.appDevice.status = menu.appDevice.status →
      next.appDevice.menuLastSelect = menu.appDevice.menuLastSelect →
      Listed screen menu next

section

variable {data : MenuData} {menu : MenuState} {sysTickCnt : UInt32}
  {keyValue : KeyValue} {keyValueNum : UInt8}

namespace Listed

theorem branch {condition : Prop} [Decidable condition]
    {taken other : MenuState} (yes : condition → Listed screen menu taken)
    (no : ¬condition → Listed screen menu other) :
    Listed screen menu (if condition then taken else other) := by
  split
  next holds => exact yes holds
  next fails => exact no fails

protected theorem refl : Listed screen menu menu :=
  .stays menu rfl rfl

protected theorem select (menuSelect : UInt16) :
    Listed screen menu (menu.select menuSelect) :=
  .stays _ rfl rfl

theorem selectChange (addSub : Bool) (cnt sum : UInt16) :
    Listed screen menu (applicationSelectChange menu addSub cnt sum) := by
  unfold applicationSelectChange
  apply branch
  · exact fun _ => .stays _ rfl rfl
  · intro _
    exact branch (fun _ => .stays _ rfl rfl) (fun _ => .stays _ rfl rfl)

end Listed

theorem appMenuSetGourp_listed :
    Listed .setSubmenu1_1 menu
      (appMenuSetGourp data sysTickCnt keyValue menu) := by
  unfold appMenuSetGourp
  apply Listed.branch
  · exact fun _ => .selectChange _ _ _
  intro _
  apply Listed.branch
  · exact fun _ => .selectChange _ _ _
  intro _
  apply Listed.branch
  · exact fun _ => .leaves _ _ (by decide)
  intro _
  apply Listed.branch
  · exact fun _ => .leaves _ _ (by decide)
  intro _
  apply Listed.branch
  · exact fun _ => .selectChange _ _ _
  intro _
  apply Listed.branch
  · exact fun _ => .branch (fun _ => .select _) (fun _ => .refl)
  · exact fun _ => .refl

theorem memberKeys_listed :
    Listed .setSubmenu1_2 menu (memberKeys data sysTickCnt keyValue menu) := by
  unfold memberKeys
  apply Listed.branch
  · intro _
    exact .branch (fun _ => .refl) (fun _ => .leaves _ _ (by decide))
  intro _
  apply Listed.branch
  · exact fun _ => .leaves _ _ (by decide)
  intro _
  apply Listed.branch
  · exact fun _ => .selectChange _ _ _
  intro _
  apply Listed.branch
  · exact fun _ => .selectChange _ _ _
  intro _
  apply Listed.branch
  · exact fun _ => .branch (fun _ => .selectChange _ _ _) (fun _ => .refl)
  intro _
  apply Listed.branch
  · exact fun _ => .branch (fun _ => .select _) (fun _ => .refl)
  · exact fun _ => .refl

theorem appMenuSetMember_listed :
    Listed .setSubmenu1_2 menu
      (appMenuSetMember data sysTickCnt keyValue menu) := by
  unfold appMenuSetMember
  simp only
  by_cases left : keyValue = keyFunLeftDown
  · rw [left, memberKeys_left]
    exact .branch (fun _ => .leaves _ _ (by decide))
      (fun _ => .leaves _ _ (by decide))
  · rw [if_neg left]
    exact .branch (fun _ => memberKeys_listed) (fun _ => .refl)

theorem appMenuSetFriend_listed :
    Listed .setSubmenu1_3 menu
      (appMenuSetFriend data sysTickCnt keyValue keyValueNum menu) := by
  unfold appMenuSetFriend
  apply Listed.branch
  · exact fun _ => .leaves _ _ (by decide)
  intro _
  apply Listed.branch
  · exact fun _ => .leaves _ _ (by decide)
  intro _
  apply Listed.branch
  · exact fun _ => .leaves _ _ (by decide)
  intro _
  apply Listed.branch
  · exact fun _ => .selectChange _ _ _
  intro _
  apply Listed.branch
  · exact fun _ => .selectChange _ _ _
  intro _
  apply Listed.branch
  · exact fun _ => .branch (fun _ => .select _) (fun _ => .refl)
  intro _
  apply Listed.branch
  · exact fun _ => .branch (fun _ => .select _) (fun _ => .refl)
  · exact fun _ => .refl

theorem appMenuSetLog_listed :
    Listed .setSubmenu1_4 menu
      (appMenuSetLog data sysTickCnt keyValue menu) := by
  unfold appMenuSetLog
  simp only
  by_cases left : keyValue = keyFunLeftDown
  · have notRight : keyFunLeftDown ≠ keyFunRightDown := by decide
    rw [left, if_pos rfl, if_neg (by decide), if_neg (by decide),
      if_neg (by decide), if_neg (fun right => notRight right.1)]
    exact .leaves _ _ (by decide)
  · rw [if_neg left]
    apply Listed.branch
    · exact fun _ => .selectChange _ _ _
    intro _
    apply Listed.branch
    · exact fun _ => .selectChange _ _ _
    intro _
    apply Listed.branch
    · exact fun _ => .branch (fun _ => .select _) (fun _ => .refl)
    intro _
    exact .branch (fun _ => .leaves _ _ (by decide)) (fun _ => .refl)

theorem listKey_listed (here : menu.appDevice.status = screen)
    (list : screen ∈ [AppStatus.setSubmenu1_1, .setSubmenu1_2,
      .setSubmenu1_3, .setSubmenu1_4]) :
    Listed screen menu
      (listKey data sysTickCnt keyValue keyValueNum menu) := by
  simp only [List.mem_cons, List.not_mem_nil, or_false] at list
  unfold listKey
  rw [here]
  rcases list with rfl | rfl | rfl | rfl
  · exact appMenuSetGourp_listed
  · exact appMenuSetMember_listed
  · exact appMenuSetFriend_listed
  · exact appMenuSetLog_listed

end

/-- A list menu has no choices of a fixed number. -/
theorem Listed.shown {menu : MenuState} (listed : Listed screen app.menu menu)
    (here : app.status = screen) (past : screen.pastSearch = true)
    (noChoices : screen.choices = none) (same : next.menu = menu) :
    Shown app next := by
  cases listed with
  | leaves sysTickCnt state edge => exact .of_change here same edge past
  | stays _ status last =>
      have sameStatus : next.status = app.status :=
        (congrArg (fun menu => menu.appDevice.status) same).trans status
      refine .moves sameStatus
        ((congrArg (fun menu => menu.appDevice.menuLastSelect) same).trans
          last) ?_
      intro _ sum choices
      rw [sameStatus, here, noChoices] at choices
      cases choices

private theorem leaving_shown {menu : MenuState} {state : AppStatus}
    {effect : PocPara → PocPara}
    (shown : ∀ next : Application, next.menu = menu → Shown app next) :
    Shown app
      (if { app with menu := menu }.status = state then
        { app with menu := menu }.radio effect
      else { app with menu := menu }) :=
  .branch (fun _ => shown _ rfl) (fun _ => shown _ rfl)

theorem appFunSetSunmenu1_shown (here : app.status = screen)
    (submenu : screen ∈ [AppStatus.setSubmenu1_1, .setSubmenu1_2,
      .setSubmenu1_3, .setSubmenu1_4, .setSubmenu1_5, .setSubmenu1_6]) :
    Shown app (appFunSetSunmenu1 calls call app) := by
  have listed (list : screen ∈ [AppStatus.setSubmenu1_1, .setSubmenu1_2,
      .setSubmenu1_3, .setSubmenu1_4]) :
      Listed screen app.menu
        (listKey (app.menuData call) call.sysTickCnt call.keyValue
          call.keyValueNum app.menu) :=
    listKey_listed here list
  simp only [List.mem_cons, List.not_mem_nil, or_false] at submenu
  unfold appFunSetSunmenu1
  rw [here]
  rcases submenu with rfl | rfl | rfl | rfl | rfl | rfl
  · exact leaving_shown fun _ same =>
      (listed (by decide)).shown here rfl rfl same
  · exact leaving_shown fun _ same =>
      (listed (by decide)).shown here rfl rfl same
  · exact leaving_shown fun _ same =>
      (listed (by decide)).shown here rfl rfl same
  · exact (listed (by decide)).shown here rfl rfl rfl
  · exact .branch (fun _ => .of_change here rfl (by decide) rfl)
      (fun _ => .refl)
  · exact appMenuSetSetup_shown here

theorem appWorkingLocked_shown (here : app.status = .workingLocked) :
    Shown app (appWorkingLocked calls call app) := by
  unfold appWorkingLocked
  apply Shown.branch
  · exact fun _ => .of_change here rfl (by decide) rfl
  intro _
  apply Shown.branch
  · exact fun _ => .of_change here rfl (by decide) rfl
  intro _
  apply Shown.branch
  · exact fun _ => seachMembers_shown here (by decide) rfl
  intro _
  apply Shown.branch
  · exact fun _ => .online (.of_change here rfl (by decide) rfl)
  · exact fun _ => .refl

theorem appWorkingMain_shown (here : app.status = .workingMain) :
    Shown app (appWorkingMain calls call app) := by
  unfold appWorkingMain
  apply Shown.branch
  · exact fun _ => .of_change here rfl (by decide) rfl
  intro _
  apply Shown.branch
  · exact fun _ => seachMembers_shown here (by decide) rfl
  intro _
  apply Shown.branch
  · exact fun _ => .of_change here rfl (by decide) rfl
  intro _
  apply Shown.branch
  · exact fun _ => .of_change here rfl (by decide) rfl
  intro _
  apply Shown.branch
  · exact fun _ => .online (.of_change here rfl (by decide) rfl)
  · exact fun _ => .refl

theorem submenu1_2Seaching_shown
    (here : app.status = .setSubmenu1_2Seaching) :
    Shown app (submenu1_2Seaching call app) := by
  unfold submenu1_2Seaching
  simp only
  apply Shown.branch
  · exact fun _ => .of_status .setSubmenu1_2 here rfl (by decide) rfl rfl
      (fun _ => .inl rfl)
  · intro _
    exact .branch (fun _ => .of_change here rfl (by decide) rfl)
      (fun _ => .refl)

theorem workingUnlocking_shown (here : app.status = .workingUnlocking) :
    Shown app (workingUnlocking call app) := by
  unfold workingUnlocking
  simp only
  apply Shown.branch
  · exact fun _ => .of_status .workingLocked here rfl (by decide) rfl rfl
      (fun _ => .inl rfl)
  · intro _
    exact .branch (fun _ => .of_change here rfl (by decide) rfl)
      (fun _ => .refl)

/-- A call screen stays, or has changed to the main screen at least once. -/
theorem callScreen_shown (here : app.status = screen)
    (edge : AppStatus.workingMain ∈ screen.leadsTo)
    (past : screen.pastSearch = true) :
    Shown app (callScreen calls call app) := by
  have ends {condition : Prop} [Decidable condition] {shown : Application}
      (earlier : shown.menu = app.menu ∨
        shown.status = .workingMain ∧ shown.menu.menuSelect = 0)
      {next : Application}
      (menu : next.menu = shown.menu.change call.sysTickCnt .workingMain) :
      (if condition then next else shown).menu = app.menu ∨
        (if condition then next else shown).status = .workingMain ∧
          (if condition then next else shown).menu.menuSelect = 0 := by
    split
    · right
      exact ⟨congrArg (fun menu => menu.appDevice.status) menu,
        congrArg MenuState.menuSelect menu⟩
    · exact earlier
  have ended : (callScreen calls call app).menu = app.menu ∨
      (callScreen calls call app).status = .workingMain ∧
        (callScreen calls call app).menu.menuSelect = 0 := by
    unfold callScreen
    exact ends (ends (ends (ends (.inl rfl) rfl) rfl) rfl) rfl
  rcases ended with same | ⟨status, first⟩
  · exact .of_menu same
  · exact .of_status .workingMain here status edge rfl first
      (fun _ => .inl past)

theorem statusNormal_shown (here : app.status = .normal)
    (returns : statusNormal call app = some next) : Shown app next := by
  unfold statusNormal at returns
  split at returns
  · cases returns
    exact .of_status .writeCode here rfl (by decide) rfl rfl
      (fun past => nomatch past)
  · split at returns
    · cases returns
    · split at returns
      · cases returns
        exact .of_status .starting here rfl (by decide) rfl rfl
          (fun past => nomatch past)
      · cases returns
        exact .refl

theorem statusStarting_shown (here : app.status = .starting) :
    Shown app (statusStarting call app) := by
  apply Shown.branch
  · exact fun _ => .of_status .enterPoc here rfl (by decide) rfl rfl
      (fun past => nomatch past)
  · exact fun _ => .refl

theorem statusEnterPoc_shown (here : app.status = .enterPoc) :
    Shown app (statusEnterPoc call app) := by
  apply Shown.branch
  · intro landed
    exact .of_status .workingMain here rfl (by decide) rfl rfl
      (fun _ => .inr landed)
  intro _
  apply Shown.branch
  · exact fun _ => .of_status .enterSimError here rfl (by decide) rfl rfl
      (fun past => nomatch past)
  · exact fun _ => .refl

theorem screenTask_shown
    (returns : screenTask calls call app = some next) : Shown app next := by
  unfold screenTask at returns
  cases here : app.status <;> simp only [here] at returns
  case normal => exact statusNormal_shown here returns
  case deviceShutdown =>
      split at returns
      · cases returns
      · cases returns
        exact .refl
  all_goals cases returns
  case starting => exact statusStarting_shown here
  case enterPoc => exact statusEnterPoc_shown here
  case workingLocked => exact .onKey (appWorkingLocked_shown here)
  case workingUnlocking => exact workingUnlocking_shown here
  case workingMain => exact .onKey (appWorkingMain_shown here)
  case menuSetMain => exact .onKey (appMenuMain_shown here)
  case setSubmenu1_1 =>
      exact .onKey (appFunSetSunmenu1_shown here (by decide))
  case setSubmenu1_2 =>
      exact .onKey (appFunSetSunmenu1_shown here (by decide))
  case setSubmenu1_3 =>
      exact .onKey (appFunSetSunmenu1_shown here (by decide))
  case setSubmenu1_4 =>
      exact .onKey (appFunSetSunmenu1_shown here (by decide))
  case setSubmenu1_5 =>
      exact .onKey (appFunSetSunmenu1_shown here (by decide))
  case setSubmenu1_6 =>
      exact .onKey (appFunSetSunmenu1_shown here (by decide))
  case setSubmenu1_2Seaching => exact submenu1_2Seaching_shown here
  case setSubmenu1_2_1 => exact submenu1_2_1_shown here
  case setSubmenu1_3_1 =>
      exact choiceKeys_shown here rfl (by decide) (by decide) rfl
        (callChoice_shown here (by decide) (by decide) rfl)
  case setSubmenu1_4_1 =>
      exact choiceKeys_shown here rfl (by decide) (by decide) rfl
        (callChoice_shown here (by decide) (by decide) rfl)
  case setSubmenu1_6_1 => exact submenu1_6_1_shown here
  case setSubmenu1_6_2 => exact submenu1_6_2_shown here
  case setSubmenu1_6_3 => exact submenu1_6_3_shown here
  case setSubmenu1_6_4 => exact submenu1_6_4_shown here
  case setSubmenu1_6_5 => exact submenu1_6_5_shown here
  case calling => exact callScreen_shown here (by decide) rfl
  case beCalled => exact callScreen_shown here (by decide) rfl
  case writeCode => exact .of_menu rfl
  all_goals exact .refl

end

end Tp79Boot
