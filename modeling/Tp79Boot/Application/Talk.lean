import Tp79Boot.Application.State
import Tp79Boot.Poc.State

/-!
# Talking

`app_ptt_talk_task` opens a talk when the talk key is pressed and closes it
400 ms after the release, when somebody else takes over, or after 50 seconds.
Its flags tell whether a talk is open as long as no press is refused while none
is, and none accepted while one is.
-/

namespace Tp79Boot

open EventRun Bracketing

/-- What the task asks of the radio module and of the application.  Lights and
amplifier are left out. -/
inductive TalkAction where
  | pocTalkerExit
  | applicationStateChange (state : AppStatus)
  | pocPttTalkStart
  | pocPttTalkStartFailSound
  | pocAudioTtsPaly
  | pocPttTalkStop
deriving DecidableEq

/-- The static variables of `app_ptt_talk_task`, and what it has asked for. -/
structure PttTalk where
  talkFlag : Bool
  pttStopFlag : Bool
  keyDownTimer : UInt32
  timerOverFlag : Bool
  actions : List TalkAction
deriving DecidableEq

def PttTalk.start : PttTalk :=
  { talkFlag := false
    pttStopFlag := false
    keyDownTimer := 0
    timerOverFlag := true
    actions := [] }

/-- What one call of the task finds. -/
structure TalkCall where
  keyValue : KeyValue
  sysTickCnt : UInt32
  talkerId : UInt8
  talkerPriority : UInt8
  status : PocStatus
  appStatus : AppStatus

/-- The screens on which the talk key talks. -/
def TalkCall.mayTalk (call : TalkCall) : Bool :=
  call.appStatus != .setSubmenu1_1 && call.appStatus != .setSubmenu1_2 &&
    call.appStatus != .setSubmenu1_3 && call.appStatus.pastSearch

/-- Somebody in the group begins or ends talking.  A talk of our own is taken
over. -/
def talkerTurn (call : TalkCall) (talk : PttTalk) : PttTalk :=
  if call.talkerId ≠ 0 then
    if talk.talkFlag = false then
      if talk.pttStopFlag = false ∧ talk.timerOverFlag = false then
        { talk with
          talkFlag := true
          pttStopFlag := true
          keyDownTimer := call.sysTickCnt }
      else { talk with talkFlag := true }
    else talk
  else { talk with talkFlag := false }

/-- The talk is opened, over whoever talks at the moment. -/
def talkOpens (call : TalkCall) (talk : PttTalk) : PttTalk :=
  { talk with
    pttStopFlag := false
    timerOverFlag := false
    keyDownTimer := call.sysTickCnt
    actions := talk.actions ++
      (if call.talkerId ≠ 0 then [.pocTalkerExit] else []) ++
      (if call.appStatus ≠ .beCalled ∧ call.appStatus ≠ .calling then
        [.applicationStateChange .workingMain] else []) ++
      [.pocPttTalkStart] }

def talkKey (call : TalkCall) (talk : PttTalk) : PttTalk :=
  if call.keyValue = keyFunPttDown then
    if call.status = .statusLandSuccessed then
      if call.mayTalk then
        if call.talkerPriority ≠ 0 ∨ call.talkerId = 0 then talkOpens call talk
        else
          { talk with
            pttStopFlag := true
            actions := talk.actions ++ [.pocPttTalkStartFailSound] }
      else talk
    else if call.appStatus.pastSearch then
      { talk with actions := talk.actions ++ [.pocAudioTtsPaly] }
    else talk
  else if call.keyValue = keyFunPttUp ∧ talk.pttStopFlag = false ∧
      talk.timerOverFlag = false then
    { talk with
      pttStopFlag := true
      timerOverFlag := true
      keyDownTimer := call.sysTickCnt }
  else talk

/-- 400 ms after the release the talk is closed. -/
def talkStops (call : TalkCall) (talk : PttTalk) : PttTalk :=
  if talk.pttStopFlag = true ∧ 400 < call.sysTickCnt - talk.keyDownTimer then
    { talk with
      pttStopFlag := false
      timerOverFlag := true
      actions := talk.actions ++ [.pocPttTalkStop] }
  else talk

/-- After 50 seconds the talk is as good as released. -/
def talkLimit (call : TalkCall) (talk : PttTalk) : PttTalk :=
  if 50000 < call.sysTickCnt - talk.keyDownTimer ∧
      talk.timerOverFlag = false then
    { talk with
      timerOverFlag := true
      pttStopFlag := true
      keyDownTimer := call.sysTickCnt }
  else talk

def appPttTalkTask (talk : PttTalk) (call : TalkCall) : PttTalk :=
  talkLimit call (talkStops call (talkKey call (talkerTurn call talk)))

def talkMark : TalkAction → Option (Mark Unit)
  | .pocPttTalkStart => some (.opens ())
  | .pocPttTalkStop => some (.closes ())
  | _ => none

def PttTalk.marks (talk : PttTalk) : List (Mark Unit) :=
  talk.actions.filterMap talkMark

/-- Starts and stops alternate, beginning with a start. -/
def SessionsBracketed (talk : PttTalk) : Prop :=
  ∃ held, Bracketed talk.marks held

/-- The flags say that no talk is open. -/
def PttTalk.Closed (talk : PttTalk) : Prop :=
  talk.pttStopFlag = false ∧ talk.timerOverFlag = true

instance (talk : PttTalk) : Decidable talk.Closed :=
  inferInstanceAs (Decidable (_ ∧ _))

/-- The talk key is pressed where it talks. -/
def TalkCall.Presses (call : TalkCall) : Prop :=
  call.keyValue = keyFunPttDown ∧ call.status = .statusLandSuccessed ∧
    call.mayTalk = true

/-- A press is accepted only while no talk is open, and refused only while one
is. -/
def InTurn (talk : PttTalk) (call : TalkCall) : Prop :=
  call.Presses →
    (talk.Closed ↔ call.talkerPriority ≠ 0 ∨ call.talkerId = 0)

/-- The flags agree with what was asked of the radio module. -/
def InSync (talk : PttTalk) : Prop :=
  Bracketed talk.marks (if talk.Closed then none else some ())

section

variable {call : TalkCall} {talk next : PttTalk}

theorem start_inSync : InSync PttTalk.start := .nil

/-- A step that asks for no start and no stop, and does not change what the
flags say. -/
theorem InSync.quiet (inSync : InSync talk) (marks : next.marks = talk.marks)
    (same : next.Closed ↔ talk.Closed) : InSync next := by
  unfold InSync
  rw [marks, if_congr same rfl rfl]
  exact inSync

theorem InSync.opens (inSync : InSync talk) (closed : talk.Closed) :
    InSync (talkOpens call talk) := by
  have marks : (talkOpens call talk).marks = talk.marks ++ [.opens ()] := by
    have silent (asked : Prop) [Decidable asked] (action : TalkAction)
        (noMark : talkMark action = none) :
        (if asked then [action] else []).filterMap talkMark = [] := by
      split
      · simp [noMark]
      · rfl
    simp only [PttTalk.marks, talkOpens, List.filterMap_append,
      silent _ .pocTalkerExit rfl,
      silent _ (.applicationStateChange .workingMain) rfl, List.append_nil]
    rfl
  have isOpen : ¬(talkOpens call talk).Closed := fun other => nomatch other.2
  unfold InSync at inSync ⊢
  rw [if_pos closed] at inSync
  rw [marks, if_neg isOpen]
  exact .opens () inSync

theorem talkerTurn_closed_iff :
    (talkerTurn call talk).Closed ↔ talk.Closed := by
  unfold talkerTurn
  split
  · split
    · split
      next both => simp [PttTalk.Closed, both]
      next => exact Iff.rfl
    · exact Iff.rfl
  · exact Iff.rfl

theorem InSync.talkerTurn (inSync : InSync talk) :
    InSync (talkerTurn call talk) := by
  refine inSync.quiet ?_ talkerTurn_closed_iff
  unfold Tp79Boot.talkerTurn
  split
  · split
    · split
      · rfl
      · rfl
    · rfl
  · rfl

private theorem marks_notice {action : TalkAction}
    (noMark : talkMark action = none) (stop limit : Bool) :
    PttTalk.marks
        { talk with
          pttStopFlag := stop
          timerOverFlag := limit
          actions := talk.actions ++ [action] } = talk.marks := by
  simp [PttTalk.marks, noMark]

theorem InSync.talkKey (inSync : InSync talk) (inTurn : InTurn talk call) :
    InSync (talkKey call talk) := by
  unfold Tp79Boot.talkKey
  split
  next pressed =>
    split
    next online =>
      split
      next allowed =>
        have turn := inTurn ⟨pressed, online, allowed⟩
        split
        next accepted => exact inSync.opens (turn.mpr accepted)
        next refused =>
          have isOpen := turn.not.mpr refused
          refine inSync.quiet (marks_notice rfl _ _) ?_
          exact iff_of_false (fun other => nomatch other.1) isOpen
      next => exact inSync
    next =>
      split
      · exact inSync.quiet (marks_notice rfl _ _) Iff.rfl
      · exact inSync
  next =>
    split
    next released =>
      refine inSync.quiet rfl (iff_of_false ?_ ?_)
      · exact fun other => nomatch other.1
      · exact fun other => nomatch released.2.2.symm.trans other.2
    next => exact inSync

theorem InSync.talkStops (inSync : InSync talk) :
    InSync (talkStops call talk) := by
  unfold Tp79Boot.talkStops
  split
  next ended =>
    have isOpen : ¬talk.Closed := fun other =>
      nomatch ended.1.symm.trans other.1
    unfold InSync at inSync ⊢
    rw [if_neg isOpen] at inSync
    rw [if_pos ⟨rfl, rfl⟩]
    simp only [PttTalk.marks, List.filterMap_append]
    exact .closes inSync
  next => exact inSync

theorem InSync.talkLimit (inSync : InSync talk) :
    InSync (talkLimit call talk) := by
  unfold Tp79Boot.talkLimit
  split
  next ended =>
    refine inSync.quiet rfl (iff_of_false ?_ ?_)
    · exact fun other => nomatch other.1
    · exact fun other => nomatch ended.2.symm.trans other.2
  next => exact inSync

theorem InSync.task (inSync : InSync talk) (inTurn : InTurn talk call) :
    InSync (appPttTalkTask talk call) := by
  have turned : InTurn (Tp79Boot.talkerTurn call talk) call := fun presses =>
    talkerTurn_closed_iff.trans (inTurn presses)
  exact (inSync.talkerTurn.talkKey turned).talkStops.talkLimit

end

/-- In a run in which every press comes in turn, starts and stops alternate in
every state reached, beginning with a start. -/
theorem talk_bracketed_of_inTurn (calls : List TalkCall)
    (inTurn : Admitted appPttTalkTask InTurn PttTalk.start calls) :
    SessionsBracketed (run appPttTalkTask PttTalk.start calls) := by
  have inSync : InSync (run appPttTalkTask PttTalk.start calls) :=
    run_invariant_of_admitted start_inSync
      (fun _ _ earlier turn => earlier.task turn) inTurn
  exact ⟨_, inSync⟩

/-- On the main screen of a radio that is logged in. -/
def talkKeyCall (keyValue : KeyValue) (sysTickCnt : UInt32)
    (talkerId : UInt8) : TalkCall :=
  { keyValue := keyValue
    sysTickCnt := sysTickCnt
    talkerId := talkerId
    talkerPriority := 0
    status := .statusLandSuccessed
    appStatus := .workingMain }

/-- A talk of two seconds. -/
theorem talk_bracketed_of_inTurn_talk :
    SessionsBracketed (run appPttTalkTask PttTalk.start
      ([talkKeyCall keyFunPttDown 1000 0, talkKeyCall keyFunPttUp 3000 0] ++
        [talkKeyCall keyValueNone 3500 0])) := by
  have first : Admitted appPttTalkTask InTurn PttTalk.start
      ([] ++ [talkKeyCall keyFunPttDown 1000 0]) :=
    admitted_concat.mpr ⟨admitted_nil,
      fun _ => iff_of_true ⟨rfl, rfl⟩ (.inr rfl)⟩
  have second : Admitted appPttTalkTask InTurn PttTalk.start
      ([talkKeyCall keyFunPttDown 1000 0] ++
        [talkKeyCall keyFunPttUp 3000 0]) :=
    admitted_concat.mpr ⟨first, fun presses => absurd presses.1 (by decide)⟩
  have third : Admitted appPttTalkTask InTurn PttTalk.start
      ([talkKeyCall keyFunPttDown 1000 0, talkKeyCall keyFunPttUp 3000 0] ++
        [talkKeyCall keyValueNone 3500 0]) :=
    admitted_concat.mpr ⟨second, fun presses => absurd presses.1 (by decide)⟩
  exact talk_bracketed_of_inTurn _ third

/-- A press that is refused because somebody else is talking: a stop is sent,
and there was no start. -/
theorem talk_bracketed_refused :
    ¬∀ calls : List TalkCall,
      calls.Pairwise (fun earlier later =>
        earlier.sysTickCnt ≤ later.sysTickCnt) →
      SessionsBracketed (run appPttTalkTask PttTalk.start calls) := by
  intro bracketed
  obtain ⟨held, history⟩ := bracketed [talkKeyCall keyFunPttDown 1000 7]
    (List.pairwise_singleton _ _)
  have stopped : (run appPttTalkTask PttTalk.start
      [talkKeyCall keyFunPttDown 1000 7]).marks = [.closes ()] := by decide
  rw [stopped] at history
  exact not_bracketed_closes history

end Tp79Boot
