import Tp79Boot.Application.Talk

/-!
# The length of a talk

`SysTick_Cnt` counts milliseconds in 32 bits.  A talk whose key is not pressed
again is closed 50 seconds and 400 milliseconds after the press at the latest,
and the time between two calls later, whatever happens meanwhile and wherever
the counter starts again from zero.
-/

namespace Tp79Boot

open EventRun

/-- A call of the task, at a time that the counter cannot hold. -/
structure TimedTalkCall extends TalkCall where
  time : Nat
  counted : sysTickCnt = UInt32.ofNat time

def talkStep (talk : PttTalk) (call : TimedTalkCall) : PttTalk :=
  appPttTalkTask talk call.toTalkCall

/-- The talk key is pressed where it talks, and nobody is in the way. -/
def TalkCall.Accepts (call : TalkCall) : Prop :=
  call.Presses ∧ (call.talkerPriority ≠ 0 ∨ call.talkerId = 0)

/-- One call comes some time after another, but not too long. -/
def Steady (gap : Nat) (earlier later : TimedTalkCall) : Prop :=
  earlier.time ≤ later.time ∧ later.time ≤ earlier.time + gap

theorem counter_measures {since now : Nat} (earlier : since ≤ now)
    (near : now - since < 4294967296) :
    (UInt32.ofNat now - UInt32.ofNat since).toNat = now - since := by
  rw [UInt32.toNat_sub, UInt32.toNat_ofNat', UInt32.toNat_ofNat']
  omega

/-- The talk key is held since `press`. -/
def HeldSince (press : Nat) (talk : PttTalk) : Prop :=
  talk.pttStopFlag = false ∧ talk.timerOverFlag = false ∧
    talk.keyDownTimer = UInt32.ofNat press

/-- The talk is to be closed since some time that is at most `wait` before
now. -/
def ClosingWithin (press gap now wait : Nat) (talk : PttTalk) : Prop :=
  ∃ since, press ≤ since ∧ since ≤ press + 50000 + gap ∧ since ≤ now ∧
    now ≤ since + wait ∧ talk.pttStopFlag = true ∧
    talk.keyDownTimer = UInt32.ofNat since

/-- After a call, no limit has been passed. -/
def UnderLimit (press gap now : Nat) (talk : PttTalk) : Prop :=
  (HeldSince press talk ∧ now ≤ press + 50000) ∨
    ClosingWithin press gap now 400 talk

/-- The radio has been asked to stop since the actions were `earlier`. -/
def StoppedAfter (earlier : List TalkAction) (talk : PttTalk) : Prop :=
  ∃ asked, talk.actions = earlier ++ asked ∧ .pocPttTalkStop ∈ asked

section

variable {press gap now : Nat} {call : TimedTalkCall} {talk : PttTalk}
  {earlier : List TalkAction}

theorem talkerTurn_actions (call : TalkCall) (talk : PttTalk) :
    (talkerTurn call talk).actions = talk.actions := by
  unfold talkerTurn
  split
  · split
    · split
      · rfl
      · rfl
    · rfl
  · rfl

theorem talkKey_actions (call : TalkCall) (talk : PttTalk) :
    talk.actions <+: (talkKey call talk).actions := by
  unfold talkKey
  split
  · split
    · split
      · split
        · simp only [talkOpens, List.append_assoc]
          exact List.prefix_append _ _
        · exact List.prefix_append _ _
      · exact List.prefix_refl _
    · split
      · exact List.prefix_append _ _
      · exact List.prefix_refl _
  · split
    · exact List.prefix_refl _
    · exact List.prefix_refl _

theorem talkStops_actions (call : TalkCall) (talk : PttTalk) :
    talk.actions <+: (talkStops call talk).actions := by
  unfold talkStops
  split
  · exact List.prefix_append _ _
  · exact List.prefix_refl _

theorem talkLimit_actions (call : TalkCall) (talk : PttTalk) :
    (talkLimit call talk).actions = talk.actions := by
  unfold talkLimit
  split
  · rfl
  · rfl

theorem talkStep_actions (talk : PttTalk) (call : TimedTalkCall) :
    talk.actions <+: (talkStep talk call).actions := by
  have keyed := talkKey_actions call.toTalkCall
    (talkerTurn call.toTalkCall talk)
  rw [talkerTurn_actions] at keyed
  rw [talkStep, appPttTalkTask, talkLimit_actions]
  exact keyed.trans (talkStops_actions _ _)

theorem StoppedAfter.extends {next : PttTalk}
    (stopped : StoppedAfter earlier talk)
    (longer : talk.actions <+: next.actions) : StoppedAfter earlier next := by
  obtain ⟨asked, before, stop⟩ := stopped
  obtain ⟨more, all⟩ := longer
  refine ⟨asked ++ more, ?_, List.mem_append_left more stop⟩
  rw [← all, before, List.append_assoc]

/-- The flags before the limits are looked at. -/
def Keyed (press gap now : Nat) (talk : PttTalk) : Prop :=
  (HeldSince press talk ∧ now ≤ press + 50000 + gap) ∨
    ClosingWithin press gap now (50000 + gap) talk

/-- Somebody else can only begin the closing. -/
theorem UnderLimit.talkerTurn (underLimit : UnderLimit press gap now talk)
    (after : now ≤ call.time) (soon : call.time ≤ now + gap)
    (pressed : press ≤ now) :
    Keyed press gap call.time (talkerTurn call.toTalkCall talk) := by
  rcases underLimit with ⟨held, limit⟩ | closing
  · have inside : call.time ≤ press + 50000 + gap := by omega
    unfold Tp79Boot.talkerTurn
    split
    · split
      · split
        next =>
          right
          exact ⟨call.time, by omega, inside, Nat.le_refl _, by omega, rfl,
            call.counted⟩
        next other => exact absurd ⟨held.1, held.2.1⟩ other
      · exact .inl ⟨held, inside⟩
    · exact .inl ⟨held, inside⟩
  · obtain ⟨since, first, last, past, wait, stop, timer⟩ := closing
    have still : (Tp79Boot.talkerTurn call.toTalkCall talk).pttStopFlag =
          true ∧
        (Tp79Boot.talkerTurn call.toTalkCall talk).keyDownTimer =
          UInt32.ofNat since := by
      unfold Tp79Boot.talkerTurn
      split
      · split
        · split
          next opened => exact absurd (stop.symm.trans opened.1) (by decide)
          next => exact ⟨stop, timer⟩
        · exact ⟨stop, timer⟩
      · exact ⟨stop, timer⟩
    right
    exact ⟨since, first, last, by omega, by omega, still.1, still.2⟩

/-- A key that opens no talk closes this one, or leaves it alone. -/
theorem Keyed.talkKey (keyed : Keyed press gap call.time talk)
    (refuses : ¬call.Accepts) (pressed : press ≤ call.time) :
    Keyed press gap call.time (talkKey call.toTalkCall talk) := by
  unfold Tp79Boot.talkKey
  split
  next down =>
    split
    next online =>
      split
      next allowed =>
        split
        next accepted =>
          exact absurd ⟨⟨down, online, allowed⟩, accepted⟩ refuses
        next =>
          -- a refused press closes the talk from the press that opened it
          rcases keyed with ⟨held, inside⟩ | closing
          · right
            exact ⟨press, Nat.le_refl _, by omega, pressed, by omega, rfl,
              held.2.2⟩
          · obtain ⟨since, first, last, past, wait, _, timer⟩ := closing
            exact .inr ⟨since, first, last, past, wait, rfl, timer⟩
      next => exact keyed
    next =>
      split
      · exact keyed
      · exact keyed
  next =>
    split
    next released =>
      rcases keyed with ⟨held, inside⟩ | closing
      · right
        exact ⟨call.time, pressed, inside, Nat.le_refl _, by omega, rfl,
          call.counted⟩
      · obtain ⟨since, first, last, past, wait, stop, timer⟩ := closing
        exact absurd (stop.symm.trans released.2.1) (by decide)
    next => exact keyed

/-- The limits stop the talk or have not been passed. -/
theorem Keyed.limits (keyed : Keyed press gap call.time talk)
    (small : gap < 4294900000) (pressed : press ≤ call.time) :
    UnderLimit press gap call.time
        (talkLimit call.toTalkCall (talkStops call.toTalkCall talk)) ∨
      StoppedAfter talk.actions
        (talkLimit call.toTalkCall (talkStops call.toTalkCall talk)) := by
  rcases keyed with ⟨held, inside⟩ | closing
  · obtain ⟨stop, limited, timer⟩ := held
    have quiet : talkStops call.toTalkCall talk = talk :=
      if_neg fun stopping => absurd (stop.symm.trans stopping.1) (by decide)
    have elapsed := counter_measures pressed (by omega)
    rw [quiet]
    left
    unfold Tp79Boot.talkLimit
    split
    next =>
      right
      exact ⟨call.time, pressed, inside, Nat.le_refl _, Nat.le_add_right _ _,
        rfl, call.counted⟩
    next early =>
      refine .inl ⟨⟨stop, limited, timer⟩, ?_⟩
      by_contra late
      apply early
      refine ⟨?_, limited⟩
      rw [UInt32.lt_iff_toNat_lt, call.counted, timer, elapsed]
      have limit : (50000 : UInt32).toNat = 50000 := rfl
      omega
  · obtain ⟨since, first, last, past, wait, stop, timer⟩ := closing
    have elapsed := counter_measures past (by omega)
    by_cases late : 400 < call.sysTickCnt - talk.keyDownTimer
    · right
      have stops : talkStops call.toTalkCall talk =
          { talk with
            pttStopFlag := false
            timerOverFlag := true
            actions := talk.actions ++ [.pocPttTalkStop] } :=
        if_pos ⟨stop, late⟩
      refine ⟨[.pocPttTalkStop], ?_, List.mem_singleton_self _⟩
      rw [talkLimit_actions, stops]
    · left
      have quiet : talkStops call.toTalkCall talk = talk :=
        if_neg fun stopping => late stopping.2
      rw [UInt32.lt_iff_toNat_lt, call.counted, timer, elapsed] at late
      have bound : (400 : UInt32).toNat = 400 := rfl
      have early : talkLimit call.toTalkCall talk = talk := by
        apply if_neg
        rintro ⟨past, _⟩
        rw [UInt32.lt_iff_toNat_lt, call.counted, timer, elapsed] at past
        have limit : (50000 : UInt32).toNat = 50000 := rfl
        omega
      rw [quiet, early]
      exact .inr ⟨since, first, last, past, by omega, stop, timer⟩

theorem UnderLimit.step (underLimit : UnderLimit press gap now talk)
    (after : now ≤ call.time) (soon : call.time ≤ now + gap)
    (pressed : press ≤ now) (refuses : ¬call.Accepts)
    (small : gap < 4294900000) :
    UnderLimit press gap call.time (talkStep talk call) ∨
      StoppedAfter talk.actions (talkStep talk call) := by
  have here : press ≤ call.time := Nat.le_trans pressed after
  have keyed := (underLimit.talkerTurn after soon pressed).talkKey refuses here
  rcases keyed.limits small here with inside | ⟨asked, added, stop⟩
  · exact .inl inside
  · right
    obtain ⟨more, all⟩ := talkKey_actions call.toTalkCall
      (Tp79Boot.talkerTurn call.toTalkCall talk)
    rw [talkerTurn_actions] at all
    refine ⟨more ++ asked, ?_, List.mem_append_right more stop⟩
    rw [← List.append_assoc, all]
    exact added

theorem UnderLimit.early (underLimit : UnderLimit press gap now talk) :
    now ≤ press + 50400 + gap := by
  rcases underLimit with ⟨_, limit⟩ | closing
  · omega
  · obtain ⟨since, _, last, _, wait, _⟩ := closing
    omega

theorem run_actions (talk : PttTalk) (calls : List TimedTalkCall) :
    talk.actions <+: (run talkStep talk calls).actions := by
  refine @run_invariant _ _ talkStep talk
    (fun next => talk.actions <+: next.actions) (List.prefix_refl _) ?_ calls
  intro next call longer
  exact longer.trans (talkStep_actions next call)

theorem UnderLimit.stopped {previous : TimedTalkCall}
    {later : List TimedTalkCall}
    (underLimit : UnderLimit press gap previous.time talk)
    (steady : (previous :: later).IsChain (Steady gap))
    (pressed : press ≤ previous.time)
    (refuses : ∀ call ∈ later, ¬call.Accepts)
    (small : gap < 4294900000)
    (late : ∃ call ∈ later, press + 50400 + gap < call.time) :
    StoppedAfter talk.actions (run talkStep talk later) := by
  induction later generalizing previous talk with
  | nil => exact absurd late (by simp)
  | cons call later induction =>
      obtain ⟨follows, rest⟩ := List.isChain_cons_cons.mp steady
      rw [run_cons]
      rcases underLimit.step follows.1 follows.2 pressed
          (refuses call List.mem_cons_self) small with inside | stopped
      · obtain ⟨asked, all, stop⟩ := induction inside rest
          (Nat.le_trans pressed follows.1)
          (fun other member => refuses other (List.mem_cons_of_mem _ member))
          (by
            obtain ⟨other, member, past⟩ := late
            rcases List.mem_cons.mp member with rfl | member
            · exact absurd inside.early (Nat.not_le_of_gt past)
            · exact ⟨other, member, past⟩)
        obtain ⟨more, before⟩ := talkStep_actions talk call
        refine ⟨more ++ asked, ?_, List.mem_append_right more stop⟩
        rw [all, ← before, List.append_assoc]
      · exact stopped.extends (run_actions _ later)

theorem underLimit_of_accepts (accepts : call.Accepts) :
    UnderLimit call.time gap call.time (talkStep talk call) := by
  obtain ⟨⟨down, online, allowed⟩, accepted⟩ := accepts
  have opens : talkKey call.toTalkCall (talkerTurn call.toTalkCall talk) =
      talkOpens call.toTalkCall (talkerTurn call.toTalkCall talk) := by
    unfold talkKey
    rw [if_pos down, if_pos online, if_pos allowed, if_pos accepted]
  have quiet : talkStops call.toTalkCall
      (talkOpens call.toTalkCall (talkerTurn call.toTalkCall talk)) =
        talkOpens call.toTalkCall (talkerTurn call.toTalkCall talk) :=
    if_neg fun stopping => nomatch stopping.1
  have early : talkLimit call.toTalkCall
      (talkOpens call.toTalkCall (talkerTurn call.toTalkCall talk)) =
        talkOpens call.toTalkCall (talkerTurn call.toTalkCall talk) := by
    apply if_neg
    rintro ⟨past, _⟩
    have none : call.sysTickCnt - call.sysTickCnt = 0 := by simp
    simp only [talkOpens, none] at past
    exact absurd past (by decide)
  rw [talkStep, appPttTalkTask, opens, quiet, early]
  exact .inl ⟨⟨rfl, rfl, call.counted⟩, Nat.le_add_right _ _⟩

end

/-- Whatever the flags were when the talk key was accepted, and whatever the
calls after it find: when no further press is accepted and calls are at most
`gap` apart, the radio has been asked to stop by the first call that is more
than 50400 milliseconds and one gap after the press. -/
theorem talk_closed_in_time {talk : PttTalk} {press : TimedTalkCall}
    {later : List TimedTalkCall} {gap : Nat} (accepts : press.Accepts)
    (refuses : ∀ call ∈ later, ¬call.Accepts)
    (steady : (press :: later).IsChain (Steady gap))
    (small : gap < 4294900000)
    (late : ∃ call ∈ later, press.time + 50400 + gap < call.time) :
    StoppedAfter (talkStep talk press).actions
      (run talkStep (talkStep talk press) later) :=
  (underLimit_of_accepts accepts).stopped steady (Nat.le_refl _) refuses small late

def timedTalkCall (keyValue : KeyValue) (time : Nat) : TimedTalkCall :=
  { toTalkCall := talkKeyCall keyValue (UInt32.ofNat time) 0
    time := time
    counted := rfl }

/-- A call every ten seconds, the counter starts again before the first. -/
def heldCalls : List TimedTalkCall :=
  [10000, 20000, 30000, 40000, 50000, 60000, 70000].map fun later =>
    timedTalkCall keyValueNone (4294960000 + later)

theorem talk_closed_in_time_held :
    StoppedAfter
      (talkStep PttTalk.start
        (timedTalkCall keyFunPttDown 4294960000)).actions
      (run talkStep
        (talkStep PttTalk.start (timedTalkCall keyFunPttDown 4294960000))
        heldCalls) := by
  have quiet : ∀ call ∈ heldCalls, ¬call.Accepts := by
    intro call member accepts
    obtain ⟨later, _, rfl⟩ := List.mem_map.mp member
    have noPress : keyValueNone ≠ keyFunPttDown := by decide
    exact noPress accepts.1.1
  have steady : (timedTalkCall keyFunPttDown 4294960000 ::
      heldCalls).IsChain (Steady 10000) := by
    simp [heldCalls, Steady, timedTalkCall]
  refine talk_closed_in_time ⟨⟨rfl, rfl, rfl⟩, .inr rfl⟩ quiet steady
    (by decide) ?_
  exact ⟨timedTalkCall keyValueNone (4294960000 + 70000), by simp [heldCalls],
    by decide⟩

end Tp79Boot
