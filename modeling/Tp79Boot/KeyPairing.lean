import Tp79Boot.Key

/-!
# Presses and releases

A release is reported for every key of which a first reading was taken, even
when its press was not; and a key that is found released after exactly three
seconds is forgotten without a word.  When neither happens, presses and
releases pair up.
-/

namespace Tp79Boot

open EventRun Bracketing

/-- One call of `key_scan_task`. -/
structure ScanCall where
  sysTickCnt : UInt32
  pads : Pads

/-- The scanner, and the tick of its last call. -/
structure KeySession where
  scan : KeyScan
  sysTickCnt : UInt32

def KeySession.start : KeySession :=
  { scan := KeyScan.start
    sysTickCnt := 0 }

def keyStep (session : KeySession) (call : ScanCall) : KeySession :=
  { scan := keyScanTask call.sysTickCnt call.pads session.scan
    sysTickCnt := call.sysTickCnt }

/-- The tick does not go back. -/
def InTime (session : KeySession) (call : ScanCall) : Prop :=
  session.sysTickCnt ≤ call.sysTickCnt

instance (session : KeySession) (call : ScanCall) :
    Decidable (InTime session call) :=
  inferInstanceAs (Decidable (_ ≤ _))

/-- `KEY_VALUE_DOWN1` to `KEY_VALUE_DOWN21` open a press, `KEY_VALUE_UP1` to
`KEY_VALUE_UP21` close it, and the codes for three seconds do neither. -/
def keyMark (keyValue : KeyValue) : Option (Mark KeyValue) :=
  if keyValueDown1 ≤ keyValue ∧ keyValue ≤ keyValueDown21 then
    some (.opens keyValue)
  else if keyValueUp1 ≤ keyValue ∧
      keyValue ≤ keyValueDown21 + (keyValueUp1 - keyValueDown1) then
    some (.closes (keyValue - (keyValueUp1 - keyValueDown1)))
  else none

def keyMarks (keyValues : List KeyValue) : List (Mark KeyValue) :=
  keyValues.filterMap keyMark

/-- Each release follows the press of its key, and when the scanner waits for
a key, every press has had its one release. -/
def Paired (session : KeySession) : Prop :=
  ∃ held, Bracketed (keyMarks session.scan.keyValues) held ∧
    (session.scan.keyValueTemp = keyValueNone → held = none)

/-- The call does not come too late: a key that has been read once is not
released, and not down for more than three seconds, before its press is
reported; and a key whose press is reported is down if it is looked at after
three seconds to the millisecond. -/
structure Punctual (session : KeySession) (call : ScanCall) : Prop where
  released : session.scan.keyValueTemp ≠ keyValueNone →
    session.scan.keyStatus = keyValueNone →
    keyStatusIsdown call.pads = keyValueNone →
    keyTingleTimerMax < call.sysTickCnt - session.scan.keyTingleTimer →
    call.sysTickCnt - session.scan.keyTingleTimer = keyTimer3SMax
  held : session.scan.keyValueTemp ≠ keyValueNone →
    session.scan.keyStatus = keyValueNone →
    keyStatusIsdown call.pads ≠ keyValueNone →
    ¬keyTimer3SMax < call.sysTickCnt - session.scan.keyTingleTimer
  atLimit : session.scan.keyStatus ≠ keyValueNone →
    call.sysTickCnt - session.scan.keyTingleTimer = keyTimer3SMax →
    keyStatusIsdown call.pads = session.scan.keyValueTemp

private theorem keyMark_table : ∀ key : Fin 22, key.val ≠ 0 →
    keyMark (UInt8.ofNat key) = some (.opens (UInt8.ofNat key)) ∧
      keyMark (UInt8.ofNat key + (keyValueDown1For3S - keyValueNone)) = none ∧
      keyMark (UInt8.ofNat key + (keyValueUp1 - keyValueDown1)) =
        some (.closes (UInt8.ofNat key)) := by
  decide

theorem keyMark_codes {key : KeyValue} (some_ : key ≠ keyValueNone)
    (inside : key ≤ keyValueDown21) :
    keyMark key = some (.opens key) ∧
      keyMark (key + (keyValueDown1For3S - keyValueNone)) = none ∧
      keyMark (key + (keyValueUp1 - keyValueDown1)) = some (.closes key) := by
  have below : key.toNat < 22 := Nat.lt_succ_of_le inside
  have positive : key.toNat ≠ 0 := fun zero => some_ (UInt8.toNat_inj.mp zero)
  have codes := keyMark_table ⟨key.toNat, below⟩ positive
  simp only [UInt8.ofNat_toNat] at codes
  exact codes

theorem keyMarks_append (first second : List KeyValue) :
    keyMarks (first ++ second) = keyMarks first ++ keyMarks second :=
  List.filterMap_append

theorem keyMarks_singleton {keyValue : KeyValue} {mark : Mark KeyValue}
    (code : keyMark keyValue = some mark) : keyMarks [keyValue] = [mark] := by
  simp [keyMarks, code]

/-- What is left open by the history is the key whose press is reported. -/
structure Tracked (session : KeySession) : Prop where
  key : session.scan.keyValueTemp ≤ keyValueDown21
  status : session.scan.keyStatus = keyValueNone ∨
    session.scan.keyStatus = session.scan.keyValueTemp
  marks : Bracketed (keyMarks session.scan.keyValues)
    (if session.scan.keyStatus = keyValueNone then none
      else some session.scan.keyStatus)
  started : session.scan.keyTingleTimer ≤ session.sysTickCnt
  settled : session.scan.keyStatus ≠ keyValueNone →
    keyTingleTimerMax < session.sysTickCnt - session.scan.keyTingleTimer

theorem start_tracked : Tracked KeySession.start := by
  refine ⟨by decide, .inl rfl, .nil, by decide, ?_⟩
  intro other
  exact absurd rfl other

private theorem elapsed_mono {bound timer earlier later : UInt32}
    (started : timer ≤ earlier) (passed : bound < earlier - timer)
    (inTime : earlier ≤ later) : bound < later - timer := by
  have whole : timer ≤ later := UInt32.le_trans started inTime
  rw [UInt32.lt_iff_toNat_lt, UInt32.toNat_sub_of_le _ _ started] at passed
  rw [UInt32.lt_iff_toNat_lt, UInt32.toNat_sub_of_le _ _ whole]
  have order := UInt32.le_iff_toNat_le.mp inTime
  omega

section

variable {session : KeySession} {call : ScanCall}

theorem Tracked.paired (tracked : Tracked session) : Paired session := by
  refine ⟨_, tracked.marks, ?_⟩
  intro waiting
  apply if_pos
  rcases tracked.status with none_ | same
  · exact none_
  · exact same.trans waiting

private theorem KeyScan.release_eq {scan : KeyScan}
    (key : scan.keyStatus ≤ keyValueDown21) :
    scan.release = (scan.put (scan.keyValueTemp +
      (keyValueUp1 - keyValueDown1))).idle := by
  apply if_pos
  exact UInt8.lt_of_le_of_lt key (by decide)

theorem Tracked.step (tracked : Tracked session) (inTime : InTime session call)
    (punctual : Punctual session call) : Tracked (keyStep session call) := by
  have started : session.scan.keyTingleTimer ≤ call.sysTickCnt :=
    UInt32.le_trans tracked.started inTime
  have settled (reported : session.scan.keyStatus ≠ keyValueNone) :
      keyTingleTimerMax < call.sysTickCnt - session.scan.keyTingleTimer :=
    elapsed_mono tracked.started (tracked.settled reported) inTime
  have sameKey (reported : session.scan.keyStatus ≠ keyValueNone) :
      session.scan.keyStatus = session.scan.keyValueTemp :=
    tracked.status.resolve_left reported
  have noKey : keyValueNone ≤ keyValueDown21 := by decide
  have scanned := keyScanTask_scanned call.sysTickCnt call.pads session.scan
  unfold keyStep
  generalize keyScanTask call.sysTickCnt call.pads session.scan = next
    at scanned
  cases scanned with
  | nothing =>
      exact ⟨tracked.key, tracked.status, tracked.marks, started, settled⟩
  | press waiting isDown =>
      have none_ : session.scan.keyStatus = keyValueNone := by
        rcases tracked.status with none_ | same
        · exact none_
        · exact same.trans waiting
      exact ⟨pressedKey_le call.pads, .inl none_, tracked.marks,
        UInt32.le_refl _, fun reported => absurd none_ reported⟩
  | down waiting fresh late =>
      obtain ⟨press, _, _⟩ := keyMark_codes waiting tracked.key
      have marks := tracked.marks
      rw [if_pos fresh] at marks
      refine ⟨tracked.key, .inr rfl, ?_, started, fun _ => late⟩
      simp only [KeyScan.put, keyMarks_append, keyMarks_singleton press,
        if_neg waiting]
      exact .opens _ marks
  | hold waiting long isDown =>
      obtain ⟨_, holding, _⟩ := keyMark_codes waiting tracked.key
      have reported : session.scan.keyStatus ≠ keyValueNone := fun none_ =>
        punctual.held waiting none_ isDown long
      have silent : keyMarks [session.scan.keyValueTemp +
          (keyValueDown1For3S - keyValueNone)] = [] := by
        simp [keyMarks, holding]
      have marks := tracked.marks
      rw [sameKey reported] at marks
      refine ⟨tracked.key, .inr rfl, ?_, started, fun _ => settled reported⟩
      simp only [KeyScan.put, keyMarks_append, silent, List.append_nil]
      exact marks
  | up waiting late notLimit isUp =>
      obtain ⟨_, _, releases⟩ := keyMark_codes waiting tracked.key
      have reported : session.scan.keyStatus ≠ keyValueNone := fun none_ =>
        notLimit (punctual.released waiting none_ isUp late)
      have same := sameKey reported
      have marks := tracked.marks
      rw [if_neg reported, same] at marks
      have below : session.scan.keyStatus ≤ keyValueDown21 := by
        rw [same]
        exact tracked.key
      rw [KeyScan.release_eq below]
      refine ⟨noKey, .inl rfl, ?_, started, fun other => absurd rfl other⟩
      simp only [KeyScan.put, KeyScan.idle, keyMarks_append,
        keyMarks_singleton releases, if_true]
      exact .closes marks
  | drop waiting moment differs =>
      have none_ : session.scan.keyStatus = keyValueNone := by
        by_contra reported
        rcases moment with early | limit
        · exact absurd (settled reported) (UInt32.not_lt.mpr early)
        · exact differs (punctual.atLimit reported limit)
      have marks := tracked.marks
      rw [if_pos none_] at marks
      refine ⟨noKey, .inl rfl, ?_, started, fun other => absurd rfl other⟩
      simp only [KeyScan.idle, if_true]
      exact marks

end

/-- In a run in which no call comes too late, presses and releases pair up in
every state reached. -/
theorem keys_paired_of_punctual (calls : List ScanCall)
    (inTime : Admitted keyStep InTime KeySession.start calls)
    (punctual : Admitted keyStep Punctual KeySession.start calls) :
    Paired (run keyStep KeySession.start calls) := by
  have tracked : Tracked (run keyStep KeySession.start calls) := by
    induction calls using List.reverseRecOn with
    | nil => exact start_tracked
    | append_singleton calls last induction =>
        rw [run_concat]
        exact (induction inTime.of_append punctual.of_append).step inTime.last
          punctual.last
  exact tracked.paired

/-- A call at some tick, with no key down but perhaps the one at pin 19. -/
def talkCall (sysTickCnt : UInt32) (down : Bool) : ScanCall :=
  { sysTickCnt := sysTickCnt
    pads :=
      { adcKey19 := 0xFFF
        adcKey1018 := 0xFFF
        key19Down := down
        key20Down := false
        key21Down := false } }

/-- The key is down for a tenth of a second. -/
theorem keys_paired_of_punctual_press :
    Paired (run keyStep KeySession.start
      ([talkCall 0 true, talkCall 50 true] ++ [talkCall 100 false])) := by
  have first : Admitted keyStep (fun session call => InTime session call ∧
      Punctual session call) KeySession.start ([] ++ [talkCall 0 true]) :=
    admitted_concat.mpr ⟨admitted_nil, by decide,
      ⟨by decide, by decide, by decide⟩⟩
  have second : Admitted keyStep (fun session call => InTime session call ∧
      Punctual session call) KeySession.start
        ([talkCall 0 true] ++ [talkCall 50 true]) :=
    admitted_concat.mpr ⟨first, by decide, ⟨by decide, by decide, by decide⟩⟩
  have third : Admitted keyStep (fun session call => InTime session call ∧
      Punctual session call) KeySession.start
        ([talkCall 0 true, talkCall 50 true] ++ [talkCall 100 false]) :=
    admitted_concat.mpr ⟨second, by decide, ⟨by decide, by decide, by decide⟩⟩
  apply keys_paired_of_punctual
  · exact fun before call after split => (third before call after split).1
  · exact fun before call after split => (third before call after split).2

/-- The key is down for one reading only: its release is reported, and no
press. -/
theorem keys_paired_tap :
    ¬∀ calls : List ScanCall,
      Admitted keyStep InTime KeySession.start calls →
        Paired (run keyStep KeySession.start calls) := by
  intro paired
  have first : Admitted keyStep InTime KeySession.start
      ([] ++ [talkCall 0 true]) :=
    admitted_concat.mpr ⟨admitted_nil, by decide⟩
  have second : Admitted keyStep InTime KeySession.start
      ([talkCall 0 true] ++ [talkCall 25 false]) :=
    admitted_concat.mpr ⟨first, by decide⟩
  obtain ⟨held, bracketed, _⟩ := paired _ second
  have released : keyMarks (run keyStep KeySession.start
      ([talkCall 0 true] ++ [talkCall 25 false])).scan.keyValues =
        [.closes keyValueDown19] := by decide
  rw [released] at bracketed
  exact not_bracketed_closes bracketed

end Tp79Boot
