import Tp79Boot.Lib.EventRun
import Tp79Boot.Lib.SlotLog
import Tp79Boot.CallLog

/-!
# The call log as a list

A list of calls, newest first, is kept beside the flash: a call that is added
goes to the front, and only 63 stay; a call that is deleted leaves the list.
The flash shows this list as long as no call is deleted from a full log.
-/

namespace Tp79Boot

open ByteStore EventRun SlotLog

inductive CallLogCall where
  | add (time : Vector UInt8 4) (name : Vector UInt8 26)
      (id : Vector UInt8 4) (type : UInt8) (reserve : Vector UInt8 29)
  | del (index : UInt8)

structure CallLogSession where
  flash : Store UInt8
  log : List CallLogT

def CallLogSession.start (layout : CallLogLayout) (flash : Store UInt8) :
    CallLogSession :=
  { flash := callLogDeinit layout flash
    log := [] }

def callLogStep (layout : CallLogLayout) (session : CallLogSession) :
    CallLogCall → CallLogSession
  | .add time name id type reserve =>
      { flash := callLogAdd layout time name id type reserve session.flash
        log := (⟨name, id, time, type, reserve⟩ :: session.log).take 63 }
  | .del index =>
      { flash := callLogDel layout index session.flash
        log := session.log.eraseIdx index.toNat }

/-- What is read is the list. -/
structure CallLogSession.Agrees (layout : CallLogLayout)
    (session : CallLogSession) : Prop where
  count : (callLogReadCnt layout session.flash).toNat = session.log.length
  entry : ∀ index : UInt8, 1 ≤ index.toNat →
    index.toNat ≤ (callLogReadCnt layout session.flash).toNat →
    session.log[index.toNat - 1]? =
      some (callLogRead layout index session.flash)

/-- Only what the log has is deleted. -/
def CallLogCall.Legal (layout : CallLogLayout) (session : CallLogSession) :
    CallLogCall → Prop
  | .add .. => True
  | .del index =>
      index.toNat < (callLogReadCnt layout session.flash).toNat

/-- The counter has not reached the number of records when a call is deleted,
nor the end of its range when a call is added. -/
def CallLogCall.BelowFull (layout : CallLogLayout)
    (session : CallLogSession) : CallLogCall → Prop
  | .add .. => callLogCnt layout session.flash ≠ 0xFFFFFFFF
  | .del _ => callLogCnt layout session.flash < callLogConstMax

/-- The slots show the list. -/
def CallLogSession.Kept (layout : CallLogLayout)
    (session : CallLogSession) : Prop :=
  Shows 63 (callLogRecord layout session.flash)
    (callLogCnt layout session.flash).toNat session.log

section

variable {layout : CallLogLayout} {session : CallLogSession}

theorem callLogRead_eq {index : UInt8}
    (written : index.toNat ≤ (callLogCnt layout session.flash).toNat) :
    callLogRead layout index session.flash =
      callLogRecord layout session.flash
        (((callLogCnt layout session.flash).toNat - index.toNat) % 63) := by
  have slot : ((callLogCnt layout session.flash - index.toUInt32) %
      callLogConstMax).toNat =
        ((callLogCnt layout session.flash).toNat - index.toNat) % 63 := by
    rw [UInt32.toNat_mod, UInt32.toNat_sub_of_le]
    · rfl
    · rw [UInt32.le_iff_toNat_le]
      exact written
  have inside : ((callLogCnt layout session.flash - index.toUInt32) %
      callLogConstMax).toNat ≤ 63 := by
    rw [slot]
    exact Nat.le_of_lt (Nat.mod_lt _ (by decide))
  simp only [callLogRead]
  rw [callLogSlot_toNat inside, slot]
  rfl

/-- The slots show the list, so it is what is read. -/
theorem CallLogSession.Kept.agrees (kept : session.Kept layout) :
    session.Agrees layout := by
  have count : (callLogReadCnt layout session.flash).toNat =
      session.log.length := by
    rw [callLogReadCnt_toNat, kept.length]
  constructor
  · exact count
  · intro index positive inside
    have length := kept.length
    have bound : index.toNat - 1 < session.log.length := by omega
    have written :
        index.toNat ≤ (callLogCnt layout session.flash).toNat := by omega
    have entry := kept.entry (index.toNat - 1) bound
    rw [Nat.sub_add_cancel positive] at entry
    rw [callLogRead_eq written, entry]
    exact List.getElem?_eq_getElem bound

theorem start_kept (layout : CallLogLayout) (flash : Store UInt8) :
    (CallLogSession.start layout flash).Kept layout := by
  have zero : callLogCnt layout (CallLogSession.start layout flash).flash = 0 :=
    callLogCnt_write
  rw [CallLogSession.Kept, zero]
  exact shows_nil

theorem callLogAdd_cnt {time : Vector UInt8 4} {name : Vector UInt8 26}
    {id : Vector UInt8 4} {type : UInt8} {reserve : Vector UInt8 29}
    {flash : Store UInt8} :
    callLogCnt layout (callLogAdd layout time name id type reserve flash) =
      callLogCnt layout flash + 1 :=
  callLogCnt_write

theorem callLogAdd_record {time : Vector UInt8 4} {name : Vector UInt8 26}
    {id : Vector UInt8 4} {type : UInt8} {reserve : Vector UInt8 29}
    {flash : Store UInt8} {slot : Nat} (inside : slot < 63) :
    callLogRecord layout (callLogAdd layout time name id type reserve flash)
        slot =
      if (callLogCnt layout flash).toNat % 63 = slot then
        ⟨name, id, time, type, reserve⟩
      else callLogRecord layout flash slot := by
  have next : (callLogCnt layout flash % callLogConstMax).toNat =
      (callLogCnt layout flash).toNat % 63 := UInt32.toNat_mod _ _
  have within : (callLogCnt layout flash % callLogConstMax).toNat ≤ 63 := by
    rw [next]
    exact Nat.le_of_lt (Nat.mod_lt _ (by decide))
  simp only [callLogAdd]
  rw [callLogRecord_write inside, callLogSlot_toNat within, next,
    callLogRecord_save]

theorem cnt_succ {cnt : UInt32} (notLast : cnt ≠ 0xFFFFFFFF) :
    (cnt + 1).toNat = cnt.toNat + 1 := by
  have range := cnt.toNat_lt
  have below : cnt.toNat ≠ 4294967295 := by
    intro last
    exact notLast (UInt32.toNat_inj.mp last)
  rw [UInt32.toNat_add]
  simp only [UInt32.reduceToNat]
  omega

theorem callLogAdd_kept {time : Vector UInt8 4} {name : Vector UInt8 26}
    {id : Vector UInt8 4} {type : UInt8} {reserve : Vector UInt8 29}
    (kept : session.Kept layout)
    (notLast : callLogCnt layout session.flash ≠ 0xFFFFFFFF) :
    (callLogStep layout session (.add time name id type reserve)).Kept
      layout := by
  have newest : (callLogCnt layout session.flash).toNat % 63 < 63 :=
    Nat.mod_lt _ (by decide)
  rw [CallLogSession.Kept]
  simp only [callLogStep, callLogAdd_cnt, cnt_succ notLast]
  apply kept.push (by decide)
  · rw [callLogAdd_record newest, if_pos rfl]
  · intro slot inside other
    rw [callLogAdd_record inside, if_neg (Ne.symm other)]

theorem callLogAdd_spoils {time : Vector UInt8 4} {name : Vector UInt8 26}
    {id : Vector UInt8 4} {type : UInt8} {reserve : Vector UInt8 29}
    (last : callLogCnt layout session.flash = 0xFFFFFFFF) :
    ¬(callLogStep layout session (.add time name id type reserve)).Agrees
      layout := by
  intro agrees
  have count := agrees.count
  simp only [callLogStep] at count
  rw [callLogReadCnt_toNat, callLogAdd_cnt, last, List.length_take,
    List.length_cons] at count
  have wrapped : ((0xFFFFFFFF : UInt32) + 1).toNat = 0 := rfl
  rw [wrapped] at count
  omega

theorem callLogDel_cnt {index : UInt8} {flash : Store UInt8} :
    callLogCnt layout (callLogDel layout index flash) =
      callLogCnt layout flash % callLogConstMax - 1 :=
  callLogCnt_write

theorem newest_toNat {cnt : UInt32} (small : cnt.toNat < 63)
    (some : 0 < cnt.toNat) :
    (cnt % callLogConstMax - 1).toNat = cnt.toNat - 1 := by
  have folded : (cnt % callLogConstMax).toNat = cnt.toNat :=
    (UInt32.toNat_mod _ _).trans (Nat.mod_eq_of_lt small)
  rw [UInt32.toNat_sub_of_le, folded]
  · rfl
  · rw [UInt32.le_iff_toNat_le, folded]
    exact some

theorem callLogDel_record {index : UInt8} {flash : Store UInt8} {slot : Nat}
    (small : (callLogCnt layout flash).toNat < 63)
    (inside : index.toNat < (callLogCnt layout flash).toNat)
    (slotInside : slot < 63) :
    callLogRecord layout (callLogDel layout index flash) slot =
      callLogRecord layout (callLogShift layout
        ((callLogCnt layout flash).toNat - 1 - index.toNat) flash) slot := by
  have newest := newest_toNat small (Nat.lt_of_le_of_lt (Nat.zero_le _) inside)
  have first : (callLogCnt layout flash % callLogConstMax - 1 -
      index.toUInt32).toNat =
        (callLogCnt layout flash).toNat - 1 - index.toNat := by
    rw [UInt32.toNat_sub_of_le, newest]
    · rfl
    · rw [UInt32.le_iff_toNat_le, newest]
      exact Nat.le_sub_one_of_lt inside
  have within : (callLogCnt layout flash % callLogConstMax - 1 -
      index.toUInt32).toNat < 63 := by
    rw [first]
    omega
  simp only [callLogDel]
  rw [callLogRecord_write slotInside, move_eq_shift within, first]

theorem callLogDel_kept {index : UInt8} (kept : session.Kept layout)
    (small : (callLogCnt layout session.flash).toNat < 63)
    (inside : index.toNat < (callLogCnt layout session.flash).toNat) :
    (callLogStep layout session (.del index)).Kept layout := by
  have length := kept.length
  have place : index.toNat < session.log.length := by
    rw [length, Nat.min_eq_left (Nat.le_of_lt small)]
    exact inside
  have count : (callLogCnt layout (callLogDel layout index
      session.flash)).toNat = (callLogCnt layout session.flash).toNat - 1 := by
    rw [callLogDel_cnt]
    exact newest_toNat small (Nat.lt_of_le_of_lt (Nat.zero_le _) inside)
  rw [CallLogSession.Kept]
  simp only [callLogStep, count]
  apply kept.remove small place
  · intro slot older
    rw [callLogDel_record small inside (by omega),
      callLogRecord_shift_older (by omega)]
  · intro slot newer used
    rw [callLogDel_record small inside (by omega),
      callLogRecord_shift_newer (by omega) (by omega)]

theorem callLogDel_spoils {index : UInt8} (kept : session.Kept layout)
    (inside : index.toNat < (callLogReadCnt layout session.flash).toNat)
    (full : 63 ≤ (callLogCnt layout session.flash).toNat) :
    ¬(callLogStep layout session (.del index)).Agrees layout := by
  intro agrees
  have length := kept.length
  rw [Nat.min_eq_right full] at length
  have place : index.toNat < session.log.length := by
    rw [callLogReadCnt_toNat, Nat.min_eq_right full] at inside
    rw [length]
    exact inside
  have count := agrees.count
  simp only [callLogStep] at count
  rw [List.length_eraseIdx_of_lt place, length, callLogReadCnt_toNat,
    callLogDel_cnt] at count
  have folded : (callLogCnt layout session.flash % callLogConstMax).toNat =
      (callLogCnt layout session.flash).toNat % 63 := UInt32.toNat_mod _ _
  have range : (callLogCnt layout session.flash % callLogConstMax).toNat <
      63 := by
    rw [folded]
    exact Nat.mod_lt _ (by decide)
  rw [UInt32.toNat_sub] at count
  simp only [UInt32.reduceToNat] at count
  omega

theorem callLogStep_kept {call : CallLogCall} (kept : session.Kept layout)
    (legal : call.Legal layout session)
    (below : call.BelowFull layout session) :
    (callLogStep layout session call).Kept layout := by
  cases call with
  | add time name id type reserve => exact callLogAdd_kept kept below
  | del index =>
      have small : (callLogCnt layout session.flash).toNat < 63 :=
        UInt32.lt_iff_toNat_lt.mp below
      have inside :
          index.toNat < (callLogReadCnt layout session.flash).toNat := legal
      rw [callLogReadCnt_toNat,
        Nat.min_eq_left (Nat.le_of_lt small)] at inside
      exact callLogDel_kept kept small inside

theorem callLogStep_spoils {call : CallLogCall} (kept : session.Kept layout)
    (legal : call.Legal layout session)
    (refused : ¬call.BelowFull layout session) :
    ¬(callLogStep layout session call).Agrees layout := by
  cases call with
  | add time name id type reserve =>
      exact callLogAdd_spoils (not_not.mp refused)
  | del index =>
      have full : 63 ≤ (callLogCnt layout session.flash).toNat := by
        apply Nat.le_of_not_lt
        intro small
        exact refused (UInt32.lt_iff_toNat_lt.mpr small)
      exact callLogDel_spoils kept legal full

end

/-- As long as only calls of the log are deleted, the log is the list of the
calls exactly when none is deleted from a full log. -/
theorem callLog_refines_iff (layout : CallLogLayout) (flash : Store UInt8)
    (calls : List CallLogCall)
    (legal : Admitted (callLogStep layout) (CallLogCall.Legal layout)
      (CallLogSession.start layout flash) calls) :
    Always (callLogStep layout) (CallLogSession.Agrees layout)
        (CallLogSession.start layout flash) calls ↔
      Admitted (callLogStep layout) (CallLogCall.BelowFull layout)
        (CallLogSession.start layout flash) calls :=
  always_iff_admitted_of_legal (start_kept layout flash)
    (fun _ kept => kept.agrees)
    (fun _ _ kept here below => callLogStep_kept kept here below)
    (fun _ _ kept here refused => callLogStep_spoils kept here refused) legal

/-- The records directly after the counter. -/
def packedCallLog : CallLogLayout :=
  { cntAddr := 0
    infoStart := 4
    fits := by decide
    apart := .inl (Nat.le_refl 4) }

def aCall : CallLogCall :=
  .add (Vector.replicate 4 0) (Vector.replicate 26 0) (Vector.replicate 4 7) 1
    (Vector.replicate 29 0)

/-- After so many calls have been added. -/
def callsAdded (count : Nat) : CallLogSession :=
  run (callLogStep packedCallLog)
    (CallLogSession.start packedCallLog fun _ => 0xFF)
    (List.replicate count aCall)

theorem callsAdded_succ (count : Nat) :
    callsAdded (count + 1) =
      callLogStep packedCallLog (callsAdded count) aCall := by
  rw [callsAdded, List.replicate_succ', run_concat, callsAdded]

theorem callsAdded_cnt (count : Nat) :
    callLogCnt packedCallLog (callsAdded count).flash = UInt32.ofNat count := by
  induction count with
  | zero => exact callLogCnt_write
  | succ count induction =>
      have next : callLogCnt packedCallLog (callsAdded (count + 1)).flash =
          callLogCnt packedCallLog (callsAdded count).flash + 1 := by
        rw [callsAdded_succ]
        exact callLogAdd_cnt
      rw [next, induction, UInt32.ofNat_add]
      rfl

theorem callsAdded_kept {count : Nat} (few : count ≤ 63) :
    (callsAdded count).Kept packedCallLog := by
  induction count with
  | zero => exact start_kept _ _
  | succ count induction =>
      have earlier : count < 63 := few
      have notLast : callLogCnt packedCallLog (callsAdded count).flash ≠
          0xFFFFFFFF := by
        rw [callsAdded_cnt]
        intro last
        have value := congrArg UInt32.toNat last
        rw [UInt32.toNat_ofNat_of_lt' (Nat.lt_trans earlier (by decide))]
          at value
        exact absurd value (Nat.ne_of_lt (Nat.lt_trans earlier (by decide)))
      rw [callsAdded_succ]
      exact callLogAdd_kept (induction (Nat.le_of_lt earlier)) notLast

theorem callsAdded_del_legal {count : Nat}
    (some : (CallLogCall.del 0).Legal packedCallLog (callsAdded count)) :
    Admitted (callLogStep packedCallLog) (CallLogCall.Legal packedCallLog)
      (CallLogSession.start packedCallLog fun _ => 0xFF)
      (List.replicate count aCall ++ [.del 0]) := by
  rw [admitted_concat]
  refine ⟨admitted_of_forall ?_, some⟩
  intro session call member
  rw [List.eq_of_mem_replicate member]
  trivial

theorem callLogStep_cnt (session : CallLogSession) (call : CallLogCall) :
    callLogCnt layout (callLogStep layout session call).flash =
      match call with
      | .add .. => callLogCnt layout session.flash + 1
      | .del _ => callLogCnt layout session.flash % callLogConstMax - 1 := by
  cases call with
  | add => exact callLogAdd_cnt
  | del => exact callLogDel_cnt

/-- Five calls, of which two are deleted before another one comes. -/
def mixedCalls : List CallLogCall :=
  List.replicate 5 aCall ++ [.del 0] ++ [.del 3] ++ [aCall] ++ [.del 2]

theorem mixedCalls_legal :
    Admitted (callLogStep packedCallLog) (CallLogCall.Legal packedCallLog)
      (CallLogSession.start packedCallLog fun _ => 0xFF) mixedCalls := by
  have five := callsAdded_cnt 5
  have first : (CallLogCall.del 0).Legal packedCallLog (callsAdded 5) := by
    rw [CallLogCall.Legal, callLogReadCnt_toNat, five]
    decide
  have added := callsAdded_del_legal first
  unfold mixedCalls
  rw [admitted_concat, admitted_concat, admitted_concat]
  refine ⟨⟨⟨added, ?_⟩, trivial⟩, ?_⟩
  · rw [CallLogCall.Legal, callLogReadCnt_toNat, run_concat, callLogStep_cnt,
      ← callsAdded, five]
    decide
  · rw [CallLogCall.Legal, callLogReadCnt_toNat, run_concat, callLogStep_cnt,
      run_concat, callLogStep_cnt, run_concat, callLogStep_cnt, ← callsAdded,
      five]
    decide

theorem callLog_refines_iff_mixed :
    Always (callLogStep packedCallLog) (CallLogSession.Agrees packedCallLog)
        (CallLogSession.start packedCallLog fun _ => 0xFF) mixedCalls ↔
      Admitted (callLogStep packedCallLog)
        (CallLogCall.BelowFull packedCallLog)
        (CallLogSession.start packedCallLog fun _ => 0xFF) mixedCalls :=
  callLog_refines_iff packedCallLog (fun _ => 0xFF) mixedCalls mixedCalls_legal

/-- 63 calls, and the newest is deleted. -/
theorem callLog_refines_full :
    Admitted (callLogStep packedCallLog) (CallLogCall.Legal packedCallLog)
        (CallLogSession.start packedCallLog fun _ => 0xFF)
        (List.replicate 63 aCall ++ [.del 0]) ∧
      ¬Always (callLogStep packedCallLog)
        (CallLogSession.Agrees packedCallLog)
        (CallLogSession.start packedCallLog fun _ => 0xFF)
        (List.replicate 63 aCall ++ [.del 0]) := by
  have legal : (CallLogCall.del 0).Legal packedCallLog (callsAdded 63) := by
    unfold CallLogCall.Legal
    rw [callLogReadCnt_toNat, callsAdded_cnt]
    decide
  refine ⟨callsAdded_del_legal legal, ?_⟩
  intro always
  have kept : (callsAdded 63).Kept packedCallLog :=
    callsAdded_kept (Nat.le_refl 63)
  have full : 63 ≤ (callLogCnt packedCallLog (callsAdded 63).flash).toNat := by
    rw [callsAdded_cnt]
    decide
  apply callLogDel_spoils kept legal full
  have final := (always_concat.mp always).2
  rw [run_concat] at final
  exact final

end Tp79Boot
