import Tp79Boot.Lib.LineSplitting
import Tp79Boot.Lib.WhileLoop
import Tp79Boot.Uart

/-!
# Taking lines out of the ring

The second half of `poc_task`.  It looks for a line end from the reading
position on, with a counter that is kept between calls, copies each line it
finds into a buffer of its own, and hands the buffer on.  What the lines are
handed to is a parameter here.
-/

namespace Tp79Boot

open WhileLoop LineSplitting

/-- `device_uart2` together with the counter `cmp_cnt`. -/
structure Receiver where
  deviceUart : DeviceUart
  cmpCnt : Nat

namespace Receiver

abbrev ring (receiver : Receiver) : RingBuffer UInt8 uartRxbufLenMax :=
  receiver.deviceUart.recvBuf

def contents (receiver : Receiver) : List UInt8 :=
  receiver.ring.contents

/-- The receiver with its positions and its counter moved. -/
def moved (receiver : Receiver)
    (recvBuf : RingBuffer UInt8 uartRxbufLenMax) (cmpCnt : Nat) : Receiver :=
  { deviceUart := { receiver.deviceUart with recvBuf := recvBuf }
    cmpCnt := cmpCnt }

@[simp] theorem moved_ring (receiver : Receiver)
    (recvBuf : RingBuffer UInt8 uartRxbufLenMax) (cmpCnt : Nat) :
    (receiver.moved recvBuf cmpCnt).ring = recvBuf := rfl

@[simp] theorem moved_cmpCnt (receiver : Receiver)
    (recvBuf : RingBuffer UInt8 uartRxbufLenMax) (cmpCnt : Nat) :
    (receiver.moved recvBuf cmpCnt).cmpCnt = cmpCnt := rfl

end Receiver

/-- `uart2_config` has run and `cmp_cnt` is zero since reset. -/
def Receiver.start : Receiver :=
  { deviceUart := uart2Config
    cmpCnt := 0 }

/-- There is another unread byte after the one `cmp_cnt` points at. -/
def UnreadAfter (recvBuf : RingBuffer UInt8 uartRxbufLenMax) (cmpCnt : Nat) :
    Prop :=
  (recvBuf.readP < recvBuf.writeP ∧
      cmpCnt + 1 < recvBuf.writeP - recvBuf.readP) ∨
    (recvBuf.readP > recvBuf.writeP ∧
      cmpCnt + 1 < uartRxbufLenMax - recvBuf.readP + recvBuf.writeP)

instance (recvBuf : RingBuffer UInt8 uartRxbufLenMax) (cmpCnt : Nat) :
    Decidable (UnreadAfter recvBuf cmpCnt) :=
  inferInstanceAs (Decidable (_ ∨ _))

section

variable {σ : Type} (deal : σ → List UInt8 → σ)

/-- One turn of the loop. -/
def drainTurn (state : σ) (receiver : Receiver) : Turn (σ × Receiver) :=
  if receiver.ring.readP = receiver.ring.writeP then .done (state, receiver)
  else if isLineEnd (receiver.ring.cell receiver.cmpCnt) then
    .again
      (if 2 ≤ receiver.cmpCnt then
        deal state (lineBuffer receiver.ring receiver.cmpCnt)
      else state,
      receiver.moved (receiver.ring.advance (receiver.cmpCnt + 1)) 0)
  else if UnreadAfter receiver.ring receiver.cmpCnt then
    .again (state, receiver.moved receiver.ring (receiver.cmpCnt + 1))
  else if 1024 ≤ receiver.cmpCnt then
    .done (state, receiver.moved receiver.ring.rewind 0)
  else .done (state, receiver)

/-- The bytes still to be looked at.  A counter past the unread bytes is left
behind by the first turn. -/
def turnsLeft (receiver : Receiver) : Nat :=
  if receiver.cmpCnt = 0 ∨ receiver.cmpCnt < receiver.ring.backlog then
    receiver.ring.backlog - receiver.cmpCnt
  else uartRxbufLenMax

variable {deal} {state dealt : σ} {receiver next : Receiver}

theorem unreadAfter_iff {recvBuf : RingBuffer UInt8 uartRxbufLenMax}
    (cmpCnt : Nat) :
    UnreadAfter recvBuf cmpCnt ↔ cmpCnt + 1 < recvBuf.backlog := by
  have backlog := recvBuf.backlog_cases
  unfold UnreadAfter
  omega

/-- What a turn that goes on does: it takes a line out of the ring, or looks
one byte further. -/
theorem drainTurn_again
    (goesOn : drainTurn deal state receiver = .again (dealt, next)) :
    receiver.ring.backlog ≠ 0 ∧
      (isLineEnd (receiver.ring.cell receiver.cmpCnt) = true ∧
          dealt = (if 2 ≤ receiver.cmpCnt then
            deal state (lineBuffer receiver.ring receiver.cmpCnt)
            else state) ∧
          next = receiver.moved
            (receiver.ring.advance (receiver.cmpCnt + 1)) 0 ∨
        isLineEnd (receiver.ring.cell receiver.cmpCnt) = false ∧
          receiver.cmpCnt + 1 < receiver.ring.backlog ∧ dealt = state ∧
          next = receiver.moved receiver.ring (receiver.cmpCnt + 1)) := by
  unfold drainTurn at goesOn
  by_cases empty : receiver.ring.readP = receiver.ring.writeP
  · rw [if_pos empty] at goesOn
    cases goesOn
  · rw [if_neg empty] at goesOn
    refine ⟨(receiver.ring.backlog_eq_zero_iff).not.mpr empty, ?_⟩
    by_cases lineEnd :
        isLineEnd (receiver.ring.cell receiver.cmpCnt) = true
    · rw [if_pos lineEnd] at goesOn
      cases goesOn
      exact .inl ⟨lineEnd, rfl, rfl⟩
    · rw [if_neg lineEnd] at goesOn
      by_cases more : UnreadAfter receiver.ring receiver.cmpCnt
      · rw [if_pos more] at goesOn
        cases goesOn
        exact .inr ⟨Bool.eq_false_iff.mpr lineEnd,
          (unreadAfter_iff _).mp more, rfl, rfl⟩
      · rw [if_neg more] at goesOn
        split at goesOn
        · cases goesOn
        · cases goesOn

/-- What the last turn does: nothing when no complete line is left, unless the
bytes without a line end have filled the buffer. -/
theorem drainTurn_done
    (stops : drainTurn deal state receiver = .done (dealt, next)) :
    dealt = state ∧
      (receiver.ring.backlog = 0 ∧ next = receiver ∨
        receiver.ring.backlog ≠ 0 ∧
          isLineEnd (receiver.ring.cell receiver.cmpCnt) = false ∧
          receiver.ring.backlog ≤ receiver.cmpCnt + 1 ∧
          (1024 ≤ receiver.cmpCnt ∧
              next = receiver.moved receiver.ring.rewind 0 ∨
            receiver.cmpCnt < 1024 ∧ next = receiver)) := by
  unfold drainTurn at stops
  by_cases empty : receiver.ring.readP = receiver.ring.writeP
  · rw [if_pos empty] at stops
    cases stops
    exact ⟨rfl, .inl ⟨(receiver.ring.backlog_eq_zero_iff).mpr empty, rfl⟩⟩
  · rw [if_neg empty] at stops
    by_cases lineEnd :
        isLineEnd (receiver.ring.cell receiver.cmpCnt) = true
    · rw [if_pos lineEnd] at stops
      cases stops
    · rw [if_neg lineEnd] at stops
      by_cases more : UnreadAfter receiver.ring receiver.cmpCnt
      · rw [if_pos more] at stops
        cases stops
      · have last := Nat.le_of_not_lt ((unreadAfter_iff _).not.mp more)
        have notEnd := Bool.eq_false_iff.mpr lineEnd
        have unread := (receiver.ring.backlog_eq_zero_iff).not.mpr empty
        rw [if_neg more] at stops
        by_cases full : 1024 ≤ receiver.cmpCnt
        · rw [if_pos full] at stops
          cases stops
          exact ⟨rfl, .inr ⟨unread, notEnd, last, .inl ⟨full, rfl⟩⟩⟩
        · rw [if_neg full] at stops
          cases stops
          exact ⟨rfl, .inr ⟨unread, notEnd, last,
            .inr ⟨Nat.lt_of_not_le full, rfl⟩⟩⟩

theorem turnsLeft_lt (receiver : Receiver) : turnsLeft receiver < 2049 := by
  have below : receiver.ring.backlog < 2048 := receiver.ring.backlog_lt
  unfold turnsLeft
  split
  · omega
  · decide

theorem turnsLeft_decreases
    (goesOn : drainTurn deal state receiver = .again (dealt, next)) :
    turnsLeft next < turnsLeft receiver := by
  obtain ⟨unread, lineEnd | further⟩ := drainTurn_again goesOn
  · obtain ⟨_, _, rfl⟩ := lineEnd
    have below := (receiver.ring.advance (receiver.cmpCnt + 1)).backlog_lt
    have fresh : turnsLeft (receiver.moved
        (receiver.ring.advance (receiver.cmpCnt + 1)) 0) =
          (receiver.ring.advance (receiver.cmpCnt + 1)).backlog :=
      if_pos (.inl rfl)
    rw [fresh]
    by_cases inside : receiver.cmpCnt < receiver.ring.backlog
    · have shorter :
          (receiver.ring.advance (receiver.cmpCnt + 1)).backlog =
            receiver.ring.backlog - (receiver.cmpCnt + 1) :=
        RingBuffer.backlog_advance inside
      rw [turnsLeft, if_pos (.inr inside)]
      omega
    · have outside : ¬(receiver.cmpCnt = 0 ∨
          receiver.cmpCnt < receiver.ring.backlog) := by omega
      rw [turnsLeft, if_neg outside]
      exact below
  · obtain ⟨_, more, _, rfl⟩ := further
    have inside : receiver.cmpCnt < receiver.ring.backlog := by omega
    have one : turnsLeft (receiver.moved receiver.ring
        (receiver.cmpCnt + 1)) =
          receiver.ring.backlog - (receiver.cmpCnt + 1) :=
      if_pos (.inr more)
    rw [one, turnsLeft, if_pos (.inr inside)]
    omega

variable (deal)

def drainStep (drained : σ × Receiver) : Turn (σ × Receiver) :=
  drainTurn deal drained.1 drained.2

theorem drain_terminates (drained : σ × Receiver) :
    (loop (drainStep deal) 2049 drained).isSome :=
  loop_isSome (fun drained => turnsLeft drained.2)
    (fun _ _ goesOn => turnsLeft_decreases goesOn) (turnsLeft_lt drained.2)

/-- The loop of `poc_task`. -/
def drain (state : σ) (receiver : Receiver) : σ × Receiver :=
  (loop (drainStep deal) 2049 (state, receiver)).get
    (drain_terminates deal (state, receiver))

theorem drain_result (state : σ) (receiver : Receiver) :
    loop (drainStep deal) 2049 (state, receiver) =
      some (drain deal state receiver) :=
  (Option.some_get _).symm

end

end Tp79Boot
