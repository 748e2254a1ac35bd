import Tp79Boot.Poc.Gating
import Tp79Boot.Poc.LineFraming

/-!
# Copies into the line buffer

`buf_temp_deal` has 1024 bytes.  The length of a line is looked at only when
the loop has caught up with the receiver, so a longer line that has arrived
completely is copied all the same.  Whether its copies stay inside the buffer
depends on its length and on its place in the ring.
-/

namespace Tp79Boot

open EventRun WhileLoop LineSplitting

/-- The copies for a line write only inside the buffer, and after all they
write the buffer holds a zero, so `strlen` ends inside it. -/
structure SafeCopies (recvBuf : RingBuffer UInt8 uartRxbufLenMax)
    (cmpCnt : Nat) : Prop where
  inside : ∀ copy ∈ lineCopies recvBuf.readP cmpCnt, copy.length ≠ 0 →
    copy.target + copy.length ≤ 1024
  zeroAfter : ∃ place, place < 1024 ∧
    (∀ copy ∈ lineCopies recvBuf.readP cmpCnt, copy.length ≠ 0 →
      copy.target + copy.length ≤ place) ∧
    byteAt (lineBuffer recvBuf cmpCnt) place = 0
  terminated : strlen (lineBuffer recvBuf cmpCnt) < 1024

/-- A line at this place of the ring is copied within the buffer: it is short
enough, or goes round the end of the ring before the buffer is full, or ends
exactly where the ring does. -/
def LineFits (readP length : Nat) : Prop :=
  length < 1024 ∨ (1024 < readP ∧ uartRxbufLenMax ≤ readP + length) ∨
    readP + length = uartRxbufLenMax

/-- A copy that stays before the last byte of the buffer keeps that byte. -/
private theorem copyLine_lastByte {cells buffer : List UInt8} {copy : LineCopy}
    (size : buffer.length = 1024) (last : byteAt buffer 1023 = 0)
    (before : copy.length ≠ 0 → copy.target + copy.length ≤ 1023) :
    (copyLine cells buffer copy).length = 1024 ∧
      byteAt (copyLine cells buffer copy) 1023 = 0 := by
  by_cases nothing : copy.length = 0
  · have same : copyLine cells buffer copy = buffer := by
      have whole : buffer.take 1024 = buffer :=
        List.take_of_length_le (Nat.le_of_eq size)
      simp [copyLine, writeAt, nothing, bytesAt, whole]
    rw [same]
    exact ⟨size, last⟩
  · have room := before nothing
    have front : (buffer.take copy.target ++
        bytesAt cells copy.source copy.length).length =
          copy.target + copy.length := by
      simp only [List.length_append, List.length_take, bytesAt_length, size]
      omega
    have whole : (writeAt buffer copy.target
        (bytesAt cells copy.source copy.length)).length = 1024 := by
      rw [writeAt, List.length_append, front, List.length_drop,
        bytesAt_length, size]
      omega
    obtain ⟨rest, position⟩ : ∃ rest,
        copy.target + copy.length + rest = 1023 :=
      ⟨1023 - (copy.target + copy.length), by omega⟩
    have behind : byteAt (buffer.drop (copy.target + copy.length)) rest =
        byteAt buffer 1023 := by
      rw [byteAt_drop, position]
    rw [copyLine, List.take_of_length_le (Nat.le_of_eq whole)]
    refine ⟨whole, ?_⟩
    rw [writeAt, bytesAt_length, ← position, ← front, byteAt_append_right,
      front, behind, last]

private theorem copies_lastByte {cells : List UInt8} (copies : List LineCopy)
    {buffer : List UInt8} (size : buffer.length = 1024)
    (last : byteAt buffer 1023 = 0)
    (before : ∀ copy ∈ copies, copy.length ≠ 0 →
      copy.target + copy.length ≤ 1023) :
    byteAt (copies.foldl (copyLine cells) buffer) 1023 = 0 := by
  induction copies generalizing buffer with
  | nil => exact last
  | cons copy copies induction =>
      obtain ⟨sameSize, sameLast⟩ := @copyLine_lastByte cells buffer copy size
        last (before copy List.mem_cons_self)
      exact induction sameSize sameLast
        (fun later member => before later (List.mem_cons_of_mem _ member))

private theorem safeCopies_iff_before
    (recvBuf : RingBuffer UInt8 uartRxbufLenMax) (cmpCnt : Nat) :
    SafeCopies recvBuf cmpCnt ↔
      ∀ copy ∈ lineCopies recvBuf.readP cmpCnt, copy.length ≠ 0 →
        copy.target + copy.length ≤ 1023 := by
  constructor
  · intro safe copy member writes
    obtain ⟨place, below, after, _⟩ := safe.zeroAfter
    exact Nat.le_trans (after copy member writes) (Nat.le_of_lt_succ below)
  · intro before
    have zero : byteAt (lineBuffer recvBuf cmpCnt) 1023 = 0 :=
      copies_lastByte _ List.length_replicate (byteAt_replicate_zero _ _)
        before
    refine ⟨?_, ⟨1023, by decide, before, zero⟩, ?_⟩
    · intro copy member writes
      exact Nat.le_succ_of_le (before copy member writes)
    · exact Nat.lt_of_le_of_lt (strlen_le_of_zero zero) (by decide)

private theorem copies_before_iff {readP cmpCnt : Nat} (inRing : readP < 2048)
    (unread : cmpCnt < 2047) :
    (∀ copy ∈ lineCopies readP cmpCnt, copy.length ≠ 0 →
        copy.target + copy.length ≤ 1023) ↔ LineFits readP cmpCnt := by
  unfold lineCopies LineFits
  simp only [uartRxbufLenMax]
  by_cases straight : readP + cmpCnt < 2048
  · simp only [if_pos straight, List.mem_singleton, forall_eq]
    omega
  · simp only [if_neg straight, List.mem_cons, List.not_mem_nil, or_false,
      forall_eq_or_imp, forall_eq]
    have position : (readP + cmpCnt) % 2048 = readP + cmpCnt - 2048 := by
      omega
    rw [position]
    by_cases late : 1024 < readP
    · have first : (2048 - readP) % 1024 = 2048 - readP := by omega
      have second := Nat.mod_lt (readP + cmpCnt - 2048)
        (show 0 < 1024 - (2048 - readP) by omega)
      rw [first]
      omega
    · have first : (2048 - readP) % 1024 = 1024 - readP := by omega
      have second : (readP + cmpCnt - 2048) % (1024 - (1024 - readP)) =
          readP + cmpCnt - 2048 := Nat.mod_eq_of_lt (by omega)
      rw [first, second]
      omega

theorem safeCopies_iff {recvBuf : RingBuffer UInt8 uartRxbufLenMax}
    {cmpCnt : Nat} (unread : cmpCnt < recvBuf.backlog) :
    SafeCopies recvBuf cmpCnt ↔ LineFits recvBuf.readP cmpCnt := by
  have below := recvBuf.backlog_lt
  have inRing := recvBuf.readP_lt
  simp only [uartRxbufLenMax] at below inRing
  rw [safeCopies_iff_before, copies_before_iff inRing (by omega)]

/-- The lines that follow each other in the ring and are copied, each as the
ring that begins with it and its length. -/
def copiedLines : List (List UInt8) → RingBuffer UInt8 uartRxbufLenMax →
    List (RingBuffer UInt8 uartRxbufLenMax × Nat)
  | [], _ => []
  | line :: lines, recvBuf =>
      (if 2 ≤ line.length then [(recvBuf, line.length)] else []) ++
        copiedLines lines (recvBuf.advance (line.length + 1))

/-- The complete lines that wait in the ring. -/
def Receiver.waitingLines (receiver : Receiver) :
    List (RingBuffer UInt8 uartRxbufLenMax × Nat) :=
  copiedLines (segments isLineEnd receiver.contents) receiver.ring

/-- The turn that begins copies a line. -/
def Receiver.CopiesLine (receiver : Receiver) : Prop :=
  receiver.ring.readP ≠ receiver.ring.writeP ∧
    isLineEnd (receiver.ring.cell receiver.cmpCnt) = true ∧
    2 ≤ receiver.cmpCnt

/-- If the turn that begins copies a line, its copies are safe. -/
def Receiver.SafeTurn (receiver : Receiver) : Prop :=
  receiver.CopiesLine → SafeCopies receiver.ring receiver.cmpCnt

section

variable {receiver : Receiver}

theorem Receiver.WellFormed.waitingLines
    (wellFormed : receiver.WellFormed) (unread : receiver.ring.backlog ≠ 0)
    (lineEnd : isLineEnd (receiver.ring.cell receiver.cmpCnt) = true) :
    receiver.waitingLines =
      (if 2 ≤ receiver.cmpCnt then [(receiver.ring, receiver.cmpCnt)]
        else []) ++
      (receiver.moved
        (receiver.ring.advance (receiver.cmpCnt + 1)) 0).waitingLines := by
  obtain ⟨length, split⟩ := wellFormed.contents_taken unread
  rw [Receiver.waitingLines, split,
    segments_line wellFormed.lookedAt lineEnd, copiedLines, length]
  rfl

theorem Receiver.waitingLines_of_open
    (openContents : Open isLineEnd receiver.contents) :
    receiver.waitingLines = [] := by
  rw [Receiver.waitingLines, segments_of_open openContents, copiedLines]

theorem copiedLines_short (stream : List UInt8)
    (within : RunsWithin isLineEnd 1023 stream)
    (recvBuf : RingBuffer UInt8 uartRxbufLenMax) :
    ∀ waiting ∈ copiedLines (segments isLineEnd stream) recvBuf,
      waiting.2 ≤ 1023 := by
  induction stream using line_induction isLineEnd generalizing recvBuf with
  | unterminated stream openStream =>
      rw [segments_of_open openStream, copiedLines]
      intro waiting member
      cases member
  | line line last rest openLine closes induction =>
      have later : rest <:+ line ++ last :: rest :=
        (List.suffix_cons last rest).trans
          (List.suffix_append line (last :: rest))
      rw [segments_line openLine closes, copiedLines, List.forall_mem_append]
      refine ⟨?_, induction (within.of_suffix later) _⟩
      split
      · rw [List.forall_mem_singleton]
        exact within.line_length openLine
      · intro waiting member
        cases member

variable {σ : Type} (deal : σ → List UInt8 → σ)

/-- Every turn of a call copies safely. -/
def SafeCall (state : σ) (receiver : Receiver) : Prop :=
  EveryTurn (drainStep deal) (fun drained => drained.2.SafeTurn)
    (state, receiver)

/-- The lines that wait all fit the buffer where they are. -/
def Receiver.LinesFit (receiver : Receiver) : Prop :=
  ∀ waiting ∈ receiver.waitingLines, LineFits waiting.1.readP waiting.2

theorem Receiver.linesFit_of_within
    (within : RunsWithin isLineEnd 1023 receiver.contents) :
    receiver.LinesFit := by
  intro waiting member
  have short := copiedLines_short _ within _ waiting member
  exact .inl (Nat.lt_succ_of_le short)

variable {deal} {state dealt : σ} {next : Receiver}

private theorem safeCall_done (wellFormed : receiver.WellFormed)
    (stops : drainTurn deal state receiver = .done (dealt, next)) :
    SafeCall deal state receiver ↔ receiver.LinesFit := by
  have safe : receiver.SafeTurn := by
    rintro ⟨unread, lineEnd, _⟩
    obtain ⟨_, ⟨empty, _⟩ | ⟨_, notEnd, _⟩⟩ := drainTurn_done stops
    · exact absurd ((RingBuffer.backlog_eq_zero_iff _).mp empty) unread
    · cases lineEnd.symm.trans notEnd
  have none_ : receiver.waitingLines = [] := by
    apply Receiver.waitingLines_of_open
    obtain ⟨_, ⟨empty, _⟩ | ⟨unread, notEnd, last, _⟩⟩ := drainTurn_done stops
    · have nothing : receiver.contents = [] := by
        rw [← List.length_eq_zero_iff, Receiver.contents_length]
        exact empty
      rw [nothing]
      intro byte member
      cases member
    · exact wellFormed.contents_open unread notEnd last
  have last : drainStep deal (state, receiver) = .done (dealt, next) := stops
  rw [SafeCall, everyTurn_done last, Receiver.LinesFit, none_]
  simp [safe]

private theorem safeCall_again (wellFormed : receiver.WellFormed)
    (goesOn : drainTurn deal state receiver = .again (dealt, next))
    (rest : next.WellFormed →
      (SafeCall deal dealt next ↔ next.LinesFit)) :
    SafeCall deal state receiver ↔ receiver.LinesFit := by
  have turn : drainStep deal (state, receiver) = .again (dealt, next) := goesOn
  rw [SafeCall, everyTurn_again turn]
  obtain ⟨unread, ⟨lineEnd, _, rfl⟩ | ⟨notEnd, more, _, rfl⟩⟩ :=
    drainTurn_again goesOn
  · have nonempty := (RingBuffer.backlog_eq_zero_iff _).not.mp unread
    have inside := wellFormed.inside unread
    have later := rest (wellFormed.line_taken unread lineEnd).1
    rw [SafeCall] at later
    rw [later, Receiver.LinesFit, Receiver.LinesFit,
      wellFormed.waitingLines unread lineEnd, List.forall_mem_append]
    apply and_congr_left'
    by_cases long : 2 ≤ receiver.cmpCnt
    · have copies : receiver.CopiesLine := ⟨nonempty, lineEnd, long⟩
      rw [if_pos long, List.forall_mem_singleton, ← safeCopies_iff inside]
      exact ⟨fun safe => safe copies, fun safe _ => safe⟩
    · rw [if_neg long]
      constructor
      · intro _ waiting member
        cases member
      · intro _ copies
        exact absurd copies.2.2 long
  · have inside := wellFormed.inside unread
    have later := rest ⟨.inl more, wellFormed.lookedAt_succ inside notEnd⟩
    rw [SafeCall] at later
    rw [later]
    have same : (receiver.moved receiver.ring
        (receiver.cmpCnt + 1)).LinesFit ↔ receiver.LinesFit := Iff.rfl
    rw [same]
    apply and_iff_right
    intro copies
    cases copies.2.1.symm.trans notEnd

theorem safeCall_iff (deal : σ → List UInt8 → σ) (state : σ)
    (wellFormed : receiver.WellFormed) :
    SafeCall deal state receiver ↔ receiver.LinesFit := by
  have whole := @loop_induction _ (drainStep deal)
    (fun before _ => before.2.WellFormed →
      (SafeCall deal before.1 before.2 ↔ before.2.LinesFit))
    (fun before final stops formed => safeCall_done formed stops)
    (fun before next final goesOn rest formed =>
      safeCall_again formed goesOn rest)
  exact whole (drain_result deal state receiver) wellFormed

end

/-- Whatever has arrived, and whenever `poc_task` has run before, its next call
copies safely exactly when the lines that wait fit the buffer where they
are. -/
theorem lineCopies_safe_iff {σ : Type} (deal : σ → List UInt8 → σ)
    (first : σ) (events : List UartEvent) :
    SafeCall deal (run (uartStep deal) (Session.start first) events).state
        (run (uartStep deal) (Session.start first) events).receiver ↔
      (run (uartStep deal) (Session.start first)
        events).receiver.LinesFit :=
  safeCall_iff deal _ (run_wellFormed deal first events)

theorem run_arrivals_readP {σ : Type} (deal : σ → List UInt8 → σ) (first : σ)
    (bytes : List UInt8) :
    (run (uartStep deal) (Session.start first)
      (bytes.map .arrive)).receiver.ring.readP = 0 := by
  induction bytes using List.reverseRecOn with
  | nil => rfl
  | append_singleton bytes last induction =>
      rw [List.map_append, List.map_singleton, run_concat]
      refine Eq.trans ?_ induction
      simp only [uartStep, Receiver.arrive, usart2IrqHandler, Receiver.ring]
      split
      · rfl
      · rfl

theorem long_line_unsafe {σ : Type} (deal : σ → List UInt8 → σ) (first : σ)
    {line : List UInt8} (openLine : Open isLineEnd line)
    (long : 1024 ≤ line.length) (stored : line.length ≤ 2046) :
    ¬SafeCall deal
      (run (uartStep deal) (Session.start first)
        ((line ++ [13]).map .arrive)).state
      (run (uartStep deal) (Session.start first)
        ((line ++ [13]).map .arrive)).receiver := by
  rw [safeCall_iff deal _ (run_wellFormed deal first _)]
  have size : (line ++ [13]).length ≤ 2047 := by
    rw [List.length_append, List.length_singleton]
    exact Nat.succ_le_succ stored
  have contents := run_arrivals_contents deal first size
  have front := run_arrivals_readP deal first (line ++ [13])
  generalize (run (uartStep deal) (Session.start first)
    ((line ++ [13]).map .arrive)).receiver = receiver at contents front ⊢
  intro fit
  have waits : (receiver.ring, line.length) ∈ receiver.waitingLines := by
    rw [Receiver.waitingLines, contents, segments_line openLine rfl,
      copiedLines, if_pos (by omega)]
    exact List.mem_cons_self
  have fits := fit _ waits
  simp only [LineFits, front, uartRxbufLenMax] at fits
  omega

/-- A line of 1500 bytes. -/
theorem lineCopies_safe_long :
    ¬∀ (boot : Boot) (events : List UartEvent),
      SafeCall pocUartMsgDeal
        (run (uartStep pocUartMsgDeal) (Session.start boot) events).state
        (run (uartStep pocUartMsgDeal) (Session.start boot)
          events).receiver := by
  intro safe
  have length : (List.replicate 1500 (65 : UInt8)).length = 1500 :=
    List.length_replicate
  have openLine : Open isLineEnd (List.replicate 1500 (65 : UInt8)) := by
    intro byte member
    rw [List.eq_of_mem_replicate member]
    rfl
  exact long_line_unsafe pocUartMsgDeal
    (Boot.start (fun _ => 0xFF) installedCfg []) openLine
    (by rw [length]; decide) (by rw [length]; decide) (safe _ _)

end Tp79Boot
