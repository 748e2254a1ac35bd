import Tp79Boot.Lib.EventRun
import Tp79Boot.Poc.Draining

/-!
# Framing

Bytes arrive one by one, `poc_task` runs now and then, and the lines it hands
over are collected.  As long as the ring has room and no line outgrows the
buffer, they are the lines of the stream.  What carries the proof is that the
ring always holds the unfinished line of what has been processed, followed by
what has arrived since.
-/

namespace Tp79Boot

open EventRun LineSplitting

inductive UartEvent where
  | arrive (byte : UInt8)
  | task
deriving DecidableEq

/-- A byte arrives in the interrupt handler. -/
def Receiver.arrive (receiver : Receiver) (byte : UInt8) : Receiver :=
  { receiver with deviceUart := usart2IrqHandler receiver.deviceUart byte }

/-- The receiver, and whatever the lines have been made of so far. -/
structure Session (σ : Type) where
  state : σ
  receiver : Receiver

def uartStep {σ : Type} (deal : σ → List UInt8 → σ) (session : Session σ) :
    UartEvent → Session σ
  | .arrive byte =>
      { session with receiver := session.receiver.arrive byte }
  | .task =>
      let drained := drain deal session.state session.receiver
      { state := drained.1
        receiver := drained.2 }

def Session.start {σ : Type} (state : σ) : Session σ :=
  { state := state
    receiver := Receiver.start }

/-- The bytes that arrive, in order. -/
def arrivals (events : List UartEvent) : List UInt8 :=
  events.filterMap fun event =>
    match event with
    | .arrive byte => some byte
    | .task => none

/-- No byte arrives at a full ring. -/
def HasRoom {σ : Type} (session : Session σ) (event : UartEvent) : Prop :=
  ∀ byte, event = .arrive byte → ¬session.receiver.ring.Full

/-- The lines of two bytes and more, each as the buffer it is handed over
in. -/
def deliveries (lines : List (List UInt8)) : List (List UInt8) :=
  (lines.filter fun line => 2 ≤ line.length).map padded

theorem deliveries_append (first second : List (List UInt8)) :
    deliveries (first ++ second) = deliveries first ++ deliveries second := by
  simp [deliveries]

theorem arrivals_append (first second : List UartEvent) :
    arrivals (first ++ second) = arrivals first ++ arrivals second :=
  List.filterMap_append

/-- The buffers for the lines of the ring hold those lines. -/
theorem lineBuffers_eq (stream : List UInt8)
    (within : RunsWithin isLineEnd 1023 stream)
    (recvBuf : RingBuffer UInt8 uartRxbufLenMax)
    (holds : recvBuf.contents = stream) :
    lineBuffers (segments isLineEnd stream) recvBuf =
      deliveries (segments isLineEnd stream) := by
  induction stream using line_induction isLineEnd generalizing recvBuf with
  | unterminated stream openStream =>
      rw [segments_of_open openStream]
      rfl
  | line line last rest openLine closes induction =>
      have short := within.line_length openLine
      have length := congrArg List.length holds
      rw [RingBuffer.contents_length, List.length_append,
        List.length_cons] at length
      have copied : lineBuffer recvBuf line.length = padded line := by
        rw [lineBuffer_eq recvBuf short (by omega), holds, List.take_left]
      have dropped : (recvBuf.advance (line.length + 1)).contents = rest := by
        rw [RingBuffer.contents_advance (by omega), holds,
          ← List.drop_drop, List.drop_left, List.drop_one, List.tail_cons]
      have later : rest <:+ line ++ last :: rest :=
        (List.suffix_cons last rest).trans
          (List.suffix_append line (last :: rest))
      rw [segments_line openLine closes, lineBuffers,
        induction (within.of_suffix later) _ dropped, copied]
      by_cases long : 2 ≤ line.length
      · simp [deliveries, long]
      · simp [deliveries, long]

theorem Receiver.pendingLines_eq {receiver : Receiver}
    (within : RunsWithin isLineEnd 1023 receiver.contents) :
    receiver.pendingLines =
      deliveries (segments isLineEnd receiver.contents) :=
  lineBuffers_eq receiver.contents within receiver.ring rfl

theorem Receiver.leftover_eq {receiver : Receiver}
    (within : RunsWithin isLineEnd 1023 receiver.contents) :
    receiver.leftover = unfinished isLineEnd receiver.contents :=
  if_pos (Nat.le_succ_of_le within.unfinished_length)

theorem Receiver.arrive_ring {receiver : Receiver}
    (room : ¬receiver.ring.Full) (byte : UInt8) :
    (receiver.arrive byte).ring = receiver.ring.push byte := by
  simp only [Receiver.arrive, usart2IrqHandler, Receiver.ring, if_neg room]

theorem Receiver.arrive_contents {receiver : Receiver}
    (room : ¬receiver.ring.Full) (byte : UInt8) :
    (receiver.arrive byte).contents = receiver.contents ++ [byte] := by
  rw [Receiver.contents, Receiver.arrive_ring room,
    RingBuffer.contents_push room]
  rfl

/-- An arriving byte keeps the counter in its place, whether it is stored or
dropped. -/
theorem Receiver.WellFormed.arrive {receiver : Receiver}
    (wellFormed : receiver.WellFormed) (byte : UInt8) :
    (receiver.arrive byte).WellFormed := by
  by_cases full : receiver.ring.Full
  · have unchanged : (receiver.arrive byte).ring = receiver.ring := by
      simp only [Receiver.arrive, usart2IrqHandler, Receiver.ring,
        if_pos full]
    constructor
    · rw [unchanged]
      exact wellFormed.counter
    · rw [Receiver.contents, unchanged]
      exact wellFormed.lookedAt
  · have longer : (receiver.arrive byte).ring.backlog =
        receiver.ring.backlog + 1 := by
      rw [Receiver.arrive_ring full, RingBuffer.backlog_push full]
    have inside : receiver.cmpCnt ≤ receiver.ring.backlog := by
      rcases wellFormed.counter with below | ⟨zero, _⟩
      · exact Nat.le_of_lt below
      · omega
    constructor
    · rw [longer]
      exact .inl (Nat.lt_succ_of_le inside)
    · rw [Receiver.arrive_contents full]
      have front : (receiver.contents ++ [byte]).take receiver.cmpCnt =
          receiver.contents.take receiver.cmpCnt :=
        List.take_append_of_le_length (by simpa using inside)
      intro item member
      refine wellFormed.lookedAt item ?_
      rw [← front]
      exact member

theorem start_wellFormed : Receiver.start.WellFormed := by
  constructor
  · exact .inr ⟨rfl, rfl⟩
  · intro byte member
    simp [Receiver.start] at member

theorem start_contents : Receiver.start.contents = [] :=
  (RingBuffer.contents_eq_nil_iff _).mpr rfl

/-- The receiver stays well formed whatever arrives, dropped bytes
included. -/
theorem run_wellFormed {σ : Type} (deal : σ → List UInt8 → σ) (first : σ)
    (events : List UartEvent) :
    (run (uartStep deal) (Session.start first)
      events).receiver.WellFormed := by
  induction events using List.reverseRecOn with
  | nil => exact start_wellFormed
  | append_singleton events last induction =>
      rw [run_concat]
      cases last with
      | arrive byte => exact induction.arrive byte
      | task => exact (drain_drained deal _ induction).wellFormed

/-- Bytes that arrive before the first call are all in the ring. -/
theorem run_arrivals_contents {σ : Type} (deal : σ → List UInt8 → σ)
    (first : σ) {bytes : List UInt8} (fits : bytes.length ≤ 2047) :
    (run (uartStep deal) (Session.start first)
      (bytes.map .arrive)).receiver.contents = bytes := by
  induction bytes using List.reverseRecOn with
  | nil => exact start_contents
  | append_singleton bytes last induction =>
      rw [List.length_append, List.length_singleton] at fits
      have stored := induction (Nat.le_of_succ_le fits)
      have backlog := congrArg List.length stored
      rw [Receiver.contents_length] at backlog
      rw [List.map_append, List.map_singleton, run_concat]
      have room : ¬(run (uartStep deal) (Session.start first)
          (bytes.map .arrive)).receiver.ring.Full := by
        rw [RingBuffer.full_iff, backlog]
        intro full
        have size : uartRxbufLenMax = 2048 := rfl
        omega
      have next := Receiver.arrive_contents room last
      rw [stored] at next
      exact next

section

variable {σ : Type} {deal : σ → List UInt8 → σ} {first : σ}
  {stream : List UInt8} {session : Session σ}

/-- All complete lines of what has been processed are dealt with, and the ring
holds the rest. -/
structure Framed (deal : σ → List UInt8 → σ) (first : σ)
    (stream : List UInt8) (session : Session σ) : Prop where
  wellFormed : session.receiver.WellFormed
  split : ∃ processed since, stream = processed ++ since ∧
    session.state =
      (deliveries (segments isLineEnd processed)).foldl deal first ∧
    session.receiver.contents = unfinished isLineEnd processed ++ since

theorem Framed.arrive (framed : Framed deal first stream session)
    (room : ¬session.receiver.ring.Full) (byte : UInt8) :
    Framed deal first (stream ++ [byte])
      (uartStep deal session (.arrive byte)) := by
  obtain ⟨processed, since, rfl, dealt, contents⟩ := framed.split
  refine ⟨framed.wellFormed.arrive byte, processed, since ++ [byte], by simp,
    dealt, ?_⟩
  have stored := Receiver.arrive_contents room byte
  rw [contents, List.append_assoc] at stored
  exact stored

theorem Framed.contents_suffix (framed : Framed deal first stream session) :
    session.receiver.contents <:+ stream := by
  obtain ⟨processed, since, rfl, _, contents⟩ := framed.split
  obtain ⟨front, whole⟩ := @unfinished_suffix _ isLineEnd processed
  refine ⟨front, ?_⟩
  rw [contents, ← List.append_assoc, whole]

/-- After `poc_task` everything that has arrived is processed. -/
theorem Framed.task (framed : Framed deal first stream session)
    (within : RunsWithin isLineEnd 1023 stream) :
    (uartStep deal session .task).state =
        (deliveries (segments isLineEnd stream)).foldl deal first ∧
      Framed deal first stream (uartStep deal session .task) := by
  have short := within.of_suffix framed.contents_suffix
  obtain ⟨processed, since, rfl, dealt, contents⟩ := framed.split
  have drained := drain_drained deal session.state framed.wellFormed
  have delivered : (uartStep deal session .task).state =
      (deliveries (segments isLineEnd (processed ++ since))).foldl deal
        first := by
    rw [segments_append, deliveries_append, List.foldl_append, ← dealt,
      ← contents, ← Receiver.pendingLines_eq short]
    exact drained.handed
  have left : (uartStep deal session .task).receiver.contents =
      unfinished isLineEnd (processed ++ since) := by
    rw [unfinished_append, ← contents, ← Receiver.leftover_eq short]
    exact drained.contents
  refine ⟨delivered, drained.wellFormed, processed ++ since, [], by simp,
    delivered, ?_⟩
  rw [left, List.append_nil]

theorem framed_run (deal : σ → List UInt8 → σ) (first : σ)
    (events : List UartEvent)
    (room : Admitted (uartStep deal) HasRoom (Session.start first) events)
    (within : RunsWithin isLineEnd 1023 (arrivals events)) :
    Framed deal first (arrivals events)
      (run (uartStep deal) (Session.start first) events) := by
  induction events using List.reverseRecOn with
  | nil =>
      exact ⟨start_wellFormed, [], [], rfl, rfl, start_contents⟩
  | append_singleton events last induction =>
      rw [arrivals_append] at within ⊢
      have earlier := induction room.of_append
        (within.of_prefix (List.prefix_append _ _))
      rw [run_concat]
      cases last with
      | arrive byte => exact earlier.arrive (room.last byte rfl) byte
      | task =>
          have nothing : arrivals [.task] = [] := rfl
          rw [nothing, List.append_nil] at within ⊢
          exact (earlier.task within).2

theorem lines_dealt (deal : σ → List UInt8 → σ) (first : σ)
    (events : List UartEvent)
    (room : Admitted (uartStep deal) HasRoom (Session.start first) events)
    (within : RunsWithin isLineEnd 1023 (arrivals events)) :
    (run (uartStep deal) (Session.start first) (events ++ [.task])).state =
      (deliveries (segments isLineEnd (arrivals events))).foldl deal
        first := by
  rw [run_concat]
  exact ((framed_run deal first events room within).task within).1

end

/-- Handling lines by collecting them. -/
def collect (handed : List (List UInt8)) (line : List UInt8) :
    List (List UInt8) :=
  handed ++ [line]

theorem foldl_collect (handed lines : List (List UInt8)) :
    lines.foldl collect handed = handed ++ lines := by
  induction lines generalizing handed with
  | nil => exact (List.append_nil handed).symm
  | cons line lines induction =>
      rw [List.foldl_cons, induction, collect, List.append_assoc]
      rfl

/-- However the bytes arrive, the buffers handed over are the lines of the
stream that have two bytes or more, in order and with zeros after them. -/
theorem lines_delivered (events : List UartEvent)
    (room : Admitted (uartStep collect) HasRoom (Session.start []) events)
    (within : RunsWithin isLineEnd 1023 (arrivals events)) :
    (run (uartStep collect) (Session.start []) (events ++ [.task])).state =
      ((segments isLineEnd (arrivals events)).filter fun line =>
        2 ≤ line.length).map fun line =>
          line ++ List.replicate (1024 - line.length) 0 := by
  have dealt := lines_dealt collect [] events room within
  rw [foldl_collect, List.nil_append] at dealt
  exact dealt

/-- `OK` and a line end, with a call in between. -/
theorem lines_delivered_ok :
    (run (uartStep collect) (Session.start [])
      ([.arrive 79, .task, .arrive 75, .arrive 13] ++ [.task])).state =
        [ascii "OK" ++ List.replicate 1022 0] := by
  have first : Admitted (uartStep collect) HasRoom (Session.start [])
      ([] ++ [.arrive 79]) := by
    refine admitted_concat.mpr ⟨admitted_nil, ?_⟩
    intro byte _ full
    exact absurd full (by decide)
  have second : Admitted (uartStep collect) HasRoom (Session.start [])
      ([.arrive 79] ++ [.task]) := by
    refine admitted_concat.mpr ⟨first, ?_⟩
    intro byte other
    cases other
  have third : Admitted (uartStep collect) HasRoom (Session.start [])
      ([.arrive 79, .task] ++ [.arrive 75]) := by
    refine admitted_concat.mpr ⟨second, ?_⟩
    intro byte _ full
    exact absurd full (by decide +kernel)
  have fourth : Admitted (uartStep collect) HasRoom (Session.start [])
      ([.arrive 79, .task, .arrive 75] ++ [.arrive 13]) := by
    refine admitted_concat.mpr ⟨third, ?_⟩
    intro byte _ full
    exact absurd full (by decide +kernel)
  have within : RunsWithin isLineEnd 1023
      (arrivals [.arrive 79, .task, .arrive 75, .arrive 13]) :=
    runsWithin_of_length_le (by decide)
  exact (lines_delivered _ fourth within).trans rfl

end Tp79Boot
