import Tp79Boot.Poc.LineFraming

/-!
# Room in the ring

A call of `poc_task` leaves at most 1024 bytes unread, so the 1023 that may
arrive before the next call always find a free cell: 2047 of the 2048 cells can
be filled.
-/

namespace Tp79Boot

open EventRun LineSplitting WhileLoop

def isTask (event : UartEvent) : Bool :=
  event == .task

/-- The receiver after some events: what it may hold depends on how many bytes
have arrived since the last call. -/
structure Paced (events : List UartEvent) (receiver : Receiver) : Prop where
  wellFormed : receiver.WellFormed
  backlog : receiver.ring.backlog ≤ 1024 + (unfinished isTask events).length

theorem leftover_length (receiver : Receiver) :
    receiver.leftover.length ≤ 1024 := by
  unfold Receiver.leftover
  split
  next short => exact short
  · exact Nat.zero_le 1024

section

variable {σ : Type} (deal : σ → List UInt8 → σ)

theorem task_leaves (session : Session σ)
    (wellFormed : session.receiver.WellFormed) :
    (uartStep deal session .task).receiver.ring.backlog ≤ 1024 ∧
      (uartStep deal session .task).receiver.WellFormed := by
  have drained := drain_drained deal session.state wellFormed
  have length := congrArg List.length drained.contents
  rw [Receiver.contents_length] at length
  have short := leftover_length session.receiver
  exact ⟨Nat.le_trans (Nat.le_of_eq length) short, drained.wellFormed⟩

variable {deal} {events : List UartEvent} {session : Session σ}

theorem Paced.room (paced : Paced events session.receiver)
    (few : (unfinished isTask events).length ≤ 1022) :
    ¬session.receiver.ring.Full := by
  have backlog := paced.backlog
  rw [RingBuffer.full_iff]
  intro full
  have size : uartRxbufLenMax = 2048 := rfl
  omega

theorem unfinished_arrive (events : List UartEvent) (byte : UInt8) :
    unfinished isTask (events ++ [.arrive byte]) =
      unfinished isTask events ++ [.arrive byte] := by
  have arriving : isTask (.arrive byte) = false := rfl
  rw [unfinished_append]
  apply unfinished_of_open
  intro event member
  rcases List.mem_append.mp member with earlier | last
  · exact unfinished_open events event earlier
  · rw [List.mem_singleton.mp last, arriving]

theorem few_before_arrive {byte : UInt8}
    (within : RunsWithin isTask 1023 (events ++ [.arrive byte])) :
    (unfinished isTask events).length ≤ 1022 := by
  have length := within.unfinished_length
  rw [unfinished_arrive, List.length_append, List.length_singleton] at length
  exact Nat.le_of_succ_le_succ length

theorem Paced.arrive (paced : Paced events session.receiver) {byte : UInt8}
    (within : RunsWithin isTask 1023 (events ++ [.arrive byte])) :
    Paced (events ++ [.arrive byte])
      (uartStep deal session (.arrive byte)).receiver := by
  have room := paced.room (few_before_arrive within)
  have longer : (session.receiver.arrive byte).ring.backlog =
      session.receiver.ring.backlog + 1 := by
    rw [Receiver.arrive_ring room, RingBuffer.backlog_push room]
  have backlog := paced.backlog
  refine ⟨paced.wellFormed.arrive byte, ?_⟩
  rw [unfinished_arrive, List.length_append, List.length_singleton]
  exact Nat.le_trans (Nat.le_of_eq longer) (Nat.succ_le_succ backlog)

theorem Paced.task (paced : Paced events session.receiver) :
    Paced (events ++ [.task]) (uartStep deal session .task).receiver := by
  obtain ⟨short, formed⟩ := task_leaves deal session paced.wellFormed
  exact ⟨formed, Nat.le_add_right_of_le short⟩

theorem paced_run (deal : σ → List UInt8 → σ) (first : σ)
    (events : List UartEvent) (within : RunsWithin isTask 1023 events) :
    Paced events
      (run (uartStep deal) (Session.start first) events).receiver := by
  induction events using List.reverseRecOn with
  | nil =>
      have empty : Receiver.start.ring.backlog = 0 :=
        (RingBuffer.backlog_eq_zero_iff _).mpr rfl
      exact ⟨start_wellFormed,
        Nat.le_trans (Nat.le_of_eq empty) (Nat.zero_le _)⟩
  | append_singleton events last induction =>
      have earlier := induction (within.of_prefix (List.prefix_append _ _))
      rw [run_concat]
      cases last with
      | arrive byte => exact earlier.arrive within
      | task => exact earlier.task

/-- With at most 1023 bytes between two calls, whatever the bytes are and
whatever is done with the lines: every byte finds room, every call ends, and it
leaves at most 1024 bytes and a counter inside them. -/
theorem receiver_keeps_up (deal : σ → List UInt8 → σ) (first : σ)
    (events : List UartEvent) (within : RunsWithin isTask 1023 events) :
    (∀ before byte after, events = before ++ .arrive byte :: after →
      ¬(run (uartStep deal) (Session.start first)
        before).receiver.ring.Full) ∧
    ∀ before after, events = before ++ .task :: after →
      let called := run (uartStep deal) (Session.start first) before
      let left := run (uartStep deal) (Session.start first)
        (before ++ [.task])
      loop (drainStep deal) 2049 (called.state, called.receiver) =
          some (left.state, left.receiver) ∧
        left.receiver.ring.backlog ≤ 1024 ∧
        (left.receiver.cmpCnt < left.receiver.ring.backlog ∨
          left.receiver.cmpCnt = 0 ∧ left.receiver.ring.backlog = 0) := by
  constructor
  · rintro before byte after rfl
    have upTo : before ++ [.arrive byte] <+: before ++ .arrive byte :: after :=
      ⟨after, by simp⟩
    have early : before <+: before ++ .arrive byte :: after :=
      List.prefix_append _ _
    have paced := paced_run deal first before (within.of_prefix early)
    exact paced.room (few_before_arrive (within.of_prefix upTo))
  · rintro before after rfl
    intro called left
    have early : before <+: before ++ .task :: after :=
      List.prefix_append _ _
    have paced := paced_run deal first before (within.of_prefix early)
    have step : left = uartStep deal called .task := run_concat ..
    obtain ⟨short, formed⟩ := task_leaves deal called paced.wellFormed
    rw [step]
    exact ⟨drain_result deal called.state called.receiver, short,
      formed.counter⟩

end

/-- As many bytes as may come, none of them a line end, and a call. -/
def silentRound : List UartEvent :=
  List.replicate 1023 (.arrive 65) ++ [.task]

theorem silentRound_within {rest : List UartEvent}
    (within : RunsWithin isTask 1023 rest) :
    RunsWithin isTask 1023 (silentRound ++ rest) := by
  rw [silentRound, List.append_assoc]
  exact RunsWithin.line (Nat.le_of_eq List.length_replicate) rfl within

/-- After three such rounds no more than 1024 bytes are unread, and the last
byte of the third still finds room. -/
theorem receiver_keeps_up_silent :
    (run (uartStep collect) (Session.start [])
        (silentRound ++ (silentRound ++ silentRound))).receiver.ring.backlog ≤
          1024 ∧
      ¬(run (uartStep collect) (Session.start [])
        (silentRound ++ (silentRound ++
          List.replicate 1022 (.arrive 65)))).receiver.ring.Full := by
  have none : RunsWithin isTask 1023 [] :=
    runsWithin_of_length_le (Nat.zero_le _)
  have one := silentRound_within none
  rw [List.append_nil] at one
  have within := silentRound_within (silentRound_within one)
  obtain ⟨room, calls⟩ := receiver_keeps_up collect [] _ within
  constructor
  · have rounds : silentRound ++ (silentRound ++ silentRound) =
        (silentRound ++ (silentRound ++ List.replicate 1023 (.arrive 65))) ++
          [.task] := by
      rw [List.append_assoc, List.append_assoc, ← silentRound]
    have last := (calls _ [] rounds).2.1
    rwa [← rounds] at last
  · have bytes : silentRound =
        List.replicate 1022 (.arrive 65) ++ .arrive 65 :: [.task] := by
      rw [silentRound, List.replicate_succ', List.append_assoc,
        List.singleton_append]
    have rounds : silentRound ++ (silentRound ++ silentRound) =
        (silentRound ++ (silentRound ++
          List.replicate 1022 (.arrive 65))) ++ .arrive 65 :: [.task] := by
      rw [List.append_assoc, List.append_assoc, ← bytes]
    exact room _ 65 [.task] rounds

end Tp79Boot
