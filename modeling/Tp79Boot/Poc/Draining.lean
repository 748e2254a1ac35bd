import Tp79Boot.Poc.Receiver

/-!
# What the loop takes out of the ring

Whatever the positions, the loop hands over the complete lines of the ring in
order and leaves what follows the last line end, with the counter at its last
byte.  Only when more than 1024 bytes are left without a line end does it throw
them away.
-/

namespace Tp79Boot

open WhileLoop LineSplitting

/-- The counter stays inside the unread bytes, and there is no line end before
it. -/
structure Receiver.WellFormed (receiver : Receiver) : Prop where
  counter : receiver.cmpCnt < receiver.ring.backlog ∨
    receiver.cmpCnt = 0 ∧ receiver.ring.backlog = 0
  lookedAt : Open isLineEnd (receiver.contents.take receiver.cmpCnt)

/-- The buffers for some lines that follow each other in the ring; a line of
fewer than two bytes has none. -/
def lineBuffers : List (List UInt8) → RingBuffer UInt8 uartRxbufLenMax →
    List (List UInt8)
  | [], _ => []
  | line :: lines, recvBuf =>
      (if 2 ≤ line.length then [lineBuffer recvBuf line.length] else []) ++
        lineBuffers lines (recvBuf.advance (line.length + 1))

/-- The buffers for the complete lines of the ring. -/
def Receiver.pendingLines (receiver : Receiver) : List (List UInt8) :=
  lineBuffers (segments isLineEnd receiver.contents) receiver.ring

/-- What follows the last line end, unless it is too long to be a line. -/
def Receiver.leftover (receiver : Receiver) : List UInt8 :=
  if (unfinished isLineEnd receiver.contents).length ≤ 1024 then
    unfinished isLineEnd receiver.contents
  else []

section

variable {receiver : Receiver}

@[simp] theorem Receiver.contents_length (receiver : Receiver) :
    receiver.contents.length = receiver.ring.backlog :=
  receiver.ring.contents_length

theorem Receiver.contents_split
    (inside : receiver.cmpCnt < receiver.ring.backlog) :
    receiver.contents = receiver.contents.take receiver.cmpCnt ++
      receiver.ring.cell receiver.cmpCnt ::
        receiver.contents.drop (receiver.cmpCnt + 1) := by
  have bound : receiver.cmpCnt < receiver.contents.length := by
    simpa using inside
  have entry : receiver.contents[receiver.cmpCnt] =
      receiver.ring.cell receiver.cmpCnt :=
    RingBuffer.contents_getElem _ _ bound
  rw [← entry, ← List.drop_eq_getElem_cons bound, List.take_append_drop]

theorem Receiver.take_succ
    (inside : receiver.cmpCnt < receiver.ring.backlog) :
    receiver.contents.take (receiver.cmpCnt + 1) =
      receiver.contents.take receiver.cmpCnt ++
        [receiver.ring.cell receiver.cmpCnt] := by
  have bound : receiver.cmpCnt < receiver.contents.length := by
    simpa using inside
  have entry : receiver.contents[receiver.cmpCnt] =
      receiver.ring.cell receiver.cmpCnt :=
    RingBuffer.contents_getElem _ _ bound
  rw [List.take_succ_eq_append_getElem bound, entry]

theorem Receiver.pendingLines_of_open
    (openContents : Open isLineEnd receiver.contents) :
    receiver.pendingLines = [] := by
  rw [Receiver.pendingLines, segments_of_open openContents, lineBuffers]

theorem Receiver.leftover_of_open
    (openContents : Open isLineEnd receiver.contents) :
    receiver.leftover =
      if receiver.ring.backlog ≤ 1024 then receiver.contents else [] := by
  rw [Receiver.leftover, unfinished_of_open openContents,
    Receiver.contents_length]

namespace Receiver.WellFormed

variable (wellFormed : receiver.WellFormed)

include wellFormed

theorem inside (unread : receiver.ring.backlog ≠ 0) :
    receiver.cmpCnt < receiver.ring.backlog := by
  rcases wellFormed.counter with inside | ⟨_, empty⟩
  · exact inside
  · exact absurd empty unread

theorem lookedAt_succ (inside : receiver.cmpCnt < receiver.ring.backlog)
    (notEnd : isLineEnd (receiver.ring.cell receiver.cmpCnt) = false) :
    Open isLineEnd (receiver.contents.take (receiver.cmpCnt + 1)) := by
  rw [Receiver.take_succ inside]
  intro byte member
  rcases List.mem_append.mp member with earlier | last
  · exact wellFormed.lookedAt byte earlier
  · rw [List.mem_singleton.mp last]
    exact notEnd

/-- When the counter is at the last byte and that is no line end, there is
none. -/
theorem contents_open (unread : receiver.ring.backlog ≠ 0)
    (notEnd : isLineEnd (receiver.ring.cell receiver.cmpCnt) = false)
    (last : receiver.ring.backlog ≤ receiver.cmpCnt + 1) :
    Open isLineEnd receiver.contents := by
  have looked :=
    wellFormed.lookedAt_succ (wellFormed.inside unread) notEnd
  rwa [List.take_of_length_le (by simpa using last)] at looked

/-- What is in the ring is what has been looked at, the byte there, and what
stays when both are taken out. -/
theorem contents_taken (unread : receiver.ring.backlog ≠ 0) :
    (receiver.contents.take receiver.cmpCnt).length = receiver.cmpCnt ∧
      receiver.contents = receiver.contents.take receiver.cmpCnt ++
        receiver.ring.cell receiver.cmpCnt ::
          (receiver.moved
            (receiver.ring.advance (receiver.cmpCnt + 1)) 0).contents := by
  have inside := wellFormed.inside unread
  have dropped : (receiver.moved
      (receiver.ring.advance (receiver.cmpCnt + 1)) 0).contents =
        receiver.contents.drop (receiver.cmpCnt + 1) :=
    RingBuffer.contents_advance inside
  constructor
  · rw [List.length_take, Receiver.contents_length]
    exact Nat.min_eq_left (Nat.le_of_lt inside)
  · rw [dropped]
    exact Receiver.contents_split inside

/-- Taking a line out. -/
theorem line_taken (unread : receiver.ring.backlog ≠ 0)
    (lineEnd : isLineEnd (receiver.ring.cell receiver.cmpCnt) = true) :
    let rest := receiver.moved
      (receiver.ring.advance (receiver.cmpCnt + 1)) 0
    rest.WellFormed ∧
      receiver.pendingLines =
        (if 2 ≤ receiver.cmpCnt then
          [lineBuffer receiver.ring receiver.cmpCnt] else []) ++
            rest.pendingLines ∧
      receiver.leftover = rest.leftover := by
  intro rest
  obtain ⟨length, split⟩ := wellFormed.contents_taken unread
  refine ⟨⟨?_, ?_⟩, ?_, ?_⟩
  · rcases Nat.eq_zero_or_pos rest.ring.backlog with empty | some_
    · exact .inr ⟨rfl, empty⟩
    · exact .inl some_
  · intro byte member
    simp [rest] at member
  · rw [Receiver.pendingLines, split,
      segments_line wellFormed.lookedAt lineEnd, lineBuffers, length]
    rfl
  · rw [Receiver.leftover, split,
      unfinished_line wellFormed.lookedAt lineEnd]
    rfl

end Receiver.WellFormed

end

section

variable {σ : Type} {deal : σ → List UInt8 → σ} {state : σ}
  {receiver : Receiver}

/-- The state after the loop, against the lines that were in the ring. -/
structure Drained (deal : σ → List UInt8 → σ) (state : σ)
    (receiver : Receiver) (final : σ × Receiver) : Prop where
  handed : final.1 = receiver.pendingLines.foldl deal state
  contents : final.2.contents = receiver.leftover
  wellFormed : final.2.WellFormed

private theorem drained_of_open {last : Receiver}
    (openContents : Open isLineEnd receiver.contents)
    (kept : last.contents =
      if receiver.ring.backlog ≤ 1024 then receiver.contents else [])
    (wellFormed : last.WellFormed) :
    Drained deal state receiver (state, last) := by
  refine ⟨?_, ?_, wellFormed⟩
  · rw [Receiver.pendingLines_of_open openContents, List.foldl_nil]
  · rw [Receiver.leftover_of_open openContents]
    exact kept

private theorem drained_done {dealt : σ} {last : Receiver}
    (wellFormed : receiver.WellFormed)
    (stops : drainTurn deal state receiver = .done (dealt, last)) :
    Drained deal state receiver (dealt, last) := by
  obtain ⟨rfl, ⟨empty, same⟩ | ⟨unread, notEnd, atLast, outcome⟩⟩ :=
    drainTurn_done stops
  · have nothing : receiver.contents = [] := by
      rw [← List.length_eq_zero_iff, Receiver.contents_length]
      exact empty
    have openContents : Open isLineEnd receiver.contents := by
      rw [nothing]
      intro byte member
      cases member
    have few : receiver.ring.backlog ≤ 1024 := by omega
    rw [same]
    exact drained_of_open openContents (if_pos few).symm wellFormed
  · have inside := wellFormed.inside unread
    have openContents := wellFormed.contents_open unread notEnd atLast
    rcases outcome with ⟨full, rfl⟩ | ⟨short, rfl⟩
    · have many : ¬receiver.ring.backlog ≤ 1024 := by omega
      have rewound : (receiver.moved receiver.ring.rewind 0).ring.backlog =
          0 := by
        rw [RingBuffer.backlog_eq_zero_iff]
        rfl
      refine drained_of_open openContents ?_ ⟨.inr ⟨rfl, rewound⟩, ?_⟩
      · rw [if_neg many]
        exact RingBuffer.contents_rewind _
      · intro byte member
        simp at member
    · have few : last.ring.backlog ≤ 1024 := by omega
      exact drained_of_open openContents (if_pos few).symm wellFormed

private theorem drained_again {dealt : σ} {next : Receiver}
    {final : σ × Receiver} (wellFormed : receiver.WellFormed)
    (goesOn : drainTurn deal state receiver = .again (dealt, next))
    (rest : next.WellFormed → Drained deal dealt next final) :
    Drained deal state receiver final := by
  obtain ⟨unread, ⟨lineEnd, rfl, rfl⟩ | ⟨notEnd, more, rfl, rfl⟩⟩ :=
    drainTurn_again goesOn
  · obtain ⟨restFormed, lines, leftover⟩ :=
      wellFormed.line_taken unread lineEnd
    obtain ⟨handed, contents, finalFormed⟩ := rest restFormed
    refine ⟨?_, contents.trans leftover.symm, finalFormed⟩
    rw [handed, lines, List.foldl_append]
    split
    · rfl
    · rfl
  · have inside := wellFormed.inside unread
    obtain ⟨handed, contents, finalFormed⟩ := rest
      ⟨.inl more, wellFormed.lookedAt_succ inside notEnd⟩
    exact ⟨handed, contents, finalFormed⟩

theorem drain_drained (deal : σ → List UInt8 → σ) (state : σ)
    (wellFormed : receiver.WellFormed) :
    Drained deal state receiver (drain deal state receiver) := by
  have whole := @loop_induction _ (drainStep deal)
    (fun before final => before.2.WellFormed →
      Drained deal before.1 before.2 final)
    (fun before final stops formed => drained_done formed stops)
    (fun before next final goesOn rest formed =>
      drained_again formed goesOn rest)
  exact whole (drain_result deal state receiver) wellFormed

end

end Tp79Boot
