import Tp79Boot.Gps.Task

/-!
# Lines for the positioning module

The counter has eight bits, and the unread bytes can be 2047.  Where 256 of them
in a row hold no line end and another follows, the counter comes back to where
it was, and the loop of `gps_task` does not end.
-/

namespace Tp79Boot

open WhileLoop LineSplitting

/-- No line end stands between the two offsets from the reading position. -/
def NoEnd (recvBuf : RingBuffer UInt8 uartRxbufLenMax) (start stop : Nat) :
    Prop :=
  ∀ place, start ≤ place → place < stop →
    isLineEnd (recvBuf.cell place) = false

/-- The buffer holds the bytes from the reading position up to the first line
end, and zeros behind them. -/
def HoldsSegment (recvBuf : RingBuffer UInt8 uartRxbufLenMax)
    (buffer : List UInt8) : Prop :=
  ∃ length, length < 256 ∧ isLineEnd (recvBuf.cell length) = true ∧
    NoEnd recvBuf 0 length ∧
    ∀ place, place < 256 → byteAt buffer place =
      if place < length then recvBuf.cell place else 0

/-- The turn that begins hands a buffer over. -/
def GpsReceiver.HandsOver (receiver : GpsReceiver) : Prop :=
  receiver.ring.readP ≠ receiver.ring.writeP ∧
    isLineEnd receiver.here = true ∧ 2 ≤ receiver.cmpCnt

/-- If the turn that begins hands a buffer over, it is one segment. -/
def GpsReceiver.SegmentTurn (receiver : GpsReceiver) : Prop :=
  receiver.HandsOver → HoldsSegment receiver.ring receiver.line.toList

/-- No complete line is longer than 255 bytes, and what follows the last one
has at most 256. -/
def GpsLinesFit (stream : List UInt8) : Prop :=
  (∀ line ∈ segments isLineEnd stream, line.length ≤ 255) ∧
    (unfinished isLineEnd stream).length ≤ 256

/-- Going on from the counter, the loop looks at this place before it stops or
the counter turns over. -/
def GpsReceiver.LooksAt (receiver : GpsReceiver) (place : Nat) : Prop :=
  place = receiver.cmpCnt.toNat ∨
    receiver.cmpCnt.toNat < place ∧ place < receiver.ring.backlog ∧ place < 256

/-- The first line end behind the counter. -/
structure GpsReceiver.LineEndAt (receiver : GpsReceiver) (place : Nat) :
    Prop where
  looksAt : receiver.LooksAt place
  lineEnd : isLineEnd (receiver.ring.cell place) = true
  first : NoEnd receiver.ring receiver.cmpCnt.toNat place

theorem GpsReceiver.LooksAt.le {receiver : GpsReceiver} {place : Nat}
    (looks : receiver.LooksAt place) : receiver.cmpCnt.toNat ≤ place := by
  rcases looks with rfl | ⟨past, _⟩
  · exact Nat.le_refl _
  · exact Nat.le_of_lt past

theorem GpsReceiver.LooksAt.earlier {receiver : GpsReceiver}
    {place before : Nat} (looks : receiver.LooksAt place)
    (from_ : receiver.cmpCnt.toNat ≤ before) (less : before < place) :
    receiver.LooksAt before := by
  rcases looks with rfl | ⟨_, unread, small⟩
  · exact absurd from_ (Nat.not_le_of_lt less)
  · rcases Nat.eq_or_lt_of_le from_ with same | past
    · exact .inl same.symm
    · exact .inr ⟨past, Nat.lt_trans less unread, Nat.lt_trans less small⟩

theorem GpsReceiver.LineEndAt.le {receiver : GpsReceiver}
    {place other : Nat} (found : receiver.LineEndAt place)
    (looks : receiver.LooksAt other)
    (lineEnd : isLineEnd (receiver.ring.cell other) = true) :
    place ≤ other := by
  apply Nat.le_of_not_lt
  intro less
  cases (found.first other looks.le less).symm.trans lineEnd

theorem GpsReceiver.noLineEnd {receiver : GpsReceiver}
    (none : ¬∃ place, receiver.LineEndAt place) {place : Nat}
    (looks : receiver.LooksAt place) :
    isLineEnd (receiver.ring.cell place) = false := by
  induction place using Nat.strongRecOn with
  | _ place induction =>
      apply Bool.eq_false_iff.mpr
      intro lineEnd
      refine none ⟨place, looks, lineEnd, ?_⟩
      exact fun before from_ less =>
        induction before less (looks.earlier from_ less)

theorem GpsReceiver.noEnd_of_looks {receiver : GpsReceiver} {stop : Nat}
    (none : ∀ place, receiver.LooksAt place →
      isLineEnd (receiver.ring.cell place) = false)
    (unread : stop ≤ receiver.ring.backlog) (small : stop ≤ 256) :
    NoEnd receiver.ring receiver.cmpCnt.toNat stop := by
  intro place from_ below
  apply none
  rcases Nat.eq_or_lt_of_le from_ with same | past
  · exact .inl same.symm
  · exact .inr ⟨past, Nat.lt_of_lt_of_le below unread,
      Nat.lt_of_lt_of_le below small⟩

/-- Nothing is unread; or the first line end behind the counter is the first one
of all, unless too few bytes stand before it to be handed over, and the lines
behind it fit; or there is none behind the counter, and all that is unread has
room below the turn of the counter or fits line by line. -/
def GpsReceiver.Fits (receiver : GpsReceiver) : Prop :=
  receiver.ring.backlog = 0 ∨
    (∃ place, receiver.LineEndAt place ∧
      (2 ≤ place → NoEnd receiver.ring 0 place) ∧
      GpsLinesFit (receiver.ring.advance (place + 1)).contents) ∨
    (∀ place, receiver.LooksAt place →
      isLineEnd (receiver.ring.cell place) = false) ∧
      (receiver.ring.backlog ≤ 256 ∨ GpsLinesFit receiver.contents)

theorem gpsLinesFit_open {stream : List UInt8}
    (openStream : Open isLineEnd stream) :
    GpsLinesFit stream ↔ stream.length ≤ 256 := by
  rw [GpsLinesFit, segments_of_open openStream,
    unfinished_of_open openStream]
  exact and_iff_right fun line member => absurd member List.not_mem_nil

theorem gpsLinesFit_line {line rest : List UInt8} {last : UInt8}
    (openLine : Open isLineEnd line) (closes : isLineEnd last = true) :
    GpsLinesFit (line ++ last :: rest) ↔
      line.length ≤ 255 ∧ GpsLinesFit rest := by
  rw [GpsLinesFit, segments_line openLine closes,
    unfinished_line openLine closes, List.forall_mem_cons, and_assoc]
  rfl

section

variable {recvBuf : RingBuffer UInt8 uartRxbufLenMax}

theorem noEnd_succ {start stop : Nat} (none : NoEnd recvBuf start stop)
    (notEnd : isLineEnd (recvBuf.cell stop) = false) :
    NoEnd recvBuf start (stop + 1) := by
  intro place from_ below
  rcases Nat.lt_succ_iff_lt_or_eq.mp below with inside | rfl
  · exact none place from_ inside
  · exact notEnd

theorem noEnd_of_contents {front rest : List UInt8}
    (holds : recvBuf.contents = front ++ rest)
    (openFront : Open isLineEnd front) :
    NoEnd recvBuf 0 front.length := by
  intro place _ below
  have bound : place < recvBuf.contents.length := by
    rw [holds, List.length_append]
    exact Nat.lt_add_right _ below
  have entry : recvBuf.contents[place] = recvBuf.cell place :=
    RingBuffer.contents_getElem _ _ bound
  rw [← entry]
  simp only [holds, List.getElem_append_left below]
  exact openFront _ (List.getElem_mem below)

theorem cell_of_contents {front rest : List UInt8} {byte : UInt8}
    (holds : recvBuf.contents = front ++ byte :: rest) :
    recvBuf.cell front.length = byte := by
  have bound : front.length < recvBuf.contents.length := by
    rw [holds, List.length_append, List.length_cons]
    omega
  have entry : recvBuf.contents[front.length] = recvBuf.cell front.length :=
    RingBuffer.contents_getElem _ _ bound
  rw [← entry]
  simp [holds]

end

section

variable {deal : GpsDevice → List UInt8 → GpsDevice} {device : GpsDevice}
  {receiver : GpsReceiver}

variable (deal device receiver) in
/-- The loop ends, and every buffer it hands over is one segment. -/
def GpsCompletes : Prop :=
  Completes (gpsStep deal) (fun drained => drained.2.SegmentTurn)
    (device, receiver)

theorem segmentTurn_quiet (notEnd : isLineEnd receiver.here = false) :
    receiver.SegmentTurn := by
  intro hands
  cases notEnd.symm.trans hands.2.1

/-- The buffer always holds what stands before the counter; it is one segment
when no other line end stands there. -/
theorem segmentTurn_iff (unread : receiver.ring.backlog ≠ 0)
    (lineEnd : isLineEnd receiver.here = true) :
    receiver.SegmentTurn ↔
      (2 ≤ receiver.cmpCnt.toNat →
        NoEnd receiver.ring 0 receiver.cmpCnt.toNat) := by
  have nonempty := (RingBuffer.backlog_eq_zero_iff _).not.mp unread
  have long : 2 ≤ receiver.cmpCnt ↔ 2 ≤ receiver.cmpCnt.toNat :=
    UInt8.le_iff_toNat_le
  constructor
  · intro segment hands
    obtain ⟨length, _, closes, first, copied⟩ :=
      segment ⟨nonempty, lineEnd, long.mpr hands⟩
    have reaches : receiver.cmpCnt.toNat ≤ length := by
      apply Nat.le_of_not_lt
      intro before
      have small : length < 256 :=
        Nat.lt_trans before receiver.cmpCnt.toNat_lt
      have here := copied length small
      rw [receiver.byteAt_line small, if_pos before,
        if_neg (Nat.lt_irrefl _)] at here
      rw [here] at closes
      cases closes
    exact fun place from_ below =>
      first place from_ (Nat.lt_of_lt_of_le below reaches)
  · intro first hands
    exact ⟨receiver.cmpCnt.toNat, receiver.cmpCnt.toNat_lt, lineEnd,
      first (long.mp hands.2.2), fun place inside => receiver.byteAt_line inside⟩

theorem gpsCompletes_empty (empty : receiver.ring.backlog = 0) :
    GpsCompletes deal device receiver := by
  have stops : gpsStep deal (device, receiver) = .done (device, receiver) :=
    gpsTurn_empty empty
  refine (completes_done stops).mpr ?_
  intro hands
  exact absurd ((RingBuffer.backlog_eq_zero_iff _).mp empty) hands.1

theorem gpsCompletes_last (unread : receiver.ring.backlog ≠ 0)
    (notEnd : isLineEnd receiver.here = false)
    (last : receiver.ring.backlog ≤ receiver.cmpCnt.toNat + 1) :
    GpsCompletes deal device receiver := by
  have stops : gpsStep deal (device, receiver) = _ :=
    gpsTurn_last unread notEnd last
  exact (completes_done stops).mpr (segmentTurn_quiet notEnd)

theorem gpsCompletes_further (notEnd : isLineEnd receiver.here = false)
    (more : receiver.cmpCnt.toNat + 1 < receiver.ring.backlog) :
    GpsCompletes deal device receiver ↔
      GpsCompletes deal device (receiver.counting (receiver.cmpCnt + 1)) := by
  have goesOn : gpsStep deal (device, receiver) = _ :=
    gpsTurn_further notEnd more
  exact (completes_again goesOn).trans
    (and_iff_right (segmentTurn_quiet notEnd))

theorem gpsCompletes_line (unread : receiver.ring.backlog ≠ 0)
    (lineEnd : isLineEnd receiver.here = true) :
    ∃ dealt next, next.ring =
        receiver.ring.advance (receiver.cmpCnt.toNat + 1) ∧
      next.cmpCnt = 0 ∧
      (GpsCompletes deal device receiver ↔
        (2 ≤ receiver.cmpCnt.toNat →
          NoEnd receiver.ring 0 receiver.cmpCnt.toNat) ∧
        GpsCompletes deal dealt next) := by
  obtain ⟨dealt, next, turn, ring, counter⟩ :=
    @gpsTurn_line deal device receiver unread lineEnd
  have goesOn : gpsStep deal (device, receiver) = .again (dealt, next) := turn
  refine ⟨dealt, next, ring, counter, ?_⟩
  rw [← segmentTurn_iff unread lineEnd]
  exact completes_again goesOn

theorem here_counting {place : Nat} (inside : place < 256) :
    (receiver.counting place.toUInt8).here = receiver.ring.cell place := by
  have counter : place.toUInt8.toNat = place :=
    Nat.mod_eq_of_lt inside
  rw [GpsReceiver.here, GpsReceiver.counting_ring,
    GpsReceiver.counting_cmpCnt, counter]

theorem gpsCompletes_counting {place : Nat} (inside : place < 256)
    (notEnd : isLineEnd (receiver.ring.cell place) = false)
    (more : place + 1 < receiver.ring.backlog) :
    GpsCompletes deal device (receiver.counting place.toUInt8) ↔
      GpsCompletes deal device
        (receiver.counting (place + 1).toUInt8) := by
  have counter : place.toUInt8.toNat = place := Nat.mod_eq_of_lt inside
  have quiet : isLineEnd (receiver.counting place.toUInt8).here = false := by
    rw [here_counting inside]
    exact notEnd
  have unread : (receiver.counting place.toUInt8).cmpCnt.toNat + 1 <
      (receiver.counting place.toUInt8).ring.backlog := by
    rw [GpsReceiver.counting_cmpCnt, counter]
    exact more
  have next : (place + 1).toUInt8 = place.toUInt8 + 1 := by simp
  rw [gpsCompletes_further quiet unread, next]
  rfl

/-- Over bytes that are no line ends, as long as the counter does not turn
over. -/
theorem gpsCompletes_scan {start stop : Nat}
    (none : NoEnd receiver.ring start stop) (le : start ≤ stop)
    (unread : stop < receiver.ring.backlog) (small : stop < 256) :
    GpsCompletes deal device (receiver.counting start.toUInt8) ↔
      GpsCompletes deal device (receiver.counting stop.toUInt8) := by
  induction stop, le using Nat.le_induction with
  | base => rfl
  | succ stop le induction =>
      have before : stop < 256 := Nat.lt_of_succ_lt small
      have notEnd := none stop le (Nat.lt_succ_self stop)
      have earlier : NoEnd receiver.ring start stop :=
        fun place from_ below => none place from_ (Nat.lt_succ_of_lt below)
      rw [induction earlier (Nat.lt_of_succ_lt unread) before]
      exact gpsCompletes_counting before notEnd unread

theorem counting_self (receiver : GpsReceiver) :
    receiver.counting receiver.cmpCnt.toNat.toUInt8 = receiver := by
  simp [GpsReceiver.counting]

theorem gpsCompletes_moved {stop : Nat}
    (none : NoEnd receiver.ring receiver.cmpCnt.toNat stop)
    (le : receiver.cmpCnt.toNat ≤ stop)
    (unread : stop < receiver.ring.backlog) (small : stop < 256) :
    GpsCompletes deal device receiver ↔
      GpsCompletes deal device (receiver.counting stop.toUInt8) := by
  have scanned := @gpsCompletes_scan deal device receiver _ _ none le unread
    small
  rwa [counting_self] at scanned

theorem gpsCompletes_wrap (notEnd : isLineEnd (receiver.ring.cell 255) = false)
    (many : 256 < receiver.ring.backlog) :
    GpsCompletes deal device (receiver.counting (255 : Nat).toUInt8) ↔
      GpsCompletes deal device (receiver.counting 0) :=
  gpsCompletes_counting (by decide) notEnd many

theorem not_gpsCompletes (none : NoEnd receiver.ring 0 256)
    (many : 256 < receiver.ring.backlog) :
    ¬GpsCompletes deal device receiver := by
  rintro ⟨returns, _⟩
  refine not_returns (fun drained => drained.2.ring = receiver.ring) ?_ rfl
    returns
  rintro ⟨dealt, next⟩ same
  dsimp only at same
  have counter := next.cmpCnt.toNat_lt
  have notEnd : isLineEnd next.here = false := by
    rw [GpsReceiver.here, same]
    exact none _ (Nat.zero_le _) counter
  have more : next.cmpCnt.toNat + 1 < next.ring.backlog := by
    rw [same]
    exact Nat.lt_of_le_of_lt counter many
  exact ⟨_, gpsTurn_further notEnd more, same⟩

theorem gpsCompletes_none (few : receiver.ring.backlog ≤ 256)
    (none : ∀ place, receiver.LooksAt place →
      isLineEnd (receiver.ring.cell place) = false) :
    GpsCompletes deal device receiver := by
  have notEnd : isLineEnd receiver.here = false := none _ (.inl rfl)
  by_cases empty : receiver.ring.backlog = 0
  · exact gpsCompletes_empty empty
  · by_cases last : receiver.ring.backlog ≤ receiver.cmpCnt.toNat + 1
    · exact gpsCompletes_last empty notEnd last
    · have quiet : NoEnd receiver.ring receiver.cmpCnt.toNat
          receiver.ring.backlog :=
        receiver.noEnd_of_looks none (Nat.le_refl _) few
      have moved := @gpsCompletes_moved deal device receiver
        (receiver.ring.backlog - 1)
        (fun place from_ below => quiet place from_ (by omega)) (by omega)
        (by omega) (by omega)
      refine moved.mpr (gpsCompletes_last empty ?_ ?_)
      · rw [here_counting (by omega)]
        exact quiet _ (by omega) (by omega)
      · have counter : (receiver.ring.backlog - 1).toUInt8.toNat =
            receiver.ring.backlog - 1 := Nat.mod_eq_of_lt (by omega)
        rw [GpsReceiver.counting_ring, GpsReceiver.counting_cmpCnt, counter]
        omega

theorem gpsCompletes_lineEnd {place : Nat}
    (unread : receiver.ring.backlog ≠ 0) (found : receiver.LineEndAt place) :
    ∃ dealt next, next.ring = receiver.ring.advance (place + 1) ∧
      next.cmpCnt = 0 ∧
      (GpsCompletes deal device receiver ↔
        (2 ≤ place → NoEnd receiver.ring 0 place) ∧
          GpsCompletes deal dealt next) := by
  obtain ⟨rfl | ⟨past, below, small⟩, lineEnd, first⟩ := found
  · exact gpsCompletes_line unread lineEnd
  · have counter : place.toUInt8.toNat = place := Nat.mod_eq_of_lt small
    have closes : isLineEnd (receiver.counting place.toUInt8).here = true := by
      rw [here_counting small]
      exact lineEnd
    have line := @gpsCompletes_line deal device
      (receiver.counting place.toUInt8) unread closes
    rw [GpsReceiver.counting_ring, GpsReceiver.counting_cmpCnt, counter,
      ← gpsCompletes_moved first (Nat.le_of_lt past) below small] at line
    exact line

theorem contents_backlog {stream : List UInt8}
    (holds : receiver.contents = stream) :
    receiver.ring.backlog = stream.length :=
  receiver.ring.contents_length.symm.trans (congrArg List.length holds)

/-- From the front of bytes without a line end. -/
theorem gpsCompletes_open {stream : List UInt8}
    (openStream : Open isLineEnd stream)
    (holds : receiver.contents = stream) (front : receiver.cmpCnt = 0) :
    GpsCompletes deal device receiver ↔ stream.length ≤ 256 := by
  have backlog := contents_backlog holds
  have counter : receiver.cmpCnt.toNat = 0 := congrArg UInt8.toNat front
  have none : NoEnd receiver.ring 0 stream.length :=
    noEnd_of_contents (holds.trans (List.append_nil stream).symm) openStream
  by_cases few : stream.length ≤ 256
  · refine iff_of_true ?_ few
    by_cases empty : stream.length = 0
    · exact gpsCompletes_empty (backlog.trans empty)
    · apply gpsCompletes_none
      · rwa [backlog]
      · rintro place (rfl | ⟨_, below, _⟩)
        · rw [counter]
          exact none 0 (Nat.le_refl 0) (Nat.pos_of_ne_zero empty)
        · rw [backlog] at below
          exact none place (Nat.zero_le _) below
  · have many : 256 < stream.length := Nat.lt_of_not_le few
    refine iff_of_false ?_ few
    apply not_gpsCompletes
    · exact fun place from_ below =>
        none place from_ (Nat.lt_trans below many)
    · rwa [backlog]

theorem lineEndAt_front {line rest : List UInt8} {last : UInt8}
    (openLine : Open isLineEnd line) (closes : isLineEnd last = true)
    (holds : receiver.contents = line ++ last :: rest)
    (front : receiver.cmpCnt = 0) (short : line.length ≤ 255) :
    receiver.LineEndAt line.length := by
  have backlog := contents_backlog holds
  have counter : receiver.cmpCnt.toNat = 0 := congrArg UInt8.toNat front
  rw [List.length_append, List.length_cons] at backlog
  constructor
  · unfold GpsReceiver.LooksAt
    omega
  · rw [cell_of_contents holds]
    exact closes
  · rw [counter]
    exact noEnd_of_contents holds openLine

/-- From the front of a line on. -/
theorem gpsCompletes_front (stream : List UInt8)
    (holds : receiver.contents = stream) (front : receiver.cmpCnt = 0) :
    GpsCompletes deal device receiver ↔ GpsLinesFit stream := by
  induction stream using line_induction isLineEnd
    generalizing device receiver with
  | unterminated stream openStream =>
      rw [gpsLinesFit_open openStream]
      exact gpsCompletes_open openStream holds front
  | line line last rest openLine closes induction =>
      have none : NoEnd receiver.ring 0 line.length :=
        noEnd_of_contents holds openLine
      have backlog := contents_backlog holds
      rw [List.length_append, List.length_cons] at backlog
      rw [gpsLinesFit_line openLine closes]
      by_cases short : line.length ≤ 255
      · have found := lineEndAt_front openLine closes holds front short
        obtain ⟨dealt, next, ring, zero, line_⟩ :=
          @gpsCompletes_lineEnd deal device receiver _ (by omega) found
        have dropped : next.contents = rest := by
          have advanced : next.contents =
              receiver.contents.drop (line.length + 1) := by
            rw [GpsReceiver.contents, ring]
            exact RingBuffer.contents_advance (by omega)
          rw [advanced, holds, ← List.drop_drop, List.drop_left,
            List.drop_one, List.tail_cons]
        have later : GpsCompletes deal dealt next ↔ GpsLinesFit rest :=
          induction dropped zero
        rw [line_, later]
        apply and_congr_left'
        exact iff_of_true (fun _ => none) short
      · refine iff_of_false ?_ (fun fits => short fits.1)
        apply not_gpsCompletes
        · exact fun place from_ below => none place from_ (by omega)
        · omega

/-- From wherever the counter stands. -/
theorem gpsCompletes_iff :
    GpsCompletes deal device receiver ↔ receiver.Fits := by
  unfold GpsReceiver.Fits
  by_cases empty : receiver.ring.backlog = 0
  · exact iff_of_true (gpsCompletes_empty empty) (.inl empty)
  · rw [or_iff_right empty]
    by_cases found : ∃ place, receiver.LineEndAt place
    · obtain ⟨place, found⟩ := found
      obtain ⟨dealt, next, ring, front, line⟩ :=
        @gpsCompletes_lineEnd deal device receiver place empty found
      have rest := @gpsCompletes_front deal dealt next _ rfl front
      rw [line, rest, GpsReceiver.contents, ring]
      constructor
      · intro fits
        exact .inl ⟨place, found, fits⟩
      · rintro (⟨other, also, fits⟩ | ⟨none, _⟩)
        · have same : other = place := Nat.le_antisymm
            (also.le found.looksAt found.lineEnd)
            (found.le also.looksAt also.lineEnd)
          rwa [← same]
        · cases (none place found.looksAt).symm.trans found.lineEnd
    · have none : ∀ place, receiver.LooksAt place →
          isLineEnd (receiver.ring.cell place) = false :=
        fun _ looks => receiver.noLineEnd found looks
      have nowhere : ¬∃ place, receiver.LineEndAt place ∧
          (2 ≤ place → NoEnd receiver.ring 0 place) ∧
          GpsLinesFit (receiver.ring.advance (place + 1)).contents :=
        fun ⟨place, here, _⟩ => found ⟨place, here⟩
      rw [or_iff_right nowhere, and_iff_right none]
      by_cases few : receiver.ring.backlog ≤ 256
      · exact iff_of_true (gpsCompletes_none few none) (.inl few)
      · have many : 256 < receiver.ring.backlog := Nat.lt_of_not_le few
        have counter : receiver.cmpCnt.toNat ≤ 255 :=
          Nat.le_of_lt_succ receiver.cmpCnt.toNat_lt
        have inside : NoEnd receiver.ring receiver.cmpCnt.toNat 256 :=
          receiver.noEnd_of_looks none (Nat.le_of_lt many) (Nat.le_refl _)
        have quiet : NoEnd receiver.ring receiver.cmpCnt.toNat 255 :=
          fun place from_ below => inside place from_ (Nat.lt_succ_of_lt below)
        rw [or_iff_right few,
          gpsCompletes_moved quiet counter (Nat.lt_of_succ_lt many)
            (by decide),
          gpsCompletes_wrap (inside 255 counter (by decide)) many]
        exact gpsCompletes_front _ rfl rfl

end

section

variable (deal : GpsDevice → List UInt8 → GpsDevice) (sysTickCnt : UInt32)
  (device : GpsDevice) (receiver : GpsReceiver)

/-- What `gps_task` is expected to do: it returns, and every buffer it hands
over is one segment of the ring. -/
structure GpsTaskMeets : Prop where
  returns : ∃ turns final,
    gpsTask deal sysTickCnt turns device receiver = some final
  segments : EveryTurn (gpsStep deal) (fun drained => drained.2.SegmentTurn)
    (device.expire sysTickCnt, receiver)

theorem gpsTaskMeets_iff_completes :
    GpsTaskMeets deal sysTickCnt device receiver ↔
      GpsCompletes deal (device.expire sysTickCnt) receiver := by
  constructor
  · intro meets
    exact ⟨meets.returns, meets.segments⟩
  · intro completes
    exact ⟨completes.1, completes.2⟩

/-- Whatever is in the ring, wherever its positions and the counter stand, and
whatever is done with the lines. -/
theorem gpsTask_meets_iff :
    GpsTaskMeets deal sysTickCnt device receiver ↔ receiver.Fits :=
  (gpsTaskMeets_iff_completes deal sysTickCnt device receiver).trans
    gpsCompletes_iff

end

/-- 257 unread bytes, and no line end among them. -/
def endlessReceiver : GpsReceiver :=
  { deviceUart :=
      { recvBuf :=
          { uart2Config.recvBuf with
            cells := Vector.replicate uartRxbufLenMax 65
            writeP := 257
            writeP_lt := by decide }
        status := .recving }
    bufTempDeal := Vector.replicate 257 0
    cmpCnt := 0 }

def aGpsDevice : GpsDevice :=
  { nsValue := Vector.replicate 32 0
    ns := 0
    ewValue := Vector.replicate 32 0
    ew := 0
    positionState := 0
    satellitesSum := Vector.replicate 4 0
    snr :=
      { snr := Vector.replicate 32 (Vector.replicate 4 0)
        time := Vector.replicate 32 0 }
    status := .notDetect }

theorem endlessReceiver_cell (place : Nat) :
    isLineEnd (endlessReceiver.ring.cell place) = false := by
  have byte : endlessReceiver.ring.cell place = 65 := by
    simp [RingBuffer.cell, endlessReceiver, GpsReceiver.ring]
  rw [byte]
  rfl

/-- The loop does not come to an end. -/
theorem gpsTask_endless :
    ¬∀ (deal : GpsDevice → List UInt8 → GpsDevice) (sysTickCnt : UInt32)
      (device : GpsDevice) (receiver : GpsReceiver),
      GpsTaskMeets deal sysTickCnt device receiver := by
  intro meets
  have completes := (gpsTaskMeets_iff_completes _ _ _ _).mp
    (meets (fun device _ => device) 0 aGpsDevice endlessReceiver)
  exact not_gpsCompletes (fun place _ _ => endlessReceiver_cell place)
    (by decide) completes

/-- The counter is inside the unread bytes, and no line end stands before
it. -/
structure GpsReceiver.WellFormed (receiver : GpsReceiver) : Prop where
  counter : receiver.cmpCnt = 0 ∨
    receiver.cmpCnt.toNat < receiver.ring.backlog
  lookedAt : NoEnd receiver.ring 0 receiver.cmpCnt.toNat

theorem GpsReceiver.wellFormed_front {receiver : GpsReceiver}
    (front : receiver.cmpCnt = 0) : receiver.WellFormed := by
  refine ⟨.inl front, ?_⟩
  intro place _ below
  rw [front] at below
  exact absurd below (Nat.not_lt_zero place)

/-- Looking one byte further; behind the 256th the counter is at zero again. -/
theorem GpsReceiver.WellFormed.counting {receiver : GpsReceiver}
    (wellFormed : receiver.WellFormed)
    (notEnd : isLineEnd receiver.here = false)
    (more : receiver.cmpCnt.toNat + 1 < receiver.ring.backlog) :
    (receiver.counting (receiver.cmpCnt + 1)).WellFormed := by
  by_cases turns : receiver.cmpCnt = 255
  · apply GpsReceiver.wellFormed_front
    rw [GpsReceiver.counting_cmpCnt, turns]
    rfl
  · have counter : (receiver.cmpCnt + 1).toNat =
        receiver.cmpCnt.toNat + 1 := by
      have below : receiver.cmpCnt.toNat ≠ 255 :=
        fun same => turns (UInt8.toNat_inj.mp same)
      have size := receiver.cmpCnt.toNat_lt
      have one : (1 : UInt8).toNat = 1 := rfl
      rw [UInt8.toNat_add, one]
      exact Nat.mod_eq_of_lt (by omega)
    constructor
    · rw [GpsReceiver.counting_cmpCnt, GpsReceiver.counting_ring, counter]
      exact .inr more
    · rw [GpsReceiver.counting_cmpCnt, GpsReceiver.counting_ring, counter]
      exact noEnd_succ wellFormed.lookedAt notEnd

/-- A received byte is stored as in the ring of the radio module. -/
def GpsReceiver.arrive (receiver : GpsReceiver) (byte : UInt8) : GpsReceiver :=
  { receiver with deviceUart := usart2IrqHandler receiver.deviceUart byte }

theorem GpsReceiver.arrive_ring (receiver : GpsReceiver) (byte : UInt8) :
    (receiver.arrive byte).ring =
      if receiver.ring.Full then receiver.ring
      else receiver.ring.push byte := rfl

theorem GpsReceiver.WellFormed.arrive {receiver : GpsReceiver}
    (wellFormed : receiver.WellFormed) (byte : UInt8) :
    (receiver.arrive byte).WellFormed := by
  obtain ⟨counter, lookedAt⟩ := wellFormed
  by_cases full : receiver.ring.Full
  · have same : (receiver.arrive byte).ring = receiver.ring := by
      rw [GpsReceiver.arrive_ring, if_pos full]
    constructor
    · rw [same]
      exact counter
    · rw [same]
      exact lookedAt
  · have pushed : (receiver.arrive byte).ring = receiver.ring.push byte := by
      rw [GpsReceiver.arrive_ring, if_neg full]
    constructor
    · rw [pushed, RingBuffer.backlog_push full]
      exact counter.imp_right Nat.lt_succ_of_lt
    · rw [pushed]
      intro place from_ below
      rcases counter with front | inside
      · have counted : (receiver.arrive byte).cmpCnt = 0 := front
        rw [counted] at below
        exact absurd below (Nat.not_lt_zero place)
      · rw [RingBuffer.cell_push_old (Nat.lt_trans below inside)]
        exact lookedAt place from_ below

section

variable {deal : GpsDevice → List UInt8 → GpsDevice} {device : GpsDevice}
  {receiver : GpsReceiver}

theorem gpsTurn_wellFormed (wellFormed : receiver.WellFormed) :
    (∀ dealt next, gpsTurn deal device receiver = .again (dealt, next) →
      next.WellFormed) ∧
    ∀ dealt final, gpsTurn deal device receiver = .done (dealt, final) →
      final.WellFormed := by
  by_cases empty : receiver.ring.backlog = 0
  · rw [gpsTurn_empty empty]
    constructor
    · rintro dealt next ⟨⟩
    · rintro dealt final ⟨⟩
      exact wellFormed
  · by_cases lineEnd : isLineEnd receiver.here = true
    · obtain ⟨handed, taken, turn, _, front⟩ :=
        @gpsTurn_line deal device receiver empty lineEnd
      rw [turn]
      constructor
      · rintro dealt next ⟨⟩
        exact GpsReceiver.wellFormed_front front
      · rintro dealt final ⟨⟩
    · have notEnd := Bool.eq_false_iff.mpr lineEnd
      by_cases last : receiver.ring.backlog ≤ receiver.cmpCnt.toNat + 1
      · rw [gpsTurn_last empty notEnd last]
        constructor
        · rintro dealt next ⟨⟩
        · rintro dealt final ⟨⟩
          split
          · exact GpsReceiver.wellFormed_front rfl
          · exact wellFormed
      · rw [gpsTurn_further notEnd (Nat.lt_of_not_le last)]
        constructor
        · rintro dealt next ⟨⟩
          exact wellFormed.counting notEnd (Nat.lt_of_not_le last)
        · rintro dealt final ⟨⟩

theorem gpsTask_wellFormed {sysTickCnt : UInt32} {turns : Nat}
    {dealt : GpsDevice} {final : GpsReceiver}
    (wellFormed : receiver.WellFormed)
    (result : gpsTask deal sysTickCnt turns device receiver =
      some (dealt, final)) : final.WellFormed := by
  have whole := @loop_induction _ (gpsStep deal)
    (fun before after => before.2.WellFormed → after.2.WellFormed)
    (fun before after stops formed =>
      (gpsTurn_wellFormed formed).2 after.1 after.2 stops)
    (fun before next after goesOn rest formed =>
      rest ((gpsTurn_wellFormed formed).1 next.1 next.2 goesOn))
  exact whole result wellFormed

variable (deal) in
/-- The states of a run in which bytes arrive and calls of `gps_task`
return. -/
inductive GpsReached : GpsDevice → GpsReceiver → Prop where
  | start {device : GpsDevice} {receiver : GpsReceiver} :
      receiver.ring.backlog = 0 → receiver.cmpCnt = 0 →
        GpsReached device receiver
  | arrive {device : GpsDevice} {receiver : GpsReceiver} (byte : UInt8) :
      GpsReached device receiver → GpsReached device (receiver.arrive byte)
  | task {device dealt : GpsDevice} {receiver final : GpsReceiver}
      {sysTickCnt : UInt32} {turns : Nat} :
      GpsReached device receiver →
        gpsTask deal sysTickCnt turns device receiver = some (dealt, final) →
          GpsReached dealt final

theorem GpsReached.wellFormed (reached : GpsReached deal device receiver) :
    receiver.WellFormed := by
  induction reached with
  | start _ front => exact GpsReceiver.wellFormed_front front
  | arrive byte _ formed => exact formed.arrive byte
  | task _ result formed => exact gpsTask_wellFormed formed result

theorem gpsTask_reached_iff (reached : GpsReached deal device receiver)
    (sysTickCnt : UInt32) :
    GpsTaskMeets deal sysTickCnt device receiver ↔
      GpsLinesFit receiver.contents := by
  have front : GpsCompletes deal (device.expire sysTickCnt)
      (receiver.counting 0) ↔ GpsLinesFit receiver.contents :=
    gpsCompletes_front _ rfl rfl
  rw [gpsTaskMeets_iff_completes, ← front]
  rcases reached.wellFormed with ⟨zero | inside, lookedAt⟩
  · have same : receiver.counting 0 = receiver := by
      rw [← zero]
      rfl
    rw [same]
  · have scanned := @gpsCompletes_scan deal (device.expire sysTickCnt)
      receiver 0 _ lookedAt (Nat.zero_le _) inside receiver.cmpCnt.toNat_lt
    rw [counting_self] at scanned
    exact scanned.symm

end

end Tp79Boot
