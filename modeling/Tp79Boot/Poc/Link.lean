import Tp79Boot.Leaving
import Tp79Boot.Poc.Transfer

/-!
# The loop and the server

The boot program asks for one packet at a time and asks again when two seconds
have passed.  The radio module between it and the server may lose requests and
answers, and deliver answers late, in any order and any number of times.  A
round is one turn of the loop: while packets are missing it keeps what is there
and adds what it asked for, if that comes, and otherwise it is the last one.
-/

namespace Tp79Boot

open NorMemory EventRun NumberedTransfer

/-- What the module hands over: the answer to one of the requests so far, or
some other line. -/
inductive Arrival where
  | answer (pick : Nat)
  | other (line : List UInt8)

/-- One turn of the loop: the clock at `poc_task`, what the module hands over,
and the clock at the end. -/
structure Round where
  tick : UInt32
  arrivals : List Arrival
  late : UInt32

/-- The loop and the texts it has sent, oldest first. -/
structure Link where
  download : Download
  requests : List (List UInt8)

def Link.count (link : Link) : Nat :=
  link.download.boot.pocDevice.downPackCnt.toNat

section

variable (server : List UInt8 → Option (List UInt8))

def Arrival.line (requests : List (List UInt8)) :
    Arrival → Option (List UInt8)
  | .answer pick => requests[pick]?.bind server
  | .other line => some line

/-- The loop after `poc_task` has acted on the status. -/
def Link.polled (link : Link) (tick : UInt32) : Link :=
  let download := loopStep link.download (.poll tick)
  { download := download
    requests := link.requests ++
      download.boot.sent.drop link.download.boot.sent.length }

/-- The lines of a round: a request that is sent in it may be answered in
it. -/
def Link.lines (link : Link) (round : Round) : List (List UInt8) :=
  round.arrivals.filterMap
    (Arrival.line server (link.polled round.tick).requests)

def linkStep (link : Link) (round : Round) : Link :=
  { link.polled round.tick with
    download := run loopStep (link.polled round.tick).download
      ((link.lines server round).map .receive ++
        [.branch, .timeout round.late]) }

end

/-- The server has the image: it answers the request for a packet with it, and
does not answer the text that turns the module off. -/
structure Serves (image : List (List UInt8))
    (server : List UInt8 → Option (List UInt8)) : Prop where
  answers : ∀ (payload : List UInt8) (number : UInt16),
    (payload, number.toNat) ∈ numbered image →
      ∃ line, server (packetCmd number) = some line ∧
        Answers (packetCmd number) payload line
  silent : server (ascii "AT+QPOWD=0\r\n") = none

/-- A line that may come during the download: no login notice, no version and
no announcement, and if it is an intact packet, one of the image. -/
structure Foreseen (image : List (List UInt8)) (line : List UInt8) : Prop where
  notLand : pocLine line ≠ .land
  notVersion : pocLine line ≠ .version
  notDownloaded : pocLine line ≠ .downloaded
  genuine : ∀ delivery, packetDelivery line = some delivery →
    delivery ∈ numbered image

/-- The loop has been left, the boot flag is cleared and the image is in
flash. -/
structure Installed (image : List (List UInt8)) (download : Download) :
    Prop where
  left : download.phase = .left
  success : download.boot.pocDevice.status = .verDwonloadSuccess
  flag : bootFlag download.boot.flash = 0
  image : download.boot.packetStore.received = image

/-- The state of the protocol while the image comes in. -/
structure Loading (image : List (List UInt8)) (status : PocStatus)
    (boot : Boot) : Prop where
  status : boot.pocDevice.status = status
  sum : boot.pocDevice.packSum.toNat = image.length
  started : boot.packetStore.Started
  ahead : boot.packetStore.BlankAhead
  front : boot.packetStore.received <+: image

theorem pocUartMsgDeal_resendTimer (boot : Boot) (ptr : List UInt8) :
    (pocUartMsgDeal boot ptr).resendTimer = boot.resendTimer := by
  unfold pocUartMsgDeal
  cases pocLine ptr with
  | version =>
      simp only [dealVersion]
      split
      · split
        · rfl
        · rfl
      · rfl
  | packet =>
      obtain ⟨_, _, _, packet⟩ := dealPacket_eq boot ptr
      simp only [packet]
  | _ => rfl

section

variable {image : List (List UInt8)} {status : PocStatus} {boot : Boot}

theorem Foreseen.lineStatus {line : List UInt8} (foreseen : Foreseen image line)
    (settled : okStatus boot.pocDevice.status = boot.pocDevice.status) :
    lineStatus boot line = boot.pocDevice.status := by
  unfold Tp79Boot.lineStatus
  cases kind : pocLine line with
  | ok => exact settled
  | land => exact absurd kind foreseen.notLand
  | version => exact absurd kind foreseen.notVersion
  | downloaded => exact absurd kind foreseen.notDownloaded
  | _ => rfl

theorem Loading.receive (loading : Loading image status boot)
    (fits : image.length ≤ 1560) (settled : okStatus status = status)
    {line : List UInt8} (foreseen : Foreseen image line) :
    Loading image status (pocUartMsgDeal boot line) ∧
      (pocUartMsgDeal boot line).packetStore.received =
        (packetDelivery line).elim boot.packetStore.received
          (accept boot.packetStore.received) := by
  have effect := pocUartMsgDeal_effect boot line
  have store := pocUartMsgDeal_packetStore boot line
  have taken := PacketStore.receive_genuine loading.started loading.ahead fits
    foreseen.genuine
  rw [← store] at taken
  refine ⟨⟨?_, ?_, ?_, ?_, ?_⟩, taken⟩
  · rw [effect.status, foreseen.lineStatus, loading.status]
    rw [loading.status, settled]
  · rw [pocUartMsgDeal_otherSum boot foreseen.notDownloaded]
    exact loading.sum
  · rw [store]
    exact PacketStore.receive_started loading.started
  · rw [store]
    exact loading.ahead.receive line
  · rw [taken]
    cases delivered : packetDelivery line with
    | none => exact loading.front
    | some delivery =>
        exact accept_front (foreseen.genuine delivery delivered)
          loading.front

/-- All lines of a turn. -/
theorem Loading.lines (loading : Loading image status boot)
    (fits : image.length ≤ 1560) (settled : okStatus status = status)
    {lines : List (List UInt8)} (foreseen : ∀ line ∈ lines, Foreseen image line) :
    Loading image status (run pocStep boot (lines.map .receive)) ∧
      (run pocStep boot (lines.map .receive)).packetStore.received =
        (lines.filterMap packetDelivery).foldl accept
          boot.packetStore.received ∧
      (run pocStep boot (lines.map .receive)).resendTimer =
        boot.resendTimer := by
  induction lines generalizing boot with
  | nil => exact ⟨loading, rfl, rfl⟩
  | cons line lines induction =>
      obtain ⟨next, taken⟩ := loading.receive fits settled
        (foreseen line List.mem_cons_self)
      obtain ⟨reached, received, timer⟩ := induction next
        fun line member => foreseen line (.tail _ member)
      rw [pocUartMsgDeal_resendTimer] at timer
      refine ⟨reached, received.trans ?_, timer⟩
      rw [taken, List.filterMap_cons]
      cases packetDelivery line with
      | none => rfl
      | some delivery => rfl

end

/-- The switch asks for a packet: two seconds have passed since it last asked,
or a packet has been counted. -/
def Asks (tick : UInt32) (boot : Boot) : Prop :=
  tick - (heldTimer tick boot).resendTimer > 2000 ∨
    boot.oldSendCnt ≠ boot.pocDevice.downPackCnt

instance (tick : UInt32) (boot : Boot) : Decidable (Asks tick boot) :=
  inferInstanceAs (Decidable (_ ∨ _))

/-- The requests of one switch, while packets are missing. -/
def newRequests (tick : UInt32) (boot : Boot) : List (List UInt8) :=
  if Asks tick boot then [packetCmd (boot.pocDevice.downPackCnt + 1)] else []

theorem heldTimer_eq (tick : UInt32) (boot : Boot) :
    heldTimer tick boot =
      { boot with resendTimer := (heldTimer tick boot).resendTimer } := by
  unfold heldTimer
  split
  · rfl
  · rfl

theorem heldTimer_le (tick : UInt32) (boot : Boot) :
    (heldTimer tick boot).resendTimer ≤ tick ∧
      (heldTimer tick boot).resendTimer ≤ boot.resendTimer := by
  unfold heldTimer
  split
  next ahead => exact ⟨UInt32.le_refl tick, UInt32.le_of_lt ahead⟩
  next behind => exact ⟨UInt32.not_lt.mp behind, UInt32.le_refl _⟩

section

variable {tick : UInt32} {boot : Boot}
  (upgrade : boot.pocDevice.status = .verUpgrade)

include upgrade

theorem pocTaskSwitch_unfinished
    (unfinished : boot.pocDevice.downPackCnt < boot.pocDevice.packSum) :
    (pocTaskSwitch tick boot).sent = boot.sent ++ newRequests tick boot ∧
      (pocTaskSwitch tick boot).resendTimer =
        if Asks tick boot then tick else (heldTimer tick boot).resendTimer := by
  have held := heldTimer_eq tick boot
  have device := (heldTimer_onlyRequests tick boot).pocDevice
  have sendCnt : (heldTimer tick boot).oldSendCnt = boot.oldSendCnt := by
    rw [held]
  have sent : (heldTimer tick boot).sent = boot.sent := by rw [held]
  unfold newRequests
  by_cases due : Asks tick boot
  · rw [if_pos due, if_pos due]
    unfold Asks at due
    unfold pocTaskSwitch
    generalize heldTimer tick boot = next at device sendCnt sent due ⊢
    rw [← sendCnt] at due
    simp only [device, upgrade, if_pos unfinished] at due ⊢
    rw [if_pos due, Boot.uart2SendString_sent, sent]
    exact ⟨rfl, rfl⟩
  · rw [if_neg due, if_neg due, List.append_nil]
    unfold Asks at due
    unfold pocTaskSwitch
    generalize heldTimer tick boot = next at device sendCnt sent due ⊢
    rw [← sendCnt] at due
    simp only [device, upgrade, if_pos unfinished] at due ⊢
    rw [if_neg due]
    exact ⟨sent, rfl⟩

theorem pocTaskSwitch_powersOff
    (finished : boot.pocDevice.packSum ≤ boot.pocDevice.downPackCnt) :
    (pocTaskSwitch tick boot).sent =
      boot.sent ++ [ascii "AT+QPOWD=0\r\n"] := by
  have held := heldTimer_eq tick boot
  have device := (heldTimer_onlyRequests tick boot).pocDevice
  have sent : (heldTimer tick boot).sent = boot.sent := by rw [held]
  have reached : ¬boot.pocDevice.downPackCnt < boot.pocDevice.packSum :=
    UInt16.not_lt.mpr finished
  unfold pocTaskSwitch
  generalize heldTimer tick boot = next at device sent ⊢
  simp only [device, upgrade, if_neg reached, Boot.uart2SendString_sent,
    Boot.setStatus_sent, sent]

end

section

variable {image : List (List UInt8)} {boot : Boot}

/-- The switch does not touch the blocks, and reports the success when all of
them are there. -/
theorem Loading.poll (loading : Loading image .verUpgrade boot)
    (tick : UInt32) :
    Loading image (if boot.pocDevice.downPackCnt.toNat < image.length
        then .verUpgrade else .verDwonloadSuccess) (pocTaskSwitch tick boot) ∧
      (pocTaskSwitch tick boot).packetStore = boot.packetStore := by
  have requests := pocTaskSwitch_onlyRequests tick boot
  have store := pocTaskSwitch_packetStore tick boot
  have met : boot.pocDevice.packSum ≤ boot.pocDevice.downPackCnt ↔
      ¬boot.pocDevice.downPackCnt.toNat < image.length := by
    rw [UInt16.le_iff_toNat_le, loading.sum, Nat.not_lt]
  refine ⟨⟨?_, ?_, ?_, ?_, ?_⟩, store⟩
  · rw [requests.pocDevice, Boot.setStatus_pocDevice_status, switchedStatus]
    by_cases missing : boot.pocDevice.downPackCnt.toNat < image.length
    · rw [if_pos missing, if_neg fun both => met.mp both.2 missing]
      exact loading.status
    · rw [if_neg missing, if_pos ⟨loading.status, met.mpr missing⟩]
  · rw [requests.pocDevice]
    exact loading.sum
  · rw [store]
    exact loading.started
  · rw [store]
    exact loading.ahead
  · rw [store]
    exact loading.front

end

/-- A request that the server answers with a packet of the image. -/
def AskedFor (image : List (List UInt8)) (request : List UInt8) : Prop :=
  ∃ number : UInt16, 0 < number.toNat ∧ number.toNat ≤ image.length ∧
    request = packetCmd number

section

variable {image : List (List UInt8)}
  {server : List UInt8 → Option (List UInt8)}

theorem Answers.delivery {number : UInt16} {payload line : List UInt8}
    (answers : Answers (packetCmd number) payload line)
    (whole : payload.length = 256) :
    packetDelivery line = some (payload, number.toNat) := by
  have kind : pocLine (ascii "+POC:4303") = .packet := by decide
  have intact : IntactPacket line := by
    refine ⟨(pocLine_of_begins answers.name).trans kind, answers.long, ?_⟩
    rw [answers.packetCrc, answers.packetData whole]
  rw [packetDelivery, if_pos intact, answers.packetData whole,
    answers.packetNumber]

/-- The server's answer to the request for a packet delivers that packet. -/
theorem Serves.delivery (serves : Serves image server)
    (whole : ∀ payload ∈ image, payload.length = 256) {number : UInt16}
    (positive : 0 < number.toNat) (inside : number.toNat ≤ image.length) :
    ∃ line payload, server (packetCmd number) = some line ∧
      pocLine line = .packet ∧ (payload, number.toNat) ∈ numbered image ∧
        packetDelivery line = some (payload, number.toNat) := by
  have below : number.toNat - 1 < image.length := by omega
  have here : (image[number.toNat - 1], number.toNat) ∈ numbered image :=
    mem_numbered_iff.mpr ⟨positive, List.getElem?_eq_getElem below⟩
  obtain ⟨line, answered, answers⟩ := serves.answers _ number here
  have kind : pocLine (ascii "+POC:4303") = .packet := by decide
  exact ⟨line, _, answered, (pocLine_of_begins answers.name).trans kind, here,
    answers.delivery (whole _ (List.getElem_mem below))⟩

theorem Serves.foreseen (serves : Serves image server)
    (whole : ∀ payload ∈ image, payload.length = 256)
    {request line : List UInt8} (asked : AskedFor image request)
    (answered : server request = some line) : Foreseen image line := by
  obtain ⟨number, positive, inside, rfl⟩ := asked
  obtain ⟨answer, payload, sent, kind, here, delivery⟩ :=
    serves.delivery whole positive inside
  cases sent.symm.trans answered
  refine ⟨by simp [kind], by simp [kind], by simp [kind], ?_⟩
  intro other delivered
  cases delivery.symm.trans delivered
  exact here

/-- What the module hands over, when all requests are for packets or the
last one turns it off. -/
theorem Serves.arrivals_foreseen (serves : Serves image server)
    (whole : ∀ payload ∈ image, payload.length = 256)
    {requests : List (List UInt8)}
    (asked : ∀ request ∈ requests, AskedFor image request ∨
      request = ascii "AT+QPOWD=0\r\n")
    {arrivals : List Arrival}
    (others : ∀ line, .other line ∈ arrivals → Foreseen image line) :
    ∀ line ∈ arrivals.filterMap (Arrival.line server requests),
      Foreseen image line := by
  intro line member
  obtain ⟨arrival, arrived, same⟩ := List.mem_filterMap.mp member
  cases arrival with
  | other text =>
      cases same
      exact others line arrived
  | answer pick =>
      obtain ⟨request, picked, answered⟩ := Option.bind_eq_some_iff.mp same
      rcases asked request (List.mem_of_getElem? picked) with packet | rfl
      · exact serves.foreseen whole packet answered
      · cases serves.silent.symm.trans answered

end

/-- Up to packet 1936 the blocks lie before the reserve page. -/
theorem Exit.received {boot after : Boot} (leaving : Exit boot after)
    (inside : boot.pocDevice.downPackCnt.toNat ≤ 1936) :
    after.packetStore.received = boot.packetStore.received := by
  have counter : after.packetStore.downPackCnt =
      boot.packetStore.downPackCnt :=
    congrArg PocDevice.downPackCnt leaving.pocDevice
  rw [PacketStore.received, PacketStore.received, counter]
  apply List.map_congr_left
  intro index member
  have below : index < boot.pocDevice.downPackCnt.toNat :=
    List.mem_range.mp member
  apply PacketStore.block_congr
  intro place bound
  apply leaving.before
  unfold blockAddr startAddress flashAddrReserve
  omega

/-- The loop is at the top of a turn and the image is coming in. -/
structure Downloading (image : List (List UInt8)) (link : Link) : Prop where
  polling : link.download.phase = .polling
  loading : Loading image .verUpgrade link.download.boot
  asked : ∀ request ∈ link.requests, AskedFor image request

theorem Loading.count_le {image : List (List UInt8)} {status : PocStatus}
    {boot : Boot} (loading : Loading image status boot) :
    boot.pocDevice.downPackCnt.toNat ≤ image.length := by
  have lengths := loading.front.length_le
  rw [PacketStore.received_length] at lengths
  exact lengths

theorem run_turnEnd_upgrade {download : Download} (late : UInt32)
    (draining : download.phase = .draining)
    (upgrade : download.boot.pocDevice.status = .verUpgrade) :
    run loopStep download [.branch, .timeout late] =
      { download with phase := .polling } := by
  have branched : loopStep download .branch =
      { download with phase := .branched } := by
    simp [loopStep, draining, upgrade]
  have stays : ¬(download.boot.pocDevice.status ≠ .verUpgrade ∧
      late > 300000) := fun both => both.1 upgrade
  rw [run_cons, run_cons, run_nil, branched]
  simp only [loopStep, if_true, if_neg stays]

theorem run_turnEnd_success {download : Download} (late : UInt32)
    (draining : download.phase = .draining)
    (success : download.boot.pocDevice.status = .verDwonloadSuccess) :
    run loopStep download [.branch, .timeout late] =
      { download with phase := .left, boot := leaveSuccess download.boot } := by
  have leaves : loopStep download .branch =
      { download with
        phase := .left, boot := leaveSuccess download.boot } := by
    simp [loopStep, draining, success]
  rw [run_cons, run_cons, run_nil, leaves]
  simp [loopStep]

section

variable {image : List (List UInt8)} {link : Link}
  {server : List UInt8 → Option (List UInt8)} {round : Round}

theorem linkStep_download (polling : link.download.phase = .polling) :
    (linkStep server link round).download =
      run loopStep
        { phase := .draining
          boot := run pocStep (pocTaskSwitch round.tick link.download.boot)
            ((link.lines server round).map .receive)
          history := link.download.history ++
            turnEvents round.tick (link.lines server round) }
        [.branch, .timeout round.late] := by
  have polled : (link.polled round.tick).download =
      { phase := .draining
        boot := pocTaskSwitch round.tick link.download.boot
        history := link.download.history ++ [.poll round.tick] } :=
    if_pos polling
  rw [linkStep, run_append, polled, run_receive _ _ rfl, turnEvents,
    List.append_assoc, List.singleton_append]

theorem polled_requests (polling : link.download.phase = .polling)
    {texts : List (List UInt8)} {tick : UInt32}
    (sent : (pocTaskSwitch tick link.download.boot).sent =
      link.download.boot.sent ++ texts) :
    (link.polled tick).requests = link.requests ++ texts := by
  have polled : (loopStep link.download (.poll tick)).boot =
      pocTaskSwitch tick link.download.boot := by
    rw [loopStep, if_pos polling]
  simp only [Link.polled, polled, sent, List.drop_left]

/-- What a round does while packets are missing. -/
structure Continues (image : List (List UInt8)) (link next : Link)
    (round : Round) : Prop where
  downloading : Downloading image next
  requests : next.requests =
    link.requests ++ newRequests round.tick link.download.boot
  timer : next.download.boot.resendTimer =
    if Asks round.tick link.download.boot then round.tick
    else (heldTimer round.tick link.download.boot).resendTimer
  onward : link.count ≤ next.count
  answered : ∀ pick, .answer pick ∈ round.arrivals →
    next.requests[pick]? =
      some (packetCmd (link.download.boot.pocDevice.downPackCnt + 1)) →
    link.count < next.count

theorem Link.asksNext (fits : image.length ≤ 1560)
    (missing : link.count < image.length) :
    (link.download.boot.pocDevice.downPackCnt + 1).toNat = link.count + 1 := by
  have one : (1 : UInt16).toNat = 1 := rfl
  rw [UInt16.toNat_add, one]
  exact Nat.mod_eq_of_lt (show link.count + 1 < 65536 by omega)

theorem Downloading.continues (downloading : Downloading image link)
    (serves : Serves image server)
    (whole : ∀ payload ∈ image, payload.length = 256)
    (fits : image.length ≤ 1560) (missing : link.count < image.length)
    (others : ∀ line, .other line ∈ round.arrivals → Foreseen image line) :
    Continues image link (linkStep server link round) round := by
  have loading := downloading.loading
  have unfinished : link.download.boot.pocDevice.downPackCnt <
      link.download.boot.pocDevice.packSum := by
    rw [UInt16.lt_iff_toNat_lt, loading.sum]
    exact missing
  obtain ⟨sent, timer⟩ := @pocTaskSwitch_unfinished round.tick _
    loading.status unfinished
  have requests := polled_requests downloading.polling sent
  obtain ⟨switched, store⟩ := loading.poll round.tick
  have here : link.download.boot.pocDevice.downPackCnt.toNat <
      image.length := missing
  rw [if_pos here] at switched
  have next := Link.asksNext fits missing
  have asked : ∀ request ∈ (link.polled round.tick).requests,
      AskedFor image request := by
    intro request member
    rw [requests, List.mem_append] at member
    rcases member with earlier | new
    · exact downloading.asked request earlier
    · unfold newRequests at new
      split at new
      · exact ⟨_, by omega, by omega, List.mem_singleton.mp new⟩
      · cases new
  have foreseen : ∀ line ∈ link.lines server round, Foreseen image line :=
    serves.arrivals_foreseen whole
      (fun request member => .inl (asked request member)) others
  obtain ⟨reached, received, lineTimer⟩ := switched.lines fits rfl foreseen
  have ends := @linkStep_download link server round downloading.polling
  rw [run_turnEnd_upgrade _ rfl reached.status] at ends
  have counts : (linkStep server link round).count =
      ((link.lines server round).filterMap packetDelivery |>.foldl accept
        link.download.boot.packetStore.received).length := by
    rw [Link.count, ends, ← store, ← received, PacketStore.received_length]
    rfl
  have length : link.download.boot.packetStore.received.length = link.count :=
    PacketStore.received_length _
  refine ⟨⟨?_, ?_, asked⟩, requests, ?_, ?_, ?_⟩
  · rw [ends]
  · rw [ends]
    exact reached
  · rw [ends]
    exact lineTimer.trans timer
  · rw [counts, ← length]
    exact length_le_foldl_accept _ _
  · intro pick arrived picked
    have positive : 0 <
        (link.download.boot.pocDevice.downPackCnt + 1).toNat := by omega
    have inside : (link.download.boot.pocDevice.downPackCnt + 1).toNat ≤
        image.length := by omega
    obtain ⟨line, payload, answered, _, _, delivery⟩ :=
      serves.delivery whole positive inside
    have comes : line ∈ link.lines server round :=
      List.mem_filterMap.mpr ⟨.answer pick, arrived,
        Option.bind_eq_some_iff.mpr ⟨_, picked, answered⟩⟩
    rw [counts, ← length]
    apply length_lt_foldl_accept
      (List.mem_filterMap.mpr ⟨line, comes, delivery⟩)
    rw [length]
    exact next

/-- When every packet is there, the round is the last one. -/
theorem Downloading.installs (downloading : Downloading image link)
    (serves : Serves image server)
    (whole : ∀ payload ∈ image, payload.length = 256)
    (fits : image.length ≤ 1560) (complete : image.length ≤ link.count)
    (others : ∀ line, .other line ∈ round.arrivals → Foreseen image line) :
    Installed image (linkStep server link round).download := by
  have loading := downloading.loading
  have finished : link.download.boot.pocDevice.packSum ≤
      link.download.boot.pocDevice.downPackCnt := by
    rw [UInt16.le_iff_toNat_le, loading.sum]
    exact complete
  have requests := polled_requests downloading.polling
    (@pocTaskSwitch_powersOff round.tick _ loading.status finished)
  obtain ⟨switched, store⟩ := loading.poll round.tick
  have here : ¬link.download.boot.pocDevice.downPackCnt.toNat <
      image.length := Nat.not_lt.mpr complete
  rw [if_neg here] at switched
  have asked : ∀ request ∈ (link.polled round.tick).requests,
      AskedFor image request ∨ request = ascii "AT+QPOWD=0\r\n" := by
    intro request member
    rw [requests, List.mem_append] at member
    rcases member with earlier | last
    · exact .inl (downloading.asked request earlier)
    · exact .inr (List.mem_singleton.mp last)
  have foreseen : ∀ line ∈ link.lines server round, Foreseen image line :=
    serves.arrivals_foreseen whole asked others
  obtain ⟨reached, received, _⟩ := switched.lines fits rfl foreseen
  have ends := @linkStep_download link server round downloading.polling
  rw [run_turnEnd_success _ rfl reached.status] at ends
  have everything : (run pocStep (pocTaskSwitch round.tick link.download.boot)
      ((link.lines server round).map .receive)).packetStore.received =
        image := by
    apply reached.front.eq_of_length_le
    have more := length_le_foldl_accept
      (pocTaskSwitch round.tick link.download.boot).packetStore.received
      ((link.lines server round).filterMap packetDelivery)
    rw [← received, store, PacketStore.received_length] at more
    exact Nat.le_trans complete more
  have leaving := Exit.success reached.status
  have small := Nat.le_trans reached.count_le
    (Nat.le_trans fits (show 1560 ≤ 1936 by decide))
  rw [ends]
  exact ⟨rfl, (congrArg PocDevice.status leaving.pocDevice).trans
    reached.status, leaving.bootFlag,
    (leaving.received small).trans everything⟩

end

end Tp79Boot
