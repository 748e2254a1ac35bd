import Tp79Boot.Poc.Link

/-!
# The download comes to its end

As long as the module between the loop and the server does not lose all of
endlessly many answers, the loop is left through its success with the whole
image in flash.
-/

namespace Tp79Boot

open NorMemory EventRun NumberedTransfer

/-- Again and again the clock gets more than two seconds past an earlier
reading. -/
def ClockRuns (rounds : ℕ → Round) : Prop :=
  ∀ moment, ∃ first later, moment ≤ first ∧ first < later ∧
    (rounds first).tick.toNat + 2000 < (rounds later).tick.toNat

/-- Of endlessly many requests endlessly many are answered. -/
def FairLossy (server : List UInt8 → Option (List UInt8)) (link : Link)
    (rounds : ℕ → Round) : Prop :=
  (∀ count, ∃ moment,
      count ≤ (after (linkStep server) link rounds moment).requests.length) →
    ∀ count, ∃ moment pick, .answer pick ∈ (rounds moment).arrivals ∧
      count ≤ pick ∧
        pick < (after (linkStep server) link rounds
          (moment + 1)).requests.length

section

variable {image : List (List UInt8)} {links : ℕ → Link}
  {rounds : ℕ → Round}
  (continues : ∀ moment,
    Continues image (links moment) (links (moment + 1)) (rounds moment))

include continues

theorem count_mono {first later : ℕ} (order : first ≤ later) :
    (links first).count ≤ (links later).count :=
  monotone_nat_of_le_succ (fun moment => (continues moment).onward) order

theorem requests_mono {first later : ℕ} (order : first ≤ later) :
    (links first).requests.length ≤ (links later).requests.length := by
  apply monotone_nat_of_le_succ (fun moment => ?_) order
  rw [(continues moment).requests, List.length_append]
  exact Nat.le_add_right _ _

theorem sent_since {first later index : ℕ} {request : List UInt8}
    (order : first ≤ later)
    (new : (links first).requests.length ≤ index)
    (here : (links later).requests[index]? = some request) :
    ∃ moment, first ≤ moment ∧ moment < later ∧ request = packetCmd
      ((links moment).download.boot.pocDevice.downPackCnt + 1) := by
  induction later, order using Nat.le_induction with
  | base =>
      rw [List.getElem?_eq_none new] at here
      cases here
  | succ later order induction =>
      rw [(continues later).requests] at here
      rcases Nat.lt_or_ge index (links later).requests.length with
        earlier | last
      · rw [List.getElem?_append_left earlier] at here
        obtain ⟨moment, since, before, sent⟩ := induction here
        exact ⟨moment, since, Nat.lt_succ_of_lt before, sent⟩
      · rw [List.getElem?_append_right last] at here
        have member := List.mem_of_getElem? here
        unfold newRequests at member
        split at member
        · exact ⟨later, order, Nat.lt_succ_self later,
            List.mem_singleton.mp member⟩
        · cases member

/-- As the clock runs, the switch asks again and again. -/
theorem requests_unbounded (clock : ClockRuns rounds) (count : ℕ) :
    ∃ moment, count ≤ (links moment).requests.length := by
  apply exists_reached (fun moment => (links moment).requests.length)
  intro moment _
  obtain ⟨first, later, since, order, apart⟩ := clock moment
  refine ⟨later + 1, ?_⟩
  by_contra quiet
  have quietThen : ∀ round, moment ≤ round → round ≤ later →
      ¬Asks (rounds round).tick (links round).download.boot := by
    intro round after before due
    have low := requests_mono continues after
    have high := requests_mono continues
      (show round + 1 ≤ later + 1 by omega)
    have more := congrArg List.length (continues round).requests
    rw [newRequests, if_pos due, List.length_append, List.length_singleton]
      at more
    omega
  have timer : ∀ round, first + 1 ≤ round → round ≤ later →
      (links round).download.boot.resendTimer ≤ (rounds first).tick := by
    intro round after
    induction round, after using Nat.le_induction with
    | base =>
        intro before
        rw [(continues first).timer, if_neg (quietThen first since (by omega))]
        exact (heldTimer_le _ _).1
    | succ round after induction =>
        intro before
        rw [(continues round).timer,
          if_neg (quietThen round (by omega) (by omega))]
        exact UInt32.le_trans (heldTimer_le _ _).2 (induction (by omega))
  have held := UInt32.le_trans (heldTimer_le (rounds later).tick _).2
    (timer later order (Nat.le_refl later))
  have behind := (heldTimer_le (rounds later).tick
    (links later).download.boot).1
  apply quietThen later (by omega) (Nat.le_refl later)
  left
  rw [gt_iff_lt, UInt32.lt_iff_toNat_lt,
    UInt32.toNat_sub_of_le _ _ behind]
  have two : (2000 : UInt32).toNat = 2000 := rfl
  rw [UInt32.le_iff_toNat_le] at held behind
  omega

/-- When not all answers are lost, the counter gets on. -/
theorem count_grows
    (arrives : ∀ count, ∃ moment pick, .answer pick ∈ (rounds moment).arrivals ∧
      count ≤ pick ∧ pick < (links (moment + 1)).requests.length)
    (first : ℕ) : ∃ later, (links first).count < (links later).count := by
  obtain ⟨moment, pick, arrived, new, inside⟩ :=
    arrives (links first).requests.length
  have order : first ≤ moment := by
    by_contra earlier
    have before := requests_mono continues (show moment + 1 ≤ first by omega)
    omega
  obtain ⟨asking, since, before, sent⟩ := sent_since continues
    (Nat.le_succ_of_le order) new (List.getElem?_eq_getElem inside)
  have low := count_mono continues since
  have high := count_mono continues (Nat.le_of_lt_succ before)
  rcases Nat.lt_or_ge (links first).count (links moment).count with
    counted | same
  · exact ⟨moment, counted⟩
  · have counters : (links asking).download.boot.pocDevice.downPackCnt =
        (links moment).download.boot.pocDevice.downPackCnt :=
      UInt16.toNat_inj.mp (show (links asking).count = (links moment).count
        by omega)
    rw [counters] at sent
    have taken := (continues moment).answered pick arrived
      ((List.getElem?_eq_getElem inside).trans (congrArg some sent))
    exact ⟨moment + 1, by omega⟩

end

/-- From any state that a run can reach in which the image of the last
announcement is coming in: when the module does not lose all of endlessly many
answers, the loop is left with the image in flash. -/
theorem download_completes (mem : Mem) (deviceCfg : DeviceCfg)
    (pastCfg : List UInt8) (events : List LoopEvent) {download : Download}
    (reached : download =
      run loopStep (Download.start mem deviceCfg pastCfg) events)
    (polling : download.phase = .polling)
    (upgrade : download.boot.pocDevice.status = .verUpgrade)
    {image : List (List UInt8)}
    (whole : ∀ payload ∈ image, payload.length = 256)
    (fits : image.length ≤ 1560)
    (sum : download.boot.pocDevice.packSum.toNat = image.length)
    (front : download.boot.packetStore.received <+: image)
    {server : List UInt8 → Option (List UInt8)} (serves : Serves image server)
    {rounds : ℕ → Round}
    (others : ∀ moment line, .other line ∈ (rounds moment).arrivals →
      Foreseen image line)
    (clock : ClockRuns rounds)
    (fair : FairLossy server { download := download, requests := [] } rounds) :
    ∃ moment, Installed image (after (linkStep server)
      { download := download, requests := [] } rounds moment).download := by
  by_contra never
  have tracks := (loop_tracks mem deviceCfg pastCfg events).inside
  rw [← reached] at tracks
  have running := tracks (by simp [polling])
  have initial : Downloading image
      { download := download, requests := [] } := by
    refine ⟨polling, ⟨upgrade, sum, ?_, ?_, front⟩, by simp⟩
    · rw [running]
      exact pocRun_started (start_started mem deviceCfg pastCfg) _
    · rw [running]
      exact pocRun_blankAhead (start_blankAhead mem deviceCfg pastCfg) _
  generalize ({ download := download, requests := [] } : Link) = link
    at initial fair never
  have missing : ∀ moment,
      Downloading image (after (linkStep server) link rounds moment) →
      (after (linkStep server) link rounds moment).count < image.length := by
    intro moment downloading
    by_contra complete
    apply never
    refine ⟨moment + 1, ?_⟩
    rw [after_succ]
    exact downloading.installs serves whole fits (Nat.not_lt.mp complete)
      (others moment)
  have downloading : ∀ moment,
      Downloading image (after (linkStep server) link rounds moment) := by
    intro moment
    induction moment with
    | zero => exact initial
    | succ moment induction =>
        rw [after_succ]
        exact (induction.continues serves whole fits
          (missing moment induction) (others moment)).downloading
  have continues : ∀ moment, Continues image
      (after (linkStep server) link rounds moment)
      (after (linkStep server) link rounds (moment + 1)) (rounds moment) := by
    intro moment
    rw [after_succ]
    exact (downloading moment).continues serves whole fits
      (missing moment (downloading moment)) (others moment)
  have arrives := fair (requests_unbounded continues clock)
  obtain ⟨moment, complete⟩ := exists_reached
    (fun moment => (after (linkStep server) link rounds moment).count)
    (fun moment _ => count_grows continues arrives moment)
  exact Nat.not_lt.mpr complete (missing moment (downloading moment))

theorem fairLossy_of_all {server : List UInt8 → Option (List UInt8)}
    {link : Link} {rounds : ℕ → Round}
    (all : ∀ moment pick, pick ≤ moment →
      .answer pick ∈ (rounds moment).arrivals) :
    FairLossy server link rounds := by
  intro unbounded count
  obtain ⟨moment, enough⟩ := unbounded (count + 1)
  have grows : Monotone fun moment =>
      (after (linkStep server) link rounds moment).requests.length := by
    apply monotone_nat_of_le_succ
    intro moment
    have step : (after (linkStep server) link rounds
        (moment + 1)).requests =
        ((after (linkStep server) link rounds moment).polled
          (rounds moment).tick).requests := by
      rw [after_succ]
      rfl
    rw [step, Link.polled, List.length_append]
    exact Nat.le_add_right _ _
  have later := grows (show moment ≤ max moment count + 1 by omega)
  exact ⟨max moment count, count, all _ _ (Nat.le_max_right _ _),
    Nat.le_refl count, Nat.lt_of_lt_of_le enough later⟩

def zeroServer (request : List UInt8) : Option (List UInt8) :=
  if request = packetCmd 1 then some (packetLine 1 zeroPayload) else none

/-- The clock goes to and fro, and every answer comes in every round. -/
def repeatingRounds (moment : ℕ) : Round :=
  { tick := if moment % 2 = 0 then 0 else 3000
    arrivals := (List.range (moment + 1)).map .answer
    late := 0 }

/-- One packet of zeros has been announced. -/
def announcedDownload : Download :=
  run loopStep (Download.start (fun _ => 0xFF) installedCfg [])
    (turn 0 [onePacket] ++ [.branch, .timeout 0])

theorem repeatingRounds_clock : ClockRuns repeatingRounds := by
  intro moment
  refine ⟨2 * moment, 2 * moment + 1, by omega, by omega, ?_⟩
  have even : 2 * moment % 2 = 0 := by omega
  have odd : ¬(2 * moment + 1) % 2 = 0 := by omega
  simp only [repeatingRounds, if_pos even, if_neg odd]
  decide

theorem zeroServer_serves : Serves [zeroPayload] zeroServer := by
  constructor
  · intro payload number member
    have only : payload = zeroPayload ∧ number.toNat = 1 := by
      simpa [numbered] using member
    obtain ⟨rfl, one⟩ := only
    have same : number = 1 := UInt16.toNat_inj.mp one
    subst same
    exact ⟨_, if_pos rfl, packetLine_answers 1 zeroPayload_length⟩
  · exact if_neg (by decide)

theorem download_completes_zeroPacket :
    ∃ moment, Installed [zeroPayload] (after (linkStep zeroServer)
      { download := announcedDownload, requests := [] } repeatingRounds
        moment).download := by
  have nothing : announcedDownload.boot.packetStore.received = [] := by
    apply List.eq_nil_of_length_eq_zero
    rw [PacketStore.received_length]
    decide
  refine download_completes (fun _ => 0xFF) installedCfg [] _ rfl
    (by decide) (by decide) ?_ (by decide) (by decide) ?_ zeroServer_serves
    ?_ repeatingRounds_clock ?_
  · intro payload member
    rw [List.mem_singleton.mp member]
    exact zeroPayload_length
  · exact nothing ▸ List.nil_prefix
  · intro moment line member
    simp [repeatingRounds] at member
  · apply fairLossy_of_all
    intro moment pick early
    exact List.mem_map.mpr ⟨pick, List.mem_range.mpr (by omega), rfl⟩

end Tp79Boot
