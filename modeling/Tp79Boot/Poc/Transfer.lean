import Tp79Boot.Lib.NumberedTransfer
import Tp79Boot.Poc.PacketPrefix
import Tp79Boot.Poc.PacketRequest

/-!
# The transfer of an image

Seen from the server, the flash is the receiving end of a transfer in numbered
blocks: the counted blocks are what has been received, and a packet whose
length and checksum are right is a delivery.  What is known of such transfers
holds of every run whose packets are those of one image, whatever the module
loses, repeats or reorders and whatever other lines come in between.
-/

namespace Tp79Boot

open NorMemory EventRun NumberedTransfer

/-- The line is a packet, long enough and with a right checksum. -/
def IntactPacket (ptr : List UInt8) : Prop :=
  pocLine ptr = .packet ∧ 540 ≤ strlen ptr ∧
    packetCrc ptr = calcrc (packetData ptr) 256

instance (ptr : List UInt8) : Decidable (IntactPacket ptr) :=
  inferInstanceAs (Decidable (_ ∧ _ ∧ _))

/-- What a line delivers: the payload and its number. -/
def packetDelivery (ptr : List UInt8) : Option (List UInt8 × Nat) :=
  if IntactPacket ptr then some (packetData ptr, (packetNumber ptr).toNat)
  else none

def PocEvent.delivery : PocEvent → Option (List UInt8 × Nat)
  | .receive ptr => packetDelivery ptr
  | .poll _ => none

def packetDeliveries (events : List PocEvent) : List (List UInt8 × Nat) :=
  events.filterMap PocEvent.delivery

theorem packetDelivery_packetLine (number : UInt16) {payload : List UInt8}
    (whole : payload.length = 256) :
    packetDelivery (packetLine number payload) =
      some (payload, number.toNat) := by
  have intact : IntactPacket (packetLine number payload) := by
    refine ⟨packetLine_kind number payload, ?_, ?_⟩
    · rw [packetLine_strlen number whole]
    · rw [packetLine_crc number whole, packetLine_data number whole]
  rw [packetDelivery, if_pos intact, packetLine_data number whole,
    packetLine_number]

namespace PacketStore

/-- The blocks that are counted, as they stand in flash. -/
def received (store : PacketStore) : List (List UInt8) :=
  (List.range store.downPackCnt.toNat).map store.block

variable {store : PacketStore} {ptr : List UInt8}

@[simp] theorem received_length (store : PacketStore) :
    store.received.length = store.downPackCnt.toNat := by
  simp [received]

theorem received_getElem? {index : Nat}
    (counted : index < store.downPackCnt.toNat) :
    store.received[index]? = some (store.block index) := by
  rw [received, List.getElem?_map, List.getElem?_range counted]
  rfl

theorem accepts_iff :
    store.Accepts ptr ↔
      IntactPacket ptr ∧
        (packetNumber ptr).toNat = store.downPackCnt.toNat + 1 := by
  unfold Accepts PacketPasses IntactPacket
  simp only [and_assoc]

theorem accept_received (started : store.Started)
    (accepts : store.Accepts ptr) (verified : store.Verified ptr) :
    (store.accept ptr).received = store.received ++ [packetData ptr] := by
  have counter := accept_downPackCnt accepts
  rw [if_pos verified] at counter
  have kept : (List.range store.downPackCnt.toNat).map
      (store.accept ptr).block = store.received := by
    apply List.map_congr_left
    intro index member
    exact accept_keeps_block started (List.mem_range.mp member)
  rw [received, counter, List.range_succ, List.map_append, List.map_singleton,
    accept_block verified, kept]

/-- Inside the area, a line does to the blocks what its delivery does to a
receiver. -/
theorem receive_received (started : store.Started) (ahead : store.BlankAhead)
    (inArea : store.downPackCnt.toNat < 1560) (ptr : List UInt8) :
    (store.receive ptr).received =
      (packetDelivery ptr).elim store.received
        (NumberedTransfer.accept store.received) := by
  by_cases intact : IntactPacket ptr
  · rw [packetDelivery, if_pos intact, Option.elim_some,
      NumberedTransfer.accept, received_length]
    by_cases isNext : (packetNumber ptr).toNat = store.downPackCnt.toNat + 1
    · have accepts : store.Accepts ptr := accepts_iff.mpr ⟨intact, isNext⟩
      have verified : store.Verified ptr := ahead.verified_of_lt inArea
      rw [receive_of_accepts accepts, if_pos isNext]
      exact accept_received started accepts verified
    · rw [receive_of_not_accepts fun accepts =>
        isNext (accepts_iff.mp accepts).2, if_neg isNext]
  · rw [receive_of_not_accepts fun accepts =>
      intact (accepts_iff.mp accepts).1, packetDelivery, if_neg intact]
    rfl

/-- A packet of an image that fits the area, or any other line. -/
theorem receive_genuine {image : List (List UInt8)}
    (started : store.Started) (ahead : store.BlankAhead)
    (fits : image.length ≤ 1560) {ptr : List UInt8}
    (genuine : ∀ delivery, packetDelivery ptr = some delivery →
      delivery ∈ numbered image) :
    (store.receive ptr).received =
      (packetDelivery ptr).elim store.received
        (NumberedTransfer.accept store.received) := by
  by_cases inArea : store.downPackCnt.toNat < 1560
  · exact receive_received started ahead inArea ptr
  · cases delivered : packetDelivery ptr with
    | none =>
        have refuses : ¬store.Accepts ptr := by
          intro accepts
          have intact := (accepts_iff.mp accepts).1
          rw [packetDelivery, if_pos intact] at delivered
          cases delivered
        rw [receive_of_not_accepts refuses]
        rfl
    | some delivery =>
        have last := number_le_of_mem_numbered (genuine delivery delivered)
        have notNext : delivery.2 ≠ store.downPackCnt.toNat + 1 := by omega
        have refuses : ¬store.Accepts ptr := by
          intro accepts
          obtain ⟨intact, isNext⟩ := accepts_iff.mp accepts
          rw [packetDelivery, if_pos intact] at delivered
          cases delivered
          exact notNext isNext
        rw [receive_of_not_accepts refuses, Option.elim_some,
          NumberedTransfer.accept, received_length, if_neg notNext]

end PacketStore

theorem packetDeliveries_concat (events : List PocEvent) (last : PocEvent) :
    packetDeliveries (events ++ [last]) =
      packetDeliveries events ++ last.delivery.toList := by
  rw [packetDeliveries, List.filterMap_append]
  cases delivered : last.delivery with
  | none => simp [packetDeliveries, delivered]
  | some delivery => simp [packetDeliveries, delivered]

/-- Among the packets of an image that fits the area, what the flash holds is
what a receiver of numbered blocks has received. -/
theorem transfer_refines {start : Boot} {image : List (List UInt8)}
    (fresh : start.pocDevice.downPackCnt = 0)
    (started : start.packetStore.Started)
    (ahead : start.packetStore.BlankAhead) (fits : image.length ≤ 1560)
    {events : List PocEvent}
    (genuine : Genuine image (packetDeliveries events)) :
    (run pocStep start events).packetStore.received =
      NumberedTransfer.receive (packetDeliveries events) := by
  induction events using List.reverseRecOn with
  | nil =>
      apply List.eq_nil_of_length_eq_zero
      rw [PacketStore.received_length, run_nil,
        Boot.packetStore_downPackCnt, fresh]
      rfl
  | append_singleton events last induction =>
      rw [packetDeliveries_concat] at genuine ⊢
      have earlier : Genuine image (packetDeliveries events) :=
        fun delivery member =>
          genuine delivery (List.mem_append_left _ member)
      have before := induction earlier
      have reached := pocRun_started started events
      have blank := pocRun_blankAhead ahead events
      rw [run_concat, pocStep_packetStore]
      generalize (run pocStep start events).packetStore = store
        at before reached blank ⊢
      cases last with
      | poll tick =>
          have nothing : (PocEvent.poll tick).delivery = none := rfl
          rw [nothing, Option.toList_none, List.append_nil]
          exact before
      | receive ptr =>
          have same : (PocEvent.receive ptr).delivery = packetDelivery ptr :=
            rfl
          have arrives : ∀ delivery, packetDelivery ptr = some delivery →
              delivery ∈ numbered image := by
            intro delivery delivered
            rw [same, delivered] at genuine
            exact genuine.of_concat.2
          rw [same, PacketStore.step,
            PacketStore.receive_genuine reached blank fits arrives, before]
          cases packetDelivery ptr with
          | none =>
              rw [Option.toList_none, List.append_nil]
              rfl
          | some delivery =>
              rw [Option.toList_some, NumberedTransfer.receive_concat]
              rfl

/-- From power-up with any flash contents, and with no packets but those of
one image: what is counted is the front of the image and stands in flash, and
so many packets are counted as have come once in their order. -/
theorem transfer_counts_iff (mem : Mem) (deviceCfg : DeviceCfg)
    (pastCfg : List UInt8) {image : List (List UInt8)}
    (fits : image.length ≤ 1560) (events : List PocEvent)
    (genuine : Genuine image (packetDeliveries events)) {store : PacketStore}
    (after : store = (run pocStep (Boot.start mem deviceCfg pastCfg)
      events).packetStore) :
    store.received <+: image ∧
      ∀ count, count ≤ image.length →
        (count ≤ store.downPackCnt.toNat ↔
          (numbered (image.take count)).Sublist (packetDeliveries events)) := by
  have refined := @transfer_refines (Boot.start mem deviceCfg pastCfg) image
    rfl (start_started mem deviceCfg pastCfg)
    (start_blankAhead mem deviceCfg pastCfg) fits events genuine
  rw [← after] at refined
  constructor
  · rw [refined]
    exact receive_front genuine
  · intro count inside
    rw [← le_length_receive_iff genuine inside, ← refined,
      PacketStore.received_length]

/-- The first packet of two comes twice, and the second is lost. -/
theorem transfer_counts_first :
    ((run pocStep (Boot.start (fun _ => 0xFF) installedCfg [])
      [.receive (zeroPacket 0), .receive (zeroPacket 0)]).packetStore.received
        <+: [zeroPayload, zeroPayload]) ∧
      ∀ count, count ≤ 2 →
        (count ≤ (run pocStep (Boot.start (fun _ => 0xFF) installedCfg [])
            [.receive (zeroPacket 0),
              .receive (zeroPacket 0)]).packetStore.downPackCnt.toNat ↔
          (numbered ([zeroPayload, zeroPayload].take count)).Sublist
            [(zeroPayload, 1), (zeroPayload, 1)]) := by
  have one : packetDelivery (zeroPacket 0) = some (zeroPayload, 1) :=
    packetDelivery_packetLine 1 zeroPayload_length
  have deliveries : packetDeliveries
      [.receive (zeroPacket 0), .receive (zeroPacket 0)] =
        [(zeroPayload, 1), (zeroPayload, 1)] := by
    simp [packetDeliveries, PocEvent.delivery, one]
  have genuine : Genuine [zeroPayload, zeroPayload] (packetDeliveries
      [.receive (zeroPacket 0), .receive (zeroPacket 0)]) := by
    rw [deliveries]
    intro delivery member
    simp only [List.mem_cons, List.not_mem_nil, or_false, or_self] at member
    rw [member]
    exact List.mem_cons_self
  have counts := transfer_counts_iff (fun _ => 0xFF) installedCfg []
    (show [zeroPayload, zeroPayload].length ≤ 1560 by decide) _ genuine rfl
  rw [deliveries] at counts
  exact counts

end Tp79Boot
