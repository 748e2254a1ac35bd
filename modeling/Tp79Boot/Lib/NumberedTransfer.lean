import Mathlib.Data.List.Induction
import Mathlib.Data.List.TakeDrop

/-!
# Transfers in numbered blocks

A sender cuts what it has to send into blocks and numbers them from one.  The
blocks may be lost, repeated and reordered on their way.  The receiver keeps no
more than what it has got so far, and takes a block only when its number is
the next one.  A delivery is a block with its number.
-/

namespace NumberedTransfer

variable {β : Type}

def accept (received : List β) (delivery : β × Nat) : List β :=
  if delivery.2 = received.length + 1 then received ++ [delivery.1]
  else received

/-- What is there after some deliveries. -/
def receive (deliveries : List (β × Nat)) : List β :=
  deliveries.foldl accept []

@[simp] theorem receive_nil : receive ([] : List (β × Nat)) = [] := rfl

theorem receive_concat (deliveries : List (β × Nat)) (last : β × Nat) :
    receive (deliveries ++ [last]) = accept (receive deliveries) last := by
  simp [receive]

/-- The blocks with their numbers. -/
def numbered (blocks : List β) : List (β × Nat) := blocks.zipIdx 1

/-- Only numbered blocks of the sender arrive. -/
def Genuine (blocks : List β) (deliveries : List (β × Nat)) : Prop :=
  ∀ delivery ∈ deliveries, delivery ∈ numbered blocks

variable {blocks received : List β} {deliveries : List (β × Nat)}
  {delivery : β × Nat}

theorem Genuine.of_concat (genuine : Genuine blocks (deliveries ++ [delivery])) :
    Genuine blocks deliveries ∧ delivery ∈ numbered blocks :=
  ⟨fun earlier member => genuine earlier (List.mem_append_left _ member),
    genuine delivery (List.mem_append_right _ List.mem_cons_self)⟩

theorem mem_numbered_iff :
    delivery ∈ numbered blocks ↔
      1 ≤ delivery.2 ∧ blocks[delivery.2 - 1]? = some delivery.1 :=
  List.mem_zipIdx_iff_le_and_getElem?_sub

theorem number_le_of_mem_numbered (member : delivery ∈ numbered blocks) :
    delivery.2 ≤ blocks.length := by
  have below := List.snd_lt_of_mem_zipIdx member
  omega

theorem take_succ_eq {count : Nat}
    (here : (delivery.1, count + 1) ∈ numbered blocks) :
    blocks.take (count + 1) = blocks.take count ++ [delivery.1] := by
  obtain ⟨_, found⟩ := mem_numbered_iff.mp here
  rw [List.take_add_one]
  exact congrArg (blocks.take count ++ ·)
    (congrArg Option.toList found)

theorem accept_front (genuine : delivery ∈ numbered blocks)
    (front : received <+: blocks) : accept received delivery <+: blocks := by
  unfold accept
  split
  next isNext =>
    have here : (delivery.1, received.length + 1) ∈ numbered blocks := by
      rw [← isNext]
      exact genuine
    rw [List.prefix_iff_eq_take.mp front, ← take_succ_eq here]
    exact List.take_prefix _ _
  next => exact front

theorem receive_front (genuine : Genuine blocks deliveries) :
    receive deliveries <+: blocks := by
  induction deliveries using List.reverseRecOn with
  | nil => exact List.nil_prefix
  | append_singleton deliveries last induction =>
      obtain ⟨earlier, here⟩ := genuine.of_concat
      rw [receive_concat]
      exact accept_front here (induction earlier)

/-- A list that ends in `last` lies in a longer one when it lies in the front
of it, or its front does and the last ones are the same. -/
theorem concat_sublist_concat_iff {α : Type} {first second : List α}
    {last final : α} :
    (first ++ [last]).Sublist (second ++ [final]) ↔
      (first ++ [last]).Sublist second ∨
        first.Sublist second ∧ last = final := by
  rw [← List.reverse_sublist, ← @List.reverse_sublist _ (first ++ [last]),
    ← @List.reverse_sublist _ first]
  simp only [List.reverse_append, List.reverse_cons, List.reverse_nil,
    List.nil_append, List.singleton_append]
  constructor
  · intro inside
    cases inside with
    | cons _ later => exact .inl later
    | cons_cons _ later => exact .inr ⟨later, rfl⟩
  · rintro (later | ⟨later, rfl⟩)
    · exact later.cons _
    · exact later.cons_cons _

theorem numbered_take_succ {count : Nat} (below : count < blocks.length) :
    numbered (blocks.take (count + 1)) =
      numbered (blocks.take count) ++ [(blocks[count], count + 1)] := by
  rw [List.take_succ_eq_append_getElem below]
  unfold numbered
  rw [List.zipIdx_append, List.length_take_of_le (Nat.le_of_lt below), Nat.add_comm]
  rfl

/-- However the blocks come, the first ones have been received exactly when
they came once in their order, whatever came in between. -/
theorem le_length_receive_iff (genuine : Genuine blocks deliveries)
    {count : Nat} (inside : count ≤ blocks.length) :
    count ≤ (receive deliveries).length ↔
      (numbered (blocks.take count)).Sublist deliveries := by
  induction deliveries using List.reverseRecOn generalizing count with
  | nil =>
      rw [receive_nil, List.length_nil, Nat.le_zero, List.sublist_nil]
      constructor
      · rintro rfl
        rfl
      · intro nothing
        have lengths := congrArg List.length nothing
        rw [numbered, List.length_zipIdx, List.length_take_of_le inside]
          at lengths
        exact lengths
  | append_singleton deliveries last induction =>
      obtain ⟨earlier, here⟩ := genuine.of_concat
      rcases count with _ | count
      · exact iff_of_true (Nat.zero_le _) (List.nil_sublist _)
      · have before := induction earlier (Nat.le_of_succ_le inside)
        have whole := induction earlier inside
        obtain ⟨_, found⟩ := mem_numbered_iff.mp here
        rw [numbered_take_succ inside] at whole ⊢
        rw [concat_sublist_concat_iff, ← whole, ← before, receive_concat,
          accept]
        split
        next isNext =>
          rw [List.length_append, List.length_singleton]
          constructor
          · intro reached
            rcases Nat.lt_or_ge count (receive deliveries).length with
              more | same
            · exact .inl more
            · have equal : count = (receive deliveries).length := by omega
              refine .inr ⟨Nat.le_of_eq equal, Prod.ext ?_ ?_⟩
              · rw [isNext, Nat.add_sub_cancel, ← equal,
                  List.getElem?_eq_getElem inside] at found
                exact Option.some.inj found
              · rw [isNext, ← equal]
          · rintro (more | ⟨same, _⟩)
            · omega
            · omega
        next other =>
          constructor
          · exact .inl
          · rintro (more | ⟨same, rfl⟩)
            · exact more
            · have different : count ≠ (receive deliveries).length :=
                fun equal => other (congrArg (· + 1) equal)
              omega

theorem length_le_accept (received : List β) (delivery : β × Nat) :
    received.length ≤ (accept received delivery).length := by
  unfold accept
  split
  · rw [List.length_append]
    exact Nat.le_add_right _ _
  · exact Nat.le_refl _

theorem length_le_foldl_accept (received : List β)
    (deliveries : List (β × Nat)) :
    received.length ≤ (deliveries.foldl accept received).length := by
  induction deliveries generalizing received with
  | nil => exact Nat.le_refl _
  | cons first later induction =>
      exact Nat.le_trans (length_le_accept received first)
        (induction (accept received first))

/-- Among deliveries that hold the next block, at least that one is taken. -/
theorem length_lt_foldl_accept (member : delivery ∈ deliveries)
    (next : delivery.2 = received.length + 1) :
    received.length < (deliveries.foldl accept received).length := by
  induction deliveries generalizing received with
  | nil => cases member
  | cons first later induction =>
      have further := length_le_foldl_accept (accept received first) later
      by_cases taken : first.2 = received.length + 1
      · have longer : (accept received first).length =
            received.length + 1 := by
          rw [accept, if_pos taken, List.length_append, List.length_singleton]
        rw [List.foldl_cons]
        omega
      · rcases List.mem_cons.mp member with rfl | member
        · exact absurd next taken
        · rw [List.foldl_cons, accept, if_neg taken]
          exact induction member next

end NumberedTransfer
