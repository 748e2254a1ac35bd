import Mathlib.Data.List.Range
import Mathlib.Tactic.Ring

/-!
# NOR memories

A NOR memory is changed by two operations only: erasing a page sets every byte
of it to `0xFF`, and programming a block of bytes clears bits.  A device keeps
its contents together with the operations it has carried out, so that what was
touched, and in which order, stays visible after the run.
-/

namespace NorMemory

/-- The addresses that are flash, and the size of an erase unit. -/
structure Geometry where
  base : Nat
  size : Nat
  page : Nat

/-- Contents by address.  Addresses outside the geometry are ordinary memory
that no operation changes. -/
abbrev Mem := Nat → UInt8

inductive Op where
  | erase (address : Nat)
  | program (address : Nat) (bytes : List UInt8)
deriving DecidableEq, Repr

def Geometry.Contains (geometry : Geometry) (address : Nat) : Prop :=
  geometry.base ≤ address ∧ address < geometry.base + geometry.size

instance (geometry : Geometry) (address : Nat) :
    Decidable (geometry.Contains address) :=
  inferInstanceAs (Decidable (_ ∧ _))

/-- The addresses an operation may change. -/
def Op.Touches (geometry : Geometry) : Op → Nat → Prop
  | .erase address, target =>
      geometry.Contains target ∧
        target / geometry.page = address / geometry.page
  | .program address bytes, target =>
      geometry.Contains target ∧
        address ≤ target ∧ target < address + bytes.length

instance (geometry : Geometry) (op : Op) (target : Nat) :
    Decidable (op.Touches geometry target) :=
  match op with
  | .erase _ => inferInstanceAs (Decidable (_ ∧ _))
  | .program _ _ => inferInstanceAs (Decidable (_ ∧ _ ∧ _))

/-- The byte an operation leaves at an address it touches. -/
def Op.result (mem : Mem) : Op → Nat → UInt8
  | .erase _, _ => 0xFF
  | .program address bytes, target =>
      mem target &&& bytes.getD (target - address) 0

def Op.apply (geometry : Geometry) (op : Op) (mem : Mem) : Mem :=
  fun target =>
    if op.Touches geometry target then op.result mem target else mem target

def replay (geometry : Geometry) (ops : List Op) (mem : Mem) : Mem :=
  ops.foldl (fun current op => op.apply geometry current) mem

/-- Contents, and everything done to them so far, oldest operation first. -/
structure Device where
  mem : Mem
  log : List Op

namespace Device

def exec (geometry : Geometry) (device : Device) (op : Op) : Device :=
  { mem := op.apply geometry device.mem
    log := device.log ++ [op] }

def execAll (geometry : Geometry) (device : Device) (ops : List Op) : Device :=
  ops.foldl (exec geometry) device

variable {geometry : Geometry} {device : Device}

@[simp] theorem execAll_nil : device.execAll geometry [] = device := rfl

theorem execAll_append (first second : List Op) :
    device.execAll geometry (first ++ second) =
      (device.execAll geometry first).execAll geometry second := by
  simp [execAll]

theorem execAll_cons (op : Op) (ops : List Op) :
    device.execAll geometry (op :: ops) =
      (device.exec geometry op).execAll geometry ops := rfl

theorem execAll_singleton (op : Op) :
    device.execAll geometry [op] = device.exec geometry op := rfl

@[simp] theorem execAll_mem (ops : List Op) :
    (device.execAll geometry ops).mem = replay geometry ops device.mem := by
  induction ops generalizing device with
  | nil => rfl
  | cons op ops induction =>
      exact @induction (device.exec geometry op)

@[simp] theorem execAll_log (ops : List Op) :
    (device.execAll geometry ops).log = device.log ++ ops := by
  induction ops generalizing device with
  | nil => simp
  | cons op ops induction =>
      have rest := @induction (device.exec geometry op)
      simpa [execAll, exec] using rest

/-- A loop whose operations are computed from the current contents runs the
operations computed beforehand, as long as no earlier turn disturbs what a
later turn reads. -/
theorem foldl_exec_eq_execAll (geometry : Geometry) (device : Device)
    (reads : Mem → Nat → Op) (count : Nat)
    (undisturbed : ∀ turn, turn < count →
      reads (replay geometry ((List.range turn).map (reads device.mem))
        device.mem) turn = reads device.mem turn) :
    (List.range count).foldl
        (fun current turn => current.exec geometry (reads current.mem turn))
        device =
      device.execAll geometry ((List.range count).map (reads device.mem)) := by
  induction count with
  | zero => rfl
  | succ count induction =>
      have earlier := induction (fun turn below =>
        undisturbed turn (Nat.lt_succ_of_lt below))
      have last := undisturbed count (Nat.lt_succ_self count)
      simp only [List.range_succ, List.foldl_append, List.foldl_cons,
        List.foldl_nil, List.map_append, List.map_cons, List.map_nil,
        execAll_append, execAll_singleton, earlier, execAll_mem, last]

end Device

section Replay

variable {geometry : Geometry} {mem : Mem}

@[simp] theorem replay_nil : replay geometry [] mem = mem := rfl

theorem replay_append (first second : List Op) :
    replay geometry (first ++ second) mem =
      replay geometry second (replay geometry first mem) := by
  simp [replay]

theorem replay_cons (op : Op) (ops : List Op) :
    replay geometry (op :: ops) mem =
      replay geometry ops (op.apply geometry mem) := rfl

theorem apply_of_not_touches {op : Op} {target : Nat}
    (untouched : ¬op.Touches geometry target) :
    op.apply geometry mem target = mem target := by
  simp [Op.apply, untouched]

theorem replay_of_not_touches {ops : List Op} {target : Nat}
    (untouched : ∀ op ∈ ops, ¬op.Touches geometry target) :
    replay geometry ops mem target = mem target := by
  induction ops generalizing mem with
  | nil => rfl
  | cons op ops induction =>
      rw [replay_cons, induction fun later member =>
        untouched later (List.mem_cons_of_mem op member)]
      exact apply_of_not_touches (untouched op List.mem_cons_self)

/-- A copy is made before the original is touched and left alone while the
original is rewritten: whenever the operations stop, one of the two is
there. -/
theorem original_or_copy {Place : Type*} {saving rewriting done : List Op}
    {original copy : Place → Nat}
    (kept : ∀ op ∈ saving, ∀ place, ¬op.Touches geometry (original place))
    (copied : ∀ place,
      replay geometry saving mem (copy place) = mem (original place))
    (left : ∀ op ∈ rewriting, ∀ place, ¬op.Touches geometry (copy place))
    (stopped : done <+: saving ++ rewriting) :
    (∀ place,
        replay geometry done mem (original place) = mem (original place)) ∨
      ∀ place, replay geometry done mem (copy place) = mem (original place) := by
  rcases List.prefix_or_prefix_of_prefix stopped
      (List.prefix_append saving rewriting) with early | ⟨rest, rfl⟩
  · refine .inl fun place => ?_
    exact replay_of_not_touches fun op member =>
      kept op (early.subset member) place
  · have later : rest <+: rewriting :=
      (List.prefix_append_right_inj saving).mp stopped
    refine .inr fun place => ?_
    rw [replay_append, replay_of_not_touches fun op member =>
      left op (later.subset member) place]
    exact copied place

/-- Erasing several pages: a byte is blank when one of the pages holds it. -/
theorem replay_erases (addresses : List Nat) (target : Nat) :
    replay geometry (addresses.map Op.erase) mem target =
      if geometry.Contains target ∧
          ∃ address ∈ addresses,
            target / geometry.page = address / geometry.page
      then 0xFF else mem target := by
  induction addresses generalizing mem with
  | nil => simp
  | cons address addresses induction =>
      rw [List.map_cons, replay_cons, induction]
      by_cases inside : geometry.Contains target
      · by_cases same : target / geometry.page = address / geometry.page
        · simp [Op.apply, Op.Touches, Op.result, inside, same]
        · simp [Op.apply, Op.Touches, inside, same]
      · simp [Op.apply, Op.Touches, inside]

/-- Programming equally wide blocks one after the other, from `start` on, is
programming their concatenation. -/
theorem replay_blocks (start width : Nat) (positive : 0 < width)
    (block : Nat → List UInt8) (uniform : ∀ index, (block index).length = width)
    (count target : Nat) :
    replay geometry ((List.range count).map fun index =>
        Op.program (start + width * index) (block index)) mem target =
      if geometry.Contains target ∧
          start ≤ target ∧ target < start + width * count
      then mem target &&&
        (block ((target - start) / width)).getD ((target - start) % width) 0
      else mem target := by
  induction count with
  | zero =>
      rw [if_neg (by omega)]
      rfl
  | succ count induction =>
      rw [List.range_succ, List.map_append, replay_append, List.map_cons,
        List.map_nil, replay_cons, replay_nil]
      have wider : width * (count + 1) = width * count + width := by ring
      by_cases last : start + width * count ≤ target ∧
          target < start + width * count + width
      · have offset : target - start =
            width * count + (target - (start + width * count)) := by omega
        have quotient : (target - start) / width = count := by
          rw [offset, Nat.mul_add_div positive,
            Nat.div_eq_of_lt (by omega), Nat.add_zero]
        have remainder : (target - start) % width =
            target - (start + width * count) := by
          rw [offset, Nat.mul_add_mod, Nat.mod_eq_of_lt (by omega)]
        have notEarlier : ¬target < start + width * count := by omega
        have started : start ≤ target := by omega
        have ended : target < start + (width * count + width) := by omega
        simp [Op.apply, Op.Touches, Op.result, induction, uniform, wider,
          quotient, remainder, last, notEarlier, started, ended]
      · have sameRange : (start ≤ target ∧ target < start + width * count) ↔
            (start ≤ target ∧ target < start + width * (count + 1)) := by
          omega
        have untouched : ¬(Op.program (start + width * count)
            (block count)).Touches geometry target := by
          simp only [Op.Touches, uniform]
          exact fun touched => last touched.2
        rw [apply_of_not_touches untouched, induction]
        simp only [sameRange]

end Replay

/-- The operations touch only addresses of the region. -/
def Within (geometry : Geometry) (region : Nat → Prop) (ops : List Op) : Prop :=
  ∀ op ∈ ops, ∀ target, op.Touches geometry target → region target

section Within

variable {geometry : Geometry} {region : Nat → Prop} {first second : List Op}

theorem within_nil : Within geometry region [] := by
  intro op member
  cases member

theorem Within.append (earlier : Within geometry region first)
    (later : Within geometry region second) :
    Within geometry region (first ++ second) := by
  intro op member
  rcases List.mem_append.mp member with before | after
  · exact earlier op before
  · exact later op after

theorem Within.subset (within : Within geometry region second)
    (part : first ⊆ second) : Within geometry region first :=
  fun op member => within op (part member)

theorem Within.mono {wider : Nat → Prop}
    (within : Within geometry region first)
    (covers : ∀ target, region target → wider target) :
    Within geometry wider first :=
  fun op member target touched => covers target (within op member target touched)

theorem Within.replay {mem : Mem} {target : Nat}
    (within : Within geometry region first) (outside : ¬region target) :
    replay geometry first mem target = mem target :=
  replay_of_not_touches fun op member touched =>
    outside (within op member target touched)

end Within

theorem stopped_append {done first second : List Op}
    (stopped : done <+: first ++ second) :
    done <+: first ∨ ∃ rest, rest <+: second ∧ done = first ++ rest := by
  rcases List.prefix_or_prefix_of_prefix stopped
      (List.prefix_append first second) with early | ⟨rest, rfl⟩
  · exact .inl early
  · exact .inr ⟨rest, (List.prefix_append_right_inj first).mp stopped, rfl⟩

/-- All of `[start, stop)` is blank flash. -/
def Erased (geometry : Geometry) (mem : Mem) (start stop : Nat) : Prop :=
  ∀ target, start ≤ target → target < stop →
    geometry.Contains target ∧ mem target = 0xFF

/-- Whenever a block is programmed, its page has been erased before, and the
block is still blank. -/
def ErasedFirst (geometry : Geometry) (mem : Mem) (ops : List Op) : Prop :=
  ∀ before address bytes after,
    ops = before ++ Op.program address bytes :: after →
    (∃ page, Op.erase page ∈ before ∧
        address / geometry.page = page / geometry.page) ∧
      Erased geometry (replay geometry before mem) address
        (address + bytes.length)

section ErasedFirst

variable {geometry : Geometry} {mem : Mem}

theorem ErasedFirst.append {first second : List Op}
    (earlier : ErasedFirst geometry mem first)
    (later : ErasedFirst geometry (replay geometry first mem) second) :
    ErasedFirst geometry mem (first ++ second) := by
  intro before address bytes after equality
  rcases List.append_eq_append_iff.mp equality with
    ⟨middle, rfl, rest⟩ | ⟨middle, rfl, rest⟩
  · obtain ⟨⟨page, erased, same⟩, blank⟩ :=
      later middle address bytes after rest
    rw [← replay_append] at blank
    exact ⟨⟨page, List.mem_append_right _ erased, same⟩, blank⟩
  · rcases List.cons_eq_append_iff.mp rest with
      ⟨rfl, whole⟩ | ⟨tail, rfl, _⟩
    · obtain ⟨⟨page, erased, same⟩, blank⟩ :=
        later [] address bytes after whole
      cases erased
    · exact earlier before address bytes tail rfl

private theorem range_before {count turn : Nat} {before after : List Nat}
    (split : List.range count = before ++ turn :: after) :
    before = List.range turn ∧ turn < count := by
  rw [List.range_eq_range', List.range'_eq_append_iff] at split
  obtain ⟨first, _, rfl, following⟩ := split
  obtain ⟨same, remain, _⟩ := List.range'_eq_cons_iff.mp following.symm
  have reached : first = turn := by omega
  subst reached
  exact ⟨List.range_eq_range'.symm, by omega⟩

/-- Blocks of one page, programmed one after the other once the page has been
erased. -/
theorem erasedFirst_blocks {page start width : Nat} (positive : 0 < width)
    (block : Nat → List UInt8) (uniform : ∀ index, (block index).length = width)
    (count : Nat)
    (inPage : ∀ target, start ≤ target → target < start + width * count →
      geometry.Contains target ∧
        target / geometry.page = page / geometry.page) :
    ErasedFirst geometry mem (Op.erase page ::
      (List.range count).map fun index =>
        Op.program (start + width * index) (block index)) := by
  intro before address bytes after equality
  rcases List.cons_eq_append_iff.mp equality with
    ⟨_, impossible⟩ | ⟨front, rfl, blocks⟩
  · cases impossible
  · obtain ⟨done, rest, split, rfl, remaining⟩ :=
      List.map_eq_append_iff.mp blocks
    obtain ⟨index, later, rfl, programmed, _⟩ :=
      List.map_eq_cons_iff.mp remaining
    cases programmed
    obtain ⟨rfl, below⟩ := range_before split
    have room : width * (index + 1) ≤ width * count :=
      Nat.mul_le_mul_left width below
    rw [Nat.mul_succ] at room
    refine ⟨⟨page, List.mem_cons_self, ?_⟩, ?_⟩
    · exact (inPage _ (Nat.le_add_right _ _) (by omega)).2
    · intro target above beneath
      rw [uniform] at beneath
      have place := inPage target
        (Nat.le_trans (Nat.le_add_right _ _) above) (by omega)
      have notYet : ¬target < start + width * index :=
        Nat.not_lt_of_le above
      have touched : (Op.erase page).Touches geometry target := place
      refine ⟨place.1, ?_⟩
      rw [replay_cons, replay_blocks _ _ positive block uniform,
        if_neg (fun inside => notYet inside.2.2), Op.apply, if_pos touched]
      rfl

end ErasedFirst

theorem and_of_blank {old new : UInt8} (blank : old = 0xFF) :
    old &&& new = new := by
  subst blank
  exact UInt8.neg_one_and

end NorMemory
