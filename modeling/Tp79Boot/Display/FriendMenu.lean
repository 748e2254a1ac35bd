import Mathlib.Data.List.TakeWhile
import Tp79Boot.Lib.CyclicWindow
import Tp79Boot.Lib.EventRun

/-!
# The list of friends on the display

`ui_task` shows three rows of the list of friends and keeps in a static
variable which of them is the selected one.  The variable is moved by one when
the selection moves, whatever the length of the list: behind a longer list it
may point below the last row of a short one.
-/

namespace Tp79Boot

open CyclicWindow EventRun

/-- The static variables of the branch `APP_STATUS_SET_SUBMENU1_3`. -/
structure FriendMenu where
  oldSelect : UInt16
  curSelect : UInt16
  dispSelect : UInt16
deriving DecidableEq, Repr

/-- What a call finds. -/
structure FriendMenuCall where
  /-- `old_app_status != cur_app_status`. -/
  entered : Bool
  /-- The counter of friends in the flash. -/
  cnt : UInt32
  menuSelect : UInt16
deriving DecidableEq, Repr

/-- `friend_read_cnt()`. -/
def FriendMenuCall.friendReadCnt (call : FriendMenuCall) : UInt32 :=
  call.cnt % 256

/-- A row that is drawn: its place, the number of the record shown in it, and
whether it is white on blue. -/
structure FriendRow where
  i : Nat
  p : UInt16
  highlighted : Bool
deriving DecidableEq, Repr

def FriendMenu.start : FriendMenu :=
  { oldSelect := 0, curSelect := 0, dispSelect := 0 }

/-- `disp_select` after the selection has moved. -/
def movedSelect (oldSelect curSelect dispSelect : UInt16) : UInt16 :=
  if oldSelect < curSelect ∧ dispSelect < 2 then dispSelect + 1
  else if curSelect < oldSelect ∧ 0 < dispSelect then dispSelect - 1
  else dispSelect

/-- The record of a row. -/
def rowRecord (friendReadCnt : UInt32) (curSelect dispSelect : UInt16)
    (i : Nat) : UInt16 :=
  let p : UInt16 :=
    if dispSelect.toNat ≤ curSelect.toNat + i + 1 then
      UInt16.ofNat
        ((curSelect.toNat + i + 1 - dispSelect.toNat) % friendReadCnt.toNat)
    else (friendReadCnt - dispSelect.toUInt32 + UInt32.ofNat i + 1).toUInt16
  if p = 0 then friendReadCnt.toUInt16 else p

def friendRows (friendReadCnt : UInt32) (curSelect dispSelect : UInt16) :
    List FriendRow :=
  ((List.range 3).takeWhile fun i => i < friendReadCnt.toNat).map fun i =>
    { i := i
      p := rowRecord friendReadCnt curSelect dispSelect i
      highlighted := i = dispSelect.toNat }

/-- `old_select` when the branch comes to compare it. -/
def FriendMenu.compared (menu : FriendMenu) (call : FriendMenuCall) : UInt16 :=
  if call.entered then 999 else menu.oldSelect

/-- The static variables after a call, and the rows if they are drawn. -/
def uiFriendMenu (menu : FriendMenu) (call : FriendMenuCall) :
    FriendMenu × Option (List FriendRow) :=
  let curSelect := call.menuSelect
  let oldSelect := menu.compared call
  if oldSelect ≠ curSelect then
    let dispSelect := movedSelect oldSelect curSelect menu.dispSelect
    ({ oldSelect := curSelect
       curSelect := curSelect
       dispSelect := dispSelect },
      some (friendRows call.friendReadCnt curSelect dispSelect))
  else
    ({ menu with oldSelect := oldSelect, curSelect := curSelect }, none)

def friendMenuStep (menu : FriendMenu) (call : FriendMenuCall) : FriendMenu :=
  (uiFriendMenu menu call).1

/-- The selection is in the list, which then is not empty. -/
def FriendMenuCall.Legal (call : FriendMenuCall) : Prop :=
  call.menuSelect.toNat < call.friendReadCnt.toNat

instance (call : FriendMenuCall) : Decidable call.Legal :=
  inferInstanceAs (Decidable (_ < _))

/-- The rows of a list: at most three, one of them highlighted with the
selected record, and their records one behind the other in the circle. -/
structure ShowsSelected (count selected : Nat) (rows : List FriendRow) :
    Prop where
  few : rows.length = min 3 count
  highlighted : (rows.filter (·.highlighted)).map (·.p.toNat) = [selected + 1]
  inside : ∀ row ∈ rows, 1 ≤ row.p.toNat ∧ row.p.toNat ≤ count
  consecutive : ∀ i first second, rows[i]? = some first →
    rows[i + 1]? = some second → second.p.toNat = first.p.toNat % count + 1
  distinct : (rows.map (·.p.toNat)).Nodup

/-- If the call draws the rows, it draws them so. -/
def DrawsSelected (menu : FriendMenu) (call : FriendMenuCall) : Prop :=
  ∀ rows ∈ (uiFriendMenu menu call).2,
    ShowsSelected call.friendReadCnt.toNat call.menuSelect.toNat rows

/-- The window does not point below the rows of a list that is too short:
when it is redrawn for one friend it points to one of the first two rows, and
when the selection moves down among two friends, to the first. -/
def InView (menu : FriendMenu) (call : FriendMenuCall) : Prop :=
  menu.compared call ≠ call.menuSelect →
    (call.friendReadCnt = 1 → menu.dispSelect ≤ 1) ∧
      (call.friendReadCnt = 2 → menu.compared call < call.menuSelect →
        menu.dispSelect = 0)

instance (menu : FriendMenu) (call : FriendMenuCall) :
    Decidable (InView menu call) :=
  inferInstanceAs (Decidable (_ → _))

section

variable {count : UInt32} {selected place : UInt16}

theorem takeWhile_range_three (limit : Nat) :
    ((List.range 3).takeWhile fun i => i < limit) =
      List.range (min 3 limit) := by
  match limit with
  | 0 => rfl
  | 1 => rfl
  | 2 => rfl
  | limit + 3 =>
      have all : ∀ i ∈ List.range 3, decide (i < limit + 3) = true := by
        intro i member
        have below := List.mem_range.mp member
        exact decide_eq_true (by omega)
      rw [Nat.min_eq_left (Nat.le_add_left 3 limit)]
      exact List.takeWhile_eq_self_iff.mpr all

theorem restored_eq (friends : 0 < count.toNat) (small : count.toNat < 256)
    {p : UInt16} {number : Nat} (remainder : p.toNat = number % count.toNat) :
    (if p = 0 then count.toUInt16 else p).toNat =
      record count.toNat number (count.toNat - 1) := by
  have whole : count.toUInt16.toNat = count.toNat := by
    rw [UInt32.toNat_toUInt16]
    exact Nat.mod_eq_of_lt (Nat.lt_trans small (by decide))
  rw [← record_of_remainder friends, ← remainder]
  by_cases zero : p = 0
  · rw [if_pos zero, zero, whole]
    rfl
  · have positive : p.toNat ≠ 0 := by
      intro none
      exact zero (UInt16.toNat_inj.mp none)
    rw [if_neg zero, if_neg positive]

/-- Each row shows the record at its distance from the selected one. -/
theorem rowRecord_eq (inside : selected.toNat < count.toNat)
    (small : count.toNat < 256) (near : place.toNat ≤ 2) (i : Nat) :
    (rowRecord count selected place i).toNat =
      record count.toNat (selected.toNat + count.toNat * 2 - place.toNat)
        i := by
  have friends : 0 < count.toNat := Nat.lt_of_le_of_lt (Nat.zero_le _) inside
  simp only [rowRecord]
  split
  next after =>
    have below : (selected.toNat + i + 1 - place.toNat) % count.toNat <
        count.toNat := Nat.mod_lt _ friends
    have around : selected.toNat + count.toNat * 2 - place.toNat + i =
        selected.toNat + i + 1 - place.toNat + (count.toNat - 1) +
          count.toNat := by
      omega
    rw [restored_eq friends small (UInt16.toNat_ofNat_of_lt'
      (Nat.lt_trans below (Nat.lt_trans small (by decide)))), record, record,
      around, Nat.add_mod_right]
  next before =>
    -- Only the first row can be before the start of the list, with the first
    -- friend selected in the last row.
    have first : selected.toNat = 0 ∧ i = 0 ∧ place.toNat = 2 := by omega
    obtain ⟨start, rfl, last⟩ := first
    have wrapped : (count - place.toUInt32 + UInt32.ofNat 0 + 1).toUInt16.toNat =
        (count.toNat - 1) % count.toNat := by
      have two : place.toUInt32.toNat = 2 := last
      have zero : (UInt32.ofNat 0).toNat = 0 := rfl
      have one : (1 : UInt32).toNat = 1 := rfl
      rw [UInt32.toNat_toUInt16, UInt32.toNat_add, UInt32.toNat_add,
        UInt32.toNat_sub, two, zero, one,
        Nat.mod_eq_of_lt (Nat.sub_lt friends Nat.one_pos)]
      omega
    have around : 0 + count.toNat * 2 - 2 + 0 =
        count.toNat - 1 + (count.toNat - 1) := by
      omega
    rw [restored_eq friends small wrapped, record, record, start, last, around]

/-- The highlighted row is among the rows exactly when the window points to
one of them. -/
theorem filter_place (size wanted : Nat) :
    (List.range size).filter (fun i => i = wanted) =
      if wanted < size then [wanted] else [] := by
  induction size with
  | zero => rfl
  | succ size induction =>
      rw [List.range_succ, List.filter_append, induction]
      rcases Nat.lt_trichotomy wanted size with below | rfl | above
      · have other : ¬ size = wanted := (Nat.ne_of_lt below).symm
        simp [below, other, Nat.lt_succ_of_lt below]
      · simp
      · have other : ¬ size = wanted := Nat.ne_of_lt above
        have outside : ¬ wanted < size := Nat.not_lt_of_gt above
        have past : ¬ wanted < size + 1 := Nat.not_lt_of_ge above
        simp [outside, other, past]

theorem friendRows_records (inside : selected.toNat < count.toNat)
    (small : count.toNat < 256) (near : place.toNat ≤ 2) :
    (friendRows count selected place).map (·.p.toNat) =
      (List.range (min 3 count.toNat)).map (record count.toNat
        (selected.toNat + count.toNat * 2 - place.toNat)) := by
  rw [friendRows, takeWhile_range_three, List.map_map]
  apply List.map_congr_left
  intro i _
  exact rowRecord_eq inside small near i

theorem friendRows_getElem? (inside : selected.toNat < count.toNat)
    (small : count.toNat < 256) (near : place.toNat ≤ 2) {i : Nat}
    {row : FriendRow}
    (here : (friendRows count selected place)[i]? = some row) :
    row.p.toNat = record count.toNat
      (selected.toNat + count.toNat * 2 - place.toNat) i := by
  have number := congrArg (·[i]?) (friendRows_records inside small near)
  simp only [List.getElem?_map, here] at number
  obtain ⟨offset, position, same⟩ := Option.map_eq_some_iff.mp number.symm
  obtain ⟨bound, value⟩ := List.getElem?_eq_some_iff.mp position
  rw [List.getElem_range] at value
  rw [value]
  exact same.symm

/-- What is highlighted is the selected record, if the window points to a
row. -/
theorem friendRows_highlighted (inside : selected.toNat < count.toNat)
    (small : count.toNat < 256) (near : place.toNat ≤ 2) :
    ((friendRows count selected place).filter (·.highlighted)).map
        (·.p.toNat) =
      if place.toNat < min 3 count.toNat then [selected.toNat + 1]
      else [] := by
  rw [friendRows, takeWhile_range_three, List.filter_map, List.map_map]
  have places : (List.range (min 3 count.toNat)).filter
      ((·.highlighted) ∘ fun i : Nat =>
        ({ i := i
           p := rowRecord count selected place i
           highlighted := i = place.toNat } : FriendRow)) =
      if place.toNat < min 3 count.toNat then [place.toNat] else [] :=
    filter_place _ _
  rw [places]
  split
  · have shown := rowRecord_eq inside small near place.toNat
    rw [record_selected inside (by omega)] at shown
    exact congrArg (fun number => [number]) shown
  · rfl

/-- The rows show the selection exactly when the window points to one of
them. -/
theorem friendRows_shows_iff (inside : selected.toNat < count.toNat)
    (small : count.toNat < 256) (near : place.toNat ≤ 2) :
    ShowsSelected count.toNat selected.toNat
        (friendRows count selected place) ↔
      place.toNat < min 3 count.toNat := by
  have friends : 0 < count.toNat :=
    Nat.lt_of_le_of_lt (Nat.zero_le _) inside
  have records := friendRows_records inside small near
  have highlighted := friendRows_highlighted inside small near
  constructor
  · intro shows
    by_contra below
    have one := shows.highlighted
    rw [highlighted, if_neg below] at one
    cases one
  · intro pointed
    constructor
    · have length := congrArg List.length records
      rwa [List.length_map, List.length_map, List.length_range] at length
    · rw [highlighted, if_pos pointed]
    · intro row member
      obtain ⟨i, here⟩ := List.mem_iff_getElem?.mp member
      rw [friendRows_getElem? inside small near here]
      exact ⟨Nat.succ_pos _, record_le friends i⟩
    · intro i first second here next
      rw [friendRows_getElem? inside small near here,
        friendRows_getElem? inside small near next]
      exact record_succ i
    · rw [records]
      exact window_nodup (Nat.min_le_right 3 _)

end

section

variable {menu : FriendMenu} {call : FriendMenuCall}

theorem FriendMenuCall.friendReadCnt_lt (call : FriendMenuCall) :
    call.friendReadCnt.toNat < 256 := by
  rw [FriendMenuCall.friendReadCnt, UInt32.toNat_mod]
  exact Nat.mod_lt _ (by decide)

/-- The window is moved by one with the selection, and stays in the rows. -/
theorem movedSelect_toNat {place : UInt16} (near : place.toNat ≤ 2)
    (old current : UInt16) :
    (movedSelect old current place).toNat =
      if old < current then min 2 (place.toNat + 1)
      else if current < old then place.toNat - 1
      else place.toNat := by
  have one : (1 : UInt16).toNat = 1 := rfl
  rw [movedSelect]
  by_cases down : old < current
  · have notUp : ¬ current < old := UInt16.lt_asymm down
    rw [if_pos down]
    by_cases room : place < 2
    · have below : place.toNat < 2 := UInt16.lt_iff_toNat_lt.mp room
      rw [if_pos ⟨down, room⟩, UInt16.toNat_add, one]
      omega
    · have last : ¬ place.toNat < 2 := UInt16.lt_iff_toNat_lt.not.mp room
      rw [if_neg (fun both => room both.2), if_neg (fun both => notUp both.1)]
      omega
  · rw [if_neg (fun both => down both.1), if_neg down]
    by_cases up : current < old
    · rw [if_pos up]
      by_cases room : 0 < place
      · have above : 0 < place.toNat := UInt16.lt_iff_toNat_lt.mp room
        rw [if_pos ⟨up, room⟩, UInt16.toNat_sub, one]
        omega
      · have first : ¬ 0 < place.toNat := UInt16.lt_iff_toNat_lt.not.mp room
        rw [if_neg (fun both => room both.2)]
        omega
    · rw [if_neg (fun both => up both.1), if_neg up]

theorem movedSelect_near {place : UInt16} (near : place.toNat ≤ 2)
    (old current : UInt16) : (movedSelect old current place).toNat ≤ 2 := by
  rw [movedSelect_toNat near]
  split
  · exact Nat.min_le_left 2 _
  · split
    · omega
    · exact near

theorem friendMenuStep_near (near : menu.dispSelect.toNat ≤ 2) :
    (friendMenuStep menu call).dispSelect.toNat ≤ 2 := by
  rw [friendMenuStep]
  simp only [uiFriendMenu]
  split
  · exact movedSelect_near near _ _
  · exact near

/-- Only a list of one or two friends can be too short for the window. -/
theorem pointed_iff (near : menu.dispSelect.toNat ≤ 2) (legal : call.Legal)
    (redrawn : menu.compared call ≠ call.menuSelect) :
    (if menu.compared call < call.menuSelect then
        min 2 (menu.dispSelect.toNat + 1)
      else if call.menuSelect < menu.compared call then
        menu.dispSelect.toNat - 1
      else menu.dispSelect.toNat) < min 3 call.friendReadCnt.toNat ↔
      InView menu call := by
  have one : call.friendReadCnt = 1 ↔ call.friendReadCnt.toNat = 1 :=
    UInt32.toNat_inj.symm
  have two : call.friendReadCnt = 2 ↔ call.friendReadCnt.toNat = 2 :=
    UInt32.toNat_inj.symm
  have first : menu.dispSelect ≤ 1 ↔ menu.dispSelect.toNat ≤ 1 :=
    UInt16.le_iff_toNat_le
  have top : menu.dispSelect = 0 ↔ menu.dispSelect.toNat = 0 :=
    UInt16.toNat_inj.symm
  have order : (menu.compared call).toNat < call.menuSelect.toNat ∨
      call.menuSelect.toNat < (menu.compared call).toNat :=
    Nat.lt_or_gt_of_ne (UInt16.toNat_inj.not.mpr redrawn)
  have inside : call.menuSelect.toNat < call.friendReadCnt.toNat := legal
  rw [InView, forall_prop_of_true redrawn, one, two, first, top]
  rcases order with less | greater
  · have down : menu.compared call < call.menuSelect :=
      UInt16.lt_iff_toNat_lt.mpr less
    rw [if_pos down, forall_prop_of_true down]
    omega
  · have up : call.menuSelect < menu.compared call :=
      UInt16.lt_iff_toNat_lt.mpr greater
    have notDown : ¬ menu.compared call < call.menuSelect :=
      UInt16.lt_asymm up
    rw [if_neg notDown, if_pos up]
    constructor
    · intro pointed
      exact ⟨fun single => by omega, fun _ down => absurd down notDown⟩
    · rintro ⟨single, _⟩
      omega

/-- A call shows the selection exactly when the window is in view. -/
theorem drawsSelected_iff (near : menu.dispSelect.toNat ≤ 2)
    (legal : call.Legal) : DrawsSelected menu call ↔ InView menu call := by
  by_cases redrawn : menu.compared call ≠ call.menuSelect
  · have moved := movedSelect_toNat near (menu.compared call) call.menuSelect
    have shows := friendRows_shows_iff legal call.friendReadCnt_lt
      (movedSelect_near near (menu.compared call) call.menuSelect)
    have drawn : (uiFriendMenu menu call).2 =
        some (friendRows call.friendReadCnt call.menuSelect
          (movedSelect (menu.compared call) call.menuSelect
            menu.dispSelect)) := by
      simp only [uiFriendMenu, if_pos redrawn]
    have draws : DrawsSelected menu call ↔
        ShowsSelected call.friendReadCnt.toNat call.menuSelect.toNat
          (friendRows call.friendReadCnt call.menuSelect
            (movedSelect (menu.compared call) call.menuSelect
              menu.dispSelect)) := by
      rw [DrawsSelected, drawn]
      simp
    rw [draws, shows, moved]
    exact pointed_iff near legal redrawn
  · have drawn : (uiFriendMenu menu call).2 = none := by
      simp only [uiFriendMenu, if_neg redrawn]
    apply iff_of_true
    · intro rows member
      rw [drawn] at member
      cases member
    · exact fun different => absurd different redrawn

end

/-- In every run the rows that are drawn show the selection exactly when
every call finds the window in view. -/
theorem friendMenu_shows_iff (calls : List FriendMenuCall)
    (legal : ∀ call ∈ calls, call.Legal) :
    Admitted friendMenuStep DrawsSelected FriendMenu.start calls ↔
      Admitted friendMenuStep InView FriendMenu.start calls := by
  have near (earlier : List FriendMenuCall) :
      (run friendMenuStep FriendMenu.start earlier).dispSelect.toNat ≤ 2 :=
    @run_invariant _ _ friendMenuStep FriendMenu.start
      (fun menu => menu.dispSelect.toNat ≤ 2) (Nat.zero_le 2)
      (fun _ _ => friendMenuStep_near) earlier
  exact @admitted_congr_of_legal _ _ _ _ _ _
    (fun menu : FriendMenu => menu.dispSelect.toNat ≤ 2) _ _ near
    (fun _ _ => drawsSelected_iff) legal

theorem inView_of_three {menu : FriendMenu} {call : FriendMenuCall}
    (enough : 3 ≤ call.friendReadCnt.toNat) : InView menu call := by
  intro _
  constructor
  · intro single
    rw [single] at enough
    exact absurd enough (by decide)
  · intro double
    rw [double] at enough
    exact absurd enough (by decide)

/-- Three friends, the second one selected and then the last one. -/
theorem friendMenu_shows_three :
    Admitted friendMenuStep DrawsSelected FriendMenu.start
      [{ entered := true, cnt := 3, menuSelect := 0 },
        { entered := false, cnt := 3, menuSelect := 1 },
        { entered := false, cnt := 3, menuSelect := 2 }] := by
  apply (friendMenu_shows_iff _ (by decide)).mpr
  apply admitted_of_forall
  intro menu call member
  have three : call.cnt = 3 := by
    simp only [List.mem_cons, List.not_mem_nil, or_false] at member
    rcases member with rfl | rfl | rfl
    · rfl
    · rfl
    · rfl
  apply inView_of_three
  rw [FriendMenuCall.friendReadCnt, three]
  decide

/-- Behind the last of three friends the list is entered again with two, and
the second one is selected: none of the two rows is highlighted. -/
theorem friendMenu_short_list :
    let before : List FriendMenuCall :=
      [{ entered := true, cnt := 3, menuSelect := 0 },
        { entered := false, cnt := 3, menuSelect := 1 },
        { entered := false, cnt := 3, menuSelect := 2 },
        { entered := true, cnt := 2, menuSelect := 0 }]
    let last : FriendMenuCall :=
      { entered := false, cnt := 2, menuSelect := 1 }
    (∀ call ∈ before ++ [last], call.Legal) ∧
      (uiFriendMenu (run friendMenuStep FriendMenu.start before) last).2 =
        some [{ i := 0, p := 2, highlighted := false },
          { i := 1, p := 1, highlighted := false }] ∧
      ¬ Admitted friendMenuStep DrawsSelected FriendMenu.start
        (before ++ [last]) := by
  intro before last
  have drawn :
      (uiFriendMenu (run friendMenuStep FriendMenu.start before) last).2 =
        some [{ i := 0, p := 2, highlighted := false },
          { i := 1, p := 1, highlighted := false }] := by
    decide
  refine ⟨by decide, drawn, ?_⟩
  intro admitted
  have shows := admitted.last _ drawn
  exact absurd shows.highlighted (by decide)

end Tp79Boot
