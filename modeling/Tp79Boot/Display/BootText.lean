import Tp79Boot.Display.Bitmap
import Tp79Boot.Display.FontLookup
import Tp79Boot.Lib.WhileLoop

/-!
# The text of the boot loader

`ui_disp_china_15x16` and `ui_disp_china_11x12` of `main.c` draw a string from
a start column on: a narrow character takes one step to the right and a wide
one takes two.  A character that would leave the display is dropped, so the
columns never come around in the eight bits of a coordinate.
-/

namespace Tp79Boot

open WhileLoop

/-- The arguments of `lcd_disp_bit1bmp_SingleByte`, with the buffer from the
pointer on. -/
structure LcdBlock where
  x : UInt8
  y : UInt8
  bmp : List UInt8
  width : UInt8
  height : UInt8
  colorData : UInt16
  backColor : UInt16
deriving DecidableEq, Repr

/-- The bitmap of a block is drawn as its bytes are laid out. -/
def LcdBlock.LaidOut (block : LcdBlock) : Prop :=
  DrawnAsLaidOut (byteAt block.bmp) block.x block.y block.width block.height
    block.colorData block.backColor

/-- The two blocks of a character. -/
structure Cell where
  upper : LcdBlock
  lower : LcdBlock
deriving DecidableEq, Repr

/-- How the narrow or the wide characters of a font are drawn. -/
structure Face where
  /-- The last column at which they still are. -/
  limit : Nat
  width : UInt8
  lowerHeight : UInt8

structure Font where
  step : Nat
  narrow : Face
  wide : Face
  getAscii : UInt8 → Lookup
  /-- What is done with the buffer of a narrow character. -/
  arrange : List UInt8 → List UInt8
  getGb2312 : UInt32 → UInt8 → UInt8 → Lookup

/-- One turn of the loop that moves the blank line up. -/
def moveUp (dispBuf : List UInt8) (j : Nat) : List UInt8 :=
  let upper := byteAt dispBuf j
  let lower := byteAt dispBuf (j + 8) <<< 3 ||| (upper >>> 5 &&& 0x07)
  (dispBuf.set (j + 8) lower).set j (upper <<< 3 &&& 0xF8)

def font15x16 : Font where
  step := 8
  narrow := { limit := 152, width := 8, lowerHeight := 8 }
  wide := { limit := 144, width := 16, lowerHeight := 8 }
  getAscii := gt21l16s2GetAscii8x16 0
  arrange := fun dispBuf => (List.range 8).foldl moveUp dispBuf
  getGb2312 := gt21l16s2GetGb231215x16

def font11x12 : Font where
  step := 6
  narrow := { limit := 154, width := 6, lowerHeight := 5 }
  wide := { limit := 148, width := 12, lowerHeight := 4 }
  getAscii := gt21l16s2GetAscii6x12
  arrange := id
  getGb2312 := gt21l16s2GetGb231211x12

/-- The counter and the buffer of the loop, and what is drawn. -/
structure TextRun where
  i : UInt16
  dispBuf : List UInt8
  cells : List Cell

section

-- The font ROM, and what the variable `addr` of a lookup held before.
variable (rom : Nat → UInt8) (stale : UInt32)
variable (font : Font)
variable (x y : UInt16) (gb2312Dat : List UInt8) (blackColor textColor : UInt16)

/-- The character at a column, unless it would leave the display. -/
def drawCell (face : Face) (dispBuf : List UInt8) (column : Nat) : List Cell :=
  if column ≤ face.limit then
    [{ upper :=
        { x := UInt8.ofNat column
          y := UInt8.ofNat y.toNat
          bmp := dispBuf
          width := face.width
          height := 8
          colorData := textColor
          backColor := blackColor }
       lower :=
        { x := UInt8.ofNat column
          y := UInt8.ofNat (y.toNat + 8)
          bmp := dispBuf.drop face.width.toNat
          width := face.width
          height := face.lowerHeight
          colorData := textColor
          backColor := blackColor } }]
  else []

def charTurn (run : TextRun) : Turn TextRun :=
  let lenth := UInt16.ofNat (strlen gb2312Dat)
  let column := x.toNat + run.i.toNat * font.step
  if run.i < lenth then
    let byte := byteAt gb2312Dat run.i.toNat
    if NarrowChar byte then
      let dispBuf :=
        font.arrange ((font.getAscii byte).fill rom run.dispBuf)
      .again
        { i := run.i + 1
          dispBuf := dispBuf
          cells := run.cells ++
            drawCell y blackColor textColor font.narrow dispBuf column }
    else
      let lookup :=
        font.getGb2312 stale byte (byteAt gb2312Dat (run.i.toNat + 1))
      let dispBuf := lookup.fill rom run.dispBuf
      if lookup.found then
        .again
          { i := run.i + 1 + 1
            dispBuf := dispBuf
            cells := run.cells ++
              drawCell y blackColor textColor font.wide dispBuf column }
      else
        .again { run with i := run.i + 1, dispBuf := dispBuf }
  else .done run

/-- The cells drawn, in the order in which they are. -/
def uiDispChina : Option (List Cell) :=
  (loop (charTurn rom stale font x y gb2312Dat blackColor textColor)
    (strlen gb2312Dat + 1)
    { i := 0, dispBuf := List.replicate 32 0, cells := [] }).map (·.cells)

def uiDispChina15x16 : Option (List Cell) :=
  uiDispChina rom stale font15x16 x y gb2312Dat blackColor textColor

def uiDispChina11x12 : Option (List Cell) :=
  uiDispChina rom stale font11x12 x y gb2312Dat blackColor textColor

end

/-- A character at its index in the string. -/
structure Character where
  index : Nat
  bytes : Nat
deriving DecidableEq, Repr

/-- A string as a sequence of narrow and wide characters; other bytes, and a
lead byte at the end, are none. -/
def charactersFrom (wideRow : UInt8 → Bool) : Nat → List UInt8 → List Character
  | _, [] => []
  | index, [byte] =>
      if NarrowChar byte then [{ index := index, bytes := 1 }] else []
  | index, byte :: next :: rest =>
      if NarrowChar byte then
        { index := index, bytes := 1 } ::
          charactersFrom wideRow (index + 1) (next :: rest)
      else if wideRow byte ∧ 0xA1 ≤ next then
        { index := index, bytes := 2 } ::
          charactersFrom wideRow (index + 2) rest
      else charactersFrom wideRow (index + 1) (next :: rest)

/-- The columns that a character takes. -/
structure Columns where
  left : Nat
  width : Nat
deriving DecidableEq, Repr

def Columns.right (columns : Columns) : Nat :=
  columns.left + columns.width

def Character.place (start step : Nat) (character : Character) : Columns :=
  { left := start + character.index * step, width := character.bytes * step }

/-- The columns of a cell, as its eight bits give them. -/
def Cell.columns (cell : Cell) : Columns :=
  { left := cell.upper.x.toNat, width := cell.upper.width.toNat }

/-- The display is `160` columns wide. -/
def Columns.Fits (columns : Columns) : Prop :=
  columns.right ≤ 160

instance (columns : Columns) : Decidable columns.Fits :=
  inferInstanceAs (Decidable (_ ≤ _))

/-- Each cell is on the display and to the right of the one before it, and
the cells are those of the characters that fit, where these belong. -/
structure StaysOnScreen (wideRow : UInt8 → Bool) (step start : Nat)
    (string : List UInt8) (cells : List Cell) : Prop where
  inside : ∀ cell ∈ cells, cell.columns.Fits
  ordered : cells.Pairwise fun first second =>
    first.columns.right ≤ second.columns.left
  aligned : ∀ cell ∈ cells,
    cell.lower.x = cell.upper.x ∧ cell.lower.width = cell.upper.width
  placed : cells.map Cell.columns =
    ((charactersFrom wideRow 0 string).map (Character.place start step)).filter
      fun columns => columns.Fits

/-- The string at a pointer. -/
def cString (memory : List UInt8) : List UInt8 :=
  memory.takeWhile fun byte => byte != 0

theorem byteAt_cString {memory : List UInt8} {index : Nat}
    (inside : index ≤ strlen memory) :
    byteAt memory index = ((cString memory).drop index).headD 0 := by
  induction memory generalizing index with
  | nil => simp [byteAt, cString]
  | cons byte memory induction =>
      rw [strlen_cons] at inside
      by_cases zero : byte = 0
      · rw [if_pos zero] at inside
        obtain rfl : index = 0 := Nat.le_zero.mp inside
        simp [byteAt, cString, zero]
      · rw [if_neg zero] at inside
        have later : cString (byte :: memory) = byte :: cString memory :=
          List.takeWhile_cons_of_pos (bne_iff_ne.mpr zero)
        rw [later]
        cases index with
        | zero => rfl
        | succ index =>
            exact induction (Nat.le_of_succ_le_succ inside)

theorem cString_drop {memory : List UInt8} {index : Nat}
    (inside : index < strlen memory) :
    (cString memory).drop index =
      byteAt memory index :: (cString memory).drop (index + 1) := by
  have split := List.drop_eq_getElem_cons inside
  rw [byteAt_cString (Nat.le_of_lt inside), cString, split]
  rfl

theorem cString_drop_end {memory : List UInt8} {index : Nat}
    (past : strlen memory ≤ index) : (cString memory).drop index = [] :=
  List.drop_of_length_le past

section

variable {wideRow : UInt8 → Bool} {index : Nat} {byte : UInt8}
variable {rest : List UInt8}

theorem charactersFrom_narrow (narrow : NarrowChar byte) :
    charactersFrom wideRow index (byte :: rest) =
      { index := index, bytes := 1 } ::
        charactersFrom wideRow (index + 1) rest := by
  cases rest with
  | nil => simp [charactersFrom, narrow]
  | cons next rest => rw [charactersFrom, if_pos narrow]

theorem charactersFrom_wide (other : ¬ NarrowChar byte)
    (wide : wideRow byte = true ∧ 0xA1 ≤ rest.headD 0) :
    charactersFrom wideRow index (byte :: rest) =
      { index := index, bytes := 2 } ::
        charactersFrom wideRow (index + 2) (rest.drop 1) := by
  cases rest with
  | nil => exact absurd wide.2 (by decide)
  | cons next rest =>
      rw [charactersFrom, if_neg other]
      exact if_pos wide

theorem charactersFrom_none (other : ¬ NarrowChar byte)
    (notWide : ¬ (wideRow byte = true ∧ 0xA1 ≤ rest.headD 0)) :
    charactersFrom wideRow index (byte :: rest) =
      charactersFrom wideRow (index + 1) rest := by
  cases rest with
  | nil => simp [charactersFrom, other]
  | cons next rest =>
      rw [charactersFrom, if_neg other]
      exact if_neg notWide

/-- The characters stand one behind the other, from an index on. -/
def OrderedFrom (index : Nat) (characters : List Character) : Prop :=
  (∀ character ∈ characters, index ≤ character.index) ∧
    characters.Pairwise fun first second =>
      first.index + first.bytes ≤ second.index

theorem orderedFrom_nil (index : Nat) : OrderedFrom index [] :=
  ⟨List.forall_mem_nil _, List.Pairwise.nil⟩

theorem OrderedFrom.cons {index bytes : Nat} {later : List Character}
    (ordered : OrderedFrom (index + bytes) later) :
    OrderedFrom index ({ index := index, bytes := bytes } :: later) := by
  constructor
  · intro character member
    rcases List.mem_cons.mp member with rfl | member
    · exact Nat.le_refl index
    · exact Nat.le_trans (Nat.le_add_right index bytes)
        (ordered.1 character member)
  · exact List.pairwise_cons.mpr ordered

theorem OrderedFrom.skip {index : Nat} {later : List Character}
    (ordered : OrderedFrom (index + 1) later) : OrderedFrom index later := by
  constructor
  · intro character member
    exact Nat.le_of_succ_le (ordered.1 character member)
  · exact ordered.2

theorem charactersFrom_ordered (index : Nat) (string : List UInt8) :
    OrderedFrom index (charactersFrom wideRow index string) := by
  induction index, string using charactersFrom.induct wideRow with
  | case1 index =>
      rw [charactersFrom]
      exact orderedFrom_nil index
  | case2 index byte narrow =>
      rw [charactersFrom, if_pos narrow]
      exact (orderedFrom_nil _).cons
  | case3 index byte other =>
      rw [charactersFrom, if_neg other]
      exact orderedFrom_nil index
  | case4 index byte next rest narrow induction =>
      rw [charactersFrom_narrow narrow]
      exact induction.cons
  | case5 index byte next rest other wide induction =>
      rw [charactersFrom_wide other wide]
      exact induction.cons
  | case6 index byte next rest other notWide induction =>
      rw [charactersFrom_none other notWide]
      exact induction.skip

end

/-- The limits of a font are those of the display, and its lookup finds the
wide characters. -/
structure Font.Suits (font : Font) (wideRow : UInt8 → Bool) : Prop where
  narrowWidth : font.narrow.width.toNat = 1 * font.step
  narrowLimit : font.narrow.limit + 1 * font.step = 160
  wideWidth : font.wide.width.toNat = 2 * font.step
  wideLimit : font.wide.limit + 2 * font.step = 160
  narrowLow : font.narrow.lowerHeight.toNat ≤ 8
  wideLow : font.wide.lowerHeight.toNat ≤ 8
  found : ∀ stale lead trail, ¬ NarrowChar lead →
    ((font.getGb2312 stale lead trail).found = true ↔
      wideRow lead = true ∧ 0xA1 ≤ trail)

/-- The cells are those of the characters that fit, where these belong. -/
structure Draws (start step : Nat) (characters : List Character)
    (cells : List Cell) : Prop where
  aligned : ∀ cell ∈ cells,
    cell.lower.x = cell.upper.x ∧ cell.lower.width = cell.upper.width
  placed : cells.map Cell.columns =
    (characters.map (Character.place start step)).filter
      fun columns => columns.Fits
  laidOut : ∀ cell ∈ cells, cell.upper.LaidOut ∧ cell.lower.LaidOut

theorem Character.place_ordered {start step : Nat} {first second : Character}
    (behind : first.index + first.bytes ≤ second.index) :
    (first.place start step).right ≤ (second.place start step).left :=
  calc
    start + first.index * step + first.bytes * step
        = start + (first.index + first.bytes) * step := by
      rw [Nat.add_mul, Nat.add_assoc]
    _ ≤ start + second.index * step :=
      Nat.add_le_add_left (Nat.mul_le_mul_right step behind) start

theorem Draws.nothing (start step : Nat) : Draws start step [] [] where
  aligned := List.forall_mem_nil _
  placed := rfl
  laidOut := List.forall_mem_nil _

theorem Draws.append {start step : Nat} {first later : List Character}
    {firstCells laterCells : List Cell}
    (firstDrawn : Draws start step first firstCells)
    (laterDrawn : Draws start step later laterCells) :
    Draws start step (first ++ later) (firstCells ++ laterCells) := by
  constructor
  · intro cell member
    rcases List.mem_append.mp member with before | behind
    · exact firstDrawn.aligned cell before
    · exact laterDrawn.aligned cell behind
  · rw [List.map_append, List.map_append, List.filter_append,
      firstDrawn.placed, laterDrawn.placed]
  · intro cell member
    rcases List.mem_append.mp member with before | behind
    · exact firstDrawn.laidOut cell before
    · exact laterDrawn.laidOut cell behind

section

variable {rom : Nat → UInt8} {stale : UInt32} {font : Font}
variable {x y : UInt16} {gb2312Dat : List UInt8}
variable {blackColor textColor : UInt16} {wideRow : UInt8 → Bool}

/-- A character is drawn where it belongs, or does not fit. -/
theorem drawCell_draws {face : Face} {start step index bytes : Nat}
    (width : face.width.toNat = bytes * step)
    (limit : face.limit + bytes * step = 160)
    (low : face.lowerHeight.toNat ≤ 8) (dispBuf : List UInt8) :
    Draws start step [{ index := index, bytes := bytes }]
      (drawCell y blackColor textColor face dispBuf
        (start + index * step)) := by
  have fits :
      (Character.place start step { index := index, bytes := bytes }).Fits ↔
        start + index * step ≤ face.limit := by
    rw [Columns.Fits, Columns.right, Character.place, ← limit]
    exact Nat.add_le_add_iff_right
  rw [drawCell]
  by_cases near : start + index * step ≤ face.limit
  · rw [if_pos near]
    constructor
    · intro cell member
      rw [List.mem_singleton.mp member]
      exact ⟨rfl, rfl⟩
    · -- The column is below `160`, so eight bits hold it.
      have small : start + index * step < 2 ^ 8 := by omega
      have left : (UInt8.ofNat (start + index * step)).toNat =
          start + index * step :=
        UInt8.toNat_ofNat_of_lt' small
      rw [List.map_singleton, List.map_singleton, List.filter_cons_of_pos,
        List.filter_nil, Cell.columns, left, width]
      · rfl
      · exact decide_eq_true (fits.mpr near)
    · intro cell member
      rw [List.mem_singleton.mp member]
      constructor
      · exact drawnAsLaidOut_of_size (.inr (.inl (Nat.le_refl 8)))
      · exact drawnAsLaidOut_of_size (.inr (.inl low))
  · rw [if_neg near]
    constructor
    · exact List.forall_mem_nil _
    · rw [List.map_singleton, List.filter_cons_of_neg]
      · rfl
      · exact (decide_eq_true_iff.trans fits).not.mpr near
    · exact List.forall_mem_nil _

/-- A turn passes over some bytes of the string, and draws the characters
among them that fit. -/
def PassesOver (font : Font) (x : UInt16) (gb2312Dat : List UInt8)
    (wideRow : UInt8 → Bool) (run next : TextRun) : Prop :=
  (run.i.toNat < next.i.toNat ∧ next.i.toNat ≤ strlen gb2312Dat) ∧
    ∃ characters drawn, next.cells = run.cells ++ drawn ∧
      Draws x.toNat font.step characters drawn ∧
      charactersFrom wideRow run.i.toNat
          ((cString gb2312Dat).drop run.i.toNat) =
        characters ++ charactersFrom wideRow next.i.toNat
          ((cString gb2312Dat).drop next.i.toNat)

theorem counter_add {i amount : UInt16} {length : Nat}
    (short : length < 65536) (inside : i.toNat + amount.toNat ≤ length) :
    (i + amount).toNat = i.toNat + amount.toNat :=
  (UInt16.toNat_add i amount).trans
    (Nat.mod_eq_of_lt (Nat.lt_of_le_of_lt inside short))

section

variable {run : TextRun} {dispBuf : List UInt8}

theorem passesOver_narrow (suits : font.Suits wideRow)
    (short : strlen gb2312Dat < 65536)
    (inside : run.i.toNat < strlen gb2312Dat)
    (narrow : NarrowChar (byteAt gb2312Dat run.i.toNat)) :
    PassesOver font x gb2312Dat wideRow run
      { i := run.i + 1
        dispBuf := dispBuf
        cells := run.cells ++
          drawCell y blackColor textColor font.narrow dispBuf
            (x.toNat + run.i.toNat * font.step) } := by
  have one : (run.i + 1).toNat = run.i.toNat + 1 := counter_add short inside
  rw [PassesOver, cString_drop inside, one, charactersFrom_narrow narrow]
  refine ⟨⟨Nat.lt_succ_self _, inside⟩, [_], _, rfl, ?_, rfl⟩
  exact drawCell_draws suits.narrowWidth suits.narrowLimit suits.narrowLow _

theorem passesOver_wide (suits : font.Suits wideRow)
    (short : strlen gb2312Dat < 65536)
    (inside : run.i.toNat < strlen gb2312Dat)
    (other : ¬ NarrowChar (byteAt gb2312Dat run.i.toNat))
    (wide : wideRow (byteAt gb2312Dat run.i.toNat) = true ∧
      0xA1 ≤ byteAt gb2312Dat (run.i.toNat + 1)) :
    PassesOver font x gb2312Dat wideRow run
      { i := run.i + 1 + 1
        dispBuf := dispBuf
        cells := run.cells ++
          drawCell y blackColor textColor font.wide dispBuf
            (x.toNat + run.i.toNat * font.step) } := by
  -- The byte behind a lead byte is none of the zeros past the end.
  have behind : run.i.toNat + 1 < strlen gb2312Dat := by
    by_contra last
    have ended : run.i.toNat + 1 = strlen gb2312Dat := by omega
    rw [ended, byteAt_cString (Nat.le_refl _),
      cString_drop_end (Nat.le_refl _)] at wide
    exact absurd wide.2 (by decide)
  have one : (run.i + 1).toNat = run.i.toNat + 1 := counter_add short inside
  have two : (run.i + 1 + 1).toNat = run.i.toNat + 2 :=
    (counter_add short (one ▸ behind)).trans (congrArg (· + 1) one)
  rw [byteAt_cString (Nat.le_of_lt behind)] at wide
  rw [PassesOver, cString_drop inside, two, charactersFrom_wide other wide,
    List.drop_drop]
  refine ⟨⟨by omega, behind⟩, [_], _, rfl, ?_, rfl⟩
  exact drawCell_draws suits.wideWidth suits.wideLimit suits.wideLow _

theorem passesOver_none (short : strlen gb2312Dat < 65536)
    (inside : run.i.toNat < strlen gb2312Dat)
    (other : ¬ NarrowChar (byteAt gb2312Dat run.i.toNat))
    (notWide : ¬ (wideRow (byteAt gb2312Dat run.i.toNat) = true ∧
      0xA1 ≤ byteAt gb2312Dat (run.i.toNat + 1))) :
    PassesOver font x gb2312Dat wideRow run
      { run with i := run.i + 1, dispBuf := dispBuf } := by
  have one : (run.i + 1).toNat = run.i.toNat + 1 := counter_add short inside
  rw [byteAt_cString inside] at notWide
  rw [PassesOver, cString_drop inside, one,
    charactersFrom_none other notWide]
  refine ⟨⟨Nat.lt_succ_self _, inside⟩, [], [], ?_, ?_, rfl⟩
  · exact (List.append_nil _).symm
  · exact Draws.nothing _ _

end

/-- A turn passes over one character, or over a byte that is none. -/
theorem charTurn_again (suits : font.Suits wideRow)
    (short : strlen gb2312Dat < 65536) {run next : TextRun}
    (goesOn : charTurn rom stale font x y gb2312Dat blackColor textColor run =
      .again next) :
    PassesOver font x gb2312Dat wideRow run next := by
  have length : (UInt16.ofNat (strlen gb2312Dat)).toNat = strlen gb2312Dat :=
    UInt16.toNat_ofNat_of_lt' short
  simp only [charTurn] at goesOn
  split at goesOn
  next before =>
    have inside : run.i.toNat < strlen gb2312Dat :=
      length ▸ UInt16.lt_iff_toNat_lt.mp before
    split at goesOn
    next narrow =>
      cases goesOn
      exact passesOver_narrow suits short inside narrow
    next other =>
      have lookup := suits.found stale _
        (byteAt gb2312Dat (run.i.toNat + 1)) other
      split at goesOn
      next found =>
        cases goesOn
        exact passesOver_wide suits short inside other (lookup.mp found)
      next missing =>
        cases goesOn
        exact passesOver_none short inside other (lookup.not.mp missing)
  next => cases goesOn

/-- The loop ends at the end of the string. -/
theorem charTurn_done (short : strlen gb2312Dat < 65536) {run final : TextRun}
    (stops : charTurn rom stale font x y gb2312Dat blackColor textColor run =
      .done final) :
    final = run ∧ strlen gb2312Dat ≤ run.i.toNat := by
  have length : (UInt16.ofNat (strlen gb2312Dat)).toNat = strlen gb2312Dat :=
    UInt16.toNat_ofNat_of_lt' short
  simp only [charTurn] at stops
  split at stops
  next =>
    split at stops
    · cases stops
    · split at stops
      · cases stops
      · cases stops
  next past =>
    cases stops
    refine ⟨rfl, ?_⟩
    rw [UInt16.lt_iff_toNat_lt, length] at past
    exact Nat.le_of_not_lt past

/-- What the loop draws from a state on. -/
theorem loop_draws (suits : font.Suits wideRow)
    (short : strlen gb2312Dat < 65536) {turns : Nat} {run final : TextRun}
    (result : loop
      (charTurn rom stale font x y gb2312Dat blackColor textColor) turns run =
        some final) :
    ∃ drawn, final.cells = run.cells ++ drawn ∧
      Draws x.toNat font.step
        (charactersFrom wideRow run.i.toNat
          ((cString gb2312Dat).drop run.i.toNat)) drawn := by
  refine @loop_induction _ _ (fun run final =>
    ∃ drawn, final.cells = run.cells ++ drawn ∧
      Draws x.toNat font.step
        (charactersFrom wideRow run.i.toNat
          ((cString gb2312Dat).drop run.i.toNat)) drawn) ?_ ?_ _ _ _ result
  · intro run final stops
    obtain ⟨rfl, past⟩ := charTurn_done short stops
    refine ⟨[], (List.append_nil _).symm, ?_⟩
    rw [cString_drop_end past, charactersFrom]
    exact Draws.nothing _ _
  · rintro run next final goesOn ⟨later, cells, laterDrawn⟩
    obtain ⟨_, characters, drawn, appended, here, split⟩ :=
      charTurn_again suits short goesOn
    refine ⟨drawn ++ later, ?_, ?_⟩
    · rw [cells, appended, List.append_assoc]
    · rw [split]
      exact here.append laterDrawn

/-- Cells drawn for the characters of a string stay on the screen. -/
theorem Draws.staysOnScreen {start step : Nat} {string : List UInt8}
    {cells : List Cell}
    (drawn : Draws start step (charactersFrom wideRow 0 string) cells) :
    StaysOnScreen wideRow step start string cells where
  inside := by
    intro cell member
    have shown : cell.columns ∈ cells.map Cell.columns :=
      List.mem_map_of_mem member
    rw [drawn.placed] at shown
    exact of_decide_eq_true (List.mem_filter.mp shown).2
  ordered := by
    have columns : (cells.map Cell.columns).Pairwise
        fun first second => first.right ≤ second.left := by
      rw [drawn.placed]
      apply List.Pairwise.filter
      apply List.pairwise_map.mpr
      apply (charactersFrom_ordered 0 string).2.imp
      intro first second behind
      exact Character.place_ordered behind
    exact List.pairwise_map.mp columns
  aligned := drawn.aligned
  placed := drawn.placed

/-- Both functions come to an end, and draw the characters of the string. -/
theorem uiDispChina_draws (suits : font.Suits wideRow)
    (short : strlen gb2312Dat < 65536) :
    ∃ cells,
      uiDispChina rom stale font x y gb2312Dat blackColor textColor =
        some cells ∧
      Draws x.toNat font.step
        (charactersFrom wideRow 0 (cString gb2312Dat)) cells := by
  let start : TextRun :=
    { i := 0, dispBuf := List.replicate 32 0, cells := [] }
  have ends := @loop_isSome _
    (charTurn rom stale font x y gb2312Dat blackColor textColor)
    (fun run => strlen gb2312Dat - run.i.toNat)
    (by
      intro run next goesOn
      have advanced := (charTurn_again suits short goesOn).1
      omega)
    (strlen gb2312Dat + 1) start (Nat.lt_succ_of_le (Nat.sub_le _ _))
  obtain ⟨final, result⟩ := Option.isSome_iff_exists.mp ends
  obtain ⟨drawn, cells, draws⟩ := loop_draws suits short result
  refine ⟨drawn, ?_, draws⟩
  rw [uiDispChina, result]
  exact congrArg some cells

theorem uiDispChina_stays (suits : font.Suits wideRow)
    (short : strlen gb2312Dat < 65536) :
    ∃ cells,
      uiDispChina rom stale font x y gb2312Dat blackColor textColor =
        some cells ∧
      StaysOnScreen wideRow font.step x.toNat (cString gb2312Dat) cells := by
  obtain ⟨cells, result, draws⟩ := uiDispChina_draws suits short
  exact ⟨cells, result, draws.staysOnScreen⟩

theorem uiDispChina_laidOut (suits : font.Suits wideRow)
    (short : strlen gb2312Dat < 65536) {cells : List Cell}
    (drawn : uiDispChina rom stale font x y gb2312Dat blackColor textColor =
      some cells) :
    ∀ cell ∈ cells, cell.upper.LaidOut ∧ cell.lower.LaidOut := by
  obtain ⟨others, result, draws⟩ := uiDispChina_draws suits short
  cases drawn.symm.trans result
  exact draws.laidOut

end

theorem font15x16_suits :
    font15x16.Suits fun lead => WideRow15x16 lead where
  narrowWidth := rfl
  narrowLimit := rfl
  wideWidth := rfl
  wideLimit := rfl
  narrowLow := by decide
  wideLow := by decide
  found := by
    intro stale lead trail other
    rw [decide_eq_true_iff]
    exact gb231215x16_found_iff other

theorem font11x12_suits :
    font11x12.Suits fun lead => WideRow11x12 lead where
  narrowWidth := rfl
  narrowLimit := rfl
  wideWidth := rfl
  wideLimit := rfl
  narrowLow := by decide
  wideLow := by decide
  found := by
    intro stale lead trail other
    rw [decide_eq_true_iff]
    exact gb231211x12_found_iff other

/-- Whatever the string and the start column, both functions come to an end,
and what they draw stays on the screen. -/
theorem bootText_staysOnScreen (rom : Nat → UInt8) (stale : UInt32)
    (x y : UInt16) (gb2312Dat : List UInt8) (blackColor textColor : UInt16)
    (short : strlen gb2312Dat < 65536) :
    (∃ cells,
      uiDispChina15x16 rom stale x y gb2312Dat blackColor textColor =
        some cells ∧
      StaysOnScreen (fun lead => WideRow15x16 lead) 8 x.toNat
        (cString gb2312Dat) cells) ∧
    ∃ cells,
      uiDispChina11x12 rom stale x y gb2312Dat blackColor textColor =
        some cells ∧
      StaysOnScreen (fun lead => WideRow11x12 lead) 6 x.toNat
        (cString gb2312Dat) cells :=
  ⟨uiDispChina_stays font15x16_suits short,
    uiDispChina_stays font11x12_suits short⟩

/-- A string with a byte that is no character, a character that no longer
fits, and a lead byte at its end. -/
theorem bootText_staysOnScreen_cut :
    let gb2312Dat : List UInt8 := [0x41, 0xFF, 0xD6, 0xD0, 0x42, 0xD6]
    (uiDispChina11x12 (fun _ => 0) 0 136 0 gb2312Dat 0 0xFFFF).map
        (fun cells => cells.map Cell.columns) =
      some [{ left := 136, width := 6 }, { left := 148, width := 12 }] ∧
    ∃ cells,
      uiDispChina11x12 (fun _ => 0) 0 136 0 gb2312Dat 0 0xFFFF = some cells ∧
      StaysOnScreen (fun lead => WideRow11x12 lead) 6 136
        (cString gb2312Dat) cells := by
  intro gb2312Dat
  constructor
  · decide
  · exact (bootText_staysOnScreen (fun _ => 0) 0 136 0 gb2312Dat 0 0xFFFF
      (by decide)).2

end Tp79Boot
