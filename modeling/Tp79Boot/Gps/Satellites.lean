import Tp79Boot.Gps.Message

/-!
# Satellites of a `$GPGSV` line

A line lists up to four satellites of four fields each, and a value is taken
at the comma behind it.  The field numbers of the loop are those of the first
satellite and of the fourth; the last value of a line has no comma behind it.
So what a line records is its first satellite, and that only when another one
follows.
-/

namespace Tp79Boot

open FieldScan

def digit (value : Fin 10) : UInt8 :=
  48 + UInt8.ofNat value

def twoDigits (tens units : Fin 10) : List UInt8 :=
  [digit tens, digit units]

/-- A text that can stand between two commas. -/
def Bare (text : List UInt8) : Prop :=
  ∀ byte ∈ text, byte ≠ 0 ∧ byte ≠ comma

instance (text : List UInt8) : Decidable (Bare text) :=
  List.decidableBAll (fun byte => byte ≠ 0 ∧ byte ≠ comma) text

/-- One satellite of a line: number, elevation, azimuth, signal to noise. -/
structure GsvSatellite where
  idTens : Fin 10
  idUnits : Fin 10
  elevation : List UInt8
  azimuth : List UInt8
  snrTens : Fin 10
  snrUnits : Fin 10
  elevationBare : Bare elevation
  azimuthBare : Bare azimuth

namespace GsvSatellite

def fields (satellite : GsvSatellite) : List (List UInt8) :=
  [twoDigits satellite.idTens satellite.idUnits, satellite.elevation,
    satellite.azimuth, twoDigits satellite.snrTens satellite.snrUnits]

def id (satellite : GsvSatellite) : Nat :=
  10 * satellite.idTens.val + satellite.idUnits.val

/-- The place of the satellite in the tables. -/
def entry (satellite : GsvSatellite) : Fin 32 :=
  ⟨satellite.id % 32, Nat.mod_lt _ (by decide)⟩

/-- The two digits of the value as they are kept. -/
def value (satellite : GsvSatellite) : Vector UInt8 4 :=
  #v[digit satellite.snrTens, digit satellite.snrUnits, 0, 0]

end GsvSatellite

def gsvFields (total number inView : List UInt8)
    (satellites : List GsvSatellite) : List (List UInt8) :=
  ascii "$GPGSV" :: total :: number :: inView ::
    satellites.flatMap GsvSatellite.fields

/-- A line: commas between the fields, then a star and the checksum. -/
def gsvText (total number inView : List UInt8)
    (satellites : List GsvSatellite) (checksum : List UInt8) : List UInt8 :=
  [comma].intercalate (gsvFields total number inView satellites) ++
    42 :: checksum

structure GsvLine where
  total : List UInt8
  number : List UInt8
  inView : List UInt8
  satellites : List GsvSatellite
  checksum : List UInt8
  atMostFour : satellites.length ≤ 4
  totalBare : Bare total
  numberBare : Bare number
  inViewBare : Bare inView
  checksumBare : Bare checksum
  short : (gsvText total number inView satellites checksum).length ≤ 255

namespace GsvLine

def fields (line : GsvLine) : List (List UInt8) :=
  gsvFields line.total line.number line.inView line.satellites

def text (line : GsvLine) : List UInt8 :=
  gsvText line.total line.number line.inView line.satellites line.checksum

end GsvLine

/-- The entry of the satellite holds its value, as of now. -/
def GpsSnr.Shows (table : GpsSnr) (satellite : GsvSatellite)
    (sysTickCnt : UInt32) : Prop :=
  table.snr[satellite.entry] = satellite.value ∧
    table.time[satellite.entry] = sysTickCnt

instance (table : GpsSnr) (satellite : GsvSatellite) (sysTickCnt : UInt32) :
    Decidable (table.Shows satellite sysTickCnt) :=
  inferInstanceAs (Decidable (_ ∧ _))

/-- Every satellite of the line is recorded, and no other entry is touched. -/
structure GsvRecorded (line : GsvLine) (sysTickCnt : UInt32)
    (before after : GpsSnr) : Prop where
  shows : ∀ satellite ∈ line.satellites, after.Shows satellite sysTickCnt
  unchanged : ∀ entry : Fin 32,
    (∀ satellite ∈ line.satellites, satellite.entry ≠ entry) →
      after.snr[entry] = before.snr[entry] ∧
        after.time[entry] = before.time[entry]

/-- The first satellite, when another one follows it. -/
def GsvLine.followed (line : GsvLine) : Option GsvSatellite :=
  match line.satellites with
  | first :: _ :: _ => some first
  | _ => none

/-- A satellite that needs no recording, because its entry shows it already, or
that has entry and value of the one that is recorded. -/
def GsvLine.Covered (line : GsvLine) (sysTickCnt : UInt32) (before : GpsSnr)
    (satellite : GsvSatellite) : Prop :=
  match line.followed with
  | some first =>
      if satellite.entry = first.entry then satellite.value = first.value
      else before.Shows satellite sysTickCnt
  | none => before.Shows satellite sysTickCnt

theorem digit_bare (value : Fin 10) :
    digit value ≠ 0 ∧ digit value ≠ comma := by
  revert value
  decide

theorem twoDigits_bare (tens units : Fin 10) : Bare (twoDigits tens units) := by
  intro byte member
  rcases List.mem_cons.mp member with rfl | later
  · exact digit_bare tens
  · rw [List.mem_singleton.mp later]
    exact digit_bare units

theorem GsvSatellite.fields_bare (satellite : GsvSatellite) :
    ∀ field ∈ satellite.fields, Bare field := by
  intro field member
  simp only [GsvSatellite.fields, List.mem_cons, List.not_mem_nil,
    or_false] at member
  rcases member with rfl | rfl | rfl | rfl
  · exact twoDigits_bare _ _
  · exact satellite.elevationBare
  · exact satellite.azimuthBare
  · exact twoDigits_bare _ _

theorem gsvHead_bare : Bare (ascii "$GPGSV") := by
  decide

section

variable (line : GsvLine)

theorem GsvLine.fields_bare : ∀ field ∈ line.fields, Bare field := by
  intro field member
  simp only [GsvLine.fields, gsvFields, List.mem_cons,
    List.mem_flatMap] at member
  rcases member with rfl | rfl | rfl | rfl | ⟨satellite, _, inside⟩
  · exact gsvHead_bare
  · exact line.totalBare
  · exact line.numberBare
  · exact line.inViewBare
  · exact satellite.fields_bare field inside

theorem GsvLine.fields_noComma : ∀ field ∈ line.fields, comma ∉ field := by
  intro field member inside
  exact (line.fields_bare field member comma inside).2 rfl

theorem GsvLine.tail_noComma : comma ∉ 42 :: line.checksum := by
  intro member
  rcases List.mem_cons.mp member with star | inside
  · exact absurd star (by decide)
  · exact (line.checksumBare comma inside).2 rfl

theorem GsvLine.text_nonzero : ∀ byte ∈ line.text, byte ≠ 0 := by
  intro byte member
  rcases List.mem_append.mp member with inFields | inTail
  · rcases mem_intercalate inFields with rfl | ⟨field, among, inside⟩
    · decide
    · exact (line.fields_bare field among byte inside).1
  · rcases List.mem_cons.mp inTail with rfl | inside
    · decide
    · exact (line.checksumBare byte inside).1

theorem GsvLine.marks_text :
    marks comma (scanned line.text) =
      (List.range (line.fields.length - 1)).map (fieldMark line.fields) := by
  rw [scanned_eq line.text_nonzero line.short]
  exact marks_eq_map line.fields_noComma line.tail_noComma

private theorem idOfDigits (tens units : Fin 10) :
    (digit units - 48) + (digit tens - 48) * 10 =
      UInt8.ofNat (10 * tens.val + units.val) := by
  revert tens units
  decide

variable {line} {number : Nat} {tens units : Fin 10}

theorem twoDigits_place
    (numbered : line.fields[number]? = some (twoDigits tens units)) :
    (fieldMark line.fields number).place = fieldStart line.fields number + 2 ∧
      byteAt line.text (fieldStart line.fields number) = digit tens ∧
      byteAt line.text (fieldStart line.fields number + 1) = digit units := by
  refine ⟨?_, ?_, ?_⟩
  · rw [fieldMark, List.getD_eq_getElem?_getD, numbered]
    rfl
  · exact byteAt_fieldStart numbered _ (Nat.zero_lt_succ 1)
  · exact byteAt_fieldStart numbered _ (Nat.lt_succ_self 1)

theorem gsvId_field
    (numbered : line.fields[number]? = some (twoDigits tens units)) :
    gsvId line.text (fieldMark line.fields number).place =
      UInt8.ofNat (10 * tens.val + units.val) := by
  obtain ⟨place, first, last⟩ := twoDigits_place numbered
  rw [gsvId, place]
  exact (congrArg₂ (fun low high => (low - 48) + (high - 48) * 10) last
    first).trans (idOfDigits tens units)

theorem gsvSnr_field (behind : 0 < fieldStart line.fields number)
    (numbered : line.fields[number]? = some (twoDigits tens units)) :
    gsvSnr line.text (fieldMark line.fields number) =
      #v[digit tens, digit units, 0, 0] := by
  obtain ⟨place, first, last⟩ := twoDigits_place numbered
  have distance : fieldStart line.fields number + 2 -
      (fieldMark line.fields number).last = 3 := by
    change fieldStart line.fields number + 2 -
      (fieldStart line.fields number - 1) = 3
    omega
  rw [gsvSnr, place, if_pos distance]
  exact congrArg₂ (fun one two => #v[one, two, 0, 0]) first last

theorem snrEntry_id (satellite : GsvSatellite) :
    snrEntry (UInt8.ofNat satellite.id) = satellite.entry := by
  have small : satellite.id < 256 := by
    have tens := satellite.idTens.isLt
    have units := satellite.idUnits.isLt
    rw [GsvSatellite.id]
    omega
  apply Fin.ext
  change (UInt8.ofNat satellite.id).toNat % 32 = satellite.id % 32
  rw [UInt8.toNat_ofNat_of_lt' small]

end

section

variable {line : GsvLine} {sysTickCnt : UInt32} {state : GsvScan}

theorem gsv_eq_foldl :
    gsv line.text sysTickCnt state =
      (List.range (line.fields.length - 1)).foldl
        (fun state number =>
          gsvAct line.text sysTickCnt state (fieldMark line.fields number))
        state := by
  rw [gsv, scan_eq_foldl, line.marks_text, List.foldl_map]

theorem gsv_none (empty : line.satellites = []) :
    (gsv line.text sysTickCnt state).table = state.table := by
  have fields : line.fields.length - 1 = 3 := by
    rw [GsvLine.fields, gsvFields, empty]
    rfl
  rw [gsv_eq_foldl, fields]
  rfl

theorem gsv_single {first : GsvSatellite}
    (single : line.satellites = [first]) :
    (gsv line.text sysTickCnt state).table = state.table := by
  have fields : line.fields.length - 1 = 7 := by
    rw [GsvLine.fields, gsvFields, single]
    rfl
  rw [gsv_eq_foldl, fields]
  rfl

/-- The first of several satellites is recorded.  The number of the fourth is
taken too, but not its value. -/
theorem gsv_several {first second : GsvSatellite} {later : List GsvSatellite}
    (several : line.satellites = first :: second :: later) :
    (gsv line.text sysTickCnt state).table =
      state.table.record (UInt8.ofNat first.id) first.value sysTickCnt := by
  have firstId : line.fields[4]? =
      some (twoDigits first.idTens first.idUnits) := by
    rw [GsvLine.fields, gsvFields, several]
    rfl
  have firstSnr : line.fields[7]? =
      some (twoDigits first.snrTens first.snrUnits) := by
    rw [GsvLine.fields, gsvFields, several]
    rfl
  have behind : 0 < fieldStart line.fields 7 := by
    rw [GsvLine.fields, gsvFields, fieldStart_cons_succ]
    exact Nat.lt_of_lt_of_le (Nat.succ_pos _) (Nat.le_add_right _ _)
  have taken : (gsv line.text sysTickCnt state).table =
      state.table.record (gsvId line.text (fieldMark line.fields 4).place)
        (gsvSnr line.text (fieldMark line.fields 7)) sysTickCnt := by
    have few := line.atMostFour
    rw [several] at few
    rw [gsv_eq_foldl]
    match later with
    | [] =>
        have fields : line.fields.length - 1 = 11 := by
          rw [GsvLine.fields, gsvFields, several]
          rfl
        rw [fields]
        rfl
    | [third] =>
        have fields : line.fields.length - 1 = 15 := by
          rw [GsvLine.fields, gsvFields, several]
          rfl
        rw [fields]
        rfl
    | [third, fourth] =>
        have fields : line.fields.length - 1 = 19 := by
          rw [GsvLine.fields, gsvFields, several]
          rfl
        rw [fields]
        rfl
    | _ :: _ :: _ :: _ =>
        simp only [List.length_cons] at few
        omega
  rw [taken, gsvId_field firstId, gsvSnr_field behind firstSnr]
  rfl

theorem gsv_table :
    (gsv line.text sysTickCnt state).table =
      match line.followed with
      | some first =>
          state.table.record (UInt8.ofNat first.id) first.value sysTickCnt
      | none => state.table := by
  rw [GsvLine.followed]
  match satellites : line.satellites with
  | [] => exact gsv_none satellites
  | [first] => exact gsv_single satellites
  | first :: second :: later => exact gsv_several satellites

theorem followed_mem {first : GsvSatellite}
    (followed : line.followed = some first) : first ∈ line.satellites := by
  rw [GsvLine.followed] at followed
  split at followed
  next several =>
    rw [several, ← Option.some.inj followed]
    exact List.mem_cons_self
  next => cases followed

end

section

variable {table : GpsSnr} {satellite first : GsvSatellite} {id : UInt8}
  {value : Vector UInt8 4} {entry : Fin 32} {sysTickCnt : UInt32}

theorem record_same (here : snrEntry id = entry) :
    (table.record id value sysTickCnt).snr[entry] = value ∧
      (table.record id value sysTickCnt).time[entry] = sysTickCnt := by
  subst here
  exact ⟨Vector.getElem_set_self _, Vector.getElem_set_self _⟩

theorem record_other (other : snrEntry id ≠ entry) :
    (table.record id value sysTickCnt).snr[entry] = table.snr[entry] ∧
      (table.record id value sysTickCnt).time[entry] = table.time[entry] := by
  have places : (snrEntry id).val ≠ entry.val := Fin.val_ne_of_ne other
  constructor
  · exact Vector.getElem_set_ne (snrEntry id).isLt entry.isLt places
  · exact Vector.getElem_set_ne (snrEntry id).isLt entry.isLt places

theorem shows_record_same (same : satellite.entry = first.entry) :
    (table.record (UInt8.ofNat first.id) first.value sysTickCnt).Shows satellite
        sysTickCnt ↔
      satellite.value = first.value := by
  have here : snrEntry (UInt8.ofNat first.id) = satellite.entry :=
    (snrEntry_id first).trans same.symm
  obtain ⟨snr, time⟩ := @record_same table _ first.value _ sysTickCnt here
  rw [GpsSnr.Shows, snr, time]
  exact ⟨fun shown => shown.1.symm, fun equal => ⟨equal.symm, rfl⟩⟩

theorem shows_record_other (other : satellite.entry ≠ first.entry) :
    (table.record (UInt8.ofNat first.id) first.value sysTickCnt).Shows satellite
        sysTickCnt ↔
      table.Shows satellite sysTickCnt := by
  have elsewhere : snrEntry (UInt8.ofNat first.id) ≠ satellite.entry := by
    rw [snrEntry_id]
    exact Ne.symm other
  obtain ⟨snr, time⟩ :=
    @record_other table _ first.value _ sysTickCnt elsewhere
  rw [GpsSnr.Shows, snr, time, GpsSnr.Shows]

end

section

variable {line : GsvLine} {sysTickCnt : UInt32} {state : GsvScan}

theorem gsv_shows_iff {satellite : GsvSatellite} :
    (gsv line.text sysTickCnt state).table.Shows satellite sysTickCnt ↔
      line.Covered sysTickCnt state.table satellite := by
  rw [gsv_table, GsvLine.Covered]
  cases line.followed with
  | none => exact Iff.rfl
  | some first =>
      by_cases same : satellite.entry = first.entry
      · simp only [same, if_true]
        exact shows_record_same same
      · simp only [same, if_false]
        exact shows_record_other same

theorem gsv_unchanged {entry : Fin 32}
    (absent : ∀ satellite ∈ line.satellites, satellite.entry ≠ entry) :
    (gsv line.text sysTickCnt state).table.snr[entry] =
        state.table.snr[entry] ∧
      (gsv line.text sysTickCnt state).table.time[entry] =
        state.table.time[entry] := by
  rw [gsv_table]
  cases followed : line.followed with
  | none => exact ⟨rfl, rfl⟩
  | some first =>
      apply record_other
      rw [snrEntry_id]
      exact absent first (followed_mem followed)

end

/-- What `gps_uart_msg_deal` does with the line: the table of `gsv`, and
nothing else of the device changes. -/
theorem gpsUartMsgDeal_gsv
    (convert : Vector UInt8 32 → Nat → Vector UInt8 32) (line : GsvLine)
    (sysTickCnt : UInt32) (state : GpsState) :
    gpsUartMsgDeal convert sysTickCnt state line.text =
      some
        { device :=
            { state.device with
              snr := (gsv line.text sysTickCnt
                { table := state.device.snr, id := state.id }).table }
          id := (gsv line.text sysTickCnt
            { table := state.device.snr, id := state.id }).id } := by
  have text : line.text = ascii "$GPGSV" ++ comma ::
      ([comma].intercalate (line.total :: line.number :: line.inView ::
        line.satellites.flatMap GsvSatellite.fields) ++
          42 :: line.checksum) := by
    rw [GsvLine.text, gsvText, gsvFields, List.intercalate_cons_cons]
    simp
  have notGga : ¬ memcmpEq line.text 0 (ascii "$GPGGA") 6 := by
    rw [text, memcmpEq_front _ _ (by decide)]
    decide
  have isGsv : memcmpEq line.text 0 (ascii "$GPGSV") 6 := by
    rw [text, memcmpEq_front _ _ (by decide)]
    rfl
  rw [gpsUartMsgDeal, if_neg notGga, if_pos isGsv]

/-- A line is recorded in full exactly when every satellite on it is covered by
the first, or by what the table shows already. -/
theorem gsvLine_recorded
    (convert : Vector UInt8 32 → Nat → Vector UInt8 32) (line : GsvLine)
    (sysTickCnt : UInt32) (state : GpsState) :
    ∃ after, gpsUartMsgDeal convert sysTickCnt state line.text = some after ∧
      (GsvRecorded line sysTickCnt state.device.snr after.device.snr ↔
        ∀ satellite ∈ line.satellites,
          line.Covered sysTickCnt state.device.snr satellite) := by
  refine ⟨_, gpsUartMsgDeal_gsv convert line sysTickCnt state, ?_⟩
  change GsvRecorded line sysTickCnt state.device.snr
    (gsv line.text sysTickCnt
      { table := state.device.snr, id := state.id }).table ↔ _
  constructor
  · intro recorded satellite member
    exact gsv_shows_iff.mp (recorded.shows satellite member)
  · intro all
    constructor
    · intro satellite member
      exact gsv_shows_iff.mpr (all satellite member)
    · intro entry absent
      exact gsv_unchanged absent

/-- `$GPGSV,1,1,02,05,40,083,46,17,30,120,38*7F`. -/
def twoInView : GsvLine where
  total := ascii "1"
  number := ascii "1"
  inView := ascii "02"
  satellites :=
    [{ idTens := 0, idUnits := 5, elevation := ascii "40",
       azimuth := ascii "083", snrTens := 4, snrUnits := 6,
       elevationBare := by decide, azimuthBare := by decide },
      { idTens := 1, idUnits := 7, elevation := ascii "30",
        azimuth := ascii "120", snrTens := 3, snrUnits := 8,
        elevationBare := by decide, azimuthBare := by decide }]
  checksum := ascii "7F"
  atMostFour := by decide
  totalBare := by decide
  numberBare := by decide
  inViewBare := by decide
  checksumBare := by decide
  short := by decide

/-- The second of two satellites is lost. -/
theorem gsvLine_second_lost :
    ∃ after,
      gpsUartMsgDeal (fun field _ => field) 5000
          { device := GpsDevice.start, id := 0 } twoInView.text = some after ∧
        ¬ GsvRecorded twoInView 5000 GpsDevice.start.snr after.device.snr := by
  refine ⟨_, gpsUartMsgDeal_gsv _ twoInView _ _, ?_⟩
  intro recorded
  have second := recorded.shows _
    (List.mem_cons_of_mem _ List.mem_cons_self)
  change (gsv twoInView.text 5000 { table := GpsDevice.start.snr, id := 0 }).table.Shows
    _ 5000 at second
  rw [gsv_table] at second
  exact absurd second.2 (by decide)

end Tp79Boot
