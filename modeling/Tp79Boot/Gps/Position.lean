import Tp79Boot.Gps.Message

/-!
# Copies of a `$GPGGA` line

The converter copies from where a field starts to the end of the line, so what
decides whether a copy stays inside is how much of the line follows the
latitude, not how long the latitude is.
-/

namespace Tp79Boot

open FieldScan

/-- A copy stays inside the field of `gps_device` it is for. -/
def GgaWrite.Inside : GgaWrite → Prop
  | .value _ offset bytes => offset + bytes.length ≤ 32
  | .satellitesSum bytes => bytes.length ≤ 4
  | _ => True

/-- A byte that is taken is not the comma in front of an empty field. -/
def GgaWrite.Taken : GgaWrite → Prop
  | .ns byte => byte ≠ comma
  | .ew byte => byte ≠ comma
  | .positionState byte => byte ≠ comma
  | _ => True

/-- All writes of a line keep to their fields. -/
def GgaKept (line : List UInt8) : Prop :=
  ∀ write ∈ gga line, write.Inside ∧ write.Taken

/-- When the fields of a line allow this.  Only fields with a comma behind them
count, which are those in front of the last. -/
structure GgaFits (fields : List (List UInt8)) : Prop where
  latitude : 3 < fields.length →
    ([comma].intercalate (fields.drop 2)).length ≤ 31
  northSouth : 4 < fields.length → fields.getD 3 [] ≠ []
  eastWest : 6 < fields.length → fields.getD 5 [] ≠ []
  positionState : 7 < fields.length → fields.getD 6 [] ≠ []
  satellites : 8 < fields.length → (fields.getD 7 []).length ≤ 4

theorem copyInto_isSome {size : Nat} (field : Vector UInt8 size)
    (offset : Nat) (bytes : List UInt8) :
    (copyInto field offset bytes).isSome ↔ offset + bytes.length ≤ size := by
  rw [copyInto]
  split
  next inside => simp [inside]
  next outside => simp [outside]

theorem write_isSome (convert : Vector UInt8 32 → Nat → Vector UInt8 32)
    (device : GpsDevice) (write : GgaWrite) :
    (device.write convert write).isSome ↔ write.Inside := by
  cases write with
  | value target offset bytes =>
      cases target with
      | nsValue =>
          rw [GpsDevice.write, Option.isSome_map, copyInto_isSome]
          rfl
      | ewValue =>
          rw [GpsDevice.write, Option.isSome_map, copyInto_isSome]
          rfl
  | convert target offset =>
      cases target with
      | nsValue => simp [GpsDevice.write, GgaWrite.Inside]
      | ewValue => simp [GpsDevice.write, GgaWrite.Inside]
  | ns byte => simp [GpsDevice.write, GgaWrite.Inside]
  | ew byte => simp [GpsDevice.write, GgaWrite.Inside]
  | positionState byte => simp [GpsDevice.write, GgaWrite.Inside]
  | satellitesSum bytes =>
      rw [GpsDevice.write, Option.isSome_map, copyInto_isSome, Nat.zero_add]
      rfl

theorem writes_isSome (convert : Vector UInt8 32 → Nat → Vector UInt8 32)
    (device : GpsDevice) (writes : List GgaWrite) :
    (writes.foldlM (GpsDevice.write convert) device).isSome ↔
      ∀ write ∈ writes, write.Inside := by
  induction writes generalizing device with
  | nil => simp
  | cons write writes induction =>
      rw [List.foldlM_cons, List.forall_mem_cons,
        ← write_isSome convert device write]
      cases device.write convert write with
      | none => simp
      | some after => simpa using induction after

/-- The device after a position sentence is known exactly when all its copies
stay inside. -/
theorem gpsUartMsgDeal_isSome
    (convert : Vector UInt8 32 → Nat → Vector UInt8 32) (sysTickCnt : UInt32)
    (state : GpsState) {line : List UInt8}
    (isGga : memcmpEq line 0 (ascii "$GPGGA") 6) :
    (gpsUartMsgDeal convert sysTickCnt state line).isSome ↔
      ∀ write ∈ gga line, write.Inside := by
  rw [gpsUartMsgDeal, if_pos isGga, Option.isSome_map, writes_isSome]

section

variable {fields : List (List UInt8)} {number : Nat}

theorem byteAt_fieldMark (inside : number + 1 < fields.length) :
    byteAt ([comma].intercalate fields) (fieldMark fields number).place =
      comma := by
  have separated := @getElem?_fieldMark _ comma _ _ inside []
  rw [List.append_nil] at separated
  rw [byteAt, List.getD_eq_getElem?_getD, separated]
  rfl

theorem fieldMark_last (behind : number < fields.length) :
    (fieldMark fields (number + 1)).last = (fieldMark fields number).place := by
  rw [fieldMark, fieldStart_succ behind]
  rfl

theorem fieldMark_place (inside : number + 1 < fields.length) :
    (fieldMark fields (number + 1)).place =
      (fieldMark fields number).place + 1 + fields[number + 1].length := by
  rw [← fieldStart_succ (Nat.lt_of_succ_lt inside),
    ← List.getD_eq_getElem _ [] inside]
  rfl

/-- The byte in front of a comma is a comma only when the field is empty. -/
theorem byteBefore_eq_comma_iff
    (noComma : ∀ field ∈ fields, comma ∉ field)
    (inside : number + 1 < fields.length) :
    byteAt ([comma].intercalate fields)
        ((fieldMark fields (number + 1)).place - 1) = comma ↔
      fields.getD (number + 1) [] = [] := by
  rw [List.getD_eq_getElem _ _ inside]
  have place := fieldMark_place inside
  constructor
  · intro isComma
    by_contra nonempty
    have positive : 0 < fields[number + 1].length :=
      List.length_pos_iff.mpr nonempty
    have within : fields[number + 1].length - 1 < fields[number + 1].length :=
      Nat.sub_lt positive Nat.one_pos
    have before : (fieldMark fields (number + 1)).place - 1 =
        fieldStart fields (number + 1) + (fields[number + 1].length - 1) := by
      rw [place, fieldStart_succ (Nat.lt_of_succ_lt inside)]
      omega
    have final := byteAt_fieldStart (List.getElem?_eq_getElem inside) [] within
    rw [List.append_nil, ← before, isComma, byteAt_of_lt within] at final
    apply noComma _ (List.getElem_mem inside)
    rw [final]
    exact List.getElem_mem within
  · intro empty
    rw [place, empty]
    exact byteAt_fieldMark inside

end

section

variable {fields : List (List UInt8)} {number : Nat}
  (nonzero : ∀ byte ∈ [comma].intercalate fields, byte ≠ 0)

include nonzero

theorem strlen_drop_fieldStart (inside : number < fields.length) (further : Nat) :
    strlen (([comma].intercalate fields).drop
        (fieldStart fields number + further)) =
      ([comma].intercalate (fields.drop number)).length - further := by
  have rest := @drop_fieldStart _ comma fields number inside []
  rw [List.append_nil, List.append_nil] at rest
  rw [← List.drop_drop, rest, strlen_of_nonzero, List.length_drop]
  intro byte member
  rw [← rest] at member
  exact nonzero byte (List.mem_of_mem_drop (List.mem_of_mem_drop member))

omit nonzero in
theorem last_succ (inside : number < fields.length) :
    (fieldMark fields (number + 1)).last + 1 =
      fieldStart fields (number + 1) := by
  rw [fieldMark_last inside, fieldStart_succ inside]

/-- The writes at the comma behind a field keep to their fields. -/
def FieldKept (fields : List (List UInt8)) (number : Nat) : Prop :=
  ∀ write ∈ ggaWrites ([comma].intercalate fields) (fieldMark fields number),
    write.Inside ∧ write.Taken

theorem latitude_kept (inside : 3 < fields.length) :
    FieldKept fields 2 ↔ ([comma].intercalate (fields.drop 2)).length ≤ 31 := by
  have here : 2 < fields.length := Nat.lt_of_succ_lt inside
  have start : (fieldMark fields 2).last + 1 = fieldStart fields 2 :=
    last_succ (Nat.lt_of_succ_lt here)
  have rest := strlen_drop_fieldStart nonzero here 0
  have writes : ggaWrites ([comma].intercalate fields) (fieldMark fields 2) =
      ddmm2dd ([comma].intercalate fields) (fieldStart fields 2) .nsValue 0 := by
    rw [← start]
    rfl
  rw [Nat.add_zero, Nat.sub_zero] at rest
  rw [FieldKept, writes, ddmm2dd, rest]
  simp only [List.forall_mem_cons, List.not_mem_nil, false_imp_iff,
    implies_true, GgaWrite.Inside, GgaWrite.Taken, bytesAt_length, and_true]
  omega

theorem longitude_kept (inside : 5 < fields.length) :
    FieldKept fields 4 ↔ ([comma].intercalate (fields.drop 4)).length ≤ 31 := by
  have here : 4 < fields.length := Nat.lt_of_succ_lt inside
  have start : (fieldMark fields 4).last + 1 = fieldStart fields 4 :=
    last_succ (Nat.lt_of_succ_lt here)
  have rest := strlen_drop_fieldStart nonzero here 1
  have writes : ggaWrites ([comma].intercalate fields) (fieldMark fields 4) =
      .value .ewValue 0 [byteAt ([comma].intercalate fields)
          (fieldStart fields 4)] ::
        ddmm2dd ([comma].intercalate fields) (fieldStart fields 4 + 1)
          .ewValue 1 := by
    rw [← start]
    rfl
  have some : 0 < ([comma].intercalate (fields.drop 4)).length := by
    rw [List.drop_eq_getElem_cons here, List.drop_eq_getElem_cons inside,
      List.intercalate_cons_cons, List.append_assoc, List.singleton_append,
      List.length_append]
    exact Nat.add_pos_right _ (Nat.succ_pos _)
  rw [FieldKept, writes, ddmm2dd, rest]
  simp only [List.forall_mem_cons, List.not_mem_nil, false_imp_iff,
    implies_true, GgaWrite.Inside, GgaWrite.Taken, bytesAt_length,
    List.length_singleton, and_true]
  omega

omit nonzero in
theorem indicator_kept (noComma : ∀ field ∈ fields, comma ∉ field)
    (inside : number + 1 < fields.length)
    (indicator : number + 1 = 3 ∨ number + 1 = 5 ∨ number + 1 = 6) :
    FieldKept fields (number + 1) ↔ fields.getD (number + 1) [] ≠ [] := by
  rw [← (byteBefore_eq_comma_iff noComma inside).ne, FieldKept]
  rcases indicator with north | east | state
  · obtain rfl : number = 2 := by omega
    change (∀ write ∈ [GgaWrite.ns _], _) ↔ _
    simp [GgaWrite.Inside, GgaWrite.Taken]
  · obtain rfl : number = 4 := by omega
    change (∀ write ∈ [GgaWrite.ew _], _) ↔ _
    simp [GgaWrite.Inside, GgaWrite.Taken]
  · obtain rfl : number = 5 := by omega
    change (∀ write ∈ [GgaWrite.positionState _], _) ↔ _
    simp [GgaWrite.Inside, GgaWrite.Taken]

omit nonzero in
theorem satellites_kept (inside : 7 < fields.length) :
    FieldKept fields 7 ↔ (fields.getD 7 []).length ≤ 4 := by
  have start : (fieldMark fields 7).last + 1 = fieldStart fields 7 :=
    last_succ (Nat.lt_of_succ_lt inside)
  have count : (fieldMark fields 7).place - (fieldMark fields 7).last - 1 =
      (fields.getD 7 []).length := by
    rw [Nat.sub_sub, start]
    exact Nat.add_sub_cancel_left _ _
  have writes : ggaWrites ([comma].intercalate fields) (fieldMark fields 7) =
      [.satellitesSum (List.replicate 4 0),
        .satellitesSum (bytesAt ([comma].intercalate fields)
          ((fieldMark fields 7).last + 1)
          ((fieldMark fields 7).place - (fieldMark fields 7).last - 1))] := rfl
  rw [FieldKept, writes, count]
  simp [GgaWrite.Inside, GgaWrite.Taken]

omit nonzero in
theorem other_kept (other : number < 2 ∨ 7 < number) :
    FieldKept fields number := by
  have writes : ggaWrites ([comma].intercalate fields)
      (fieldMark fields number) = [] := by
    have count : (fieldMark fields number).count = number := rfl
    rw [ggaWrites, count, if_neg (by omega), if_neg (by omega),
      if_neg (by omega), if_neg (by omega), if_neg (by omega),
      if_neg (by omega)]
  rw [FieldKept, writes]
  exact List.forall_mem_nil _

end

theorem gga_eq_fields {fields : List (List UInt8)}
    (noComma : ∀ field ∈ fields, comma ∉ field)
    (nonzero : ∀ byte ∈ [comma].intercalate fields, byte ≠ 0)
    (short : ([comma].intercalate fields).length ≤ 255) :
    gga ([comma].intercalate fields) =
      (List.range (fields.length - 1)).flatMap fun number =>
        ggaWrites ([comma].intercalate fields) (fieldMark fields number) := by
  have marked := marks_eq_map noComma (List.not_mem_nil (a := comma))
  rw [List.append_nil] at marked
  rw [gga_eq_flatMap, scanned_eq nonzero short, marked, List.flatMap_map]

theorem ggaKept_iff_fields {fields : List (List UInt8)}
    (noComma : ∀ field ∈ fields, comma ∉ field)
    (nonzero : ∀ byte ∈ [comma].intercalate fields, byte ≠ 0)
    (short : ([comma].intercalate fields).length ≤ 255) :
    GgaKept ([comma].intercalate fields) ↔
      ∀ number, number + 1 < fields.length → FieldKept fields number := by
  rw [GgaKept, gga_eq_fields noComma nonzero short]
  simp only [List.mem_flatMap, List.mem_range]
  constructor
  · intro kept number inside write member
    exact kept write ⟨number, Nat.lt_sub_of_add_lt inside, member⟩
  · rintro kept write ⟨number, inside, member⟩
    exact kept number (Nat.add_lt_of_lt_sub inside) write member

/-- Field by field, the writes keep to their fields exactly when these fit. -/
theorem fieldsKept_iff_fits {fields : List (List UInt8)}
    (noComma : ∀ field ∈ fields, comma ∉ field)
    (nonzero : ∀ byte ∈ [comma].intercalate fields, byte ≠ 0) :
    (∀ number, number + 1 < fields.length → FieldKept fields number) ↔
      GgaFits fields := by
  constructor
  · intro kept
    constructor
    · intro inside
      exact (latitude_kept nonzero inside).mp (kept 2 inside)
    · intro inside
      exact (indicator_kept noComma (Nat.lt_of_succ_lt inside) (.inl rfl)).mp
        (kept 3 inside)
    · intro inside
      exact (indicator_kept noComma (Nat.lt_of_succ_lt inside)
        (.inr (.inl rfl))).mp (kept 5 inside)
    · intro inside
      exact (indicator_kept noComma (Nat.lt_of_succ_lt inside)
        (.inr (.inr rfl))).mp (kept 6 inside)
    · intro inside
      exact (satellites_kept (Nat.lt_of_succ_lt inside)).mp (kept 7 inside)
  · intro fits number inside
    match number with
    | 0 => exact other_kept (.inl (by decide))
    | 1 => exact other_kept (.inl (by decide))
    | 2 => exact (latitude_kept nonzero inside).mpr (fits.latitude inside)
    | 3 =>
        exact (indicator_kept noComma (Nat.lt_of_succ_lt inside)
          (.inl rfl)).mpr (fits.northSouth inside)
    | 4 =>
        have latitude := fits.latitude (by omega)
        have further := intercalate_drop_length_le comma (fields.drop 2) 2
        rw [List.drop_drop] at further
        exact (longitude_kept nonzero inside).mpr
          (Nat.le_trans further latitude)
    | 5 =>
        exact (indicator_kept noComma (Nat.lt_of_succ_lt inside)
          (.inr (.inl rfl))).mpr (fits.eastWest inside)
    | 6 =>
        exact (indicator_kept noComma (Nat.lt_of_succ_lt inside)
          (.inr (.inr rfl))).mpr (fits.positionState inside)
    | 7 =>
        exact (satellites_kept (Nat.lt_of_succ_lt inside)).mpr
          (fits.satellites inside)
    | number + 8 => exact other_kept (.inr (by omega))

/-- The writes of a line keep to their fields exactly when its fields fit. -/
theorem gga_kept_iff {line : List UInt8} (nonzero : ∀ byte ∈ line, byte ≠ 0)
    (short : line.length ≤ 255) :
    GgaKept line ↔ GgaFits (line.splitOn comma) := by
  have joined : [comma].intercalate (line.splitOn comma) = line :=
    List.intercalate_splitOn comma
  have noComma : ∀ field ∈ line.splitOn comma, comma ∉ field := by
    intro field member
    exact not_mem_of_mem_splitOn member
  rw [← joined] at nonzero short
  have byField := ggaKept_iff_fields noComma nonzero short
  rw [joined] at byField
  rw [byField]
  exact fieldsKept_iff_fits noComma nonzero

/-- A line with so little behind the latitude that its copy fits. -/
def shortPosition : List UInt8 :=
  ascii "$GPGGA,1,4250.5,S,147,E,1,0,"

theorem gga_kept_short : GgaKept shortPosition := by
  apply (gga_kept_iff (nonzero_of_all (by decide)) (by decide)).mpr
  constructor
  · decide
  · decide
  · decide
  · decide
  · decide

def ordinaryFields : List (List UInt8) :=
  [ascii "$GPGGA", ascii "092204.999", ascii "4250.5589", ascii "S",
    ascii "14718.5084", ascii "E", ascii "1", ascii "04", ascii "24.4",
    ascii "19.7", ascii "M", [], [], [], ascii "0000*1F"]

/-- `$GPGGA,092204.999,4250.5589,S,14718.5084,E,1,04,24.4,19.7,M,,,,0000*1F` -/
def ordinaryPosition : List UInt8 :=
  [comma].intercalate ordinaryFields

/-- Fifty-two bytes of the line and its zero are copied into the latitude. -/
theorem gga_ordinary_overruns :
    memcmpEq ordinaryPosition 0 (ascii "$GPGGA") 6 ∧
      ¬ GgaKept ordinaryPosition := by
  have noComma : ∀ field ∈ ordinaryFields, comma ∉ field := by decide
  have nonzero : ∀ byte ∈ [comma].intercalate ordinaryFields, byte ≠ 0 :=
    nonzero_of_all (by decide)
  constructor
  · decide
  · intro kept
    have latitude := (ggaKept_iff_fields noComma nonzero (by decide)).mp kept 2
      (by decide)
    have fits := (latitude_kept nonzero (by decide)).mp latitude
    exact absurd fits (by decide)

end Tp79Boot
