import Tp79Boot.WriteCode.Positions

/-!
# Reading one field

What the parser stores where a printed field stands in the message: a text
between its delimiters, or a text in hexadecimal between a name and a
semicolon.
-/

namespace Tp79Boot

theorem strlen_text {text memory : List UInt8}
    (nonzero : ∀ byte ∈ text, byte ≠ 0)
    (begins : Stands memory 0 text) (ends : byteAt memory text.length = 0) :
    memory.takeWhile (fun byte => byte != 0) = text := by
  induction text generalizing memory with
  | nil =>
      cases memory with
      | nil => rfl
      | cons first memory =>
          have zero : first = 0 := ends
          simp [zero]
  | cons byte text induction =>
      cases memory with
      | nil =>
          have first : (0 : UInt8) = byte := (stands_cons.mp begins).1
          exact absurd first.symm (nonzero byte List.mem_cons_self)
      | cons first memory =>
          have here : first = byte := (stands_cons.mp begins).1
          have later : Stands memory 0 text := by
            intro place inside
            have entry := (stands_cons.mp begins).2 place inside
            rw [Nat.zero_add, Nat.add_comm] at entry
            rwa [Nat.zero_add]
          have set : (first != 0) = true := by
            rw [here]
            exact bne_iff_ne.mpr (nonzero byte List.mem_cons_self)
          rw [List.takeWhile_cons, if_pos set, here,
            induction (fun b member => nonzero b (List.mem_cons_of_mem _ member))
              later ends]

/-- A field that is filled with a text holds this text. -/
theorem fill_text {size : Nat} {source text : List UInt8}
    (short : text.length ≤ size) (nonzero : ∀ byte ∈ text, byte ≠ 0)
    (stands : Stands source 0 text) :
    (TextField.fill size source text.length).text = text := by
  have whole : text.length % (size + 1) = text.length :=
    Nat.mod_eq_of_lt (Nat.lt_succ_of_le short)
  have entry {place : Nat} (bound : place < size + 1) :
      byteAt (TextField.fill size source text.length).bytes.toList place =
        if place < text.length then byteAt source place else 0 := by
    rw [byteAt_toList _ bound]
    simp [TextField.fill, whole]
  apply strlen_text nonzero
  · intro place inside
    have found := stands place inside
    rw [Nat.zero_add] at found ⊢
    rw [entry (Nat.lt_succ_of_lt (Nat.lt_of_lt_of_le inside short)),
      if_pos inside, found]
  · rw [entry (Nat.lt_succ_of_le short), if_neg (Nat.lt_irrefl _)]

/-- The characters are read as the bytes. -/
def Decodes (characters bytes : List UInt8) : Prop :=
  characters.length = 2 * bytes.length ∧
    ∀ place, place < bytes.length →
      hexByte (byteAt characters (2 * place))
        (byteAt characters (2 * place + 1)) = byteAt bytes place

instance (characters bytes : List UInt8) :
    Decidable (Decodes characters bytes) :=
  inferInstanceAs (Decidable (_ ∧ _))

theorem byteAt_strToHex (characters : List UInt8) {length place : Nat}
    (inside : place < (length + 1) / 2) :
    byteAt (strToHex characters length) place =
      hexByte (byteAt characters (2 * place))
        (byteAt characters (2 * place + 1)) := by
  rw [byteAt_of_lt (by simpa using inside)]
  simp [strToHex]

theorem decodes_hexChars (bytes : List UInt8) :
    Decodes (hexChars bytes) bytes := by
  refine ⟨hexChars_length bytes, ?_⟩
  intro place inside
  have whole := strToHex_hexChars bytes []
  rw [List.append_nil] at whole
  rw [← byteAt_strToHex _ (by omega : place < (2 * bytes.length + 1) / 2),
    whole]

theorem Decodes.append {characters later bytes rest : List UInt8}
    (front : Decodes characters bytes) (back : Decodes later rest) :
    Decodes (characters ++ later) (bytes ++ rest) := by
  constructor
  · rw [List.length_append, List.length_append, front.1, back.1, Nat.mul_add]
  · intro place inside
    rcases Nat.lt_or_ge place bytes.length with earlier | further
    · have room : 2 * place + 1 < characters.length := by
        rw [front.1]
        omega
      rw [byteAt_append_left earlier, byteAt_append_left room,
        byteAt_append_left (Nat.lt_of_succ_lt room), front.2 place earlier]
    · obtain ⟨offset, rfl⟩ := Nat.exists_eq_add_of_le further
      rw [List.length_append] at inside
      have position : 2 * (bytes.length + offset) =
          characters.length + 2 * offset := by
        rw [front.1, Nat.mul_add]
      rw [position, Nat.add_assoc, byteAt_append_right, byteAt_append_right,
        byteAt_append_right]
      exact back.2 offset (Nat.lt_of_add_lt_add_left inside)

/-- The hexadecimal text between the parentheses. -/
theorem codeHex_stands {msg characters bytes : List UInt8} {i : Nat}
    (decodes : Decodes characters bytes)
    (stands : Stands msg (i + 1) characters) (short : bytes.length < 256) :
    ∃ msgHex, codeHex msg i (i + characters.length + 1) = some msgHex ∧
      Stands msgHex 0 bytes := by
  have count : i + characters.length + 1 - i = 2 * bytes.length + 1 := by
    rw [decodes.1]
    omega
  have length : (strToHex (msg.drop (i + 1))
      (2 * bytes.length + 1)).length = bytes.length + 1 := by
    rw [strToHex_length]
    omega
  have dropped : Stands (msg.drop (i + 1)) 0 characters :=
    stands_drop.mpr stands
  unfold codeHex
  rw [count]
  refine ⟨_, if_pos (length ▸ short), ?_⟩
  intro place inside
  have within : place < (2 * bytes.length + 1 + 1) / 2 := by omega
  have room : place < (strToHex (msg.drop (i + 1))
      (2 * bytes.length + 1)).length := by
    rw [length]
    exact Nat.lt_succ_of_lt inside
  have high := dropped (2 * place) (by rw [decodes.1]; omega)
  have low := dropped (2 * place + 1) (by rw [decodes.1]; omega)
  rw [Nat.zero_add] at high low ⊢
  rw [byteAt_append_left room, byteAt_strToHex _ within, high, low,
    decodes.2 place inside]

theorem semicolonFrom_stands {msgHex front : List UInt8} {start : Nat}
    (stands : Stands msgHex start (front ++ [chSemicolon]))
    (none : chSemicolon ∉ front) (inside : start + front.length < 256) :
    semicolonFrom msgHex start = some (start + front.length) := by
  obtain ⟨before, here⟩ := stands_append.mp stands
  have found : byteAt msgHex (start + front.length) = chSemicolon :=
    (stands_cons.mp here).1
  have split : List.range' start (256 - start) =
      List.range' start front.length ++
        (start + front.length) ::
          List.range' (start + front.length + 1)
            (256 - start - front.length - 1) := by
    rw [← List.range'_succ, List.range'_append_1]
    congr 1
    omega
  rw [semicolonFrom, split, List.find?_append, List.find?_cons, found]
  have absent : (List.range' start front.length).find?
      (fun k => byteAt msgHex k == chSemicolon) = Option.none := by
    apply List.find?_eq_none.mpr
    intro place member
    obtain ⟨offset, bound, rfl⟩ := List.mem_range'.mp member
    rw [Nat.one_mul, before offset bound, byteAt_of_lt bound]
    intro same
    apply none
    rw [← beq_iff_eq.mp same]
    exact List.getElem_mem bound
  rw [absent]
  rfl

/-- A name, the text and a semicolon. -/
theorem takeField_stands {size : Nat} {msgHex name text : List UInt8}
    {start : Nat} (kTemp : UInt8) (field : TextField size)
    (stands : Stands msgHex start (name ++ text ++ [chSemicolon]))
    (none : chSemicolon ∉ name ++ text) (short : text.length ≤ size)
    (nonzero : ∀ byte ∈ text, byte ≠ 0)
    (inside : start + (name ++ text).length < 256) :
    ∃ filled, takeField msgHex kTemp start name.length field =
        some ((start + (name ++ text).length + 1).toUInt8, filled) ∧
      filled.text = text := by
  have found := semicolonFrom_stands stands none inside
  have there := (stands_append.mp (stands_append.mp stands).1).2
  have content : Stands (msgHex.drop (start + name.length)) 0 text :=
    stands_drop.mpr there
  have count : start + (name ++ text).length - start - name.length =
      text.length := by
    rw [List.length_append]
    omega
  have notCut : ¬start + (name ++ text).length < start + name.length := by
    rw [List.length_append]
    omega
  refine ⟨_, ?_, fill_text short nonzero content⟩
  simp only [takeField, found, if_neg notCut, count]

end Tp79Boot
