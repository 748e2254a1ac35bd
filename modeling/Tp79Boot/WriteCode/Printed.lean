import Tp79Boot.WriteCode.Fields

/-!
# The printed configuration

The text that `POC_INQUIRE_ALL` prints, piece by piece, and what the parser
does where this text stands in a message.
-/

namespace Tp79Boot

/-- Between the parentheses. -/
def codeCharacters (cfg : CodeCfg) : List UInt8 :=
  ascii "69703d" ++ hexChars cfg.serverIp.text ++ ascii "3b69643d" ++
    hexChars cfg.userId.text ++ ascii "3b7077643d" ++
    hexChars cfg.userPwd.text ++ ascii "3b00"

/-- What these characters stand for. -/
def codeBytes (cfg : CodeCfg) : List UInt8 :=
  ascii "ip=" ++ cfg.serverIp.text ++ ascii ";id=" ++ cfg.userId.text ++
    ascii ";pwd=" ++ cfg.userPwd.text ++ [chSemicolon, 0]

/-- Behind the opening brace. -/
def flagCharacters (offline single : UInt8) : List UInt8 :=
  0x4F :: 0x52 :: offline :: (ascii ",INV" ++ [single, chBraceClose])

/-- From the opening bracket to the closing brace. -/
def printedText (cfg : CodeCfg) : List UInt8 :=
  chBracketOpen :: (cfg.apnName.text ++ chComma :: (cfg.apnPwd.text ++
    chBracketClose :: chParenOpen :: (codeCharacters cfg ++
      chParenClose :: chBraceOpen ::
        flagCharacters cfg.offlineSoundFlag cfg.singleCallFlag)))

theorem inquireText_eq_printed (cfg : CodeCfg) :
    inquireText cfg = ascii "POC_INQUIRE_ALL:<SUCCESS>" ++ printedText cfg ++
      ascii "\r\n" := by
  have opening : ascii "POC_INQUIRE_ALL:<SUCCESS>[" =
      ascii "POC_INQUIRE_ALL:<SUCCESS>" ++ [chBracketOpen] := by decide
  have comma : ascii "," = [chComma] := by decide
  have middle : ascii "](69703d" =
      chBracketClose :: chParenOpen :: ascii "69703d" := by decide
  have flags (offline single : UInt8) : flagText offline single =
      ascii "3b00" ++ (chParenClose :: chBraceOpen ::
        (flagCharacters offline single ++ ascii "\r\n")) := rfl
  rw [inquireText_eq, fieldText, flags, opening, comma, middle]
  simp only [printedText, codeCharacters, List.append_assoc, List.cons_append,
    List.nil_append]

/-- A configuration that the text can carry. -/
structure Printable (cfg : CodeCfg) : Prop where
  apnName : Plain cfg.apnName.text
  apnPwd : Plain cfg.apnPwd.text
  serverIp : Plain cfg.serverIp.text
  userId : Plain cfg.userId.text
  userPwd : Plain cfg.userPwd.text
  offlineSoundFlag : cfg.offlineSoundFlag = 0x30 ∨ cfg.offlineSoundFlag = 0x31
  singleCallFlag : cfg.singleCallFlag = 0x30 ∨ cfg.singleCallFlag = 0x31

instance (cfg : CodeCfg) : Decidable (Printable cfg) :=
  decidable_of_iff
    (Plain cfg.apnName.text ∧ Plain cfg.apnPwd.text ∧
      Plain cfg.serverIp.text ∧ Plain cfg.userId.text ∧
      Plain cfg.userPwd.text ∧
      (cfg.offlineSoundFlag = 0x30 ∨ cfg.offlineSoundFlag = 0x31) ∧
      (cfg.singleCallFlag = 0x30 ∨ cfg.singleCallFlag = 0x31))
    ⟨fun ⟨name, pwd, ip, id, user, offline, single⟩ =>
        ⟨name, pwd, ip, id, user, offline, single⟩,
      fun printable => ⟨printable.apnName, printable.apnPwd,
        printable.serverIp, printable.userId, printable.userPwd,
        printable.offlineSoundFlag, printable.singleCallFlag⟩⟩

section

variable {cfg : CodeCfg}

theorem codeCharacters_plain (cfg : CodeCfg) : Plain (codeCharacters cfg) := by
  unfold codeCharacters
  apply Plain.append _ (by decide)
  apply Plain.append _ (hexChars_plain _)
  apply Plain.append _ (by decide)
  apply Plain.append _ (hexChars_plain _)
  apply Plain.append _ (by decide)
  exact Plain.append (by decide) (hexChars_plain _)

theorem codeCharacters_decodes (cfg : CodeCfg) :
    Decodes (codeCharacters cfg) (codeBytes cfg) := by
  unfold codeCharacters codeBytes
  apply Decodes.append _ (by decide)
  apply Decodes.append _ (decodes_hexChars _)
  apply Decodes.append _ (by decide)
  apply Decodes.append _ (decodes_hexChars _)
  apply Decodes.append _ (by decide)
  exact Decodes.append (by decide) (decodes_hexChars _)

theorem codeBytes_short (cfg : CodeCfg) : (codeBytes cfg).length < 256 := by
  have ip := cfg.serverIp.text_length_le
  have id := cfg.userId.text_length_le
  have pwd := cfg.userPwd.text_length_le
  have ipName : (ascii "ip=").length = 3 := rfl
  have idName : (ascii ";id=").length = 4 := rfl
  have pwdName : (ascii ";pwd=").length = 5 := rfl
  simp only [codeBytes, List.length_append, List.length_cons, List.length_nil,
    ipName, idName, pwdName]
  omega

/-- The characters that can stand behind the brace. -/
def flagAlphabet : List UInt8 :=
  [0x4F, 0x52, 0x30, 0x31, 0x2C, 0x49, 0x4E, 0x56, chBraceClose]

theorem flagCharacters_findIdxs (printable : Printable cfg)
    {test : UInt8 → Bool} (quiet : flagAlphabet.any test = false) (start : Nat) :
    (flagCharacters cfg.offlineSoundFlag cfg.singleCallFlag).findIdxs test
      start = [] := by
  apply List.findIdxs_eq_nil_iff.mpr
  intro byte member
  have alphabet : flagCharacters cfg.offlineSoundFlag cfg.singleCallFlag ⊆
      flagAlphabet := by
    rcases printable.offlineSoundFlag with offline | offline
    · rcases printable.singleCallFlag with single | single
      · rw [offline, single]
        decide
      · rw [offline, single]
        decide
    · rcases printable.singleCallFlag with single | single
      · rw [offline, single]
        decide
      · rw [offline, single]
        decide
  exact Bool.eq_false_of_not_eq_true
    (List.any_eq_false.mp quiet byte (alphabet member))

end

/-- The places of the delimiters of a text that begins at `base`. -/
def commaPlace (cfg : CodeCfg) (base : Nat) : Nat :=
  base + 1 + cfg.apnName.text.length

def parenPlace (cfg : CodeCfg) (base : Nat) : Nat :=
  commaPlace cfg base + 1 + cfg.apnPwd.text.length + 1

def bracePlace (cfg : CodeCfg) (base : Nat) : Nat :=
  parenPlace cfg base + 1 + (codeCharacters cfg).length + 1

/-- Something is to be parsed at this character. -/
def opens (byte : UInt8) : Bool :=
  byte == chBracketOpen || byte == chParenOpen || byte == chBraceOpen

theorem printedText_openers {cfg : CodeCfg} (printable : Printable cfg)
    (base : Nat) :
    (printedText cfg).findIdxs opens base =
      [base, parenPlace cfg base, bracePlace cfg base] := by
  have marks (byte : UInt8) (open_ : opens byte = true) :
      byte ∈ delimiters := by
    simp only [opens, Bool.or_eq_true, beq_iff_eq] at open_
    rcases open_ with (rfl | rfl) | rfl
    all_goals decide
  have comma : opens chComma = false := rfl
  have bracket : opens chBracketOpen = true := rfl
  have bracketClose : opens chBracketClose = false := rfl
  have paren : opens chParenOpen = true := rfl
  have parenClose : opens chParenClose = false := rfl
  have brace : opens chBraceOpen = true := rfl
  have quiet : flagAlphabet.any opens = false := rfl
  simp only [printedText, List.findIdxs_cons, List.findIdxs_append,
    printable.apnName.findIdxs marks, printable.apnPwd.findIdxs marks,
    (codeCharacters_plain cfg).findIdxs marks,
    flagCharacters_findIdxs printable quiet, comma, bracket, bracketClose,
    paren, parenClose, brace, List.nil_append, if_true, Bool.false_eq_true,
    if_false]
  rfl

section

variable {cfg : CodeCfg} {msg : List UInt8} {base stop : Nat}

/-- The pieces of a text that stands in the message. -/
structure PrintedAt (cfg : CodeCfg) (msg : List UInt8) (base : Nat) :
    Prop where
  bracket : byteAt msg base = chBracketOpen
  apnName : Stands msg (base + 1) cfg.apnName.text
  apnPwd : Stands msg (commaPlace cfg base + 1) cfg.apnPwd.text
  paren : byteAt msg (parenPlace cfg base) = chParenOpen
  code : Stands msg (parenPlace cfg base + 1) (codeCharacters cfg)
  brace : byteAt msg (bracePlace cfg base) = chBraceOpen
  flags : Stands msg (bracePlace cfg base + 1)
    (flagCharacters cfg.offlineSoundFlag cfg.singleCallFlag)

theorem printedAt (stands : Stands msg base (printedText cfg)) :
    PrintedAt cfg msg base := by
  unfold printedText at stands
  obtain ⟨bracket, stands⟩ := stands_cons.mp stands
  obtain ⟨apnName, stands⟩ := stands_append.mp stands
  obtain ⟨_, stands⟩ := stands_cons.mp stands
  obtain ⟨apnPwd, stands⟩ := stands_append.mp stands
  obtain ⟨_, stands⟩ := stands_cons.mp stands
  obtain ⟨paren, stands⟩ := stands_cons.mp stands
  obtain ⟨code, stands⟩ := stands_append.mp stands
  obtain ⟨_, stands⟩ := stands_cons.mp stands
  obtain ⟨brace, flags⟩ := stands_cons.mp stands
  exact ⟨bracket, apnName, apnPwd, paren, code, brace, flags⟩

theorem marks_of_delimiter {character : UInt8}
    (delimiter : character ∈ delimiters) (byte : UInt8)
    (same : (byte == character) = true) : byte ∈ delimiters := by
  rw [beq_iff_eq.mp same]
  exact delimiter

theorem bracketClose_positions (printable : Printable cfg)
    (stands : Stands msg base (printedText cfg))
    (whole : stop = base + (printedText cfg).length) :
    positions msg chBracketClose base stop =
      [commaPlace cfg base + 1 + cfg.apnPwd.text.length] := by
  have marks := marks_of_delimiter
    (by decide : chBracketClose ∈ delimiters)
  have bracket : (chBracketOpen == chBracketClose) = false := rfl
  have comma : (chComma == chBracketClose) = false := rfl
  have paren : (chParenOpen == chBracketClose) = false := rfl
  have parenClose : (chParenClose == chBracketClose) = false := rfl
  have brace : (chBraceOpen == chBracketClose) = false := rfl
  have quiet : flagAlphabet.any (· == chBracketClose) = false := rfl
  rw [positions_eq chBracketClose stands whole]
  simp only [printedText, List.findIdxs_cons, List.findIdxs_append,
    printable.apnName.findIdxs marks, printable.apnPwd.findIdxs marks,
    (codeCharacters_plain cfg).findIdxs marks,
    flagCharacters_findIdxs printable quiet, bracket, comma, paren,
    parenClose, brace, beq_self_eq_true, List.nil_append, if_true,
    Bool.false_eq_true, if_false]
  rfl

theorem comma_positions (printable : Printable cfg)
    (stands : Stands msg base (printedText cfg)) :
    positions msg chComma base
        (commaPlace cfg base + 1 + cfg.apnPwd.text.length) =
      [commaPlace cfg base] := by
  have front : printedText cfg =
      (chBracketOpen :: (cfg.apnName.text ++ chComma :: cfg.apnPwd.text)) ++
        chBracketClose :: chParenOpen :: (codeCharacters cfg ++
          chParenClose :: chBraceOpen ::
            flagCharacters cfg.offlineSoundFlag cfg.singleCallFlag) := by
    simp [printedText]
  rw [front] at stands
  have marks := marks_of_delimiter (by decide : chComma ∈ delimiters)
  have bracket : (chBracketOpen == chComma) = false := rfl
  have whole : commaPlace cfg base + 1 + cfg.apnPwd.text.length = base +
      (chBracketOpen ::
        (cfg.apnName.text ++ chComma :: cfg.apnPwd.text)).length := by
    simp only [commaPlace, List.length_cons, List.length_append]
    omega
  rw [positions_eq chComma (stands_append.mp stands).1 whole]
  simp only [List.findIdxs_cons, List.findIdxs_append,
    printable.apnName.findIdxs marks, printable.apnPwd.findIdxs marks,
    bracket, beq_self_eq_true, List.nil_append, if_true, Bool.false_eq_true,
    if_false]
  rfl

/-- The name and the password of the access point. -/
theorem parseApn_printed (stored : CodeCfg) (printable : Printable cfg)
    (stands : Stands msg base (printedText cfg))
    (whole : stop = base + (printedText cfg).length) :
    ∃ apnName apnPwd,
      parseApn msg stop base stored =
        { stored with apnName := apnName, apnPwd := apnPwd } ∧
      apnName.text = cfg.apnName.text ∧ apnPwd.text = cfg.apnPwd.text := by
  have pieces := printedAt stands
  have nameCount : commaPlace cfg base - base - 1 =
      cfg.apnName.text.length := by
    unfold commaPlace
    omega
  have pwdCount : commaPlace cfg base + 1 + cfg.apnPwd.text.length -
      commaPlace cfg base - 1 = cfg.apnPwd.text.length := by
    omega
  refine ⟨_, _, ?_, fill_text cfg.apnName.text_length_le
    (fun _ => cfg.apnName.text_nonzero) (stands_drop.mpr pieces.apnName),
    fill_text cfg.apnPwd.text_length_le
      (fun _ => cfg.apnPwd.text_nonzero) (stands_drop.mpr pieces.apnPwd)⟩
  rw [parseApn, bracketClose_positions printable stands whole,
    List.foldl_cons, List.foldl_nil, comma_positions printable stands,
    List.foldl_cons, List.foldl_nil, nameCount, pwdCount]

theorem parenClose_positions (printable : Printable cfg)
    (stands : Stands msg base (printedText cfg))
    (whole : stop = base + (printedText cfg).length) :
    positions msg chParenClose (parenPlace cfg base) stop =
      [parenPlace cfg base + (codeCharacters cfg).length + 1] := by
  have back : printedText cfg =
      (chBracketOpen :: (cfg.apnName.text ++ chComma :: (cfg.apnPwd.text ++
        [chBracketClose]))) ++
        chParenOpen :: (codeCharacters cfg ++ chParenClose :: chBraceOpen ::
          flagCharacters cfg.offlineSoundFlag cfg.singleCallFlag) := by
    simp [printedText]
  have place : parenPlace cfg base = base +
      (chBracketOpen :: (cfg.apnName.text ++ chComma :: (cfg.apnPwd.text ++
        [chBracketClose]))).length := by
    simp only [parenPlace, commaPlace, List.length_cons, List.length_append,
      List.length_nil]
    omega
  have marks := marks_of_delimiter (by decide : chParenClose ∈ delimiters)
  have paren : (chParenOpen == chParenClose) = false := rfl
  have brace : (chBraceOpen == chParenClose) = false := rfl
  have quiet : flagAlphabet.any (· == chParenClose) = false := rfl
  rw [back] at stands whole
  rw [List.length_append, ← Nat.add_assoc, ← place] at whole
  have rest := (stands_append.mp stands).2
  rw [← place] at rest
  rw [positions_eq chParenClose rest whole]
  simp only [List.findIdxs_cons, List.findIdxs_append,
    (codeCharacters_plain cfg).findIdxs marks,
    flagCharacters_findIdxs printable quiet, paren, brace, beq_self_eq_true,
    List.nil_append, if_true, Bool.false_eq_true, if_false]
  rw [Nat.add_right_comm]

theorem takeField_printed {size : Nat} {msgHex name : List UInt8}
    {start : Nat} (kTemp : UInt8) (field printed : TextField size)
    (plain : Plain (name ++ printed.text))
    (stands : Stands msgHex start (name ++ printed.text ++ [chSemicolon]))
    (inside : start + (name ++ printed.text ++ [chSemicolon]).length < 256) :
    ∃ (next : UInt8) (filled : TextField size),
      takeField msgHex kTemp start name.length field = some (next, filled) ∧
      next.toNat = start + (name ++ printed.text ++ [chSemicolon]).length ∧
      filled.text = printed.text := by
  have length : (name ++ printed.text ++ [chSemicolon]).length =
      (name ++ printed.text).length + 1 := List.length_append
  rw [length] at inside ⊢
  have none : chSemicolon ∉ name ++ printed.text :=
    fun member => plain _ member (by decide)
  obtain ⟨filled, taken, text⟩ := takeField_stands kTemp field stands none
    printed.text_length_le (fun _ => printed.text_nonzero)
    (Nat.lt_of_succ_lt inside)
  refine ⟨_, filled, taken, ?_, text⟩
  exact UInt8.toNat_ofNat_of_lt' inside

/-- The address and the account. -/
theorem parseCode_printed (env : CodeEnv) (stored : CodeCfg)
    (printable : Printable cfg) (stands : Stands msg base (printedText cfg)) :
    ∃ serverIp userId userPwd,
      parseCode env msg (parenPlace cfg base) stored
          (parenPlace cfg base + (codeCharacters cfg).length + 1) =
        some { stored with
          serverIp := serverIp
          userId := userId
          userPwd := userPwd } ∧
      serverIp.text = cfg.serverIp.text ∧ userId.text = cfg.userId.text ∧
      userPwd.text = cfg.userPwd.text := by
  have short := codeBytes_short cfg
  obtain ⟨msgHex, decoded, bytes⟩ := codeHex_stands
    (codeCharacters_decodes cfg) (printedAt stands).code short
  have pieces : codeBytes cfg =
      (ascii "ip=" ++ cfg.serverIp.text ++ [chSemicolon]) ++
        ((ascii "id=" ++ cfg.userId.text ++ [chSemicolon]) ++
          ((ascii "pwd=" ++ cfg.userPwd.text ++ [chSemicolon]) ++ [0])) := by
    have idName : ascii ";id=" = chSemicolon :: ascii "id=" := by decide
    have pwdName : ascii ";pwd=" = chSemicolon :: ascii "pwd=" := by decide
    simp [codeBytes, idName, pwdName]
  rw [pieces] at bytes
  have lengths (first second third last : List UInt8) :
      (first ++ (second ++ (third ++ last))).length = first.length +
        (second.length + (third.length + last.length)) := by
    simp only [List.length_append]
  rw [pieces, lengths] at short
  obtain ⟨ip, bytes⟩ := stands_append.mp bytes
  obtain ⟨id, bytes⟩ := stands_append.mp bytes
  obtain ⟨pwd, _⟩ := stands_append.mp bytes
  obtain ⟨afterIp, serverIp, ipTaken, ipEnd, ipText⟩ :=
    takeField_printed env.kTemp stored.serverIp cfg.serverIp
      (Plain.append (by decide) printable.serverIp) ip (by omega)
  rw [← ipEnd] at id pwd
  obtain ⟨afterId, userId, idTaken, idEnd, idText⟩ :=
    takeField_printed afterIp stored.userId cfg.userId
      (Plain.append (by decide) printable.userId) id (by omega)
  rw [← idEnd] at pwd
  obtain ⟨afterPwd, userPwd, pwdTaken, _, pwdText⟩ :=
    takeField_printed afterId stored.userPwd cfg.userPwd
      (Plain.append (by decide) printable.userPwd) pwd (by omega)
  refine ⟨serverIp, userId, userPwd, ?_, ipText, idText, pwdText⟩
  have ipName : (ascii "ip=").length = 3 := rfl
  have idName : (ascii "id=").length = 3 := rfl
  have pwdName : (ascii "pwd=").length = 4 := rfl
  rw [ipName] at ipTaken
  rw [idName] at idTaken
  rw [pwdName] at pwdTaken
  simp only [parseCode, decoded, Option.bind_eq_bind, Option.bind_some,
    ipTaken, idTaken, pwdTaken]

theorem parseFlags_printed (stored : CodeCfg) (printable : Printable cfg)
    (stands : Stands msg base (printedText cfg)) :
    parseFlags msg (bracePlace cfg base) stored =
      { stored with offlineSoundFlag := cfg.offlineSoundFlag } := by
  have flags := (printedAt stands).flags
  have offline : byteAt msg (bracePlace cfg base + 3) =
      cfg.offlineSoundFlag := flags 2 (by simp [flagCharacters])
  have closing : byteAt msg (bracePlace cfg base + 9) = chBraceClose :=
    flags 8 (by simp [flagCharacters]; decide)
  have notFlag : ¬(chBraceClose = 0x30 ∨ chBraceClose = 0x31) := by decide
  rw [parseFlags, flagAt, flagAt, offline, closing, if_neg notFlag,
    if_pos printable.offlineSoundFlag]

end

end Tp79Boot
