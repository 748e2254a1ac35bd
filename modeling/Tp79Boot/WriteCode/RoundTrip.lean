import Tp79Boot.WriteCode.Guard
import Tp79Boot.WriteCode.Printed

/-!
# Sending a printed configuration back

The text that one device prints is sent to another after its password.  Six of
the seven fields arrive.  The second flag is read one character behind the
place where it is printed, so it stays what it was.
-/

namespace Tp79Boot

section

variable {env : CodeEnv} {msg : List UInt8} {msglen i j : Nat}
  {session next : CodeSession}

/-- The flag after one character. -/
def flagTurn (msg : List UInt8) (flag : UInt8) (i : Nat) : UInt8 :=
  if byteAt msg i = chBraceOpen then flagAt msg (i + 9) flag else flag

theorem all_noFlag {givens : List Given}
    (none : ∀ given ∈ givens, given.singleCallFlag = []) :
    (Given.all givens).singleCallFlag = [] := by
  induction givens with
  | nil => rfl
  | cons first later induction =>
      obtain ⟨here, rest⟩ := List.forall_mem_cons.mp none
      rw [Given.all, Given.followedBy, here, induction rest]
      rfl

/-- Only an opening brace gives the flag a value. -/
theorem turnGiven_flag (env : CodeEnv) (msg : List UInt8) (msglen i : Nat)
    (flag : UInt8) :
    (turnGiven env msg msglen i).singleCallFlag.getLastD flag =
      flagTurn msg flag i := by
  unfold turnGiven flagTurn
  by_cases bracket : byteAt msg i = chBracketOpen
  · have noBrace : byteAt msg i ≠ chBraceOpen := by
      rw [bracket]
      decide
    have none : (apnGiven msg msglen i).singleCallFlag = [] := by
      apply all_noFlag
      intro given member
      obtain ⟨j, _, inner⟩ := List.mem_flatMap.mp member
      obtain ⟨k, _, rfl⟩ := List.mem_map.mp inner
      rfl
    rw [if_pos bracket, if_neg noBrace, none, List.getLastD_nil]
  · by_cases paren : byteAt msg i = chParenOpen
    · have noBrace : byteAt msg i ≠ chBraceOpen := by
        rw [paren]
        decide
      have none : (Given.all ((positions msg chParenClose i msglen).map
          (codeGiven env msg i))).singleCallFlag = [] := by
        apply all_noFlag
        intro given member
        obtain ⟨j, _, rfl⟩ := List.mem_map.mp member
        unfold codeGiven
        split
        · rfl
        · rfl
      rw [if_neg bracket, if_pos paren, if_neg noBrace, none,
        List.getLastD_nil]
    · by_cases brace : byteAt msg i = chBraceOpen
      · rw [if_neg bracket, if_neg paren, if_pos brace, if_pos brace,
          flagAt_given]
      · rw [if_neg bracket, if_neg paren, if_neg brace, if_neg brace]
        rfl

/-- The flag after the characters before `count`. -/
def flagAfter (msg : List UInt8) (count : Nat) (flag : UInt8) : UInt8 :=
  (List.range count).foldl (flagTurn msg) flag

theorem givenBefore_flag (env : CodeEnv) (msg : List UInt8)
    (msglen count : Nat) (cfg : CodeCfg) :
    ((givenBefore env msg msglen count).onto cfg).singleCallFlag =
      flagAfter msg count cfg.singleCallFlag := by
  induction count with
  | zero => rfl
  | succ count induction =>
      rw [givenBefore_succ, flagAfter, List.range_succ, List.foldl_append,
        ← flagAfter, ← induction]
      exact turnGiven_flag env msg msglen count _

theorem setPwd_flag (saves : Bool) (pwd : Vector UInt8 33) :
    (if saves = true then (session.setPwd pwd).save
      else session.setPwd pwd).cfg.singleCallFlag =
        session.cfg.singleCallFlag := by
  cases saves with
  | false => rfl
  | true => rfl

/-- The scan for the password leaves the flag alone. -/
theorem pwdScanAt_flag {check : PwdCheck} {places : List Nat}
    {after : CodeSession}
    (scanned : pwdScanAt env check msg places session = .goesOn after) :
    after.cfg.singleCallFlag = session.cfg.singleCallFlag := by
  induction places generalizing session with
  | nil =>
      cases scanned
      rfl
  | cons place later induction =>
      rw [pwdScanAt] at scanned
      by_cases unset : PwdUnset session.cfg.dealersPwd
      · rw [if_pos unset] at scanned
        by_cases zeros : ZerosMatch env msg check.first place
        · rw [if_pos zeros] at scanned
          exact induction scanned
        · rw [if_neg zeros] at scanned
          by_cases long : 33 < place - check.first
          · rw [if_pos long] at scanned
            cases scanned
          · rw [if_neg long] at scanned
            exact (induction scanned).trans (setPwd_flag check.saves _)
      · rw [if_neg unset] at scanned
        by_cases fails : ¬PwdMatches env session.cfg.dealersPwd msg
            check.first place ∧ ¬SuperMatches env msg check.first
        · rw [if_pos fails] at scanned
          cases scanned
        · rw [if_neg fails] at scanned
          by_cases clears : check.clears = true ∧ ClearFollows msg place
          · rw [if_pos clears] at scanned
            cases scanned
          · rw [if_neg clears] at scanned
            exact induction scanned

theorem codeTurns_openers {text : List UInt8} {base : Nat}
    (stands : Stands msg base text) :
    (List.range' base text.length).foldlM (codeTurn env msg msglen) session =
      (text.findIdxs opens base).foldlM (codeTurn env msg msglen) session := by
  have skips : (fun (session : CodeSession) i =>
      if opens (byteAt msg i) = true then codeTurn env msg msglen session i
      else pure session) = codeTurn env msg msglen := by
    funext session i
    by_cases here : opens (byteAt msg i) = true
    · rw [if_pos here]
    · rw [if_neg here]
      simp only [opens, Bool.or_eq_true, beq_iff_eq, not_or] at here
      exact (codeTurn_elsewhere here.1.1 here.1.2 here.2).symm
  rw [← range'_filter_eq_findIdxs opens stands, List.foldlM_filter, skips]

end

/-- The seven fields are the printed ones. -/
structure SameFields (stored printed : CodeCfg) : Prop where
  apnName : stored.apnName.text = printed.apnName.text
  apnPwd : stored.apnPwd.text = printed.apnPwd.text
  serverIp : stored.serverIp.text = printed.serverIp.text
  userId : stored.userId.text = printed.userId.text
  userPwd : stored.userPwd.text = printed.userPwd.text
  offlineSoundFlag : stored.offlineSoundFlag = printed.offlineSoundFlag
  singleCallFlag : stored.singleCallFlag = printed.singleCallFlag

section

variable {env : CodeEnv} {printed : CodeCfg} {msg : List UInt8}
  {base msglen : Nat} {session : CodeSession}

theorem bracketTurn_printed (printable : Printable printed)
    (stands : Stands msg base (printedText printed))
    (whole : msglen = base + (printedText printed).length)
    (session : CodeSession) :
    ∃ next, codeTurn env msg msglen session base = some next ∧
      next.cfg.apnName.text = printed.apnName.text ∧
      next.cfg.apnPwd.text = printed.apnPwd.text ∧
      next.cfg.singleCallFlag = session.cfg.singleCallFlag := by
  obtain ⟨apnName, apnPwd, parsed, nameText, pwdText⟩ :=
    parseApn_printed session.cfg printable stands whole
  rw [codeTurn_bracket (printedAt stands).bracket, parsed]
  exact ⟨_, rfl, nameText, pwdText, rfl⟩

theorem parenTurn_printed (printable : Printable printed)
    (stands : Stands msg base (printedText printed))
    (whole : msglen = base + (printedText printed).length)
    (session : CodeSession) :
    ∃ next, codeTurn env msg msglen session (parenPlace printed base) =
        some next ∧
      next.cfg.apnName = session.cfg.apnName ∧
      next.cfg.apnPwd = session.cfg.apnPwd ∧
      next.cfg.serverIp.text = printed.serverIp.text ∧
      next.cfg.userId.text = printed.userId.text ∧
      next.cfg.userPwd.text = printed.userPwd.text ∧
      next.cfg.singleCallFlag = session.cfg.singleCallFlag := by
  obtain ⟨serverIp, userId, userPwd, parsed, ipText, idText, pwdText⟩ :=
    parseCode_printed env session.cfg printable stands
  rw [codeTurn_paren (printedAt stands).paren,
    parenClose_positions printable stands whole, List.foldlM_cons, parsed]
  exact ⟨_, rfl, rfl, rfl, ipText, idText, pwdText, rfl⟩

theorem braceTurn_printed (printable : Printable printed)
    (stands : Stands msg base (printedText printed)) :
    codeTurn env msg msglen session (bracePlace printed base) =
      some { session with
        cfg := { session.cfg with
          offlineSoundFlag := printed.offlineSoundFlag } }.save := by
  rw [codeTurn_brace (printedAt stands).brace,
    parseFlags_printed session.cfg printable stands]

theorem save_stored (session : CodeSession) (before : CodeCfg) :
    session.save.stored before = session.cfg := by
  simp [CodeSession.stored, CodeSession.save]

/-- Six of the fields arrive; the seventh is the one that was there. -/
theorem codeTurns_printed (env : CodeEnv) (printable : Printable printed)
    (stands : Stands msg base (printedText printed))
    (whole : msglen = base + (printedText printed).length)
    (session : CodeSession) (before : CodeCfg) :
    ∃ final, (List.range' base (printedText printed).length).foldlM
        (codeTurn env msg msglen) session = some final ∧
      (SameFields (final.stored before) printed ↔
        session.cfg.singleCallFlag = printed.singleCallFlag) := by
  obtain ⟨first, atBracket, nameText, apnPwdText, firstFlag⟩ :=
    @bracketTurn_printed env printed msg base msglen printable stands whole
      session
  obtain ⟨second, atParen, sameName, samePwd, ipText, idText, pwdText,
    secondFlag⟩ := @parenTurn_printed env printed msg base msglen printable
      stands whole first
  refine ⟨{ second with
    cfg := { second.cfg with
      offlineSoundFlag := printed.offlineSoundFlag } }.save, ?_, ?_⟩
  · rw [codeTurns_openers stands, printedText_openers printable,
      List.foldlM_cons, atBracket, Option.bind_eq_bind, Option.bind_some,
      List.foldlM_cons, atParen, Option.bind_eq_bind, Option.bind_some,
      List.foldlM_cons, braceTurn_printed printable stands]
    rfl
  · rw [save_stored, ← firstFlag, ← secondFlag]
    constructor
    · intro same
      exact same.singleCallFlag
    · intro single
      constructor
      · exact (congrArg TextField.text sameName).trans nameText
      · exact (congrArg TextField.text samePwd).trans apnPwdText
      · exact ipText
      · exact idText
      · exact pwdText
      · rfl
      · exact single

end

/-- `POC_CFG:<password>`, the text, and what lies behind it in the buffer. -/
def cfgMessage (password text rest : List UInt8) : List UInt8 :=
  (ascii "POC_CFG:<" ++ password ++ ascii ">") ++ (text ++ rest)

/-- Where the text begins. -/
def textPlace (password : List UInt8) : Nat :=
  9 + password.length + 1

theorem cfgMessage_begins (password text rest : List UInt8) :
    memcmpEq (cfgMessage password text rest) 0 (ascii "POC_CFG:<") 9 := by
  rw [cfgMessage, List.append_assoc, List.append_assoc]
  exact (memcmpEq_front _ _ (by decide)).mpr (by decide)

theorem cfgMessage_stands (password text rest : List UInt8) :
    Stands (cfgMessage password text rest) (textPlace password) text := by
  have place : (ascii "POC_CFG:<" ++ password ++ ascii ">").length =
      textPlace password := by
    rw [List.length_append, List.length_append]
    rfl
  rw [← place]
  exact stands_middle _ text rest

theorem inquireReply_printed {printed : CodeCfg}
    (printable : Printable printed) :
    inquireReply printed = ascii "POC_INQUIRE_ALL:<SUCCESS>" ++
      printedText printed ++ ascii "\r\n" := by
  have offline : printed.offlineSoundFlag ≠ 0 := by
    rcases printable.offlineSoundFlag with flag | flag
    all_goals rw [flag]; decide
  have single : printed.singleCallFlag ≠ 0 := by
    rcases printable.singleCallFlag with flag | flag
    all_goals rw [flag]; decide
  rw [inquireText_sent offline single, inquireText_eq_printed]

theorem sent_printedText {printed : CodeCfg} {text : List UInt8}
    (printable : Printable printed)
    (sent : inquireReply printed =
      ascii "POC_INQUIRE_ALL:<SUCCESS>" ++ text ++ ascii "\r\n") :
    text = printedText printed := by
  rw [inquireReply_printed printable] at sent
  exact ((List.append_right_inj _).mp ((List.append_left_inj _).mp sent)).symm

theorem writeCodeCfg_goesOn {env : CodeEnv} {msg : List UInt8} {msglen : Nat}
    {before after : CodeSession}
    (scanned : pwdScan env cfgCheck msg msglen before = .goesOn after) :
    writeCodeCfg env msg msglen before =
      (List.range msglen).foldlM (codeTurn env msg msglen) after := by
  unfold writeCodeCfg
  rw [scanned]

/-- What one device prints is sent to another after a password that it
accepts. -/
structure SentBack (env : CodeEnv) (printed stored : CodeCfg)
    (password text rest : List UInt8) (msglen : UInt16) : Prop where
  printable : Printable printed
  sent : inquireReply printed =
    ascii "POC_INQUIRE_ALL:<SUCCESS>" ++ text ++ ascii "\r\n"
  length : msglen.toNat = textPlace password + text.length
  accepted : ∃ session, pwdScan env cfgCheck (cfgMessage password text rest)
    msglen.toNat (.start stored) = .goesOn session

section

variable {env : CodeEnv} {printed stored : CodeCfg}
  {password text rest : List UInt8} {msglen : UInt16}

theorem SentBack.deal
    (back : SentBack env printed stored password text rest msglen) :
    ∃ after : CodeSession,
      after.cfg.singleCallFlag = stored.singleCallFlag ∧
      writeCodeUartMsgDeal env stored (cfgMessage password text rest) msglen =
        (List.range (textPlace password)).foldlM
            (codeTurn env (cfgMessage password text rest) msglen.toNat)
            after >>= fun middle =>
          (List.range' (textPlace password) (printedText printed).length).foldlM
            (codeTurn env (cfgMessage password text rest) msglen.toNat)
            middle := by
  obtain ⟨after, scanned⟩ := back.accepted
  have split : List.range msglen.toNat =
      List.range (textPlace password) ++
        List.range' (textPlace password) (printedText printed).length := by
    rw [← sent_printedText back.printable back.sent, back.length,
      List.range_eq_range', List.range_eq_range', ← List.range'_append_1,
      Nat.zero_add]
  refine ⟨after, pwdScanAt_flag scanned, ?_⟩
  rw [deal_cfg (cfgMessage_begins password text rest),
    writeCodeCfg_goesOn scanned, split, List.foldlM_append]

theorem SentBack.fits
    (back : SentBack env printed stored password text rest msglen)
    {session : CodeSession}
    (done : writeCodeUartMsgDeal env stored (cfgMessage password text rest)
      msglen = some session) :
    PasswordFits env (cfgMessage password text rest) msglen.toNat
      (textPlace password) := by
  obtain ⟨after, _, runs⟩ := back.deal
  rw [runs] at done
  obtain ⟨middle, earlier, _⟩ := Option.bind_eq_some_iff.mp done
  exact (codeTurns_done earlier).fits

/-- The message is carried out, and the second flag decides. -/
theorem SentBack.stores
    (back : SentBack env printed stored password text rest msglen)
    (fits : PasswordFits env (cfgMessage password text rest) msglen.toNat
      (textPlace password)) :
    ∃ session, writeCodeUartMsgDeal env stored (cfgMessage password text rest)
        msglen = some session ∧
      (SameFields (session.stored stored) printed ↔
        flagAfter (cfgMessage password text rest) (textPlace password)
          stored.singleCallFlag = printed.singleCallFlag) := by
  obtain ⟨after, flag, runs⟩ := back.deal
  obtain rfl := sent_printedText back.printable back.sent
  obtain ⟨middle, earlier⟩ := codeTurns_fits after fits
  have given := (codeTurns_done earlier).cfg
  have flagNext : middle.cfg.singleCallFlag = _ :=
    (congrArg CodeCfg.singleCallFlag given).trans (givenBefore_flag ..)
  obtain ⟨final, finished, same⟩ := codeTurns_printed env back.printable
    (cfgMessage_stands password _ rest) back.length middle stored
  refine ⟨final, ?_, ?_⟩
  · rw [runs, earlier]
    exact finished
  · rw [same, flagNext, flag]

theorem cfgMessage_front {character : UInt8} {i : Nat}
    (absent : character ∉ password)
    (elsewhere : character ∉ ascii "POC_CFG:<" ++ ascii ">")
    (inside : i < textPlace password) :
    byteAt (cfgMessage password text rest) i ≠ character := by
  have bound : i < (ascii "POC_CFG:<" ++ password ++ ascii ">").length := by
    rw [List.length_append, List.length_append]
    exact inside
  rw [cfgMessage, byteAt_append_left bound, byteAt_of_lt bound]
  intro same
  have member := List.getElem_mem bound
  rw [same, List.mem_append, List.mem_append] at member
  rw [List.mem_append, not_or] at elsewhere
  rcases member with (header | inPassword) | closing
  · exact elsewhere.1 header
  · exact absent inPassword
  · exact elsewhere.2 closing

theorem flagAfter_quiet {msg : List UInt8} {count : Nat} (flag : UInt8)
    (quiet : ∀ i, i < count → byteAt msg i ≠ chBraceOpen) :
    flagAfter msg count flag = flag := by
  induction count with
  | zero => rfl
  | succ count induction =>
      have last : flagTurn msg flag count = flag :=
        if_neg (quiet count (Nat.lt_succ_self count))
      have earlier := induction fun i below =>
        quiet i (Nat.lt_succ_of_lt below)
      rw [flagAfter] at earlier ⊢
      rw [List.range_succ, List.foldl_append, earlier]
      exact last

/-- For a password without `(` and without an opening brace, the flag that
counts is the stored one. -/
theorem cfgMessage_quiet (env : CodeEnv) (msglen : Nat) (flag : UInt8)
    (noParen : chParenOpen ∉ password) (noBrace : chBraceOpen ∉ password) :
    PasswordFits env (cfgMessage password text rest) msglen
        (textPlace password) ∧
      flagAfter (cfgMessage password text rest) (textPlace password) flag =
        flag := by
  constructor
  · intro i inside paren
    exact absurd paren (cfgMessage_front noParen (by decide) inside)
  · apply flagAfter_quiet
    intro i inside
    exact cfgMessage_front noBrace (by decide) inside

end

/-- With an accepted password, a printed configuration is stored as it was
printed exactly when the second flag is the printed one already, and no copy
that the password calls for leaves its buffer. -/
theorem config_round_trip_iff (env : CodeEnv) (printed stored : CodeCfg)
    (password text rest : List UInt8) (msglen : UInt16)
    (back : SentBack env printed stored password text rest msglen) :
    (∃ session, writeCodeUartMsgDeal env stored
        (cfgMessage password text rest) msglen = some session ∧
        SameFields (session.stored stored) printed) ↔
      PasswordFits env (cfgMessage password text rest) msglen.toNat
          (textPlace password) ∧
        flagAfter (cfgMessage password text rest) (textPlace password)
          stored.singleCallFlag = printed.singleCallFlag := by
  constructor
  · rintro ⟨session, done, same⟩
    have fits := back.fits done
    obtain ⟨final, finished, sameIff⟩ := back.stores fits
    cases done.symm.trans finished
    exact ⟨fits, sameIff.mp same⟩
  · rintro ⟨fits, flag⟩
    obtain ⟨final, finished, sameIff⟩ := back.stores fits
    exact ⟨final, finished, sameIff.mpr flag⟩

def aPrintedCfg (single : UInt8) : CodeCfg :=
  { aCodeCfg with
    apnName := .fill 32 (ascii "card") 4
    serverIp := .fill 16 (ascii "1.2") 3
    userId := .fill 32 (ascii "JQ") 2
    userPwd := .fill 32 (ascii "y1") 2
    singleCallFlag := single }

theorem aPrintedCfg_back {single : UInt8}
    (flag : single = 0x30 ∨ single = 0x31) :
    SentBack aCodeEnv (aPrintedCfg single) aCodeCfg (ascii "12")
      (printedText (aPrintedCfg single)) [] 73 := by
  rcases flag with rfl | rfl
  all_goals
    refine ⟨by decide, inquireReply_printed (by decide), by decide,
      .start aCodeCfg, ?_⟩
    exact pwdScan_goesOn (by decide) (by decide)

theorem config_round_trip_iff_same :
    (∃ session, writeCodeUartMsgDeal aCodeEnv aCodeCfg
        (cfgMessage (ascii "12") (printedText (aPrintedCfg 0x30)) []) 73 =
          some session ∧
        SameFields (session.stored aCodeCfg) (aPrintedCfg 0x30)) := by
  apply (config_round_trip_iff _ _ _ _ _ _ _
    (aPrintedCfg_back (.inl rfl))).mpr
  exact cfgMessage_quiet _ _ _ (by decide) (by decide)

/-- The printed flag is `1`, the stored one `0`. -/
theorem config_round_trip_iff_flag :
    SentBack aCodeEnv (aPrintedCfg 0x31) aCodeCfg (ascii "12")
        (printedText (aPrintedCfg 0x31)) [] 73 ∧
      ¬∃ session, writeCodeUartMsgDeal aCodeEnv aCodeCfg
          (cfgMessage (ascii "12") (printedText (aPrintedCfg 0x31)) []) 73 =
            some session ∧
        SameFields (session.stored aCodeCfg) (aPrintedCfg 0x31) := by
  have back := aPrintedCfg_back (.inr rfl)
  refine ⟨back, ?_⟩
  rintro ⟨session, done, same⟩
  obtain ⟨final, finished, sameIff⟩ := back.stores (back.fits done)
  cases done.symm.trans finished
  have flag := sameIff.mp same
  rw [(cfgMessage_quiet aCodeEnv 73 _ (by decide) (by decide)).2] at flag
  exact absurd flag (by decide)

end Tp79Boot
