import Mathlib.Data.List.TakeWhile
import Tp79Boot.Device
import Tp79Boot.MyString

/-!
# Configuration messages

`write_code.c`: a message from the programming cable asks for the stored
configuration or sets it.  The fields of the configuration and the name of the
super user are defined elsewhere; here they are a record and a text.

A copy that would leave its buffer, or whose count is negative, ends the model
of a message: nothing is said about what happens after it.
-/

namespace Tp79Boot

/-- A text field is cleared before it is filled, and the copy is cut to leave
its last byte alone, so it always ends with a zero. -/
structure TextField (size : Nat) where
  bytes : Vector UInt8 (size + 1)
  closed : bytes[size] = 0
deriving DecidableEq

/-- `memset(field, 0, size + 1)` and
`memcpy(field, source, count % (size + 1))`. -/
def TextField.fill (size : Nat) (source : List UInt8) (count : Nat) :
    TextField size :=
  { bytes := Vector.ofFn fun index =>
      if index.val < count % (size + 1) then byteAt source index else 0
    closed := by
      have cut : count % (size + 1) ≤ size :=
        Nat.le_of_lt_succ (Nat.mod_lt _ (Nat.succ_pos size))
      simp [Nat.not_lt_of_ge cut] }

/-- The bytes that `strlen` counts. -/
def TextField.text {size : Nat} (field : TextField size) : List UInt8 :=
  field.bytes.toList.takeWhile fun byte => byte != 0

structure CodeCfg where
  ver : Vector UInt8 32
  dealersPwd : Vector UInt8 33
  apnName : TextField 32
  apnPwd : TextField 32
  serverIp : TextField 16
  userId : TextField 32
  userPwd : TextField 32
  offlineSoundFlag : UInt8
  singleCallFlag : UInt8
deriving DecidableEq

/-- What the functions do: the configuration in memory, what
`device_config_save_flash` has stored, and the texts of
`uart3_send_string`. -/
structure CodeSession where
  cfg : CodeCfg
  saved : List CodeCfg
  sent : List (List UInt8)

def CodeSession.save (session : CodeSession) : CodeSession :=
  { session with saved := session.saved ++ [session.cfg] }

def CodeSession.send (session : CodeSession) (text : List UInt8) :
    CodeSession :=
  { session with sent := session.sent ++ [text] }

def CodeSession.setPwd (session : CodeSession) (pwd : Vector UInt8 33) :
    CodeSession :=
  { session with cfg := { session.cfg with dealersPwd := pwd } }

/-- What is not in the source: `PWD_SUPER_USER`, the memory behind two
buffers that `memcmp` can run past, the stack byte under `k_temp`, and
`device_config_set_default`. -/
structure CodeEnv where
  pwdSuperUser : List UInt8
  nonempty : pwdSuperUser ≠ []
  pastPwd : List UInt8
  pastZeros : List UInt8
  kTemp : UInt8
  setDefault : CodeSession → CodeSession

def chGreater : UInt8 := 0x3E
def chBracketOpen : UInt8 := 0x5B
def chBracketClose : UInt8 := 0x5D
def chParenOpen : UInt8 := 0x28
def chParenClose : UInt8 := 0x29
def chBraceOpen : UInt8 := 0x7B
def chBraceClose : UInt8 := 0x7D
def chComma : UInt8 := 0x2C
def chSemicolon : UInt8 := 0x3B

/-- Where a loop from `start` to `stop` meets the character. -/
def positions (msg : List UInt8) (character : UInt8) (start stop : Nat) :
    List Nat :=
  (List.range' start (stop - start)).filter fun place =>
    byteAt msg place == character

/-- Where the two password checks differ. -/
structure PwdCheck where
  first : Nat
  saves : Bool
  clears : Bool
  error : List UInt8

/-- In `POC_INQUIRE_ALL`; two characters of the answer are not sent. -/
def inquireCheck : PwdCheck :=
  { first := 17
    saves := false
    clears := false
    error := (ascii "POC_INQUIRE_ALL:<PWD_ERROR>\r\n").take 27 }

/-- In `POC_CFG`. -/
def cfgCheck : PwdCheck :=
  { first := 9
    saves := true
    clears := true
    error := ascii "USR_CFG_ERROR_PWD\r\n" }

/-- `memcmp(cfg->dealers_pwd, &msg[first], i - first) == 0`. -/
def PwdMatches (env : CodeEnv) (pwd : Vector UInt8 33) (msg : List UInt8)
    (first i : Nat) : Prop :=
  memcmpEq msg first (pwd.toList ++ env.pastPwd) (i - first)

/-- `memcmp(PWD_SUPER_USER, &msg[first], strlen(PWD_SUPER_USER)) == 0`. -/
def SuperMatches (env : CodeEnv) (msg : List UInt8) (first : Nat) : Prop :=
  memcmpEq msg first env.pwdSuperUser env.pwdSuperUser.length

/-- `memcmp("000000", &msg[first], i - first) == 0`. -/
def ZerosMatch (env : CodeEnv) (msg : List UInt8) (first i : Nat) : Prop :=
  memcmpEq msg first (ascii "000000" ++ 0 :: env.pastZeros) (i - first)

/-- `dealers_pwd[0] == 0xFF`. -/
def PwdUnset (pwd : Vector UInt8 33) : Prop :=
  pwd[0] = 0xFF

/-- `memcmp(&msg[i+1], "POC_CLR_PWD", 11) == 0`. -/
def ClearFollows (msg : List UInt8) (i : Nat) : Prop :=
  memcmpEq msg (i + 1) (ascii "POC_CLR_PWD") 11

instance (env : CodeEnv) (pwd : Vector UInt8 33) (msg : List UInt8)
    (first i : Nat) : Decidable (PwdMatches env pwd msg first i) :=
  inferInstanceAs (Decidable (memcmpEq ..))

instance (env : CodeEnv) (msg : List UInt8) (first : Nat) :
    Decidable (SuperMatches env msg first) :=
  inferInstanceAs (Decidable (memcmpEq ..))

instance (env : CodeEnv) (msg : List UInt8) (first i : Nat) :
    Decidable (ZerosMatch env msg first i) :=
  inferInstanceAs (Decidable (memcmpEq ..))

instance (pwd : Vector UInt8 33) : Decidable (PwdUnset pwd) :=
  inferInstanceAs (Decidable (_ = _))

instance (msg : List UInt8) (i : Nat) : Decidable (ClearFollows msg i) :=
  inferInstanceAs (Decidable (memcmpEq ..))

/-- `memset(pwd, 0xff, 33)` and `memcpy(pwd, &msg[first], i - first)`. -/
def newPwd (msg : List UInt8) (first i : Nat) : Vector UInt8 33 :=
  Vector.ofFn fun index =>
    if index.val < i - first then byteAt msg (first + index) else 0xFF

def clearedPwd : Vector UInt8 33 :=
  Vector.replicate 33 0xFF

inductive PwdScanned where
  | overrun
  | returned (session : CodeSession)
  | goesOn (session : CodeSession)

/-- The body of the scan, at each `>` in turn. -/
def pwdScanAt (env : CodeEnv) (check : PwdCheck) (msg : List UInt8) :
    List Nat → CodeSession → PwdScanned
  | [], session => .goesOn session
  | i :: later, session =>
      if PwdUnset session.cfg.dealersPwd then
        if ZerosMatch env msg check.first i then
          pwdScanAt env check msg later session
        else if 33 < i - check.first then .overrun
        else
          let session := session.setPwd (newPwd msg check.first i)
          pwdScanAt env check msg later
            (if check.saves then session.save else session)
      else if ¬PwdMatches env session.cfg.dealersPwd msg check.first i ∧
          ¬SuperMatches env msg check.first then
        .returned (session.send check.error)
      else if check.clears ∧ ClearFollows msg i then
        .returned ((session.setPwd clearedPwd).save.send
          (ascii "POC_CFG_DEV_PWD_CLEAR_OK\r\n"))
      else pwdScanAt env check msg later session

def pwdScan (env : CodeEnv) (check : PwdCheck) (msg : List UInt8)
    (msglen : Nat) (session : CodeSession) : PwdScanned :=
  pwdScanAt env check msg (positions msg chGreater check.first msglen) session

/-- The text that is put together in `msg_str`.  The two flags are copied over
the last piece, at offsets counted by hand. -/
def inquireText (cfg : CodeCfg) : List UInt8 :=
  ascii "POC_INQUIRE_ALL:<SUCCESS>[" ++ cfg.apnName.text ++ ascii "," ++
    cfg.apnPwd.text ++ ascii "](69703d" ++ hexChars cfg.serverIp.text ++
    ascii "3b69643d" ++ hexChars cfg.userId.text ++ ascii "3b7077643d" ++
    hexChars cfg.userPwd.text ++
    writeAt (writeAt (ascii "3b00)\x7bOR0,INV1\x7d\r\n") 8
      [cfg.offlineSoundFlag]) 13 [cfg.singleCallFlag]

/-- `uart3_send_string(msg_str, strlen(msg_str))`. -/
def inquireReply (cfg : CodeCfg) : List UInt8 :=
  (inquireText cfg).take (strlen (inquireText cfg))

def writeCodeInquireAll (env : CodeEnv) (msg : List UInt8) (msglen : Nat)
    (session : CodeSession) : Option CodeSession :=
  match pwdScan env inquireCheck msg msglen session with
  | .overrun => none
  | .returned session => some session
  | .goesOn session => some (session.send (inquireReply session.cfg))

/-- At `[`: for every `]` and every `,` before it. -/
def parseApn (msg : List UInt8) (msglen i : Nat) (cfg : CodeCfg) : CodeCfg :=
  (positions msg chBracketClose i msglen).foldl (fun cfg j =>
    (positions msg chComma i j).foldl (fun cfg k =>
      { cfg with
        apnName := .fill 32 (msg.drop (i + 1)) (k - i - 1)
        apnPwd := .fill 32 (msg.drop (k + 1)) (j - k - 1) }) cfg) cfg

/-- `msg_hex` after `str_to_hex(&msg[i+1], msg_hex, j - i)`. -/
def codeHex (msg : List UInt8) (i j : Nat) : Option (List UInt8) :=
  let hex := strToHex (msg.drop (i + 1)) (j - i)
  if hex.length ≤ 256 then some (hex ++ List.replicate (256 - hex.length) 0)
  else none

def semicolonFrom (msgHex : List UInt8) (start : Nat) : Option Nat :=
  (List.range' start (256 - start)).find? fun k =>
    byteAt msgHex k == chSemicolon

/-- One of the three loops over `msg_hex`: a field begins `skip` bytes after
`start` and ends at the next semicolon. -/
def takeField {size : Nat} (msgHex : List UInt8) (kTemp : UInt8)
    (start skip : Nat) (field : TextField size) :
    Option (UInt8 × TextField size) :=
  match semicolonFrom msgHex start with
  | none => some (kTemp, field)
  | some k =>
      if k < start + skip then none
      else
        some ((k + 1).toUInt8,
          .fill size (msgHex.drop (start + skip)) (k - start - skip))

/-- At `(`, for one `)`. -/
def parseCode (env : CodeEnv) (msg : List UInt8) (i : Nat) (cfg : CodeCfg)
    (j : Nat) : Option CodeCfg := do
  let msgHex ← codeHex msg i j
  let (kTemp, serverIp) ← takeField msgHex env.kTemp 0 3 cfg.serverIp
  let (kTemp, userId) ← takeField msgHex kTemp kTemp.toNat 3 cfg.userId
  let (_, userPwd) ← takeField msgHex kTemp kTemp.toNat 4 cfg.userPwd
  some
    { cfg with
      serverIp := serverIp
      userId := userId
      userPwd := userPwd }

def flagAt (msg : List UInt8) (place : Nat) (flag : UInt8) : UInt8 :=
  if byteAt msg place = 0x30 ∨ byteAt msg place = 0x31 then byteAt msg place
  else flag

/-- At an opening brace. -/
def parseFlags (msg : List UInt8) (i : Nat) (cfg : CodeCfg) : CodeCfg :=
  { cfg with
    offlineSoundFlag := flagAt msg (i + 3) cfg.offlineSoundFlag
    singleCallFlag := flagAt msg (i + 9) cfg.singleCallFlag }

/-- One turn of the loop over the message.  What stands there is one
character, so at most one of the three tests holds. -/
def codeTurn (env : CodeEnv) (msg : List UInt8) (msglen : Nat)
    (session : CodeSession) (i : Nat) : Option CodeSession :=
  if byteAt msg i = chBracketOpen then
    some { session with cfg := parseApn msg msglen i session.cfg }
  else if byteAt msg i = chParenOpen then do
    let cfg ← (positions msg chParenClose i msglen).foldlM
      (parseCode env msg i) session.cfg
    some (CodeSession.send { session with cfg := cfg }.save
      (ascii "USR_CFG_SUCCES\r\n"))
  else if byteAt msg i = chBraceOpen then
    some { session with cfg := parseFlags msg i session.cfg }.save
  else some session

def writeCodeCfg (env : CodeEnv) (msg : List UInt8) (msglen : Nat)
    (session : CodeSession) : Option CodeSession :=
  match pwdScan env cfgCheck msg msglen session with
  | .overrun => none
  | .returned session => some session
  | .goesOn session =>
      (List.range msglen).foldlM (codeTurn env msg msglen) session

def CodeSession.start (stored : CodeCfg) : CodeSession :=
  { cfg := stored
    saved := []
    sent := [] }

def writeCodeUartMsgDeal (env : CodeEnv) (stored : CodeCfg)
    (msg : List UInt8) (msglen : UInt16) : Option CodeSession :=
  let session := CodeSession.start stored
  if memcmpEq msg 0 (ascii "AT+POC_TEST") 11 then
    some (session.send (writeAt
      (ascii "POC_SOF_VER=VVK-S5-R11-170720\r\n") 12
      (stored.ver.toList.take 17)))
  else if memcmpEq msg 0 (ascii "POC_FAC_RESET:\r\n") 16 then
    some ((env.setDefault session).send (ascii "POC_FAC_RESET:<OK>\r\n"))
  else if memcmpEq msg 0 (ascii "POC_INQUIRE_ALL:<") 17 then
    writeCodeInquireAll env msg msglen.toNat session
  else if memcmpEq msg 0 (ascii "POC_CFG:<") 9 then
    writeCodeCfg env msg msglen.toNat session
  else some session

/-- The stored configuration after a message. -/
def CodeSession.stored (session : CodeSession) (before : CodeCfg) : CodeCfg :=
  session.saved.getLast?.getD before

section

variable {env : CodeEnv} {msg : List UInt8} {msglen i : Nat}
  {session : CodeSession}

theorem codeTurn_bracket (here : byteAt msg i = chBracketOpen) :
    codeTurn env msg msglen session i =
      some { session with cfg := parseApn msg msglen i session.cfg } :=
  if_pos here

theorem codeTurn_paren (here : byteAt msg i = chParenOpen) :
    codeTurn env msg msglen session i =
      ((positions msg chParenClose i msglen).foldlM (parseCode env msg i)
        session.cfg).bind fun cfg =>
          some (CodeSession.send { session with cfg := cfg }.save
            (ascii "USR_CFG_SUCCES\r\n")) := by
  have noBracket : byteAt msg i ≠ chBracketOpen := by
    rw [here]
    decide
  rw [codeTurn, if_neg noBracket, if_pos here]
  rfl

theorem codeTurn_brace (here : byteAt msg i = chBraceOpen) :
    codeTurn env msg msglen session i =
      some { session with cfg := parseFlags msg i session.cfg }.save := by
  have noBracket : byteAt msg i ≠ chBracketOpen := by
    rw [here]
    decide
  have noParen : byteAt msg i ≠ chParenOpen := by
    rw [here]
    decide
  rw [codeTurn, if_neg noBracket, if_neg noParen, if_pos here]

theorem codeTurn_elsewhere (noBracket : byteAt msg i ≠ chBracketOpen)
    (noParen : byteAt msg i ≠ chParenOpen)
    (noBrace : byteAt msg i ≠ chBraceOpen) :
    codeTurn env msg msglen session i = some session := by
  rw [codeTurn, if_neg noBracket, if_neg noParen, if_neg noBrace]

end

theorem TextField.text_nonzero {size : Nat} (field : TextField size)
    {byte : UInt8} (member : byte ∈ field.text) : byte ≠ 0 := by
  have passed := List.mem_takeWhile_imp member
  simpa using passed

theorem TextField.text_length_le {size : Nat} (field : TextField size) :
    field.text.length ≤ size := by
  have closed : byteAt field.bytes.toList size = 0 := by
    rw [byteAt_toList _ (Nat.lt_succ_self size)]
    exact field.closed
  exact strlen_le_of_zero closed

/-- The printed flags, with what stands around them. -/
def flagText (offline single : UInt8) : List UInt8 :=
  ascii "3b00)" ++ (ascii "\x7bOR" ++ (offline ::
    (ascii ",INV" ++ (single :: ascii "\x7d\r\n"))))

def fieldText (cfg : CodeCfg) : List UInt8 :=
  ascii "POC_INQUIRE_ALL:<SUCCESS>[" ++ cfg.apnName.text ++ ascii "," ++
    cfg.apnPwd.text ++ ascii "](69703d" ++ hexChars cfg.serverIp.text ++
    ascii "3b69643d" ++ hexChars cfg.userId.text ++ ascii "3b7077643d" ++
    hexChars cfg.userPwd.text

theorem inquireText_eq (cfg : CodeCfg) :
    inquireText cfg = fieldText cfg ++
      flagText cfg.offlineSoundFlag cfg.singleCallFlag := rfl

theorem fieldText_nonzero (cfg : CodeCfg) :
    ∀ byte ∈ fieldText cfg, byte ≠ 0 := by
  intro byte member
  simp only [fieldText, List.mem_append] at member
  rcases member with (((((((((header | name) | comma) | pwd) | ip) | address) |
    id) | user) | key) | password)
  · exact nonzero_of_all (by decide) byte header
  · exact cfg.apnName.text_nonzero name
  · exact nonzero_of_all (by decide) byte comma
  · exact cfg.apnPwd.text_nonzero pwd
  · exact nonzero_of_all (by decide) byte ip
  · exact (hexChars_printable address).1
  · exact nonzero_of_all (by decide) byte id
  · exact (hexChars_printable user).1
  · exact nonzero_of_all (by decide) byte key
  · exact (hexChars_printable password).1

theorem flagText_nonzero {offline single : UInt8} (offlineSet : offline ≠ 0)
    (singleSet : single ≠ 0) : ∀ byte ∈ flagText offline single, byte ≠ 0 := by
  intro byte member
  simp only [flagText, List.mem_append, List.mem_cons] at member
  rcases member with close | brace | here | between | here | finish
  · exact nonzero_of_all (by decide) byte close
  · exact nonzero_of_all (by decide) byte brace
  · rw [here]
    exact offlineSet
  · exact nonzero_of_all (by decide) byte between
  · rw [here]
    exact singleSet
  · exact nonzero_of_all (by decide) byte finish

theorem inquireText_sent {cfg : CodeCfg} (offline : cfg.offlineSoundFlag ≠ 0)
    (single : cfg.singleCallFlag ≠ 0) :
    inquireReply cfg = inquireText cfg := by
  have nonzero : ∀ byte ∈ inquireText cfg, byte ≠ 0 := by
    intro byte member
    rw [inquireText_eq] at member
    rcases List.mem_append.mp member with field | flag
    · exact fieldText_nonzero cfg byte field
    · exact flagText_nonzero offline single byte flag
  rw [inquireReply, strlen_of_nonzero nonzero, List.take_length]

end Tp79Boot
