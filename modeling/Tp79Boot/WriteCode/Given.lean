import Tp79Boot.WriteCode.Message

/-!
# What a message gives

A message that is carried out overwrites fields of the configuration, some of
them several times.  The values are up to the message alone, and the last one
that a field is given is the one it has afterwards.
-/

namespace Tp79Boot

/-- The values that the fields are given, each list in order. -/
structure Given where
  apnName : List (TextField 32)
  apnPwd : List (TextField 32)
  serverIp : List (TextField 16)
  userId : List (TextField 32)
  userPwd : List (TextField 32)
  offlineSoundFlag : List UInt8
  singleCallFlag : List UInt8

def Given.nothing : Given :=
  { apnName := []
    apnPwd := []
    serverIp := []
    userId := []
    userPwd := []
    offlineSoundFlag := []
    singleCallFlag := [] }

def Given.followedBy (first second : Given) : Given :=
  { apnName := first.apnName ++ second.apnName
    apnPwd := first.apnPwd ++ second.apnPwd
    serverIp := first.serverIp ++ second.serverIp
    userId := first.userId ++ second.userId
    userPwd := first.userPwd ++ second.userPwd
    offlineSoundFlag := first.offlineSoundFlag ++ second.offlineSoundFlag
    singleCallFlag := first.singleCallFlag ++ second.singleCallFlag }

def Given.all : List Given → Given
  | [] => .nothing
  | first :: later => first.followedBy (.all later)

/-- The configuration with every field at the last value it is given. -/
def Given.onto (given : Given) (cfg : CodeCfg) : CodeCfg :=
  { cfg with
    apnName := given.apnName.getLastD cfg.apnName
    apnPwd := given.apnPwd.getLastD cfg.apnPwd
    serverIp := given.serverIp.getLastD cfg.serverIp
    userId := given.userId.getLastD cfg.userId
    userPwd := given.userPwd.getLastD cfg.userPwd
    offlineSoundFlag := given.offlineSoundFlag.getLastD cfg.offlineSoundFlag
    singleCallFlag := given.singleCallFlag.getLastD cfg.singleCallFlag }

/-- The last value that each field is given, if any, is the one it has. -/
structure Given.Repeats (given : Given) (cfg : CodeCfg) : Prop where
  apnName : given.apnName.getLastD cfg.apnName = cfg.apnName
  apnPwd : given.apnPwd.getLastD cfg.apnPwd = cfg.apnPwd
  serverIp : given.serverIp.getLastD cfg.serverIp = cfg.serverIp
  userId : given.userId.getLastD cfg.userId = cfg.userId
  userPwd : given.userPwd.getLastD cfg.userPwd = cfg.userPwd
  offlineSoundFlag :
    given.offlineSoundFlag.getLastD cfg.offlineSoundFlag = cfg.offlineSoundFlag
  singleCallFlag :
    given.singleCallFlag.getLastD cfg.singleCallFlag = cfg.singleCallFlag

section

variable {first second given : Given} {cfg : CodeCfg}

theorem getLastD_append {α : Type} (first second : List α) (value : α) :
    (first ++ second).getLastD value =
      second.getLastD (first.getLastD value) := by
  induction first generalizing value with
  | nil => rfl
  | cons head first induction =>
      rw [List.cons_append, List.getLastD_cons, List.getLastD_cons, induction]

theorem Given.onto_followedBy :
    (first.followedBy second).onto cfg = second.onto (first.onto cfg) := by
  simp only [Given.onto, Given.followedBy, getLastD_append]

theorem Given.onto_all (givens : List Given) (cfg : CodeCfg) :
    (Given.all givens).onto cfg =
      givens.foldl (fun cfg given => given.onto cfg) cfg := by
  induction givens generalizing cfg with
  | nil => rfl
  | cons first later induction =>
      rw [Given.all, Given.onto_followedBy, induction, List.foldl_cons]

theorem Given.onto_eq_iff : given.onto cfg = cfg ↔ given.Repeats cfg := by
  constructor
  · intro same
    exact
      { apnName := congrArg CodeCfg.apnName same
        apnPwd := congrArg CodeCfg.apnPwd same
        serverIp := congrArg CodeCfg.serverIp same
        userId := congrArg CodeCfg.userId same
        userPwd := congrArg CodeCfg.userPwd same
        offlineSoundFlag := congrArg CodeCfg.offlineSoundFlag same
        singleCallFlag := congrArg CodeCfg.singleCallFlag same }
  · intro repeats
    rw [Given.onto, repeats.apnName, repeats.apnPwd, repeats.serverIp,
      repeats.userId, repeats.userPwd, repeats.offlineSoundFlag,
      repeats.singleCallFlag]

instance : Decidable (given.Repeats cfg) :=
  decidable_of_iff (given.onto cfg = cfg) Given.onto_eq_iff

end

/-- At `[`: a name and a password for every `,` before every `]`. -/
def apnGiven (msg : List UInt8) (msglen i : Nat) : Given :=
  .all ((positions msg chBracketClose i msglen).flatMap fun j =>
    (positions msg chComma i j).map fun k =>
      { Given.nothing with
        apnName := [.fill 32 (msg.drop (i + 1)) (k - i - 1)]
        apnPwd := [.fill 32 (msg.drop (k + 1)) (j - k - 1)] })

/-- A field of the decoded text, when a semicolon ends it. -/
def fieldGiven (size : Nat) (msgHex : List UInt8) (start skip : Nat) :
    List (TextField size) :=
  match semicolonFrom msgHex start with
  | none => []
  | some k => [.fill size (msgHex.drop (start + skip)) (k - start - skip)]

/-- `k_temp` after one of the loops. -/
def kTempAfter (msgHex : List UInt8) (kTemp : UInt8) (start : Nat) : UInt8 :=
  match semicolonFrom msgHex start with
  | none => kTemp
  | some k => (k + 1).toUInt8

/-- At `(`, for one `)`: what stands between them in hexadecimal. -/
def codeGiven (env : CodeEnv) (msg : List UInt8) (i j : Nat) : Given :=
  match codeHex msg i j with
  | none => .nothing
  | some msgHex =>
      let afterIp := kTempAfter msgHex env.kTemp 0
      let afterId := kTempAfter msgHex afterIp afterIp.toNat
      { Given.nothing with
        serverIp := fieldGiven 16 msgHex 0 3
        userId := fieldGiven 32 msgHex afterIp.toNat 3
        userPwd := fieldGiven 32 msgHex afterId.toNat 4 }

def flagGiven (msg : List UInt8) (place : Nat) : List UInt8 :=
  if byteAt msg place = 0x30 ∨ byteAt msg place = 0x31 then
    [byteAt msg place]
  else []

/-- At one character of the message. -/
def turnGiven (env : CodeEnv) (msg : List UInt8) (msglen i : Nat) : Given :=
  if byteAt msg i = chBracketOpen then apnGiven msg msglen i
  else if byteAt msg i = chParenOpen then
    .all ((positions msg chParenClose i msglen).map (codeGiven env msg i))
  else if byteAt msg i = chBraceOpen then
    { Given.nothing with
      offlineSoundFlag := flagGiven msg (i + 3)
      singleCallFlag := flagGiven msg (i + 9) }
  else .nothing

/-- At the characters before `count`. -/
def givenBefore (env : CodeEnv) (msg : List UInt8) (msglen count : Nat) :
    Given :=
  .all ((List.range count).map (turnGiven env msg msglen))

/-- The configuration is saved at this character. -/
def SavesAt (msg : List UInt8) (i : Nat) : Prop :=
  byteAt msg i = chParenOpen ∨ byteAt msg i = chBraceOpen

instance (msg : List UInt8) (i : Nat) : Decidable (SavesAt msg i) :=
  inferInstanceAs (Decidable (_ ∨ _))

/-- Where the characters before `count` save last: behind the last of them at
which something is saved. -/
def savedUpTo (msg : List UInt8) : Nat → Nat
  | 0 => 0
  | i + 1 => if SavesAt msg i then i + 1 else savedUpTo msg i

/-- The copies at this `(` stay inside their buffers. -/
def CodeFits (env : CodeEnv) (msg : List UInt8) (msglen i : Nat) : Prop :=
  ∀ j ∈ positions msg chParenClose i msglen, ∀ cfg,
    (parseCode env msg i cfg j).isSome = true

/-- No copy at a `(` before `count` leaves its buffer. -/
def PasswordFits (env : CodeEnv) (msg : List UInt8) (msglen count : Nat) :
    Prop :=
  ∀ i, i < count → byteAt msg i = chParenOpen → CodeFits env msg msglen i

section

variable {env : CodeEnv} {msg : List UInt8} {msglen i j : Nat}
  {session next : CodeSession} {cfg parsed : CodeCfg}

theorem parseApn_given (msg : List UInt8) (msglen i : Nat) (cfg : CodeCfg) :
    parseApn msg msglen i cfg = (apnGiven msg msglen i).onto cfg := by
  rw [apnGiven, Given.onto_all, List.foldl_flatMap, parseApn]
  congr 1
  funext cfg j
  rw [List.foldl_map]
  rfl

theorem takeField_given {size : Nat} {msgHex : List UInt8}
    {kTemp after : UInt8} {start skip : Nat} {field filled : TextField size}
    (taken : takeField msgHex kTemp start skip field = some (after, filled)) :
    after = kTempAfter msgHex kTemp start ∧
      filled = (fieldGiven size msgHex start skip).getLastD field ∧
      ∀ other : TextField size,
        (takeField msgHex kTemp start skip other).isSome = true := by
  unfold takeField at taken ⊢
  unfold kTempAfter fieldGiven
  cases found : semicolonFrom msgHex start with
  | none =>
      rw [found] at taken
      cases taken
      exact ⟨rfl, rfl, fun other => rfl⟩
  | some k =>
      rw [found] at taken
      by_cases cut : k < start + skip
      · simp only [if_pos cut] at taken
        cases taken
      · simp only [if_neg cut] at taken ⊢
        cases taken
        exact ⟨rfl, rfl, fun other => rfl⟩

/-- A `)` whose copies stay inside their buffers gives its values, and whether
they do is up to the message. -/
theorem parseCode_given (done : parseCode env msg i cfg j = some parsed) :
    parsed = (codeGiven env msg i j).onto cfg ∧
      ∀ other, (parseCode env msg i other j).isSome = true := by
  unfold parseCode at done
  obtain ⟨msgHex, decoded, done⟩ := Option.bind_eq_some_iff.mp done
  obtain ⟨⟨afterIp, serverIp⟩, ip, done⟩ := Option.bind_eq_some_iff.mp done
  obtain ⟨⟨afterId, userId⟩, id, done⟩ := Option.bind_eq_some_iff.mp done
  obtain ⟨⟨afterPwd, userPwd⟩, pwd, done⟩ := Option.bind_eq_some_iff.mp done
  obtain ⟨rfl, rfl, ipFits⟩ := takeField_given ip
  obtain ⟨rfl, rfl, idFits⟩ := takeField_given id
  obtain ⟨rfl, rfl, pwdFits⟩ := takeField_given pwd
  constructor
  · cases done
    rw [codeGiven, decoded]
    rfl
  · intro other
    obtain ⟨⟨otherIpTemp, otherIp⟩, takesIp⟩ :=
      Option.isSome_iff_exists.mp (ipFits other.serverIp)
    obtain ⟨rfl, _⟩ := takeField_given takesIp
    obtain ⟨⟨otherIdTemp, otherId⟩, takesId⟩ :=
      Option.isSome_iff_exists.mp (idFits other.userId)
    obtain ⟨rfl, _⟩ := takeField_given takesId
    obtain ⟨⟨otherPwdTemp, otherPwd⟩, takesPwd⟩ :=
      Option.isSome_iff_exists.mp (pwdFits other.userPwd)
    simp only [parseCode, decoded, Option.bind_eq_bind, Option.bind_some,
      takesIp, takesId, takesPwd, Option.isSome_some]

theorem parseCodes_given {places : List Nat}
    (folded : places.foldlM (parseCode env msg i) cfg = some parsed) :
    parsed = (Given.all (places.map (codeGiven env msg i))).onto cfg ∧
      ∀ j ∈ places, ∀ other, (parseCode env msg i other j).isSome = true := by
  induction places generalizing cfg with
  | nil =>
      cases folded
      refine ⟨rfl, ?_⟩
      intro j member
      cases member
  | cons place places induction =>
      rw [List.foldlM_cons] at folded
      obtain ⟨middle, first, later⟩ := Option.bind_eq_some_iff.mp folded
      obtain ⟨here, fits⟩ := parseCode_given first
      obtain ⟨rest, laterFit⟩ := induction later
      constructor
      · rw [List.map_cons, Given.all, Given.onto_followedBy, rest, here]
      · rw [List.forall_mem_cons]
        exact ⟨fits, laterFit⟩

theorem parseCodes_fits {places : List Nat}
    (fits : ∀ j ∈ places, ∀ other,
      (parseCode env msg i other j).isSome = true) (cfg : CodeCfg) :
    ∃ parsed, places.foldlM (parseCode env msg i) cfg = some parsed := by
  induction places generalizing cfg with
  | nil => exact ⟨cfg, rfl⟩
  | cons place places induction =>
      obtain ⟨first, later⟩ := List.forall_mem_cons.mp fits
      obtain ⟨middle, done⟩ := Option.isSome_iff_exists.mp (first cfg)
      obtain ⟨parsed, folded⟩ := induction later middle
      refine ⟨parsed, ?_⟩
      rw [List.foldlM_cons, done]
      exact folded

theorem flagAt_given (msg : List UInt8) (place : Nat) (flag : UInt8) :
    flagAt msg place flag = (flagGiven msg place).getLastD flag := by
  unfold flagAt flagGiven
  split
  · rfl
  · rfl

/-- What one turn does: it gives the configuration its values, and saves it at
some characters. -/
theorem codeTurn_given
    (turned : codeTurn env msg msglen session i = some next) :
    next.cfg = (turnGiven env msg msglen i).onto session.cfg ∧
      next.saved =
        (if SavesAt msg i then session.saved ++ [next.cfg]
        else session.saved) ∧
      (byteAt msg i = chParenOpen → CodeFits env msg msglen i) := by
  unfold turnGiven
  by_cases bracket : byteAt msg i = chBracketOpen
  · have quiet : ¬SavesAt msg i := by
      rw [SavesAt, bracket]
      decide
    rw [codeTurn_bracket bracket] at turned
    cases turned
    rw [if_pos bracket, if_neg quiet]
    exact ⟨parseApn_given msg msglen i _, rfl,
      fun paren => absurd (.inl paren) quiet⟩
  · by_cases paren : byteAt msg i = chParenOpen
    · have saves : SavesAt msg i := .inl paren
      rw [codeTurn_paren paren] at turned
      obtain ⟨parsed, folded, done⟩ := Option.bind_eq_some_iff.mp turned
      obtain ⟨given, fits⟩ := parseCodes_given folded
      cases done
      rw [if_neg bracket, if_pos paren, if_pos saves]
      exact ⟨given, rfl, fun _ => fits⟩
    · by_cases brace : byteAt msg i = chBraceOpen
      · have saves : SavesAt msg i := .inr brace
        rw [codeTurn_brace brace] at turned
        cases turned
        rw [if_neg bracket, if_neg paren, if_pos brace, if_pos saves]
        refine ⟨?_, rfl, fun here => absurd here paren⟩
        simp only [CodeSession.save, parseFlags, flagAt_given]
        rfl
      · have quiet : ¬SavesAt msg i := not_or.mpr ⟨paren, brace⟩
        rw [codeTurn_elsewhere bracket paren brace] at turned
        cases turned
        rw [if_neg bracket, if_neg paren, if_neg brace, if_neg quiet]
        exact ⟨rfl, rfl, fun here => absurd here paren⟩

theorem codeTurn_fits
    (fits : byteAt msg i = chParenOpen → CodeFits env msg msglen i) :
    ∃ next, codeTurn env msg msglen session i = some next := by
  by_cases bracket : byteAt msg i = chBracketOpen
  · exact ⟨_, codeTurn_bracket bracket⟩
  · by_cases paren : byteAt msg i = chParenOpen
    · obtain ⟨parsed, folded⟩ := parseCodes_fits (fits paren) session.cfg
      rw [codeTurn_paren paren, folded]
      exact ⟨_, rfl⟩
    · by_cases brace : byteAt msg i = chBraceOpen
      · exact ⟨_, codeTurn_brace brace⟩
      · exact ⟨_, codeTurn_elsewhere bracket paren brace⟩

theorem givenBefore_succ (env : CodeEnv) (msg : List UInt8)
    (msglen count : Nat) (cfg : CodeCfg) :
    (givenBefore env msg msglen (count + 1)).onto cfg =
      (turnGiven env msg msglen count).onto
        ((givenBefore env msg msglen count).onto cfg) := by
  simp only [givenBefore, Given.onto_all, List.range_succ, List.map_append,
    List.map_singleton, List.foldl_append, List.foldl_cons, List.foldl_nil]

/-- The loop before `count` comes to its end when no copy leaves its buffer. -/
theorem codeTurns_fits {count : Nat} (session : CodeSession)
    (fits : PasswordFits env msg msglen count) :
    ∃ next, (List.range count).foldlM (codeTurn env msg msglen) session =
      some next := by
  induction count with
  | zero => exact ⟨session, rfl⟩
  | succ count induction =>
      obtain ⟨middle, folded⟩ := induction fun i below =>
        fits i (Nat.lt_succ_of_lt below)
      obtain ⟨next, turned⟩ := @codeTurn_fits env msg msglen count middle
        (fits count (Nat.lt_succ_self count))
      refine ⟨next, ?_⟩
      rw [List.range_succ, List.foldlM_append, folded]
      simpa using turned

/-- What the loop before `count` leaves behind: the values that were given, in
memory, and those up to the last save, in flash. -/
structure TurnsDone (env : CodeEnv) (msg : List UInt8) (msglen count : Nat)
    (session next : CodeSession) : Prop where
  fits : PasswordFits env msg msglen count
  cfg : next.cfg = (givenBefore env msg msglen count).onto session.cfg
  stored : session.saved = [] → next.stored session.cfg =
    (givenBefore env msg msglen (savedUpTo msg count)).onto session.cfg

theorem codeTurns_done {count : Nat}
    (folded : (List.range count).foldlM (codeTurn env msg msglen) session =
      some next) : TurnsDone env msg msglen count session next := by
  induction count generalizing next with
  | zero =>
      cases folded
      constructor
      · intro i below
        cases below
      · rfl
      · intro fresh
        rw [CodeSession.stored, fresh]
        rfl
  | succ count induction =>
      rw [List.range_succ, List.foldlM_append] at folded
      obtain ⟨middle, earlier, last⟩ := Option.bind_eq_some_iff.mp folded
      have turned : codeTurn env msg msglen middle count = some next := by
        simpa using last
      have before := induction earlier
      obtain ⟨cfg, saved, fits⟩ := codeTurn_given turned
      have given : next.cfg =
          (givenBefore env msg msglen (count + 1)).onto session.cfg := by
        rw [cfg, before.cfg, givenBefore_succ]
      constructor
      · intro i below
        rcases Nat.lt_succ_iff_lt_or_eq.mp below with inside | rfl
        · exact before.fits i inside
        · exact fits
      · exact given
      · intro fresh
        have already := before.stored fresh
        rw [CodeSession.stored] at already ⊢
        rw [saved, savedUpTo]
        split
        · rw [List.getLast?_concat, Option.getD_some]
          exact given
        · exact already

end

end Tp79Boot
