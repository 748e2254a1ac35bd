import Tp79Boot.WriteCode.Given

/-!
# What the password guards

When a dealer has set a password, a message is refused if, at one of its `>`,
neither the text so far is the beginning of the stored password nor the text is
that of the super user.  A message that is not refused is carried out, whether
or not its text is the password.
-/

namespace Tp79Boot

/-- The check fails at this `>`. -/
def PwdFails (env : CodeEnv) (check : PwdCheck) (pwd : Vector UInt8 33)
    (msg : List UInt8) (i : Nat) : Prop :=
  ¬PwdMatches env pwd msg check.first i ∧ ¬SuperMatches env msg check.first

instance (env : CodeEnv) (check : PwdCheck) (pwd : Vector UInt8 33)
    (msg : List UInt8) (i : Nat) : Decidable (PwdFails env check pwd msg i) :=
  inferInstanceAs (Decidable (_ ∧ _))

/-- The check passes here, and the password is to be cleared. -/
def PwdClears (env : CodeEnv) (check : PwdCheck) (pwd : Vector UInt8 33)
    (msg : List UInt8) (i : Nat) : Prop :=
  ¬PwdFails env check pwd msg i ∧ check.clears = true ∧ ClearFollows msg i

instance (env : CodeEnv) (check : PwdCheck) (pwd : Vector UInt8 33)
    (msg : List UInt8) (i : Nat) : Decidable (PwdClears env check pwd msg i) :=
  inferInstanceAs (Decidable (_ ∧ _ ∧ _))

/-- Some `>` fails, and none before it clears the password. -/
def Refused (env : CodeEnv) (check : PwdCheck) (pwd : Vector UInt8 33)
    (msg : List UInt8) (msglen : Nat) : Prop :=
  ∃ i ∈ positions msg chGreater check.first msglen,
    PwdFails env check pwd msg i ∧
      ∀ earlier ∈ positions msg chGreater check.first msglen, earlier < i →
        ¬PwdClears env check pwd msg earlier

/-- Some `>` clears the password. -/
def Cleared (env : CodeEnv) (check : PwdCheck) (pwd : Vector UInt8 33)
    (msg : List UInt8) (msglen : Nat) : Prop :=
  ∃ i ∈ positions msg chGreater check.first msglen,
    PwdClears env check pwd msg i

instance (env : CodeEnv) (check : PwdCheck) (pwd : Vector UInt8 33)
    (msg : List UInt8) (msglen : Nat) :
    Decidable (Refused env check pwd msg msglen) :=
  inferInstanceAs (Decidable (∃ i ∈ positions _ _ _ _, _))

instance (env : CodeEnv) (check : PwdCheck) (pwd : Vector UInt8 33)
    (msg : List UInt8) (msglen : Nat) :
    Decidable (Cleared env check pwd msg msglen) :=
  inferInstanceAs (Decidable (∃ i ∈ positions _ _ _ _, _))

theorem positions_sorted (msg : List UInt8) (character : UInt8)
    (start stop : Nat) :
    (positions msg character start stop).Pairwise (· < ·) := by
  unfold positions
  apply List.Pairwise.filter
  exact List.pairwise_lt_range'

section

variable {env : CodeEnv} {check : PwdCheck} {msg : List UInt8}
  {session : CodeSession}

/-- The end of a scan is decided at the first `>` that fails or clears. -/
inductive ScanEnds (env : CodeEnv) (check : PwdCheck) (msg : List UInt8)
    (session : CodeSession) (places : List Nat) : PwdScanned → Prop where
  | refused (i : Nat) (here : i ∈ places)
      (fails : PwdFails env check session.cfg.dealersPwd msg i)
      (first : ∀ earlier ∈ places, earlier < i →
        ¬PwdClears env check session.cfg.dealersPwd msg earlier) :
      ScanEnds env check msg session places
        (.returned (session.send check.error))
  | cleared (i : Nat) (here : i ∈ places)
      (clears : PwdClears env check session.cfg.dealersPwd msg i)
      (first : ∀ earlier ∈ places, earlier < i →
        ¬PwdFails env check session.cfg.dealersPwd msg earlier) :
      ScanEnds env check msg session places
        (.returned ((session.setPwd clearedPwd).save.send
          (ascii "POC_CFG_DEV_PWD_CLEAR_OK\r\n")))
  | passed
      (passes : ∀ i ∈ places,
        ¬PwdFails env check session.cfg.dealersPwd msg i ∧
          ¬PwdClears env check session.cfg.dealersPwd msg i) :
      ScanEnds env check msg session places (.goesOn session)

theorem pwdScanAt_ends (isSet : ¬PwdUnset session.cfg.dealersPwd)
    {places : List Nat} (sorted : places.Pairwise (· < ·)) :
    ScanEnds env check msg session places
      (pwdScanAt env check msg places session) := by
  induction places with
  | nil =>
      apply ScanEnds.passed
      intro i member
      cases member
  | cons place later induction =>
      have after := (List.pairwise_cons.mp sorted).1
      have notBefore (i : Nat) (here : i = place) (earlier : Nat)
          (member : earlier ∈ place :: later) : ¬earlier < i := by
        rcases List.mem_cons.mp member with same | among
        · omega
        · have := after earlier among
          omega
      rw [pwdScanAt, if_neg isSet]
      by_cases fails : PwdFails env check session.cfg.dealersPwd msg place
      · have refused := fails
        unfold PwdFails at refused
        rw [if_pos refused]
        exact .refused place List.mem_cons_self fails
          fun earlier member less =>
            absurd less (notBefore place rfl earlier member)
      · have passes := fails
        unfold PwdFails at passes
        rw [if_neg passes]
        by_cases clears : check.clears = true ∧ ClearFollows msg place
        · rw [if_pos clears]
          exact .cleared place List.mem_cons_self ⟨fails, clears⟩
            fun earlier member less =>
              absurd less (notBefore place rfl earlier member)
        · have stays : ¬PwdClears env check session.cfg.dealersPwd msg place :=
            fun both => clears both.2
          rw [if_neg clears]
          have ending := induction (List.pairwise_cons.mp sorted).2
          generalize pwdScanAt env check msg later session = scanned at ending
          cases ending with
          | refused i here bad first =>
              refine .refused i (List.mem_cons_of_mem _ here) bad ?_
              intro earlier member less
              rcases List.mem_cons.mp member with rfl | among
              · exact stays
              · exact first earlier among less
          | cleared i here good first =>
              refine .cleared i (List.mem_cons_of_mem _ here) good ?_
              intro earlier member less
              rcases List.mem_cons.mp member with rfl | among
              · exact fails
              · exact first earlier among less
          | passed all =>
              apply ScanEnds.passed
              intro i member
              rcases List.mem_cons.mp member with rfl | among
              · exact ⟨fails, stays⟩
              · exact all i among

theorem not_refused {pwd : Vector UInt8 33} {msglen : Nat}
    (passes : ∀ i ∈ positions msg chGreater check.first msglen,
      ¬PwdFails env check pwd msg i ∧ ¬PwdClears env check pwd msg i) :
    ¬Refused env check pwd msg msglen := by
  rintro ⟨i, here, fails, _⟩
  exact (passes i here).1 fails

/-- A scan that nothing stops. -/
theorem pwdScan_goesOn {msglen : Nat}
    (isSet : ¬PwdUnset session.cfg.dealersPwd)
    (passes : ∀ i ∈ positions msg chGreater check.first msglen,
      ¬PwdFails env check session.cfg.dealersPwd msg i ∧
        ¬PwdClears env check session.cfg.dealersPwd msg i) :
    pwdScan env check msg msglen session = .goesOn session := by
  have ends : ScanEnds env check msg session _
      (pwdScan env check msg msglen session) :=
    pwdScanAt_ends isSet (positions_sorted ..)
  generalize pwdScan env check msg msglen session = scanned at ends
  cases ends with
  | refused i here fails first => exact absurd fails (passes i here).1
  | cleared i here clears first => exact absurd clears (passes i here).2
  | passed all => rfl

end

theorem memcmpEq_byte {msg literal : List UInt8} {count index : Nat}
    (same : memcmpEq msg 0 literal count) (inside : index < count) :
    byteAt msg index = byteAt literal index := by
  have entry := bytesAt_eq_iff.mp same index inside
  rwa [Nat.zero_add] at entry

theorem not_memcmpEq {msg first second : List UInt8}
    {firstCount secondCount : Nat} (same : memcmpEq msg 0 first firstCount)
    (index : Nat) (inside : index < firstCount ∧ index < secondCount)
    (differ : byteAt first index ≠ byteAt second index) :
    ¬memcmpEq msg 0 second secondCount := by
  intro other
  apply differ
  rw [← memcmpEq_byte same inside.1, memcmpEq_byte other inside.2]

section

variable {env : CodeEnv} {stored : CodeCfg} {msg : List UInt8}
  {msglen : UInt16}

theorem deal_cfg (begins : memcmpEq msg 0 (ascii "POC_CFG:<") 9) :
    writeCodeUartMsgDeal env stored msg msglen =
      writeCodeCfg env msg msglen.toNat (.start stored) := by
  have notTest : ¬memcmpEq msg 0 (ascii "AT+POC_TEST") 11 :=
    not_memcmpEq begins 0 (by decide) (by decide)
  have notReset : ¬memcmpEq msg 0 (ascii "POC_FAC_RESET:\r\n") 16 :=
    not_memcmpEq begins 4 (by decide) (by decide)
  have notInquire : ¬memcmpEq msg 0 (ascii "POC_INQUIRE_ALL:<") 17 :=
    not_memcmpEq begins 4 (by decide) (by decide)
  simp only [writeCodeUartMsgDeal, if_neg notTest, if_neg notReset,
    if_neg notInquire, if_pos begins]

theorem deal_inquire
    (begins : memcmpEq msg 0 (ascii "POC_INQUIRE_ALL:<") 17) :
    writeCodeUartMsgDeal env stored msg msglen =
      writeCodeInquireAll env msg msglen.toNat (.start stored) := by
  have notTest : ¬memcmpEq msg 0 (ascii "AT+POC_TEST") 11 :=
    not_memcmpEq begins 0 (by decide) (by decide)
  have notReset : ¬memcmpEq msg 0 (ascii "POC_FAC_RESET:\r\n") 16 :=
    not_memcmpEq begins 4 (by decide) (by decide)
  simp only [writeCodeUartMsgDeal, if_neg notTest, if_neg notReset,
    if_pos begins]

/-- The password as it was set, without the filling behind it. -/
def setPassword (pwd : Vector UInt8 33) : List UInt8 :=
  pwd.toList.takeWhile fun byte => byte != 0xFF

/-- Up to its first `>` the text is the password, or begins with that of the
super user. -/
def Authorised (env : CodeEnv) (check : PwdCheck) (pwd : Vector UInt8 33)
    (msg : List UInt8) (msglen : Nat) : Prop :=
  ∃ i, (positions msg chGreater check.first msglen).head? = some i ∧
    (bytesAt msg check.first (i - check.first) = setPassword pwd ∨
      (env.pwdSuperUser.length ≤ i - check.first ∧
        SuperMatches env msg check.first))

instance (env : CodeEnv) (check : PwdCheck) (pwd : Vector UInt8 33)
    (msg : List UInt8) (msglen : Nat) :
    Decidable (Authorised env check pwd msg msglen) :=
  match first : (positions msg chGreater check.first msglen).head? with
  | none => .isFalse (by
      rintro ⟨i, here, _⟩
      rw [first] at here
      cases here)
  | some i =>
      decidable_of_iff
        (bytesAt msg check.first (i - check.first) = setPassword pwd ∨
          (env.pwdSuperUser.length ≤ i - check.first ∧
            SuperMatches env msg check.first))
        ⟨fun known => ⟨i, first, known⟩, by
          rintro ⟨place, here, known⟩
          rw [first] at here
          cases here
          exact known⟩

/-- The message is carried out to the end, and the stored configuration is what
it was. -/
def KeepsStored (env : CodeEnv) (stored : CodeCfg) (msg : List UInt8)
    (msglen : UInt16) : Prop :=
  ∃ session, writeCodeUartMsgDeal env stored msg msglen = some session ∧
    session.stored stored = stored

/-- What is sent is the same for every configuration with this password. -/
def TellsNothing (env : CodeEnv) (stored : CodeCfg) (msg : List UInt8)
    (msglen : UInt16) : Prop :=
  ∀ other : CodeCfg, other.dealersPwd = stored.dealersPwd →
    (writeCodeUartMsgDeal env other msg msglen).map CodeSession.sent =
      (writeCodeUartMsgDeal env stored msg msglen).map CodeSession.sent

/-- A message that leaves the password set and, up to the last place where it
saves, gives every field the value that is stored already. -/
structure RepeatsStored (env : CodeEnv) (stored : CodeCfg) (msg : List UInt8)
    (msglen : Nat) : Prop where
  notCleared : ¬Cleared env cfgCheck stored.dealersPwd msg msglen
  fits : PasswordFits env msg msglen msglen
  repeats :
    (givenBefore env msg msglen (savedUpTo msg msglen)).Repeats stored

theorem keepsStored_iff (isSet : ¬PwdUnset stored.dealersPwd)
    (begins : memcmpEq msg 0 (ascii "POC_CFG:<") 9) :
    KeepsStored env stored msg msglen ↔
      Refused env cfgCheck stored.dealersPwd msg msglen.toNat ∨
        RepeatsStored env stored msg msglen.toNat := by
  have ends : ScanEnds env cfgCheck msg (.start stored) _
      (pwdScanAt env cfgCheck msg
        (positions msg chGreater cfgCheck.first msglen.toNat)
        (.start stored)) :=
    pwdScanAt_ends isSet (positions_sorted ..)
  rw [KeepsStored, deal_cfg begins, writeCodeCfg, pwdScan]
  generalize pwdScanAt env cfgCheck msg _ (.start stored) = scanned at ends ⊢
  cases ends with
  | refused i here fails first =>
      apply iff_of_true
      · exact ⟨_, rfl, rfl⟩
      · exact .inl ⟨i, here, fails, first⟩
  | cleared i here clears first =>
      apply iff_of_false
      · rintro ⟨session, done, kept⟩
        cases done
        have cleared : clearedPwd = stored.dealersPwd :=
          congrArg CodeCfg.dealersPwd kept
        apply isSet
        rw [← cleared]
        rfl
      · rintro (⟨place, there, fails, none⟩ | repeated)
        · rcases Nat.lt_trichotomy i place with less | rfl | greater
          · exact none i here less clears
          · exact clears.1 fails
          · exact first place there greater fails
        · exact repeated.notCleared ⟨i, here, clears⟩
  | passed passes =>
      have notCleared : ¬Cleared env cfgCheck stored.dealersPwd msg
          msglen.toNat := by
        rintro ⟨i, here, clears⟩
        exact (passes i here).2 clears
      constructor
      · rintro ⟨session, done, kept⟩
        have turns := codeTurns_done done
        have given := (turns.stored rfl).symm.trans kept
        exact .inr ⟨notCleared, turns.fits, Given.onto_eq_iff.mp given⟩
      · intro either
        have repeated := either.resolve_left (not_refused passes)
        obtain ⟨session, done⟩ := codeTurns_fits (.start stored) repeated.fits
        have turns := codeTurns_done done
        exact ⟨session, done, (turns.stored rfl).trans
          (Given.onto_eq_iff.mpr repeated.repeats)⟩

theorem inquireAll_returned {before after : CodeSession}
    (scanned : pwdScan env inquireCheck msg msglen.toNat before =
      .returned after) :
    writeCodeInquireAll env msg msglen.toNat before = some after := by
  unfold writeCodeInquireAll
  rw [scanned]

theorem inquireAll_goesOn {before after : CodeSession}
    (scanned : pwdScan env inquireCheck msg msglen.toNat before =
      .goesOn after) :
    writeCodeInquireAll env msg msglen.toNat before =
      some (after.send (inquireReply after.cfg)) := by
  unfold writeCodeInquireAll
  rw [scanned]

theorem inquire_sent (isSet : ¬PwdUnset stored.dealersPwd)
    (begins : memcmpEq msg 0 (ascii "POC_INQUIRE_ALL:<") 17) :
    (writeCodeUartMsgDeal env stored msg msglen).map CodeSession.sent =
      some [if Refused env inquireCheck stored.dealersPwd msg msglen.toNat then
        inquireCheck.error
      else inquireReply stored] := by
  have ends : ScanEnds env inquireCheck msg (.start stored) _
      (pwdScan env inquireCheck msg msglen.toNat (.start stored)) :=
    pwdScanAt_ends isSet (positions_sorted ..)
  rw [deal_inquire begins]
  generalize outcome : pwdScan env inquireCheck msg msglen.toNat
    (.start stored) = scanned at ends
  cases ends with
  | refused i here fails first =>
      have refused : Refused env inquireCheck stored.dealersPwd msg
          msglen.toNat := ⟨i, here, fails, first⟩
      rw [inquireAll_returned outcome, if_pos refused]
      rfl
  | cleared i here clears first => exact absurd clears.2.1 (by decide)
  | passed passes =>
      have notRefused : ¬Refused env inquireCheck stored.dealersPwd msg
          msglen.toNat := not_refused passes
      rw [inquireAll_goesOn outcome, if_neg notRefused]
      rfl

theorem flagText_inj {first second single : UInt8}
    (same : flagText first single = flagText second single) :
    first = second := by
  simpa [flagText] using same

theorem tellsNothing_iff (isSet : ¬PwdUnset stored.dealersPwd)
    (begins : memcmpEq msg 0 (ascii "POC_INQUIRE_ALL:<") 17) :
    TellsNothing env stored msg msglen ↔
      Refused env inquireCheck stored.dealersPwd msg msglen.toNat := by
  constructor
  · intro tellsNothing
    by_contra notRefused
    have same (first second : CodeCfg)
        (firstPwd : first.dealersPwd = stored.dealersPwd)
        (secondPwd : second.dealersPwd = stored.dealersPwd) :
        inquireReply first = inquireReply second := by
      have both := (tellsNothing first firstPwd).trans
        (tellsNothing second secondPwd).symm
      have firstSet := isSet
      have secondSet := isSet
      rw [← firstPwd] at firstSet
      rw [← secondPwd] at secondSet
      rw [inquire_sent firstSet begins, inquire_sent secondSet begins,
        firstPwd, secondPwd, if_neg notRefused, if_neg notRefused] at both
      exact List.singleton_inj.mp (Option.some.inj both)
    have zero : (0x30 : UInt8) ≠ 0 := by decide
    have one : (0x31 : UInt8) ≠ 0 := by decide
    have texts := same
      { stored with offlineSoundFlag := 0x30, singleCallFlag := 0x30 }
      { stored with offlineSoundFlag := 0x31, singleCallFlag := 0x30 } rfl rfl
    rw [inquireText_sent zero zero, inquireText_sent one zero,
      inquireText_eq, inquireText_eq] at texts
    have flags := flagText_inj
      ((List.append_right_inj (fieldText stored)).mp texts)
    have differ : (0x30 : UInt8) ≠ 0x31 := by decide
    exact differ flags
  · intro refused other samePwd
    have otherSet : ¬PwdUnset other.dealersPwd := by
      rw [samePwd]
      exact isSet
    have otherRefused := refused
    rw [← samePwd] at otherRefused
    rw [inquire_sent isSet begins, inquire_sent otherSet begins,
      if_pos refused, if_pos otherRefused]

end

/-- With a password set, a message without it changes nothing exactly when it
is refused or repeats what is stored, and tells nothing exactly when it is
refused. -/
theorem config_guarded_iff (env : CodeEnv) (stored : CodeCfg)
    (msg : List UInt8) (msglen : UInt16)
    (isSet : ¬PwdUnset stored.dealersPwd) :
    (memcmpEq msg 0 (ascii "POC_CFG:<") 9 →
      ((¬Authorised env cfgCheck stored.dealersPwd msg msglen.toNat →
          KeepsStored env stored msg msglen) ↔
        Authorised env cfgCheck stored.dealersPwd msg msglen.toNat ∨
          Refused env cfgCheck stored.dealersPwd msg msglen.toNat ∨
          RepeatsStored env stored msg msglen.toNat)) ∧
    (memcmpEq msg 0 (ascii "POC_INQUIRE_ALL:<") 17 →
      ((¬Authorised env inquireCheck stored.dealersPwd msg msglen.toNat →
          TellsNothing env stored msg msglen) ↔
        Authorised env inquireCheck stored.dealersPwd msg msglen.toNat ∨
          Refused env inquireCheck stored.dealersPwd msg msglen.toNat)) := by
  constructor
  · intro begins
    rw [keepsStored_iff isSet begins]
    exact or_iff_not_imp_left.symm
  · intro begins
    rw [tellsNothing_iff isSet begins]
    exact or_iff_not_imp_left.symm

def aCodeEnv : CodeEnv :=
  { pwdSuperUser := ascii "TYT"
    nonempty := by decide
    pastPwd := []
    pastZeros := []
    kTemp := 0
    setDefault := id }

def aCodeCfg : CodeCfg :=
  { ver := Vector.replicate 32 0
    dealersPwd := newPwd (ascii "12") 0 2
    apnName := .fill 32 [] 0
    apnPwd := .fill 32 [] 0
    serverIp := .fill 16 [] 0
    userId := .fill 32 [] 0
    userPwd := .fill 32 [] 0
    offlineSoundFlag := 0x30
    singleCallFlag := 0x30 }

/-- A wrong password is refused, and flags that are stored already can be sent
without the password. -/
theorem config_guarded_iff_wrong :
    KeepsStored aCodeEnv aCodeCfg (ascii "POC_CFG:<2>\x7bOR1,INV01\x7d") 22 ∧
      KeepsStored aCodeEnv aCodeCfg (ascii "POC_CFG:<1>\x7bOR0,INV00\x7d") 22 ∧
      TellsNothing aCodeEnv aCodeCfg (ascii "POC_INQUIRE_ALL:<2>") 19 := by
  have guarded (msg : List UInt8) (msglen : UInt16) :=
    config_guarded_iff aCodeEnv aCodeCfg msg msglen (by decide)
  refine ⟨?_, ?_, ?_⟩
  · apply ((guarded _ _).1 (by decide)).mpr
    · exact .inr (.inl (by decide))
    · decide
  · apply ((guarded _ _).1 (by decide)).mpr
    · refine .inr (.inr ⟨by decide, ?_, by decide⟩)
      have none : ∀ i, i < 22 → byteAt
          (ascii "POC_CFG:<1>\x7bOR0,INV00\x7d") i ≠ chParenOpen := by decide
      intro i below paren
      exact absurd paren (none i below)
    · decide
  · apply ((guarded _ _).2 (by decide)).mpr
    · exact .inr (by decide)
    · decide

/-- The first character of the password is enough to change a flag, and a
message without `>` is answered. -/
theorem config_guarded_iff_partial :
    (¬Authorised aCodeEnv cfgCheck aCodeCfg.dealersPwd
        (ascii "POC_CFG:<1>\x7bOR1,INV01\x7d") 22 ∧
      ¬KeepsStored aCodeEnv aCodeCfg
        (ascii "POC_CFG:<1>\x7bOR1,INV01\x7d") 22) ∧
    (¬Authorised aCodeEnv inquireCheck aCodeCfg.dealersPwd
        (ascii "POC_INQUIRE_ALL:<") 17 ∧
      ¬TellsNothing aCodeEnv aCodeCfg (ascii "POC_INQUIRE_ALL:<") 17) := by
  refine ⟨⟨by decide, ?_⟩, by decide, ?_⟩
  · rw [keepsStored_iff (by decide) (by decide)]
    rintro (refused | repeated)
    · exact absurd refused (by decide)
    · exact absurd repeated.repeats (by decide)
  · rw [tellsNothing_iff (by decide) (by decide)]
    decide

end Tp79Boot
