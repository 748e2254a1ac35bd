import Tp79Boot.WriteCode.RoundTrip

/-!
# Buffers of the parser

Every access of the parser to the fields of the configuration and to `msg_hex`,
with the count that the code computes for it.  Most counts are remainders; the
count of a new password is not, nor is that of the decoded text, and a
remainder of a negative number is negative.
-/

namespace Tp79Boot

/-- An access as the code makes it. -/
inductive CodeAccess where
  /-- `count` bytes from the start of a buffer of `size` bytes. -/
  | write (size : Nat) (count : Int)
  /-- `count` bytes of `msg_hex` from `start` on. -/
  | readHex (start : Nat) (count : Int)
  /-- A use of `k_temp`, and whether it has been set. -/
  | useKTemp (isSet : Bool)
deriving DecidableEq

/-- A negative count is a huge one for `memcpy`. -/
def CodeAccess.Allowed : CodeAccess → Prop
  | .write size count => 0 ≤ count ∧ count ≤ size
  | .readHex start count => 0 ≤ count ∧ start + count ≤ 256
  | .useKTemp isSet => isSet = true

instance (access : CodeAccess) : Decidable access.Allowed :=
  match access with
  | .write _ _ => inferInstanceAs (Decidable (_ ∧ _))
  | .readHex _ _ => inferInstanceAs (Decidable (_ ∧ _))
  | .useKTemp _ => inferInstanceAs (Decidable (_ = _))

/-- While the password is checked.  Nothing is listed behind a copy that leaves
the password. -/
def pwdAccesses (env : CodeEnv) (check : PwdCheck) (msg : List UInt8) :
    List Nat → Vector UInt8 33 → List CodeAccess
  | [], _ => []
  | i :: later, pwd =>
      if PwdUnset pwd then
        if ZerosMatch env msg check.first i then
          pwdAccesses env check msg later pwd
        else
          [.write 33 33, .write 33 ((i : Int) - check.first)] ++
            if 33 < i - check.first then []
            else
              pwdAccesses env check msg later (newPwd msg check.first i)
      else if PwdFails env check pwd msg i then []
      else if check.clears ∧ ClearFollows msg i then [.write 33 33]
      else pwdAccesses env check msg later pwd

/-- At `[`. -/
def apnAccesses (msg : List UInt8) (msglen i : Nat) : List CodeAccess :=
  (positions msg chBracketClose i msglen).flatMap fun j : Nat =>
    (positions msg chComma i j).flatMap fun k : Nat =>
      [.write 33 33, .write 33 33,
        .write 33 (((k : Int) - i - 1).tmod 33),
        .write 33 (((j : Int) - k - 1).tmod 33)]

/-- In one of the three loops over `msg_hex`. -/
def fieldAccesses (size : Nat) (msgHex : List UInt8) (start skip : Nat) :
    List CodeAccess :=
  match semicolonFrom msgHex start with
  | none => [.readHex start (256 - start)]
  | some k =>
      [.readHex start (k + 1 - start), .write size size,
        .readHex (start + skip) (((k : Int) - start - skip).tmod size),
        .write size (((k : Int) - start - skip).tmod size)]

/-- At `(`, for one `)`. -/
def codeAccesses (env : CodeEnv) (msg : List UInt8) (i j : Nat) :
    List CodeAccess :=
  [.write 256 256, .write 256 ((j - i + 1) / 2 : Nat)] ++
    match codeHex msg i j with
    | none => []
    | some msgHex =>
        let afterIp := kTempAfter msgHex env.kTemp 0
        let afterId := kTempAfter msgHex afterIp afterIp.toNat
        fieldAccesses 17 msgHex 0 3 ++
          .useKTemp (semicolonFrom msgHex 0).isSome ::
            (fieldAccesses 33 msgHex afterIp.toNat 3 ++
              fieldAccesses 33 msgHex afterId.toNat 4)

def turnAccesses (env : CodeEnv) (msg : List UInt8) (msglen i : Nat) :
    List CodeAccess :=
  if byteAt msg i = chBracketOpen then apnAccesses msg msglen i
  else if byteAt msg i = chParenOpen then
    (positions msg chParenClose i msglen).flatMap (codeAccesses env msg i)
  else []

def scanAccesses (env : CodeEnv) (check : PwdCheck) (msg : List UInt8)
    (msglen : Nat) (session : CodeSession) : List CodeAccess :=
  pwdAccesses env check msg (positions msg chGreater check.first msglen)
    session.cfg.dealersPwd

def cfgAccesses (env : CodeEnv) (msg : List UInt8) (msglen : Nat)
    (session : CodeSession) : List CodeAccess :=
  scanAccesses env cfgCheck msg msglen session ++
    match pwdScan env cfgCheck msg msglen session with
    | .goesOn _ => (List.range msglen).flatMap (turnAccesses env msg msglen)
    | _ => []

/-- The accesses of `write_code_uart_msg_deal`. -/
def writeCodeAccesses (env : CodeEnv) (stored : CodeCfg) (msg : List UInt8)
    (msglen : UInt16) : List CodeAccess :=
  if memcmpEq msg 0 (ascii "AT+POC_TEST") 11 then []
  else if memcmpEq msg 0 (ascii "POC_FAC_RESET:\r\n") 16 then []
  else if memcmpEq msg 0 (ascii "POC_INQUIRE_ALL:<") 17 then
    scanAccesses env inquireCheck msg msglen.toNat (.start stored)
  else if memcmpEq msg 0 (ascii "POC_CFG:<") 9 then
    cfgAccesses env msg msglen.toNat (.start stored)
  else []

def AllAllowed (accesses : List CodeAccess) : Prop :=
  ∀ access ∈ accesses, access.Allowed

instance (accesses : List CodeAccess) : Decidable (AllAllowed accesses) :=
  List.decidableBAll CodeAccess.Allowed accesses

section

variable {first second : List CodeAccess}

theorem allAllowed_nil : AllAllowed [] :=
  fun _ member => absurd member List.not_mem_nil

theorem allAllowed_append :
    AllAllowed (first ++ second) ↔ AllAllowed first ∧ AllAllowed second :=
  List.forall_mem_append

theorem allAllowed_cons {access : CodeAccess} :
    AllAllowed (access :: second) ↔ access.Allowed ∧ AllAllowed second :=
  List.forall_mem_cons

theorem allAllowed_flatMap {places : List Nat}
    {accesses : Nat → List CodeAccess} :
    AllAllowed (places.flatMap accesses) ↔
      ∀ place ∈ places, AllAllowed (accesses place) := by
  constructor
  · intro allowed place member access inside
    exact allowed access (List.mem_flatMap.mpr ⟨place, member, inside⟩)
  · intro allowed access member
    obtain ⟨place, among, inside⟩ := List.mem_flatMap.mp member
    exact allowed place among access inside

end

/-- The text up to this `>` becomes the password: the text up to an earlier one
is the beginning of `000000`. -/
def Chosen (env : CodeEnv) (msg : List UInt8) (first : Nat)
    (places : List Nat) (i : Nat) : Prop :=
  ¬ZerosMatch env msg first i ∧
    ∀ earlier ∈ places, earlier < i → ZerosMatch env msg first earlier

/-- A password that is stored has at most 33 characters.  One that begins with
`0xFF` does not count as set, so the next one is stored over it. -/
def PwdFits (env : CodeEnv) (check : PwdCheck) (pwd : Vector UInt8 33)
    (msg : List UInt8) (places : List Nat) : Prop :=
  PwdUnset pwd → ∀ i ∈ places,
    Chosen env msg check.first places i ∨
        byteAt msg check.first = 0xFF ∧ ¬ZerosMatch env msg check.first i →
      i - check.first ≤ 33

/-- No `>` ends the scan. -/
def PwdPasses (env : CodeEnv) (check : PwdCheck) (pwd : Vector UInt8 33)
    (msg : List UInt8) (places : List Nat) : Prop :=
  (¬PwdUnset pwd → ∀ i ∈ places,
      ¬PwdFails env check pwd msg i ∧ ¬PwdClears env check pwd msg i) ∧
    (PwdUnset pwd → byteAt msg check.first ≠ 0xFF → ∀ f ∈ places,
      Chosen env msg check.first places f → ∀ i ∈ places, f < i →
        ¬PwdFails env check (newPwd msg check.first f) msg i ∧
          ¬PwdClears env check (newPwd msg check.first f) msg i)

/-- The address ends in the decoded text, and no semicolon stands too early for
the name or the password behind it. -/
def FieldsFit (msgHex : List UInt8) : Prop :=
  ∃ ip, semicolonFrom msgHex 0 = some ip ∧ 3 ≤ ip ∧
    ∀ id, semicolonFrom msgHex ((ip + 1) % 256) = some id →
      (ip + 1) % 256 + 3 ≤ id ∧
        ∀ pwd, semicolonFrom msgHex ((id + 1) % 256) = some pwd →
          (id + 1) % 256 + 4 ≤ pwd

/-- The text between the parentheses decodes to at most 256 bytes, and its
fields fit. -/
def CodeBounded (msg : List UInt8) (i j : Nat) : Prop :=
  j - i ≤ 512 ∧ ∀ msgHex, codeHex msg i j = some msgHex → FieldsFit msgHex

def CodesBounded (msg : List UInt8) (msglen : Nat) : Prop :=
  ∀ i, i < msglen → byteAt msg i = chParenOpen →
    ∀ j ∈ positions msg chParenClose i msglen, CodeBounded msg i j

theorem positions_ge {msg : List UInt8} {character : UInt8}
    {start stop place : Nat}
    (member : place ∈ positions msg character start stop) :
    start ≤ place ∧ place < stop ∧ byteAt msg place = character := by
  obtain ⟨inside, here⟩ := List.mem_filter.mp member
  have range := List.mem_range'_1.mp inside
  exact ⟨range.1, by omega, eq_of_beq here⟩

section

variable {env : CodeEnv} {check : PwdCheck} {msg : List UInt8}
  {pwd : Vector UInt8 33}

theorem zerosMatch_of_le {first i : Nat} (le : i ≤ first) :
    ZerosMatch env msg first i := by
  rw [ZerosMatch, memcmpEq, Nat.sub_eq_zero_of_le le]
  rfl

theorem newPwd_unset_iff {first i : Nat} (past : first < i) :
    PwdUnset (newPwd msg first i) ↔ byteAt msg first = 0xFF := by
  have some_ : 0 < i - first := Nat.sub_pos_of_lt past
  simp [PwdUnset, newPwd, some_]

section

variable {first i f : Nat} {later : List Nat}

theorem chosen_cons (zeros : ZerosMatch env msg first i) :
    Chosen env msg first (i :: later) f ↔ Chosen env msg first later f := by
  refine and_congr_right fun _ => ?_
  rw [List.forall_mem_cons]
  exact and_iff_right fun _ => zeros

theorem chosen_head (after : ∀ place ∈ later, i < place)
    (other : ¬ZerosMatch env msg first i) :
    Chosen env msg first (i :: later) i := by
  refine ⟨other, ?_⟩
  intro earlier member less
  rcases List.mem_cons.mp member with rfl | among
  · exact absurd less (Nat.lt_irrefl _)
  · exact absurd less (Nat.lt_asymm (after earlier among))

theorem not_chosen_later (other : ¬ZerosMatch env msg first i)
    (less : i < f) : ¬Chosen env msg first (i :: later) f :=
  fun chosen => other (chosen.2 i List.mem_cons_self less)

theorem zerosMatch_past (other : ¬ZerosMatch env msg first i) : first < i :=
  Nat.lt_of_not_le fun le => other (zerosMatch_of_le le)

theorem pwdFits_zeros (zeros : ZerosMatch env msg check.first i) :
    PwdFits env check pwd msg (i :: later) ↔
      PwdFits env check pwd msg later := by
  refine forall_congr' fun _ => ?_
  rw [List.forall_mem_cons]
  simp only [chosen_cons zeros]
  apply and_iff_right
  rintro (chosen | other)
  · exact absurd zeros chosen.1
  · exact absurd zeros other.2

theorem pwdFits_copy (unset : PwdUnset pwd)
    (after : ∀ place ∈ later, i < place)
    (other : ¬ZerosMatch env msg check.first i) :
    PwdFits env check pwd msg (i :: later) ↔
      i - check.first ≤ 33 ∧
        PwdFits env check (newPwd msg check.first i) msg later := by
  have again := @newPwd_unset_iff msg _ _ (zerosMatch_past other)
  constructor
  · intro fits
    refine ⟨fits unset i List.mem_cons_self (.inl (chosen_head after other)),
      ?_⟩
    intro next f among needs
    apply fits unset f (List.mem_cons_of_mem _ among)
    rcases needs with chosen | unsuitable
    · exact .inr ⟨again.mp next, chosen.1⟩
    · exact .inr unsuitable
  · rintro ⟨short, rest⟩ _ f member needs
    rcases List.mem_cons.mp member with rfl | among
    · exact short
    · rcases needs with chosen | unsuitable
      · exact absurd chosen (not_chosen_later other (after f among))
      · exact rest (again.mpr unsuitable.1) f among (.inr unsuitable)

theorem pwdPasses_set (isSet : ¬PwdUnset pwd) {places : List Nat} :
    PwdPasses env check pwd msg places ↔
      ∀ i ∈ places, ¬PwdFails env check pwd msg i ∧
        ¬PwdClears env check pwd msg i := by
  constructor
  · intro passes
    exact passes.1 isSet
  · intro passes
    exact ⟨fun _ => passes, fun unset => absurd unset isSet⟩

theorem pwdPasses_zeros (unset : PwdUnset pwd)
    (after : ∀ place ∈ later, i < place)
    (zeros : ZerosMatch env msg check.first i) :
    PwdPasses env check pwd msg (i :: later) ↔
      PwdPasses env check pwd msg later := by
  constructor
  · intro passes
    refine ⟨fun isSet => absurd unset isSet, ?_⟩
    intro _ other f among chosen k behind less
    exact passes.2 unset other f (List.mem_cons_of_mem _ among)
      ((chosen_cons zeros).mpr chosen) k (List.mem_cons_of_mem _ behind) less
  · intro passes
    refine ⟨fun isSet => absurd unset isSet, ?_⟩
    intro _ other f member chosen k place less
    have among : f ∈ later := by
      rcases List.mem_cons.mp member with rfl | among
      · exact absurd zeros chosen.1
      · exact among
    have behind : k ∈ later := by
      rcases List.mem_cons.mp place with rfl | behind
      · exact absurd less (Nat.lt_asymm (after f among))
      · exact behind
    exact passes.2 unset other f among ((chosen_cons zeros).mp chosen) k behind
      less

theorem pwdPasses_copy (unset : PwdUnset pwd)
    (after : ∀ place ∈ later, i < place)
    (other : ¬ZerosMatch env msg check.first i) :
    PwdPasses env check pwd msg (i :: later) ↔
      PwdPasses env check (newPwd msg check.first i) msg later := by
  have again := @newPwd_unset_iff msg _ _ (zerosMatch_past other)
  by_cases full : byteAt msg check.first = 0xFF
  · refine iff_of_true ?_ ?_
    · exact ⟨fun isSet => absurd unset isSet, fun _ part => absurd full part⟩
    · exact ⟨fun isSet => absurd (again.mpr full) isSet,
        fun _ part => absurd full part⟩
  · rw [pwdPasses_set (again.not.mpr full)]
    constructor
    · intro passes k behind
      exact passes.2 unset full i List.mem_cons_self (chosen_head after other) k
        (List.mem_cons_of_mem _ behind) (after k behind)
    · intro passes
      refine ⟨fun isSet => absurd unset isSet, ?_⟩
      intro _ _ f member chosen k place less
      rcases List.mem_cons.mp member with rfl | among
      · rcases List.mem_cons.mp place with rfl | behind
        · exact absurd less (Nat.lt_irrefl _)
        · exact passes k behind
      · exact absurd chosen (not_chosen_later other (after f among))

end

theorem pwdAccesses_set (isSet : ¬PwdUnset pwd) (places : List Nat) :
    AllAllowed (pwdAccesses env check msg places pwd) := by
  induction places with
  | nil => exact allAllowed_nil
  | cons i later induction =>
      rw [pwdAccesses, if_neg isSet]
      split
      · exact allAllowed_nil
      · split
        · decide
        · exact induction

theorem pwdAccesses_iff {places : List Nat}
    (sorted : places.Pairwise (· < ·)) :
    AllAllowed (pwdAccesses env check msg places pwd) ↔
      PwdFits env check pwd msg places := by
  induction places generalizing pwd with
  | nil =>
      exact iff_of_true allAllowed_nil
        fun _ _ member => absurd member List.not_mem_nil
  | cons i later induction =>
      obtain ⟨after, sortedLater⟩ := List.pairwise_cons.mp sorted
      by_cases unset : PwdUnset pwd
      · rw [pwdAccesses, if_pos unset]
        by_cases zeros : ZerosMatch env msg check.first i
        · rw [if_pos zeros, pwdFits_zeros zeros]
          exact induction sortedLater
        · have count : CodeAccess.Allowed
              (.write 33 ((i : Int) - check.first)) ↔
                i - check.first ≤ 33 := by
            have past := zerosMatch_past zeros
            simp only [CodeAccess.Allowed]
            omega
          have whole : CodeAccess.Allowed (.write 33 33) := by decide
          rw [if_neg zeros, pwdFits_copy unset after zeros, allAllowed_append,
            allAllowed_cons, allAllowed_cons, count, and_iff_right whole,
            and_iff_left allAllowed_nil]
          refine and_congr_right fun short => ?_
          rw [if_neg (Nat.not_lt_of_ge short)]
          exact induction sortedLater
      · exact iff_of_true (pwdAccesses_set unset _)
          fun set => absurd set unset

theorem setPwd_dealersPwd {session : CodeSession} {next : Vector UInt8 33} :
    (if check.saves = true then (session.setPwd next).save
      else session.setPwd next).cfg.dealersPwd = next := by
  split
  · rfl
  · rfl

theorem pwdScanAt_set_iff {places : List Nat} {session : CodeSession}
    (isSet : ¬PwdUnset session.cfg.dealersPwd)
    (sorted : places.Pairwise (· < ·)) :
    (∃ after, pwdScanAt env check msg places session = .goesOn after) ↔
      ∀ i ∈ places, ¬PwdFails env check session.cfg.dealersPwd msg i ∧
        ¬PwdClears env check session.cfg.dealersPwd msg i := by
  have ends : ScanEnds env check msg session places
      (pwdScanAt env check msg places session) :=
    pwdScanAt_ends isSet sorted
  generalize pwdScanAt env check msg places session = scanned at ends
  cases ends with
  | refused i here fails first =>
      refine iff_of_false ?_ (fun passes => (passes i here).1 fails)
      rintro ⟨after, other⟩
      cases other
  | cleared i here clears first =>
      refine iff_of_false ?_ (fun passes => (passes i here).2 clears)
      rintro ⟨after, other⟩
      cases other
  | passed passes => exact iff_of_true ⟨session, rfl⟩ passes

theorem pwdScanAt_iff {places : List Nat} {session : CodeSession}
    (sorted : places.Pairwise (· < ·))
    (fits : PwdFits env check session.cfg.dealersPwd msg places) :
    (∃ after, pwdScanAt env check msg places session = .goesOn after) ↔
      PwdPasses env check session.cfg.dealersPwd msg places := by
  induction places generalizing session with
  | nil =>
      refine iff_of_true ⟨session, rfl⟩ ⟨?_, ?_⟩
      · exact fun _ _ member => absurd member List.not_mem_nil
      · exact fun _ _ _ member => absurd member List.not_mem_nil
  | cons i later induction =>
      obtain ⟨after, sortedLater⟩ := List.pairwise_cons.mp sorted
      by_cases unset : PwdUnset session.cfg.dealersPwd
      · rw [pwdScanAt, if_pos unset]
        by_cases zeros : ZerosMatch env msg check.first i
        · rw [if_pos zeros, pwdPasses_zeros unset after zeros]
          exact induction sortedLater ((pwdFits_zeros zeros).mp fits)
        · obtain ⟨short, rest⟩ := (pwdFits_copy unset after zeros).mp fits
          have stored := @setPwd_dealersPwd check session
            (newPwd msg check.first i)
          rw [← stored] at rest
          have step := induction sortedLater rest
          rw [stored] at step
          rw [if_neg zeros, if_neg (Nat.not_lt_of_ge short),
            pwdPasses_copy unset after zeros]
          exact step
      · rw [pwdPasses_set unset]
        exact pwdScanAt_set_iff unset sorted

/-- Where the password fits no copy leaves it. -/
theorem pwdScanAt_inside {places : List Nat} {session : CodeSession}
    (sorted : places.Pairwise (· < ·))
    (fits : PwdFits env check session.cfg.dealersPwd msg places) :
    pwdScanAt env check msg places session ≠ .overrun := by
  induction places generalizing session with
  | nil =>
      intro other
      cases other
  | cons i later induction =>
      obtain ⟨after, sortedLater⟩ := List.pairwise_cons.mp sorted
      by_cases unset : PwdUnset session.cfg.dealersPwd
      · rw [pwdScanAt, if_pos unset]
        by_cases zeros : ZerosMatch env msg check.first i
        · rw [if_pos zeros]
          exact induction sortedLater ((pwdFits_zeros zeros).mp fits)
        · obtain ⟨short, rest⟩ := (pwdFits_copy unset after zeros).mp fits
          rw [if_neg zeros, if_neg (Nat.not_lt_of_ge short)]
          rw [← @setPwd_dealersPwd check session
            (newPwd msg check.first i)] at rest
          exact induction sortedLater rest
      · have ends : ScanEnds env check msg session (i :: later)
            (pwdScanAt env check msg (i :: later) session) :=
          pwdScanAt_ends unset sorted
        intro overrun
        rw [overrun] at ends
        cases ends

end

theorem semicolonFrom_bounds {msgHex : List UInt8} {start k : Nat}
    (found : semicolonFrom msgHex start = some k) : start ≤ k ∧ k < 256 := by
  have member := List.mem_of_find?_eq_some found
  have range := List.mem_range'_1.mp member
  omega

/-- The remainder is used as a count; it is one exactly when the field does not
end before it begins. -/
theorem fieldAccesses_iff {size start skip : Nat} {msgHex : List UInt8}
    (inside : start < 256) (small : skip < size) :
    AllAllowed (fieldAccesses size msgHex start skip) ↔
      ∀ k, semicolonFrom msgHex start = some k → start + skip ≤ k := by
  unfold fieldAccesses
  cases found : semicolonFrom msgHex start with
  | none =>
      refine iff_of_true ?_ ?_
      · refine allAllowed_cons.mpr ⟨?_, allAllowed_nil⟩
        simp only [CodeAccess.Allowed]
        omega
      · intro k other
        cases other
  | some k =>
      have range := semicolonFrom_bounds found
      simp only [allAllowed_cons, CodeAccess.Allowed, Option.some.injEq,
        forall_eq']
      by_cases fits : start + skip ≤ k
      · have distance : (k : Int) - start - skip =
            ((k - start - skip : Nat) : Int) := by omega
        have count : ((k : Int) - start - skip).tmod size =
            ((k - start - skip) % size : Nat) := by
          rw [distance]
          rfl
        have below := Nat.mod_lt (k - start - skip)
          (Nat.lt_of_le_of_lt (Nat.zero_le skip) small)
        have less := Nat.mod_le (k - start - skip) size
        rw [count]
        refine iff_of_true ⟨?_, ?_, ?_, ?_, allAllowed_nil⟩ fits
        · omega
        · omega
        · omega
        · omega
      · have negative : ((k : Int) - start - skip).tmod size =
            (k : Int) - start - skip := by
          have distance : (k : Int) - start - skip =
              -((start + skip - k : Nat) : Int) := by omega
          rw [distance, Int.neg_tmod,
            Int.tmod_eq_of_lt (Int.natCast_nonneg _) (by omega)]
        refine iff_of_false ?_ fits
        rintro ⟨_, _, counted, _⟩
        rw [negative] at counted
        omega

theorem kTempAfter_toNat {msgHex : List UInt8} {kTemp : UInt8}
    {start k : Nat} (found : semicolonFrom msgHex start = some k) :
    (kTempAfter msgHex kTemp start).toNat = (k + 1) % 256 := by
  rw [kTempAfter, found]
  simp

theorem kTempAfter_none {msgHex : List UInt8} {kTemp : UInt8} {start : Nat}
    (none : semicolonFrom msgHex start = none) :
    kTempAfter msgHex kTemp start = kTemp := by
  rw [kTempAfter, none]

theorem codeHex_eq_none_iff {msg : List UInt8} {i j : Nat} :
    codeHex msg i j = none ↔ ¬j - i ≤ 512 := by
  simp only [codeHex, strToHex_length]
  split
  next fits =>
    refine iff_of_false ?_ (by omega)
    intro other
    cases other
  next long => exact iff_of_true rfl (by omega)

theorem hexAccesses_iff {msgHex : List UInt8} {kTemp : UInt8} :
    AllAllowed (fieldAccesses 17 msgHex 0 3 ++
      .useKTemp (semicolonFrom msgHex 0).isSome ::
        (fieldAccesses 33 msgHex (kTempAfter msgHex kTemp 0).toNat 3 ++
          fieldAccesses 33 msgHex (kTempAfter msgHex (kTempAfter msgHex kTemp 0)
            (kTempAfter msgHex kTemp 0).toNat).toNat 4)) ↔
      FieldsFit msgHex := by
  rw [allAllowed_append, allAllowed_cons, allAllowed_append,
    fieldAccesses_iff (by decide) (by decide),
    fieldAccesses_iff (UInt8.toNat_lt _) (by decide),
    fieldAccesses_iff (UInt8.toNat_lt _) (by decide)]
  cases ip : semicolonFrom msgHex 0 with
  | none =>
      refine iff_of_false ?_ ?_
      · rintro ⟨_, used, _⟩
        cases used
      · rintro ⟨place, found, _⟩
        rw [ip] at found
        cases found
  | some address =>
      have afterIp := @kTempAfter_toNat msgHex kTemp 0 address ip
      rw [afterIp]
      have fits : FieldsFit msgHex ↔ 3 ≤ address ∧
          ∀ id, semicolonFrom msgHex ((address + 1) % 256) = some id →
            (address + 1) % 256 + 3 ≤ id ∧
              ∀ pwd, semicolonFrom msgHex ((id + 1) % 256) = some pwd →
                (id + 1) % 256 + 4 ≤ pwd := by
        simp only [FieldsFit, ip, Option.some.injEq, exists_eq_left']
      rw [fits]
      simp only [Option.isSome_some, CodeAccess.Allowed, true_and,
        Option.some.injEq, forall_eq', Nat.zero_add]
      refine and_congr_right fun _ => ?_
      cases id : semicolonFrom msgHex ((address + 1) % 256) with
      | none =>
          rw [kTempAfter_none id, afterIp, id]
          simp only [reduceCtorEq, false_implies, implies_true, and_self]
      | some name =>
          rw [kTempAfter_toNat id]
          simp only [Option.some.injEq, forall_eq']

theorem codeAccesses_iff {env : CodeEnv} {msg : List UInt8} {i j : Nat} :
    AllAllowed (codeAccesses env msg i j) ↔ CodeBounded msg i j := by
  have cleared : CodeAccess.Allowed (.write 256 256) := by decide
  have decoded : CodeAccess.Allowed
      (.write 256 ((j - i + 1) / 2 : Nat)) ↔ j - i ≤ 512 := by
    simp only [CodeAccess.Allowed]
    omega
  rw [codeAccesses, allAllowed_append, allAllowed_cons, allAllowed_cons,
    decoded, CodeBounded]
  cases hex : codeHex msg i j with
  | none =>
      have long := codeHex_eq_none_iff.mp hex
      exact iff_of_false (fun allowed => long allowed.1.2.1)
        (fun fits => long fits.1)
  | some msgHex =>
      simp only [hexAccesses_iff, Option.some.injEq, forall_eq']
      exact ⟨fun allowed => ⟨allowed.1.2.1, allowed.2⟩,
        fun fits => ⟨⟨cleared, fits.1, allAllowed_nil⟩, fits.2⟩⟩

theorem apnAccesses_allowed {msg : List UInt8} {msglen i : Nat}
    (here : byteAt msg i = chBracketOpen) :
    AllAllowed (apnAccesses msg msglen i) := by
  refine allAllowed_flatMap.mpr fun j close => allAllowed_flatMap.mpr fun k
    comma => ?_
  obtain ⟨from_, before, character⟩ := positions_ge comma
  have past : i ≠ k := by
    rintro rfl
    rw [here] at character
    exact absurd character (by decide)
  have whole : CodeAccess.Allowed (.write 33 33) := by decide
  have cut {count : Int} (counted : 0 ≤ count) :
      CodeAccess.Allowed (.write 33 (count.tmod 33)) := by
    simp only [CodeAccess.Allowed]
    have below := Int.tmod_lt_of_pos count (show (0 : Int) < 33 by decide)
    have above := Int.tmod_nonneg 33 counted
    omega
  simp only [allAllowed_cons]
  exact ⟨whole, whole, cut (by omega), cut (by omega), allAllowed_nil⟩

theorem turnAccesses_iff {env : CodeEnv} {msg : List UInt8} {msglen i : Nat} :
    AllAllowed (turnAccesses env msg msglen i) ↔
      (byteAt msg i = chParenOpen →
        ∀ j ∈ positions msg chParenClose i msglen, CodeBounded msg i j) := by
  unfold turnAccesses
  by_cases bracket : byteAt msg i = chBracketOpen
  · rw [if_pos bracket]
    refine iff_of_true (apnAccesses_allowed bracket) ?_
    intro paren
    rw [bracket] at paren
    exact absurd paren (by decide)
  · rw [if_neg bracket]
    by_cases paren : byteAt msg i = chParenOpen
    · rw [if_pos paren, allAllowed_flatMap]
      simp only [paren, codeAccesses_iff, forall_const]
    · rw [if_neg paren]
      exact iff_of_true allAllowed_nil (fun other => absurd other paren)

/-- The password fits, and where the scan goes on, so do the fields. -/
def CfgFits (env : CodeEnv) (pwd : Vector UInt8 33) (msg : List UInt8)
    (msglen : Nat) : Prop :=
  PwdFits env cfgCheck pwd msg (positions msg chGreater 9 msglen) ∧
    (PwdPasses env cfgCheck pwd msg (positions msg chGreater 9 msglen) →
      CodesBounded msg msglen)

theorem cfgAccesses_iff {env : CodeEnv} {msg : List UInt8} {msglen : Nat}
    {session : CodeSession} :
    AllAllowed (cfgAccesses env msg msglen session) ↔
      CfgFits env session.cfg.dealersPwd msg msglen := by
  have sorted := positions_sorted msg chGreater 9 msglen
  have first : cfgCheck.first = 9 := rfl
  rw [cfgAccesses, allAllowed_append, scanAccesses, first,
    pwdAccesses_iff sorted]
  refine and_congr_right fun fits => ?_
  rw [← pwdScanAt_iff sorted fits]
  have codes : AllAllowed ((List.range msglen).flatMap
      (turnAccesses env msg msglen)) ↔ CodesBounded msg msglen := by
    rw [allAllowed_flatMap]
    simp only [turnAccesses_iff, List.mem_range]
    rfl
  rw [pwdScan, first]
  cases scanned : pwdScanAt env cfgCheck msg (positions msg chGreater 9 msglen)
      session with
  | overrun =>
      refine iff_of_true allAllowed_nil ?_
      rintro ⟨after, other⟩
      cases other
  | returned left =>
      refine iff_of_true allAllowed_nil ?_
      rintro ⟨after, other⟩
      cases other
  | goesOn after =>
      rw [codes]
      exact ⟨fun fit _ => fit, fun fit => fit ⟨after, rfl⟩⟩

/-- The message is not of the two kinds that store something, or it fits. -/
def MessageFits (env : CodeEnv) (stored : CodeCfg) (msg : List UInt8)
    (msglen : Nat) : Prop :=
  (memcmpEq msg 0 (ascii "POC_INQUIRE_ALL:<") 17 →
      PwdFits env inquireCheck stored.dealersPwd msg
        (positions msg chGreater 17 msglen)) ∧
    (memcmpEq msg 0 (ascii "POC_CFG:<") 9 →
      CfgFits env stored.dealersPwd msg msglen)

/-- Every access stays inside its buffer, and `k_temp` is set before it is
used, exactly when the message fits. -/
theorem parser_bounded_iff (env : CodeEnv) (stored : CodeCfg)
    (msg : List UInt8) (msglen : UInt16) :
    AllAllowed (writeCodeAccesses env stored msg msglen) ↔
      MessageFits env stored msg msglen.toNat := by
  have sorted := positions_sorted msg chGreater 17 msglen.toNat
  unfold writeCodeAccesses MessageFits
  by_cases test : memcmpEq msg 0 (ascii "AT+POC_TEST") 11
  · have notInquire : ¬memcmpEq msg 0 (ascii "POC_INQUIRE_ALL:<") 17 :=
      not_memcmpEq test 0 (by decide) (by decide)
    have notCfg : ¬memcmpEq msg 0 (ascii "POC_CFG:<") 9 :=
      not_memcmpEq test 0 (by decide) (by decide)
    rw [if_pos test]
    exact iff_of_true allAllowed_nil
      ⟨fun other => absurd other notInquire, fun other => absurd other notCfg⟩
  · rw [if_neg test]
    by_cases reset : memcmpEq msg 0 (ascii "POC_FAC_RESET:\r\n") 16
    · have notInquire : ¬memcmpEq msg 0 (ascii "POC_INQUIRE_ALL:<") 17 :=
        not_memcmpEq reset 4 (by decide) (by decide)
      have notCfg : ¬memcmpEq msg 0 (ascii "POC_CFG:<") 9 :=
        not_memcmpEq reset 4 (by decide) (by decide)
      rw [if_pos reset]
      exact iff_of_true allAllowed_nil
        ⟨fun other => absurd other notInquire, fun other => absurd other notCfg⟩
    · rw [if_neg reset]
      by_cases inquire : memcmpEq msg 0 (ascii "POC_INQUIRE_ALL:<") 17
      · have notCfg : ¬memcmpEq msg 0 (ascii "POC_CFG:<") 9 :=
          not_memcmpEq inquire 4 (by decide) (by decide)
        rw [if_pos inquire, scanAccesses]
        refine (pwdAccesses_iff sorted).trans ?_
        exact ⟨fun fits => ⟨fun _ => fits, fun other => absurd other notCfg⟩,
          fun fits => fits.1 inquire⟩
      · rw [if_neg inquire]
        by_cases cfg : memcmpEq msg 0 (ascii "POC_CFG:<") 9
        · rw [if_pos cfg, cfgAccesses_iff]
          exact ⟨fun fits => ⟨fun other => absurd other inquire, fun _ => fits⟩,
            fun fits => fits.2 cfg⟩
        · rw [if_neg cfg]
          exact iff_of_true allAllowed_nil
            ⟨fun other => absurd other inquire, fun other => absurd other cfg⟩

/-- A password of 34 characters, where none is set. -/
def longPwdMessage : List UInt8 :=
  ascii "POC_CFG:<1111111111111111111111111111111111>"

/-- The copy of the password is not cut. -/
theorem parser_unbounded :
    ¬∀ (env : CodeEnv) (stored : CodeCfg) (msg : List UInt8)
      (msglen : UInt16), msglen.toNat ≤ 2048 → msg.length = msglen.toNat →
      AllAllowed (writeCodeAccesses env stored msg msglen) := by
  intro bounded
  have allowed := bounded aCodeEnv { aCodeCfg with dealersPwd := clearedPwd }
    longPwdMessage 44 (by decide) (by decide)
  exact absurd allowed (by decide)

theorem takeField_fits {size : Nat} {msgHex : List UInt8} {kTemp : UInt8}
    {start skip : Nat} (field : TextField size)
    (fits : ∀ k, semicolonFrom msgHex start = some k → start + skip ≤ k) :
    ∃ filled, takeField msgHex kTemp start skip field =
      some (kTempAfter msgHex kTemp start, filled) := by
  rw [takeField, kTempAfter]
  cases found : semicolonFrom msgHex start with
  | none => exact ⟨field, rfl⟩
  | some k =>
      have late := fits k found
      simp only [if_neg (Nat.not_lt_of_ge late)]
      exact ⟨_, rfl⟩

theorem parseCode_fits {env : CodeEnv} {msg : List UInt8} {i j : Nat}
    (fits : CodeBounded msg i j) (cfg : CodeCfg) :
    (parseCode env msg i cfg j).isSome = true := by
  obtain ⟨short, fields⟩ := fits
  cases hex : codeHex msg i j with
  | none => exact absurd short (codeHex_eq_none_iff.mp hex)
  | some msgHex =>
      obtain ⟨address, ip, early, rest⟩ := fields msgHex hex
      have afterIp := @kTempAfter_toNat msgHex env.kTemp 0 address ip
      obtain ⟨serverIp, takenIp⟩ := @takeField_fits 16 msgHex env.kTemp 0 3
        cfg.serverIp fun k found => by
          rw [ip] at found
          cases found
          exact early
      generalize kTempAfter msgHex env.kTemp 0 = kTemp at afterIp takenIp
      rw [← afterIp] at rest
      obtain ⟨userId, takenId⟩ := @takeField_fits 32 msgHex kTemp kTemp.toNat 3
        cfg.userId fun k found => (rest k found).1
      have last : ∀ k, semicolonFrom msgHex
          (kTempAfter msgHex kTemp kTemp.toNat).toNat = some k →
            (kTempAfter msgHex kTemp kTemp.toNat).toNat + 4 ≤ k := by
        intro k found
        cases id : semicolonFrom msgHex kTemp.toNat with
        | none =>
            rw [kTempAfter_none id, id] at found
            cases found
        | some name =>
            have afterId := @kTempAfter_toNat msgHex kTemp kTemp.toNat name id
            rw [afterId] at found ⊢
            exact (rest name id).2 k found
      obtain ⟨userPwd, takenPwd⟩ := @takeField_fits 32 msgHex
        (kTempAfter msgHex kTemp kTemp.toNat) _ 4 cfg.userPwd last
      simp only [parseCode, hex, Option.bind_eq_bind, Option.bind_some,
        takenIp, takenId, takenPwd, Option.isSome_some]

theorem CodesBounded.passwordFits {env : CodeEnv} {msg : List UInt8}
    {msglen : Nat} (bounded : CodesBounded msg msglen) :
    PasswordFits env msg msglen msglen :=
  fun i below paren j close => parseCode_fits (bounded i below paren j close)

section

variable {env : CodeEnv} {msg : List UInt8} {msglen : Nat}
  {session : CodeSession}

theorem inquireAll_returns
    (fits : PwdFits env inquireCheck session.cfg.dealersPwd msg
      (positions msg chGreater 17 msglen)) :
    ∃ after, writeCodeInquireAll env msg msglen session = some after := by
  have inside := pwdScanAt_inside (positions_sorted msg chGreater 17 msglen)
    fits
  have first : inquireCheck.first = 17 := rfl
  unfold writeCodeInquireAll pwdScan
  rw [first]
  cases scanned : pwdScanAt env inquireCheck msg
      (positions msg chGreater 17 msglen) session with
  | overrun => exact absurd scanned inside
  | returned after => exact ⟨after, rfl⟩
  | goesOn after => exact ⟨_, rfl⟩

theorem cfg_returns (fits : CfgFits env session.cfg.dealersPwd msg msglen) :
    ∃ after, writeCodeCfg env msg msglen session = some after := by
  obtain ⟨pwdFits, codes⟩ := fits
  have sorted := positions_sorted msg chGreater 9 msglen
  have inside := pwdScanAt_inside sorted pwdFits
  have first : cfgCheck.first = 9 := rfl
  unfold writeCodeCfg pwdScan
  rw [first]
  cases scanned : pwdScanAt env cfgCheck msg
      (positions msg chGreater 9 msglen) session with
  | overrun => exact absurd scanned inside
  | returned after => exact ⟨after, rfl⟩
  | goesOn after =>
      have passes := (pwdScanAt_iff sorted pwdFits).mp ⟨after, scanned⟩
      have fit : PasswordFits env msg msglen msglen :=
        (codes passes).passwordFits
      exact codeTurns_fits after fit

end

theorem deal_returns {env : CodeEnv} {stored : CodeCfg} {msg : List UInt8}
    {msglen : UInt16} (fits : MessageFits env stored msg msglen.toNat) :
    ∃ session, writeCodeUartMsgDeal env stored msg msglen = some session := by
  by_cases inquire : memcmpEq msg 0 (ascii "POC_INQUIRE_ALL:<") 17
  · rw [deal_inquire inquire]
    exact inquireAll_returns (fits.1 inquire)
  · by_cases cfg : memcmpEq msg 0 (ascii "POC_CFG:<") 9
    · rw [deal_cfg cfg]
      exact cfg_returns (fits.2 cfg)
    · simp only [writeCodeUartMsgDeal, if_neg inquire, if_neg cfg]
      split
      · exact ⟨_, rfl⟩
      · split
        · exact ⟨_, rfl⟩
        · exact ⟨_, rfl⟩

end Tp79Boot
