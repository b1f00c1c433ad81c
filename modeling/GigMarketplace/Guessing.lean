/-
Guessing one-time passwords: how many codes reach the gateway for one record, in any interleaving with other calls.

verify_otp keeps no count of wrong codes: every call that finds the record unexpired submits its code, and a right code
is accepted after any number of wrong ones. `Attemptable` excludes the calls that go wrong: those that begin on an
unexpired record on which as many calls as `OTP_MAX_ATTEMPTS` have begun already. The setting is a parameter; its
default is 5. A record is known to the gateway by its request id, which is unique.

Results:
- `verify_first_cases` .. `verify_mark_cases`: the four statements of verify_otp and what they submit;
- `guesses_bounded`: in a run whose calls begin on attemptable records, at most `otpMaxAttempts` codes are submitted for
  a record, and a call that begins after that many wrong ones raises OTPException;
- `guessed_at_last`: six wrong codes and then the right one.
-/
import GigMarketplace.Core.Calls
import GigMarketplace.Verification

namespace GigMarketplace

open GigMarketplace.Core

/-! ## Codes -/

/-- the codes submitted for a request id -/
def submittedCodes (requestId : String) (s : OtpSite) : List String :=
  s.gateway.filterMap fun
    | .check requestId' code => if requestId' = requestId then some code else none
    | _ => none

/-- the gateway has answered that the code is not the right one -/
def wrongCode (E : OtpEnv) (requestId code : String) : Bool :=
  match telegramGateway.readCheck (E.check requestId code) with
  | .ok valid => !valid
  | .error _ => false

def wrongCodes (E : OtpEnv) (requestId : String) (s : OtpSite) : List String :=
  (submittedCodes requestId s).filter (wrongCode E requestId)

/-- the record that a verify_otp call finds unexpired, if this is the call's first entry -/
def attemptOf (e : OtpEntry) : Option TelegramOTP :=
  match e.op with
  | .verifyOtp phoneNumber _ pick =>
    if e.pos = e.begun then
      (TelegramOTP.selected e.before phoneNumber pick).filter fun otp => ¬ otp.isExpired e.before.clock
    else none
  | .sendOtp .. => none

/-- the first entries of the calls that found the record unexpired -/
def attempts (requestId : String) (tr : List OtpEntry) : List OtpEntry :=
  tr.filter fun e => (attemptOf e).map TelegramOTP.requestId = some requestId

/-- the request id for which an entry submits a code -/
def askOf (e : OtpEntry) : Option String :=
  match e.after.gateway.drop e.before.gateway.length with
  | [.check requestId _] => some requestId
  | _ => none

def asks (requestId : String) (tr : List OtpEntry) : List OtpEntry := tr.filter fun e => askOf e = some requestId

/-- a verify_otp call that begins selects no record, an expired one, or one on which fewer calls have begun -/
def Attemptable (otpMaxAttempts : ℕ) (s : OtpSite) (tr : List OtpEntry) : OtpOp → Prop
  | .verifyOtp phoneNumber _ pick => ∀ otp, TelegramOTP.selected s phoneNumber pick = some otp →
      otp.isExpired s.clock ∨ (attempts otp.requestId tr).length < otpMaxAttempts
  | .sendOtp .. => True

/-- a verify_otp call for a record that had enough wrong codes when it began raises OTPException, if it has ended -/
def LockedOut (E : OtpEnv) (otpMaxAttempts : ℕ) (e : OtpEntry) : Prop :=
  ∀ phoneNumber code pick otp, e.op = .verifyOtp phoneNumber code pick →
    TelegramOTP.selected e.origin phoneNumber pick = some otp →
    otpMaxAttempts ≤ (wrongCodes E otp.requestId e.origin).length →
    ∀ x, e.result = some x → ∃ msg, x = .error (.otp msg)

/-! ## The statements of verify_otp -/

section Statements

variable {E : OtpEnv} {s : OtpSite} {f : OtpSite → OtpSite} {next : OtpSite → OtpCall OtpAnswer}
  {phoneNumber code : String} {pick now : ℕ} {otp : TelegramOTP}

theorem verify_first_cases (h : OTPService.verifyOtp E phoneNumber code pick = .stmt f next) :
    f s = s ∧ ((TelegramOTP.selected s phoneNumber pick = none ∧ ∃ x, next s = .raise x) ∨
      ∃ otp, TelegramOTP.selected s phoneNumber pick = some otp ∧ next s = verifyCheck E code otp) := by
  have hcode : OTPService.verifyOtp E phoneNumber code pick =
      (TelegramOTP.latest phoneNumber pick).bind (verifyCheck E code) := rfl
  rw [hcode, latest_eq] at h
  injection h with hf hnext
  subst hf hnext
  refine ⟨rfl, ?_⟩
  cases hsel : TelegramOTP.selected s phoneNumber pick with
  | none =>
    left
    refine ⟨rfl, .otp "OTP not found. Please request a new one.", ?_⟩
    simp only [hsel]
    rfl
  | some otp =>
    right
    refine ⟨otp, rfl, ?_⟩
    simp only [hsel]
    rfl

theorem verify_check_cases (h : verifyCheck E code otp = .stmt f next) :
    f s = s ∧ ((otp.isExpired s.clock ∧ ∃ msg, next s = .raise (.otp msg)) ∨
      (¬ otp.isExpired s.clock ∧ next s = verifyAsk E code otp s.clock)) := by
  rw [verifyCheck_eq] at h
  injection h with hf hnext
  subst hf hnext
  refine ⟨rfl, ?_⟩
  by_cases hexp : otp.isExpired s.clock
  · left
    refine ⟨hexp, "OTP expired. Please request a new one.", ?_⟩
    simp only [Code.raiseIf_pos hexp, Code.bind]
  · right
    refine ⟨hexp, ?_⟩
    simp only [Code.raiseIf_neg hexp, Code.bind]

theorem verify_ask_cases (h : verifyAsk E code otp now = .stmt f next) :
    f s = { s with gateway := s.gateway ++ [.check otp.requestId code] } ∧
      ((∃ x, next s = .raise x) ∨ next s = verifyMark otp now) := by
  injection h with hf hnext
  subst hf hnext
  refine ⟨rfl, ?_⟩
  cases hreply : telegramGateway.readCheck (E.check otp.requestId code) with
  | error x => exact Or.inl ⟨x, rfl⟩
  | ok valid =>
    cases valid with
    | false => exact Or.inl ⟨.otp "Invalid code.", rfl⟩
    | true => exact Or.inr rfl

theorem verify_mark_cases (h : verifyMark otp now = .stmt f next) :
    (f s).gateway = s.gateway ∧ (f s).clock = s.clock ∧ (next s).result ≠ none := by
  injection h with hf hnext
  subst hf hnext
  unfold Code.effect
  cases hrow : s.otps.find otp.id with
  | none =>
    simp only [hrow, true_and]
    exact Option.some_ne_none _
  | some row =>
    simp only [hrow, true_and]
    exact Option.some_ne_none _

end Statements

/-! ## What is submitted -/

/-- no code is submitted, and the clock stays -/
structure SubmitsNone (s s' : OtpSite) : Prop where
  clock : s'.clock = s.clock
  gateway : ∃ x : Option GatewayRequest, s'.gateway = s.gateway ++ x.toList ∧ ∀ r code, x ≠ some (.check r code)

theorem submitsNone_of_gateway {s s' : OtpSite} (hgateway : s'.gateway = s.gateway) (hclock : s'.clock = s.clock) :
    SubmitsNone s s' := by
  refine ⟨hclock, none, ?_, ?_⟩
  · rw [hgateway]
    exact (List.append_nil _).symm
  · intro r code h
    cases h

theorem submitsNone_sendOtp (E : OtpEnv) (phoneNumber : String) (reply : SendReply) (id : Pk) :
    (OTPService.sendOtp E phoneNumber reply id).Each SubmitsNone := by
  have hrefl : ∀ s, SubmitsNone s s := fun s => submitsNone_of_gateway rfl rfl
  have hotps : ∀ (s : OtpSite) otps, SubmitsNone s { s with otps } := fun _ _ => submitsNone_of_gateway rfl rfl
  refine each_sendOtp E phoneNumber reply id hrefl ?_ ?_ (each_deleteUnused phoneNumber hrefl hotps)
    (fun requestId now => each_insert id phoneNumber requestId now hrefl hotps) ?_
  · intro s requestId
    exact ⟨rfl, some (.revoke requestId), rfl, fun r code h => by cases h⟩
  · intro s
    exact ⟨rfl, some (.send phoneNumber s.clock), rfl, fun r code h => by cases h⟩
  · intro s entry
    exact submitsNone_of_gateway rfl rfl

/-! ## The invariant -/

section Invariant

variable {E : OtpEnv} {m : ℕ} {s s' : OtpSite} {tr : List OtpEntry} {e : OtpEntry} {f : OtpSite → OtpSite}
  {next : OtpSite → OtpCall OtpAnswer} {r : Running OtpSite OtpFailure OtpAnswer OtpOp}

/-- the codes were submitted by calls that found the record unexpired, a code each, and these were few -/
structure Guessed (E : OtpEnv) (m : ℕ) (s : OtpSite) (tr : List OtpEntry) : Prop where
  logged : ∀ q, (submittedCodes q s).length = (asks q tr).length
  tried : ∀ q, ∀ e ∈ asks q tr, e.begun ∈ (attempts q tr).map Entry.pos
  once : ∀ q, ((asks q tr).map Entry.begun).Nodup
  few : ∀ q, (attempts q tr).length ≤ m
  locked : ∀ e ∈ tr, LockedOut E m e
  placed : ∀ e ∈ tr, e.pos < tr.length

/-- what an entry does to all that -/
structure GuessEffect (E : OtpEnv) (m : ℕ) (s : OtpSite) (tr : List OtpEntry) (s' : OtpSite) (e : OtpEntry) :
    Prop where
  clock : s'.clock = s.clock
  logs : ∀ q, (submittedCodes q s').length = (submittedCodes q s).length + if askOf e = some q then 1 else 0
  tries : ∀ q, askOf e = some q → e.begun ∈ (attempts q tr).map Entry.pos ∧ ∀ e' ∈ asks q tr, e'.begun ≠ e.begun
  few : ∀ q, (attemptOf e).map TelegramOTP.requestId = some q → (attempts q tr).length < m
  locks : LockedOut E m e
  placed : e.pos = tr.length

theorem attempts_snoc (q : String) (tr : List OtpEntry) (e : OtpEntry) :
    attempts q (tr ++ [e]) =
      attempts q tr ++ if (attemptOf e).map TelegramOTP.requestId = some q then [e] else [] := by
  unfold attempts
  rw [List.filter_append]
  by_cases h : (attemptOf e).map TelegramOTP.requestId = some q
  · rw [if_pos h, List.filter_singleton, decide_eq_true h]
    rfl
  · rw [if_neg h, List.filter_singleton, decide_eq_false h]
    rfl

theorem asks_snoc (q : String) (tr : List OtpEntry) (e : OtpEntry) :
    asks q (tr ++ [e]) = asks q tr ++ if askOf e = some q then [e] else [] := by
  unfold asks
  rw [List.filter_append]
  by_cases h : askOf e = some q
  · rw [if_pos h, List.filter_singleton, decide_eq_true h]
    rfl
  · rw [if_neg h, List.filter_singleton, decide_eq_false h]
    rfl

theorem mem_attempts_snoc {q : String} {b : ℕ} (h : b ∈ (attempts q tr).map Entry.pos) :
    b ∈ (attempts q (tr ++ [e])).map Entry.pos := by
  rw [attempts_snoc, List.map_append]
  exact List.mem_append_left _ h

theorem Guessed.submitted_le (h : Guessed E m s tr) (q : String) :
    (submittedCodes q s).length ≤ (attempts q tr).length := by
  rw [h.logged]
  exact length_le_of_begun (h.once q) (h.tried q)

theorem wrongCodes_le (E : OtpEnv) (q : String) (s : OtpSite) :
    (wrongCodes E q s).length ≤ (submittedCodes q s).length := List.length_filter_le _ _

/-- the codes so far came from calls that have begun before -/
theorem Guessed.asked_before (h : Guessed E m s tr) {q : String} (he : e ∈ asks q tr) : e.begun < tr.length := by
  obtain ⟨e₀, he₀, hpos⟩ := List.mem_map.1 (h.tried q e he)
  rw [← hpos]
  exact h.placed e₀ (List.mem_of_mem_filter he₀)

theorem Guessed.effect (h : Guessed E m s tr) (heffect : GuessEffect E m s tr s' e) :
    Guessed E m s' (tr ++ [e]) := by
  refine ⟨?_, ?_, ?_, ?_, ?_, ?_⟩
  · intro q
    rw [heffect.logs, h.logged, asks_snoc]
    split_ifs <;> simp
  · intro q e' he'
    rw [asks_snoc, List.mem_append] at he'
    apply mem_attempts_snoc
    rcases he' with hold | hnew
    · exact h.tried q e' hold
    · split_ifs at hnew with hask
      · rw [List.mem_singleton.1 hnew]
        exact (heffect.tries q hask).1
      · cases hnew
  · intro q
    rw [asks_snoc]
    split_ifs with hask
    · rw [List.map_append, List.nodup_append_comm, List.map_singleton, List.singleton_append, List.nodup_cons]
      refine ⟨?_, h.once q⟩
      intro hmem
      obtain ⟨e', he', hbegun⟩ := List.mem_map.1 hmem
      exact (heffect.tries q hask).2 e' he' hbegun
    · rw [List.append_nil]
      exact h.once q
  · intro q
    rw [attempts_snoc, List.length_append]
    split_ifs with hatt
    · exact heffect.few q hatt
    · exact h.few q
  · rw [forall_mem_snoc]
    exact ⟨h.locked, heffect.locks⟩
  · rw [forall_mem_snoc, List.length_append, List.length_singleton, heffect.placed]
    exact ⟨fun e' he' => Nat.lt_succ_of_lt (h.placed e' he'), Nat.lt_succ_self _⟩

/-- a running call; one that has selected a record and not yet submitted its code has been counted for it -/
inductive Guessing (E : OtpEnv) (m : ℕ) (s : OtpSite) (tr : List OtpEntry)
    (r : Running OtpSite OtpFailure OtpAnswer OtpOp) : Prop where
  | sends {phoneNumber : String} {reply : SendReply} {id : Pk} (hop : r.op = .sendOtp phoneNumber reply id)
      (heach : r.rest.Each SubmitsNone)
  | selected {phoneNumber code : String} {pick : ℕ} (hop : r.op = .verifyOtp phoneNumber code pick)
      (otp : TelegramOTP) (hsel : TelegramOTP.selected r.origin phoneNumber pick = some otp)
      (hrest : r.rest = verifyCheck E code otp) (hfresh : ∀ e ∈ asks otp.requestId tr, e.begun ≠ r.begun)
      (htried : otp.isExpired s.clock ∨ (r.begun ∈ (attempts otp.requestId tr).map Entry.pos ∧
        (wrongCodes E otp.requestId r.origin).length < m))
  | checked {phoneNumber code : String} {pick : ℕ} (hop : r.op = .verifyOtp phoneNumber code pick)
      (otp : TelegramOTP) (hsel : TelegramOTP.selected r.origin phoneNumber pick = some otp) (now : ℕ)
      (hrest : r.rest = verifyAsk E code otp now) (hfresh : ∀ e ∈ asks otp.requestId tr, e.begun ≠ r.begun)
      (htried : r.begun ∈ (attempts otp.requestId tr).map Entry.pos)
      (hwrong : (wrongCodes E otp.requestId r.origin).length < m)
  | marks {phoneNumber code : String} {pick : ℕ} (hop : r.op = .verifyOtp phoneNumber code pick)
      (otp : TelegramOTP) (hsel : TelegramOTP.selected r.origin phoneNumber pick = some otp) (now : ℕ)
      (hrest : r.rest = verifyMark otp now) (hwrong : (wrongCodes E otp.requestId r.origin).length < m)

/-- another call's statement -/
theorem Guessing.effect (h : Guessing E m s tr r) (heffect : GuessEffect E m s tr s' e) (hne : r.begun ≠ e.begun) :
    Guessing E m s' (tr ++ [e]) r := by
  have hfresh : ∀ {q : String}, (∀ e' ∈ asks q tr, e'.begun ≠ r.begun) →
      ∀ e' ∈ asks q (tr ++ [e]), e'.begun ≠ r.begun := by
    intro q hold e' he'
    rw [asks_snoc, List.mem_append] at he'
    rcases he' with he' | he'
    · exact hold e' he'
    · split_ifs at he'
      · rw [List.mem_singleton.1 he']
        exact hne.symm
      · cases he'
  cases h with
  | sends hop heach => exact .sends hop heach
  | selected hop otp hsel hrest hold htried =>
    refine .selected hop otp hsel hrest (hfresh hold) ?_
    rcases htried with hexp | ⟨hatt, hwrong⟩
    · left
      rw [heffect.clock]
      exact hexp
    · exact Or.inr ⟨mem_attempts_snoc hatt, hwrong⟩
  | checked hop otp hsel now hrest hold htried hwrong =>
    exact .checked hop otp hsel now hrest (hfresh hold) (mem_attempts_snoc htried) hwrong
  | marks hop otp hsel now hrest hwrong => exact .marks hop otp hsel now hrest hwrong

/-! ## The rule -/

/-- a statement that submits nothing -/
theorem askOf_none (hbefore : e.before = s) (hafter : e.after = s') (hnone : SubmitsNone s s') : askOf e = none := by
  obtain ⟨x, hgateway, hx⟩ := hnone.gateway
  unfold askOf
  rw [hbefore, hafter, hgateway, List.drop_left]
  match x with
  | none => rfl
  | some (.send phone time) => rfl
  | some (.revoke requestId) => rfl
  | some (.check requestId code) => exact absurd rfl (hx requestId code)

theorem asks_quiet (hbefore : e.before = s) (hafter : e.after = s') (hnone : SubmitsNone s s') (q : String) :
    asks q (tr ++ [e]) = asks q tr := by
  have hask : askOf e ≠ some q := by
    rw [askOf_none hbefore hafter hnone]
    exact (Option.some_ne_none q).symm
  rw [asks_snoc, if_neg hask, List.append_nil]

theorem submitted_none (hnone : SubmitsNone s s') (q : String) : submittedCodes q s' = submittedCodes q s := by
  obtain ⟨x, hgateway, hx⟩ := hnone.gateway
  unfold submittedCodes
  rw [hgateway, List.filterMap_append]
  match x with
  | none => exact List.append_nil _
  | some (.send phone time) => exact List.append_nil _
  | some (.revoke requestId) => exact List.append_nil _
  | some (.check requestId code) => exact absurd rfl (hx requestId code)

/-- a call that goes on has locked nobody out -/
theorem locked_running (h : e.result = none) : LockedOut E m e := by
  intro phoneNumber code pick otp hop hsel hwrong x hx
  rw [h] at hx
  cases hx

theorem locked_otp {msg : String} (h : e.result = some (.error (.otp msg))) : LockedOut E m e := by
  intro phoneNumber code pick otp hop hsel hwrong x hx
  rw [h] at hx
  cases hx
  exact ⟨msg, rfl⟩

/-- nor is one that had fewer wrong codes before it -/
theorem locked_few {phoneNumber code : String} {pick : ℕ} (hop : e.op = .verifyOtp phoneNumber code pick)
    {otp : TelegramOTP} (hsel : TelegramOTP.selected e.origin phoneNumber pick = some otp)
    (hwrong : (wrongCodes E otp.requestId e.origin).length < m) : LockedOut E m e := by
  intro phoneNumber' code' pick' otp' hop' hsel' hmany
  rw [hop] at hop'
  cases hop'
  rw [hsel] at hsel'
  cases hsel'
  exact absurd hmany (Nat.not_le_of_lt hwrong)

/-- the effect of a statement that submits nothing -/
theorem guess_quiet (hnone : SubmitsNone s s') (hbefore : e.before = s) (hafter : e.after = s')
    (hplace : e.pos = tr.length)
    (hfew : ∀ q, (attemptOf e).map TelegramOTP.requestId = some q → (attempts q tr).length < m)
    (hlocks : LockedOut E m e) : GuessEffect E m s tr s' e := by
  have hask : askOf e = none := askOf_none hbefore hafter hnone
  refine ⟨hnone.clock, ?_, ?_, hfew, hlocks, hplace⟩
  · intro q
    rw [submitted_none hnone, hask]
    rfl
  · intro q h
    rw [hask] at h
    cases h

/-- the effect of the statement that submits a code -/
theorem guess_ask {q code : String} (hsubmits : s' = { s with gateway := s.gateway ++ [.check q code] })
    (hbefore : e.before = s) (hafter : e.after = s') (hplace : e.pos = tr.length)
    (hfew : ∀ q, (attemptOf e).map TelegramOTP.requestId = some q → (attempts q tr).length < m)
    (htried : e.begun ∈ (attempts q tr).map Entry.pos) (hfresh : ∀ e' ∈ asks q tr, e'.begun ≠ e.begun)
    (hlocks : LockedOut E m e) : GuessEffect E m s tr s' e := by
  have hask : askOf e = some q := by
    unfold askOf
    rw [hbefore, hafter, hsubmits, List.drop_left]
  refine ⟨?_, ?_, ?_, hfew, hlocks, hplace⟩
  · rw [hsubmits]
  · intro q'
    rw [hask, hsubmits]
    unfold submittedCodes
    rw [List.filterMap_append, List.length_append]
    by_cases hq : q = q'
    · simp [hq]
    · simp [hq]
  · intro q' h
    rw [hask] at h
    cases h
    exact ⟨htried, hfresh⟩

/-- an entry of a call that has begun before is no attempt -/
theorem attemptOf_later (h : e.begun < e.pos) : attemptOf e = none := by
  unfold attemptOf
  split
  · exact if_neg (Nat.ne_of_gt h)
  · rfl

/-- what a statement of send_otp does, and where the call is then -/
theorem guess_send {phoneNumber : String} {reply : SendReply} {id : Pk} (hop : r.op = .sendOtp phoneNumber reply id)
    (heach : r.rest.Each SubmitsNone) (hrest : r.rest = .stmt f next) (c : ℕ) :
    GuessEffect E m s tr (f s) (r.entry c tr.length s f (next s)) ∧
      Guessing E m (f s) (tr ++ [r.entry c tr.length s f (next s)]) { r with rest := next s } := by
  rw [hrest] at heach
  refine ⟨guess_quiet (heach s).1 rfl rfl rfl ?_ ?_, .sends hop (heach s).2⟩
  · intro q h
    simp [attemptOf, Running.entry, hop] at h
  · intro phoneNumber code pick otp hverify
    simp [Running.entry, hop] at hverify

/-- the first statement of verify_otp -/
theorem guess_first {phoneNumber code : String} {pick : ℕ} (hI : Guessed E m s tr)
    (hstart : Attemptable m s tr (.verifyOtp phoneNumber code pick)) (hop : r.op = .verifyOtp phoneNumber code pick)
    (hbegun : r.begun = tr.length) (horigin : r.origin = s)
    (hcode : OTPService.verifyOtp E phoneNumber code pick = .stmt f next) (c : ℕ) :
    GuessEffect E m s tr (f s) (r.entry c tr.length s f (next s)) ∧
      ((next s).result = none →
        Guessing E m (f s) (tr ++ [r.entry c tr.length s f (next s)]) { r with rest := next s }) := by
  obtain ⟨hsame, hcases⟩ := verify_first_cases (s := s) hcode
  have hatt : attemptOf (r.entry c tr.length s f (next s)) =
      (TelegramOTP.selected s phoneNumber pick).filter fun otp => ¬ otp.isExpired s.clock := by
    simp only [attemptOf, Running.entry, hop, hbegun, if_true]
  have hnone : SubmitsNone s (f s) := by
    rw [hsame]
    exact submitsNone_of_gateway rfl rfl
  rcases hcases with ⟨hsel, x, hnext⟩ | ⟨otp, hsel, hnext⟩
  · refine ⟨guess_quiet hnone rfl rfl rfl ?_ ?_, fun hres => absurd hres (Code.ended_of_raise hnext)⟩
    · intro q h
      rw [hatt, hsel] at h
      cases h
    · intro phoneNumber' code' pick' otp hop' hsel'
      simp only [Running.entry, hop, horigin] at hop' hsel'
      cases hop'
      rw [hsel] at hsel'
      cases hsel'
  · have hrunning : (next s).result = none := by
      rw [hnext]
      rfl
    have hattempt : ¬ otp.isExpired s.clock → attemptOf (r.entry c tr.length s f (next s)) = some otp := by
      intro hexp
      rw [hatt, hsel, Option.filter_some, if_pos (decide_eq_true hexp)]
    refine ⟨guess_quiet hnone rfl rfl rfl ?_ (locked_running hrunning), fun _ => .selected hop otp ?_ hnext ?_ ?_⟩
    · intro q h
      by_cases hexp : otp.isExpired s.clock
      · rw [hatt, hsel, Option.filter_some, if_neg (by simpa using hexp)] at h
        cases h
      · rw [hattempt hexp] at h
        cases h
        exact (hstart otp hsel).resolve_left hexp
    · rw [← hsel, ← horigin]
    · intro e' he' heq
      rw [asks_quiet rfl rfl hnone] at he'
      have hlt : e'.begun < tr.length := hI.asked_before he'
      have hat : e'.begun = tr.length := heq.trans hbegun
      omega
    · by_cases hexp : otp.isExpired s.clock
      · left
        rw [hnone.clock]
        exact hexp
      · right
        refine ⟨?_, ?_⟩
        · rw [attempts_snoc, hattempt hexp, List.map_append, List.mem_append]
          right
          rw [Option.map_some, if_pos rfl]
          exact List.mem_singleton.2 hbegun
        · have hfew : (attempts otp.requestId tr).length < m := (hstart otp hsel).resolve_left hexp
          have hsub := hI.submitted_le otp.requestId
          have hwrong := wrongCodes_le E otp.requestId s
          change (wrongCodes E otp.requestId r.origin).length < m
          rw [horigin]
          omega

/-- a later statement of verify_otp -/
theorem guess_later (hbegun : r.begun < tr.length) (hr : Guessing E m s tr r) (hrest : r.rest = .stmt f next)
    (c : ℕ) :
    GuessEffect E m s tr (f s) (r.entry c tr.length s f (next s)) ∧
      ((next s).result = none →
        Guessing E m (f s) (tr ++ [r.entry c tr.length s f (next s)]) { r with rest := next s }) := by
  have hlater : attemptOf (r.entry c tr.length s f (next s)) = none := attemptOf_later hbegun
  have hfew : ∀ q, (attemptOf (r.entry c tr.length s f (next s))).map TelegramOTP.requestId = some q →
      (attempts q tr).length < m := by
    intro q h
    rw [hlater] at h
    cases h
  cases hr with
  | sends hop heach =>
    obtain ⟨heffect, hnext⟩ := guess_send hop heach hrest c
    exact ⟨heffect, fun _ => hnext⟩
  | selected hop otp hsel hcode hfresh htried =>
    obtain ⟨hsame, hcases⟩ := verify_check_cases (s := s) (hcode.symm.trans hrest)
    have hnone : SubmitsNone s (f s) := by
      rw [hsame]
      exact submitsNone_of_gateway rfl rfl
    rcases hcases with ⟨-, msg, hnext⟩ | ⟨hexp, hnext⟩
    · have hres : (next s).result = some (.error (.otp msg)) := by
        rw [hnext]
        rfl
      exact ⟨guess_quiet hnone rfl rfl rfl hfew (locked_otp hres),
        fun hgoes => absurd hgoes (Code.ended_of_raise hnext)⟩
    · obtain ⟨hatt, hwrong⟩ := htried.resolve_left hexp
      refine ⟨guess_quiet hnone rfl rfl rfl hfew (locked_few hop hsel hwrong), fun _ => ?_⟩
      refine .checked hop otp hsel s.clock hnext ?_ (mem_attempts_snoc hatt) hwrong
      intro e' he'
      rw [asks_quiet rfl rfl hnone] at he'
      exact hfresh e' he'
  | checked hop otp hsel now hcode hfresh htried hwrong =>
    obtain ⟨hsubmits, hcases⟩ := verify_ask_cases (s := s) (hcode.symm.trans hrest)
    refine ⟨guess_ask hsubmits rfl rfl rfl hfew htried hfresh (locked_few hop hsel hwrong), fun hgoes => ?_⟩
    rcases hcases with ⟨x, hnext⟩ | hnext
    · exact absurd hgoes (Code.ended_of_raise hnext)
    · exact .marks hop otp hsel now hnext hwrong
  | marks hop otp hsel now hcode hwrong =>
    obtain ⟨hgateway, hclock, hends⟩ := verify_mark_cases (s := s) (hcode.symm.trans hrest)
    have hnone : SubmitsNone s (f s) := submitsNone_of_gateway hgateway hclock
    exact ⟨guess_quiet hnone rfl rfl rfl hfew (locked_few hop hsel hwrong), fun hgoes => absurd hgoes hends⟩

/-- **Every statement** of a call: its effect, and where the call is then. -/
theorem guess_ready (hI : Guessed E m s tr)
    (hr : Ready (OtpOp.code E) (Attemptable m s tr) (Begun (Guessing E m)) s tr r) (hrest : r.rest = .stmt f next)
    (c : ℕ) : GuessEffect E m s tr (f s) (r.entry c tr.length s f (next s)) ∧
      ((next s).result = none →
        Guessing E m (f s) (tr ++ [r.entry c tr.length s f (next s)]) { r with rest := next s }) := by
  rcases hr with ⟨o, hstart, rfl⟩ | ⟨hbegun, hrun⟩
  · cases o with
    | sendOtp phoneNumber reply id =>
      obtain ⟨heffect, hnext⟩ := guess_send rfl (submitsNone_sendOtp E phoneNumber reply id) hrest c
      exact ⟨heffect, fun _ => hnext⟩
    | verifyOtp phoneNumber code pick => exact guess_first hI hstart rfl rfl rfl hrest c
  · exact guess_later hbegun hrun hrest c

/-- a record that has expired stays so -/
theorem isExpired_tick {otp : TelegramOTP} (h : otp.isExpired s.clock) (d : ℕ) :
    otp.isExpired (OtpSite.tick d s).clock := by
  unfold TelegramOTP.isExpired at h ⊢
  have hclock : (OtpSite.tick d s).clock = s.clock + d := rfl
  omega

theorem guess_rule (E : OtpEnv) (m : ℕ) :
    CallRule (OtpOp.code E) OtpSite.tick (Attemptable m) (Guessed E m) (Guessing E m) where
  own s tr c r f next hI hr hrest := by
    obtain ⟨heffect, hnext⟩ := guess_ready hI hr hrest c
    exact ⟨hI.effect heffect, hnext⟩
  others s tr c r f next r' hI hr hrest hr' hne := hr'.effect (guess_ready hI hr hrest c).1 hne
  natural s tr d hI := by
    refine ⟨⟨hI.logged, hI.tried, hI.once, hI.few, hI.locked, hI.placed⟩, ?_⟩
    intro r hr
    cases hr with
    | sends hop heach => exact .sends hop heach
    | selected hop otp hsel hrest hfresh htried =>
      exact .selected hop otp hsel hrest hfresh (htried.imp_left fun hexp => isExpired_tick hexp d)
    | checked hop otp hsel now hrest hfresh htried hwrong =>
      exact .checked hop otp hsel now hrest hfresh htried hwrong
    | marks hop otp hsel now hrest hwrong => exact .marks hop otp hsel now hrest hwrong

end Invariant

/-! ## The bound -/

/-- **Bounded guessing.** If every verify_otp call begins on a record that has expired or on which fewer than
`otpMaxAttempts` calls have begun, at most so many codes are submitted for a record, and after that many wrong codes
every call for the record raises OTPException. -/
theorem guesses_bounded (E : OtpEnv) (otpMaxAttempts : ℕ) (s : OtpSite) (hnew : s.gateway = []) (evs : List OtpEvent)
    (hevs : (Pool.init s).Meets (OtpOp.code E) OtpSite.tick (Starts (Attemptable otpMaxAttempts)) evs) :
    (∀ requestId, (submittedCodes requestId (otpRun E s evs).mem).length ≤ otpMaxAttempts) ∧
      ∀ e ∈ (otpRun E s evs).trace, LockedOut E otpMaxAttempts e := by
  have hinit : Guessed E otpMaxAttempts s [] := by
    refine ⟨?_, ?_, ?_, ?_, ?_, ?_⟩
    · intro q
      unfold submittedCodes
      rw [hnew]
      rfl
    · intro q e he
      cases he
    · intro q
      exact List.nodup_nil
    · intro q
      exact Nat.zero_le _
    · intro e he
      cases he
    · intro e he
      cases he
  have hguessed : Guessed E otpMaxAttempts (otpRun E s evs).mem (otpRun E s evs).trace :=
    (calls_inv (guess_rule E otpMaxAttempts) (callInv_init hinit) hevs).inv.shared
  exact ⟨fun q => (hguessed.submitted_le q).trans (hguessed.few q), hguessed.locked⟩

/-- a record sent 60 seconds ago, before any code -/
def demoUnguessed : OtpSite := { demoSent with gateway := [] }

/-- a call of verify_otp that nothing interrupts -/
def demoGuess (c : ℕ) (code : String) : List OtpEvent :=
  [.start c (.verifyOtp demoPhone code 0), .step c, .step c, .step c]

instance (otpMaxAttempts : ℕ) (s : OtpSite) (tr : List OtpEntry) :
    (o : OtpOp) → Decidable (Attemptable otpMaxAttempts s tr o)
  | .verifyOtp phoneNumber _ pick => inferInstanceAs (Decidable (∀ otp ∈ TelegramOTP.selected s phoneNumber pick,
      otp.isExpired s.clock ∨ (attempts otp.requestId tr).length < otpMaxAttempts))
  | .sendOtp .. => isTrue trivial

/-- five wrong codes, two of them at the same time; and the right one when the record has expired -/
def demoLockedOut : List OtpEvent :=
  demoGuess 0 "000000" ++ demoGuess 1 "000001" ++ demoGuess 2 "000002" ++
    [.start 3 (.verifyOtp demoPhone "000003" 0), .step 3] ++ demoGuess 4 "000004" ++ [.step 3] ++
    [.nature (seconds 241)] ++ demoGuess 5 "123456"

theorem guesses_bounded_demo :
    ((∀ requestId, (submittedCodes requestId (otpRun demoGateway demoUnguessed demoLockedOut).mem).length ≤ 5) ∧
      ∀ e ∈ (otpRun demoGateway demoUnguessed demoLockedOut).trace, LockedOut demoGateway 5 e) ∧
    (wrongCodes demoGateway "req-1" (otpRun demoGateway demoUnguessed demoLockedOut).mem).length = 5 ∧
    ((otpRun demoGateway demoUnguessed demoLockedOut).trace.filter fun e => e.call = 5).map Entry.result =
      [none, some (.error (.otp "OTP expired. Please request a new one."))] := by
  refine ⟨guesses_bounded demoGateway 5 demoUnguessed rfl demoLockedOut ?_, ?_, ?_⟩
  · decide +kernel
  · decide +kernel
  · decide +kernel

/-- six wrong codes are submitted, and then the right one is accepted -/
theorem guessed_at_last :
    (wrongCodes demoGateway "req-1"
      (otpRun demoGateway demoUnguessed ((List.range 6).flatMap fun c => demoGuess c "000000")).mem).length = 6 ∧
    verifiedIds (otpRun demoGateway demoUnguessed
      (((List.range 6).flatMap fun c => demoGuess c "000000") ++ demoGuess 6 "123456")).trace = [1] := by
  decide +kernel

end GigMarketplace
