/-
One-time passwords: how often and how late a record lets verify_otp return True, in any interleaving with other calls.

A call selects an unused record, reads the clock for the expiry check, asks the gateway and then sets `is_used`, each in
a statement of its own. Nothing looks at `is_used` again between the selection and the UPDATE, so two calls that overlap
can both return True for one record.

Results:
- `verify_cases`: what the statements of verify_otp do, stage by stage (`VerifyStage`);
- `sameUsed_sendOtp`: no statement of send_otp changes which records are used;
- `otp_once_iff`: a call that returns True has checked within 300 seconds of the record's creation; every record lets at
  most one call return True exactly if every such call finds the record still unused when it marks it;
- `otp_twice`: two calls that overlap.
-/
import GigMarketplace.Otp

namespace GigMarketplace

open GigMarketplace.Core

/-! ## Used records -/

def Used (s : OtpSite) (id : Pk) : Prop := ∃ otp, s.otps.find id = some otp ∧ otp.isUsed = true

/-- the same records are used -/
def SameUsed (s s' : OtpSite) : Prop := ∀ id, Used s' id ↔ Used s id

theorem SameUsed.refl (s : OtpSite) : SameUsed s s := fun _ => Iff.rfl

theorem sameUsed_of_otps {s s' : OtpSite} (h : s'.otps = s.otps) : SameUsed s s' := by
  intro id
  unfold Used
  rw [h]

/-- only unused records are deleted -/
theorem sameUsed_deleteUnused (phoneNumber : String) : (TelegramOTP.deleteUnused phoneNumber).Each SameUsed := by
  apply Code.each_act SameUsed.refl
  intro s x h id
  cases h
  unfold Used
  simp only [Table.find_delete]
  constructor
  · rintro ⟨otp, hfind, hused⟩
    exact ⟨otp, (Option.filter_eq_some_iff.1 hfind).1, hused⟩
  · rintro ⟨otp, hfind, hused⟩
    exact ⟨otp, Option.filter_eq_some_iff.2 ⟨hfind, by simp [hused]⟩, hused⟩

/-- a new record is unused -/
theorem sameUsed_insert (id : Pk) (phoneNumber requestId : String) (now : ℕ) :
    (TelegramOTP.insert id phoneNumber requestId now).Each SameUsed := by
  apply Code.each_act SameUsed.refl
  intro s x h k
  split_ifs at h with hnew
  cases h
  unfold Used
  simp only [Table.find_insert, pk_otp]
  by_cases hk : id = k
  · subst hk
    simp [hnew.2.1]
  · simp [hk]

/-- **No statement of send_otp changes which records are used.** -/
theorem sameUsed_sendOtp (E : OtpEnv) (phoneNumber : String) (reply : SendReply) (id : Pk) :
    (OTPService.sendOtp E phoneNumber reply id).Each SameUsed :=
  each_sendOtp E phoneNumber reply id SameUsed.refl (fun _ _ => sameUsed_of_otps rfl) (fun _ => sameUsed_of_otps rfl)
    (sameUsed_deleteUnused phoneNumber) (sameUsed_insert id phoneNumber) fun _ _ => sameUsed_of_otps rfl

/-! ## The statements of verify_otp -/

section Statements

variable {E : OtpEnv} {s : OtpSite} {f : OtpSite → OtpSite} {next : OtpSite → OtpCall OtpAnswer}
  {phoneNumber code : String} {pick : ℕ} {otp : TelegramOTP} {p : OtpCall OtpAnswer}

/-- the last statement marks the record -/
def verifyMark (otp : TelegramOTP) (now : ℕ) : OtpCall OtpAnswer := do
  otp.markUsed
  return .verified otp now

/-- before it the gateway is asked -/
def verifyAsk (E : OtpEnv) (code : String) (otp : TelegramOTP) (now : ℕ) : OtpCall OtpAnswer := do
  let valid ← telegramGateway.verifyOtp E otp.requestId code
  Code.raiseIf (¬ valid) (.otp "Invalid code.")
  verifyMark otp now

/-- before that the clock is read -/
def verifyCheck (E : OtpEnv) (code : String) (otp : TelegramOTP) : OtpCall OtpAnswer := do
  let now ← Timezone.now
  Code.raiseIf (otp.isExpired now) (.otp "OTP expired. Please request a new one.")
  verifyAsk E code otp now

theorem verifyCheck_eq (E : OtpEnv) (code : String) (otp : TelegramOTP) :
    verifyCheck E code otp = .stmt id fun s =>
      (Code.raiseIf (otp.isExpired s.clock) (.otp "OTP expired. Please request a new one.")).bind
        fun _ => verifyAsk E code otp s.clock := rfl

/-- where a call that has selected `otp` is -/
inductive VerifyStage (E : OtpEnv) (code : String) (otp : TelegramOTP) : OtpCall OtpAnswer → Prop where
  | selected : VerifyStage E code otp (verifyCheck E code otp)
  | checked (now : ℕ) (h : ¬ otp.isExpired now) : VerifyStage E code otp (verifyAsk E code otp now)
  | valid (now : ℕ) (h : ¬ otp.isExpired now) : VerifyStage E code otp (verifyMark otp now)

theorem VerifyStage.running (h : VerifyStage E code otp p) : p.result = none := by
  cases h <;> rfl

/-- the first statement selects an unused record -/
theorem verify_select_cases (h : OTPService.verifyOtp E phoneNumber code pick = .stmt f next) :
    f s = s ∧ ((∃ e, next s = .raise e) ∨
      ∃ otp, s.otps.find otp.id = some otp ∧ otp.isUsed = false ∧ next s = verifyCheck E code otp) := by
  injection h with hf hnext
  subst hf hnext
  refine ⟨rfl, ?_⟩
  simp only
  split
  · rename_i otp hpick
    right
    have hfound : otp ∈ TelegramOTP.unused s phoneNumber := List.mem_of_mem_filter (List.mem_of_getElem? hpick)
    have hrow := List.mem_filter.1 hfound
    simp only [decide_eq_true_eq] at hrow
    exact ⟨otp, Table.find_of_mem hrow.1, hrow.2.2, rfl⟩
  · exact Or.inl ⟨_, rfl⟩

/-- what a later statement does: it leaves the records, or marks the selected one and returns -/
inductive VerifyStep (E : OtpEnv) (code : String) (otp : TelegramOTP) (s s' : OtpSite) (rest : OtpCall OtpAnswer) :
    Prop where
  | raised (hsame : s'.otps = s.otps) (e : OtpFailure) (hrest : rest = .raise e)
  | going (hsame : s'.otps = s.otps) (hrest : VerifyStage E code otp rest)
  | marked (now : ℕ) (htime : ¬ otp.isExpired now) (hfind : (s.otps.find otp.id).isSome)
      (hotps : s'.otps = s.otps.update otp.id fun r => { r with isUsed := true })
      (hrest : rest = .ret (.verified otp now))

theorem verify_cases (hstage : VerifyStage E code otp p) (h : p = .stmt f next) :
    VerifyStep E code otp s (f s) (next s) := by
  cases hstage with
  | selected =>
    rw [verifyCheck_eq] at h
    injection h with hf hnext
    subst hf hnext
    by_cases hexp : otp.isExpired s.clock
    · apply VerifyStep.raised rfl (.otp "OTP expired. Please request a new one.")
      simp only [Code.raiseIf_pos hexp, Code.bind]
    · apply VerifyStep.going rfl
      simp only [Code.raiseIf_neg hexp, Code.bind]
      exact .checked s.clock hexp
  | checked now htime =>
    injection h with hf hnext
    subst hf hnext
    cases hreply : telegramGateway.readCheck (E.check otp.requestId code) with
    | error e => exact .raised rfl e rfl
    | ok valid =>
      cases valid with
      | false => exact .raised rfl (.otp "Invalid code.") rfl
      | true => exact .going rfl (.valid now htime)
  | valid now htime =>
    injection h with hf hnext
    subst hf hnext
    unfold Code.effect
    cases hrow : s.otps.find otp.id with
    | none =>
      simp only [hrow]
      exact .raised rfl (.exc .databaseError) rfl
    | some row =>
      simp only [hrow]
      exact .marked now htime (by rw [hrow]; rfl) rfl rfl

end Statements

/-! ## The invariant -/

/-- the record and the time of the expiry check, if this is the entry with which a verify_otp call returned True -/
def verifiedOf (e : OtpEntry) : Option (TelegramOTP × ℕ) :=
  match e.op, e.result with
  | .verifyOtp .., some (.ok (.verified otp t)) => some (otp, t)
  | _, _ => none

/-- the records, by id, that have let a call return True, in order -/
def verifiedIds (tr : List OtpEntry) : List Pk := tr.filterMap fun e => (verifiedOf e).map fun v => v.1.id

section Invariant

variable {E : OtpEnv} {s s' : OtpSite} {tr : List OtpEntry} {e : OtpEntry} {f : OtpSite → OtpSite}
  {next : OtpSite → OtpCall OtpAnswer} {r : Running OtpSite OtpFailure OtpAnswer OtpOp}

/-- records that have let a call return True are used; the calls checked in time; and the equivalence itself -/
structure Verified (s : OtpSite) (tr : List OtpEntry) : Prop where
  used : ∀ id ∈ verifiedIds tr, Used s id
  timely : ∀ e ∈ tr, ∀ otp t, verifiedOf e = some (otp, t) → ¬ otp.isExpired t
  once : (verifiedIds tr).Nodup ↔ ∀ e ∈ tr, ∀ otp t, verifiedOf e = some (otp, t) → ¬ Used e.before otp.id

/-- a running call; the record that verify_otp has selected is unused, or another call has returned True for it -/
inductive Verifying (E : OtpEnv) (s : OtpSite) (tr : List OtpEntry) (r : Running OtpSite OtpFailure OtpAnswer OtpOp) :
    Prop where
  | sends {phoneNumber : String} {reply : SendReply} {id : Pk} (hop : r.op = .sendOtp phoneNumber reply id)
      (heach : r.rest.Each SameUsed)
  | verifies {phoneNumber code : String} {pick : ℕ} {otp : TelegramOTP} (hop : r.op = .verifyOtp phoneNumber code pick)
      (hstage : VerifyStage E code otp r.rest) (hknown : Used s otp.id → otp.id ∈ verifiedIds tr)

/-- what the entry `e`, executed at `s`, does: nothing of interest here, or it marks a record and returns True -/
inductive OtpEffect (s : OtpSite) (tr : List OtpEntry) (s' : OtpSite) (e : OtpEntry) : Prop where
  | quiet (hsame : SameUsed s s') (hno : verifiedOf e = none)
  | marked (otp : TelegramOTP) (t : ℕ) (hver : verifiedOf e = some (otp, t)) (htime : ¬ otp.isExpired t)
      (hused : ∀ id, Used s' id ↔ id = otp.id ∨ Used s id) (hknown : Used s otp.id → otp.id ∈ verifiedIds tr)

theorem verifiedIds_snoc (tr : List OtpEntry) (e : OtpEntry) :
    verifiedIds (tr ++ [e]) = verifiedIds tr ++ ((verifiedOf e).map fun v => v.1.id).toList := by
  cases h : verifiedOf e <;> simp [verifiedIds, h]

theorem used_markUsed {otp : TelegramOTP} (hfind : (s.otps.find otp.id).isSome)
    (hotps : s'.otps = s.otps.update otp.id fun r => { r with isUsed := true }) (id : Pk) :
    Used s' id ↔ id = otp.id ∨ Used s id := by
  obtain ⟨row, hrow⟩ := Option.isSome_iff_exists.1 hfind
  unfold Used
  rw [hotps]
  by_cases hid : otp.id = id
  · subst hid
    rw [Table.find_update_self hrow rfl]
    simp
  · rw [Table.find_update_ne hid]
    simp [Ne.symm hid]

theorem forall_mem_snoc {P : OtpEntry → Prop} : (∀ e' ∈ tr ++ [e], P e') ↔ (∀ e' ∈ tr, P e') ∧ P e := by
  rw [List.forall_mem_append, List.forall_mem_singleton]

theorem Verified.effect (h : Verified s tr) (hbefore : e.before = s) (heffect : OtpEffect s tr s' e) :
    Verified s' (tr ++ [e]) := by
  cases heffect with
  | quiet hsame hno =>
    have hids : verifiedIds (tr ++ [e]) = verifiedIds tr := by
      rw [verifiedIds_snoc, hno]
      exact List.append_nil _
    refine ⟨?_, ?_, ?_⟩
    · rw [hids]
      intro id hid
      exact (hsame id).2 (h.used id hid)
    · rw [forall_mem_snoc, hno]
      exact ⟨h.timely, fun otp t hver => by cases hver⟩
    · rw [hids, forall_mem_snoc, hno, h.once]
      exact (and_iff_left fun otp t hver => by cases hver).symm
  | marked otp t hver htime hused hknown =>
    have hids : verifiedIds (tr ++ [e]) = verifiedIds tr ++ [otp.id] := by
      rw [verifiedIds_snoc, hver]
      rfl
    have hnew : ∀ {P : TelegramOTP → ℕ → Prop},
        (∀ otp' t', verifiedOf e = some (otp', t') → P otp' t') ↔ P otp t := by
      intro P
      rw [hver]
      exact ⟨fun hP => hP otp t rfl, fun hP otp' t' heq => by cases heq; exact hP⟩
    -- the record is used before the entry exactly if a call has returned True for it
    have hagain : Used e.before otp.id ↔ otp.id ∈ verifiedIds tr := by
      rw [hbefore]
      exact ⟨hknown, h.used otp.id⟩
    refine ⟨?_, ?_, ?_⟩
    · rw [hids]
      intro id hid
      rw [hused]
      rcases List.mem_append.1 hid with hid | hid
      · exact Or.inr (h.used id hid)
      · exact Or.inl (List.mem_singleton.1 hid)
    · rw [forall_mem_snoc, hnew]
      exact ⟨h.timely, htime⟩
    · rw [hids, forall_mem_snoc, hnew, ← h.once, hagain, List.nodup_append_comm, List.singleton_append,
        List.nodup_cons, and_comm]

/-- another call's statement: the selected record is used only if a call has returned True for it -/
theorem OtpEffect.known (heffect : OtpEffect s tr s' e) {id : Pk} (h : Used s id → id ∈ verifiedIds tr)
    (hused : Used s' id) : id ∈ verifiedIds (tr ++ [e]) := by
  rw [verifiedIds_snoc, List.mem_append]
  cases heffect with
  | quiet hsame hno => exact Or.inl (h ((hsame id).1 hused))
  | marked otp t hver htime hmark hknown =>
    rcases (hmark id).1 hused with rfl | hold
    · right
      rw [hver]
      exact List.mem_singleton_self _
    · exact Or.inl (h hold)

theorem Verifying.effect (h : Verifying E s tr r) (heffect : OtpEffect s tr s' e) :
    Verifying E s' (tr ++ [e]) r := by
  cases h with
  | sends hop heach => exact .sends hop heach
  | verifies hop hstage hknown => exact .verifies hop hstage (heffect.known hknown)

/-- what a statement of send_otp does, and where the call is then -/
theorem send_effect {phoneNumber : String} {reply : SendReply} {id : Pk} (hop : r.op = .sendOtp phoneNumber reply id)
    (heach : r.rest.Each SameUsed) (hrest : r.rest = .stmt f next) (c : ℕ) :
    OtpEffect s tr (f s) (r.entry c tr.length s f (next s)) ∧
      Verifying E (f s) (tr ++ [r.entry c tr.length s f (next s)]) { r with rest := next s } := by
  rw [hrest] at heach
  refine ⟨.quiet (heach s).1 ?_, .sends hop (heach s).2⟩
  simp [verifiedOf, Running.entry, hop]

/-- the first statement of verify_otp -/
theorem verify_first_effect {phoneNumber code : String} {pick : ℕ} (hop : r.op = .verifyOtp phoneNumber code pick)
    (hcode : OTPService.verifyOtp E phoneNumber code pick = .stmt f next) (c : ℕ) :
    OtpEffect s tr (f s) (r.entry c tr.length s f (next s)) ∧
      ((next s).result = none →
        Verifying E (f s) (tr ++ [r.entry c tr.length s f (next s)]) { r with rest := next s }) := by
  obtain ⟨hsame, hcases⟩ := verify_select_cases (s := s) hcode
  have hused : SameUsed s (f s) := by
    rw [hsame]
    exact SameUsed.refl s
  rcases hcases with ⟨e, hnext⟩ | ⟨otp, hfind, hunused, hnext⟩
  · refine ⟨.quiet hused ?_, fun hres => absurd hres (Code.ended_of_raise hnext)⟩
    simp [verifiedOf, Running.entry, hop, hnext, Code.result]
  · have hstage : VerifyStage E code otp (next s) := by
      rw [hnext]
      exact .selected
    have hno : verifiedOf (r.entry c tr.length s f (next s)) = none := by
      simp [verifiedOf, Running.entry, hop, hstage.running]
    refine ⟨.quiet hused hno, fun _ => .verifies hop hstage ?_⟩
    intro hnow
    obtain ⟨row, hrow, hmark⟩ := (hused otp.id).1 hnow
    rw [hfind] at hrow
    cases hrow
    rw [hunused] at hmark
    cases hmark

/-- a later statement of verify_otp -/
theorem verify_later_effect {phoneNumber code : String} {pick : ℕ} (hop : r.op = .verifyOtp phoneNumber code pick)
    {otp : TelegramOTP} (hstage : VerifyStage E code otp r.rest) (hknown : Used s otp.id → otp.id ∈ verifiedIds tr)
    (hrest : r.rest = .stmt f next) (c : ℕ) :
    OtpEffect s tr (f s) (r.entry c tr.length s f (next s)) ∧
      ((next s).result = none →
        Verifying E (f s) (tr ++ [r.entry c tr.length s f (next s)]) { r with rest := next s }) := by
  cases verify_cases (s := s) hstage hrest with
  | raised hsame e hnext =>
    refine ⟨.quiet (sameUsed_of_otps hsame) ?_, fun hres => absurd hres (Code.ended_of_raise hnext)⟩
    simp [verifiedOf, Running.entry, hop, hnext, Code.result]
  | going hsame hnext =>
    have heffect : OtpEffect s tr (f s) (r.entry c tr.length s f (next s)) := by
      apply OtpEffect.quiet (sameUsed_of_otps hsame)
      simp [verifiedOf, Running.entry, hop, hnext.running]
    exact ⟨heffect, fun _ => .verifies hop hnext (heffect.known hknown)⟩
  | marked now htime hfind hotps hnext =>
    refine ⟨.marked otp now ?_ htime (used_markUsed hfind hotps) hknown, ?_⟩
    · simp [verifiedOf, Running.entry, hop, hnext, Code.result]
    · exact fun hres => absurd hres (Code.ended_of_ret hnext)

/-- **Every statement** of a call: its effect, and where the call is then. -/
theorem ready_effect (hr : Ready (OtpOp.code E) (fun _ => True) (Verifying E) s tr r) (hrest : r.rest = .stmt f next)
    (c : ℕ) : OtpEffect s tr (f s) (r.entry c tr.length s f (next s)) ∧
      ((next s).result = none →
        Verifying E (f s) (tr ++ [r.entry c tr.length s f (next s)]) { r with rest := next s }) := by
  rcases hr with ⟨o, -, rfl⟩ | hrun
  · cases o with
    | sendOtp phoneNumber reply id =>
      obtain ⟨heffect, hnext⟩ := send_effect rfl (sameUsed_sendOtp E phoneNumber reply id) hrest c
      exact ⟨heffect, fun _ => hnext⟩
    | verifyOtp phoneNumber code pick => exact verify_first_effect rfl hrest c
  · cases hrun with
    | sends hop heach =>
      obtain ⟨heffect, hnext⟩ := send_effect hop heach hrest c
      exact ⟨heffect, fun _ => hnext⟩
    | verifies hop hstage hknown => exact verify_later_effect hop hstage hknown hrest c

theorem verify_rule (E : OtpEnv) :
    PoolRule (OtpOp.code E) OtpSite.tick (fun _ => True) Verified (Verifying E) where
  own s tr c r f next hI hr hrest := by
    obtain ⟨heffect, hnext⟩ := ready_effect hr hrest c
    exact ⟨hI.effect rfl heffect, hnext⟩
  others s tr c r f next r' hI hr hrest hr' := hr'.effect (ready_effect hr hrest c).1
  natural s tr d hI := by
    have hsame : SameUsed s (OtpSite.tick d s) := sameUsed_of_otps rfl
    refine ⟨⟨?_, hI.timely, hI.once⟩, ?_⟩
    · intro id hid
      exact (hsame id).2 (hI.used id hid)
    · intro r hr
      cases hr with
      | sends hop heach => exact .sends hop heach
      | verifies hop hstage hknown => exact .verifies hop hstage fun hused => hknown ((hsame _).1 hused)

end Invariant

/-! ## At most once -/

/-- **One-time passwords.** A verify_otp call that returns True has checked the record's age within 300 seconds of its
creation. Every record lets at most one call return True exactly if every such call finds the record still unused when
it marks it. -/
theorem otp_once_iff (E : OtpEnv) (s : OtpSite) (evs : List OtpEvent) :
    (∀ e ∈ (otpRun E s evs).trace, ∀ otp t, verifiedOf e = some (otp, t) → t ≤ otp.createdAt + seconds 300) ∧
      ((∀ id, (verifiedIds (otpRun E s evs).trace).count id ≤ 1) ↔
        ∀ e ∈ (otpRun E s evs).trace, ∀ otp t, verifiedOf e = some (otp, t) → ¬ Used e.before otp.id) := by
  have hinit : Verified s [] := by
    refine ⟨?_, ?_, ?_⟩
    · intro id hid
      cases hid
    · intro e he
      cases he
    · exact iff_of_true List.nodup_nil fun e he => by cases he
  have hverified : Verified (otpRun E s evs).mem (otpRun E s evs).trace :=
    (pool_inv (verify_rule E) (poolInv_init hinit) fun _ _ _ => trivial).shared
  refine ⟨?_, ?_⟩
  · intro e he otp t hver
    have htime := hverified.timely e he otp t hver
    unfold TelegramOTP.isExpired at htime
    omega
  · rw [← List.nodup_iff_count_le_one]
    exact hverified.once

def demoSent : OtpSite where
  otps := ⟨[⟨1, demoPhone, "req-1", false, 0⟩], by decide⟩
  cache _ := none
  gateway := [.send demoPhone 0]
  clock := seconds 60

/-- two requests with the right code, statement by statement in turn -/
def demoResubmitted : List OtpEvent :=
  [.start 0 (.verifyOtp demoPhone "123456" 0), .start 1 (.verifyOtp demoPhone "123456" 0),
    .step 0, .step 1, .step 0, .step 1, .step 0, .step 1]

/-- both return True for one record -/
theorem otp_twice : (verifiedIds (otpRun demoGateway demoSent demoResubmitted).trace).count 1 = 2 := by
  decide +kernel

end GigMarketplace
