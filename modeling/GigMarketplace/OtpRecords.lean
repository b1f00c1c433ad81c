/-
One-time passwords: where a record comes from, and what a verification has found out when it returns.

`Verification.lean` counts how often a record is used. Here the calls are followed with what they know about the record
they have selected, while other calls send, verify and delete. `issued` says which records may appear: id, phone number
and request id; the gateway hands out the request ids, and the sequence of the table the ids.

Results:
- `otpStep_sendOtp`: a sending call adds the record that the gateway has answered for, deletes unused ones only, and
  takes nothing back that others rely on (`OtpGrows`);
- `assures_verifyOtp`: a verification that returns has found a record of the phone number that was issued, asked the
  gateway about it within 300 seconds, been told that the code is right, and marked the record.
-/
import GigMarketplace.Core.Rely
import GigMarketplace.Verification

namespace GigMarketplace

open GigMarketplace.Core

/-! ## What lasts -/

/-- the record is used, and it is the phone number's -/
def UsedFor (s : OtpSite) (id : Pk) (phoneNumber : String) : Prop :=
  ∃ otp, s.otps.find id = some otp ∧ otp.isUsed = true ∧ otp.phoneNumber = phoneNumber

structure OtpGrows (s s' : OtpSite) : Prop where
  clock : s.clock ≤ s'.clock
  gateway : s.gateway <+: s'.gateway
  used : ∀ id phoneNumber, UsedFor s id phoneNumber → UsedFor s' id phoneNumber

/-- every record was issued -/
def OtpLaw (issued : Pk → String → String → Prop) (s : OtpSite) : Prop :=
  ∀ otp ∈ s.otps.rows, issued otp.id otp.phoneNumber otp.requestId

/-- what a statement does -/
structure OtpStep (issued : Pk → String → String → Prop) (s s' : OtpSite) : Prop where
  grows : OtpGrows s s'
  law : OtpLaw issued s → OtpLaw issued s'

section Steps

variable {issued : Pk → String → String → Prop} {s s' s'' : OtpSite}

theorem OtpGrows.refl (s : OtpSite) : OtpGrows s s := ⟨Nat.le_refl _, List.prefix_refl _, fun _ _ h => h⟩

theorem OtpGrows.trans (h : OtpGrows s s') (h' : OtpGrows s' s'') : OtpGrows s s'' :=
  ⟨h.clock.trans h'.clock, h.gateway.trans h'.gateway, fun id p hp => h'.used id p (h.used id p hp)⟩

theorem OtpStep.refl (s : OtpSite) : OtpStep issued s s := ⟨OtpGrows.refl s, id⟩

/-- the table stays -/
theorem otpStep_same (hotps : s'.otps = s.otps) (hclock : s.clock ≤ s'.clock) (hgateway : s.gateway <+: s'.gateway) :
    OtpStep issued s s' := by
  refine ⟨⟨hclock, hgateway, ?_⟩, ?_⟩
  · intro id p hp
    unfold UsedFor
    rw [hotps]
    exact hp
  · intro hlaw
    unfold OtpLaw
    rw [hotps]
    exact hlaw

theorem otpStep_tick (d : ℕ) (s : OtpSite) : OtpStep issued s (s.tick d) :=
  otpStep_same rfl (Nat.le_add_right _ _) (List.prefix_refl _)

theorem otpStep_deleteUnused (phoneNumber : String) : (TelegramOTP.deleteUnused phoneNumber).Each (OtpStep issued) := by
  apply Code.each_act OtpStep.refl
  intro s x h
  cases h
  refine ⟨⟨Nat.le_refl _, List.prefix_refl _, ?_⟩, ?_⟩
  · rintro id p ⟨otp, hfind, hused, hphone⟩
    refine ⟨otp, ?_, hused, hphone⟩
    rw [Table.find_delete]
    exact Option.filter_eq_some_iff.2 ⟨hfind, by simp [hused]⟩
  · intro hlaw otp hotp
    have hfind : (s.otps.delete _).find otp.id = some otp := Table.find_of_mem hotp
    rw [Table.find_delete] at hfind
    exact hlaw otp (Table.mem_of_find (Option.filter_eq_some_iff.1 hfind).1)

theorem otpStep_insert {id : Pk} {phoneNumber requestId : String} (now : ℕ)
    (hissued : issued id phoneNumber requestId) :
    (TelegramOTP.insert id phoneNumber requestId now).Each (OtpStep issued) := by
  apply Code.each_act OtpStep.refl
  intro s x h
  split_ifs at h with hnew
  cases h
  have hfresh : s.otps.find (pk (⟨id, phoneNumber, requestId, false, now⟩ : TelegramOTP)) = none := hnew.2.1
  refine ⟨⟨Nat.le_refl _, List.prefix_refl _, ?_⟩, ?_⟩
  · rintro k p ⟨otp, hfind, hused, hphone⟩
    refine ⟨otp, ?_, hused, hphone⟩
    rw [Table.find_insert, hfind, Option.getD_some, ite_self]
  · intro hlaw otp hotp
    rcases (Table.mem_insert hfresh).1 hotp with hotp | rfl
    · exact hlaw otp hotp
    · exact hissued

/-- the gateway's answer decides how a sending call goes on -/
theorem each_gateway_bind {A : Type} {R : OtpSite → OtpSite → Prop} {phoneNumber : String} {reply : SendReply}
    {k : String → OtpCall A} (hsend : ∀ s, R s { s with gateway := s.gateway ++ [.send phoneNumber s.clock] })
    (hk : ∀ requestId, reply = .accepted requestId → (k requestId).Each R) :
    (telegramGateway.sendOtp phoneNumber reply >>= k).Each R := by
  intro s
  refine ⟨hsend s, ?_⟩
  cases reply with
  | accepted requestId => exact hk requestId rfl
  | requestError => trivial
  | refused error => trivial
  | unreadable e => trivial

/-- **A sending call**: its record is the one that the gateway has answered for. -/
theorem otpStep_sendOtp (V : OtpEnv) {phoneNumber : String} {reply : SendReply} {id : Pk}
    (hissued : ∀ requestId, reply = .accepted requestId → issued id phoneNumber requestId) :
    (OTPService.sendOtp V phoneNumber reply id).Each (OtpStep issued) := by
  have hgateway : ∀ (s : OtpSite) g, OtpStep issued s { s with gateway := s.gateway ++ [g] } := fun s g =>
    otpStep_same rfl (Nat.le_refl _) (List.prefix_append _ _)
  refine Code.each_bind (Code.each_query OtpStep.refl _) fun n => ?_
  refine Code.each_bind (Code.each_raiseIf _ _) fun _ => ?_
  refine Code.each_bind ?_ fun _ => ?_
  · exact each_revokeExisting phoneNumber OtpStep.refl (fun s _ => hgateway s _) (otpStep_deleteUnused phoneNumber)
  · apply each_gateway_bind fun s => hgateway s _
    intro requestId hreply
    refine Code.each_bind ?_ fun _ => ?_
    · exact Code.each_bind (Code.each_query OtpStep.refl _) fun now => otpStep_insert now (hissued requestId hreply)
    · refine Code.each_bind ?_ fun _ => trivial
      exact each_countSend _ n OtpStep.refl fun s _ => otpStep_same rfl (Nat.le_refl _) (List.prefix_refl _)

end Steps

/-! ## A verification -/

/-- the record that a verification which began at `s₀` has selected, and the time of its check -/
structure Timed (issued : Pk → String → String → Prop) (phoneNumber : String) (s₀ : OtpSite) (otp : TelegramOTP)
    (now : ℕ) (s : OtpSite) : Prop where
  phone : otp.phoneNumber = phoneNumber
  issued : issued otp.id phoneNumber otp.requestId
  began : s₀.clock ≤ now
  past : now ≤ s.clock
  timely : now ≤ otp.createdAt + seconds 300

/-- the gateway has been asked about it, and knows the code -/
structure Asked (V : OtpEnv) (issued : Pk → String → String → Prop) (phoneNumber code : String) (s₀ : OtpSite)
    (otp : TelegramOTP) (now : ℕ) (s : OtpSite) : Prop extends Timed issued phoneNumber s₀ otp now s where
  asked : .check otp.requestId code ∈ s.gateway
  valid : V.check otp.requestId code = .status (some "code_valid")

/-- and it is marked -/
structure Checked (V : OtpEnv) (issued : Pk → String → String → Prop) (phoneNumber code : String) (s₀ : OtpSite)
    (otp : TelegramOTP) (now : ℕ) (s : OtpSite) : Prop extends Asked V issued phoneNumber code s₀ otp now s where
  used : UsedFor s otp.id phoneNumber

section Verification

variable {V : OtpEnv} {issued : Pk → String → String → Prop} {phoneNumber code : String} {s₀ s s' : OtpSite}
  {otp : TelegramOTP} {now : ℕ}

theorem Timed.grow (h : Timed issued phoneNumber s₀ otp now s) (hgrows : OtpGrows s s') :
    Timed issued phoneNumber s₀ otp now s' := { h with past := h.past.trans hgrows.clock }

theorem Asked.grow (h : Asked V issued phoneNumber code s₀ otp now s) (hgrows : OtpGrows s s') :
    Asked V issued phoneNumber code s₀ otp now s' :=
  { h.toTimed.grow hgrows with asked := hgrows.gateway.subset h.asked, valid := h.valid }

theorem Checked.grow (h : Checked V issued phoneNumber code s₀ otp now s) (hgrows : OtpGrows s s') :
    Checked V issued phoneNumber code s₀ otp now s' :=
  { h.toAsked.grow hgrows with used := hgrows.used _ _ h.used }

theorem mem_of_selected {pick : ℕ} (h : TelegramOTP.selected s phoneNumber pick = some otp) :
    otp ∈ s.otps.rows ∧ otp.phoneNumber = phoneNumber := by
  have hfound : otp ∈ TelegramOTP.unused s phoneNumber := List.mem_of_mem_filter (List.mem_of_getElem? h)
  have hrow := List.mem_filter.1 hfound
  simp only [decide_eq_true_eq] at hrow
  exact ⟨hrow.1, hrow.2.1⟩

theorem readCheck_true {reply : CheckReply} (h : telegramGateway.readCheck reply = .ok true) :
    reply = .status (some "code_valid") := by
  cases reply with
  | status status =>
    have hvalid := Except.ok.inj h
    rw [of_decide_eq_true hvalid]
  | requestError => cases h
  | refused => cases h
  | unreadable e => cases h

theorem otpStep_markUsed {id : Pk} {row : TelegramOTP} (hfind : s.otps.find id = some row) :
    OtpStep issued s { s with otps := s.otps.update id fun r => { r with isUsed := true } } := by
  have hid : row.id = id := Table.pk_of_find hfind
  subst hid
  refine ⟨⟨Nat.le_refl _, List.prefix_refl _, ?_⟩, ?_⟩
  · rintro k p ⟨otp, hotp, hused, hphone⟩
    by_cases hk : row.id = k
    · subst hk
      rw [hotp] at hfind
      cases hfind
      exact ⟨_, Table.find_update_self hotp rfl, rfl, hphone⟩
    · exact ⟨otp, (Table.find_update_ne hk).trans hotp, hused, hphone⟩
  · intro hlaw otp hotp
    rcases (Table.mem_update hfind rfl otp).1 hotp with rfl | ⟨hotp, -⟩
    · exact hlaw row (Table.mem_of_find hfind)
    · exact hlaw otp hotp

/-- the triples of a verification, stage by stage -/
abbrev Verifies (V : OtpEnv) (issued : Pk → String → String → Prop) (phoneNumber code : String) (s₀ : OtpSite)
    (p : OtpCall OtpAnswer) (s : OtpSite) : Prop :=
  p.Assures (OtpLaw issued) OtpGrows (OtpStep issued)
    (fun a s => ∃ otp now, a = .verified otp now ∧ Checked V issued phoneNumber code s₀ otp now s) s

/-- the row that is marked is the phone number's, whatever has been deleted and sent since: an id is issued once -/
theorem assures_mark (hone : ∀ id p r p' r', issued id p r → issued id p' r' → p = p')
    (h : Asked V issued phoneNumber code s₀ otp now s) :
    Verifies V issued phoneNumber code s₀ (verifyMark otp now) s := by
  refine Code.assures_bind (P := fun _ s => Checked V issued phoneNumber code s₀ otp now s) ?_ fun _ s' h' => ?_
  · apply Code.assures_act OtpStep.refl
    intro s' x hgrows hlaw hx
    split at hx
    · cases hx
    · rename_i row hfind
      cases hx
      have hid : row.id = otp.id := Table.pk_of_find hfind
      have hissued := hlaw row (Table.mem_of_find hfind)
      rw [hid] at hissued
      have hstep : OtpStep issued s' { s' with otps := s'.otps.update otp.id fun r => { r with isUsed := true } } :=
        otpStep_markUsed hfind
      refine ⟨hstep.law hlaw, hstep, { (h.grow hgrows).grow hstep.grows with used := ?_ }⟩
      exact ⟨_, Table.find_update_self hfind rfl, rfl, hone _ _ _ _ _ hissued h.issued⟩
  · exact ⟨otp, now, rfl, h'⟩

theorem assures_ask (hone : ∀ id p r p' r', issued id p r → issued id p' r' → p = p')
    (h : Timed issued phoneNumber s₀ otp now s) :
    Verifies V issued phoneNumber code s₀ (verifyAsk V code otp now) s := by
  refine Code.assures_bind (P := fun valid s => valid = true → Asked V issued phoneNumber code s₀ otp now s) ?_
    fun valid s' h' => ?_
  · intro s' hgrows hlaw
    have hasked : OtpStep issued s' { s' with gateway := s'.gateway ++ [.check otp.requestId code] } :=
      otpStep_same rfl (Nat.le_refl _) (List.prefix_append _ _)
    refine ⟨⟨hasked.law hlaw, hasked⟩, Code.assures_ofExcept fun valid hreply hvalid => ?_⟩
    rw [hvalid] at hreply
    refine { (h.grow hgrows).grow hasked.grows with asked := ?_, valid := readCheck_true hreply }
    exact List.mem_append_right _ (List.mem_singleton_self _)
  · refine Code.assures_bind (P := fun _ s => Asked V issued phoneNumber code s₀ otp now s)
      (Code.assures_raiseIf fun hvalid => h' (not_not.1 hvalid)) fun _ s'' h'' => ?_
    exact assures_mark hone h''

theorem assures_check (hone : ∀ id p r p' r', issued id p r → issued id p' r' → p = p')
    (hphone : otp.phoneNumber = phoneNumber) (hissued : issued otp.id phoneNumber otp.requestId)
    (hbegan : s₀.clock ≤ s.clock) : Verifies V issued phoneNumber code s₀ (verifyCheck V code otp) s := by
  refine Code.assures_bind (P := fun now s => s₀.clock ≤ now ∧ now ≤ s.clock) ?_ fun now s' h' => ?_
  · apply Code.assures_query OtpStep.refl
    intro s' now hgrows _ h
    cases h
    exact ⟨hbegan.trans hgrows.clock, Nat.le_refl _⟩
  · refine Code.assures_bind (P := fun _ s => Timed issued phoneNumber s₀ otp now s)
      (Code.assures_raiseIf fun hexpired => ?_) fun _ s'' h'' => ?_
    · unfold TelegramOTP.isExpired at hexpired
      exact ⟨hphone, hissued, h'.1, h'.2, by omega⟩
    · exact assures_ask hone h''

/-- **A verification that returns.** -/
theorem assures_verifyOtp (hone : ∀ id p r p' r', issued id p r → issued id p' r' → p = p') (pick : ℕ) :
    Verifies V issued phoneNumber code s₀ (OTPService.verifyOtp V phoneNumber code pick) s₀ := by
  refine Code.assures_bind (P := fun otp s => (otp.phoneNumber = phoneNumber ∧
    issued otp.id phoneNumber otp.requestId) ∧ s₀.clock ≤ s.clock) ?_ fun otp s h => ?_
  · rw [latest_eq]
    apply Code.assures_query OtpStep.refl
    intro s' otp hgrows hlaw h
    split at h
    · rename_i otp' hselected
      cases h
      obtain ⟨hrow, hphone⟩ := mem_of_selected hselected
      have hissued := hlaw otp hrow
      rw [hphone] at hissued
      exact ⟨⟨hphone, hissued⟩, hgrows.clock⟩
    · cases h
  · exact assures_check hone h.1.1 h.1.2 h.2

end Verification

end GigMarketplace
