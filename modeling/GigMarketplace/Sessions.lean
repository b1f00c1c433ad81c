/-
Who gets a session (`SignIn.lean`), in any interleaving of requests.

Results:
- `assures_authOp`: every call keeps the law of both parts of the state, and takes nothing back that another one has
  found out (`AuthGrows`);
- `sign_in_needs_code`: a session is for a phone number whose code the gateway has accepted, of a record that a sending
  call for this number has got, within 300 seconds;
- `joined_by_code`: everyone who has joined has a used record;
- `one_account_per_phone`: sign-ins for one phone number, also at the same time, are of one user, who has one wallet;
- `books_in_order`: the books are in order at every moment, whoever joins.
-/
import GigMarketplace.SignIn

namespace GigMarketplace

open GigMarketplace.Core

/-! ## The law -/

/-- what holds of the two parts; those who were not there at first have had a code accepted -/
structure AuthLaw (X : AuthEnv) (issued : Pk → String → String → Prop) (s₀ t : AuthSite) : Prop where
  otp : OtpLaw issued t.otp
  site : SiteLaw X.base t.site
  kept : KeptPeople s₀.site t.site
  verified : ∀ id p, t.site.identity id = some p → s₀.site.identity id = some p ∨ ∃ k, UsedFor t.otp k p.1

structure AuthGrows (t t' : AuthSite) : Prop where
  otp : OtpGrows t.otp t'.otp
  site : Kept t.site t'.site

/-- the phone numbers that may join by a call -/
def AuthOp.Joins (X : AuthEnv) : AuthOp → String → Prop
  | .verifyOtp request _, phone => ∃ code, VerifyOTPSerializer.validate X.rest request.data = some (phone, code)
  | _, _ => False

/-- the operations that a call which begins at `t` may do -/
def AuthOp.Grants (X : AuthEnv) (t : AuthSite) : AuthOp → Op → Prop
  | .market r, op => r.Grants X.base t.site op
  | _, _ => False

/-- what a statement does, of a call that began at `t₀` -/
structure AuthStep (X : AuthEnv) (o : AuthOp) (t₀ t t' : AuthSite) : Prop where
  grows : AuthGrows t t'
  site : SiteStep X.base (o.Joins X) (o.Grants X t₀) t.site t'.site

section Law

variable {X : AuthEnv} {issued : Pk → String → String → Prop} {s₀ t₀ t t' t'' : AuthSite}
  {o : AuthOp}

theorem AuthGrows.refl (t : AuthSite) : AuthGrows t t := ⟨OtpGrows.refl _, Kept.refl _⟩

theorem AuthGrows.trans (h : AuthGrows t t') (h' : AuthGrows t' t'') : AuthGrows t t'' :=
  ⟨h.otp.trans h'.otp, h.site.trans h'.site⟩

theorem AuthStep.refl (t : AuthSite) : AuthStep X o t₀ t t := ⟨AuthGrows.refl t, SiteStep.refl t.site⟩

/-- a statement on the records -/
theorem AuthLaw.otpStep (h : AuthLaw X issued s₀ t) {s : OtpSite} (hlaw : OtpLaw issued s) (hgrows : OtpGrows t.otp s) :
    AuthLaw X issued s₀ (otpPart.set s t) ∧ AuthStep X o t₀ t (otpPart.set s t) := by
  refine ⟨⟨hlaw, h.site, h.kept, ?_⟩, ⟨hgrows, Kept.refl _⟩, SiteStep.refl _⟩
  intro id p hp
  rcases h.verified id p hp with hold | ⟨k, hk⟩
  · exact Or.inl hold
  · exact Or.inr ⟨k, hgrows.used k p.1 hk⟩

/-- a statement on the users, by which only those join who have had a code accepted -/
theorem AuthLaw.siteStep (h : AuthLaw X issued s₀ t) {allowed : String → Prop} {s : Site}
    (hstep : SiteStep X.base allowed (o.Grants X t₀) t.site s) (hjoins : ∀ phone, allowed phone → o.Joins X phone)
    (hallowed : ∀ phone, allowed phone → ∃ k, UsedFor t.otp k phone) :
    AuthLaw X issued s₀ (sitePart.set s t) ∧ AuthStep X o t₀ t (sitePart.set s t) := by
  refine ⟨⟨h.otp, hstep.law h.site, h.kept.trans hstep.kept, ?_⟩, ⟨OtpGrows.refl _, hstep.grows h.site⟩,
    hstep.joinsOf hjoins⟩
  intro id p hp
  rcases hstep.newcomer hp with hold | hnew
  · exact h.verified id p hold
  · exact Or.inr (hallowed p.1 hnew)

theorem SignedIn.kept {phoneNumber : String} {r : Account × Bool} {s s' : Site} (h : SignedIn phoneNumber r s)
    (hkept : KeptPeople s s') : SignedIn phoneNumber r s' := { h with user := hkept _ _ h.user }

/-- what is true of a session when it is answered -/
structure SessionOf (X : AuthEnv) (issued : Pk → String → String → Prop) (phoneNumber code : String) (s₀ : AuthSite)
    (otp : TelegramOTP) (now : ℕ) (user : Account) (isNew : Bool) (balance : ℤ) (t : AuthSite) : Prop where
  checked : Checked X.gateway issued phoneNumber code s₀.otp otp now t.otp
  signedIn : SignedIn phoneNumber (user, isNew) t.site
  /-- a new user's wallet is shown as it was created -/
  shown : balance = if isNew then 0 else (t.site.db.wallets.find user.id).elim 0 Wallet.balance

/-- what is promised of an answer to a call that began at `s` -/
def AuthOp.Answer (X : AuthEnv) (issued : Pk → String → String → Prop) :
    AuthOp → AuthSite → AuthAnswer → AuthSite → Prop
  | .verifyOtp request _, s, .session user isNew balance, t =>
    ∃ phoneNumber code otp now, VerifyOTPSerializer.validate X.rest request.data = some (phoneNumber, code) ∧
      SessionOf X issued phoneNumber code s otp now user isNew balance t
  | .market r, s, .market answer, t => r.Answer X.base X.pages X.search s.site answer t.site
  | _, _, _, _ => True

/-- a sending call's record is one that may appear -/
def AuthOp.Sends (X : AuthEnv) (issued : Pk → String → String → Prop) : AuthOp → Prop
  | .sendOtp data reply id => ∀ phoneNumber requestId, SendOTPSerializer.validate X.rest data = some phoneNumber →
      reply = .accepted requestId → issued id phoneNumber requestId
  | _ => True

/-- a body that is valid -/
theorem assures_validated {A : Type} (data : Option A) {J : AuthSite → Prop} {R G : AuthSite → AuthSite → Prop} :
    (validated data).Assures J R G (fun a t' => data = some a ∧ t' = t) t := by
  cases data with
  | none => trivial
  | some a => exact ⟨rfl, rfl⟩

theorem assures_sendCode {data : Json} {reply : SendReply} {id : Pk}
    (hsends : (AuthOp.sendOtp data reply id).Sends X issued) :
    (Auth.SendOTPView.post X data reply id).Assures (AuthLaw X issued s₀) AuthGrows (AuthStep X o t₀)
      (fun _ _ => True) t := by
  refine Code.assures_bind (assures_validated _) fun phoneNumber t₁ h₁ => ?_
  have hsend : (OTPService.sendOtp X.gateway phoneNumber reply id).Assures (OtpLaw issued) OtpGrows (OtpStep issued)
      (fun _ _ => True) t₁.otp :=
    Code.assures_each (fun _ _ hs hstep => hstep.law hs)
      (otpStep_sendOtp X.gateway fun requestId => hsends phoneNumber requestId h₁.1)
  refine Code.assures_bind (P := fun _ _ => True) ?_ fun _ _ _ => trivial
  refine (hsend.zoom otpPart AuthFailure.otp (F := fun _ => True) (fun _ h => h.otp) (fun _ _ h => h.otp)
    (fun _ _ _ _ => trivial) (fun t s h _ hlaw hstep => h.otpStep hlaw hstep.grows) (fun _ _ h => h.grows)
    trivial).post fun _ _ _ => trivial

/-- **A sign-in.** -/
theorem assures_signIn (hone : ∀ id p r p' r', issued id p r → issued id p' r' → p = p') (request : VerifyRequest)
    (pick : ℕ) :
    (Auth.VerifyOTPView.post X request pick).Assures (AuthLaw X issued s₀) AuthGrows
      (AuthStep X (.verifyOtp request pick) t₀) ((AuthOp.verifyOtp request pick).Answer X issued t) t := by
  refine Code.assures_bind (assures_validated _) fun body t₁ h₁ => ?_
  obtain ⟨phoneNumber, code⟩ := body
  obtain ⟨hbody, rfl⟩ := h₁
  -- the code is checked
  refine Code.assures_bind ((assures_verifyOtp hone pick).zoom otpPart AuthFailure.otp (F := fun _ => True)
    (fun _ h => h.otp) (fun _ _ h => h.otp) (fun _ _ _ _ => trivial)
    (fun t s h _ hlaw hstep => h.otpStep hlaw hstep.grows) (fun _ _ h => h.grows) trivial) fun a t₂ h₂ => ?_
  obtain ⟨⟨otp, now, -, hchecked⟩, -⟩ := h₂
  refine Code.assures_bind (P := fun _ t' => t' = t₂) (Code.assures_ofExcept fun _ _ => rfl) fun role t₃ h₃ => ?_
  subst h₃
  -- the user is fetched, or joins
  refine Code.assures_bind ((assures_authenticateOrCreate request.id phoneNumber role request.now).zoom sitePart
    AuthFailure.account (F := fun t => Checked X.gateway issued phoneNumber code t₁.otp otp now t.otp)
    (fun _ h => h.site) (fun _ _ h => h.site) (fun _ _ h hgrows => h.grow hgrows.otp)
    (fun t s h hknown _ hstep => h.siteStep hstep (fun phone hphone => ⟨code, hphone ▸ hbody⟩)
      fun phone hphone => ⟨otp.id, hphone ▸ hknown.used⟩)
    (fun _ _ h => h.grows) hchecked) fun r t₄ h₄ => ?_
  obtain ⟨user, isNew⟩ := r
  obtain ⟨hsigned, hchecked₄⟩ := h₄
  refine Code.assures_bind
    (P := fun balance t => SessionOf X issued phoneNumber code t₁ otp now user isNew balance t) ?_ fun balance t₅ h₅ => ?_
  · cases isNew with
    | true => exact ⟨hchecked₄, hsigned, rfl⟩
    | false =>
      apply Code.assures_query AuthStep.refl
      intro t' balance hgrows _ h
      cases h
      exact ⟨hchecked₄.grow hgrows.otp, hsigned.kept hgrows.site.people, rfl⟩
  · exact ⟨phoneNumber, code, otp, now, hbody, h₅⟩

theorem assures_edit {op : AccountOp} (h : op.isEdit = true) :
    ((op.code X.base).zoom sitePart AuthFailure.account).Assures (AuthLaw X issued s₀) AuthGrows
      (AuthStep X (.edit op h) t₀) (fun _ _ => True) t :=
  ((assures_account op h).zoom sitePart AuthFailure.account (F := fun _ => True) (fun _ h => h.site)
    (fun _ _ h => h.site) (fun _ _ _ _ => trivial)
    (fun _ _ h _ _ hstep => h.siteStep hstep (fun _ hno => hno) fun _ hno => hno.elim) (fun _ _ h => h.grows)
    trivial).post fun _ _ _ => trivial

/-- a request of the market, from where it begins -/
theorem assures_marketRequest (r : MarketRequest) (ht : AuthLaw X issued s₀ t) :
    ((r.code X.base X.pages X.search).zoom sitePart AuthFailure.account).AssuresFrom (AuthLaw X issued s₀) AuthGrows
      (AuthStep X (.market r) t) (fun a t' => r.Answer X.base X.pages X.search t.site a t'.site) t :=
  (assures_market r ht.site).zoom sitePart AuthFailure.account (fun _ h => h.site) (fun _ _ h => h.site)
    (fun _ _ h _ hstep => h.siteStep hstep (fun _ hno => hno) fun _ hno => hno.elim) (fun _ _ h => h.grows) ht

/-- **What a call keeps**, and what its answer promises. -/
theorem assures_authOp (hone : ∀ id p r p' r', issued id p r → issued id p' r' → p = p') (o : AuthOp)
    (hsends : o.Sends X issued) (ht : AuthLaw X issued s₀ t) :
    (o.code X).AssuresFrom (AuthLaw X issued s₀) AuthGrows (AuthStep X o t) (o.Answer X issued t) t := by
  cases o with
  | sendOtp data reply id =>
    exact ((assures_sendCode hsends).post fun _ _ _ => trivial).start (AuthGrows.refl t) ht
  | verifyOtp request pick => exact (assures_signIn hone request pick).start (AuthGrows.refl t) ht
  | edit op h =>
    exact Code.assuresFrom_bind (AuthGrows.refl t) ht ((assures_edit h).start (AuthGrows.refl t) ht)
      fun _ _ _ => trivial
  | market r => exact Code.assuresFrom_bind (AuthGrows.refl t) ht (assures_marketRequest r ht) fun _ _ h => h

end Law

/-! ## Runs -/

section Runs

variable {X : AuthEnv} {accounts : Table Account} {otp : OtpSite} {evs : List AuthEvent}

/-- `phone_number` is unique -/
def DistinctPhones (accounts : Table Account) : Prop := (accounts.rows.map Account.phoneNumber).Nodup

theorem find_userRows (accounts : Table Account) (id : Pk) :
    (userRows accounts).find id = (accounts.find id).map fun a => ⟨a.id, a.role⟩ := by
  simp only [Table.find, userRows, List.find?_map]
  rfl

theorem siteLaw_opened (E : Env) (hphones : DistinctPhones accounts) (otp : OtpSite) :
    SiteLaw E (AuthSite.opened accounts otp).site where
  market := market_init E _
  phones := by
    intro id id' p p' hp hp' heq
    obtain ⟨a, ha, rfl⟩ := Option.map_eq_some_iff.1 hp
    obtain ⟨a', ha', rfl⟩ := Option.map_eq_some_iff.1 hp'
    have hid : a.id = id := Table.pk_of_find ha
    have hid' : a'.id = id' := Table.pk_of_find ha'
    have hsame : a = a' := List.inj_on_of_nodup_map hphones (Table.mem_of_find ha) (Table.mem_of_find ha') heq
    rw [← hid, ← hid', hsame]
  users := by
    intro id
    change (userRows accounts).find id = (Option.map _ (accounts.find id)).map _
    rw [find_userRows, Option.map_map]
    cases hfind : accounts.find id with
    | none => rfl
    | some a =>
      have hid : a.id = id := Table.pk_of_find hfind
      rw [Option.map_some, Option.map_some, Function.comp_apply, hid]
  employers := by
    intro i j hj
    cases hj
  workers := by
    intro i j u hj
    cases hj

/-- two events that get the same value of the sequence are one -/
theorem sent_apart (h : (evs.filterMap sequenceValue).Nodup) {ev ev' : AuthEvent} (hm : ev ∈ evs) (hm' : ev' ∈ evs)
    (hne : ev ≠ ev') {id : Pk} (hid : sequenceValue ev = some id) : sequenceValue ev' ≠ some id := by
  have hsymm : Std.Symm fun ev ev' : AuthEvent =>
      ∀ k, sequenceValue ev = some k → ∀ k', sequenceValue ev' = some k' → k ≠ k' :=
    ⟨fun _ _ hR k hk k' hk' => (hR k' hk' k hk).symm⟩
  intro hid'
  exact (List.pairwise_filterMap.1 h).forall hm hm' hne id hid id hid' rfl

/-- an id is issued for one phone number -/
theorem issued_once (hseq : SequenceOnce otp evs) (id : Pk) (p r p' r' : String) (h : Issued X otp evs id p r)
    (h' : Issued X otp evs id p' r') : p = p' := by
  obtain ⟨-, hevents, happart⟩ := List.nodup_append.1 hseq
  have hsent : ∀ {c : ℕ} {data : Json} {reply : SendReply}, .start c (.sendOtp data reply id) ∈ evs →
      id ∈ evs.filterMap sequenceValue := fun hm => List.mem_filterMap.2 ⟨_, hm, rfl⟩
  rcases h with ⟨o, ho, hid, rfl, -⟩ | ⟨c, data, hm, hdata⟩
  · rcases h' with ⟨o', ho', hid', rfl, -⟩ | ⟨c', data', hm', hdata'⟩
    · have hfind := Table.find_of_mem ho
      have hfind' := Table.find_of_mem ho'
      rw [pk_otp, hid] at hfind
      rw [pk_otp, hid', hfind] at hfind'
      cases hfind'
      rfl
    · exact absurd rfl (happart id (List.mem_map.2 ⟨o, ho, hid⟩) id (hsent hm'))
  · rcases h' with ⟨o', ho', hid', rfl, -⟩ | ⟨c', data', hm', hdata'⟩
    · exact absurd rfl (happart id (List.mem_map.2 ⟨o', ho', hid'⟩) id (hsent hm))
    · -- both are of one event
      have hone : (.start c (.sendOtp data (.accepted r) id) : AuthEvent) =
          .start c' (.sendOtp data' (.accepted r') id) := by
        by_contra hne
        exact sent_apart hevents hm hm' hne rfl rfl
      cases hone
      exact Option.some.inj (hdata.symm.trans hdata')

/-- what holds of a run -/
theorem auth_run (hphones : DistinctPhones accounts) (hseq : SequenceOnce otp evs) :
    AuthLaw X (Issued X otp evs) (AuthSite.opened accounts otp) (authRun X accounts otp evs).mem ∧
      AssuredTrace (AuthLaw X (Issued X otp evs) (AuthSite.opened accounts otp)) (AuthStep X)
        (fun o => o.Answer X (Issued X otp evs)) (authRun X accounts otp evs).trace ∧
      OrderedTrace AuthGrows (AuthSite.opened accounts otp) (authRun X accounts otp evs).mem
        (authRun X accounts otp evs).trace := by
  have hcode : ∀ (o : AuthOp) s, AuthLaw X (Issued X otp evs) (AuthSite.opened accounts otp) s →
      o.Sends X (Issued X otp evs) → (o.code X).AssuresFrom (AuthLaw X (Issued X otp evs)
        (AuthSite.opened accounts otp)) AuthGrows (AuthStep X o s) (o.Answer X (Issued X otp evs) s) s :=
    fun o s hJ hsends => assures_authOp (issued_once hseq) o hsends hJ
  have hnature : ∀ d t, AuthLaw X (Issued X otp evs) (AuthSite.opened accounts otp) t →
      AuthLaw X (Issued X otp evs) (AuthSite.opened accounts otp) (t.tick d) ∧ AuthGrows t (t.tick d) := by
    intro d t h
    have htick : OtpStep (Issued X otp evs) t.otp (t.otp.tick d) := otpStep_tick d t.otp
    exact ⟨⟨htick.law h.otp, h.site, h.kept, fun id p hp => (h.verified id p hp).imp_right fun hused => by
      obtain ⟨k, hk⟩ := hused
      exact ⟨k, htick.grows.used k p.1 hk⟩⟩, htick.grows, Kept.refl _⟩
  have hstart : AuthLaw X (Issued X otp evs) (AuthSite.opened accounts otp) (AuthSite.opened accounts otp) :=
    ⟨fun o ho => Or.inl ⟨o, ho, rfl, rfl, rfl⟩, siteLaw_opened X.base hphones otp, KeptPeople.refl _,
      fun _ _ hp => Or.inl hp⟩
  have hevs : (Pool.init (AuthSite.opened accounts otp)).Meets (AuthOp.code X) AuthSite.tick
      (Starts fun _ _ o => o.Sends X (Issued X otp evs)) evs := by
    apply meets_starts
    intro c o hm
    cases o with
    | sendOtp data reply id =>
      rintro phoneNumber requestId hdata rfl
      exact Or.inr ⟨c, data, hm, hdata⟩
    | verifyOtp request pick => trivial
    | edit op h => trivial
    | market r => trivial
  have hgrows : ∀ (o : AuthOp) t₀ t t', AuthStep X o t₀ t t' → AuthGrows t t' := fun _ _ _ _ h => h.grows
  obtain ⟨hlaw, htrace⟩ := pool_assures AuthGrows.refl (fun _ _ _ => AuthGrows.trans) hgrows hcode hnature hstart hevs
  exact ⟨hlaw, htrace, pool_ordered AuthGrows.refl (fun _ _ _ => AuthGrows.trans) hgrows hcode hnature hstart hevs⟩

/-- the session that the entry answers with -/
def sessionOf (e : AuthEntry) : Option (Account × Bool × ℤ) :=
  match e.op, e.result with
  | .verifyOtp .., some (.ok (.session user isNew balance)) => some (user, isNew, balance)
  | _, _ => none

theorem sessionOf_some {e : AuthEntry} {user : Account} {isNew : Bool} {balance : ℤ}
    (h : sessionOf e = some (user, isNew, balance)) :
    ∃ request pick, e.op = .verifyOtp request pick ∧ e.result = some (.ok (.session user isNew balance)) := by
  unfold sessionOf at h
  split at h
  · rename_i request pick user' isNew' balance' hop hresult
    cases h
    exact ⟨request, pick, hop, hresult⟩
  · cases h

/-- what is true of every session of a run -/
theorem session_of_run (hphones : DistinctPhones accounts) (hseq : SequenceOnce otp evs) {e : AuthEntry}
    (he : e ∈ (authRun X accounts otp evs).trace) {user : Account} {isNew : Bool} {balance : ℤ}
    (hsession : sessionOf e = some (user, isNew, balance)) :
    ∃ request pick phoneNumber code record now, e.op = .verifyOtp request pick ∧
      VerifyOTPSerializer.validate X.rest request.data = some (phoneNumber, code) ∧
      SessionOf X (Issued X otp evs) phoneNumber code e.origin record now user isNew balance e.after := by
  obtain ⟨request, pick, hop, hresult⟩ := sessionOf_some hsession
  have hanswer := ((auth_run (X := X) hphones hseq).2.1 e he).2.2 _ hresult
  rw [hop] at hanswer
  obtain ⟨phoneNumber, code, record, now, hbody, hof⟩ := hanswer
  exact ⟨request, pick, phoneNumber, code, record, now, hop, hbody, hof⟩

end Runs

/-! ## Sessions -/

/-- **A session needs a code.** In any interleaving of requests, a session is for the phone number of the request, and
the gateway has accepted the request's code for a record of this number: one that was there before, or that a sending
call for this number has got from the gateway. The record was at most 300 seconds old at some moment of the call, and
is used when it ends; a user who is not new was active and not blocked when the call loaded the row. -/
theorem sign_in_needs_code (X : AuthEnv) (accounts : Table Account) (hphones : DistinctPhones accounts) (otp : OtpSite)
    (evs : List AuthEvent) (hseq : SequenceOnce otp evs) {e : AuthEntry} (he : e ∈ (authRun X accounts otp evs).trace)
    {user : Account} {isNew : Bool} {balance : ℤ} (hsession : sessionOf e = some (user, isNew, balance)) :
    ∃ request pick code, e.op = .verifyOtp request pick ∧
      VerifyOTPSerializer.validate X.rest request.data = some (user.phoneNumber, code) ∧
      (isNew = false → user.isActive = true ∧ user.isBlocked = false) ∧
      ∃ (record : TelegramOTP) (now : ℕ), record.phoneNumber = user.phoneNumber ∧
        Issued X otp evs record.id user.phoneNumber record.requestId ∧
        X.gateway.check record.requestId code = .status (some "code_valid") ∧
        .check record.requestId code ∈ e.after.otp.gateway ∧
        e.origin.otp.clock ≤ now ∧ now ≤ e.after.otp.clock ∧ now ≤ record.createdAt + seconds 300 ∧
        UsedFor e.after.otp record.id user.phoneNumber := by
  obtain ⟨request, pick, phoneNumber, code, record, now, hop, hbody, hof⟩ :=
    session_of_run hphones hseq he hsession
  have hphone : user.phoneNumber = phoneNumber := hof.signedIn.phone
  have hchecked := hof.checked
  rw [← hphone] at hbody hchecked
  exact ⟨request, pick, code, hop, hbody, hof.signedIn.known, record, now, hchecked.phone, hchecked.issued,
    hchecked.valid, hchecked.asked, hchecked.began, hchecked.past, hchecked.timely, hchecked.used⟩

def demoSearch : SearchEnv := ⟨fun _ => "cleaning", roundMath, 50⟩

def demoAuth : AuthEnv := ⟨demoEnv, demoGateway, demoRest, twentyAPage, demoSearch⟩

/-- no password was ever sent -/
def demoUnsent : OtpSite := ⟨Table.empty, fun _ => none, [], 0⟩

def demoCodeBody : Json := .obj [("phone_number", .str "+998901112233"), ("code", .str "123456")]

/-- a code is sent to a new phone number, and used by two requests that go on in turn -/
def demoSignIns : List AuthEvent :=
  .start 0 (.sendOtp demoCodeBody (.accepted "req-1") 1) :: List.replicate 6 (.step 0) ++
    .nature (seconds 60) :: .start 0 (.verifyOtp ⟨demoCodeBody, 3, 100⟩ 0) ::
      .start 1 (.verifyOtp ⟨demoCodeBody, 4, 101⟩ 0) :: (List.replicate 8 [.step 0, .step 1]).flatten

/-- the new user, as both sessions show it -/
def demoJoined (now : Time) : Account := { newAccount 3 "+998901112233" "worker" 100 with lastSeen := some now }

theorem sign_in_needs_code_demo :
    ∃ e ∈ (authRun demoAuth demoAccounts demoUnsent demoSignIns).trace,
      sessionOf e = some (demoJoined 101, false, 0) ∧
      ∃ (record : TelegramOTP) (now : ℕ), record.phoneNumber = "+998901112233" ∧ now ≤ record.createdAt + seconds 300 ∧
        UsedFor e.after.otp record.id "+998901112233" := by
  have hsession : ((authRun demoAuth demoAccounts demoUnsent demoSignIns).trace.any fun e =>
      sessionOf e = some (demoJoined 101, false, 0)) = true := by decide +kernel
  obtain ⟨e, he, hof⟩ := List.any_eq_true.1 hsession
  obtain ⟨request, pick, code, hop, hbody, hknown, record, now, hphone, hissued, hvalid, hasked, hbegan, hpast, htimely,
    hused⟩ := sign_in_needs_code demoAuth demoAccounts (by unfold DistinctPhones; decide) demoUnsent demoSignIns
      (by unfold SequenceOnce; decide) he (of_decide_eq_true hof)
  exact ⟨e, he, of_decide_eq_true hof, record, now, hphone, htimely, hused⟩

/-- **Everyone who has joined has had a code accepted.** After any requests every user is one of those who were there,
with the same phone number and role, or a record of the user's phone number is used that was issued for it; and those
who were there are there still. -/
theorem joined_by_code (X : AuthEnv) (accounts : Table Account) (hphones : DistinctPhones accounts) (otp : OtpSite)
    (evs : List AuthEvent) (hseq : SequenceOnce otp evs) :
    (∀ a ∈ (authRun X accounts otp evs).mem.site.accounts.rows,
      (∃ a₀ ∈ accounts.rows, a₀.id = a.id ∧ a₀.phoneNumber = a.phoneNumber ∧ a₀.role = a.role) ∨
        ∃ record ∈ (authRun X accounts otp evs).mem.otp.otps.rows, record.isUsed = true ∧
          record.phoneNumber = a.phoneNumber ∧ Issued X otp evs record.id a.phoneNumber record.requestId) ∧
      ∀ a₀ ∈ accounts.rows, ∃ a ∈ (authRun X accounts otp evs).mem.site.accounts.rows,
        a.id = a₀.id ∧ a.phoneNumber = a₀.phoneNumber ∧ a.role = a₀.role := by
  obtain ⟨hlaw, -, -⟩ := auth_run (X := X) hphones hseq
  have hrow : ∀ {s : Site} {id : Pk} {p : String × String}, s.identity id = some p →
      ∃ a ∈ s.accounts.rows, a.id = id ∧ a.phoneNumber = p.1 ∧ a.role = p.2 := by
    intro s id p hp
    obtain ⟨a, hfind, rfl⟩ := Option.map_eq_some_iff.1 hp
    exact ⟨a, Table.mem_of_find hfind, Table.pk_of_find hfind, rfl, rfl⟩
  constructor
  · intro a ha
    rcases hlaw.verified a.id _ (identity_of_find (Table.find_of_mem ha)) with hold | ⟨k, record, hfind, hused, hphone⟩
    · exact Or.inl (hrow hold)
    · right
      have hmem := Table.mem_of_find hfind
      have hissued := hlaw.otp record hmem
      rw [hphone] at hissued
      exact ⟨record, hmem, hused, hphone, hissued⟩
  · intro a₀ ha₀
    exact hrow (hlaw.kept a₀.id _ (identity_of_find (Table.find_of_mem ha₀)))

theorem joined_by_code_demo :
    ∃ record ∈ (authRun demoAuth demoAccounts demoUnsent demoSignIns).mem.otp.otps.rows, record.isUsed = true ∧
      record.phoneNumber = "+998901112233" := by
  have h := (joined_by_code demoAuth demoAccounts (by unfold DistinctPhones; decide) demoUnsent demoSignIns
    (by unfold SequenceOnce; decide)).1 (demoJoined 101) (by decide +kernel)
  rcases h with ⟨a₀, ha₀, hid, -, -⟩ | ⟨record, hmem, hused, hphone, -⟩
  · have hnone : ∀ a ∈ demoAccounts.rows, a.id ≠ (demoJoined 101).id := by decide
    exact absurd hid (hnone a₀ ha₀)
  · exact ⟨record, hmem, hused, hphone⟩

/-- **One user for a phone number.** After any requests, also if several sign in with one new phone number at the same
time: no two users have a phone number in common, the money code sees every user with the role of the row, every user
has a wallet and every wallet a user; and two sessions are of one user exactly if they are for one phone number. -/
theorem one_account_per_phone (X : AuthEnv) (accounts : Table Account) (hphones : DistinctPhones accounts)
    (otp : OtpSite) (evs : List AuthEvent) (hseq : SequenceOnce otp evs) :
    DistinctPhones (authRun X accounts otp evs).mem.site.accounts ∧
      (∀ id, (authRun X accounts otp evs).mem.site.db.users.find id =
        ((authRun X accounts otp evs).mem.site.accounts.find id).map fun a => ⟨id, a.role⟩) ∧
      (∀ id, ((authRun X accounts otp evs).mem.site.db.wallets.find id).isSome =
        ((authRun X accounts otp evs).mem.site.accounts.find id).isSome) ∧
      ∀ e ∈ (authRun X accounts otp evs).trace, ∀ e' ∈ (authRun X accounts otp evs).trace, ∀ user user' isNew isNew'
        balance balance', sessionOf e = some (user, isNew, balance) → sessionOf e' = some (user', isNew', balance') →
          (user.id = user'.id ↔ user.phoneNumber = user'.phoneNumber) := by
  obtain ⟨hlaw, -, hordered⟩ := auth_run (X := X) hphones hseq
  have husers : ∀ id, (authRun X accounts otp evs).mem.site.db.users.find id =
      ((authRun X accounts otp evs).mem.site.accounts.find id).map fun a => ⟨id, a.role⟩ := by
    intro id
    rw [hlaw.site.users id, Site.identity, Option.map_map]
    rfl
  refine ⟨?_, husers, ?_, ?_⟩
  · refine List.Nodup.map_on ?_ (List.Nodup.of_map _ (authRun X accounts otp evs).mem.site.accounts.nodup)
    intro a ha b hb heq
    have hid : a.id = b.id := hlaw.site.phones a.id b.id _ _ (identity_of_find (Table.find_of_mem ha))
      (identity_of_find (Table.find_of_mem hb)) heq
    have hfind := Table.find_of_mem ha
    rw [pk_account, hid, ← pk_account, Table.find_of_mem hb] at hfind
    exact (Option.some.inj hfind).symm
  · intro id
    rw [hlaw.site.market.inv.linked.wallets, husers, Option.isSome_map]
  · intro e he e' he' user user' isNew isNew' balance balance' hsession hsession'
    -- who a session's user is does not change until the end
    have hlast : ∀ {e : AuthEntry} {user : Account} {isNew : Bool} {balance : ℤ},
        e ∈ (authRun X accounts otp evs).trace → sessionOf e = some (user, isNew, balance) →
          (authRun X accounts otp evs).mem.site.identity user.id = some (user.phoneNumber, user.role) := by
      intro e user isNew balance he hsession
      obtain ⟨_, _, phoneNumber, _, _, _, -, -, hof⟩ := session_of_run hphones hseq he hsession
      have huser := (hordered.now e he).site.people _ _ hof.signedIn.user
      have hphone : user.phoneNumber = phoneNumber := hof.signedIn.phone
      rw [← hphone] at huser
      exact huser
    have huser := hlast he hsession
    have huser' := hlast he' hsession'
    constructor
    · intro hid
      rw [hid, huser'] at huser
      exact congrArg Prod.fst (Option.some.inj huser).symm
    · exact hlaw.site.phones _ _ _ _ huser huser'

/-- two sign-ins with one new phone number, the first of which creates the user -/
theorem one_account_per_phone_demo :
    DistinctPhones (authRun demoAuth demoAccounts demoUnsent demoSignIns).mem.site.accounts ∧
      ∃ e ∈ (authRun demoAuth demoAccounts demoUnsent demoSignIns).trace,
        ∃ e' ∈ (authRun demoAuth demoAccounts demoUnsent demoSignIns).trace,
          sessionOf e = some (demoJoined 100, true, 0) ∧ sessionOf e' = some (demoJoined 101, false, 0) ∧
            (demoJoined 100).id = (demoJoined 101).id := by
  obtain ⟨hphones, -, -, hsame⟩ := one_account_per_phone demoAuth demoAccounts (by unfold DistinctPhones; decide)
    demoUnsent demoSignIns (by unfold SequenceOnce; decide)
  have hfirst : ((authRun demoAuth demoAccounts demoUnsent demoSignIns).trace.any fun e =>
      sessionOf e = some (demoJoined 100, true, 0)) = true := by decide +kernel
  have hsecond : ((authRun demoAuth demoAccounts demoUnsent demoSignIns).trace.any fun e =>
      sessionOf e = some (demoJoined 101, false, 0)) = true := by decide +kernel
  obtain ⟨e, he, hof⟩ := List.any_eq_true.1 hfirst
  obtain ⟨e', he', hof'⟩ := List.any_eq_true.1 hsecond
  have hsession := of_decide_eq_true hof
  have hsession' := of_decide_eq_true hof'
  exact ⟨hphones, e, he, e', he', hsession, hsession', (hsame e he e' he' _ _ _ _ _ _ hsession hsession').2 rfl⟩

/-- **The books are in order**, whoever joins. After any requests: what all wallets hold with the commission taken is
what was deposited; every user's wallet holds the user's figures, of the jobs and the payment requests; every job has
the rows of the ledger that its status calls for; and the balance that the session of a known user shows, and the wallet
that WalletView answers with, are the user's at that moment. The session of a new user shows the wallet as it was
created, which is empty. -/
theorem books_in_order (X : AuthEnv) (accounts : Table Account) (hphones : DistinctPhones accounts)
    (otp : OtpSite) (evs : List AuthEvent) (hseq : SequenceOnce otp evs) {db : DB}
    (hdb : db = (authRun X accounts otp evs).mem.site.db) :
    db.wallets.sum (fun w => w.balance + w.heldBalance) + ledgerSum db .commission = ledgerSum db .deposit ∧
      ledgerSum db .deposit = completedDeposits db ∧
      (∀ a ∈ (authRun X accounts otp evs).mem.site.accounts.rows,
        db.wallets.find a.id = some (walletOf X.base db a.id)) ∧
      (∀ j ∈ db.jobs.rows, Accounted j (jobRows db j.id)) ∧
      ∀ e ∈ (authRun X accounts otp evs).trace,
        (∀ user isNew balance, sessionOf e = some (user, isNew, balance) →
          balance = if isNew then 0 else (walletOf X.base e.after.site.db user.id).balance) ∧
        ∀ user w, e.op = .market (.wallet user) → e.result = some (.ok (.market (.wallet w))) →
          w = walletOf X.base e.after.site.db user := by
  obtain ⟨hlaw, htrace, -⟩ := auth_run (X := X) hphones hseq
  subst hdb
  refine ⟨hlaw.site.market.conservation.1, hlaw.site.market.conservation.2, ?_, hlaw.site.market.jobs.accounted, ?_⟩
  · intro a ha
    exact hlaw.site.wallet_eq ⟨_, identity_of_find (Table.find_of_mem ha)⟩
  · intro e he
    refine ⟨fun user isNew balance hsession => ?_, fun user w hop hresult => ?_⟩
    · obtain ⟨_, _, phoneNumber, _, _, _, -, -, hof⟩ := session_of_run hphones hseq he hsession
      rw [hof.shown, (htrace e he).1.2.site.wallet_eq ⟨_, hof.signedIn.user⟩]
      rfl
    · have hanswer := (htrace e he).2.2 _ hresult
      rw [hop] at hanswer
      have hfind : e.after.site.db.wallets.find user = some w := hanswer
      exact (htrace e he).1.2.site.market.inv.wallet hfind

def served (r : MarketRequest) : List AuthEvent := [.start 0 (.market r), .step 0]

/-- money is deposited and a job posted; a worker joins, accepts the job and is paid -/
def demoDay : List AuthEvent :=
  [MarketRequest.deposit ⟨1, .obj [("amount", .int 500000), ("provider", .str "click")], 1, ""⟩,
    .callback (.click (.obj demoCallback)), .job ⟨1, .create 1 (some demoJob), 0, rfl⟩].flatMap served ++ demoSignIns ++
    [MarketRequest.job ⟨3, .accept "1", 200, rfl⟩, .job ⟨3, .start "1", 201, rfl⟩, .job ⟨1, .complete "1", 202, rfl⟩,
      .wallet 3].flatMap served

/-- the new worker's wallet in the end, and what the session of the second sign-in shows of it -/
theorem books_in_order_demo :
    (authRun demoAuth demoAccounts demoUnsent demoDay).mem.site.db.wallets.find 3 = some ⟨3, 90005, 0, 90005, 0⟩ ∧
      ∃ e ∈ (authRun demoAuth demoAccounts demoUnsent demoDay).trace, sessionOf e = some (demoJoined 101, false, 0) ∧
        0 = (walletOf demoEnv e.after.site.db 3).balance := by
  obtain ⟨-, -, hwallets, -, hshown⟩ := books_in_order demoAuth demoAccounts (by unfold DistinctPhones; decide)
    demoUnsent demoDay (by unfold SequenceOnce; decide) rfl
  have hsession : ((authRun demoAuth demoAccounts demoUnsent demoDay).trace.any fun e =>
      sessionOf e = some (demoJoined 101, false, 0)) = true := by decide +kernel
  obtain ⟨e, he, hof⟩ := List.any_eq_true.1 hsession
  refine ⟨(hwallets (demoJoined 101) (by decide +kernel)).trans (by decide +kernel), e, he, of_decide_eq_true hof, ?_⟩
  exact (hshown e he).1 _ _ _ (of_decide_eq_true hof)

end GigMarketplace
