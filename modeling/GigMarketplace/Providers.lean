/-
The two webhooks together with the operations: who confirms a deposit, and what a redelivered callback does.

`Act` is a service call or a callback posted to one of the views, with any payload. A callback either hands an id to
`confirm_deposit` (`Callback.Confirms`: it verified, asks to confirm and names an id), or its answer is the same
whatever the database holds and it changes nothing (`post_const`).

Results:
- `confirmed_by_callback`: over whole runs, a request becomes COMPLETED only through a verified callback that names it,
  and a verified callback that names a PENDING request completes it. The provider the request was created for is kept
  on the row and compared by neither view: Click's webhook completes a Payme deposit (`click_confirms_payme`);
- `redelivery`: a callback that was answered with success changes nothing when it comes again, however much later.
  If it had confirmed a deposit it is refused then, with the message of confirm_deposit's guard
  (`redelivery_refused`); otherwise it gets the same answer again.
-/
import GigMarketplace.Webhooks

namespace GigMarketplace

open GigMarketplace.Core

/-! ## Callbacks -/

/-- a request posted to PaymeWebhookView or ClickWebhookView -/
inductive Callback where
  | payme (data : Json) (authHeader : String)
  | click (data : Json)

namespace Callback

/-- the view's answer, and the database after it -/
def post (E : Env) (db : DB) : Callback → Response × DB
  | payme data authHeader => PaymeWebhookView.post E data authHeader db
  | click data => ClickWebhookView.post E data db

/-- the provider whose view it was posted to -/
def provider : Callback → String
  | payme .. => "payme"
  | click .. => "click"

/-- it passed the signature check of that view -/
def Verified (E : Env) : Callback → Prop
  | payme _ authHeader => ∃ p, E.payme = some p ∧ p.verifyWebhook E.py authHeader = true
  | click data => ∃ p fields, E.click = some p ∧ data = .obj fields ∧ clickVerified E p fields

/-- PerformTransaction, action 1 -/
def AsksToConfirm : Callback → Prop
  | payme data _ => ∃ fields, data = .obj fields ∧ getField fields "method" = some (.str "PerformTransaction")
  | click data => ∃ fields, data = .obj fields ∧ clickAction fields = .int 1

def Success : Callback → Response → Prop
  | payme .., r => r.paymeDone
  | click .., r => r.clickDone

/-- the answer when confirm_deposit raised `e` -/
def refused (E : Env) (e : Exc) : Callback → Response
  | payme (.obj fields) _ =>
    .json (.obj [("id", (getField fields "id").getD (.int 0)),
      ("error", .obj [("code", .int (-31008)), ("message", .str (e.str E.py))])])
  | payme _ _ => .raised .attributeError
  | click _ => clickReply (-9) (e.str E.py)

/-- the view calls confirm_deposit with the id `v` -/
inductive Confirms (E : Env) : Callback → Json → Prop where
  | payme {p : PaymeProvider} {fields : List (String × Json)} {authHeader : String} {v : Json} (hp : E.payme = some p)
      (hverified : p.verifyWebhook E.py authHeader = true)
      (hmethod : ((getField fields "method").getD (.str "")).eqStr "PerformTransaction" = true)
      (hid : paymeOrderId (paymeParams fields) = .ok v) (ht : v.truthy = true) :
      Confirms E (.payme (.obj fields) authHeader) v
  | click {p : ClickProvider} {fields : List (String × Json)} (hp : E.click = some p)
      (hverified : clickVerified E p fields) (haction : (clickAction fields).eqInt 1 = true)
      (ht : (clickOrderId fields).truthy = true) :
      Confirms E (.click (.obj fields)) (clickOrderId fields)

end Callback

section Views

variable {E : Env} {db : DB} {cb : Callback} {v : Json}

theorem Callback.Confirms.verified (h : cb.Confirms E v) : cb.Verified E := by
  cases h with
  | payme hp hverified hmethod hid ht => exact ⟨_, hp, hverified⟩
  | click hp hverified haction ht => exact ⟨_, _, hp, rfl, hverified⟩

theorem refused_not_success (E : Env) (e : Exc) (cb : Callback) : ¬ cb.Success (cb.refused E e) := by
  intro h
  cases cb with
  | payme data authHeader =>
    obtain ⟨result, hresult, -⟩ := h
    cases data with
    | obj fields => simp [Callback.refused, Response.field, getField, List.lookup_cons] at hresult
    | _ => simp [Callback.refused, Response.field] at hresult
  | click data =>
    simp [Callback.Success, Callback.refused, clickReply, Response.clickDone, Response.field, getField,
      List.lookup_cons] at h

/-- **A confirming callback**: what confirm_deposit does decides the answer; the success answer itself is fixed. -/
theorem Callback.Confirms.post_eq (h : cb.Confirms E v) : ∃ ok, cb.Success ok ∧ ∀ db,
    cb.post E db = match attempt (DepositService.confirmDeposit E v "") db with
      | (.error e, db') => (cb.refused E e, db')
      | (.ok _, db') => (ok, db') := by
  cases h with
  | @payme p fields authHeader v hp hverified hmethod hid ht =>
    obtain ⟨id, hperf⟩ := paymePerformed_of_orderId hid
    refine ⟨.json (.obj [("id", (getField fields "id").getD (.int 0)),
      ("result", .obj [("transaction", id), ("perform_time", .int 0), ("state", .int 2)])]), ?_, fun db => ?_⟩
    · exact ⟨[("transaction", id), ("perform_time", .int 0), ("state", .int 2)],
        by simp [Response.field, getField], by simp [getField]⟩
    · have hparams : (getField fields "params").getD (.obj []) = paymeParams fields := rfl
      simp only [Callback.post, PaymeWebhookView.post, hp, hverified, if_true, PaymeWebhookView.handlePaymeMethod,
        hmethod, hparams, hid, ht, hperf]
      rcases attempt (DepositService.confirmDeposit E v "") db with ⟨res, db'⟩
      cases res <;> rfl
  | @click p fields hp hverified haction ht =>
    refine ⟨clickReply 0 "Success", click_success, fun db => ?_⟩
    rw [Callback.post, click_post_eq hp hverified, if_pos ⟨haction, ht⟩]
    rfl

/-- **Any other callback** changes nothing, and the answer does not depend on the database. -/
theorem post_const (h : ¬ ∃ v, cb.Confirms E v) : ∃ r, ∀ db, cb.post E db = (r, db) := by
  cases cb with
  | payme data authHeader =>
    cases hp : E.payme with
    | none => exact ⟨.raised .attributeError, fun db => by simp only [Callback.post, PaymeWebhookView.post, hp]⟩
    | some p =>
      cases hverified : p.verifyWebhook E.py authHeader with
      | false => exact ⟨.json paymeDenied, fun db => by simp [Callback.post, PaymeWebhookView.post, hp, hverified]⟩
      | true =>
        cases data with
        | obj fields =>
          have hparams : (getField fields "params").getD (.obj []) = paymeParams fields := rfl
          simp only [Callback.post, PaymeWebhookView.post, hp, hverified, if_true, PaymeWebhookView.handlePaymeMethod,
            hparams]
          cases hmethod : ((getField fields "method").getD (.str "")).eqStr "PerformTransaction" with
          | false => exact ⟨_, fun db => by simp only [Bool.false_eq_true, if_false]; rfl⟩
          | true =>
            simp only [if_true]
            cases hid : paymeOrderId (paymeParams fields) with
            | error e => exact ⟨_, fun db => rfl⟩
            | ok v =>
              have ht : ¬ v.truthy = true := fun ht => h ⟨v, .payme hp hverified hmethod hid ht⟩
              obtain ⟨id, hperf⟩ := paymePerformed_of_orderId hid
              exact ⟨_, fun db => by simp only [ht, Bool.false_eq_true, if_false, hperf]; rfl⟩
        | _ => exact ⟨.raised .attributeError, fun db => by simp [Callback.post, PaymeWebhookView.post, hp, hverified]⟩
  | click data =>
    cases hp : E.click with
    | none => exact ⟨.raised .attributeError, fun db => by simp only [Callback.post, ClickWebhookView.post, hp]⟩
    | some p =>
      cases data with
      | obj fields =>
        by_cases hverified : clickVerified E p fields
        · refine ⟨clickReply 0 "Success", fun db => ?_⟩
          rw [Callback.post, click_post_eq hp hverified]
          refine if_neg fun hc => h ⟨_, .click hp hverified hc.1 hc.2⟩
        · have hno : p.verifyWebhook E.py fields ((getField fields "sign_string").getD (.str "")) = false := by
            simpa [clickVerified] using hverified
          exact ⟨clickReply (-1) "Invalid signature", fun db => by
            simp [Callback.post, ClickWebhookView.post, hp, hno]⟩
      | _ => exact ⟨.raised .attributeError, fun db => by simp only [Callback.post, ClickWebhookView.post, hp]⟩

/-- what a callback does to the database is nothing, or a step of confirm_deposit -/
theorem post_cases (E : Env) (db : DB) (cb : Callback) : (cb.post E db).2 = db ∨
    ∃ v, cb.Confirms E v ∧ Step E db (.confirmDeposit v "") (cb.post E db).2 := by
  by_cases h : ∃ v, cb.Confirms E v
  · obtain ⟨v, hv⟩ := h
    obtain ⟨ok, -, hpost⟩ := hv.post_eq
    rw [hpost]
    rcases attempt_confirm E v db with ⟨r, w, t, hc, ha⟩ | ⟨-, e, ha⟩
    · right
      rw [ha]
      exact ⟨v, hv, .confirmDeposit hc.id hc.row hc.pending hc.wallet hc.limits hc.cols⟩
    · left
      rw [ha]
  · left
    obtain ⟨r, hr⟩ := post_const h
    rw [hr]

end Views

/-! ## Calls and callbacks -/

inductive Act where
  /-- a call of JobService or DepositService -/
  | call (op : Op)
  | webhook (cb : Callback)

def actStep (E : Env) (db : DB) : Act → DB
  | .call op => step E db op
  | .webhook cb => (cb.post E db).2

def actRun (E : Env) (db : DB) (acts : List Act) : DB := acts.foldl (actStep E) db

section Acts

variable {E : Env} {db db' : DB} {users : Table User} {acts : List Act} {act : Act} {i : Pk} {r : PaymentRequest}

theorem actRun_snoc (E : Env) (db : DB) (acts : List Act) (act : Act) :
    actRun E db (acts ++ [act]) = actStep E (actRun E db acts) act := by
  simp [actRun, List.foldl_append]

theorem actStep_cases (E : Env) (db : DB) (act : Act) : actStep E db act = db ∨
    (∃ op, act = .call op ∧ Step E db op (actStep E db act)) ∨
    ∃ cb v, act = .webhook cb ∧ cb.Confirms E v ∧ Step E db (.confirmDeposit v "") (actStep E db act) := by
  cases act with
  | call op =>
    rcases step_cases E db op with h | h
    · exact Or.inr (Or.inl ⟨op, rfl, h⟩)
    · exact Or.inl h
  | webhook cb =>
    rcases post_cases E db cb with h | ⟨v, hv, h⟩
    · exact Or.inl h
    · exact Or.inr (Or.inr ⟨cb, v, rfl, hv, h⟩)

/-- **The invariant rule** for calls and callbacks. -/
theorem act_inv {P : DB → Prop} (hs : ∀ db op db', P db → Step E db op db' → P db') (h : P db) (acts : List Act) :
    P (actRun E db acts) := by
  induction acts generalizing db with
  | nil => exact h
  | cons act acts ih =>
    refine ih ?_
    rcases actStep_cases E db act with hsame | ⟨op, -, hstep⟩ | ⟨cb, v, -, -, hstep⟩
    · rw [hsame]; exact h
    · exact hs db op _ h hstep
    · exact hs db _ _ h hstep

/-- a COMPLETED request stays as it is -/
theorem act_completed (h : db.requests.find i = some r) (hc : r.status = .completed) (acts : List Act) :
    (actRun E db acts).requests.find i = some r := by
  refine act_inv (P := fun d => d.requests.find i = some r) (fun d op d' hd hs => ?_) h acts
  obtain ⟨r', hr', hkept⟩ := hs.request_kept hd
  rcases hkept with rfl | ⟨hp, -⟩
  · exact hr'
  · rw [hc] at hp; cases hp

/-- where a COMPLETED request comes from -/
theorem Step.completed_from {op : Op} (hs : Step E db op db') (hr : db'.requests.find i = some r)
    (hc : r.status = .completed) : db.requests.find i = some r ∨
    ∃ v externalId, op = .confirmDeposit v externalId ∧ lookupId E.py v = .ok (some i) ∧
      db.requests.find i = some { r with status := .pending } := by
  cases hs with
  | @initiateDeposit id user amount providerName uuidHex p hlimits hw hcols hfresh hp =>
    left
    have hnew := Table.find_insert (t := db.requests) (r := newRequest E id user.id amount providerName uuidHex p) i
    rw [hnew] at hr
    split_ifs at hr with hi
    · rw [← show id = i from hi, hfresh, Option.getD_none] at hr
      cases hr
      cases hc
    · exact hr
  | @confirmDeposit v externalId q w hid hq hstatus hw hlimits hcols =>
    by_cases hi : q.id = i
    · right
      subst hi
      rw [Table.find_update_self hq rfl] at hr
      cases hr
      refine ⟨v, externalId, rfl, hid, ?_⟩
      rw [hq, ← hstatus]
    · left
      rw [Table.find_update_ne hi] at hr
      exact hr
  | _ => exact Or.inl hr

end Acts

/-! ## Who confirms a deposit -/

section Confirmed

variable {E : Env} {users : Table User} {acts : List Act} {i : Pk} {r : PaymentRequest}

/-- the callback `cb` of the run made the request `r` COMPLETED -/
structure ConfirmedBy (E : Env) (users : Table User) (acts : List Act) (i : Pk) (r : PaymentRequest) (cb : Callback) :
    Prop where
  verified : cb.Verified E
  named : ∃ v, cb.Confirms E v ∧ lookupId E.py v = .ok (some i)
  moment : ∃ acts₁ acts₂, acts = acts₁ ++ .webhook cb :: acts₂ ∧
    (actRun E (init users) acts₁).requests.find i = some { r with status := .pending } ∧
    (actRun E (init users) (acts₁ ++ [.webhook cb])).requests.find i = some r

theorem ConfirmedBy.snoc {cb : Callback} (h : ConfirmedBy E users acts i r cb) (act : Act) :
    ConfirmedBy E users (acts ++ [act]) i r cb where
  verified := h.verified
  named := h.named
  moment := by
    obtain ⟨acts₁, acts₂, hacts, h1, h2⟩ := h.moment
    exact ⟨acts₁, acts₂ ++ [act], by rw [hacts]; simp, h1, h2⟩

theorem completed_confirmedBy (hacts : ∀ v externalId, .call (.confirmDeposit v externalId) ∉ acts)
    (hr : (actRun E (init users) acts).requests.find i = some r) (hc : r.status = .completed) :
    ∃ cb, ConfirmedBy E users acts i r cb := by
  induction acts using List.reverseRecOn with
  | nil => simp [actRun, init] at hr
  | append_singleton acts act ih =>
    have hold : (actRun E (init users) acts).requests.find i = some r →
        ∃ cb, ConfirmedBy E users (acts ++ [act]) i r cb := by
      intro h
      obtain ⟨cb, hcb⟩ := ih (fun v x hm => hacts v x (List.mem_append_left _ hm)) h
      exact ⟨cb, hcb.snoc act⟩
    have hafter := hr
    rw [actRun_snoc] at hr
    rcases actStep_cases E (actRun E (init users) acts) act with h | ⟨op, hop, hs⟩ | ⟨cb, v, hcb, hv, hs⟩
    · rw [h] at hr
      exact hold hr
    · rcases hs.completed_from hr hc with h | ⟨v, externalId, hconfirm, -, -⟩
      · exact hold h
      · -- the service calls of the run are not of this kind
        rw [hop, hconfirm] at hacts
        exact absurd (List.mem_append_right _ (List.mem_singleton_self _)) (hacts v externalId)
    · rcases hs.completed_from hr hc with h | ⟨v', externalId, hconfirm, hid, hpending⟩
      · exact hold h
      · cases hconfirm
        subst hcb
        exact ⟨cb, hv.verified, ⟨v, hv, hid⟩, acts, [], rfl, hpending, hafter⟩

end Confirmed

/-- **Who confirms a deposit.** In every run of service calls (confirm_deposit is called by the webhooks alone) and
callbacks with any payload, a request is COMPLETED only through a callback that passed the signature check of the view
it was posted to and names the request; and such a callback completes the PENDING request it names, whatever provider
the request was created for. -/
theorem confirmed_by_callback (E : Env) (users : Table User) (acts : List Act)
    (hacts : ∀ v externalId, .call (.confirmDeposit v externalId) ∉ acts) :
    (∀ i r, (actRun E (init users) acts).requests.find i = some r → r.status = .completed →
      ∃ cb, ConfirmedBy E users acts i r cb) ∧
    ∀ cb v r w, cb.Confirms E v → Confirmable E (actRun E (init users) acts) v r w →
      (actRun E (init users) (acts ++ [.webhook cb])).requests.find r.id = some { r with status := .completed } := by
  refine ⟨fun i r hr hc => completed_confirmedBy hacts hr hc, fun cb v r w hv hconf => ?_⟩
  rw [actRun_snoc]
  obtain ⟨ok, -, hpost⟩ := hv.post_eq
  rw [actStep, hpost]
  rcases attempt_confirm E v (actRun E (init users) acts) with ⟨r', w', t, hconf', ha⟩ | ⟨hno, -⟩
  · rw [ha, ← hconf.unique hconf']
    exact Table.find_update_self hconf'.row rfl
  · exact absurd ⟨r, w, hconf⟩ hno

/-- a deposit through Payme is requested, and a callback is posted to the Click webhook -/
def demoCrossed : List Act :=
  [.call (.initiateDeposit 1 demoEmployer 500000 "payme" ""), .webhook (.click (.obj demoCallback))]

theorem demoCallback_verified : clickVerified demoEnv demoClick demoCallback := by
  unfold clickVerified
  decide +kernel

theorem demoCallback_confirms : Callback.Confirms demoEnv (.click (.obj demoCallback)) (.str "1") :=
  .click (p := demoClick) rfl demoCallback_verified (by decide) (by decide)

theorem confirmed_by_callback_demo :
    ∃ cb, ConfirmedBy demoEnv demoUsers demoCrossed 1
      ⟨1, 1, "payme", 500000, .completed, "1",
        "https://test.paycom.uz/merchant?amount=500000&order_id=1&description=Deposit to GIG Marketplace wallet"⟩ cb :=
  (confirmed_by_callback demoEnv demoUsers demoCrossed (by simp [demoCrossed])).1 1 _ (by decide +kernel) rfl

/-- Payme's deposit is COMPLETED, and the one callback of the run went to the Click webhook. -/
theorem click_confirms_payme :
    ¬ ∀ r ∈ (actRun demoEnv (init demoUsers) demoCrossed).requests.rows, r.status = .completed →
      ∃ cb, .webhook cb ∈ demoCrossed ∧ cb.provider = r.provider ∧ cb.Verified demoEnv := by
  intro h
  have hr : (⟨1, 1, "payme", 500000, .completed, "1",
      "https://test.paycom.uz/merchant?amount=500000&order_id=1&description=Deposit to GIG Marketplace wallet"⟩ :
      PaymentRequest) ∈ (actRun demoEnv (init demoUsers) demoCrossed).requests.rows := by decide +kernel
  obtain ⟨cb, hmem, hprovider, -⟩ := h _ hr rfl
  have hcb : cb = .click (.obj demoCallback) := by simpa [demoCrossed] using hmem
  rw [hcb] at hprovider
  exact absurd hprovider (by decide)

/-! ## The same callback again -/

/-- confirm_deposit for a request that is COMPLETED -/
theorem attempt_completed {E : Env} {db : DB} {v : Json} {i : Pk} {r : PaymentRequest}
    (hid : lookupId E.py v = .ok (some i)) (hr : db.requests.find i = some r) (hc : r.status = .completed) :
    attempt (DepositService.confirmDeposit E v "") db = (.error notPending, db) := by
  have hfilter : (decide (r.status = .pending)) = false := by simp [hc]
  have hexec : exec store (DepositService.confirmDeposit E v "") db = .error notPending := by
    simp [DepositService.confirmDeposit, hid, PaymentRequest.getPending, exec_bind, Prog.selectForUpdate, hr, hfilter,
      Except.bind]
  simp only [attempt, hexec]

/-- **Redelivery.** If a callback is answered with success, then whatever happens next it changes nothing when it is
handled again. If it had been handed to confirm_deposit, the answer is then the refusal with the message of its guard;
otherwise it is the same answer. -/
theorem redelivery (E : Env) (db : DB) (cb : Callback) (hfirst : cb.Success (cb.post E db).1) (acts : List Act) :
    (cb.post E (actRun E (cb.post E db).2 acts)).2 = actRun E (cb.post E db).2 acts ∧
    ((∃ v, cb.Confirms E v) → (cb.post E (actRun E (cb.post E db).2 acts)).1 = cb.refused E notPending) ∧
    ((¬ ∃ v, cb.Confirms E v) → (cb.post E (actRun E (cb.post E db).2 acts)).1 = (cb.post E db).1) := by
  by_cases h : ∃ v, cb.Confirms E v
  · obtain ⟨v, hv⟩ := h
    obtain ⟨ok, -, hpost⟩ := hv.post_eq
    rcases attempt_confirm E v db with ⟨r, w, t, hc, ha⟩ | ⟨-, e, ha⟩
    · -- the request is COMPLETED from here on
      have hrow : (cb.post E db).2.requests.find r.id = some { r with status := .completed } := by
        rw [hpost, ha]
        exact Table.find_update_self hc.row rfl
      have hagain := attempt_completed hc.id (act_completed (E := E) hrow rfl acts) rfl
      have hanswer : cb.post E (actRun E (cb.post E db).2 acts) =
          (cb.refused E notPending, actRun E (cb.post E db).2 acts) := by
        rw [hpost, hagain]
      exact ⟨by rw [hanswer], fun _ => by rw [hanswer], fun hno => absurd ⟨v, hv⟩ hno⟩
    · rw [hpost, ha] at hfirst
      exact absurd hfirst (refused_not_success E e cb)
  · obtain ⟨r, hr⟩ := post_const h
    exact ⟨by rw [hr], fun hv => absurd hv h, fun _ => by rw [hr, hr]⟩

/-- the first delivery of `demoCallback` confirms the waiting deposit -/
theorem demoCallback_success : (Callback.click (.obj demoCallback)).Success
    ((Callback.click (.obj demoCallback)).post demoEnv (run demoEnv (init demoUsers) demoWaiting)).1 := by
  obtain ⟨ok, hok, hpost⟩ := demoCallback_confirms.post_eq
  rw [hpost]
  have hdone : ((attempt (DepositService.confirmDeposit demoEnv (.str "1") "")
      (run demoEnv (init demoUsers) demoWaiting)).1.toOption).isSome := by decide +kernel
  revert hdone
  rcases attempt (DepositService.confirmDeposit demoEnv (.str "1") "")
    (run demoEnv (init demoUsers) demoWaiting) with ⟨res, db'⟩
  intro hdone
  cases res with
  | error e => cases hdone
  | ok t => exact hok

/-- the money is spent between the two deliveries, and another deposit is requested and confirmed -/
def demoBetween : List Act :=
  [.call (.createJob 1 demoEmployer demoJob 0), .call (.initiateDeposit 2 demoEmployer 500000 "payme" ""),
    .call (.confirmDeposit (.int 2) ""), .webhook (.payme (.obj demoPerform) "bWVyY2hhbnQ6a2V5"),
    .call (.acceptJob "1" demoWorker 1), .call (.startJob "1" demoWorker 2), .call (.completeJob "1" demoEmployer 3)]

theorem redelivery_demo :
    ((Callback.click (.obj demoCallback)).post demoEnv
        (actRun demoEnv ((Callback.click (.obj demoCallback)).post demoEnv
          (run demoEnv (init demoUsers) demoWaiting)).2 demoBetween)).2 =
      actRun demoEnv ((Callback.click (.obj demoCallback)).post demoEnv
        (run demoEnv (init demoUsers) demoWaiting)).2 demoBetween ∧
    ((Callback.click (.obj demoCallback)).post demoEnv
        (actRun demoEnv ((Callback.click (.obj demoCallback)).post demoEnv
          (run demoEnv (init demoUsers) demoWaiting)).2 demoBetween)).1 =
      (Callback.click (.obj demoCallback)).refused demoEnv notPending := by
  obtain ⟨hsame, hrefused, -⟩ := redelivery demoEnv _ _ demoCallback_success demoBetween
  exact ⟨hsame, hrefused ⟨_, demoCallback_confirms⟩⟩

/-- A confirmation delivered twice is answered with success first, and with an error the second time. -/
theorem redelivery_refused :
    ¬ ∀ (E : Env) (db : DB) (cb : Callback) (acts : List Act), E.payme.isSome → E.click.isSome → cb.Verified E →
      cb.AsksToConfirm → cb.Success (cb.post E db).1 →
      cb.post E (actRun E (cb.post E db).2 acts) = ((cb.post E db).1, actRun E (cb.post E db).2 acts) := by
  intro h
  have hsame := h demoEnv (run demoEnv (init demoUsers) demoWaiting) (.click (.obj demoCallback)) [] rfl rfl
    demoCallback_confirms.verified ⟨demoCallback, rfl, rfl⟩ demoCallback_success
  have hcontra := demoCallback_success
  obtain ⟨ok, -, hpost⟩ := demoCallback_confirms.post_eq
  have hcompleted : ((actRun demoEnv ((Callback.click (.obj demoCallback)).post demoEnv
      (run demoEnv (init demoUsers) demoWaiting)).2 []).requests.find 1).map (·.status) = some .completed := by
    decide +kernel
  obtain ⟨r, hr, hc⟩ := Option.map_eq_some_iff.1 hcompleted
  rw [hpost (actRun demoEnv _ []), attempt_completed (show lookupId demoEnv.py (.str "1") = .ok (some 1) from rfl) hr
    hc] at hsame
  rw [← congrArg Prod.fst hsame] at hcontra
  exact refused_not_success _ _ _ hcontra

end GigMarketplace
