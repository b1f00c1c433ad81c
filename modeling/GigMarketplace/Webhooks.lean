/-
The webhooks of `apps/payments/views.py`: PaymeWebhookView and ClickWebhookView, with `verify_webhook` of their
providers.

A view is a function of the database, the parsed body and, for Payme, the Authorization header; it returns the response
and the database after it. `confirm_deposit` is one transaction of its own; the views catch what it raises.

Results:
- `attempt_confirm`: what the call of confirm_deposit inside a view does;
- `acknowledged_iff_credited`: for every state and every verified callback that asks to confirm a payment, exactly when
  a success answer means that the named request is COMPLETED and credited once;
- `click_credit_amount`: over whole runs, every row that a Click callback creates has the amount of the PENDING request
  it names. The `amount` of the callback is read by the signature check and by nothing else (`click_amount_unread`), so
  it need not match (`click_amount_mismatch`).
-/
import GigMarketplace.Deposits
import Mathlib.Data.List.Induction

namespace GigMarketplace

open GigMarketplace.Core

/-! ## Bodies and responses -/

/-- `d.get(key)` of a dict; where a body repeats a key, the last value wins -/
def getField (fields : List (String × Json)) (key : String) : Option Json := fields.reverse.lookup key

/-- `v.get(key)` of a value that need not be a dict -/
def Json.getKey (v : Json) (key : String) : Except Exc (Option Json) :=
  match v with
  | .obj fields => .ok (getField fields key)
  | _ => .error .attributeError

inductive Response where
  | json (body : Json)
  /-- an exception that the view does not catch -/
  | raised (e : Exc)

/-- a service call inside a `try`: what it returned or raised, and the database after it -/
def attempt {A : Type} (p : Tx A) (db : DB) : Except Exc A × DB :=
  match exec store p db with
  | .ok (a, db') => (.ok a, db')
  | .error e => (.error e, db)

/-! ## Payme -/

def PaymeProvider.verifyWebhook (py : Py) (p : PaymeProvider) (signature : String) : Bool :=
  match py.b64decode signature with
  | none => false
  | some decoded =>
    match decoded.toList.splitOn ':' with
    | [merchantId, key] => merchantId = p.merchantId.toList ∧ key = p.key.toList
    | _ => false

/-- `params.get("account", {}).get("order_id")` -/
def paymeOrderId (params : Json) : Except Exc Json := do
  let account ← params.getKey "account"
  let orderId ← (account.getD (.obj [])).getKey "order_id"
  return orderId.getD .null

/-- `{"transaction": params.get("id"), "perform_time": 0, "state": 2}` -/
def paymePerformed (params : Json) : Except Exc Json := do
  let id ← params.getKey "id"
  return .obj [("transaction", id.getD .null), ("perform_time", .int 0), ("state", .int 2)]

def PaymeWebhookView.handlePaymeMethod (E : Env) (method params : Json) (db : DB) : Except Exc Json × DB :=
  if method.eqStr "PerformTransaction" then
    match paymeOrderId params with
    | .error e => (.error e, db)
    | .ok orderId =>
      if orderId.truthy then
        match attempt (DepositService.confirmDeposit E orderId "") db with
        | (.error e, db') => (.error e, db')
        | (.ok _, db') => (paymePerformed params, db')
      else (paymePerformed params, db)
  else (.ok (.obj []), db)

def paymeDenied : Json :=
  .obj [("error", .obj [("code", .int (-32504)), ("message", .str "Insufficient privilege to perform this method")])]

def PaymeWebhookView.post (E : Env) (data : Json) (authHeader : String) (db : DB) : Response × DB :=
  match E.payme with
  | none => (.raised .attributeError, db)
  | some provider =>
    if provider.verifyWebhook E.py authHeader then
      match data with
      | .obj fields =>
        let method := (getField fields "method").getD (.str "")
        let params := (getField fields "params").getD (.obj [])
        let requestId := (getField fields "id").getD (.int 0)
        match PaymeWebhookView.handlePaymeMethod E method params db with
        | (.ok result, db') => (.json (.obj [("id", requestId), ("result", result)]), db')
        | (.error e, db') =>
          (.json (.obj [("id", requestId), ("error", .obj [("code", .int (-31008)), ("message", .str (e.str E.py))])]),
            db')
      | _ => (.raised .attributeError, db)
    else (.json paymeDenied, db)

/-! ## Click -/

/-- the text that Click signs; an absent field prints as None -/
def ClickProvider.signString (py : Py) (p : ClickProvider) (fields : List (String × Json)) : String :=
  let text := fun key => ((getField fields key).getD .null).format py
  text "click_trans_id" ++ p.serviceId ++ p.secretKey ++ text "merchant_trans_id" ++ text "amount" ++ text "action" ++
    text "sign_time"

def ClickProvider.verifyWebhook (py : Py) (p : ClickProvider) (fields : List (String × Json)) (signature : Json) :
    Bool :=
  signature.eqStr (py.md5 (p.signString py fields))

def clickReply (error : ℤ) (note : String) : Response := .json (.obj [("error", .int error), ("error_note", .str note)])

def ClickWebhookView.post (E : Env) (data : Json) (db : DB) : Response × DB :=
  match E.click with
  | none => (.raised .attributeError, db)
  | some provider =>
    match data with
    | .obj fields =>
      if provider.verifyWebhook E.py fields ((getField fields "sign_string").getD (.str "")) then
        let action := (getField fields "action").getD .null
        let orderId := (getField fields "merchant_trans_id").getD .null
        if action.eqInt 1 ∧ orderId.truthy then
          match attempt (DepositService.confirmDeposit E orderId "") db with
          | (.error e, db') => (clickReply (-9) (e.str E.py), db')
          | (.ok _, db') => (clickReply 0 "Success", db')
        else (clickReply 0 "Success", db)
      else (clickReply (-1) "Invalid signature", db)
    | _ => (.raised .attributeError, db)

/-! ## Confirming inside a view -/

/-- an id names one request -/
theorem lookupId_unique {py : Py} {v : Json} {i i' : Pk} (h : lookupId py v = .ok (some i))
    (h' : lookupId py v = .ok (some i')) : i' = i := by
  have heq := h'.symm.trans h
  simpa using heq

section Confirm

variable {E : Env} {db : DB} {v : Json} {r : PaymentRequest} {w : Wallet}

/-- confirm_deposit called with the id `v` goes through, for the request `r` and the wallet `w` -/
structure Confirmable (E : Env) (db : DB) (v : Json) (r : PaymentRequest) (w : Wallet) : Prop where
  id : lookupId E.py v = .ok (some r.id)
  row : db.requests.find r.id = some r
  pending : r.status = .pending
  wallet : db.wallets.find r.wallet = some w
  limits : E.minDeposit ≤ r.amount ∧ r.amount ≤ E.maxDeposit
  cols : InBigint r.amount ∧ InBigint w.balance ∧ InBigint (w.balance + r.amount)

/-- the database after it -/
def DB.confirmed (db : DB) (r : PaymentRequest) (w : Wallet) : DB :=
  { db with
    wallets := db.wallets.update r.wallet fun x => { x with balance := w.balance + r.amount }
    requests := db.requests.update r.id fun x => { x with status := .completed }
    ledger := db.ledger ++ [confirmRow r w ""] }

/-- **What the call inside a view does**: it credits the request, or raises and leaves the database. -/
theorem attempt_confirm (E : Env) (v : Json) (db : DB) :
    (∃ r w t, Confirmable E db v r w ∧
      attempt (DepositService.confirmDeposit E v "") db = (.ok t, db.confirmed r w)) ∨
    ((¬ ∃ r w, Confirmable E db v r w) ∧
      ∃ e, attempt (DepositService.confirmDeposit E v "") db = (.error e, db)) := by
  unfold attempt
  cases h : exec store (DepositService.confirmDeposit E v "") db with
  | ok x =>
    left
    obtain ⟨r, w, h1, h2, h3, h4, h5, h6, ht, hdb⟩ := runs_confirmDeposit.1 (show Runs store _ db x.1 x.2 from h)
    refine ⟨r, w, x.1, ⟨h1, h2, h3, h4, h5, h6⟩, ?_⟩
    rw [DB.confirmed, ← ht, ← hdb]
  | error e =>
    right
    refine ⟨fun ⟨r, w, hc⟩ => ?_, e, rfl⟩
    have hrun : Runs store (DepositService.confirmDeposit E v "") db (confirmRow r w "") (db.confirmed r w) :=
      runs_confirmDeposit.2 ⟨r, w, hc.id, hc.row, hc.pending, hc.wallet, hc.limits, hc.cols, rfl, rfl⟩
    exact absurd (h.symm.trans hrun) (by simp)

/-- the request that `v` names is COMPLETED, and exactly one row was credited for it -/
def Credited (E : Env) (db : DB) (v : Json) : Prop :=
  ∃ r, lookupId E.py v = .ok (some r.id) ∧ db.requests.find r.id = some r ∧ r.status = .completed ∧ CreditedOnce db r

/-- a confirmation credits its request once exactly if it was not credited before -/
theorem confirmed_credited (h : Confirmable E db v r w) :
    Credited E (db.confirmed r w) v ↔ creditRows db r.id = [] := by
  have hrows : creditRows (db.confirmed r w) r.id = creditRows db r.id ++ [confirmRow r w ""] := by
    have hledger : (db.confirmed r w).ledger = db.ledger ++ [confirmRow r w ""] := rfl
    rw [creditRows_append hledger]
    simp [confirmRow, depositRow]
  constructor
  · intro hcred
    obtain ⟨r', hid, hrow, -, t, ht, -⟩ := hcred
    have hid' : r'.id = r.id := lookupId_unique h.id hid
    rw [hid', hrows] at ht
    have hlen := congrArg List.length ht
    simp only [List.length_append, List.length_singleton] at hlen
    exact List.length_eq_zero_iff.1 (by omega)
  · intro hnone
    refine ⟨{ r with status := .completed }, h.id, Table.find_update_self h.row rfl, rfl, confirmRow r w "", ?_, rfl,
      Table.pk_of_find h.wallet, rfl⟩
    rw [show ({ r with status := .completed } : PaymentRequest).id = r.id from rfl, hrows, hnone, List.nil_append]

end Confirm

/-! ## Acknowledged, therefore credited? -/

def Response.field (r : Response) (key : String) : Option Json :=
  match r with
  | .json (.obj fields) => getField fields key
  | _ => none

/-- Payme's success: `result.state == 2` -/
def Response.paymeDone (r : Response) : Prop :=
  ∃ result, r.field "result" = some (.obj result) ∧ getField result "state" = some (.int 2)

/-- Click's success: `error == 0` -/
def Response.clickDone (r : Response) : Prop := r.field "error" = some (.int 0)

/-- if confirm_deposit goes through for `v`, it is the first credit of the request -/
def FirstCredit (E : Env) (db : DB) (v : Json) : Prop := ∀ r w, Confirmable E db v r w → creditRows db r.id = []

def paymeParams (fields : List (String × Json)) : Json := (getField fields "params").getD (.obj [])

def clickOrderId (fields : List (String × Json)) : Json := (getField fields "merchant_trans_id").getD .null

def clickAction (fields : List (String × Json)) : Json := (getField fields "action").getD .null

/-- A Payme confirmation is answered rightly: `params.account.order_id` cannot be read, or it is there and
confirm_deposit decides, or nothing is left to credit. -/
def PaymeAnswersRightly (E : Env) (db : DB) (fields : List (String × Json)) : Prop :=
  match paymeOrderId (paymeParams fields) with
  | .error _ => True
  | .ok v => if v.truthy then FirstCredit E db v else Credited E db v

/-- A Click confirmation is answered rightly: `action` is the integer 1, `merchant_trans_id` is there and
confirm_deposit decides, or nothing is left to credit. -/
def ClickAnswersRightly (E : Env) (db : DB) (fields : List (String × Json)) : Prop :=
  if (clickAction fields).eqInt 1 ∧ (clickOrderId fields).truthy then FirstCredit E db (clickOrderId fields)
  else Credited E db (clickOrderId fields)

section Acknowledged

variable {E : Env} {db : DB} {fields : List (String × Json)} {v : Json} {r r' : PaymentRequest} {w w' : Wallet}

theorem Confirmable.unique (h : Confirmable E db v r w) (h' : Confirmable E db v r' w') : r' = r := by
  have hid : r'.id = r.id := lookupId_unique h.id h'.id
  have hrow := h'.row
  rw [hid, h.row] at hrow
  exact (Option.some.inj hrow).symm

theorem Confirmable.firstCredit (h : Confirmable E db v r w) : FirstCredit E db v ↔ creditRows db r.id = [] := by
  refine ⟨fun hf => hf r w h, fun hnone r' w' h' => ?_⟩
  rw [h.unique h']; exact hnone

theorem paymePerformed_of_orderId {params : Json} (h : paymeOrderId params = .ok v) :
    ∃ id, paymePerformed params = .ok (.obj [("transaction", id), ("perform_time", .int 0), ("state", .int 2)]) := by
  cases params with
  | obj fs => exact ⟨_, rfl⟩
  | _ => cases h

/-- the confirming branch of the Payme view -/
theorem payme_answer {p : PaymeProvider} {header : String} (hp : E.payme = some p)
    (hv : p.verifyWebhook E.py header = true) (hask : getField fields "method" = some (.str "PerformTransaction")) :
    ((PaymeWebhookView.post E (.obj fields) header db).1.paymeDone →
        ∃ v, paymeOrderId (paymeParams fields) = .ok v ∧
          Credited E (PaymeWebhookView.post E (.obj fields) header db).2 v) ↔
      PaymeAnswersRightly E db fields := by
  have hmethod : Json.eqStr (.str "PerformTransaction") "PerformTransaction" = true := by decide
  simp only [PaymeWebhookView.post, hp, hv, if_true, hask, Option.getD_some, PaymeWebhookView.handlePaymeMethod,
    hmethod, PaymeAnswersRightly]
  have hparams : (getField fields "params").getD (.obj []) = paymeParams fields := rfl
  rw [hparams]
  have hfail : ∀ e : Exc, ¬ (Response.json (.obj [("id", (getField fields "id").getD (.int 0)),
      ("error", .obj [("code", .int (-31008)), ("message", .str (e.str E.py))])])).paymeDone := by
    intro e hdone
    obtain ⟨result, h, -⟩ := hdone
    simp [Response.field, getField, List.lookup_cons] at h
  have hdone : ∀ id : Json, (Response.json (.obj [("id", (getField fields "id").getD (.int 0)),
      ("result", .obj [("transaction", id), ("perform_time", .int 0), ("state", .int 2)])])).paymeDone := fun id =>
    ⟨[("transaction", id), ("perform_time", .int 0), ("state", .int 2)], by simp [Response.field, getField],
      by simp [getField]⟩
  cases ho : paymeOrderId (paymeParams fields) with
  | error e => exact ⟨fun _ => trivial, fun _ h => absurd h (hfail e)⟩
  | ok v =>
    obtain ⟨id, hperf⟩ := paymePerformed_of_orderId ho
    simp only [hperf]
    by_cases ht : v.truthy = true
    · simp only [ht, if_true]
      rcases attempt_confirm E v db with ⟨r, w, t, hc, ha⟩ | ⟨hn, e, ha⟩
      · simp only [ha]
        rw [hc.firstCredit, ← confirmed_credited hc]
        constructor
        · intro h
          obtain ⟨v', hv', hcred⟩ := h (hdone id)
          cases hv'
          exact hcred
        · exact fun h _ => ⟨v, rfl, h⟩
      · simp only [ha]
        exact ⟨fun _ r w hc => absurd ⟨r, w, hc⟩ hn, fun _ h => absurd h (hfail e)⟩
    · simp only [Bool.not_eq_true] at ht
      simp only [ht, Bool.false_eq_true, if_false]
      constructor
      · intro h
        obtain ⟨v', hv', hcred⟩ := h (hdone id)
        cases hv'
        exact hcred
      · exact fun h _ => ⟨v, rfl, h⟩

/-- what the Click view does with a verified body -/
theorem click_post_eq {p : ClickProvider} (hp : E.click = some p)
    (hv : p.verifyWebhook E.py fields ((getField fields "sign_string").getD (.str "")) = true) :
    ClickWebhookView.post E (.obj fields) db =
      if (clickAction fields).eqInt 1 ∧ (clickOrderId fields).truthy then
        match attempt (DepositService.confirmDeposit E (clickOrderId fields) "") db with
        | (.error e, db') => (clickReply (-9) (e.str E.py), db')
        | (.ok _, db') => (clickReply 0 "Success", db')
      else (clickReply 0 "Success", db) := by
  simp only [ClickWebhookView.post, hp, hv, if_true]
  rfl

theorem click_success : (clickReply 0 "Success").clickDone := by
  simp [clickReply, Response.clickDone, Response.field, getField, List.lookup_cons]

/-- the confirming branch of the Click view -/
theorem click_answer {p : ClickProvider} (hp : E.click = some p)
    (hv : p.verifyWebhook E.py fields ((getField fields "sign_string").getD (.str "")) = true) :
    ((ClickWebhookView.post E (.obj fields) db).1.clickDone →
        Credited E (ClickWebhookView.post E (.obj fields) db).2 (clickOrderId fields)) ↔
      ClickAnswersRightly E db fields := by
  have hfail : ∀ note, ¬ (clickReply (-9) note).clickDone := fun note => by
    simp [clickReply, Response.clickDone, Response.field, getField, List.lookup_cons]
  rw [click_post_eq hp hv, ClickAnswersRightly]
  split_ifs with hc
  · rcases attempt_confirm E (clickOrderId fields) db with ⟨r, w, t, hconf, ha⟩ | ⟨hn, e, ha⟩
    · simp only [ha]
      rw [hconf.firstCredit, ← confirmed_credited hconf]
      exact ⟨fun h => h click_success, fun h _ => h⟩
    · simp only [ha]
      exact ⟨fun _ r w hconf => absurd ⟨r, w, hconf⟩ hn, fun _ h => absurd h (hfail _)⟩
  · exact ⟨fun h => h click_success, fun h _ => h⟩

/-- in the states that runs reach, every confirmation that goes through is the first -/
theorem Credits.firstCredit (h : Credits db) : FirstCredit E db v :=
  fun r _ hc => h.pending r (Table.mem_of_find hc.row) hc.pending

end Acknowledged

/-- **When an acknowledged confirmation has been credited.** For every state and every verified callback that asks to
confirm, the success answer means that the named request is COMPLETED and credited once, exactly if the callback is of
the kind the view acts on. -/
theorem acknowledged_iff_credited (E : Env) (db : DB) (fields : List (String × Json)) :
    (∀ p header, E.payme = some p → p.verifyWebhook E.py header = true →
      getField fields "method" = some (.str "PerformTransaction") →
      (((PaymeWebhookView.post E (.obj fields) header db).1.paymeDone →
          ∃ v, paymeOrderId (paymeParams fields) = .ok v ∧
            Credited E (PaymeWebhookView.post E (.obj fields) header db).2 v) ↔ PaymeAnswersRightly E db fields)) ∧
    (∀ p, E.click = some p →
      p.verifyWebhook E.py fields ((getField fields "sign_string").getD (.str "")) = true →
      clickAction fields = .int 1 ∨ clickAction fields = .str "1" →
      (((ClickWebhookView.post E (.obj fields) db).1.clickDone →
          Credited E (ClickWebhookView.post E (.obj fields) db).2 (clickOrderId fields)) ↔
        ClickAnswersRightly E db fields)) :=
  ⟨fun _ _ hp hv hask => payme_answer hp hv hask, fun _ hp hv _ => click_answer hp hv⟩

/-! ### A form-encoded confirmation -/

/-- a deposit of 10000000 tiyin through Click is waiting -/
def demoWaiting : List Op := [.initiateDeposit 1 demoEmployer 10000000 "click" ""]

/-- Click's callback for it, form-encoded: every value is a string -/
def demoForm : List (String × Json) :=
  [("click_trans_id", .str "777"), ("merchant_trans_id", .str "1"), ("amount", .str "1000"), ("action", .str "1"),
    ("sign_time", .str "2024-05-01 12:00:00"), ("sign_string", .str "82dfe3bdea3c473b956204fee3cfb3c3")]

/-- the same callback with JSON numbers -/
def demoCallback : List (String × Json) :=
  [("click_trans_id", .int 777), ("merchant_trans_id", .str "1"), ("amount", .int 1000), ("action", .int 1),
    ("sign_time", .str "2024-05-01 12:00:00"), ("sign_string", .str "82dfe3bdea3c473b956204fee3cfb3c3")]

def demoClick : ClickProvider := ⟨"service", "merchant", "secret"⟩

theorem demoForm_verified :
    demoClick.verifyWebhook demoPy demoForm (.str "82dfe3bdea3c473b956204fee3cfb3c3") = true := by
  decide +kernel

/-- The form-encoded confirmation verifies and is answered with success, and credits nothing. -/
theorem form_confirmation_dropped :
    demoClick.verifyWebhook demoPy demoForm (.str "82dfe3bdea3c473b956204fee3cfb3c3") = true ∧
      clickAction demoForm = .str "1" ∧
      (ClickWebhookView.post demoEnv (.obj demoForm) (run demoEnv (init demoUsers) demoWaiting)).1.clickDone ∧
      ¬ Credited demoEnv (ClickWebhookView.post demoEnv (.obj demoForm) (run demoEnv (init demoUsers) demoWaiting)).2
        (clickOrderId demoForm) := by
  have hpost : ClickWebhookView.post demoEnv (.obj demoForm) (run demoEnv (init demoUsers) demoWaiting) =
      (clickReply 0 "Success", run demoEnv (init demoUsers) demoWaiting) := by
    rw [click_post_eq (p := demoClick) rfl demoForm_verified, if_neg (fun h => absurd h.1 (by decide))]
  refine ⟨demoForm_verified, rfl, by rw [hpost]; exact click_success, ?_⟩
  rw [hpost]
  intro hcred
  obtain ⟨r, hid, hrow, hstatus, -⟩ := hcred
  have hone : r.id = 1 := lookupId_unique (show lookupId demoEnv.py (clickOrderId demoForm) = .ok (some 1) from rfl) hid
  have hwaiting : ((run demoEnv (init demoUsers) demoWaiting).requests.find 1).map (·.status) = some .pending := by
    decide +kernel
  rw [hone] at hrow
  rw [hrow, Option.map_some, hstatus] at hwaiting
  cases hwaiting

/-- Payme's callback for it -/
def demoPerform : List (String × Json) :=
  [("id", .int 7), ("method", .str "PerformTransaction"),
    ("params", .obj [("id", .str "5e730e8e0b852a417aa49ceb"), ("account", .obj [("order_id", .str "1")])])]

theorem acknowledged_iff_credited_demo :
    (((PaymeWebhookView.post demoEnv (.obj demoPerform) "bWVyY2hhbnQ6a2V5"
          (run demoEnv (init demoUsers) demoWaiting)).1.paymeDone →
        ∃ v, paymeOrderId (paymeParams demoPerform) = .ok v ∧
          Credited demoEnv (PaymeWebhookView.post demoEnv (.obj demoPerform) "bWVyY2hhbnQ6a2V5"
            (run demoEnv (init demoUsers) demoWaiting)).2 v) ↔
      PaymeAnswersRightly demoEnv (run demoEnv (init demoUsers) demoWaiting) demoPerform) ∧
    (((ClickWebhookView.post demoEnv (.obj demoCallback) (run demoEnv (init demoUsers) demoWaiting)).1.clickDone →
        Credited demoEnv
          (ClickWebhookView.post demoEnv (.obj demoCallback) (run demoEnv (init demoUsers) demoWaiting)).2
          (clickOrderId demoCallback)) ↔
      ClickAnswersRightly demoEnv (run demoEnv (init demoUsers) demoWaiting) demoCallback) :=
  ⟨(acknowledged_iff_credited demoEnv _ demoPerform).1 ⟨"merchant", "key"⟩ "bWVyY2hhbnQ6a2V5" rfl (by decide +kernel)
      rfl,
    (acknowledged_iff_credited demoEnv _ demoCallback).2 demoClick rfl (by decide +kernel) (Or.inl rfl)⟩

/-! ## The amount of a Click credit -/

/-- deposits requested by users, and callbacks posted to the Click webhook -/
inductive WebOp where
  | initiate (id : Pk) (user : User) (amount : ℤ) (providerName uuidHex : String)
  | click (data : Json)

def webStep (E : Env) (db : DB) : WebOp → DB
  | .initiate id user amount providerName uuidHex => step E db (.initiateDeposit id user amount providerName uuidHex)
  | .click data => (ClickWebhookView.post E data db).2

def webRun (E : Env) (db : DB) (ops : List WebOp) : DB := ops.foldl (webStep E) db

section Amount

variable {E : Env} {db : DB} {fields fields' : List (String × Json)}

def clickVerified (E : Env) (p : ClickProvider) (fields : List (String × Json)) : Prop :=
  p.verifyWebhook E.py fields ((getField fields "sign_string").getD (.str "")) = true

theorem webRun_snoc (E : Env) (db : DB) (ops : List WebOp) (op : WebOp) :
    webRun E db (ops ++ [op]) = webStep E (webRun E db ops) op := by
  simp [webRun, List.foldl_append]

theorem initiate_ledger (E : Env) (db : DB) (id : Pk) (user : User) (amount : ℤ) (providerName uuidHex : String) :
    (step E db (.initiateDeposit id user amount providerName uuidHex)).ledger = db.ledger := by
  rcases step_cases E db (.initiateDeposit id user amount providerName uuidHex) with h | h
  · generalize step E db (.initiateDeposit id user amount providerName uuidHex) = db' at h
    cases h; rfl
  · rw [h]

/-- **What a Click callback does to the database**: nothing, or it credits the PENDING request it names. -/
theorem click_post_db (E : Env) (data : Json) (db : DB) :
    (ClickWebhookView.post E data db).2 = db ∨
    ∃ fields p r w, data = .obj fields ∧ E.click = some p ∧ clickVerified E p fields ∧
      Confirmable E db (clickOrderId fields) r w ∧ (ClickWebhookView.post E data db).2 = db.confirmed r w := by
  cases hp : E.click with
  | none => left; simp only [ClickWebhookView.post, hp]
  | some p =>
    cases data with
    | obj fields =>
      by_cases hv : clickVerified E p fields
      · rw [click_post_eq hp hv]
        split_ifs
        · rcases attempt_confirm E (clickOrderId fields) db with ⟨r, w, t, hc, ha⟩ | ⟨-, e, ha⟩
          · right
            exact ⟨fields, p, r, w, rfl, rfl, hv, hc, by simp only [ha]⟩
          · left; simp only [ha]
        · left; rfl
      · left
        have hno : p.verifyWebhook E.py fields ((getField fields "sign_string").getD (.str "")) = false := by
          simpa [clickVerified] using hv
        simp [ClickWebhookView.post, hp, hno]
    | _ => left; simp only [ClickWebhookView.post, hp]

/-- two verified bodies that differ in `amount` and the signature only have the same effect and answer -/
theorem click_amount_unread {p : ClickProvider} (hp : E.click = some p) (hv : clickVerified E p fields)
    (hv' : clickVerified E p fields') (haction : clickAction fields' = clickAction fields)
    (horder : clickOrderId fields' = clickOrderId fields) :
    ClickWebhookView.post E (.obj fields') db = ClickWebhookView.post E (.obj fields) db := by
  rw [click_post_eq hp hv, click_post_eq hp hv', haction, horder]

/-- the callback in a run that credited the row `t`, and the request it credited -/
structure CreditedBy (E : Env) (users : Table User) (ops : List WebOp) (t : Transaction) (fields : List (String × Json))
    (r : PaymentRequest) : Prop where
  callback : ∃ ops₁ ops₂, ops = ops₁ ++ .click (.obj fields) :: ops₂ ∧
    (webRun E (init users) ops₁).requests.find r.id = some r ∧
    (webRun E (init users) (ops₁ ++ [.click (.obj fields)])).requests.find r.id = some { r with status := .completed }
  verified : ∃ p, E.click = some p ∧ clickVerified E p fields
  named : lookupId E.py (clickOrderId fields) = .ok (some r.id)
  pending : r.status = .pending
  deposit : t.transactionType = .deposit ∧ t.wallet = r.wallet ∧ t.request = some r.id

theorem CreditedBy.snoc {users : Table User} {ops : List WebOp} {t : Transaction} {r : PaymentRequest}
    (h : CreditedBy E users ops t fields r) (op : WebOp) : CreditedBy E users (ops ++ [op]) t fields r where
  callback := by
    obtain ⟨ops₁, ops₂, hops, h1, h2⟩ := h.callback
    exact ⟨ops₁, ops₂ ++ [op], by rw [hops]; simp, h1, h2⟩
  verified := h.verified
  named := h.named
  pending := h.pending
  deposit := h.deposit

theorem rows_creditedBy (E : Env) (users : Table User) (ops : List WebOp) :
    ∀ t ∈ (webRun E (init users) ops).ledger, ∃ fields r, CreditedBy E users ops t fields r ∧ t.amount = r.amount := by
  induction ops using List.reverseRecOn with
  | nil => intro t ht; simp [webRun, init] at ht
  | append_singleton ops op ih =>
    intro t ht
    have hold : t ∈ (webRun E (init users) ops).ledger →
        ∃ fields r, CreditedBy E users (ops ++ [op]) t fields r ∧ t.amount = r.amount := by
      intro h
      obtain ⟨fields, r, hc, ha⟩ := ih t h
      exact ⟨fields, r, hc.snoc op, ha⟩
    rw [webRun_snoc] at ht
    cases op with
    | initiate id user amount providerName uuidHex =>
      rw [webStep, initiate_ledger] at ht
      exact hold ht
    | click data =>
      rw [webStep] at ht
      rcases click_post_db E data (webRun E (init users) ops) with h | ⟨fields, p, r, w, rfl, hp, hv, hc, h⟩
      · rw [h] at ht; exact hold ht
      · rw [h] at ht
        rcases List.mem_append.1 ht with ht | ht
        · exact hold ht
        · rw [List.mem_singleton] at ht
          have hrow : (webRun E (init users) (ops ++ [.click (.obj fields)])).requests.find r.id =
              some { r with status := .completed } := by
            rw [webRun_snoc, webStep, h]
            exact Table.find_update_self hc.row rfl
          refine ⟨fields, r, ⟨⟨ops, [], rfl, hc.row, hrow⟩, ⟨p, hp, hv⟩, hc.id, hc.pending, ?_⟩, ?_⟩
          · rw [ht]; exact ⟨rfl, Table.pk_of_find hc.wallet, rfl⟩
          · rw [ht]; rfl

end Amount

/-- **What a Click credit is worth.** In every run, each row that a Click callback created has the amount of the
PENDING request that the callback names; and the callback's own `amount` changes neither the answer nor the effect,
as long as the signature fits. -/
theorem click_credit_amount (E : Env) (users : Table User) (ops : List WebOp) :
    (∀ t ∈ (webRun E (init users) ops).ledger, ∃ fields r, CreditedBy E users ops t fields r ∧ t.amount = r.amount) ∧
    ∀ p fields fields', E.click = some p → clickVerified E p fields → clickVerified E p fields' →
      clickAction fields' = clickAction fields → clickOrderId fields' = clickOrderId fields →
      ClickWebhookView.post E (.obj fields') (webRun E (init users) ops) =
        ClickWebhookView.post E (.obj fields) (webRun E (init users) ops) :=
  ⟨rows_creditedBy E users ops, fun _ _ _ hp hv hv' ha ho => click_amount_unread hp hv hv' ha ho⟩

/-- the deposit of `demoWaiting`, then its callback -/
def demoCredited : List WebOp := [.initiate 1 demoEmployer 10000000 "click" "", .click (.obj demoCallback)]

/-- A deposit of 10000000 tiyin is credited in full by a callback over 1000 UZS. -/
theorem click_amount_mismatch :
    clickVerified demoEnv demoClick demoCallback ∧ getField demoCallback "amount" = some (.int 1000) ∧
      ¬ ∀ t ∈ (webRun demoEnv (init demoUsers) demoCredited).ledger, t.amount = 100 * 1000 :=
  ⟨by unfold clickVerified; decide +kernel, rfl, by decide +kernel⟩

/-- a body with a blank amount: the signed text is the same, since its parts are joined without a separator -/
def demoBlank : List (String × Json) :=
  [("click_trans_id", .int 777), ("merchant_trans_id", .str "1"), ("amount", .str ""), ("action", .int 1),
    ("sign_time", .str "00012024-05-01 12:00:00"), ("sign_string", .str "82dfe3bdea3c473b956204fee3cfb3c3")]

theorem click_credit_amount_demo :
    (∀ t ∈ (webRun demoEnv (init demoUsers) demoCredited).ledger,
      ∃ fields r, CreditedBy demoEnv demoUsers demoCredited t fields r ∧ t.amount = r.amount) ∧
    ClickWebhookView.post demoEnv (.obj demoBlank) (webRun demoEnv (init demoUsers) demoCredited) =
      ClickWebhookView.post demoEnv (.obj demoCallback) (webRun demoEnv (init demoUsers) demoCredited) := by
  have h := click_credit_amount demoEnv demoUsers demoCredited
  refine ⟨h.1, h.2 demoClick demoCallback demoBlank rfl ?_ ?_ rfl rfl⟩ <;> unfold clickVerified <;> decide +kernel

end GigMarketplace
