/-
What a payment provider gets: the answers of the webhook views, rendered by CustomJSONRenderer of
`apps/core/renderers.py`, which is the one renderer in DEFAULT_RENDERER_CLASSES.

The views answer in the provider's protocol, always with status 200, a refusal too. The renderer puts whatever has a
status below 400 and no key `success` under `data` and writes `"success": true` above it.

Result: `never_readable`, no answer of the two views reaches the provider with its own fields at the top;
`delivered_wrapped` says what reaches it instead.
-/
import GigMarketplace.Webhooks

namespace GigMarketplace

/-! ## The renderer -/

/-- the document that is sent; `context` is renderer_context: the status code of its response, if it has one -/
def CustomJSONRenderer.render (data : Json) (context : Option (Option ℕ)) : Json :=
  let wrapped : Json := .obj [("success", .bool true), ("data", data)]
  match context with
  | none => data
  | some response =>
    if 400 ≤ response.getD 0 then data
    else
      match data with
      | .obj fields => if (getField fields "success").isSome then data else wrapped
      | _ => wrapped

inductive WebhookRequest where
  | payme (data : Json) (authHeader : String)
  | click (data : Json)

def WebhookRequest.answer (E : Env) (db : DB) : WebhookRequest → Response
  | .payme data authHeader => (PaymeWebhookView.post E data authHeader db).1
  | .click data => (ClickWebhookView.post E data db).1

/-- the document for a body that a view answers with -/
def delivered (body : Json) : Json := CustomJSONRenderer.render body (some (some 200))

/-- every field of the body is a field of the document -/
def Readable (body document : Json) : Prop :=
  ∀ key value, (Response.json body).field key = some value → (Response.json document).field key = some value

/-! ## The bodies -/

/-- an object with a verdict, `result` or `error`, and no `success` -/
def IsVerdict (body : Json) : Prop :=
  ∃ fields, body = .obj fields ∧ getField fields "success" = none ∧
    ((getField fields "result").isSome ∨ (getField fields "error").isSome)

section

variable {E : Env} {db : DB} {body : Json}

theorem verdict_result (requestId result : Json) : IsVerdict (.obj [("id", requestId), ("result", result)]) :=
  ⟨_, rfl, rfl, .inl rfl⟩

theorem verdict_error (requestId error : Json) : IsVerdict (.obj [("id", requestId), ("error", error)]) :=
  ⟨_, rfl, rfl, .inr rfl⟩

theorem verdict_payme {data : Json} {authHeader : String}
    (h : (PaymeWebhookView.post E data authHeader db).1 = .json body) : IsVerdict body := by
  unfold PaymeWebhookView.post at h
  split at h
  · cases h
  · split_ifs at h
    · split at h
      · dsimp only at h
        split at h
        · cases h
          exact verdict_result _ _
        · cases h
          exact verdict_error _ _
      · cases h
    · cases h
      exact ⟨_, rfl, rfl, .inr rfl⟩

theorem verdict_reply {error : ℤ} {note : String} (h : clickReply error note = .json body) : IsVerdict body := by
  cases h
  exact ⟨_, rfl, rfl, .inr rfl⟩

theorem verdict_click {data : Json} (h : (ClickWebhookView.post E data db).1 = .json body) : IsVerdict body := by
  unfold ClickWebhookView.post at h
  split at h
  · cases h
  · split at h
    · split_ifs at h
      · dsimp only at h
        split_ifs at h
        · split at h
          · exact verdict_reply h
          · exact verdict_reply h
        · exact verdict_reply h
      · exact verdict_reply h
    · cases h

theorem verdict_answer {request : WebhookRequest} (h : request.answer E db = .json body) : IsVerdict body := by
  rcases request with ⟨data, authHeader⟩ | data
  · exact verdict_payme h
  · exact verdict_click h

/-- the verdict goes below `data`, and the only one at the top is `"success": true` -/
theorem delivered_wrapped (h : IsVerdict body) : delivered body = .obj [("success", .bool true), ("data", body)] := by
  obtain ⟨fields, rfl, hsuccess, -⟩ := h
  unfold delivered CustomJSONRenderer.render
  simp [hsuccess]

/-- at the top there is nothing else -/
theorem wrapped_top {key : String} (hkey : key ≠ "success" ∧ key ≠ "data") :
    (Response.json (.obj [("success", .bool true), ("data", body)])).field key = none := by
  have hsuccess : (key == "success") = false := beq_false_of_ne hkey.1
  have hdata : (key == "data") = false := beq_false_of_ne hkey.2
  simp [Response.field, getField, List.lookup_cons, hsuccess, hdata]

/-- **No provider can read the verdict**: of every answer, a success or a refusal, `result` or `error` is not at the top
of the document. -/
theorem never_readable (E : Env) (db : DB) (request : WebhookRequest) (h : request.answer E db = .json body) :
    ¬ Readable body (delivered body) := by
  intro hreadable
  have hverdict := verdict_answer h
  rw [delivered_wrapped hverdict] at hreadable
  obtain ⟨fields, rfl, -, hkey⟩ := hverdict
  rcases hkey with hresult | herror
  · obtain ⟨value, hvalue⟩ := Option.isSome_iff_exists.1 hresult
    have htop := hreadable "result" value hvalue
    rw [wrapped_top (by decide)] at htop
    cases htop
  · obtain ⟨value, hvalue⟩ := Option.isSome_iff_exists.1 herror
    have htop := hreadable "error" value hvalue
    rw [wrapped_top (by decide)] at htop
    cases htop

end

/-! ## A refusal -/

/-- a Payme callback without credentials -/
def demoRefusal : WebhookRequest := .payme (.obj []) ""

theorem refusal_answer (db : DB) : demoRefusal.answer demoEnv db = .json paymeDenied := rfl

theorem never_readable_demo : ¬ Readable paymeDenied (delivered paymeDenied) :=
  never_readable demoEnv (init demoUsers) demoRefusal (refusal_answer _)

/-- Payme is refused, and what it gets says success. -/
theorem refusal_says_success :
    demoRefusal.answer demoEnv (init demoUsers) = .json paymeDenied ∧
      (Response.json (delivered paymeDenied)).field "success" = some (.bool true) ∧
      (Response.json (delivered paymeDenied)).field "error" = none ∧
      ¬ Readable paymeDenied (delivered paymeDenied) := by
  refine ⟨rfl, rfl, rfl, fun hreadable => ?_⟩
  cases hreadable "error" _ rfl

end GigMarketplace
