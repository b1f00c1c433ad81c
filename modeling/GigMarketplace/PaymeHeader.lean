/-
The credentials of Payme: `_get_auth_header` and `verify_webhook` of PaymeProvider.

PaymeWebhookView gives `verify_webhook` the whole Authorization header, and the scheme that `_get_auth_header` puts in
front of the credentials stays there: the blank is skipped, but "Basic" consists of five characters of the alphabet
(`Core/Base64.lean`), which shift the groups of what follows. The first four of them decode to bytes that are not UTF-8.

Results:
- `verifyWebhook_iff`: which headers are accepted;
- `bare_accepted_iff`: credentials without a scheme are accepted exactly if they are the provider's own and neither
  part contains the separator;
- `checksOwn_never`: a header with the scheme is refused, whose ever it is.
-/
import GigMarketplace.Core.Base64
import GigMarketplace.Webhooks

namespace GigMarketplace

open GigMarketplace.Core

/-- the runtime with the standard library's base64 -/
def Py.withBase64 (py : Py) : Py := { py with b64decode := Base64.decodeText }

namespace PaymeProvider

/-- `f"{self.merchant_id}:{self.key}"` -/
def credentials (p : PaymeProvider) : String := p.merchantId ++ ":" ++ p.key

def getAuthHeader (p : PaymeProvider) : String := "Basic " ++ Base64.encodeText p.credentials

/-- the credentials can be split into two -/
def Splits (p : PaymeProvider) : Prop := ':' ∉ p.merchantId.toList ∧ ':' ∉ p.key.toList

/-- the check accepts the provider's own header and no other -/
def ChecksOwn (py : Py) (p : PaymeProvider) : Prop :=
  p.verifyWebhook py.withBase64 p.getAuthHeader = true ∧
    ∀ q : PaymeProvider, q ≠ p → p.verifyWebhook py.withBase64 q.getAuthHeader = false

end PaymeProvider

/-! ## What is accepted -/

section Accepted

variable {py : Py} {p q : PaymeProvider} {header : String}

/-- a text splits into two at one separator only -/
theorem splitOn_pair {xs m k : List Char} : xs.splitOn ':' = [m, k] ↔ xs = m ++ ':' :: k ∧ ':' ∉ m ∧ ':' ∉ k := by
  constructor
  · intro h
    have hmem : ':' ∈ xs := by
      by_contra hno
      rw [List.splitOn_eq_singleton hno] at h
      cases h
    obtain ⟨m', rest, rfl, hm'⟩ := List.eq_append_cons_of_mem hmem
    rw [List.splitOn_append_cons_self_of_not_mem hm', List.cons.injEq] at h
    obtain ⟨rfl, hrest⟩ := h
    have hlast : ':' ∉ rest := by
      intro hin
      obtain ⟨k', rest', rfl, hk'⟩ := List.eq_append_cons_of_mem hin
      rw [List.splitOn_append_cons_self_of_not_mem hk', List.cons.injEq] at hrest
      exact List.splitOn_ne_nil _ _ hrest.2
    rw [List.splitOn_eq_singleton hlast, List.cons.injEq] at hrest
    exact ⟨by rw [hrest.1], hm', hrest.1 ▸ hlast⟩
  · rintro ⟨rfl, hm, hk⟩
    rw [List.splitOn_append_cons_self_of_not_mem hm, List.splitOn_eq_singleton hk]

theorem toList_credentials (p : PaymeProvider) : p.credentials.toList = p.merchantId.toList ++ ':' :: p.key.toList := by
  simp [PaymeProvider.credentials]

theorem verifyWebhook_iff :
    p.verifyWebhook py.withBase64 header = true ↔ Base64.decodeText header = some p.credentials ∧ p.Splits := by
  have hdecode : py.withBase64.b64decode header = Base64.decodeText header := rfl
  unfold PaymeProvider.verifyWebhook
  rw [hdecode]
  cases Base64.decodeText header with
  | none => exact iff_of_false Bool.false_ne_true fun h => by cases h.1
  | some decoded =>
    constructor
    · intro h
      dsimp only at h
      split at h
      · rename_i merchantId key hsplit
        obtain ⟨rfl, rfl⟩ := of_decide_eq_true h
        obtain ⟨htext, hm, hk⟩ := splitOn_pair.1 hsplit
        rw [← toList_credentials] at htext
        exact ⟨congrArg some (String.toList_injective htext), hm, hk⟩
      · cases h
    · rintro ⟨htext, hm, hk⟩
      cases htext
      have hsplit : p.credentials.toList.splitOn ':' = [p.merchantId.toList, p.key.toList] :=
        splitOn_pair.2 ⟨toList_credentials p, hm, hk⟩
      dsimp only
      rw [hsplit]
      exact decide_eq_true ⟨rfl, rfl⟩

/-- credentials with one separator are those of one pair -/
theorem eq_of_credentials (h : q.credentials = p.credentials) (hp : p.Splits) : q = p := by
  have htext : q.merchantId.toList ++ ':' :: q.key.toList = p.merchantId.toList ++ ':' :: p.key.toList :=
    calc q.merchantId.toList ++ ':' :: q.key.toList
        = q.credentials.toList := (toList_credentials q).symm
      _ = p.credentials.toList := congrArg String.toList h
      _ = p.merchantId.toList ++ ':' :: p.key.toList := toList_credentials p
  have hcount := congrArg (List.count ':') htext
  have hm : p.merchantId.toList.count ':' = 0 := List.count_eq_zero.2 hp.1
  have hk : p.key.toList.count ':' = 0 := List.count_eq_zero.2 hp.2
  rw [List.count_append, List.count_append, List.count_cons_self, List.count_cons_self] at hcount
  have hq : ':' ∉ q.merchantId.toList ∧ ':' ∉ q.key.toList :=
    ⟨List.count_eq_zero.1 (by omega), List.count_eq_zero.1 (by omega)⟩
  have hsplit := splitOn_pair.2 ⟨rfl, hp⟩
  rw [← htext, splitOn_pair.2 ⟨rfl, hq⟩, List.cons.injEq, List.cons.injEq] at hsplit
  cases p
  cases q
  exact congrArg₂ PaymeProvider.mk (String.toList_injective hsplit.1) (String.toList_injective hsplit.2.1)

/-- **Without a scheme** the check accepts exactly its own credentials, if these can be split. -/
theorem bare_accepted_iff :
    p.verifyWebhook py.withBase64 (Base64.encodeText q.credentials) = true ↔ q = p ∧ p.Splits := by
  rw [verifyWebhook_iff, Base64.decodeText_encodeText, Option.some.injEq]
  constructor
  · rintro ⟨h, hp⟩
    exact ⟨eq_of_credentials h hp, hp⟩
  · rintro ⟨rfl, hp⟩
    exact ⟨rfl, hp⟩

end Accepted

/-! ## The scheme -/

/-- what "Basic " leaves in the decoder: three bytes, and the digit `c` -/
theorem run_scheme : Base64.Decoder.init.run "Basic ".toList = ⟨1, 28, 0, [5, 171, 34], false⟩ := by decide

/-- the second of these bytes cannot stand there in a text -/
theorem decodeText_scheme (rest : String) : Base64.decodeText ("Basic " ++ rest) = none := by
  unfold Base64.decodeText
  split_ifs
  · rw [String.toList_append]
    cases hdecode : Base64.decode ("Basic ".toList ++ rest.toList) with
    | none => rfl
    | some bytes =>
      obtain ⟨more, rfl⟩ := Base64.out_of_decode hdecode
      rw [run_scheme, Option.bind_some]
      refine dif_neg fun hvalid => ?_
      have hfirst := Base64.isValidUTF8_cons (c := Char.ofNat 5) (b := 171) (by decide) hvalid
      exact absurd hfirst (by decide)
  · rfl

/-- a header with the scheme is refused -/
theorem header_refused (py : Py) (p q : PaymeProvider) : p.verifyWebhook py.withBase64 q.getAuthHeader = false := by
  have hnone : Base64.decodeText q.getAuthHeader = none := decodeText_scheme _
  rw [Bool.eq_false_iff, ne_eq, verifyWebhook_iff, hnone]
  rintro ⟨h, -⟩
  cases h

/-- **No provider accepts its own header**, and none accepts another one. -/
theorem checksOwn_never (py : Py) (p : PaymeProvider) :
    ¬ p.ChecksOwn py ∧ ∀ q : PaymeProvider, p.verifyWebhook py.withBase64 q.getAuthHeader = false := by
  refine ⟨fun h => ?_, header_refused py p⟩
  have hown := h.1
  rw [header_refused] at hown
  cases hown

/-- the header of the small market's provider -/
theorem own_header_refused : ¬ ∀ p : PaymeProvider, ':' ∉ p.merchantId.toList → p.ChecksOwn demoPy := by
  intro h
  have hheader : (⟨"merchant", "key"⟩ : PaymeProvider).getAuthHeader = "Basic bWVyY2hhbnQ6a2V5" := by decide +kernel
  have hown := (h ⟨"merchant", "key"⟩ (by decide)).1
  rw [hheader] at hown
  have hno : (⟨"merchant", "key"⟩ : PaymeProvider).verifyWebhook demoPy.withBase64 "Basic bWVyY2hhbnQ6a2V5" =
      false := by decide +kernel
  rw [hno] at hown
  cases hown

/-- its credentials without the scheme are accepted -/
example : (⟨"merchant", "key"⟩ : PaymeProvider).verifyWebhook demoPy.withBase64 "bWVyY2hhbnQ6a2V5" = true := by
  decide +kernel

end GigMarketplace
