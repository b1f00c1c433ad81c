/-
What a Click signature says about the fields it is computed from.

`verify_webhook` joins five fields of the payload and the merchant's two secrets without separators, as Click's protocol
has it (`ClickProvider.signString`), so characters may move between neighbouring fields under one signature.

Results:
- `accepted_iff`: a signature is accepted for exactly the payloads with one signed text;
- `signature_pins`: two payloads accepted with one signature have the same signed text, and the same fields exactly if
  the lengths of the fields agree, one field apart;
- `signature_moves`: one signature for two orders and two amounts.
-/
import GigMarketplace.Webhooks
import Mathlib.Logic.Equiv.Basic

namespace GigMarketplace

open GigMarketplace.Core

/-! ## Texts in pieces -/

section Pieces

variable {K α : Type}

/-- two families with one sum that agree off one index agree there too -/
theorem agree_of_sum {f g : K → ℕ} {ks : List K} (hks : ks.Nodup) (hsum : (ks.map f).sum = (ks.map g).sum) {k₀ : K}
    (h : ∀ k ∈ ks, k ≠ k₀ → f k = g k) : ∀ k ∈ ks, f k = g k := by
  induction ks with
  | nil => exact List.forall_mem_nil _
  | cons a ks ih =>
    obtain ⟨hnot, hrest⟩ := List.nodup_cons.1 hks
    rw [List.map_cons, List.map_cons, List.sum_cons, List.sum_cons] at hsum
    by_cases ha : a = k₀
    · subst ha
      have hsame : ∀ k ∈ ks, f k = g k := fun k hk => h k (List.mem_cons_of_mem a hk) fun heq => hnot (heq ▸ hk)
      have hsums : (ks.map f).sum = (ks.map g).sum := by rw [List.map_congr_left hsame]
      exact List.forall_mem_cons.2 ⟨by omega, hsame⟩
    · have hfirst : f a = g a := h a List.mem_cons_self ha
      have hothers := ih hrest (by omega) fun k hk => h k (List.mem_cons_of_mem a hk)
      exact List.forall_mem_cons.2 ⟨hfirst, hothers⟩

end Pieces

/-! ## The signed text -/

namespace ClickProvider

/-- the fields of a payload that are signed -/
def signedKeys : List String := ["click_trans_id", "merchant_trans_id", "amount", "action", "sign_time"]

/-- `f"{payload.get(key)}"` -/
def fieldText (py : Py) (fields : List (String × Json)) (key : String) : String :=
  ((getField fields key).getD .null).format py

/-- the payloads agree on the signed fields, as strings -/
def SameFields (py : Py) (a b : List (String × Json)) : Prop :=
  ∀ key ∈ signedKeys, fieldText py a key = fieldText py b key

/-- the signed fields but `k` have the same lengths -/
def SameLengths (py : Py) (a b : List (String × Json)) (k : String) : Prop :=
  ∀ key ∈ signedKeys, key ≠ k → (fieldText py a key).length = (fieldText py b key).length

/-- the signed text in pieces -/
def pieces (py : Py) (p : ClickProvider) (fields : List (String × Json)) : List (List Char) :=
  [(fieldText py fields "click_trans_id").toList, p.serviceId.toList, p.secretKey.toList,
    (fieldText py fields "merchant_trans_id").toList, (fieldText py fields "amount").toList,
    (fieldText py fields "action").toList, (fieldText py fields "sign_time").toList]

end ClickProvider

open ClickProvider

section Signed

variable {py : Py} {p : ClickProvider} {a b : List (String × Json)} {s : Json}

theorem toList_signString (py : Py) (p : ClickProvider) (fields : List (String × Json)) :
    (p.signString py fields).toList = (p.pieces py fields).flatten := by
  simp [ClickProvider.signString, ClickProvider.pieces, fieldText]

/-- the lengths of the fields add up to that of the signed text -/
theorem sum_lengths (py : Py) (p : ClickProvider) (fields : List (String × Json)) :
    (signedKeys.map fun key => (fieldText py fields key).length).sum + (p.serviceId.length + p.secretKey.length) =
      (p.signString py fields).length := by
  have hlength := congrArg List.length (toList_signString py p fields)
  simp only [ClickProvider.pieces, List.flatten_cons, List.flatten_nil, List.length_append, String.length_toList,
    List.length_nil] at hlength
  simp only [signedKeys, List.map_cons, List.map_nil, List.sum_cons, List.sum_nil]
  omega

/-- **Where the pieces of one text begin and end.** Payloads with one signed text have the same fields exactly if these
have the same lengths, one field apart. -/
theorem sameFields_iff (h : p.signString py a = p.signString py b) :
    SameFields py a b ↔ ∃ k, SameLengths py a b k := by
  constructor
  · intro hsame
    exact ⟨"", fun key hkey _ => congrArg String.length (hsame key hkey)⟩
  · rintro ⟨k, hlengths⟩
    have hsum : (signedKeys.map fun key => (fieldText py a key).length).sum =
        (signedKeys.map fun key => (fieldText py b key).length).sum := by
      have ha := sum_lengths py p a
      have hb := sum_lengths py p b
      rw [h] at ha
      omega
    have hall := agree_of_sum (by decide) hsum hlengths
    have hpieces : p.pieces py a = p.pieces py b := by
      refine List.eq_iff_flatten_eq.2 ⟨?_, ?_⟩
      · calc (p.pieces py a).flatten
            = (p.signString py a).toList := (toList_signString py p a).symm
          _ = (p.signString py b).toList := congrArg String.toList h
          _ = (p.pieces py b).flatten := toList_signString py p b
      · simp only [signedKeys, List.forall_mem_cons] at hall
        obtain ⟨hclick, horder, hamount, haction, htime, -⟩ := hall
        simp only [ClickProvider.pieces, List.map_cons, List.map_nil, String.length_toList, hclick, horder, hamount,
          haction, htime]
    simp only [ClickProvider.pieces, List.cons.injEq, true_and, and_true, String.toList_inj] at hpieces
    simpa only [SameFields, signedKeys, List.forall_mem_cons, List.not_mem_nil, false_implies, implies_true, and_true]
      using hpieces

theorem eqStr_eq_true {text : String} : s.eqStr text = true ↔ s = .str text := by
  cases s with
  | str text' => simp only [Json.eqStr, decide_eq_true_iff, Json.str.injEq]
  | _ => exact iff_of_false Bool.false_ne_true Json.noConfusion

/-- a signature that is accepted is accepted for all payloads with that signed text, and for no other if md5 has no
collisions -/
theorem accepted_iff (hmd5 : Function.Injective py.md5) (ha : p.verifyWebhook py a s = true) :
    p.verifyWebhook py b s = true ↔ p.signString py a = p.signString py b := by
  have hsign : s = .str (py.md5 (p.signString py a)) := eqStr_eq_true.1 ha
  constructor
  · intro hb
    have hb' : s = .str (py.md5 (p.signString py b)) := eqStr_eq_true.1 hb
    rw [hsign, Json.str.injEq] at hb'
    exact hmd5 hb'
  · intro htext
    rw [htext] at hsign
    exact eqStr_eq_true.2 hsign

/-- **What a signature pins**, if md5 has no collisions. -/
theorem signature_pins (hmd5 : Function.Injective py.md5) (ha : p.verifyWebhook py a s = true)
    (hb : p.verifyWebhook py b s = true) :
    p.signString py a = p.signString py b ∧ (SameFields py a b ↔ ∃ k, SameLengths py a b k) := by
  have htext := (accepted_iff hmd5 ha).1 hb
  exact ⟨htext, sameFields_iff htext⟩

end Signed

/-! ## One signature for two orders -/

/-- md5 on one text, and a bijection -/
def orderPy : Py :=
  { demoPy with md5 := Equiv.swap "777servicesecret12100012024-05-01 12:00:00" "b7a5df5835d62f4a1a0eb637e0bc9ebe" }

def orderCallback (order : String) (amount : ℤ) : List (String × Json) :=
  [("click_trans_id", .int 777), ("merchant_trans_id", .str order), ("amount", .int amount), ("action", .int 1),
    ("sign_time", .str "2024-05-01 12:00:00")]

def orderSign : Json := .str "b7a5df5835d62f4a1a0eb637e0bc9ebe"

theorem order_accepted : demoClick.verifyWebhook orderPy (orderCallback "1" 21000) orderSign = true := by decide +kernel

theorem moved_accepted : demoClick.verifyWebhook orderPy (orderCallback "12" 1000) orderSign = true := by decide +kernel

theorem signature_pins_orders :
    demoClick.signString orderPy (orderCallback "1" 21000) = demoClick.signString orderPy (orderCallback "12" 1000) ∧
      (SameFields orderPy (orderCallback "1" 21000) (orderCallback "12" 1000) ↔
        ∃ k, SameLengths orderPy (orderCallback "1" 21000) (orderCallback "12" 1000) k) :=
  signature_pins (Equiv.injective _) order_accepted moved_accepted

/-- what pays order 1 with 21000 pays order 12 with 1000 -/
theorem signature_moves : ¬ ∀ (py : Py) (p : ClickProvider) (a b : List (String × Json)) (s : Json),
    Function.Injective py.md5 → p.verifyWebhook py a s = true → p.verifyWebhook py b s = true → SameFields py a b := by
  intro h
  have hsame := h orderPy demoClick _ _ _ (Equiv.injective _) order_accepted moved_accepted
  have horder : "1" = "12" := hsame "merchant_trans_id" (by decide)
  exact absurd horder (by decide)

end GigMarketplace
