/-
Base64 as Python's `base64` module has it, over bytes and over text in UTF-8.

`encode` is `b64encode`: three bytes give four digits, the last group is padded. `decode` is `b64decode` in its default
mode, as a machine that reads one character at a time (`Decoder.step`): characters outside the alphabet are skipped,
padding ends the input only where a group can end, and what follows it is ignored. `encodeText` and `decodeText` go
through UTF-8; a text with a character that is not ASCII is refused.

Results:
- `decode_encode`, `decodeText_encodeText`: the decoder takes back what the encoder gives;
- `out_of_decode`: what has been decoded of a beginning of the input is a beginning of the output, so text in front of
  an encoding does not go away unless it consists of characters outside the alphabet;
- `isValidUTF8_cons`: where the second character starts.
-/
import Mathlib.Data.List.Basic
import Mathlib.Tactic.Common

namespace GigMarketplace.Core.Base64

/-! ## Digits -/

def digit (n : ℕ) : Char :=
  if n < 26 then Char.ofNat (65 + n)
  else if n < 52 then Char.ofNat (71 + n)
  else if n < 62 then Char.ofNat (n - 4)
  else if n = 62 then '+'
  else '/'

/-- the value of a digit; none outside the alphabet -/
def value (c : Char) : Option ℕ :=
  if 'A' ≤ c ∧ c ≤ 'Z' then some (c.toNat - 65)
  else if 'a' ≤ c ∧ c ≤ 'z' then some (c.toNat - 71)
  else if '0' ≤ c ∧ c ≤ '9' then some (c.toNat + 4)
  else if c = '+' then some 62
  else if c = '/' then some 63
  else none

theorem value_digit : ∀ n < 64, value (digit n) = some n := by decide

theorem digit_ne_pad : ∀ n < 64, digit n ≠ '=' := by decide

/-! ## The encoder -/

def encode : List UInt8 → List Char
  | [] => []
  | [a] => [digit (a.toNat / 4), digit (a.toNat % 4 * 16), '=', '=']
  | [a, b] => [digit (a.toNat / 4), digit (a.toNat % 4 * 16 + b.toNat / 16), digit (b.toNat % 16 * 4), '=']
  | a :: b :: c :: rest =>
    digit (a.toNat / 4) :: digit (a.toNat % 4 * 16 + b.toNat / 16) :: digit (b.toNat % 16 * 4 + c.toNat / 64) ::
      digit (c.toNat % 64) :: encode rest

/-! ## The decoder -/

/-- `quadPos` digits of a group have been read; `leftchar` holds the bits that are not yet in `out` -/
structure Decoder where
  quadPos : ℕ
  leftchar : ℕ
  pads : ℕ
  out : List UInt8
  done : Bool
deriving DecidableEq, Repr

def Decoder.init : Decoder := ⟨0, 0, 0, [], false⟩

/-- a digit of value `v` -/
def Decoder.push (d : Decoder) (v : ℕ) : Decoder :=
  match d.quadPos with
  | 0 => { d with quadPos := 1, leftchar := v, pads := 0 }
  | 1 => { d with quadPos := 2, leftchar := v % 16, pads := 0, out := d.out ++ [.ofNat (d.leftchar * 4 + v / 16)] }
  | 2 => { d with quadPos := 3, leftchar := v % 4, pads := 0, out := d.out ++ [.ofNat (d.leftchar * 16 + v / 4)] }
  | _ => { d with quadPos := 0, leftchar := 0, pads := 0, out := d.out ++ [.ofNat (d.leftchar * 64 + v)] }

/-- `=`: skipped before the third place of a group -/
def Decoder.pad (d : Decoder) : Decoder :=
  if 2 ≤ d.quadPos then
    if 4 ≤ d.quadPos + (d.pads + 1) then { d with done := true } else { d with pads := d.pads + 1 }
  else d

def Decoder.step (d : Decoder) (c : Char) : Decoder :=
  if d.done then d
  else if c = '=' then d.pad
  else match value c with
    | none => d
    | some v => d.push v

def Decoder.run (d : Decoder) (cs : List Char) : Decoder := cs.foldl Decoder.step d

theorem Decoder.run_append (d : Decoder) (cs cs' : List Char) : d.run (cs ++ cs') = (d.run cs).run cs' :=
  List.foldl_append

/-- none: the input ends within a group -/
def decode (cs : List Char) : Option (List UInt8) :=
  let d := Decoder.init.run cs
  if d.done ∨ d.quadPos = 0 then some d.out else none

/-! ## What has been decoded stays -/

section Prefix

variable {d : Decoder} {cs cs' : List Char} {bytes : List UInt8}

theorem out_push (d : Decoder) (v : ℕ) : d.out <+: (d.push v).out := by
  unfold Decoder.push
  split
  · exact List.prefix_rfl
  · exact List.prefix_append _ _
  · exact List.prefix_append _ _
  · exact List.prefix_append _ _

theorem out_pad (d : Decoder) : d.pad.out = d.out := by
  unfold Decoder.pad
  split_ifs <;> rfl

theorem out_step (d : Decoder) (c : Char) : d.out <+: (d.step c).out := by
  unfold Decoder.step
  split_ifs
  · exact List.prefix_rfl
  · exact ⟨[], by rw [List.append_nil, out_pad]⟩
  · cases value c with
    | none => exact List.prefix_rfl
    | some v => exact out_push d v

theorem out_run (d : Decoder) (cs : List Char) : d.out <+: (d.run cs).out := by
  induction cs generalizing d with
  | nil => exact List.prefix_rfl
  | cons c cs ih => exact (out_step d c).trans (ih (d.step c))

/-- **What is decoded of a beginning is a beginning of what is decoded.** -/
theorem out_of_decode (h : decode (cs ++ cs') = some bytes) : (Decoder.init.run cs).out <+: bytes := by
  simp only [decode, Decoder.run_append] at h
  split_ifs at h
  cases h
  exact out_run _ cs'

end Prefix

/-! ## Round trip -/

section RoundTrip

variable {d : Decoder} {v w : ℕ}

theorem step_digit (hdone : d.done = false) (hv : v < 64) : d.step (digit v) = d.push v := by
  unfold Decoder.step
  rw [if_neg (by rw [hdone]; exact Bool.false_ne_true), if_neg (digit_ne_pad v hv), value_digit v hv]

/-- the first two digits of a group give a byte -/
theorem run_first (l p : ℕ) (out : List UInt8) (hv : v < 64) (hw : w < 64) (cs : List Char) :
    (Decoder.mk 0 l p out false).run (digit v :: digit w :: cs) =
      (Decoder.mk 2 (w % 16) 0 (out ++ [.ofNat (v * 4 + w / 16)]) false).run cs := by
  change (((Decoder.mk 0 l p out false).step (digit v)).step (digit w)).run cs = _
  rw [step_digit rfl hv, step_digit rfl hw]
  rfl

theorem run_second (l p : ℕ) (out : List UInt8) (hv : v < 64) (cs : List Char) :
    (Decoder.mk 2 l p out false).run (digit v :: cs) =
      (Decoder.mk 3 (v % 4) 0 (out ++ [.ofNat (l * 16 + v / 4)]) false).run cs := by
  change ((Decoder.mk 2 l p out false).step (digit v)).run cs = _
  rw [step_digit rfl hv]
  rfl

theorem run_third (l p : ℕ) (out : List UInt8) (hv : v < 64) (cs : List Char) :
    (Decoder.mk 3 l p out false).run (digit v :: cs) =
      (Decoder.mk 0 0 0 (out ++ [.ofNat (l * 64 + v)]) false).run cs := by
  change ((Decoder.mk 3 l p out false).step (digit v)).run cs = _
  rw [step_digit rfl hv]
  rfl

theorem ofNat_eq {n : ℕ} {a : UInt8} (h : n = a.toNat) : UInt8.ofNat n = a := by
  rw [h, UInt8.ofNat_toNat]

/-- the bits of three bytes, taken apart and put together -/
theorem byte_first (a : UInt8) (r : ℕ) (hr : r < 16) :
    UInt8.ofNat (a.toNat / 4 * 4 + (a.toNat % 4 * 16 + r) / 16) = a := ofNat_eq (by omega)

theorem byte_second (m : ℕ) (b : UInt8) (r : ℕ) (hr : r < 4) :
    UInt8.ofNat ((m * 16 + b.toNat / 16) % 16 * 16 + (b.toNat % 16 * 4 + r) / 4) = b :=
  ofNat_eq (by have := b.toNat_lt; omega)

theorem byte_third (m : ℕ) (c : UInt8) :
    UInt8.ofNat ((m * 4 + c.toNat / 64) % 4 * 64 + c.toNat % 64) = c :=
  ofNat_eq (by have := c.toNat_lt; omega)

/-- a decoder that stands between two groups takes an encoding back, and stands between two groups again or is done -/
theorem run_encode (bytes : List UInt8) (l p : ℕ) (out : List UInt8) :
    ((Decoder.mk 0 l p out false).run (encode bytes)).out = out ++ bytes ∧
      (((Decoder.mk 0 l p out false).run (encode bytes)).done = true ∨
        ((Decoder.mk 0 l p out false).run (encode bytes)).quadPos = 0) := by
  have hlt : ∀ a : UInt8, a.toNat < 256 := fun a => a.toNat_lt
  induction bytes using encode.induct generalizing l p out with
  | case1 => exact ⟨(List.append_nil out).symm, Or.inr rfl⟩
  | case2 a =>
    have ha := hlt a
    have hbyte : UInt8.ofNat (a.toNat / 4 * 4 + a.toNat % 4 * 16 / 16) = a := byte_first a 0 (by omega)
    rw [encode, run_first l p out (by omega) (by omega), hbyte]
    exact ⟨rfl, Or.inl rfl⟩
  | case3 a b =>
    have ha := hlt a
    have hb := hlt b
    have hbyte : UInt8.ofNat ((a.toNat % 4 * 16 + b.toNat / 16) % 16 * 16 + b.toNat % 16 * 4 / 4) = b :=
      byte_second _ b 0 (by omega)
    rw [encode, run_first l p out (by omega) (by omega), byte_first a _ (by omega), run_second _ _ _ (by omega), hbyte]
    exact ⟨List.append_assoc out [a] [b], Or.inl rfl⟩
  | case4 a b c rest ih =>
    have ha := hlt a
    have hb := hlt b
    have hc := hlt c
    rw [encode, run_first l p out (by omega) (by omega), byte_first a _ (by omega), run_second _ _ _ (by omega),
      byte_second _ b _ (by omega), run_third _ _ _ (by omega), byte_third]
    obtain ⟨hout, hend⟩ := ih 0 0 (out ++ [a] ++ [b] ++ [c])
    refine ⟨?_, hend⟩
    calc ((Decoder.mk 0 0 0 (out ++ [a] ++ [b] ++ [c]) false).run (encode rest)).out
        = out ++ [a] ++ [b] ++ [c] ++ rest := hout
      _ = out ++ a :: b :: c :: rest := by simp only [List.append_assoc, List.cons_append, List.nil_append]

/-- **Round trip.** -/
theorem decode_encode (bytes : List UInt8) : decode (encode bytes) = some bytes := by
  obtain ⟨hout, hend⟩ := run_encode bytes 0 0 []
  unfold decode
  exact (if_pos hend).trans (congrArg some hout)

end RoundTrip

/-! ## Text -/

def encodeText (s : String) : String := String.ofList (encode s.toByteArray.data.toList)

/-- none: a character that is not ASCII, an input that ends within a group, or bytes that are not UTF-8 -/
def decodeText (s : String) : Option String :=
  if s.toList.all fun c => c.toNat < 128 then
    (decode s.toList).bind fun bytes => String.fromUTF8? bytes.toByteArray
  else none

theorem encode_ascii (bytes : List UInt8) : ∀ c ∈ encode bytes, c.toNat < 128 := by
  have hdigit : ∀ n < 64, (digit n).toNat < 128 := by decide
  have hlt : ∀ a : UInt8, a.toNat < 256 := fun a => a.toNat_lt
  induction bytes using encode.induct with
  | case1 => exact List.forall_mem_nil _
  | case2 a =>
    have ha := hlt a
    simp only [encode, List.forall_mem_cons]
    exact ⟨hdigit _ (by omega), hdigit _ (by omega), by decide, by decide, List.forall_mem_nil _⟩
  | case3 a b =>
    have ha := hlt a
    have hb := hlt b
    simp only [encode, List.forall_mem_cons]
    exact ⟨hdigit _ (by omega), hdigit _ (by omega), hdigit _ (by omega), by decide, List.forall_mem_nil _⟩
  | case4 a b c rest ih =>
    have ha := hlt a
    have hb := hlt b
    have hc := hlt c
    simp only [encode, List.forall_mem_cons]
    exact ⟨hdigit _ (by omega), hdigit _ (by omega), hdigit _ (by omega), hdigit _ (by omega), ih⟩

theorem decodeText_encodeText (s : String) : decodeText (encodeText s) = some s := by
  have hbytes : s.toByteArray.data.toList.toByteArray = s.toByteArray := ByteArray.ext (by simp)
  have hascii : (encode s.toByteArray.data.toList).all (fun c => c.toNat < 128) = true :=
    List.all_eq_true.2 fun c hc => decide_eq_true (encode_ascii _ c hc)
  unfold decodeText encodeText
  rw [String.toList_ofList, if_pos hascii, decode_encode, Option.bind_some, hbytes]
  exact dif_pos s.isValidUTF8

/-- after a character of one byte the next byte must start a character -/
theorem isValidUTF8_cons {c : Char} {b : UInt8} {bytes : List UInt8} (hc : c.utf8Size = 1)
    (h : (c.toUInt8 :: b :: bytes).toByteArray.IsValidUTF8) : b.IsUTF8FirstByte := by
  have hsplit : (c.toUInt8 :: b :: bytes).toByteArray = [c].utf8Encode ++ (b :: bytes).toByteArray := by
    rw [List.utf8Encode_singleton, String.utf8EncodeChar_eq_singleton hc, ← List.toByteArray_append]
    rfl
  rw [hsplit, ByteArray.isValidUTF8_utf8Encode_singleton_append_iff] at h
  have hpos : 0 < (b :: bytes).toByteArray.size := by simp
  have hfirst := h.isUTF8FirstByte_getElem_zero hpos
  rw [List.getElem_toByteArray] at hfirst
  exact hfirst

end GigMarketplace.Core.Base64
