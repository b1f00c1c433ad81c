/-
What the views use of Python's strings and of Django REST framework's fields.

A field gives the value that `validated_data` holds, or none where it raises ValidationError. `RestEnv` holds the two
pieces that are not modelled: the phone number parser behind PhoneNumberField and the Unicode table behind `isdigit`.
-/
import GigMarketplace.Webhooks
import Mathlib.Data.List.DropRight

namespace GigMarketplace

/-! ## Strings -/

/-- `c.isspace()` -/
def isSpace (c : Char) : Bool :=
  (9 ≤ c.toNat ∧ c.toNat ≤ 13) ∨ (28 ≤ c.toNat ∧ c.toNat ≤ 32) ∨ c.toNat = 0x85 ∨ c.toNat = 0xA0 ∨ c.toNat = 0x1680 ∨
    (0x2000 ≤ c.toNat ∧ c.toNat ≤ 0x200A) ∨ c.toNat = 0x2028 ∨ c.toNat = 0x2029 ∨ c.toNat = 0x202F ∨
    c.toNat = 0x205F ∨ c.toNat = 0x3000

/-- `s.strip()` -/
def strip (s : String) : String := String.ofList ((s.toList.dropWhile isSpace).rdropWhile isSpace)

/-- nothing but white space -/
def Blank (s : String) : Prop := ∀ c ∈ s.toList, isSpace c = true

instance (s : String) : Decidable (Blank s) := List.decidableBAll _ _

/-- what is left ends in something else -/
theorem not_blank_strip {s : String} (h : strip s ≠ "") : ¬ Blank (strip s) := by
  intro hblank
  have hne : (s.toList.dropWhile isSpace).rdropWhile isSpace ≠ [] := by
    intro hnil
    exact h (by rw [strip, hnil])
  have hlast := List.rdropWhile_last_not isSpace _ hne
  apply hlast
  apply hblank
  rw [strip, String.toList_ofList]
  exact List.getLast_mem hne

/-- `"\x00" in s` -/
def hasNull (s : String) : Bool := s.toList.contains (Char.ofNat 0)

/-! ## Fields -/

structure RestEnv where
  /-- PhoneNumberField: the E.164 form -/
  phoneNumber : Json → Option String
  /-- `s.isdigit()` -/
  isDigit : String → Bool

/-- the text of a value that a CharField takes: strings, and numbers as they print -/
def fieldText : Json → Option String
  | .str s => some s
  | .int n => some (toString n)
  | .float x => some x.str
  | _ => none

/-- `CharField(min_length=minLength, max_length=maxLength)`: white space around the text is dropped, a blank text and a
null character are refused -/
def charField (minLength maxLength : ℕ) (v : Json) : Option String :=
  (fieldText v).bind fun s =>
    if strip s = "" ∨ hasNull (strip s) ∨ (strip s).length < minLength ∨ maxLength < (strip s).length then none
    else some (strip s)

/-- a value that the field lets through -/
theorem charField_some {minLength maxLength : ℕ} {v : Json} {text : String}
    (h : charField minLength maxLength v = some text) :
    ¬ Blank text ∧ minLength ≤ text.length ∧ text.length ≤ maxLength := by
  obtain ⟨s, -, hs⟩ := Option.bind_eq_some_iff.1 h
  split_ifs at hs with hbad
  cases hs
  simp only [not_or] at hbad
  exact ⟨not_blank_strip hbad.1, Nat.le_of_not_lt hbad.2.2.1, Nat.le_of_not_lt hbad.2.2.2⟩

end GigMarketplace
