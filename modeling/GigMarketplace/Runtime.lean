/-
What the backend's code runs on: JSON values as a request carries them, exceptions, the few functions of Python's
runtime the modelled code calls, the settings, and the money helper of `apps/core/utils.py`.

The runtime functions are parameters (`Py`): every result of the development holds for all of them, so it does not
depend on how a hash, a float's printed form or a base64 decoder is computed. `Env` adds the settings, the credentials
of the payment providers (none where a setting is missing) and what the database engine does with FOR UPDATE on the
nullable side of an outer join.
-/
import Mathlib.Data.Rat.Floor

namespace GigMarketplace

/-! ## JSON -/

/-- a float as the code can see it: its value and its printed form; no value: an infinity, as `1e999` parses to -/
structure PyFloat where
  val : Option ℚ
  str : String
deriving DecidableEq, Repr

/-- `request.data`: a parsed JSON document; a form is an `obj` of strings -/
inductive Json where
  | null
  | bool (b : Bool)
  | int (n : ℤ)
  | float (x : PyFloat)
  | str (s : String)
  | arr (xs : List Json)
  | obj (fields : List (String × Json))

/-- `if value:` -/
def Json.truthy : Json → Bool
  | .null => false
  | .bool b => b
  | .int n => n ≠ 0
  | .float x => x.val ≠ some 0
  | .str s => s ≠ ""
  | .arr xs => !xs.isEmpty
  | .obj fields => !fields.isEmpty

/-- `value == n` for an int `n`: Python compares numbers across int, float and bool, and nothing else equals an int -/
def Json.eqInt : Json → ℤ → Bool
  | .bool b, n => (if b then 1 else 0) = n
  | .int m, n => m = n
  | .float x, n => x.val = some (n : ℚ)
  | _, _ => false

/-- `value == s` for a string `s` -/
def Json.eqStr : Json → String → Bool
  | .str s', s => s' = s
  | _, _ => false

/-! ## Exceptions -/

/-- what the services raise: the subclasses of GigBaseException with their message, then the exceptions of Python,
Django and the database driver -/
inductive Exc where
  | validation (msg : String)
  | notFound (msg : String)
  | conflict (msg : String)
  | forbidden (msg : String)
  | insufficientBalance (msg : String)
  | jobState (msg : String)
  | doesNotExist (model : String)
  | valueError
  | typeError
  | attributeError
  | overflowError
  /-- a CHECK, UNIQUE or FOREIGN KEY constraint, or a number outside its column's range -/
  | databaseError
  /-- FOR UPDATE cannot be applied to the nullable side of an outer join -/
  | notSupported
deriving DecidableEq, Repr

/-! ## Python's runtime -/

structure Py where
  /-- `a / b` of two ints -/
  trueDiv : ℤ → ℤ → ℚ
  /-- `int(s)` of a string; none: it raises ValueError -/
  int : String → Option ℤ
  /-- `str(x)` of a float given by its value -/
  floatStr : ℚ → String
  /-- `str(v)` of a list or a dict -/
  repr : Json → String
  /-- `hashlib.md5(s.encode()).hexdigest()` -/
  md5 : String → String
  /-- `base64.b64decode(s).decode()`; none: it raises -/
  b64decode : String → Option String
  /-- `str(e)` of an exception of Python, Django or the driver -/
  excStr : Exc → String

/-- `str(e)`: the services' own exceptions print their message -/
def Exc.str (py : Py) : Exc → String
  | .validation msg => msg
  | .notFound msg => msg
  | .conflict msg => msg
  | .forbidden msg => msg
  | .insufficientBalance msg => msg
  | .jobState msg => msg
  | e => py.excStr e

/-- `int(x)` of a float: towards zero -/
def truncate (x : ℚ) : ℤ := if 0 ≤ x then ⌊x⌋ else ⌈x⌉

/-- `f"{v}"` -/
def Json.format (py : Py) : Json → String
  | .null => "None"
  | .bool b => if b then "True" else "False"
  | .int n => toString n
  | .float x => x.str
  | .str s => s
  | v => py.repr v

/-! ## Settings -/

structure PaymeProvider where
  merchantId : String
  key : String
deriving DecidableEq, Repr

structure ClickProvider where
  serviceId : String
  merchantId : String
  secretKey : String
deriving DecidableEq, Repr

/-- what the engine does with SELECT ... FOR UPDATE when a LEFT OUTER JOIN is in the query -/
inductive OuterJoinLock where
  /-- it locks and returns the row -/
  | returned
  /-- it refuses the query, as PostgreSQL does -/
  | refused
deriving DecidableEq, Repr

structure Env where
  py : Py
  platformCommissionPercent : ℤ
  minDeposit : ℤ
  maxDeposit : ℤ
  payme : Option PaymeProvider
  click : Option ClickProvider
  outerJoinLock : OuterJoinLock
  /-- `settings.DEBUG` -/
  debug : Bool

/-! ## `apps/core/utils.py` -/

/-- commission and worker payout of a price -/
def calculateCommission (E : Env) (amount : ℤ) (percent : Option ℤ) : ℤ × ℤ :=
  -- `percent or setting`: an explicit 0 is falsy and falls through to the setting
  let commissionPercent := if percent.getD 0 ≠ 0 then percent.getD 0 else E.platformCommissionPercent
  let commission := truncate (E.py.trueDiv (amount * commissionPercent) 100)
  (commission, amount - commission)

/-- whatever the division returns, the two parts add up to the amount -/
theorem calculateCommission_add (E : Env) (amount : ℤ) (percent : Option ℤ) :
    (calculateCommission E amount percent).1 + (calculateCommission E amount percent).2 = amount := by
  simp [calculateCommission]

end GigMarketplace
