/-
`job_id` of a rating, from the request to the query: RatingSerializer reads a UUID, RateUserView passes its text on, and
rate_user looks a Job up by that text.

The key of a Job is a BigAutoField, and the text of a UUID is no integer: it has a minus inside. So no request that
passes RatingSerializer gets as far as the job (`post_valueError`), whatever ids there are.

DecimalField and `int(s, 16)` are parameters.
-/
import GigMarketplace.Permissions
import GigMarketplace.RatingMean

namespace GigMarketplace

open GigMarketplace.Core

/-! ## UUIDs -/

structure UUID where
  int : ℕ
  int_lt : int < 2 ^ 128

/-- `UUID(int=n)`; none: it raises ValueError -/
def UUID.ofInt (n : ℤ) : Option UUID := if h : 0 ≤ n ∧ n < 2 ^ 128 then some ⟨n.toNat, by omega⟩ else none

def isBrace (c : Char) : Bool := c = '{' ∨ c = '}'

/-- `hex.replace("urn:", "").replace("uuid:", "").strip("\x7b\x7d").replace("-", "")` -/
def UUID.bareHex (hex : String) : String :=
  let short := (hex.replace "urn:" "").replace "uuid:" ""
  String.ofList (((short.toList.dropWhile isBrace).rdropWhile isBrace).filter fun c => c ≠ '-')

/-- `UUID(hex=hex)` -/
def UUID.ofHex (int16 : String → Option ℤ) (hex : String) : Option UUID :=
  if (UUID.bareHex hex).length ≠ 32 then none else (int16 (UUID.bareHex hex)).bind UUID.ofInt

/-- `"%032x" % self.int` -/
def UUID.hex (u : UUID) : List Char := (List.range 32).map fun i => Nat.digitChar (u.int / 16 ^ (31 - i) % 16)

/-- `str(u)` -/
def UUID.str (u : UUID) : String :=
  String.ofList (u.hex.take 8 ++ '-' :: ((u.hex.drop 8).take 4 ++ '-' :: ((u.hex.drop 12).take 4 ++
    '-' :: ((u.hex.drop 16).take 4 ++ '-' :: u.hex.drop 20))))

def UUIDField.toInternalValue (int16 : String → Option ℤ) : Json → Option UUID
  | .int n => UUID.ofInt n
  | .bool b => UUID.ofInt (if b then 1 else 0)
  | .str s => UUID.ofHex int16 s
  | _ => none

/-! ## RateUserView -/

/-- what is not modelled of the serializer -/
structure RatingFields where
  /-- the DecimalField `rating` -/
  decimal : Json → Option Stars
  /-- `int(s, 16)`; none: it raises ValueError -/
  int16 : String → Option ℤ

/-- `validated_data` -/
structure RatingData where
  rating : Stars
  comment : String
  jobId : UUID

namespace RatingSerializer

/-- declared as the reason of CancelJobSerializer is; where the request has none, the view takes the empty text -/
def comment (v : Option Json) : Option String := CancelJobSerializer.reason v

def validate (F : RatingFields) : Json → Option RatingData
  | .obj fields => do
    let rating ← (getField fields "rating").bind F.decimal
    let comment ← comment (getField fields "comment")
    let jobId ← (getField fields "job_id").bind (UUIDField.toInternalValue F.int16)
    return ⟨rating, comment, jobId⟩
  | _ => none

end RatingSerializer

/-- rate_user does not read the comment -/
def RateUserView.post (E : Env) (F : RatingFields) (rater userId : Pk) (data : Json) : Call Unit := do
  let target ← Account.getActiveOr404 userId
  let validated ← Code.ofExcept ((RatingSerializer.validate F data).elim (.error .fieldError) .ok)
  UserService.rateUser E rater target (some validated.rating.value) validated.jobId.str

/-- the request is resolved to the job `n`, and the user is rated -/
def RatedById (E : Env) (F : RatingFields) (s : Site) (rater userId : Pk) (data : Json) (n : Pk) : Prop :=
  ∃ validated, RatingSerializer.validate F data = some validated ∧ E.py.int validated.jobId.str = some n ∧
    (RateUserView.post E F rater userId data).run s = (.ok (), rateOnce userId s validated.rating)

/-! ## The text of a UUID -/

/-- a minus after something that is no white space: `int(s)` takes a sign in front only -/
def MinusInside (s : String) : Prop :=
  ∃ before after, s.toList = before ++ '-' :: after ∧ ∃ c ∈ before, isSpace c = false

theorem digitChar_not_space {d : ℕ} (h : d < 16) : isSpace (Nat.digitChar d) = false := by
  revert d
  decide

theorem UUID.minusInside (u : UUID) : MinusInside u.str := by
  have hfirst : Nat.digitChar (u.int / 16 ^ 31 % 16) ∈ u.hex.take 8 := by
    simp [UUID.hex, List.range_succ_eq_map]
  exact ⟨u.hex.take 8, _, String.toList_ofList, _, hfirst, digitChar_not_space (Nat.mod_lt _ (by decide))⟩

section Lookup

variable {E : Env} {F : RatingFields} {s : Site} {rater userId : Pk} {target : Account} {data : Json}
  {validated : RatingData}

/-- a request that passes the serializer fails in the lookup of the job -/
theorem post_valueError (hint : ∀ text, MinusInside text → E.py.int text = none)
    (htarget : s.accounts.find userId = some target) (hactive : target.isActive = true)
    (hdata : RatingSerializer.validate F data = some validated) :
    (RateUserView.post E F rater userId data).run s = (.error (.exc .valueError), s) := by
  have hload : (Account.getActiveOr404 userId).run s = (.ok target, s) := by
    rw [Account.getActiveOr404, Code.run_query, htarget]
    simp [hactive]
  have hjob : (Job.getCompleted E validated.jobId.str).run s = (.error (.exc .valueError), s) := by
    rw [Job.getCompleted, Code.run_query, hint _ validated.jobId.minusInside]
  rw [RateUserView.post, Code.run_bind_ok hload, hdata, Option.elim_some, Code.run_bind_ok (Code.run_ofExcept _ _),
    UserService.rateUser, Code.run_bind_error hjob]

theorem not_ratedById (hint : ∀ text, MinusInside text → E.py.int text = none)
    (htarget : s.accounts.find userId = some target) (hactive : target.isActive = true) (n : Pk) :
    ¬ RatedById E F s rater userId data n := by
  rintro ⟨validated, hdata, -, hrun⟩
  rw [post_valueError hint htarget hactive hdata] at hrun
  cases hrun

end Lookup

/-- **No job can be rated by its id**, whoever rates whom and whatever `job_id` names -/
theorem rated_by_id_never {E : Env} {F : RatingFields} (hint : ∀ text, MinusInside text → E.py.int text = none)
    {s : Site} {rater userId : Pk} {target : Account} (htarget : s.accounts.find userId = some target)
    (hactive : target.isActive = true) {data : Json} {validated : RatingData}
    (hdata : RatingSerializer.validate F data = some validated) :
    (∀ n, ¬ RatedById E F s rater userId data n) ∧
      (RateUserView.post E F rater userId data).run s = (.error (.exc .valueError), s) :=
  ⟨not_ratedById hint htarget hactive, post_valueError hint htarget hactive hdata⟩

/-- DecimalField knows the number 5 -/
def demoFields : RatingFields where
  decimal v := if v.eqInt 5 then some ⟨50, by decide⟩ else none
  int16 _ := none

/-- 5.0 for the job 1 -/
def demoRating : Json := .obj [("rating", .int 5), ("job_id", .int 1)]

theorem demoRating_valid :
    RatingSerializer.validate demoFields demoRating = some ⟨⟨50, by decide⟩, "", ⟨1, by decide⟩⟩ := rfl

theorem demoOneJob_worker : demoOneJob.accounts.find 2 = some (newAccount 2 "+998907654321" "worker" 0) := rfl

theorem demoPy_int : ∀ text, MinusInside text → demoEnv.py.int text = none := by
  rintro text ⟨before, after, htext, c, hc, -⟩
  have hne : text ≠ "1" := by
    rintro rfl
    have hlen := congrArg List.length htext
    have hpos := List.length_pos_of_mem hc
    simp at hlen
    omega
  simp [demoEnv, demoPy, hne]

theorem rated_by_id_never_demo :
    (∀ n, ¬ RatedById demoEnv demoFields demoOneJob 1 2 demoRating n) ∧
      (RateUserView.post demoEnv demoFields 1 2 demoRating).run demoOneJob = (.error (.exc .valueError), demoOneJob) :=
  rated_by_id_never demoPy_int demoOneJob_worker rfl demoRating_valid

/-- the job 1 is COMPLETED, and its employer cannot rate its worker for it -/
theorem completed_job_unrated :
    (∃ j, demoOneJob.db.jobs.find 1 = some j ∧ j.status = .completed ∧ j.employer = 1 ∧ j.worker = some 2) ∧
      (demoOneJob.accounts.find 2).any Account.isActive ∧
      (∃ validated, RatingSerializer.validate demoFields demoRating = some validated ∧ validated.jobId.int = 1) ∧
      ¬ RatedById demoEnv demoFields demoOneJob 1 2 demoRating 1 := by
  have hjob : (demoOneJob.db.jobs.find 1).any fun j => j.status = .completed ∧ j.employer = 1 ∧ j.worker = some 2 := by
    decide +kernel
  obtain ⟨j, hj, hparties⟩ := (Option.any_eq_true _ _).1 hjob
  refine ⟨⟨j, hj, of_decide_eq_true hparties⟩, by rw [demoOneJob_worker]; rfl, ⟨_, demoRating_valid, rfl⟩, ?_⟩
  exact not_ratedById demoPy_int demoOneJob_worker rfl 1

end GigMarketplace
