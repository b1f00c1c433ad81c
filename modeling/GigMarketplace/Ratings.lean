/-
Ratings: what `rating` and `rating_count` of a user say about the calls of rate_user, in any interleaving.

A call loads the target, reads the job and checks who rates whom (`RatingAllowed`), computes the new average from the
loaded row and saves two columns. `update_rating` takes no lock, so a call that loads before another one's save undoes
it; and nothing remembers who has rated which job, though `JobReview` declares one review per party and job.

Results, for every interleaving of rate_user calls and service transactions:
- `load_cases`, `check_cases`, `save_cases`, `service_cases`: what each statement does;
- `ratings_kept_iff`: count and average of a user are those of all the accepted calls exactly if no accepted call
  loaded the user before an earlier one's save (`Sequential`); `rating_lost` is two calls that overlap;
- `one_rating_per_party`: if no party's call is accepted twice for one job, no rating_count exceeds the number of
  COMPLETED jobs of the user; `rated_twice` is a party that rates a job twice.
-/
import GigMarketplace.Accounts
import GigMarketplace.Lifecycle

namespace GigMarketplace

open GigMarketplace.Core

/-! ## Calls that rate -/

/-- what rate_user checks: the job is COMPLETED and the two are its parties -/
def RatingAllowed (E : Env) (db : DB) (rater target : Pk) (jobId : String) : Prop :=
  ∃ i j, E.py.int jobId = some i ∧ db.jobs.find i = some j ∧ j.status = .completed ∧
    (rater = j.employer ∨ j.worker = some rater) ∧ (target = j.employer ∨ j.worker = some target) ∧ rater ≠ target

/-- rate_user and the service transactions -/
def AccountOp.RatesOrServes : AccountOp → Prop
  | .rateUser .. => True
  | .service _ => True
  | _ => False

/-- the rating of `u` that the entry saves, if a call of rate_user returned with it -/
def ratingOf (u : Pk) (e : AccountEntry) : Option (Save ℚ) :=
  match e.op, e.result with
  | .rateUser _ target rating _, some (.ok _) => if target = u then some ⟨rating.getD 0, e.begun, e.pos⟩ else none
  | _, _ => none

/-- the accepted ratings of `u`, in the order of their saves -/
def ratingSaves (u : Pk) (tr : List AccountEntry) : List (Save ℚ) := tr.filterMap (ratingOf u)

/-- the two columns of a row -/
def Account.score (a : Account) : ℚ × ℕ := (a.rating, a.ratingCount)

/-- one more rating -/
def rateScore (score : ℚ × ℕ) (rating : ℚ) : ℚ × ℕ := (averaged score.1 score.2 rating, score.2 + 1)

theorem rateScore_count (score : ℚ × ℕ) (rating : ℚ) : (rateScore score rating).2 = score.2 + 1 := rfl

/-! ## Statements -/

section Statements

variable {E : Env} {s : Site} {f : Site → Site} {next : Site → Call Unit} {rater target : Pk} {rating : Option ℚ}
  {jobId : String} {v : Account}

/-- the first statement loads the target -/
theorem load_cases (h : AccountOp.code E (.rateUser rater target rating jobId) = .stmt f next) :
    f s = s ∧ ((∃ e, next s = .raise e) ∨
      ∃ v, s.accounts.find target = some v ∧ next s = UserService.rateUser E rater v rating jobId) := by
  injection h with hf hnext
  subst hf hnext
  refine ⟨rfl, ?_⟩
  cases hv : s.accounts.find target with
  | none => exact Or.inl ⟨.http404, by simp only [hv]; rfl⟩
  | some v =>
    by_cases ha : v.isActive = true
    · exact Or.inr ⟨v, rfl, by simp only [hv, ha, if_true]; rfl⟩
    · exact Or.inl ⟨.http404, by simp only [hv, ha, Bool.false_eq_true, if_false]; rfl⟩

/-- the checks and the save, for the job `j` -/
def rateFor (rater : Pk) (v : Account) (rating : Option ℚ) (j : Job) : Call Unit := do
  Code.raiseIf (¬ (rater = j.employer ∨ j.worker = some rater)) (.exc (.forbidden "You were not involved in this job."))
  Code.raiseIf (¬ (v.id = j.employer ∨ j.worker = some v.id))
    (.exc (.forbidden "Target user was not involved in this job."))
  Code.raiseIf (rater = v.id) (.exc (.validation "You cannot rate yourself."))
  v.updateRating rating

theorem rateFor_cases (rater : Pk) (v : Account) (rating : Option ℚ) (j : Job) :
    (∃ e, rateFor rater v rating j = .raise e) ∨
      ((rater = j.employer ∨ j.worker = some rater) ∧ (v.id = j.employer ∨ j.worker = some v.id) ∧ rater ≠ v.id ∧
        rateFor rater v rating j = v.updateRating rating) := by
  unfold rateFor
  rcases Code.raiseIf_bind_cases (¬ (rater = j.employer ∨ j.worker = some rater)) _ _ with hraise | ⟨hrater, hgo⟩
  · exact Or.inl ⟨_, hraise⟩
  rcases Code.raiseIf_bind_cases (¬ (v.id = j.employer ∨ j.worker = some v.id)) _ _ with hraise | ⟨htarget, hgo'⟩
  · exact Or.inl ⟨_, hgo.trans hraise⟩
  rcases Code.raiseIf_bind_cases (rater = v.id) _ _ with hraise | ⟨hself, hgo''⟩
  · exact Or.inl ⟨_, hgo.trans (hgo'.trans hraise)⟩
  · exact Or.inr ⟨not_not.1 hrater, not_not.1 htarget, hself, hgo.trans (hgo'.trans hgo'')⟩

/-- the second one reads the job; the checks follow -/
theorem check_cases (h : UserService.rateUser E rater v rating jobId = .stmt f next) :
    f s = s ∧ ((∃ e, next s = .raise e) ∨
      (RatingAllowed E s.db rater v.id jobId ∧ next s = v.updateRating rating)) := by
  injection h with hf hnext
  subst hf hnext
  refine ⟨rfl, ?_⟩
  cases hid : E.py.int jobId with
  | none => exact Or.inl ⟨.exc .valueError, rfl⟩
  | some i =>
    cases hj : s.db.jobs.find i with
    | none => exact Or.inl ⟨.exc (.notFound "Job not found or not completed."), by simp only [hj]; rfl⟩
    | some j =>
      by_cases hstatus : j.status = .completed
      · simp only [hj, hstatus, if_true]
        rcases rateFor_cases rater v rating j with hraise | ⟨hrater, htarget, hself, hgo⟩
        · exact Or.inl hraise
        · exact Or.inr ⟨⟨i, j, hid, hj, hstatus, hrater, htarget, hself⟩, hgo⟩
      · left
        exact ⟨.exc (.notFound "Job not found or not completed."), by simp only [hj, hstatus, if_false]; rfl⟩

/-- the last one saves the two columns -/
theorem save_cases (h : v.updateRating rating = .stmt f next) :
    (f s = s ∧ ∃ e, next s = .raise e) ∨
      ∃ x row, rating = some x ∧ s.accounts.find v.id = some row ∧ next s = .ret () ∧
        f s = { s with accounts := s.accounts.update v.id fun r =>
          { r with rating := (rateScore v.score x).1, ratingCount := (rateScore v.score x).2 } } := by
  cases rating with
  | none => cases h
  | some x =>
    injection h with hf hnext
    subst hf hnext
    unfold Code.effect
    cases hrow : s.accounts.find v.id with
    | none => exact Or.inl ⟨by simp only [hrow], .exc .databaseError, by simp only [hrow]; rfl⟩
    | some row =>
      by_cases hcols : |averaged v.rating v.ratingCount x| < 10 ∧ v.ratingCount + 1 ≤ ratingCountMax
      · right
        refine ⟨x, row, rfl, rfl, ?_, ?_⟩
        · simp only [hrow, hcols, and_self, if_true]
          rfl
        · simp only [hrow, hcols, and_self, if_true]
          rfl
      · left
        refine ⟨?_, .exc .databaseError, ?_⟩
        · simp only [hrow, hcols, if_false]
        · simp only [hrow, hcols, if_false]
          rfl

/-- a service transaction is one statement and leaves the accounts -/
theorem service_cases {op : Op} (h : serviceCall E op = .stmt f next) :
    (next s).result.isSome ∧ (f s).accounts = s.accounts ∧ ((f s).db = s.db ∨ Step E s.db op (f s).db) := by
  injection h with hf hnext
  subst hf hnext
  unfold Code.effect
  cases hx : exec store (op.prog E) s.db with
  | ok x =>
    have hrun : Runs store (op.prog E) s.db x.1 x.2 := hx
    simp only [hx]
    exact ⟨rfl, trivial, Or.inr (runs_prog.1 hrun)⟩
  | error e =>
    simp only [hx]
    exact ⟨rfl, trivial, Or.inl trivial⟩

end Statements

/-! ## The invariant -/

section Invariant

variable {E : Env} {u : Pk} {row₀ : Option Account} {s : Site} {tr : List AccountEntry}
  {r : Running Site Failure Unit AccountOp}

/-- where a call that has loaded the row `v` is -/
inductive RateStage (E : Env) (db : DB) (rater : Pk) (v : Account) (rating : Option ℚ) (jobId : String) :
    Call Unit → Prop where
  | loaded : RateStage E db rater v rating jobId (UserService.rateUser E rater v rating jobId)
  | checked (h : RatingAllowed E db rater v.id jobId) : RateStage E db rater v rating jobId (v.updateRating rating)

/-- a running call of rate_user; if it rates `u`, whose row was `row₀`, its copy tracks the saves before it began -/
structure Rating (E : Env) (u : Pk) (row₀ : Option Account) (s : Site) (tr : List AccountEntry)
    (r : Running Site Failure Unit AccountOp) (rater : Pk) (v : Account) (rating : Option ℚ) (jobId : String) :
    Prop where
  op : r.op = .rateUser rater v.id rating jobId
  stage : RateStage E s.db rater v rating jobId r.rest
  begun : r.begun ≤ tr.length
  tracks : v.id = u → ∀ a₀, row₀ = some a₀ →
    Tracks rateScore Prod.snd a₀.score ((ratingSaves u tr).filter fun q => q.pos < r.begun) v.score

def UnderWay (E : Env) (u : Pk) (row₀ : Option Account) (s : Site) (tr : List AccountEntry)
    (r : Running Site Failure Unit AccountOp) : Prop :=
  ∃ rater v rating jobId, Rating E u row₀ s tr r rater v rating jobId

/-- an accepted call of rate_user -/
def Accepted (e : AccountEntry) (rater target : Pk) (jobId : String) : Prop :=
  ∃ rating, e.op = .rateUser rater target rating jobId ∧ e.result = some (.ok ())

/-- the row of `u` tracks the accepted calls, and these were allowed -/
structure Rated (E : Env) (u : Pk) (row₀ : Option Account) (s : Site) (tr : List AccountEntry) : Prop where
  row : Option.Rel (fun a₀ a => Tracks rateScore Prod.snd a₀.score (ratingSaves u tr) a.score) row₀
    (s.accounts.find u)
  pos : ∀ q ∈ ratingSaves u tr, q.pos < tr.length
  allowed : ∀ e ∈ tr, ∀ rater target jobId, Accepted e rater target jobId → RatingAllowed E s.db rater target jobId

/-- a COMPLETED job stays as it is -/
theorem RatingAllowed.step {db db' : DB} {op : Op} {rater target : Pk} {jobId : String}
    (h : RatingAllowed E db rater target jobId) (hs : Step E db op db') : RatingAllowed E db' rater target jobId := by
  obtain ⟨i, j, hid, hj, hstatus, hparties⟩ := h
  obtain ⟨j', hj', hsame | hmove⟩ := hs.job_kept hj
  · rw [hsame] at hj'
    exact ⟨i, j, hid, hj', hstatus, hparties⟩
  · rcases hmove.isOpen with h | h | h <;> rw [hstatus] at h <;> cases h

theorem ratingSaves_snoc (u : Pk) (tr : List AccountEntry) (e : AccountEntry) :
    ratingSaves u (tr ++ [e]) = ratingSaves u tr ++ (ratingOf u e).toList := by
  cases h : ratingOf u e <;> simp [ratingSaves, h]

/-- a save is at the position of its entry -/
theorem ratingOf_pos {e : AccountEntry} {q : Save ℚ} (h : ratingOf u e = some q) : q.pos = e.pos := by
  unfold ratingOf at h
  split at h
  · split_ifs at h
    cases h
    rfl
  · cases h

/-- only a call that returns saves a rating -/
theorem ratingOf_none {e : AccountEntry} (h : ∀ rater target jobId, ¬ Accepted e rater target jobId) :
    ratingOf u e = none := by
  unfold ratingOf
  split
  · rename_i rater target rating jobId x hop hres
    exact absurd ⟨rating, hop, hres⟩ (h rater target jobId)
  · rfl

/-- entries of other calls do not change what was saved before a call began -/
theorem filter_snoc (e : AccountEntry) (he : e.pos = tr.length) {b : ℕ} (hb : b ≤ tr.length) :
    ((ratingSaves u (tr ++ [e])).filter fun q => q.pos < b) = (ratingSaves u tr).filter fun q => q.pos < b := by
  have hnew : ((ratingOf u e).toList.filter fun q => q.pos < b) = [] := by
    refine List.filter_eq_nil_iff.2 fun q hq => ?_
    have hpos : q.pos = tr.length := (ratingOf_pos (by simpa using hq)).trans he
    simp [hpos, hb]
  rw [ratingSaves_snoc, List.filter_append, hnew, List.append_nil]

variable {s' : Site} {f : Site → Site} {next : Site → Call Unit}

/-- the tables of the services are as they were, or a service has made a step -/
def DbStep (E : Env) (s s' : Site) : Prop := s'.db = s.db ∨ ∃ op, Step E s.db op s'.db

theorem RatingAllowed.dbStep {rater target : Pk} {jobId : String} (h : RatingAllowed E s.db rater target jobId)
    (hdb : DbStep E s s') : RatingAllowed E s'.db rater target jobId := by
  rcases hdb with hsame | ⟨op, hs⟩
  · rw [hsame]; exact h
  · exact h.step hs

theorem RateStage.dbStep {rater : Pk} {v : Account} {rating : Option ℚ} {jobId : String} {p : Call Unit}
    (h : RateStage E s.db rater v rating jobId p) (hdb : DbStep E s s') : RateStage E s'.db rater v rating jobId p := by
  cases h with
  | loaded => exact .loaded
  | checked hallowed => exact .checked (hallowed.dbStep hdb)

/-- another call's statement leaves a running call under way -/
theorem UnderWay.keep (h : UnderWay E u row₀ s tr r) (hdb : DbStep E s s') {e : AccountEntry}
    (he : e.pos = tr.length) : UnderWay E u row₀ s' (tr ++ [e]) r := by
  obtain ⟨rater, v, rating, jobId, hop, hstage, hbegun, htracks⟩ := h
  refine ⟨rater, v, rating, jobId, hop, hstage.dbStep hdb, ?_, fun hv => ?_⟩
  · rw [List.length_append]
    exact Nat.le_add_right_of_le hbegun
  · intro a₀ ha₀
    rw [filter_snoc e he hbegun]
    exact htracks hv a₀ ha₀

/-- an entry that accepts no rating and leaves the row of `u` -/
theorem Rated.quiet (h : Rated E u row₀ s tr) (hrow : s'.accounts.find u = s.accounts.find u) (hdb : DbStep E s s')
    {e : AccountEntry} (hno : ∀ rater target jobId, ¬ Accepted e rater target jobId) :
    Rated E u row₀ s' (tr ++ [e]) := by
  have hsaves : ratingSaves u (tr ++ [e]) = ratingSaves u tr := by
    rw [ratingSaves_snoc, ratingOf_none hno]
    exact List.append_nil _
  refine ⟨?_, fun q hq => ?_, fun e' he' rater target jobId hacc => ?_⟩
  · rw [hrow, hsaves]
    exact h.row
  · rw [hsaves] at hq
    rw [List.length_append]
    exact Nat.lt_add_right _ (h.pos q hq)
  · rcases List.mem_append.1 he' with he' | he'
    · exact (h.allowed e' he' rater target jobId hacc).dbStep hdb
    · rw [List.mem_singleton.1 he'] at hacc
      exact absurd hacc (hno rater target jobId)

/-- **A save**: the call that loaded `v` is accepted with the rating `x`. -/
theorem Rated.saved (h : Rated E u row₀ s tr) {rater : Pk} {v row : Account} {x : ℚ} {jobId : String}
    (hcall : Rating E u row₀ s tr r rater v (some x) jobId) (hallowed : RatingAllowed E s.db rater v.id jobId)
    (hrow : s.accounts.find v.id = some row) {e : AccountEntry} (hop : e.op = r.op) (hbegun : e.begun = r.begun)
    (hpos : e.pos = tr.length) (hres : e.result = some (.ok ())) :
    Rated E u row₀ { s with accounts := s.accounts.update v.id fun a =>
      { a with rating := (rateScore v.score x).1, ratingCount := (rateScore v.score x).2 } } (tr ++ [e]) := by
  have hop' : e.op = .rateUser rater v.id (some x) jobId := hop.trans hcall.op
  have hof : ratingOf u e = if v.id = u then some ⟨x, e.begun, e.pos⟩ else none := by
    unfold ratingOf
    rw [hop', hres]
    rfl
  refine ⟨?_, fun q hq => ?_, fun e' he' rater' target' jobId' hacc => ?_⟩
  · rw [ratingSaves_snoc, hof]
    by_cases hu : v.id = u
    · -- the saves that the call has seen are those before it began
      have hpresent := h.row
      have htracks := hcall.tracks hu
      subst hu
      rw [hrow] at hpresent
      rw [← hbegun] at htracks
      rw [if_pos rfl, Table.find_update_self hrow rfl]
      cases row₀ with
      | none => cases hpresent
      | some a₀ => exact .some (Tracks.save (s := ⟨x, e.begun, e.pos⟩) rateScore_count (htracks a₀ rfl))
    · rw [if_neg hu, Option.toList_none, List.append_nil, Table.find_update_ne hu]
      exact h.row
  · rw [List.length_append]
    rw [ratingSaves_snoc] at hq
    rcases List.mem_append.1 hq with hq | hq
    · exact Nat.lt_add_right _ (h.pos q hq)
    · have hqpos : q.pos = tr.length := (ratingOf_pos (by simpa using hq)).trans hpos
      simp [hqpos]
  · rcases List.mem_append.1 he' with he' | he'
    · exact h.allowed e' he' rater' target' jobId' hacc
    · obtain ⟨rating, hop'', -⟩ := hacc
      rw [List.mem_singleton.1 he', hop'] at hop''
      cases hop''
      exact hallowed

/-- a call that may execute a statement leaves the services' tables, or makes a step on them -/
theorem ready_dbStep (hr : Ready (AccountOp.code E) AccountOp.RatesOrServes (UnderWay E u row₀) s tr r)
    (hrest : r.rest = .stmt f next) : DbStep E s (f s) := by
  rcases hr with ⟨o, hok, rfl⟩ | ⟨rater, v, rating, jobId, hcall⟩
  · cases o with
    | rateUser rater target rating jobId =>
      have hsame : f s = s := (load_cases hrest).1
      exact Or.inl (congrArg Site.db hsame)
    | service op => exact (service_cases hrest).2.2.imp_right fun hs => ⟨op, hs⟩
    | _ => exact absurd hok id
  · have hstage := hcall.stage
    rw [hrest] at hstage
    generalize hp : Code.stmt f next = p at hstage
    cases hstage with
    | loaded =>
      have hsame : f s = s := (check_cases hp.symm).1
      exact Or.inl (congrArg Site.db hsame)
    | checked hallowed =>
      rcases save_cases (s := s) hp.symm with ⟨hsame, -⟩ | ⟨x, row, -, -, -, hsave⟩
      · exact Or.inl (congrArg Site.db hsame)
      · exact Or.inl (by rw [hsave])

theorem not_accepted_running {c pos : ℕ} {rest : Call Unit} (h : rest.result ≠ some (.ok ())) (rater target : Pk)
    (jobId : String) : ¬ Accepted (r.entry c pos s f rest) rater target jobId := fun hacc => by
  obtain ⟨rating, -, hres⟩ := hacc
  exact h hres

/-- a statement that changes nothing and after which the call has not returned -/
theorem Rated.unchanged (h : Rated E u row₀ s tr) (hsame : f s = s) (hnot : (next s).result ≠ some (.ok ())) (c : ℕ) :
    Rated E u row₀ (f s) (tr ++ [r.entry c tr.length s f (next s)]) := by
  rw [hsame]
  exact h.quiet rfl (Or.inl rfl) (not_accepted_running hnot)

/-- a statement after which the call has raised -/
theorem Rated.raised (h : Rated E u row₀ s tr) (hsame : f s = s) {x : Failure} (hnext : next s = .raise x) (c : ℕ) :
    r.Advances (Rated E u row₀) (UnderWay E u row₀) c s tr f next := by
  have hnot : (next s).result ≠ some (.ok ()) := by
    rw [hnext]
    simp [Code.result]
  exact ⟨h.unchanged hsame hnot c, fun hres => absurd hres (Code.ended_of_raise hnext)⟩

/-- the first statement: the copy is the row as it is now -/
theorem Rated.load (h : Rated E u row₀ s tr) {rater target : Pk} {rating : Option ℚ} {jobId : String}
    (hop : r.op = .rateUser rater target rating jobId) (hbegun : r.begun = tr.length)
    (hcode : AccountOp.code E (.rateUser rater target rating jobId) = .stmt f next) (c : ℕ) :
    r.Advances (Rated E u row₀) (UnderWay E u row₀) c s tr f next := by
  obtain ⟨hsame, ⟨x, hnext⟩ | ⟨v, hv, hnext⟩⟩ := load_cases (s := s) hcode
  · exact h.raised hsame hnext c
  have htarget : v.id = target := Table.pk_of_find hv
  have hnot : (next s).result ≠ some (.ok ()) := by
    rw [hnext]
    simp [UserService.rateUser, Job.getCompleted, Code.query, Bind.bind, Code.bind, Code.result]
  refine ⟨h.unchanged hsame hnot c, fun _ => ?_⟩
  rw [hsame]
  refine ⟨rater, v, rating, jobId, ?_, ?_, ?_, ?_⟩
  · rw [htarget]
    exact hop
  · rw [hnext]
    exact .loaded
  · rw [List.length_append]
    exact Nat.le_add_right_of_le hbegun.le
  · intro hu a₀ ha₀
    have hrow := h.row
    rw [ha₀, ← hu, htarget, hv] at hrow
    have hseen : ((ratingSaves u tr).filter fun q => q.pos < tr.length) = ratingSaves u tr :=
      List.filter_eq_self.2 fun q hq => decide_eq_true (h.pos q hq)
    rw [show ({ r with rest := next s } : Running _ _ _ _).begun = tr.length from hbegun,
      filter_snoc _ rfl (Nat.le_refl _), hseen]
    cases hrow with
    | some htracks =>
      rw [← hu, htarget]
      exact htracks

/-- the second statement: the job allows the rating -/
theorem Rated.check (h : Rated E u row₀ s tr) {rater : Pk} {v : Account} {rating : Option ℚ} {jobId : String}
    (hcall : Rating E u row₀ s tr r rater v rating jobId)
    (hcode : UserService.rateUser E rater v rating jobId = .stmt f next) (c : ℕ) :
    r.Advances (Rated E u row₀) (UnderWay E u row₀) c s tr f next := by
  obtain ⟨hsame, ⟨x, hnext⟩ | ⟨hallowed, hnext⟩⟩ := check_cases (s := s) hcode
  · exact h.raised hsame hnext c
  have hnot : (next s).result ≠ some (.ok ()) := by
    rw [hnext]
    cases rating <;> simp [Account.updateRating, Code.result, Code.act]
  refine ⟨h.unchanged hsame hnot c, fun _ => ?_⟩
  rw [hsame]
  refine ⟨rater, v, rating, jobId, hcall.op, ?_, ?_, ?_⟩
  · rw [hnext]
    exact .checked hallowed
  · rw [List.length_append]
    exact Nat.le_add_right_of_le hcall.begun
  · intro hu a₀ ha₀
    rw [filter_snoc _ rfl hcall.begun]
    exact hcall.tracks hu a₀ ha₀

/-- the last statement saves -/
theorem Rated.save (h : Rated E u row₀ s tr) {rater : Pk} {v : Account} {rating : Option ℚ} {jobId : String}
    (hcall : Rating E u row₀ s tr r rater v rating jobId) (hallowed : RatingAllowed E s.db rater v.id jobId)
    (hcode : v.updateRating rating = .stmt f next) (c : ℕ) :
    r.Advances (Rated E u row₀) (UnderWay E u row₀) c s tr f next := by
  rcases save_cases (s := s) hcode with ⟨hsame, x, hnext⟩ | ⟨x, row, rfl, hrow, hnext, hsave⟩
  · exact h.raised hsame hnext c
  · refine ⟨?_, fun hres => absurd hres (Code.ended_of_ret hnext)⟩
    rw [hsave]
    exact h.saved hcall hallowed hrow rfl rfl rfl (congrArg Code.result hnext)

/-- a service transaction -/
theorem Rated.service (h : Rated E u row₀ s tr) {op : Op} (hop : r.op = .service op)
    (hcode : serviceCall E op = .stmt f next) (c : ℕ) :
    r.Advances (Rated E u row₀) (UnderWay E u row₀) c s tr f next := by
  obtain ⟨hended, haccounts, hdb⟩ := service_cases (s := s) hcode
  have hno : ∀ rater target jobId, ¬ Accepted (r.entry c tr.length s f (next s)) rater target jobId := by
    intro rater target jobId hacc
    obtain ⟨rating, hop', -⟩ := hacc
    have hother := hop.symm.trans hop'
    cases hother
  refine ⟨h.quiet (by rw [haccounts]) (hdb.imp_right fun hs => ⟨op, hs⟩) hno, ?_⟩
  intro hres
  rw [hres] at hended
  cases hended

/-- **The rule**: one case for each statement of a call. -/
theorem rating_rule (E : Env) (u : Pk) (row₀ : Option Account) (nature : Empty → Site → Site) :
    PoolRule (AccountOp.code E) nature AccountOp.RatesOrServes (Rated E u row₀) (UnderWay E u row₀) where
  own s tr c r f next hI hr hrest := by
    rcases hr with ⟨o, hok, rfl⟩ | ⟨rater, v, rating, jobId, hcall⟩
    · cases o with
      | rateUser rater target rating jobId => exact hI.load rfl rfl hrest c
      | service op => exact hI.service rfl hrest c
      | _ => exact absurd hok id
    · have hstage := hcall.stage
      rw [hrest] at hstage
      generalize hp : Code.stmt f next = p at hstage
      cases hstage with
      | loaded => exact hI.check hcall hp.symm c
      | checked hallowed => exact hI.save hcall hallowed hp.symm c
  others s tr c r f next r' hI hr hrest hr' := hr'.keep (ready_dbStep hr hrest) rfl
  natural s tr n hI := n.elim

end Invariant

/-! ## Lost ratings -/

theorem rated_run (E : Env) (s : Site) (u : Pk) (evs : List AccountEvent)
    (hops : ∀ c o, .start c o ∈ evs → o.RatesOrServes) :
    Rated E u (s.accounts.find u) (accountRun E s evs).mem (accountRun E s evs).trace := by
  have hinit : Rated E u (s.accounts.find u) s [] := by
    refine ⟨?_, by simp [ratingSaves], by simp⟩
    cases s.accounts.find u with
    | none => exact .none
    | some a => exact .some tracks_nil
  exact (pool_inv (rating_rule E u _ _) (poolInv_init hinit) hops).shared

/-- **Ratings under concurrency.** `rating_count` has grown by the number of accepted calls, and `rating` is the average
of all their ratings, exactly if no accepted call loaded the user before an earlier one's save. -/
theorem ratings_kept_iff (E : Env) (s : Site) (u : Pk) (a : Account) (ha : s.accounts.find u = some a)
    (evs : List AccountEvent) (hops : ∀ c o, .start c o ∈ evs → o.RatesOrServes) :
    ∃ b, (accountRun E s evs).mem.accounts.find u = some b ∧
      ((b.ratingCount = a.ratingCount + (ratingSaves u (accountRun E s evs).trace).length ∧
          b.score = accumulate rateScore a.score (ratingSaves u (accountRun E s evs).trace)) ↔
        Sequential (ratingSaves u (accountRun E s evs).trace)) := by
  have hrow := (rated_run E s u evs hops).row
  rw [ha] at hrow
  generalize hb : (accountRun E s evs).mem.accounts.find u = found at hrow
  cases hrow with
  | some htracks => exact ⟨_, rfl, htracks.iff⟩

/-- `int` knows a second id -/
def demoIds : Env := { demoEnv with py := { demoPy with int s := if s = "2" then some 2 else demoPy.int s } }

/-- two jobs, both completed -/
def demoTwoJobs : List Op :=
  demoPaid ++ [.createJob 2 demoEmployer demoJob 4, .acceptJob "2" demoWorker 5, .startJob "2" demoWorker 6,
    .completeJob "2" demoEmployer 7]

def demoSite : Site := ⟨demoAccounts, run demoIds (init demoUsers) demoTwoJobs⟩

/-- the employer rates the worker for both jobs, and both calls load the worker before either saves -/
def demoOverlap : List AccountEvent :=
  [.start 0 (.rateUser 1 2 (some 5) "1"), .start 1 (.rateUser 1 2 (some 3) "2"), .step 0, .step 1, .step 0, .step 1]

theorem demoOverlap_rates : ∀ c o, PoolEvent.start c o ∈ demoOverlap → o.RatesOrServes := by
  intro c o h
  simp only [demoOverlap, List.mem_cons, PoolEvent.start.injEq, reduceCtorEq, List.not_mem_nil, or_false] at h
  rcases h with ⟨-, rfl⟩ | ⟨-, rfl⟩ <;> trivial

/-- both calls return without error; one rating is lost -/
theorem rating_lost :
    (ratingSaves 2 (accountRun demoIds demoSite demoOverlap).trace).length = 2 ∧
      ((accountRun demoIds demoSite demoOverlap).mem.accounts.find 2).map Account.score = some (3, 1) := by
  decide +kernel

theorem ratings_kept_iff_demo :
    ∃ b, (accountRun demoIds demoSite demoOverlap).mem.accounts.find 2 = some b ∧
      ((b.ratingCount = 0 + (ratingSaves 2 (accountRun demoIds demoSite demoOverlap).trace).length ∧
          b.score = accumulate rateScore (0, 0) (ratingSaves 2 (accountRun demoIds demoSite demoOverlap).trace)) ↔
        Sequential (ratingSaves 2 (accountRun demoIds demoSite demoOverlap).trace)) :=
  ratings_kept_iff demoIds demoSite 2 (newAccount 2 "+998907654321" "worker" 0) rfl demoOverlap demoOverlap_rates

/-! ## Repeated ratings -/

/-- the rater and the job of an accepted call -/
def ratedBy (E : Env) (e : AccountEntry) : Option (Pk × Option Pk) :=
  match e.op, e.result with
  | .rateUser rater _ _ jobId, some (.ok _) => some (rater, E.py.int jobId)
  | _, _ => none

/-- no party has a second call accepted for a job -/
def RatesOnce (E : Env) (tr : List AccountEntry) : Prop := (tr.filterMap (ratedBy E)).Nodup

/-- the COMPLETED jobs of which `u` is a party -/
def completedJobs (db : DB) (u : Pk) : List Job :=
  db.jobs.rows.filter fun j => j.status = .completed ∧ (j.employer = u ∨ j.worker = some u)

/-- the job of an accepted rating of `u` -/
def ratedJob (E : Env) (u : Pk) (e : AccountEntry) : Option Pk :=
  match e.op, e.result with
  | .rateUser _ target _ jobId, some (.ok _) => if target = u then E.py.int jobId else none
  | _, _ => none

section Once

variable {E : Env} {u : Pk} {e : AccountEntry} {tr : List AccountEntry} {db : DB}

theorem ratingOf_isSome : (ratingOf u e).isSome ↔ ∃ rater jobId, Accepted e rater u jobId := by
  constructor
  · intro h
    unfold ratingOf at h
    split at h
    · rename_i rater target rating jobId x hop hres
      split_ifs at h with hu
      · exact ⟨rater, jobId, rating, hu ▸ hop, hres⟩
      · cases h
    · cases h
  · rintro ⟨rater, jobId, rating, hop, hres⟩
    simp [ratingOf, hop, hres]

theorem ratedJob_eq {i : Pk} (h : ratedJob E u e = some i) :
    ∃ rater jobId, Accepted e rater u jobId ∧ E.py.int jobId = some i := by
  unfold ratedJob at h
  split at h
  · rename_i rater target rating jobId x hop hres
    split_ifs at h with hu
    exact ⟨rater, jobId, ⟨rating, hu ▸ hop, hres⟩, h⟩
  · cases h

theorem Accepted.ratedBy {rater target : Pk} {jobId : String} (h : Accepted e rater target jobId) :
    ratedBy E e = some (rater, E.py.int jobId) := by
  obtain ⟨rating, hop, hres⟩ := h
  simp [GigMarketplace.ratedBy, hop, hres]

theorem Accepted.ratedJob {rater : Pk} {jobId : String} (h : Accepted e rater u jobId) :
    ratedJob E u e = E.py.int jobId := by
  obtain ⟨rating, hop, hres⟩ := h
  simp [GigMarketplace.ratedJob, hop, hres]

/-- who may rate `u` for a job is the job's other party -/
theorem RatingAllowed.rater_eq {rater rater' : Pk} {jobId jobId' : String} (h : RatingAllowed E db rater u jobId)
    (h' : RatingAllowed E db rater' u jobId') (hid : E.py.int jobId = E.py.int jobId') : rater = rater' := by
  obtain ⟨i, j, hi, hj, -, hr, hu, hne⟩ := h
  obtain ⟨i', j', hi', hj', -, hr', hu', hne'⟩ := h'
  rw [hid, hi', Option.some.injEq] at hi
  subst hi
  rw [hj', Option.some.injEq] at hj
  subst hj
  grind

theorem mem_ratedJobs {i : Pk} :
    i ∈ tr.filterMap (ratedJob E u) ↔ ∃ e ∈ tr, ∃ rater jobId, Accepted e rater u jobId ∧ E.py.int jobId = some i := by
  rw [List.mem_filterMap]
  constructor
  · rintro ⟨e, he, hi⟩
    exact ⟨e, he, ratedJob_eq hi⟩
  · rintro ⟨e, he, rater, jobId, hacc, hid⟩
    exact ⟨e, he, hacc.ratedJob.trans hid⟩

variable {row₀ : Option Account} {s : Site}

/-- an accepted rating of `u` is one job in `ratedJob` -/
theorem Rated.length_saves (h : Rated E u row₀ s tr) :
    (ratingSaves u tr).length = (tr.filterMap (ratedJob E u)).length := by
  rw [ratingSaves, List.length_filterMap_eq_countP, List.length_filterMap_eq_countP]
  refine List.countP_congr fun e he => ?_
  rw [ratingOf_isSome]
  constructor
  · rintro ⟨rater, jobId, hacc⟩
    obtain ⟨i, -, hid, -⟩ := h.allowed e he rater u jobId hacc
    rw [hacc.ratedJob, hid]
    rfl
  · intro hsome
    obtain ⟨i, hi⟩ := Option.isSome_iff_exists.1 hsome
    obtain ⟨rater, jobId, hacc, -⟩ := ratedJob_eq hi
    exact ⟨rater, jobId, hacc⟩

/-- if no party rates a job twice, the accepted ratings of `u` are for different jobs -/
theorem Rated.nodup_jobs (h : Rated E u row₀ s tr) (honce : RatesOnce E tr) : (tr.filterMap (ratedJob E u)).Nodup := by
  unfold RatesOnce List.Nodup at honce
  rw [List.pairwise_filterMap] at honce
  unfold List.Nodup
  rw [List.pairwise_filterMap]
  refine honce.imp_of_mem fun {e e'} he he' hne i hi i' hi' heq => ?_
  obtain ⟨rater, jobId, hacc, hid⟩ := ratedJob_eq hi
  obtain ⟨rater', jobId', hacc', hid'⟩ := ratedJob_eq hi'
  have hids : E.py.int jobId = E.py.int jobId' := by rw [hid, hid', heq]
  have hrater : rater = rater' := (h.allowed e he _ _ _ hacc).rater_eq (h.allowed e' he' _ _ _ hacc') hids
  exact hne _ hacc.ratedBy _ hacc'.ratedBy (by rw [hrater, hids])

/-- these jobs are COMPLETED jobs of `u` -/
theorem Rated.jobs_completed (h : Rated E u row₀ s tr) :
    tr.filterMap (ratedJob E u) ⊆ (completedJobs s.db u).map Job.id := by
  intro i hi
  obtain ⟨e, he, rater, jobId, hacc, hid⟩ := mem_ratedJobs.1 hi
  obtain ⟨i', j, hid', hj, hstatus, -, hparty, -⟩ := h.allowed e he rater u jobId hacc
  have hi' : i' = i := Option.some.inj (hid'.symm.trans hid)
  subst hi'
  have hparty' : j.employer = u ∨ j.worker = some u := hparty.imp_left Eq.symm
  refine List.mem_map.2 ⟨j, List.mem_filter.2 ⟨Table.mem_of_find hj, ?_⟩, Table.pk_of_find hj⟩
  exact decide_eq_true ⟨hstatus, hparty'⟩

end Once

/-- **One rating per party and job**, if no party has a second call accepted for a job: no `rating_count` exceeds the
number of the user's COMPLETED jobs. -/
theorem one_rating_per_party (E : Env) (s : Site) (hzero : ∀ a ∈ s.accounts.rows, a.ratingCount = 0)
    (evs : List AccountEvent) (hops : ∀ c o, .start c o ∈ evs → o.RatesOrServes)
    (honce : RatesOnce E (accountRun E s evs).trace) (b : Account) (hb : b ∈ (accountRun E s evs).mem.accounts.rows) :
    b.ratingCount ≤ (completedJobs (accountRun E s evs).mem.db b.id).length := by
  have hrated := rated_run E s b.id evs hops
  have hcount : b.ratingCount ≤ (ratingSaves b.id (accountRun E s evs).trace).length := by
    have hrow := hrated.row
    rw [show (accountRun E s evs).mem.accounts.find b.id = some b from Table.find_of_mem hb] at hrow
    generalize ha : s.accounts.find b.id = row₀ at hrow
    cases hrow with
    | @some a₀ _ htracks =>
      have hle : b.ratingCount ≤ a₀.ratingCount + _ := htracks.le
      rw [hzero a₀ (Table.mem_of_find ha), Nat.zero_add] at hle
      exact hle
  calc b.ratingCount
    _ ≤ (ratingSaves b.id (accountRun E s evs).trace).length := hcount
    _ = ((accountRun E s evs).trace.filterMap (ratedJob E b.id)).length := hrated.length_saves
    _ ≤ ((completedJobs (accountRun E s evs).mem.db b.id).map Job.id).length :=
      (List.subperm_of_subset (hrated.nodup_jobs honce) hrated.jobs_completed).length_le
    _ = (completedJobs (accountRun E s evs).mem.db b.id).length := List.length_map _

/-- the employer rates the worker twice for one job, the second call after the first has returned -/
def demoTwice : List AccountEvent :=
  [.start 0 (.rateUser 1 2 (some 5) "1"), .step 0, .step 0, .start 1 (.rateUser 1 2 (some 5) "1"), .step 1, .step 1]

def demoOneJob : Site := ⟨demoAccounts, run demoEnv (init demoUsers) demoPaid⟩

/-- both are counted, and one job is completed -/
theorem rated_twice :
    ((accountRun demoEnv demoOneJob demoTwice).mem.accounts.find 2).map Account.ratingCount = some 2 ∧
      (completedJobs (accountRun demoEnv demoOneJob demoTwice).mem.db 2).length = 1 := by
  decide +kernel

theorem one_rating_per_party_demo :
    ∃ b ∈ (accountRun demoIds demoSite demoOverlap).mem.accounts.rows, b.id = 2 ∧
      b.ratingCount ≤ (completedJobs (accountRun demoIds demoSite demoOverlap).mem.db b.id).length := by
  have hpresent : ((accountRun demoIds demoSite demoOverlap).mem.accounts.find 2).isSome := by decide +kernel
  have honce : RatesOnce demoIds (accountRun demoIds demoSite demoOverlap).trace :=
    show List.Nodup _ by decide +kernel
  obtain ⟨b, hb⟩ := Option.isSome_iff_exists.1 hpresent
  refine ⟨b, Table.mem_of_find hb, Table.pk_of_find hb, ?_⟩
  exact one_rating_per_party demoIds demoSite (by decide) demoOverlap demoOverlap_rates honce b (Table.mem_of_find hb)

end GigMarketplace
