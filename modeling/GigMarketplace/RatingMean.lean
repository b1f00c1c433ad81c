/-
`rating` as the mean of the ratings a user was given one after another.

`update_rating` multiplies the stored average by the count again, so what the column rounded away stays in the sum:
`carry` is all that the roundings have added to it. A single rounding is off by at most half a hundredth, and up to six
ratings so is the average; from the seventh rating on there are sequences that are off by more, whatever their length
(`drifting`), since a rating near the stored average does not move it any more.
-/
import Mathlib.Tactic.IntervalCases
import GigMarketplace.Decimals
import GigMarketplace.Ratings

namespace GigMarketplace

open GigMarketplace.Core

/-! ## One rating after another -/

/-- a rating that RatingSerializer admits -/
structure Stars where
  tenths : ℤ
  tenths_ok : 10 ≤ tenths ∧ tenths ≤ 50

def Stars.value (r : Stars) : ℚ := r.tenths / 10

/-- `update_rating` by a request that has loaded the row as it is stored -/
def rateOnce (u : Pk) (s : Site) (r : Stars) : Site :=
  match s.accounts.find u with
  | none => s
  | some a => ((a.updateRating (some r.value)).run s).2

def rateAll (u : Pk) (s : Site) (rs : List Stars) : Site := rs.foldl (rateOnce u) s

def mean (rs : List Stars) : ℚ := (rs.map Stars.value).sum / rs.length

/-- the row counts the ratings, and its average is their mean up to half a hundredth -/
def MeanKept (u : Pk) (s : Site) (rs : List Stars) : Prop :=
  ∃ row, (rateAll u s rs).accounts.find u = some row ∧ row.ratingCount = rs.length ∧ |row.rating - mean rs| ≤ 1 / 200

/-! ## What the roundings add -/

/-- the sum of the ratings in hundredths; here and in `carry` the latest rating comes first -/
def hundredths (past : List Stars) : ℤ := (past.map fun r => 10 * r.tenths).sum

/-- what a sum lacks to the nearest multiple of the count -/
def gap (total count : ℤ) : ℤ := count * nearest total count - total

/-- what the roundings have added to the sum of the ratings -/
def carry : List Stars → ℤ
  | [] => 0
  | r :: past => carry past + gap (hundredths (r :: past) + carry past) (past.length + 1)

theorem hundredths_cons (r : Stars) (past : List Stars) : hundredths (r :: past) = 10 * r.tenths + hundredths past := by
  simp [hundredths]

theorem carry_cons (r : Stars) (past : List Stars) :
    hundredths (r :: past) + carry (r :: past) =
      (past.length + 1) * nearest (hundredths (r :: past) + carry past) (past.length + 1) := by
  simp only [carry, gap]
  ring

theorem mean_eq (past : List Stars) : mean past.reverse = hundredths past / 100 / past.length := by
  have hsum : (past.map Stars.value).sum = hundredths past / 100 := by
    induction past with
    | nil => simp [hundredths]
    | cons r past ih =>
      rw [List.map_cons, List.sum_cons, ih, hundredths_cons, Stars.value]
      push_cast
      ring
  rw [mean, List.map_reverse, List.sum_reverse, hsum, List.length_reverse]

/-! ## One update -/

theorem averaged_hundredths {h x : ℤ} {n : ℕ} (hh : 0 ≤ h ∧ h ≤ 500) (hx : 0 ≤ x ∧ x ≤ 500)
    (hn : n + 1 ≤ ratingCountMax) : averaged (h / 100) n (x / 100) = nearest (n * h + x) (n + 1) / 100 := by
  obtain ⟨h0, h5⟩ := hh
  obtain ⟨x0, x5⟩ := hx
  have hnQ : (n : ℚ) + 1 ≤ 2147483647 := by exact_mod_cast hn
  have h0Q : (0 : ℚ) ≤ h := by exact_mod_cast h0
  have h5Q : (h : ℚ) ≤ 500 := by exact_mod_cast h5
  have x0Q : (0 : ℚ) ≤ x := by exact_mod_cast x0
  have x5Q : (x : ℚ) ≤ 500 := by exact_mod_cast x5
  have hprodQ : (h : ℚ) * n ≤ 500 * 2147483647 := by
    gcongr
    linarith
  have hprod : decimalContext (h / 100 * n) = h / 100 * n := by
    refine decimalContext_exact (k := 2) (m := h * n) (by push_cast; ring) ?_
    rw [abs_of_nonneg (by positivity)]
    norm_num
    linarith
  have htotal : decimalContext (h / 100 * n + x / 100) = h / 100 * n + x / 100 := by
    refine decimalContext_exact (k := 2) (m := h * n + x) (by push_cast; ring) ?_
    rw [abs_of_nonneg (by positivity)]
    norm_num
    linarith
  have hquot : ((h / 100 * n + x / 100) / (n + 1 : ℕ) : ℚ) = ((n * h + x : ℤ) : ℚ) / 100 / ((n + 1 : ℤ) : ℚ) := by
    push_cast
    ring
  have hle : (n : ℤ) * h ≤ n * 500 := by gcongr
  unfold averaged
  rw [hprod]
  simp only [htotal]
  rw [hquot, numericColumn_div (by positivity) (by omega) (by unfold ratingCountMax at hn; omega) (by linarith)]

/-! ## The row after all updates -/

section Row

variable {u : Pk} {s : Site}

/-- one update saves the new average and count, unless a column cannot hold them -/
theorem rateOnce_row {row : Account} (h : s.accounts.find u = some row) (r : Stars) :
    (rateOnce u s r).accounts.find u = some
      (if |averaged row.rating row.ratingCount r.value| < 10 ∧ row.ratingCount + 1 ≤ ratingCountMax then
        { row with rating := averaged row.rating row.ratingCount r.value, ratingCount := row.ratingCount + 1 }
      else row) := by
  obtain rfl : row.id = u := Table.pk_of_find h
  unfold rateOnce
  simp only [h, Account.updateRating, Code.run_act, Code.effect]
  split_ifs with hcols
  · exact Table.find_update_self h rfl
  · exact h

/-- what the row of a user says after the ratings `past` -/
structure RowAfter (row : Account) (past : List Stars) : Prop where
  max : row.ratingCount ≤ ratingCountMax
  count : past.length ≤ ratingCountMax → row.ratingCount = past.length
  /-- the stored average in hundredths -/
  average : past.length ≤ ratingCountMax →
    ∃ h : ℤ, (0 ≤ h ∧ h ≤ 500) ∧ row.rating = h / 100 ∧ past.length * h = hundredths past + carry past

theorem RowAfter.step {row : Account} {past : List Stars} (h : RowAfter row past) (r : Stars) :
    RowAfter (if |averaged row.rating row.ratingCount r.value| < 10 ∧ row.ratingCount + 1 ≤ ratingCountMax then
        { row with rating := averaged row.rating row.ratingCount r.value, ratingCount := row.ratingCount + 1 }
      else row) (r :: past) := by
  by_cases hmax : (r :: past).length ≤ ratingCountMax
  · have hlen : past.length + 1 ≤ ratingCountMax := by simpa using hmax
    obtain ⟨a, ha, hrating, hsum⟩ := h.average (by omega)
    have hcount := h.count (by omega)
    have hstars : 0 ≤ 10 * r.tenths ∧ 10 * r.tenths ≤ 500 := by
      have := r.tenths_ok
      omega
    have havg : averaged row.rating row.ratingCount r.value =
        nearest (past.length * a + 10 * r.tenths) (past.length + 1) / 100 := by
      rw [hrating, hcount, show r.value = (10 * r.tenths : ℤ) / 100 by unfold Stars.value; push_cast; ring]
      exact averaged_hundredths ha hstars hlen
    obtain ⟨hlow, hhigh⟩ := nearest_bounds (n := past.length) (by positivity) ha hstars
    have hcols : |averaged row.rating row.ratingCount r.value| < 10 ∧ row.ratingCount + 1 ≤ ratingCountMax := by
      refine ⟨?_, by omega⟩
      have hlowQ : (0 : ℚ) ≤ nearest (past.length * a + 10 * r.tenths) (past.length + 1) := by exact_mod_cast hlow
      have hhighQ : (nearest (past.length * a + 10 * r.tenths) (past.length + 1) : ℚ) ≤ 500 := by
        exact_mod_cast hhigh
      rw [havg, abs_of_nonneg (by positivity)]
      linarith
    rw [if_pos hcols]
    refine ⟨hcols.2, fun _ => by simp [hcount], fun _ => ⟨_, ⟨hlow, hhigh⟩, havg, ?_⟩⟩
    have htotal : hundredths (r :: past) + carry past = past.length * a + 10 * r.tenths := by
      rw [hundredths_cons, hsum]
      ring
    rw [carry_cons, htotal]
    rfl
  · refine ⟨?_, fun hle => absurd hle hmax, fun hle => absurd hle hmax⟩
    split_ifs with hcols
    · exact hcols.2
    · exact h.max

theorem row_after {a : Account} (hrow : s.accounts.find u = some a) (hrating : a.rating = 0)
    (hcount : a.ratingCount = 0)
    (past : List Stars) :
    ∃ row, (rateAll u s past.reverse).accounts.find u = some row ∧ RowAfter row past := by
  induction past with
  | nil =>
    refine ⟨a, hrow, by simp [hcount], fun _ => hcount, fun _ => ⟨0, by decide, by simp [hrating], ?_⟩⟩
    simp [hundredths, carry]
  | cons r past ih =>
    obtain ⟨row, hfind, hafter⟩ := ih
    refine ⟨_, ?_, hafter.step r⟩
    rw [rateAll, List.reverse_cons, List.foldl_append]
    exact rateOnce_row hfind r

/-- the average is the mean up to half a hundredth iff the roundings have not added more than half the count -/
theorem meanKept_iff {a : Account} (hrow : s.accounts.find u = some a) (hrating : a.rating = 0)
    (hcount : a.ratingCount = 0) (past : List Stars) :
    MeanKept u s past.reverse ↔ past.length ≤ ratingCountMax ∧ 2 * |carry past| ≤ past.length := by
  rcases Nat.eq_zero_or_pos past.length with hlen | hlen
  · obtain rfl := List.eq_nil_of_length_eq_zero hlen
    exact iff_of_true ⟨a, hrow, hcount, by simp [hrating, mean]⟩ (by simp [carry])
  obtain ⟨row, hfind, hafter⟩ := row_after hrow hrating hcount past
  have hkept : MeanKept u s past.reverse ↔
      row.ratingCount = past.length ∧ |row.rating - mean past.reverse| ≤ 1 / 200 := by
    simp [MeanKept, hfind]
  rw [hkept]
  by_cases hmax : past.length ≤ ratingCountMax
  · obtain ⟨h, -, hh, hsum⟩ := hafter.average hmax
    have hlenQ : (0 : ℚ) < past.length := by exact_mod_cast hlen
    have hsumQ : (past.length : ℚ) * h = hundredths past + carry past := by exact_mod_cast hsum
    have hdiff : row.rating - mean past.reverse = carry past / (100 * past.length) := by
      rw [hh, mean_eq]
      field_simp
      linarith
    simp only [hafter.count hmax, hmax, true_and]
    rw [hdiff, abs_div, abs_of_pos (show (0 : ℚ) < 100 * past.length by positivity), div_le_iff₀ (by positivity),
      ← Int.cast_abs]
    constructor
    · intro hle
      have hleQ : (2 * |carry past| : ℚ) ≤ past.length := by linarith
      exact_mod_cast hleQ
    · intro hle
      have hleQ : (2 * |carry past| : ℚ) ≤ past.length := by exact_mod_cast hle
      linarith
  · refine iff_of_false ?_ fun h => hmax h.1
    rintro ⟨hc, -⟩
    have := hafter.max
    omega

end Row

/-! ## Few ratings and many -/

theorem hundredths_tens (past : List Stars) : ∃ m, hundredths past = 10 * m := by
  induction past with
  | nil => exact ⟨0, rfl⟩
  | cons r past ih =>
    obtain ⟨m, hm⟩ := ih
    exact ⟨r.tenths + m, by rw [hundredths_cons, hm]; ring⟩

/-- how far the roundings of the first few ratings can go -/
def slack : ℕ → ℤ
  | 3 => 1
  | 4 => 2
  | 6 => 3
  | _ => 0

/-- the sums of one-decimal ratings are multiples of ten hundredths, which bounds the roundings more and more loosely -/
theorem carry_le_slack (past : List Stars) (hlen : past.length ≤ 6) : |carry past| ≤ slack past.length := by
  induction past with
  | nil => simp [carry, slack]
  | cons r past ih =>
    have hshort : past.length ≤ 5 := Nat.le_of_succ_le_succ hlen
    have hle := abs_le.1 (ih (by omega))
    have hcons := carry_cons r past
    obtain ⟨m, hm⟩ := hundredths_tens (r :: past)
    rw [hm] at hcons
    rw [List.length_cons, abs_le]
    generalize past.length = n at hshort hle hcons
    generalize carry (r :: past) = c at hcons
    interval_cases n <;> simp only [slack, nearest] at hle hcons ⊢ <;> omega

theorem slack_le {n : ℕ} (hn : n ≤ 6) : 2 * slack n ≤ n := by
  interval_cases n <;> decide

def oneStar : Stars := ⟨10, by decide⟩

/-- 1.0 five times, then 1.1, then 1.0 again and again; the latest first -/
def drifting (m : ℕ) : List Stars := List.replicate m oneStar ++ ⟨11, by decide⟩ :: List.replicate 5 oneStar

theorem drifting_length (m : ℕ) : (drifting m).length = m + 6 := by
  simp [drifting]

/-- the average has settled at 1.02 -/
theorem drifting_carry (m : ℕ) : hundredths (drifting m) = 100 * (m + 6) + 10 ∧ carry (drifting m) = 2 * m + 2 := by
  induction m with
  | zero => decide
  | succ m ih =>
    obtain ⟨hsum, hcarry⟩ := ih
    have hcons : drifting (m + 1) = oneStar :: drifting m := by simp [drifting, List.replicate_succ]
    have hsum' : hundredths (oneStar :: drifting m) = 100 * (m + 7) + 10 := by
      rw [hundredths_cons, hsum, oneStar]
      ring
    have hnearest : nearest (hundredths (oneStar :: drifting m) + carry (drifting m)) ((drifting m).length + 1) = 102 := by
      rw [hsum', hcarry, drifting_length]
      exact nearest_eq (by positivity) (by push_cast; linarith) (by push_cast; linarith)
    have hall := carry_cons oneStar (drifting m)
    rw [hnearest, hsum', drifting_length] at hall
    rw [hcons]
    push_cast at hall ⊢
    exact ⟨by rw [hsum']; ring, by linarith⟩

/-- the sequences that end with the mean, one by one and by their length -/
theorem rating_is_mean_iff {u : Pk} {s : Site} {a : Account} (hrow : s.accounts.find u = some a) (hrating : a.rating = 0)
    (hcount : a.ratingCount = 0) :
    (∀ rs, MeanKept u s rs ↔ rs.length ≤ ratingCountMax ∧ 2 * |carry rs.reverse| ≤ rs.length) ∧
      ∀ n, (∀ rs : List Stars, rs.length = n → MeanKept u s rs) ↔ n ≤ 6 := by
  have hiff : ∀ rs, MeanKept u s rs ↔ rs.length ≤ ratingCountMax ∧ 2 * |carry rs.reverse| ≤ rs.length := by
    intro rs
    have hrev := meanKept_iff hrow hrating hcount rs.reverse
    rwa [List.reverse_reverse, List.length_reverse] at hrev
  refine ⟨hiff, fun n => ⟨?_, ?_⟩⟩
  · intro hall
    by_contra hn
    have hlen : (drifting (n - 6)).reverse.length = n := by
      rw [List.length_reverse, drifting_length]
      omega
    have hkept := ((hiff _).1 (hall _ hlen)).2
    rw [hlen, List.reverse_reverse, (drifting_carry _).2, abs_of_nonneg (by positivity)] at hkept
    omega
  · rintro hn rs rfl
    refine (hiff rs).2 ⟨by unfold ratingCountMax; omega, ?_⟩
    have hle := carry_le_slack rs.reverse (by simpa using hn)
    rw [List.length_reverse] at hle
    linarith [slack_le hn]

/-- two ratings of a worker who had none -/
theorem rating_is_mean_demo : MeanKept 2 demoSite [oneStar, ⟨45, by decide⟩] :=
  ((rating_is_mean_iff (a := newAccount 2 "+998907654321" "worker" 0) rfl rfl rfl).2 2).2 (by decide) _ rfl

/-- after 1.0 five times, 1.1 and 1.0 the row says 1.02, and the mean is 7.1 / 7 -/
theorem rating_drifts : ¬ MeanKept 2 demoSite (drifting 1).reverse := by
  rw [meanKept_iff (a := newAccount 2 "+998907654321" "worker" 0) rfl rfl rfl, drifting_length, (drifting_carry 1).2]
  decide

end GigMarketplace
