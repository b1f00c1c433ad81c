/-
The send rate limit: how many requests for one phone number reach the gateway in 600 seconds.

send_otp reads a counter, asks the gateway and counts the request when it has been recorded. The counter starts with the
first request it counts and expires 600 seconds later. So requests escape it in three ways: a call that fails after the
gateway was asked is not counted, calls that overlap read the same counter, and requests at the end of one counter's
time are forgotten when the next one starts. `Undisturbed` and `Apart` exclude exactly these.

Results:
- `limited_append`: requests in bursts, with a whole window between them, keep the limit;
- `send_cases`: what the statements of send_otp do, stage by stage (`SendStage`);
- `send_rate_limited`: in a run whose calls for one counter do not overlap and start undisturbed, no interval of 600
  seconds has more than 3 requests for the phone;
- `rate_limit_exceeded`: six calls, one after the other and all successful, with five requests within two seconds.
-/
import GigMarketplace.Core.Apart
import GigMarketplace.Otp

namespace GigMarketplace

open GigMarketplace.Core

/-! ## Windows -/

section Windows

variable {w n : ℕ} {older recent times : List ℕ}

/-- no interval of the length `w` has more than `n` of the times -/
def Limited (w n : ℕ) (times : List ℕ) : Prop := ∀ t, (times.filter fun g => t ≤ g ∧ g < t + w).length ≤ n

theorem limited_nil (w n : ℕ) : Limited w n [] := fun _ => Nat.zero_le _

/-- a burst of at most `n` times, a whole window after the earlier ones -/
theorem limited_append (holder : Limited w n older) (hlength : recent.length ≤ n)
    (hapart : ∀ a ∈ older, ∀ b ∈ recent, a + w ≤ b) : Limited w n (older ++ recent) := by
  intro t
  rw [List.filter_append, List.length_append]
  by_cases hrecent : ∃ b ∈ recent, b < t + w
  · -- the window reaches the burst, so it has left the earlier times
    obtain ⟨b, hb, hbt⟩ := hrecent
    have hnone : older.filter (fun g => t ≤ g ∧ g < t + w) = [] := by
      rw [List.filter_eq_nil_iff]
      intro a ha
      have := hapart a ha b hb
      simp only [decide_eq_true_eq, not_and, not_lt]
      omega
    calc (older.filter fun g => t ≤ g ∧ g < t + w).length + (recent.filter fun g => t ≤ g ∧ g < t + w).length
      _ = (recent.filter fun g => t ≤ g ∧ g < t + w).length := by rw [hnone, List.length_nil, Nat.zero_add]
      _ ≤ recent.length := List.length_filter_le _ _
      _ ≤ n := hlength
  · have hnone : recent.filter (fun g => t ≤ g ∧ g < t + w) = [] := by
      rw [List.filter_eq_nil_iff]
      intro b hb
      simp only [decide_eq_true_eq, not_and]
      intro _ hbt
      exact hrecent ⟨b, hb, hbt⟩
    rw [hnone, List.length_nil, Nat.add_zero]
    exact holder t

theorem Limited.sublist (h : Limited w n times) {times' : List ℕ} (hsub : times'.Sublist times) :
    Limited w n times' := fun t => (hsub.filter _).length_le.trans (h t)

end Windows

/-! ## Requests and counters -/

/-- the times at which requests for the phone have reached the gateway -/
def sendTimes (phoneNumber : String) (s : OtpSite) : List ℕ :=
  s.gateway.filterMap fun
    | .send phone time => if phone = phoneNumber then some time else none
    | _ => none

/-- the times of the requests that the counter `key` is for -/
def keyTimes (E : OtpEnv) (key : String) (s : OtpSite) : List ℕ :=
  s.gateway.filterMap fun
    | .send phone time => if getOtpRateLimitKey E phone = key then some time else none
    | _ => none

theorem sendTimes_sublist (E : OtpEnv) (phoneNumber : String) (s : OtpSite) :
    (sendTimes phoneNumber s).Sublist (keyTimes E (getOtpRateLimitKey E phoneNumber) s) := by
  unfold sendTimes keyTimes
  induction s.gateway with
  | nil => exact List.Sublist.refl _
  | cons x xs ih =>
    cases x with
    | check requestId code => exact ih
    | revoke requestId => exact ih
    | send phone time =>
      by_cases hphone : phone = phoneNumber
      · subst hphone
        simpa using ih
      · simp only [List.filterMap_cons, if_neg hphone]
        split
        · exact ih
        · exact ih.cons _

/-- a call of send_otp with the counter `key` -/
def OtpOp.Sends (E : OtpEnv) (key : String) : OtpOp → Prop
  | .sendOtp phoneNumber _ _ => getOtpRateLimitKey E phoneNumber = key
  | .verifyOtp .. => False

/-- the call has raised something else than the rate limit -/
def Failed (e : OtpEntry) : Prop := ∃ x, e.result = some (.error x) ∧ ∀ msg, x ≠ .rateLimit msg

/-- a call that starts now finds no trace of the two other escapes: no call has failed in the last 600 seconds, and if
the counter is gone, no request has reached the gateway in the last 600 seconds -/
def Undisturbed (E : OtpEnv) (key : String) (s : OtpSite) (tr : List OtpEntry) (_ : OtpOp) : Prop :=
  (∀ e ∈ tr, e.op.Sends E key → Failed e → e.before.clock + OTPService.rateLimitWindow ≤ s.clock) ∧
    (s.counter key = none → ∀ g ∈ keyTimes E key s, g + OTPService.rateLimitWindow ≤ s.clock)

/-- nothing that concerns the counter `key` changes -/
structure Untouched (E : OtpEnv) (key : String) (s s' : OtpSite) : Prop where
  clock : s'.clock = s.clock
  cache : s'.cache key = s.cache key
  times : keyTimes E key s' = keyTimes E key s

theorem Untouched.refl (E : OtpEnv) (key : String) (s : OtpSite) : Untouched E key s s := ⟨rfl, rfl, rfl⟩

section Untouched

variable (E : OtpEnv) (key : String)

theorem untouched_gateway (s : OtpSite) (x : GatewayRequest)
    (hx : ∀ phone time, x = .send phone time → getOtpRateLimitKey E phone ≠ key) :
    Untouched E key s { s with gateway := s.gateway ++ [x] } := by
  refine ⟨rfl, rfl, ?_⟩
  cases x with
  | send phone time => simp [keyTimes, hx phone time rfl]
  | check requestId code => simp [keyTimes]
  | revoke requestId => simp [keyTimes]

theorem untouched_otps (s : OtpSite) (otps : Table TelegramOTP) : Untouched E key s { s with otps } := ⟨rfl, rfl, rfl⟩

theorem untouched_revoke (s : OtpSite) (requestId : String) :
    Untouched E key s { s with gateway := s.gateway ++ [.revoke requestId] } := by
  apply untouched_gateway
  intro phone time h
  cases h

theorem untouched_verifyOtp (phoneNumber code : String) (pick : ℕ) :
    (OTPService.verifyOtp E phoneNumber code pick).Each (Untouched E key) := by
  have hask : ∀ requestId, (telegramGateway.verifyOtp E requestId code).Each (Untouched E key) := by
    intro requestId s
    refine ⟨untouched_gateway E key s _ ?_, Code.each_ofExcept _⟩
    intro phone time h
    cases h
  refine Code.each_bind (Code.each_query (Untouched.refl E key) _) fun otp => ?_
  refine Code.each_bind (Code.each_query (Untouched.refl E key) _) fun now => ?_
  refine Code.each_bind (Code.each_raiseIf _ _) fun _ => ?_
  refine Code.each_bind (hask otp.requestId) fun valid => ?_
  refine Code.each_bind (Code.each_raiseIf _ _) fun _ => ?_
  refine Code.each_bind ?_ fun _ => trivial
  apply Code.each_act (Untouched.refl E key)
  intro s x h
  split at h
  · cases h
  · cases h
    exact untouched_otps E key s _

/-- **Other calls** leave the counter and its requests alone. -/
theorem untouched_other (o : OtpOp) (ho : ¬ o.Sends E key) : (o.code E).Each (Untouched E key) := by
  cases o with
  | verifyOtp phoneNumber code pick => exact untouched_verifyOtp E key phoneNumber code pick
  | sendOtp phoneNumber reply id =>
    have hkey : getOtpRateLimitKey E phoneNumber ≠ key := ho
    have hrefl := Untouched.refl E key
    have hotps := untouched_otps E key
    refine each_sendOtp E phoneNumber reply id hrefl (untouched_revoke E key) ?_
      (each_deleteUnused phoneNumber hrefl hotps)
      (fun requestId now => each_insert id phoneNumber requestId now hrefl hotps) ?_
    · intro s
      apply untouched_gateway
      intro phone time h
      cases h
      exact hkey
    · intro s entry
      exact ⟨rfl, Function.update_of_ne hkey.symm _ _, rfl⟩

end Untouched

/-! ## The phases of a counter -/

section Phases

variable {E : OtpEnv} {key : String} {n k : ℕ} {s s' : OtpSite} {tr : List OtpEntry} {e : OtpEntry}

/-- the last `k` requests are a burst, a window after the earlier ones, which keep the limit -/
structure Requests (E : OtpEnv) (key : String) (k : ℕ) (s : OtpSite) : Prop where
  split : ∃ older recent, keyTimes E key s = older ++ recent ∧ recent.length = k ∧
    Limited OTPService.rateLimitWindow OTPService.rateLimitCount older ∧
    (∀ a ∈ older, a + OTPService.rateLimitWindow ≤ s.clock) ∧
    ∀ a ∈ older, ∀ b ∈ recent, a + OTPService.rateLimitWindow ≤ b
  past : ∀ g ∈ keyTimes E key s, g ≤ s.clock

/-- a call that has read `n` is under way; the counter, unless it expires meanwhile, stays `n` -/
structure Burst (E : OtpEnv) (key : String) (n k : ℕ) (s : OtpSite) : Prop where
  requests : Requests E key k s
  counter : ∀ m x, s.cache key = some (m, x) → s.clock < x →
    n ≠ 0 ∧ m = n ∧ x ≤ s.clock + OTPService.rateLimitWindow

/-- no call is under way; the counter has counted the burst, unless a call has failed during its time -/
structure Counted (E : OtpEnv) (key : String) (s : OtpSite) (tr : List OtpEntry) : Prop where
  requests : ∃ k ≤ OTPService.rateLimitCount, Requests E key k s ∧ ∀ m x, s.cache key = some (m, x) → s.clock < x →
    m ≠ 0 ∧ x ≤ s.clock + OTPService.rateLimitWindow ∧
    ((∀ e ∈ tr, e.op.Sends E key → Failed e → e.before.clock + OTPService.rateLimitWindow < x) → k = m)

theorem Requests.limited (h : Requests E key k s) (hk : k ≤ OTPService.rateLimitCount) :
    Limited OTPService.rateLimitWindow OTPService.rateLimitCount (keyTimes E key s) := by
  obtain ⟨older, recent, htimes, hlength, holder, -, hapart⟩ := h.split
  rw [htimes]
  exact limited_append holder (hlength ▸ hk) hapart

/-- a new burst begins -/
theorem Requests.restart (h : Requests E key k s) (hk : k ≤ OTPService.rateLimitCount)
    (hold : ∀ g ∈ keyTimes E key s, g + OTPService.rateLimitWindow ≤ s.clock) : Requests E key 0 s := by
  refine ⟨⟨keyTimes E key s, [], (List.append_nil _).symm, rfl, h.limited hk, hold, ?_⟩, h.past⟩
  intro a _ b hb
  cases hb

/-- one more request reaches the gateway -/
theorem Requests.send (h : Requests E key k s) (hclock : s'.clock = s.clock)
    (htimes : keyTimes E key s' = keyTimes E key s ++ [s.clock]) : Requests E key (k + 1) s' := by
  obtain ⟨older, recent, hsplit, hlength, holder, hold, hapart⟩ := h.split
  refine ⟨⟨older, recent ++ [s.clock], ?_, ?_, holder, ?_, ?_⟩, ?_⟩
  · rw [htimes, hsplit, List.append_assoc]
  · rw [List.length_append, hlength, List.length_singleton]
  · rw [hclock]
    exact hold
  · intro a ha b hb
    rcases List.mem_append.1 hb with hb | hb
    · exact hapart a ha b hb
    · rw [List.mem_singleton.1 hb]
      exact hold a ha
  · rw [htimes, hclock]
    intro g hg
    rcases List.mem_append.1 hg with hg | hg
    · exact h.past g hg
    · exact (List.mem_singleton.1 hg).le

/-- time passes, or another call does something -/
structure Passes (E : OtpEnv) (key : String) (s s' : OtpSite) : Prop where
  clock : s.clock ≤ s'.clock
  cache : s'.cache key = s.cache key
  times : keyTimes E key s' = keyTimes E key s

theorem Untouched.passes (h : Untouched E key s s') : Passes E key s s' := ⟨h.clock.ge, h.cache, h.times⟩

theorem Requests.passes (h : Requests E key k s) (hclock : s.clock ≤ s'.clock)
    (htimes : keyTimes E key s' = keyTimes E key s) : Requests E key k s' := by
  obtain ⟨older, recent, hsplit, hlength, holder, hold, hapart⟩ := h.split
  refine ⟨⟨older, recent, htimes.trans hsplit, hlength, holder, ?_, hapart⟩, ?_⟩
  · intro a ha
    exact (hold a ha).trans hclock
  · rw [htimes]
    intro g hg
    exact (h.past g hg).trans hclock

theorem Burst.passes (h : Burst E key n k s) (hpass : Passes E key s s') : Burst E key n k s' := by
  refine ⟨h.requests.passes hpass.clock hpass.times, ?_⟩
  intro m x hcache halive
  rw [hpass.cache] at hcache
  obtain ⟨hn, hm, hx⟩ := h.counter m x hcache (hpass.clock.trans_lt halive)
  exact ⟨hn, hm, hx.trans (Nat.add_le_add_right hpass.clock _)⟩

theorem Counted.passes (h : Counted E key s tr) (hpass : Passes E key s s') : Counted E key s' tr := by
  obtain ⟨k, hk, hrequests, hcounter⟩ := h.requests
  refine ⟨k, hk, hrequests.passes hpass.clock hpass.times, ?_⟩
  intro m x hcache halive
  rw [hpass.cache] at hcache
  obtain ⟨hm, hx, hcount⟩ := hcounter m x hcache (hpass.clock.trans_lt halive)
  exact ⟨hm, hx.trans (Nat.add_le_add_right hpass.clock _), hcount⟩

theorem Counted.snoc (h : Counted E key s tr) (e : OtpEntry) : Counted E key s (tr ++ [e]) := by
  obtain ⟨k, hk, hrequests, hcounter⟩ := h.requests
  refine ⟨k, hk, hrequests, ?_⟩
  intro m x hcache halive
  obtain ⟨hm, hx, hcount⟩ := hcounter m x hcache halive
  refine ⟨hm, hx, ?_⟩
  intro hclean
  apply hcount
  intro e' he'
  exact hclean e' (List.mem_append_left _ he')

/-- the call ends before the gateway is asked -/
theorem Burst.ends_early (h : Burst E key n n s) (hn : n ≤ OTPService.rateLimitCount) : Counted E key s tr := by
  refine ⟨n, hn, h.requests, ?_⟩
  intro m x hcache halive
  obtain ⟨hn0, hm, hx⟩ := h.counter m x hcache halive
  subst hm
  exact ⟨hn0, hx, fun _ => rfl⟩

/-- the call fails after the gateway was asked: as long as this counter is there, the failure is -/
theorem Burst.fails (h : Burst E key n k s) (hk : k ≤ OTPService.rateLimitCount) (hsends : e.op.Sends E key)
    (hfailed : Failed e) (hclock : e.before.clock = s.clock) : Counted E key s (tr ++ [e]) := by
  refine ⟨k, hk, h.requests, ?_⟩
  intro m x hcache halive
  obtain ⟨hn0, hm, hx⟩ := h.counter m x hcache halive
  refine ⟨hm ▸ hn0, hx, ?_⟩
  intro hclean
  have hlate := hclean e (List.mem_append_right _ (List.mem_singleton_self e)) hsends hfailed
  rw [hclock] at hlate
  exact absurd hx (not_le.2 hlate)

/-- **A call starts** undisturbed and reads the counter. -/
theorem Counted.begin (h : Counted E key s tr) {o : OtpOp} (hstart : Undisturbed E key s tr o) :
    ∃ k ≤ OTPService.rateLimitCount, k = (s.counter key).getD 0 ∧ Burst E key k k s := by
  obtain ⟨k, hk, hrequests, hcounter⟩ := h.requests
  obtain ⟨hclean, hgone⟩ := hstart
  cases hread : s.counter key with
  | none =>
    refine ⟨0, Nat.zero_le _, rfl, hrequests.restart hk (hgone hread), ?_⟩
    intro m x hcache halive
    simp [OtpSite.counter, hcache, halive] at hread
  | some m =>
    -- the counter is there, so it has counted the burst
    obtain ⟨x, hcache, halive⟩ : ∃ x, s.cache key = some (m, x) ∧ s.clock < x := by
      unfold OtpSite.counter at hread
      split at hread
      · rename_i m' x hcache
        split_ifs at hread with halive
        cases hread
        exact ⟨x, hcache, halive⟩
      · cases hread
    obtain ⟨hm, hx, hcount⟩ := hcounter m x hcache halive
    have hkm : k = m := by
      apply hcount
      intro e he hsends hfailed
      exact (hclean e he hsends hfailed).trans_lt halive
    subst hkm
    refine ⟨k, hk, rfl, hrequests, ?_⟩
    intro m' x' hcache' _
    rw [hcache] at hcache'
    cases hcache'
    exact ⟨hm, rfl, hx⟩

end Phases

/-! ## The statements of send_otp -/

section Statements

variable {E : OtpEnv} {s : OtpSite} {f : OtpSite → OtpSite} {next : OtpSite → OtpCall OtpAnswer} {phoneNumber : String}
  {reply : SendReply} {id : Pk} {n k : ℕ} {p : OtpCall OtpAnswer}

/-- the request is recorded and has to be counted -/
def sendCount (E : OtpEnv) (phoneNumber : String) (n : ℕ) : OtpCall OtpAnswer := do
  OTPService.countSend (getOtpRateLimitKey E phoneNumber) n
  return .sent 300 phoneNumber "OTP sent via Telegram"

/-- the gateway has to be asked -/
def sendRequest (E : OtpEnv) (phoneNumber : String) (reply : SendReply) (id : Pk) (n : ℕ) : OtpCall OtpAnswer := do
  let requestId ← telegramGateway.sendOtp phoneNumber reply
  TelegramOTP.create id phoneNumber requestId
  sendCount E phoneNumber n

/-- where a call is that has read `n`, with `k` requests in the burst -/
inductive SendStage (E : OtpEnv) (phoneNumber : String) (reply : SendReply) (id : Pk) (n : ℕ) :
    ℕ → OtpCall OtpAnswer → Prop where
  | revoking (c : OtpCall Unit) (hc : c.Each (Untouched E (getOtpRateLimitKey E phoneNumber))) :
    SendStage E phoneNumber reply id n n (c >>= fun _ => sendRequest E phoneNumber reply id n)
  | stamping (requestId : String) : SendStage E phoneNumber reply id n (n + 1)
    (TelegramOTP.create id phoneNumber requestId >>= fun _ => sendCount E phoneNumber n)
  | inserting (requestId : String) (now : ℕ) : SendStage E phoneNumber reply id n (n + 1)
    (TelegramOTP.insert id phoneNumber requestId now >>= fun _ => sendCount E phoneNumber n)
  | counting : SendStage E phoneNumber reply id n (n + 1) (sendCount E phoneNumber n)

/-- the first statement reads the counter -/
theorem send_first_cases (h : OTPService.sendOtp E phoneNumber reply id = .stmt f next) (hn : n = (s.counter
    (getOtpRateLimitKey E phoneNumber)).getD 0) :
    f s = s ∧ ((∃ msg, next s = .raise (.rateLimit msg)) ∨
      (n < OTPService.rateLimitCount ∧ SendStage E phoneNumber reply id n n (next s))) := by
  injection h with hf hnext
  subst hf hnext
  refine ⟨rfl, ?_⟩
  by_cases hlimit : OTPService.rateLimitCount ≤ n
  · left
    refine ⟨"Too many OTP requests. Please wait before trying again.", ?_⟩
    simp only [Code.ofExcept, Code.bind, Bind.bind, ← hn, Code.raiseIf_pos hlimit]
  · right
    refine ⟨not_le.1 hlimit, ?_⟩
    simp only [Code.ofExcept, Code.bind, Bind.bind, ← hn, Code.raiseIf_neg hlimit]
    exact .revoking _ (each_revokeExisting phoneNumber (Untouched.refl E _) (untouched_revoke E _)
      (each_deleteUnused phoneNumber (Untouched.refl E _) (untouched_otps E _)))

/-- the cache with a counter set -/
def OtpSite.setCounter (s : OtpSite) (key : String) (m expiry : ℕ) : OtpSite :=
  { s with cache := Function.update s.cache key (some (m, expiry)) }

/-- what a later statement does: nothing to the counter, the request to the gateway, or the counting -/
inductive SendStep (E : OtpEnv) (phoneNumber : String) (reply : SendReply) (id : Pk) (n k : ℕ) (s s' : OtpSite)
    (rest : OtpCall OtpAnswer) : Prop where
  | going (hsame : Untouched E (getOtpRateLimitKey E phoneNumber) s s')
      (hrest : SendStage E phoneNumber reply id n k rest)
  | asked (hk : k = n) (hsent : s' = { s with gateway := s.gateway ++ [.send phoneNumber s.clock] })
      (hrest : SendStage E phoneNumber reply id n (n + 1) rest)
  | refused (hk : k = n) (hsent : s' = { s with gateway := s.gateway ++ [.send phoneNumber s.clock] }) (x : OtpFailure)
      (hx : ∀ msg, x ≠ .rateLimit msg) (hrest : rest = .raise x)
  | failed (hk : k = n + 1) (hsame : Untouched E (getOtpRateLimitKey E phoneNumber) s s') (x : OtpFailure)
      (hx : ∀ msg, x ≠ .rateLimit msg) (hrest : rest = .raise x)
  | first (hk : k = n + 1) (hn : n = 0)
      (hset : s' = s.setCounter (getOtpRateLimitKey E phoneNumber) 1 (s.clock + OTPService.rateLimitWindow))
      (hrest : ∃ a, rest = .ret a)
  | counted (hk : k = n + 1) (m x : ℕ) (hcache : s.cache (getOtpRateLimitKey E phoneNumber) = some (m, x))
      (halive : s.clock < x) (hset : s' = s.setCounter (getOtpRateLimitKey E phoneNumber) (m + 1) x)
      (hrest : ∃ a, rest = .ret a)

/-- only a call that has not asked the gateway yet can have ended -/
theorem SendStage.ended (h : SendStage E phoneNumber reply id n k p) (hp : p.result ≠ none) : k = n := by
  cases h with
  | revoking c hc => rfl
  | stamping requestId => exact absurd rfl hp
  | inserting requestId now => exact absurd rfl hp
  | counting =>
    unfold sendCount OTPService.countSend at hp
    split_ifs at hp <;> exact absurd rfl hp

/-- at most one request of the burst is the call's own -/
theorem SendStage.le (h : SendStage E phoneNumber reply id n k p) : k ≤ n + 1 := by
  cases h with
  | revoking c hc => exact Nat.le_succ n
  | stamping requestId => exact Nat.le_refl _
  | inserting requestId now => exact Nat.le_refl _
  | counting => exact Nat.le_refl _

theorem readSend_ne_rateLimit {x : OtpFailure} (h : telegramGateway.readSend reply = .error x) (msg : String) :
    x ≠ .rateLimit msg := by
  cases reply <;> cases h <;> simp

/-- the request to the gateway -/
theorem send_request_cases (h : sendRequest E phoneNumber reply id n = .stmt f next) :
    SendStep E phoneNumber reply id n n s (f s) (next s) := by
  injection h with hf hnext
  subst hf hnext
  cases hreply : telegramGateway.readSend reply with
  | error x => exact .refused rfl rfl x (readSend_ne_rateLimit hreply) rfl
  | ok requestId =>
    exact .asked rfl rfl (.stamping requestId)

theorem send_insert_cases {requestId : String} {now : ℕ}
    (h : (TelegramOTP.insert id phoneNumber requestId now >>= fun _ => sendCount E phoneNumber n) = .stmt f next) :
    SendStep E phoneNumber reply id n (n + 1) s (f s) (next s) := by
  injection h with hf hnext
  subst hf hnext
  unfold Code.effect
  by_cases hnew : requestId.length ≤ TelegramOTP.requestIdMax ∧ s.otps.find id = none ∧
      ∀ otp ∈ s.otps.rows, otp.requestId ≠ requestId
  · simp only [if_pos hnew]
    exact .going (untouched_otps E _ s _) .counting
  · simp only [if_neg hnew]
    exact .failed rfl (Untouched.refl E _ s) (.exc .databaseError) (by simp) rfl

theorem send_count_cases (h : sendCount E phoneNumber n = .stmt f next) :
    SendStep E phoneNumber reply id n (n + 1) s (f s) (next s) := by
  by_cases hn : n = 0
  · rw [sendCount, OTPService.countSend, if_pos hn] at h
    injection h with hf hnext
    subst hf hnext
    exact .first rfl hn rfl ⟨_, rfl⟩
  · rw [sendCount, OTPService.countSend, if_neg hn] at h
    injection h with hf hnext
    subst hf hnext
    unfold Code.effect
    have hgone : SendStep E phoneNumber reply id n (n + 1) s s (.raise (.exc .valueError)) :=
      .failed rfl (Untouched.refl E _ s) (.exc .valueError) (by simp) rfl
    cases hcache : s.cache (getOtpRateLimitKey E phoneNumber) with
    | none =>
      simp only [hcache]
      exact hgone
    | some entry =>
      obtain ⟨m, x⟩ := entry
      by_cases halive : s.clock < x
      · simp only [hcache, if_pos halive]
        exact .counted rfl m x hcache halive rfl ⟨_, rfl⟩
      · simp only [hcache, if_neg halive]
        exact hgone

theorem send_cases (hstage : SendStage E phoneNumber reply id n k p) (h : p = .stmt f next) :
    SendStep E phoneNumber reply id n k s (f s) (next s) := by
  cases hstage with
  | revoking c hc =>
    cases c with
    | ret a => exact send_request_cases h
    | raise e => cases h
    | stmt f' next' =>
      injection h with hf hnext
      subst hf hnext
      obtain ⟨hsame, hnext'⟩ := hc s
      exact .going hsame (.revoking (next' s) hnext')
  | stamping requestId =>
    injection h with hf hnext
    subst hf hnext
    exact .going (Untouched.refl E _ s) (.inserting requestId s.clock)
  | inserting requestId now => exact send_insert_cases h
  | counting => exact send_count_cases h

end Statements

/-! ## The rule -/

section Rule

variable {E : OtpEnv} {key : String} {s s' : OtpSite} {tr : List OtpEntry} {e : OtpEntry} {phoneNumber : String}
  {reply : SendReply} {id : Pk} {n k : ℕ} {rest : OtpCall OtpAnswer}

/-- a call of send_otp under way -/
structure Sending (E : OtpEnv) (key : String) (s : OtpSite) (_ : List OtpEntry)
    (r : Running OtpSite OtpFailure OtpAnswer OtpOp) : Prop where
  stage : ∃ phoneNumber reply id n k, r.op = .sendOtp phoneNumber reply id ∧
    getOtpRateLimitKey E phoneNumber = key ∧ n < OTPService.rateLimitCount ∧
    SendStage E phoneNumber reply id n k r.rest ∧ Burst E key n k s

theorem Burst.send (h : Burst E (getOtpRateLimitKey E phoneNumber) n k s) :
    Burst E (getOtpRateLimitKey E phoneNumber) n (k + 1)
      { s with gateway := s.gateway ++ [.send phoneNumber s.clock] } := by
  refine ⟨h.requests.send rfl ?_, h.counter⟩
  simp [keyTimes]

/-- the call has been counted -/
theorem Requests.counted (h : Requests E key k s) (hk : k ≤ OTPService.rateLimitCount) (hk0 : k ≠ 0) {x : ℕ}
    (hx : x ≤ s.clock + OTPService.rateLimitWindow) : Counted E key (s.setCounter key k x) tr := by
  refine ⟨k, hk, h.passes (Nat.le_refl _) rfl, ?_⟩
  intro m x' hcache _
  have hset : (s.setCounter key k x).cache key = some (k, x) := Function.update_self _ _ _
  rw [hset] at hcache
  cases hcache
  exact ⟨hk0, hx, fun _ => rfl⟩

/-- **One more statement** of a call: it goes on, or has ended and is counted or known as a failure. -/
theorem SendStep.phase (h : SendStep E phoneNumber reply id n k s s' rest) (hn : n < OTPService.rateLimitCount)
    (hburst : Burst E (getOtpRateLimitKey E phoneNumber) n k s)
    (hsends : e.op.Sends E (getOtpRateLimitKey E phoneNumber)) (hbefore : e.before = s)
    (hresult : e.result = rest.result) :
    (rest.result = none → ∃ k', SendStage E phoneNumber reply id n k' rest ∧
        Burst E (getOtpRateLimitKey E phoneNumber) n k' s') ∧
      (rest.result ≠ none → Counted E (getOtpRateLimitKey E phoneNumber) s' (tr ++ [e])) := by
  have hfailed : ∀ {x : OtpFailure}, (∀ msg, x ≠ .rateLimit msg) → rest = .raise x → Failed e := by
    intro x hx hrest
    exact ⟨x, by rw [hresult, hrest]; rfl, hx⟩
  cases h with
  | going hsame hrest =>
    have hafter := hburst.passes hsame.passes
    refine ⟨fun _ => ⟨k, hrest, hafter⟩, ?_⟩
    intro hres
    have hkn := hrest.ended hres
    subst hkn
    exact hafter.ends_early hn.le
  | asked hk hsent hrest =>
    subst hk hsent
    refine ⟨fun _ => ⟨k + 1, hrest, hburst.send⟩, ?_⟩
    intro hres
    exact absurd (hrest.ended hres) (Nat.succ_ne_self k)
  | refused hk hsent x hx hrest =>
    subst hk hsent
    refine ⟨fun hres => absurd hres (Code.ended_of_raise hrest), fun _ => ?_⟩
    exact hburst.send.fails hn hsends (hfailed hx hrest) (by rw [hbefore])
  | failed hk hsame x hx hrest =>
    subst hk
    refine ⟨fun hres => absurd hres (Code.ended_of_raise hrest), fun _ => ?_⟩
    exact (hburst.passes hsame.passes).fails hn hsends (hfailed hx hrest) (by rw [hbefore, hsame.clock])
  | first hk hn0 hset hrest =>
    subst hk hn0 hset
    obtain ⟨a, hret⟩ := hrest
    refine ⟨fun hres => absurd hres (Code.ended_of_ret hret), fun _ => ?_⟩
    exact hburst.requests.counted hn (Nat.succ_ne_zero _) (Nat.le_refl _)
  | counted hk m x hcache halive hset hrest =>
    obtain ⟨-, hm, hx⟩ := hburst.counter m x hcache halive
    subst hk hm hset
    obtain ⟨a, hret⟩ := hrest
    refine ⟨fun hres => absurd hres (Code.ended_of_ret hret), fun _ => ?_⟩
    exact hburst.requests.counted hn (Nat.succ_ne_zero _) hx

theorem send_rule (E : OtpEnv) (key : String) :
    ApartRule (OtpOp.code E) OtpSite.tick (OtpOp.Sends E key) (Undisturbed E key) (Untouched E key) (Counted E key)
      (Sending E key) where
  others o ho := untouched_other E key o ho
  idle_frame s s' tr e hR hX h := (h.passes hR.passes).snoc e
  stage_frame s s' tr e r hR hX h := by
    obtain ⟨phoneNumber, reply, id, n, k, hop, hkey, hn, hstage, hburst⟩ := h.stage
    exact ⟨phoneNumber, reply, id, n, k, hop, hkey, hn, hstage, hburst.passes hR.passes⟩
  natural s tr d := by
    have hpass : Passes E key s (OtpSite.tick d s) := ⟨Nat.le_add_right _ _, rfl, rfl⟩
    refine ⟨fun h => h.passes hpass, ?_⟩
    intro r h
    obtain ⟨phoneNumber, reply, id, n, k, hop, hkey, hn, hstage, hburst⟩ := h.stage
    exact ⟨phoneNumber, reply, id, n, k, hop, hkey, hn, hstage, hburst.passes hpass⟩
  own s tr c r f next hX hr hrest := by
    rcases hr with ⟨o, ⟨hcounted, hstart⟩, rfl⟩ | hrun
    · -- the call begins
      cases o with
      | verifyOtp phoneNumber code pick => exact absurd hX id
      | sendOtp phoneNumber reply id =>
        have hkey : getOtpRateLimitKey E phoneNumber = key := hX
        subst hkey
        obtain ⟨n, hn, hread, hburst⟩ := hcounted.begin hstart
        obtain ⟨hsame, ⟨msg, hnext⟩ | ⟨hlimit, hstage⟩⟩ := send_first_cases hrest hread
        · rw [hsame]
          exact ⟨fun hres => absurd hres (Code.ended_of_raise hnext), fun _ => hcounted.snoc _⟩
        · rw [hsame]
          refine ⟨fun _ => ⟨phoneNumber, reply, id, n, n, rfl, rfl, hlimit, hstage, hburst⟩, ?_⟩
          intro _
          exact (hburst.ends_early hn).snoc _
    · obtain ⟨phoneNumber, reply, id, n, k, hop, hkey, hn, hstage, hburst⟩ := hrun.stage
      subst hkey
      obtain ⟨hgoes, hends⟩ := (send_cases (s := s) hstage hrest).phase
        (e := r.entry c tr.length s f (next s)) hn hburst hX rfl rfl
      refine ⟨?_, hends⟩
      intro hres
      obtain ⟨k', hstage', hburst'⟩ := hgoes hres
      exact ⟨phoneNumber, reply, id, n, k', hop, rfl, hn, hstage', hburst'⟩

end Rule

/-! ## The limit -/

/-- a state before the first request: no counter, and nothing has reached the gateway -/
def OtpSite.init (otps : Table TelegramOTP) (clock : ℕ) : OtpSite := ⟨otps, fun _ => none, [], clock⟩

/-- **The send rate limit.** If the calls for one counter do not overlap and start undisturbed, no interval of 600
seconds has more than 3 requests for a phone number of this counter. -/
theorem send_rate_limited (E : OtpEnv) (phoneNumber : String) (otps : Table TelegramOTP) (clock : ℕ)
    (evs : List OtpEvent)
    (hevs : (Pool.init (OtpSite.init otps clock)).Meets (OtpOp.code E) OtpSite.tick
      (Apart (OtpOp.Sends E (getOtpRateLimitKey E phoneNumber))
        (Undisturbed E (getOtpRateLimitKey E phoneNumber))) evs) :
    Limited OTPService.rateLimitWindow OTPService.rateLimitCount
      (sendTimes phoneNumber (otpRun E (OtpSite.init otps clock) evs).mem) := by
  have hinit : Counted E (getOtpRateLimitKey E phoneNumber) (OtpSite.init otps clock) [] := by
    refine ⟨0, Nat.zero_le _, ⟨⟨[], [], rfl, rfl, limited_nil _ _, ?_, ?_⟩, ?_⟩, ?_⟩
    · intro a ha
      cases ha
    · intro a ha
      cases ha
    · intro g hg
      cases hg
    · intro m x hcache
      cases hcache
  have hinv := apart_run (send_rule E _) (apartInv_init hinit) hevs
  refine Limited.sublist ?_ (sendTimes_sublist E phoneNumber _)
  by_cases hrunning : ∃ c r, (otpRun E (OtpSite.init otps clock) evs).running c = some r ∧
      r.op.Sends E (getOtpRateLimitKey E phoneNumber)
  · obtain ⟨c, r, hr, hX⟩ := hrunning
    obtain ⟨phoneNumber', reply, id, n, k, -, -, hn, hstage, hburst⟩ := (hinv.stage c r hr hX).stage
    exact hburst.requests.limited (hstage.le.trans hn)
  · obtain ⟨k, hk, hrequests, -⟩ := (hinv.idle fun c r hr hX => hrunning ⟨c, r, hr, hX⟩).requests
    exact hrequests.limited hk

instance (E : OtpEnv) (key : String) : DecidablePred (OtpOp.Sends E key)
  | .sendOtp phoneNumber _ _ => inferInstanceAs (Decidable (getOtpRateLimitKey E phoneNumber = key))
  | .verifyOtp .. => isFalse id

instance (e : OtpEntry) : Decidable (Failed e) :=
  decidable_of_iff ((e.result.any fun
    | .error (.rateLimit _) => false
    | .error _ => true
    | .ok _ => false) = true) (by
    unfold Failed
    rcases e.result with _ | x | a
    · simp
    · cases x <;> simp
    · simp)

instance (E : OtpEnv) (key : String) (s : OtpSite) (tr : List OtpEntry) (o : OtpOp) :
    Decidable (Undisturbed E key s tr o) := by
  unfold Undisturbed
  infer_instance

/-- a call of send_otp that the gateway accepts; the caller does its statements in one go -/
def demoSendTo (phoneNumber : String) (c : ℕ) : List OtpEvent :=
  .start c (.sendOtp phoneNumber (.accepted (String.ofList (List.replicate c 'r'))) c) :: List.replicate 8 (.step c)

def demoSend (c : ℕ) : List OtpEvent := demoSendTo demoPhone c

/-- three calls and a fourth that is refused, with a call for another phone under way; and one more in a later window -/
def demoWindows : List OtpEvent :=
  demoSend 1 ++ [.nature (seconds 10)] ++ (demoSendTo "+998907654321" 9).take 3 ++ demoSend 2 ++
    [.nature (seconds 10)] ++ demoSend 3 ++ demoSend 4 ++ List.replicate 6 (.step 9) ++ [.nature (seconds 601)] ++
    demoSend 5

theorem send_rate_limited_demo :
    Limited OTPService.rateLimitWindow OTPService.rateLimitCount
      (sendTimes demoPhone (otpRun demoGateway (OtpSite.init Table.empty 0) demoWindows).mem) ∧
    sendTimes demoPhone (otpRun demoGateway (OtpSite.init Table.empty 0) demoWindows).mem =
      [0, seconds 10, seconds 20, seconds 621] ∧
    ((otpRun demoGateway (OtpSite.init Table.empty 0) demoWindows).trace.filter fun e => e.call = 4).map Entry.result =
      [some (.error (.rateLimit "Too many OTP requests. Please wait before trying again."))] := by
  refine ⟨send_rate_limited demoGateway demoPhone Table.empty 0 demoWindows (meets_apart [1, 2, 3, 4, 5, 9] ?_), ?_, ?_⟩
  · decide +kernel
  · decide +kernel
  · decide +kernel

/-- one call, two more just before its counter expires, and three after that -/
def demoCalls : List OtpEvent :=
  demoSend 1 ++ [.nature (seconds 599)] ++ demoSend 2 ++ demoSend 3 ++ [.nature (seconds 2)] ++ demoSend 4 ++
    demoSend 5 ++ demoSend 6

/-- five requests between second 599 and second 601 -/
theorem rate_limit_exceeded :
    ¬ Limited OTPService.rateLimitWindow OTPService.rateLimitCount
      (sendTimes demoPhone (otpRun demoGateway (OtpSite.init Table.empty 0) demoCalls).mem) := by
  have htimes : sendTimes demoPhone (otpRun demoGateway (OtpSite.init Table.empty 0) demoCalls).mem =
      [0, seconds 599, seconds 599, seconds 601, seconds 601, seconds 601] := by
    decide +kernel
  intro hlimited
  rw [htimes] at hlimited
  exact absurd (hlimited (seconds 599)) (by decide)

end GigMarketplace
