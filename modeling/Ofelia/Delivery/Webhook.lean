import Ofelia.Config.Definition
import Ofelia.Go.Duration
import Ofelia.Template.Exec

/-! The global `Webhook` middleware as `NewWebhookFromDefinition` builds it, and
its retry loop `sendWithRetry`. The loop counter `attempt` is a Go `int` and the
backoff a `time.Duration`, both 64-bit: `attempt++` and `backoff *= 2` wrap.
Time and the network are outside the model: a sleep is an effect in the trace,
and the outcome of the `n`-th call of `sendRequest` is given.

Proved: for a retry count `0 ≤ N < 2 ^ 63 - 1` the loop makes calls `0 ..= k`,
`k` the first success or `N`, sleeping `b * 2 ^ (i - 1)` (in `Duration`
arithmetic) before call `i ≥ 1`, and returns the outcome of call `k`. For a
negative count it returns nil without any call; for the largest count and calls
that all fail it never returns. The sleeps of a run are the doubled backoffs,
which equal `b * 2 ^ (i - 1)` while that fits in 63 bits and wrap past it. -/

namespace Ofelia.Delivery

open Config

/-- `defaultRetryCount`. -/
def defaultRetryCount : GoInt := 0

/-- `defaultRetryBackoff`, one second. -/
def defaultRetryBackoff : GoInt := GoInt.ofInt Duration.second

/-- `Webhook`. The logger is not data; the `http.Client` holds only `timeout`. -/
structure Webhook where
  name : GoString
  webhookType : GoString
  active : Bool
  url : GoString
  method : GoString
  headers : Option StringMap
  body : Json.Value
  onlyOnError : Bool
  timeout : GoInt
  retryCount : GoInt
  retryBackoff : GoInt
  deriving DecidableEq, Repr

/-- `"invalid retry backoff duration %q: %w"`. -/
structure InvalidBackoff where
  backoff : GoString
  err : DurationError
  deriving DecidableEq, Repr

/-- `NewWebhookFromDefinition`. `time.Duration(def.Timeout) * time.Second` is a
64-bit product. -/
def newWebhookFromDefinition (d : WebhookDefinition) : Except InvalidBackoff Webhook :=
  let timeout := GoInt.ofInt (d.timeout.val * Duration.second)
  let retry : Except InvalidBackoff (GoInt × GoInt) :=
    match d.retry with
    | none => .ok (defaultRetryCount, defaultRetryBackoff)
    | some r =>
      if r.backoff = [] then .ok (r.count, defaultRetryBackoff)
      else match parseDuration r.backoff with
        | .error e => .error ⟨r.backoff, e⟩
        | .ok b => .ok (r.count, b)
  retry.map fun (retryCount, retryBackoff) =>
    { name := d.name, webhookType := d.type, active := d.active, url := d.url,
      method := d.method, headers := d.headers, body := d.body, onlyOnError := d.onlyOnError,
      timeout, retryCount, retryBackoff }

/-- The fields `NewWebhookFromDefinition` copies from the definition. -/
theorem newWebhookFromDefinition_fields {d : WebhookDefinition} {w : Webhook}
    (h : newWebhookFromDefinition d = .ok w) :
    w.name = d.name ∧ w.url = d.url ∧ w.body = d.body ∧ w.headers = d.headers := by
  unfold newWebhookFromDefinition at h
  split at h
  · cases h; exact ⟨rfl, rfl, rfl, rfl⟩
  · split_ifs at h
    · cases h; exact ⟨rfl, rfl, rfl, rfl⟩
    · split at h
      · cases h
      · cases h; exact ⟨rfl, rfl, rfl, rfl⟩

/-! ### Effects -/

inductive Level where
  | debug | notice | error
  deriving DecidableEq, Repr

/-- An HTTP request as it leaves `sendRequest`: `http.Header` after its `Set`
calls maps each canonical name to one value. -/
structure HttpRequest where
  method : GoString
  url : GoString
  header : GoString → Option GoString
  body : Option GoString
  timeout : GoInt

/-- Why `http.NewRequest` refuses a request: `"net/http: invalid method %q"`, or
the error of `url.Parse`. -/
inductive RequestError where
  | invalidMethod (method : GoString)
  | parseURL (err : GoString)
  deriving DecidableEq, Repr

/-- What `sendRequest` reports: `"failed to create request: %w"`,
`"request failed: %w"`, or `"non-2xx status code: %d, body: %s"`. -/
inductive SendError where
  | createRequest (err : RequestError)
  | requestFailed (err : GoString)
  | non2xx (status : Int) (body : GoString)
  deriving DecidableEq, Repr

open Template in
/-- The log lines of the delivery tasks, one constructor per format string;
those of the per-job task carry its prefix `Per-job webhook %q`. -/
inductive LogEntry where
  | retryAttempt (name : GoString) (attempt retryCount backoff : GoInt)
  | urlTemplateFailed (name : GoString) (err : TemplateError)
  | bodyTemplateFailed (name : GoString) (err : BodyError)
  | headerTemplateFailed (name key : GoString) (err : TemplateError)
  | failedAfterAttempts (name : GoString) (attempts : GoInt) (err : SendError)
  | sentSuccessfully (name url : GoString)
  | perJobCreateFailed (name : GoString) (err : InvalidBackoff)
  | perJobUrlTemplateFailed (name : GoString) (err : TemplateError)
  | perJobBodyTemplateFailed (name : GoString) (err : BodyError)
  | perJobHeaderTemplateFailed (name key : GoString) (err : TemplateError)
  | perJobFailedAfterRetries (name : GoString) (err : SendError)
  | perJobSentSuccessfully (name url : GoString)

/-- What a delivery task does, in order. -/
inductive Effect where
  | http (req : HttpRequest)
  | sleep (d : GoInt)
  | log (level : Level) (entry : LogEntry)

/-- The sleeps among a task's effects, in order. -/
def sleeps (fx : List Effect) : List GoInt :=
  fx.filterMap fun | .sleep d => some d | _ => none

@[simp] theorem sleeps_append (a b : List Effect) : sleeps (a ++ b) = sleeps a ++ sleeps b :=
  List.filterMap_append _ _ _

@[simp] theorem sleeps_nil : sleeps [] = [] := rfl

@[simp] theorem sleeps_cons_http (req : HttpRequest) (fx : List Effect) :
    sleeps (.http req :: fx) = sleeps fx := rfl

@[simp] theorem sleeps_cons_sleep (d : GoInt) (fx : List Effect) :
    sleeps (.sleep d :: fx) = d :: sleeps fx := rfl

@[simp] theorem sleeps_cons_log (level : Level) (entry : LogEntry) (fx : List Effect) :
    sleeps (.log level entry :: fx) = sleeps fx := rfl

/-! ### The retry loop -/

/-- `backoff` doubled `n` times in `Duration` arithmetic. -/
def doubled (backoff : GoInt) : Nat → GoInt
  | 0 => backoff
  | n + 1 => GoInt.ofInt ((doubled backoff n).val * 2)

/-- The `for` loop of `sendWithRetry` from `attempt` on, with `backoff` and
`lastErr` as they stand and `calls` calls of `sendRequest` made so far. `none`
when the fuel runs out before the loop returns. -/
def retryLoop (w : Webhook) (sendRequest : Nat → List Effect × Option SendError) :
    Nat → GoInt → GoInt → Option SendError → Nat → Option (List Effect × Option SendError)
  | 0, _, _, _, _ => none
  | fuel + 1, attempt, backoff, lastErr, calls =>
    if w.retryCount.val < attempt.val then some ([], lastErr)
    else
      let (pre, backoff') : List Effect × GoInt :=
        if 0 < attempt.val then
          ([.log .debug (.retryAttempt w.name attempt w.retryCount backoff), .sleep backoff],
            GoInt.ofInt (backoff.val * 2))
        else ([], backoff)
      match sendRequest calls with
      | (fx, none) => some (pre ++ fx, none)
      | (fx, some e) =>
        (retryLoop w sendRequest fuel (GoInt.ofInt (attempt.val + 1)) backoff' (some e) (calls + 1)).map
          fun (rest, r) => (pre ++ fx ++ rest, r)

/-- `sendWithRetry`: its effects and the error it returns (`none` for nil). -/
def sendWithRetry (w : Webhook) (sendRequest : Nat → List Effect × Option SendError)
    (fuel : Nat) : Option (List Effect × Option SendError) :=
  retryLoop w sendRequest fuel 0 w.retryBackoff none 0

/-! ### Runs of the loop -/

/-- The backoff the loop holds when it reaches attempt `i`. -/
def backoffBefore (b : GoInt) : Nat → GoInt
  | 0 => b
  | i + 1 => doubled b i

/-- What attempt `i` adds to the trace: the retry line and the sleep (from the
second attempt on), then the effects of the call. -/
def attemptEffects (w : Webhook) (send : Nat → List Effect × Option SendError) (i : Nat) :
    List Effect :=
  (if i = 0 then [] else
    [.log .debug (.retryAttempt w.name (GoInt.ofInt i) w.retryCount (doubled w.retryBackoff (i - 1))),
      .sleep (doubled w.retryBackoff (i - 1))]) ++ (send i).1

/-- The first index in `i ..= i + m` whose call succeeds, or `i + m`. -/
def firstSuccess (send : Nat → List Effect × Option SendError) (i : Nat) : Nat → Nat
  | 0 => i
  | m + 1 => if (send i).2 = none then i else firstSuccess send (i + 1) m

theorem retryLoop_past (w : Webhook) (send : Nat → List Effect × Option SendError) (fuel : Nat)
    (attempt backoff : GoInt) (lastErr : Option SendError) (calls : Nat)
    (h : w.retryCount.val < attempt.val) :
    retryLoop w send (fuel + 1) attempt backoff lastErr calls = some ([], lastErr) := by
  simp [retryLoop, h]

theorem ofInt_natCast_val {i : Nat} (h : (i : Int) ≤ maxInt) : (GoInt.ofInt i).val = i :=
  GoInt.ofInt_val_of_range (by simp only [minInt]; omega) h

/-- One attempt `i` within the retry count. -/
theorem retryLoop_attempt (w : Webhook) (send : Nat → List Effect × Option SendError)
    (fuel i : Nat) (lastErr : Option SendError) (hi : (i : Int) ≤ w.retryCount.val)
    (hN : w.retryCount.val < maxInt) :
    retryLoop w send (fuel + 1) (GoInt.ofInt i) (backoffBefore w.retryBackoff i) lastErr i =
      match (send i).2 with
      | none => some (attemptEffects w send i, none)
      | some e =>
        (retryLoop w send fuel (GoInt.ofInt ((i + 1 : Nat) : Int)) (backoffBefore w.retryBackoff (i + 1))
          (some e) (i + 1)).map fun (rest, r) => (attemptEffects w send i ++ rest, r) := by
  rw [Nat.cast_succ]
  generalize ha : GoInt.ofInt i = a
  have hv : a.val = i := ha ▸ ofInt_natCast_val (by omega)
  rw [retryLoop, if_neg (by rw [hv]; omega), hv]
  rcases h : send i with ⟨fx, err⟩
  cases i with
  | zero =>
    cases err <;> simp only [h, attemptEffects, backoffBefore, doubled, Nat.cast_zero,
      lt_self_iff_false, ite_false, ite_true, List.nil_append, zero_add, Nat.cast_ofNat]
  | succ j =>
    have hpos : (0 : Int) < (j + 1 : Nat) := by omega
    cases err <;> simp only [h, hpos, attemptEffects, backoffBefore, doubled, ite_true,
      Nat.add_one_ne_zero, ite_false, Nat.add_sub_cancel, List.cons_append, List.nil_append,
      List.append_assoc, ha]

theorem le_firstSuccess (send : Nat → List Effect × Option SendError) (i m : Nat) :
    i ≤ firstSuccess send i m := by
  induction m generalizing i with
  | zero => exact le_rfl
  | succ m ih => unfold firstSuccess; split_ifs <;> [exact le_rfl; exact (ih (i + 1)).trans' (by omega)]

/-- From attempt `i`, `m` attempts before the retry count is reached. -/
theorem retryLoop_from (w : Webhook) (send : Nat → List Effect × Option SendError)
    (hN : w.retryCount.val < maxInt) (m : Nat) : ∀ (i fuel : Nat) (lastErr : Option SendError),
    (i + m : Int) = w.retryCount.val → m + 2 ≤ fuel →
    retryLoop w send fuel (GoInt.ofInt i) (backoffBefore w.retryBackoff i) lastErr i =
      some ((List.range' i (firstSuccess send i m - i + 1)).flatMap (attemptEffects w send),
        (send (firstSuccess send i m)).2) := by
  induction m with
  | zero =>
    intro i fuel lastErr hi hf
    obtain ⟨f, rfl⟩ : ∃ f, fuel = f + 1 + 1 := ⟨fuel - 2, by omega⟩
    rw [retryLoop_attempt w send _ i lastErr (by omega) hN]
    cases hs : (send i).2 with
    | none => simp [firstSuccess, hs]
    | some e =>
      dsimp only
      rw [retryLoop_past _ _ _ _ _ _ _ (by rw [ofInt_natCast_val (by push_cast; omega)]; push_cast; omega)]
      simp [firstSuccess, hs]
  | succ m ih =>
    intro i fuel lastErr hi hf
    obtain ⟨f, rfl⟩ : ∃ f, fuel = f + 1 := ⟨fuel - 1, by omega⟩
    rw [retryLoop_attempt w send _ i lastErr (by omega) hN]
    cases hs : (send i).2 with
    | none => simp [firstSuccess, hs]
    | some e =>
      have hge := le_firstSuccess send (i + 1) m
      dsimp only
      rw [ih (i + 1) f (some e) (by push_cast; omega) (by omega)]
      simp only [firstSuccess, hs, reduceCtorEq, ite_false, Option.map_some']
      rw [show firstSuccess send (i + 1) m - i + 1 = (firstSuccess send (i + 1) m - (i + 1) + 1) + 1 by omega]
      simp only [List.range'_succ, List.flatMap_cons, List.append_assoc]

theorem firstSuccess_spec (send : Nat → List Effect × Option SendError) (i m : Nat) :
    firstSuccess send i m ≤ i + m ∧ (∀ j, i ≤ j → j < firstSuccess send i m → (send j).2 ≠ none) ∧
      ((send (firstSuccess send i m)).2 = none ∨ firstSuccess send i m = i + m) := by
  induction m generalizing i with
  | zero => exact ⟨le_rfl, fun j h1 h2 => absurd h2 (by simp [firstSuccess]; omega), .inr rfl⟩
  | succ m ih =>
    obtain ⟨h1, h2, h3⟩ := ih (i + 1)
    by_cases hs : (send i).2 = none
    · rw [firstSuccess, if_pos hs]
      exact ⟨by omega, fun j hj hj' => absurd hj' (by omega), .inl hs⟩
    · rw [firstSuccess, if_neg hs]
      refine ⟨by omega, fun j hj hj' => ?_, h3.imp id fun h => by omega⟩
      rcases Nat.eq_or_lt_of_le hj with rfl | hj
      · exact hs
      · exact h2 j hj hj'

/-- For a retry count `0 ≤ N < 2 ^ 63 - 1`, `sendWithRetry` calls `sendRequest` for
attempts `0 ..= k`, where `k` is the first success or `N`; before each attempt
`i ≥ 1` it logs the retry and sleeps the initial backoff doubled `i - 1` times;
it returns what call `k` returned. -/
theorem sendWithRetry_attempts (w : Webhook) (send : Nat → List Effect × Option SendError)
    (fuel : Nat) (h0 : 0 ≤ w.retryCount.val) (h1 : w.retryCount.val < maxInt)
    (hf : w.retryCount.val.toNat + 2 ≤ fuel) :
    ∃ k, k ≤ w.retryCount.val.toNat ∧ (∀ j < k, (send j).2 ≠ none) ∧
      ((send k).2 = none ∨ k = w.retryCount.val.toNat) ∧
      sendWithRetry w send fuel = some ((List.range (k + 1)).flatMap fun i =>
        (if i = 0 then [] else
          [.log .debug (.retryAttempt w.name (GoInt.ofInt i) w.retryCount (doubled w.retryBackoff (i - 1))),
            .sleep (doubled w.retryBackoff (i - 1))]) ++ (send i).1,
        (send k).2) := by
  obtain ⟨hk, hfail, hlast⟩ := firstSuccess_spec send 0 w.retryCount.val.toNat
  refine ⟨_, by omega, fun j hj => hfail j (Nat.zero_le j) hj, by simpa using hlast, ?_⟩
  have := retryLoop_from w send h1 w.retryCount.val.toNat 0 fuel none (by simp; omega) (by omega)
  rw [Nat.sub_zero, ← List.range_eq_range'] at this
  exact this

/-- The webhook of `TestRetryLogic`: three retries from a 10ms backoff. -/
def retryTestWebhook : Webhook :=
  { name := lit "retry-test", webhookType := webhookTypeAll, active := true,
    url := lit "http://127.0.0.1/", method := lit "POST", headers := none, body := .null,
    onlyOnError := false, timeout := GoInt.ofInt (5 * Duration.second), retryCount := 3,
    retryBackoff := GoInt.ofInt (10 * Duration.millisecond) }

/-- The server of `TestRetryLogic`: status 500 twice, then success. -/
def failTwice (n : Nat) : List Effect × Option SendError :=
  ([], if n < 2 then some (.non2xx 500 []) else none)

theorem sendWithRetry_attempts_retryTest :
    0 ≤ retryTestWebhook.retryCount.val ∧ retryTestWebhook.retryCount.val < maxInt ∧
      retryTestWebhook.retryCount.val.toNat + 2 ≤ 5 ∧
    ∃ k, k ≤ retryTestWebhook.retryCount.val.toNat ∧ (∀ j < k, (failTwice j).2 ≠ none) ∧
      ((failTwice k).2 = none ∨ k = retryTestWebhook.retryCount.val.toNat) ∧
      sendWithRetry retryTestWebhook failTwice 5 = some ((List.range (k + 1)).flatMap fun i =>
        (if i = 0 then [] else
          [.log .debug (.retryAttempt retryTestWebhook.name (GoInt.ofInt i) retryTestWebhook.retryCount
            (doubled retryTestWebhook.retryBackoff (i - 1))),
            .sleep (doubled retryTestWebhook.retryBackoff (i - 1))]) ++ (failTwice i).1,
        (failTwice k).2) :=
  ⟨by decide, by decide, by decide,
    sendWithRetry_attempts retryTestWebhook failTwice 5 (by decide) (by decide) (by decide)⟩

/-- With a negative retry count the loop body never runs: `sendWithRetry` returns
nil without calling `sendRequest`. -/
theorem sendWithRetry_negative_count (w : Webhook) (send : Nat → List Effect × Option SendError)
    (fuel : Nat) (h : w.retryCount.val < 0) : sendWithRetry w send (fuel + 1) = some ([], none) :=
  retryLoop_past w send fuel 0 _ none 0 (by rw [show (0 : GoInt).val = 0 from rfl]; exact h)

/-- With the largest retry count `attempt <= retryCount` always holds, since
`attempt++` wraps from `2 ^ 63 - 1` to `-2 ^ 63`: when every call fails the loop
never returns. -/
theorem sendWithRetry_maxInt_diverges (w : Webhook) (send : Nat → List Effect × Option SendError)
    (h : w.retryCount.val = maxInt) (hfail : ∀ n, (send n).2 ≠ none) (fuel : Nat) :
    sendWithRetry w send fuel = none := by
  suffices ∀ fuel attempt backoff lastErr calls,
      retryLoop w send fuel attempt backoff lastErr calls = none from this ..
  intro fuel
  induction fuel with
  | zero => intros; rfl
  | succ fuel ih =>
    intro attempt backoff lastErr calls
    rw [retryLoop, if_neg (by rw [h]; exact not_lt.2 attempt.2.2)]
    rcases hs : send calls with ⟨fx, _ | e⟩
    · exact absurd (congrArg Prod.snd hs) (hfail calls)
    · simp only [ih, Option.map_none']

/-- A server that answers every request with status 500. -/
def alwaysFail (_ : Nat) : List Effect × Option SendError := ([], some (.non2xx 500 []))

theorem sendWithRetry_maxInt_diverges_alwaysFail :
    ({ retryTestWebhook with retryCount := GoInt.ofInt maxInt }).retryCount.val = maxInt ∧
      (∀ n, (alwaysFail n).2 ≠ none) ∧
      sendWithRetry { retryTestWebhook with retryCount := GoInt.ofInt maxInt } alwaysFail 100 = none :=
  ⟨by decide, fun _ => Option.some_ne_none _,
    sendWithRetry_maxInt_diverges _ _ (by decide) (fun _ => Option.some_ne_none _) 100⟩

/-! ### The sleeps of a run -/

/-- Doubling a nonnegative backoff is exact while the result fits in 64 bits. -/
theorem doubled_val {b : GoInt} (h0 : 0 ≤ b.val) :
    ∀ {n : Nat}, b.val * 2 ^ n ≤ maxInt → (doubled b n).val = b.val * 2 ^ n
  | 0, _ => by simp [doubled]
  | n + 1, h => by
    have hx : 0 ≤ b.val * 2 ^ n := Int.mul_nonneg h0 (by exact_mod_cast Nat.zero_le (2 ^ n))
    rw [pow_succ, ← mul_assoc] at h ⊢
    simp only [maxInt] at h
    rw [doubled, doubled_val h0 (by simp only [maxInt]; omega)]
    exact GoInt.ofInt_val_of_range (by simp only [minInt]; omega) (by simp only [maxInt]; omega)

theorem sleeps_attemptEffects (w : Webhook) (send : Nat → List Effect × Option SendError)
    (hs : ∀ i, sleeps (send i).1 = []) (i : Nat) :
    sleeps (attemptEffects w send i) = if i = 0 then [] else [doubled w.retryBackoff (i - 1)] := by
  cases i <;> simp [attemptEffects, hs]

/-- Attempts `0 ..= k` sleep the backoff doubled `0, 1, …, k - 1` times. -/
theorem sleeps_attempts (w : Webhook) (send : Nat → List Effect × Option SendError)
    (hs : ∀ i, sleeps (send i).1 = []) (k : Nat) :
    sleeps ((List.range (k + 1)).flatMap (attemptEffects w send)) =
      (List.range k).map (doubled w.retryBackoff) := by
  induction k with
  | zero => simp [List.range_succ, sleeps_attemptEffects w send hs]
  | succ k ih =>
    rw [List.range_succ, List.flatMap_append, sleeps_append, ih, List.range_succ, List.map_append]
    simp [sleeps_attemptEffects w send hs]

/-- For a retry count `0 ≤ N < 2 ^ 63 - 1` and calls that do not sleep, the loop
sleeps the initial backoff doubled `0, 1, …, k - 1` times, `k` the first
success or `N`. -/
theorem sendWithRetry_sleeps (w : Webhook) (send : Nat → List Effect × Option SendError)
    (fuel : Nat) (h0 : 0 ≤ w.retryCount.val) (h1 : w.retryCount.val < maxInt)
    (hf : w.retryCount.val.toNat + 2 ≤ fuel) (hs : ∀ i, sleeps (send i).1 = []) :
    ∃ k, k ≤ w.retryCount.val.toNat ∧ ((send k).2 = none ∨ k = w.retryCount.val.toNat) ∧
      (sendWithRetry w send fuel).map (fun r => sleeps r.1) =
        some ((List.range k).map (doubled w.retryBackoff)) := by
  obtain ⟨hk, -, hlast⟩ := firstSuccess_spec send 0 w.retryCount.val.toNat
  have := retryLoop_from w send h1 w.retryCount.val.toNat 0 fuel none (by simp; omega) (by omega)
  rw [Nat.sub_zero, ← List.range_eq_range'] at this
  refine ⟨firstSuccess send 0 w.retryCount.val.toNat, by omega, by simpa using hlast, ?_⟩
  have e : sendWithRetry w send fuel = _ := this
  rw [e, Option.map_some', sleeps_attempts w send hs]

/-- With fuel for every attempt, the loop makes its first call and keeps what it did. -/
theorem sendWithRetry_first (w : Webhook) (send : Nat → List Effect × Option SendError)
    (fuel : Nat) (h0 : 0 ≤ w.retryCount.val) (h1 : w.retryCount.val < maxInt)
    (hf : w.retryCount.val.toNat + 2 ≤ fuel) :
    ∃ fx err, sendWithRetry w send fuel = some ((send 0).1 ++ fx, err) := by
  have := retryLoop_from w send h1 w.retryCount.val.toNat 0 fuel none (by simp; omega) (by omega)
  rw [List.range'_succ, List.flatMap_cons] at this
  exact ⟨_, _, this⟩

end Ofelia.Delivery
