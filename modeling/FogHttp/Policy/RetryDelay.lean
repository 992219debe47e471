import FogHttp.Lib.Float
import FogHttp.Policy.Retry

/-!
# The configured delay of a retry

`RetryPolicy::new` checks the options of a policy, and `RetryPolicy::delay` computes
the delay before a retry from the backoff, the number of completed retries and a
random sample.  Durations are in nanoseconds, and `none` is a panic.

The power of two is computed before the sum is capped.  It is infinite from
`2 ^ 1024` on, and its product with a backoff of zero is NaN, for which the cap itself
is the minimum.  `delay_eq` and `delay_eq_max` are the two outcomes.
-/

namespace FogHttp

open Lib

/-! ## Numeric options -/

/-- `MAX_NUMERIC_OPTION`. -/
def maxNumericOption : Nat := 2 ^ 31 - 1

/-- `MAX_DURATION_SECONDS`. -/
def maxDurationSeconds : ℚ := 2147483647

/-- `integer_error`. -/
def integerError (name : Text) : Text :=
  name ++ " must be an integer between 0 and ".toList ++ decimal maxNumericOption

/-- `seconds_error`. -/
def secondsError (name : Text) : Text :=
  name ++ " must be a finite number between 0 and ".toList ++ decimal maxNumericOption

/-- `validate_usize_option`. -/
def validateUsizeOption (name : Text) (value : Nat) : Except Text Nat :=
  if value ≤ maxNumericOption then .ok value else .error (integerError name)

/-- `duration_from_secs`. -/
def durationFromSecs (name : Text) (seconds : F64) : Option (Except Text Nat) :=
  if seconds.isFinite &&
      (F64.le (.finite 0) seconds && seconds.le (.finite maxDurationSeconds)) then
    seconds.toDuration.map .ok
  else some (.error (secondsError name))

/-- `i32::try_from`, with the panic of `expect`. -/
def tryFromI32 (value : Nat) : Option Nat := if value ≤ 2 ^ 31 - 1 then some value else none

/-! ## The policy -/

/-- `RetryPolicy` with its `backoff` and its `jitter`. -/
structure TimedRetryPolicy extends RetryPolicy where
  backoff : Nat
  jitter : Nat
deriving DecidableEq, Repr

/-- `validate_statuses`. -/
def validateStatuses (statuses : List Nat) : Except Text (List Nat) :=
  if statuses.all fun status => 100 ≤ status && status ≤ 599 then .ok statuses
  else .error "RetryConditions.statuses must contain values between 100 and 599".toList

/-- `validate_methods`.  `fromBytes` is `Method::from_bytes` of the `http` crate. -/
def validateMethods (fromBytes : Text → Option Text) (methods : List Text) :
    Except Text (List Text) :=
  methods.mapM fun method =>
    match fromBytes method with
    | some method => .ok (toAsciiUppercase method)
    | none => .error "RetryPolicy.methods must contain valid HTTP method tokens".toList

/-- The `?` operator on a result that is computed without a panic. -/
def ofResult {α : Type} (result : Except Text α) : ExceptT Text Option α :=
  ExceptT.mk (some result)

namespace TimedRetryPolicy

/-- `RetryPolicy::new`. -/
def new (fromBytes : Text → Option Text) (retries : Nat) (backoff jitter : F64)
    (statuses : List Nat) (methods : List Text) (networkErrors : Bool) :
    ExceptT Text Option TimedRetryPolicy := do
  let retries ← ofResult (validateUsizeOption "RetryPolicy.retries".toList retries)
  let backoff ← ExceptT.mk (durationFromSecs "RetryPolicy.backoff".toList backoff)
  let jitter ← ExceptT.mk (durationFromSecs "RetryPolicy.jitter".toList jitter)
  let statuses ← ofResult (validateStatuses statuses)
  let methods ← ofResult (validateMethods fromBytes methods)
  return { retries, backoff, jitter, statuses, methods, networkErrors }

/-- `RetryPolicy::delay`. -/
def delay (policy : TimedRetryPolicy) (completedRetries : Nat) (jitterSample : F64) :
    Option Nat := do
  let exponent ← tryFromI32 (min completedRetries (2 ^ 31 - 1))
  let exponential := F64.ofDuration policy.backoff * F64.powi (.finite 2) exponent
  let jitter := F64.ofDuration policy.jitter * jitterSample.clamp (.finite 0) (.finite 1)
  F64.toDuration ((exponential + jitter).min (F64.ofDuration maxRetryDelay))

/-! ## Accepted policies -/

/-- A policy with durations within the cap. -/
structure Accepted (policy : TimedRetryPolicy) : Prop where
  retries : policy.retries ≤ maxNumericOption
  backoff : policy.backoff ≤ maxRetryDelay
  jitter : policy.jitter ≤ maxRetryDelay

/-- The seconds that pass the check are a duration up to the cap. -/
theorem durationFromSecs_spec (name : Text) (seconds : F64) :
    durationFromSecs name seconds = some (.error (secondsError name)) ∨
      ∃ duration ≤ maxRetryDelay, durationFromSecs name seconds = some (.ok duration) := by
  unfold durationFromSecs
  split
  · rename_i hchecked
    simp only [Bool.and_eq_true] at hchecked
    obtain ⟨hfinite, hlow, hhigh⟩ := hchecked
    cases seconds with
    | finite seconds =>
        rw [F64.finite_le_finite] at hlow hhigh
        have hbound : seconds * 10 ^ 9 ≤ ((maxRetryDelay : ℕ) : ℚ) := by
          calc
            seconds * 10 ^ 9 ≤ maxDurationSeconds * 10 ^ 9 := by gcongr
            _ = ((maxRetryDelay : ℕ) : ℚ) := by norm_num [maxDurationSeconds, maxRetryDelay]
        have hround := roundHalfEven_mono hbound
        rw [roundHalfEven_natCast] at hround
        refine .inr ⟨(roundHalfEven (seconds * 10 ^ 9)).toNat, by omega, ?_⟩
        rw [F64.toDuration_of_le hlow hbound (by decide)]
        rfl
    | _ => simp [F64.isFinite] at hfinite
  · exact .inl rfl

theorem le_of_durationFromSecs {name : Text} {seconds : F64} {duration : Nat}
    (h : durationFromSecs name seconds = some (.ok duration)) : duration ≤ maxRetryDelay := by
  rcases durationFromSecs_spec name seconds with herror | ⟨checked, hle, hok⟩
  · simp [herror] at h
  · obtain rfl := Except.ok.inj (Option.some.inj (hok.symm.trans h))
    exact hle

variable {fromBytes : Text → Option Text} {retries : Nat} {backoff jitter : F64}
  {statuses : List Nat} {methods : List Text} {networkErrors : Bool} {policy : TimedRetryPolicy}

theorem accepted_of_new (h : (new fromBytes retries backoff jitter statuses methods
    networkErrors).run = some (.ok policy)) : policy.Accepted := by
  unfold new at h
  rw [run_bind_eq_ok] at h
  obtain ⟨checkedRetries, hretries, h⟩ := h
  rw [run_bind_eq_ok] at h
  obtain ⟨backoffDuration, hbackoff, h⟩ := h
  rw [run_bind_eq_ok] at h
  obtain ⟨jitterDuration, hjitter, h⟩ := h
  rw [run_bind_eq_ok] at h
  obtain ⟨checkedStatuses, -, h⟩ := h
  rw [run_bind_eq_ok] at h
  obtain ⟨checkedMethods, -, h⟩ := h
  obtain rfl : _ = policy := by simpa using h
  refine ⟨?_, le_of_durationFromSecs hbackoff, le_of_durationFromSecs hjitter⟩
  have hchecked : validateUsizeOption "RetryPolicy.retries".toList retries =
      .ok checkedRetries := Option.some.inj hretries
  unfold validateUsizeOption at hchecked
  split at hchecked
  · obtain rfl := Except.ok.inj hchecked
    assumption
  · cases hchecked

/-! ## The delay -/

/-- The delay by the formula, in nanoseconds. -/
def formula (policy : TimedRetryPolicy) (completedRetries : Nat) (sample : ℚ) : ℚ :=
  min (policy.backoff * 2 ^ completedRetries + policy.jitter * sample) maxRetryDelay

section

variable {k : Nat} {sample : ℚ}

theorem maxRetryDelay_lt_two_pow {k : Nat} (h : 1024 ≤ k) : (maxRetryDelay : ℚ) < 2 ^ k := by
  have hmax : maxRetryDelay < 2 ^ 64 := by decide
  calc
    (maxRetryDelay : ℚ) < 2 ^ 64 := by exact_mod_cast hmax
    _ ≤ 2 ^ k := pow_le_pow_right₀ one_le_two (by omega)

/-- The jitter is a part of the cap. -/
theorem Accepted.jitter_mul_le (h : policy.Accepted) (hnonneg : 0 ≤ sample) (hle : sample ≤ 1) :
    0 ≤ policy.jitter * sample ∧ policy.jitter * sample ≤ maxRetryDelay := by
  have hjitter : (policy.jitter : ℚ) ≤ maxRetryDelay := Nat.cast_le.mpr h.jitter
  refine ⟨by positivity, ?_⟩
  calc
    policy.jitter * sample ≤ policy.jitter * 1 := by gcongr
    _ = policy.jitter := mul_one _
    _ ≤ maxRetryDelay := hjitter

theorem formula_mem (h : policy.Accepted) (hnonneg : 0 ≤ sample) (hle : sample ≤ 1) :
    0 ≤ policy.formula k sample ∧ policy.formula k sample ≤ maxRetryDelay := by
  have hjitter := (h.jitter_mul_le hnonneg hle).1
  exact ⟨le_min (by positivity) (Nat.cast_nonneg _), min_le_right _ _⟩

/-- A duration of a rational number of nanoseconds up to the cap. -/
theorem toDuration_nanos {nanos : ℚ} (hnonneg : 0 ≤ nanos) (hle : nanos ≤ maxRetryDelay) :
    F64.toDuration (.finite (nanos / 10 ^ 9)) = some (roundHalfEven nanos).toNat := by
  have hnanos : nanos / 10 ^ 9 * 10 ^ 9 = nanos := div_mul_cancel₀ nanos (by norm_num)
  have hduration := F64.toDuration_of_le (div_nonneg hnonneg (by norm_num))
    (hnanos.trans_le hle) (by decide)
  rw [hduration, hnanos]

/-- The exponent is the number of completed retries. -/
theorem delay_of_lt (h : policy.Accepted) (hk : k < policy.retries) (sample : F64) :
    policy.delay k sample = F64.toDuration
      ((F64.ofDuration policy.backoff * F64.powi (.finite 2) k +
        F64.ofDuration policy.jitter * sample.clamp (.finite 0) (.finite 1)).min
          (F64.ofDuration maxRetryDelay)) := by
  have hretries : policy.retries ≤ 2 ^ 31 - 1 := h.retries
  have hexponent : tryFromI32 (min k (2 ^ 31 - 1)) = some k := by
    rw [min_eq_left (by omega)]
    exact if_pos (by omega)
  unfold delay
  rw [hexponent]
  rfl

theorem cap_seconds_lt : (maxRetryDelay : ℚ) / 10 ^ 9 < 2 ^ 1024 :=
  (div_le_self (Nat.cast_nonneg _) (by norm_num)).trans_lt (maxRetryDelay_lt_two_pow le_rfl)

/-- The jitter does not overflow. -/
theorem Accepted.jitter_mul (h : policy.Accepted) (hnonneg : 0 ≤ sample) (hle : sample ≤ 1) :
    F64.ofDuration policy.jitter * .finite sample =
      .finite (policy.jitter * sample / 10 ^ 9) := by
  obtain ⟨hjitterNonneg, hjitterLe⟩ := h.jitter_mul_le hnonneg hle
  have hseconds : 0 ≤ policy.jitter * sample / 10 ^ 9 := div_nonneg hjitterNonneg (by norm_num)
  have hsmall : policy.jitter * sample / 10 ^ 9 ≤ maxRetryDelay / 10 ^ 9 := by gcongr
  rw [F64.ofDuration, F64.finite_mul_finite, div_mul_eq_mul_div]
  exact F64.ofRat_of_lt (F64.neg_lt_of_nonneg hseconds) (hsmall.trans_lt cap_seconds_lt)

/-- A backoff that is not zero reaches the cap before the power overflows. -/
theorem formula_of_le (hbackoff : policy.backoff ≠ 0) (hpower : 1024 ≤ k)
    (hjitter : 0 ≤ policy.jitter * sample) : policy.formula k sample = maxRetryDelay := by
  have hone : 1 ≤ policy.backoff := Nat.one_le_iff_ne_zero.mpr hbackoff
  refine min_eq_right ?_
  calc
    (maxRetryDelay : ℚ) ≤ 1 * 2 ^ k := by
      rw [one_mul]
      exact (maxRetryDelay_lt_two_pow hpower).le
    _ ≤ policy.backoff * 2 ^ k := by gcongr; exact_mod_cast hone
    _ ≤ policy.backoff * 2 ^ k + policy.jitter * sample := le_add_of_nonneg_right hjitter

/-- The capped sum is the formula, also where the power overflows. -/
theorem capped_sum_eq (hjitter : 0 ≤ policy.jitter * sample)
    (hpower : policy.backoff ≠ 0 ∨ k < 1024) :
    (F64.ofDuration policy.backoff * F64.powi (.finite 2) k +
      .finite (policy.jitter * sample / 10 ^ 9)).min (F64.ofDuration maxRetryDelay) =
        .finite (policy.formula k sample / 10 ^ 9) := by
  have hjitterSecs : 0 ≤ policy.jitter * sample / 10 ^ 9 := div_nonneg hjitter (by norm_num)
  have hbackoffSecs : (0 : ℚ) ≤ policy.backoff / 10 ^ 9 * 2 ^ k := by positivity
  rw [F64.powi_two, F64.ofDuration, F64.ofDuration]
  rcases Nat.lt_or_ge k 1024 with hlt | hge
  · rw [if_pos hlt, F64.finite_mul_finite,
      F64.ofRat_add_min_finite hbackoffSecs hjitterSecs cap_seconds_lt, div_mul_eq_mul_div,
      ← add_div, min_div_div_right (by norm_num)]
    rfl
  · have hbackoff : policy.backoff ≠ 0 := by omega
    have hpositive : (0 : ℚ) < policy.backoff / 10 ^ 9 := by positivity
    rw [if_neg hge.not_gt, F64.finite_mul_posInf hpositive, F64.posInf_add_finite,
      formula_of_le hbackoff hge hjitter]
    rfl

/-- The delay is the rounded formula, unless an infinite power meets a backoff of zero. -/
theorem delay_eq (h : policy.Accepted) (hk : k < policy.retries) (hnonneg : 0 ≤ sample)
    (hle : sample ≤ 1) (hpower : policy.backoff ≠ 0 ∨ k < 1024) :
    policy.delay k (.finite sample) = some (roundHalfEven (policy.formula k sample)).toNat := by
  have hjitter := (h.jitter_mul_le hnonneg hle).1
  obtain ⟨hformulaNonneg, hformulaLe⟩ := formula_mem (k := k) h hnonneg hle
  rw [delay_of_lt h hk, F64.clamp_of_mem hnonneg hle, h.jitter_mul hnonneg hle,
    capped_sum_eq hjitter hpower]
  exact toDuration_nanos hformulaNonneg hformulaLe

/-- A backoff of zero is delayed by the cap once the power is infinite. -/
theorem delay_eq_max (h : policy.Accepted) (hk : k < policy.retries) (hbackoff : policy.backoff = 0)
    (hpower : 1024 ≤ k) (sample : F64) : policy.delay k sample = some maxRetryDelay := by
  have hnan : F64.ofDuration policy.backoff * F64.powi (.finite 2) k = .nan := by
    rw [F64.powi_two, if_neg hpower.not_gt, hbackoff, F64.ofDuration, Nat.cast_zero, zero_div]
    exact F64.zero_mul_posInf
  have hcap := toDuration_nanos (Nat.cast_nonneg maxRetryDelay) le_rfl
  rw [roundHalfEven_natCast, Int.toNat_natCast] at hcap
  rw [delay_of_lt h hk, hnan, F64.nan_add]
  exact hcap

/-- The formula grows with the completed retries. -/
theorem formula_mono {j : Nat} (h : j ≤ k) (sample : ℚ) :
    policy.formula j sample ≤ policy.formula k sample := by
  have hpower : (2 : ℚ) ^ j ≤ 2 ^ k := pow_le_pow_right₀ one_le_two h
  refine min_le_min_right _ ?_
  gcongr

theorem toNat_roundHalfEven_formula_le (h : policy.Accepted) (hnonneg : 0 ≤ sample)
    (hle : sample ≤ 1) : (roundHalfEven (policy.formula k sample)).toNat ≤ maxRetryDelay := by
  have hround := roundHalfEven_mono (formula_mem (k := k) h hnonneg hle).2
  rw [roundHalfEven_natCast] at hround
  omega

/-- The delay does not panic, does not pass the cap, and grows with the completed retries. -/
theorem delay_mono (h : policy.Accepted) (hk : k < policy.retries) (hnonneg : 0 ≤ sample)
    (hle : sample ≤ 1) : ∃ delay, policy.delay k (.finite sample) = some delay ∧
      delay ≤ maxRetryDelay ∧ ∀ j ≤ k, ∃ earlier, policy.delay j (.finite sample) = some earlier ∧
        earlier ≤ delay := by
  by_cases hpower : policy.backoff ≠ 0 ∨ k < 1024
  · refine ⟨_, delay_eq h hk hnonneg hle hpower, toNat_roundHalfEven_formula_le h hnonneg hle,
      fun j hj => ⟨_, delay_eq h (by omega) hnonneg hle (by omega), ?_⟩⟩
    exact Int.toNat_le_toNat (roundHalfEven_mono (formula_mono hj sample))
  · obtain ⟨hbackoff, hlarge⟩ : policy.backoff = 0 ∧ 1024 ≤ k := by omega
    refine ⟨_, delay_eq_max h hk hbackoff hlarge _, le_rfl, fun j hj => ?_⟩
    by_cases hearlier : j < 1024
    · exact ⟨_, delay_eq h (by omega) hnonneg hle (.inr hearlier),
        toNat_roundHalfEven_formula_le h hnonneg hle⟩
    · exact ⟨_, delay_eq_max h (by omega) hbackoff (by omega) _, le_rfl⟩

/-- Without a `Retry-After` header, a decision to retry takes the configured delay. -/
theorem decision_of_delay {timing : RetryTiming} {request : PolicyRequest} {delay : Nat}
    (hk : k < policy.retries) (hreplay : request.body.canReplay = true)
    (hmethod : policy.methods.contains request.method = true)
    (htiming : timing.configuredDelay k = delay) (hle : delay ≤ maxRetryDelay) :
    policy.decision timing request k none = .retry delay := by
  unfold RetryPolicy.decision
  rw [hreplay, hmethod, if_neg (by simp), if_neg (by simp), if_neg hk.not_ge, htiming]
  exact congrArg RetryDecision.retry (min_eq_left hle)

end

/-- The delay is the formula up to rounding to a nanosecond, and is zero when there is nothing
to wait for.  It does not panic, and no earlier delay was longer. -/
def FollowsFormula (policy : TimedRetryPolicy) (completedRetries : Nat) (sample : ℚ) : Prop :=
  ∃ delay, policy.delay completedRetries (.finite sample) = some delay ∧
    |(delay : ℚ) - policy.formula completedRetries sample| ≤ 1 / 2 ∧
    (policy.backoff = 0 → policy.jitter = 0 → delay = 0) ∧
    ∀ j ≤ completedRetries, ∃ earlier,
      policy.delay j (.finite sample) = some earlier ∧ earlier ≤ delay

/-- The formula is followed unless an infinite power meets a backoff of zero. -/
theorem followsFormula_of_delay_eq {k : Nat} {sample : ℚ} (h : policy.Accepted)
    (hk : k < policy.retries) (hnonneg : 0 ≤ sample) (hle : sample ≤ 1)
    (hpower : policy.backoff ≠ 0 ∨ k < 1024) : policy.FollowsFormula k sample := by
  obtain ⟨delay, hdelay, -, hmono⟩ := delay_mono h hk hnonneg hle
  obtain rfl := Option.some.inj (hdelay.symm.trans (delay_eq h hk hnonneg hle hpower))
  refine ⟨_, hdelay, ?_, fun hbackoff hjitter => ?_, hmono⟩
  · rw [toNat_roundHalfEven (formula_mem h hnonneg hle).1]
    exact abs_roundHalfEven_sub_le _
  · have hzero : policy.formula k sample = (0 : ℕ) := by
      unfold formula
      rw [hbackoff, hjitter, Nat.cast_zero, zero_mul, zero_mul, zero_add]
      exact min_eq_left (Nat.cast_nonneg _)
    rw [hzero, roundHalfEven_natCast]
    rfl

/-- After that, it is followed where the jitter reaches the cap. -/
theorem followsFormula_iff_of_delay_eq_max {k : Nat} {sample : ℚ} (h : policy.Accepted)
    (hk : k < policy.retries) (hnonneg : 0 ≤ sample) (hle : sample ≤ 1)
    (hbackoff : policy.backoff = 0) (hpower : 1024 ≤ k) :
    policy.FollowsFormula k sample ↔ (maxRetryDelay : ℚ) - policy.jitter * sample ≤ 1 / 2 := by
  obtain ⟨delay, hdelay, -, hmono⟩ := delay_mono h hk hnonneg hle
  have hcap := delay_eq_max h hk hbackoff hpower (.finite sample)
  obtain rfl := Option.some.inj (hdelay.symm.trans hcap)
  have hjitter := (h.jitter_mul_le hnonneg hle).2
  have hformula : policy.formula k sample = policy.jitter * sample := by
    unfold formula
    rw [hbackoff, Nat.cast_zero, zero_mul, zero_add]
    exact min_eq_left hjitter
  have habs : |(maxRetryDelay : ℚ) - policy.formula k sample| =
      maxRetryDelay - policy.jitter * sample := by
    rw [hformula]
    exact abs_of_nonneg (sub_nonneg.mpr hjitter)
  constructor
  · rintro ⟨delay, hfollowed, hnear, -⟩
    obtain rfl := Option.some.inj (hfollowed.symm.trans hdelay)
    exact habs ▸ hnear
  · intro hnear
    refine ⟨_, hdelay, habs.trans_le hnear, fun _ hzero => ?_, hmono⟩
    rw [hzero, Nat.cast_zero, zero_mul, sub_zero] at hnear
    norm_num [maxRetryDelay] at hnear

/-- The delays of an accepted policy follow the formula exactly when the backoff is not zero, the
power of two is finite, or the jitter alone reaches the cap.  In every case the delay does not
panic, is the one of the decision, and grows with the completed retries. -/
theorem configured_delay
    (hpolicy : (new fromBytes retries backoff jitter statuses methods networkErrors).run =
      some (.ok policy))
    {k : Nat} {sample : ℚ} (hk : k < policy.retries) (hnonneg : 0 ≤ sample) (hle : sample ≤ 1) :
    (policy.FollowsFormula k sample ↔
      policy.backoff ≠ 0 ∨ k < 1024 ∨ (maxRetryDelay : ℚ) - policy.jitter * sample ≤ 1 / 2) ∧
    ∃ delay, policy.delay k (.finite sample) = some delay ∧
      (∀ j ≤ k, ∃ earlier, policy.delay j (.finite sample) = some earlier ∧ earlier ≤ delay) ∧
      ∀ (timing : RetryTiming) (request : PolicyRequest), timing.configuredDelay k = delay →
        request.body.canReplay = true → policy.methods.contains request.method = true →
          policy.decision timing request k none = .retry delay := by
  have h := accepted_of_new hpolicy
  obtain ⟨delay, hdelay, hmax, hmono⟩ := delay_mono h hk hnonneg hle
  refine ⟨?_, delay, hdelay, hmono, fun timing request htiming hreplay hmethod =>
    decision_of_delay hk hreplay hmethod htiming hmax⟩
  by_cases hpower : policy.backoff ≠ 0 ∨ k < 1024
  · exact iff_of_true (followsFormula_of_delay_eq h hk hnonneg hle hpower) (hpower.imp_right .inl)
  · obtain ⟨hbackoff, hlarge⟩ : policy.backoff = 0 ∧ 1024 ≤ k := by omega
    rw [followsFormula_iff_of_delay_eq_max h hk hnonneg hle hbackoff hlarge]
    exact ⟨fun hnear => .inr (.inr hnear), fun hcases => by
      rcases hcases with hne | hlt | hnear
      · exact absurd hbackoff hne
      · omega
      · exact hnear⟩

/-- A policy of two thousand retries without backoff and jitter. -/
def eager : TimedRetryPolicy where
  retries := 2000
  statuses := [503]
  methods := ["GET".toList]
  networkErrors := false
  backoff := 0
  jitter := 0

theorem new_eager : (new some 2000 (.finite 0) (.finite 0) [503] ["GET".toList] false).run =
    some (.ok eager) := by
  decide +kernel

/-- Its delay before the retry with number 1024 is the cap, where the formula is zero. -/
theorem configured_delay_eager :
    (new some 2000 (.finite 0) (.finite 0) [503] ["GET".toList] false).run = some (.ok eager) ∧
      1024 < eager.retries ∧ eager.delay 1024 (.finite 0) = some maxRetryDelay ∧
      eager.formula 1024 0 = 0 ∧ ¬ eager.FollowsFormula 1024 0 := by
  have h := accepted_of_new new_eager
  have hnot : ¬ eager.FollowsFormula 1024 0 := by
    rw [followsFormula_iff_of_delay_eq_max h (by decide) le_rfl zero_le_one rfl le_rfl]
    norm_num [eager, maxRetryDelay]
  refine ⟨new_eager, by decide, delay_eq_max h (by decide) rfl le_rfl _, ?_, hnot⟩
  unfold formula eager
  rw [Nat.cast_zero, zero_mul, zero_mul, zero_add]
  exact min_eq_left (Nat.cast_nonneg _)

/-- Before that, the policy waits for nothing. -/
theorem configured_delay_example : eager.FollowsFormula 1023 (1 / 2) :=
  (configured_delay new_eager (by decide) (by norm_num) (by norm_num)).1.mpr
    (.inr (.inl (by decide)))

end TimedRetryPolicy

end FogHttp
