import FogHttp.Lib.Digits
import FogHttp.Policy.Retry

/-!
# `Retry-After`

`parseRetryAfter` reads a field as a number of seconds (`u64`), and otherwise as
an HTTP-date against the clock.  The crate that reads dates is a parameter.
`RetryTiming.at` is the timing of a decision with this reader.

A delta of `2 ^ 64` seconds or more is no `u64` and no date either, so the
field counts for nothing: `retryAfter` goes on to the next one, and the delay is
the configured one when there is none.  The field is honoured nevertheless
exactly when what is left asks for the longest delay already
(`retry_after_honoured`).
-/

namespace FogHttp

open Lib

/-- `SystemTime`, in nanoseconds since the epoch. -/
abbrev SystemTime := Int

/-- `parse_retry_after`, in nanoseconds.  A date in the past asks for no delay. -/
def parseRetryAfter (parseHttpDate : Text → Option SystemTime) (now : SystemTime)
    (value : Text) : Option Nat :=
  match parseUint (2 ^ 64) value with
  | some seconds => some (seconds * 10 ^ 9)
  | none => (parseHttpDate value).map fun deadline => (deadline - now).toNat

/-- What one decision takes from the policy's delay, the date reader and the clock. -/
def RetryTiming.at (delay : Nat → Nat) (parseHttpDate : Text → Option SystemTime)
    (now : SystemTime) : RetryTiming :=
  ⟨delay, FogHttp.parseRetryAfter parseHttpDate now⟩

/-! ## The first field -/

/-- The first `Retry-After` field of a header list, and the headers behind it. -/
def FirstRetryAfter (headers : HeaderPairs) (value : Text) (after : HeaderPairs) : Prop :=
  ∃ before name, headers = before ++ (name, value) :: after ∧
    eqIgnoreAsciiCase name "retry-after" = true ∧
    ∀ header ∈ before, eqIgnoreAsciiCase header.1 "retry-after" = false

/-- A text is one or more ASCII digits with the value `n`, in optional whitespace. -/
def DeltaSeconds (value : Text) (n : Nat) : Prop :=
  ∃ front digits back, value = front ++ digits ++ back ∧
    (∀ c ∈ front, isWhitespace c = true) ∧ (∀ c ∈ back, isWhitespace c = true) ∧
    digits ≠ [] ∧ (∀ c ∈ digits, c.isDigit = true) ∧ digitsValue digits = n

/-- A field that reads as a delay hides the ones behind it. -/
theorem retryAfter_first {timing : RetryTiming} {headers after : HeaderPairs} {value : Text}
    (h : FirstRetryAfter headers value after) :
    retryAfter timing headers =
      (timing.parseRetryAfter (trim value)).or (retryAfter timing after) := by
  obtain ⟨before, name, rfl, hname, hbefore⟩ := h
  have hskip : before.filter (fun header => eqIgnoreAsciiCase header.1 "retry-after") = [] :=
    List.filter_eq_nil_iff.mpr fun header hmem => Bool.eq_false_iff.mp (hbefore header hmem)
  rw [retryAfter, List.filter_append, hskip, List.nil_append, List.filter_cons, if_pos hname,
    List.findSome?_cons]
  cases timing.parseRetryAfter (trim value) <;> rfl

theorem not_isWhitespace_of_isDigit {c : Char} (h : c.isDigit = true) :
    isWhitespace c = false := by
  have hrange : 48 ≤ c.toNat ∧ c.toNat ≤ 57 := by
    simp only [Char.isDigit, Bool.and_eq_true, decide_eq_true_eq, ge_iff_le,
      UInt32.le_iff_toNat_le] at h
    exact h
  simp only [isWhitespace, Bool.or_eq_false_iff, Bool.and_eq_false_iff, decide_eq_false_iff_not,
    beq_eq_false_iff_ne]
  omega

/-- A delta that fits is read as its number of seconds. -/
theorem parseRetryAfter_delta {parseHttpDate : Text → Option SystemTime} {now : SystemTime}
    {value : Text} {n : Nat} (h : DeltaSeconds value n) (hfits : n < 2 ^ 64) :
    parseRetryAfter parseHttpDate now (trim value) = some (n * 10 ^ 9) := by
  obtain ⟨front, digits, back, rfl, hfront, hback, hne, hdigits, rfl⟩ := h
  rw [trim, trimMatches_padded hfront (fun c hc => not_isWhitespace_of_isDigit (hdigits c hc))
    hback, parseRetryAfter, parseUint_digits (by decide) hne hdigits, checked, if_pos hfits]

/-- A delta out of range is no delay at all, since it is no date either. -/
theorem parseRetryAfter_overflow {parseHttpDate : Text → Option SystemTime} {now : SystemTime}
    (hdates : ∀ text deadline, parseHttpDate text = some deadline → ' ' ∈ text) {value : Text}
    {n : Nat} (h : DeltaSeconds value n) (hover : 2 ^ 64 ≤ n) :
    parseRetryAfter parseHttpDate now (trim value) = none := by
  obtain ⟨front, digits, back, rfl, hfront, hback, hne, hdigits, rfl⟩ := h
  rw [trim, trimMatches_padded hfront (fun c hc => not_isWhitespace_of_isDigit (hdigits c hc))
    hback, parseRetryAfter, parseUint_digits (by decide) hne hdigits, checked,
    if_neg (Nat.not_lt.mpr hover)]
  show Option.map _ (parseHttpDate digits) = none
  cases hdate : parseHttpDate digits with
  | none => rfl
  | some deadline =>
      have hspace := hdigits ' ' (hdates digits deadline hdate)
      simp [Char.isDigit] at hspace

/-- A date is read against the clock: no integer has a space. -/
theorem parseRetryAfter_date {parseHttpDate : Text → Option SystemTime} {now : SystemTime}
    (hdates : ∀ text deadline, parseHttpDate text = some deadline → ' ' ∈ text) {value : Text}
    {deadline : SystemTime} (h : parseHttpDate value = some deadline) :
    parseRetryAfter parseHttpDate now value = some (deadline - now).toNat := by
  have hspace := hdates value deadline h
  cases hparse : parseUint (2 ^ 64) value with
  | none => rw [parseRetryAfter, hparse, h]; rfl
  | some seconds => exact absurd hspace (not_mem_of_parseUint hparse (by decide) (by decide))

/-! ## The delay -/

namespace RetryPolicy

variable {policy : RetryPolicy} {timing : RetryTiming} {request : PolicyRequest}
  {response : ResponseHead} {completedRetries delay : Nat}

/-- The delay of a decision to retry. -/
theorem delay_of_retry
    (h : policy.onResponse timing request response completedRetries = some (.retry delay)) :
    delay = min ((retryAfter timing response.headers).elim (timing.configuredDelay completedRetries)
      fun minimum => max minimum (timing.configuredDelay completedRetries)) maxRetryDelay := by
  rw [onResponse] at h
  split at h
  · rw [decision] at h
    split at h
    · simp at h
    · split at h
      · simp at h
      · split at h
        · simp at h
        · simp only [Option.some.injEq, RetryDecision.retry.injEq] at h
          exact h.symm
  · simp at h

/-- What the response asks for is a minimum, up to the longest delay. -/
theorem le_delay_of_retryAfter {minimum : Nat}
    (h : policy.onResponse timing request response completedRetries = some (.retry delay))
    (hminimum : retryAfter timing response.headers = some minimum) :
    min minimum maxRetryDelay ≤ delay := by
  have hdelay := delay_of_retry h
  rw [hminimum, Option.elim_some] at hdelay
  omega

/-- When the configured delay or the fields that count ask for the longest
delay, the delay is the longest one. -/
theorem maxRetryDelay_le_iff
    (h : policy.onResponse timing request response completedRetries = some (.retry delay)) :
    maxRetryDelay ≤ delay ↔ maxRetryDelay ≤ timing.configuredDelay completedRetries ∨
      ∃ minimum, retryAfter timing response.headers = some minimum ∧ maxRetryDelay ≤ minimum := by
  have hdelay := delay_of_retry h
  cases hminimum : retryAfter timing response.headers with
  | none =>
      rw [hminimum, Option.elim_none] at hdelay
      simp only [reduceCtorEq, false_and, exists_false, or_false]
      omega
  | some minimum =>
      rw [hminimum, Option.elim_some] at hdelay
      simp only [Option.some.injEq, exists_eq_left']
      omega

end RetryPolicy

/-- The first `Retry-After` field of a retried response is a delta of `n`
seconds, and the delay is no shorter than it, no longer than the longest delay,
and no shorter than the delay for any smaller delta. -/
structure DeltaHonoured (policy : RetryPolicy) (timing : RetryTiming) (request : PolicyRequest)
    (completedRetries n delay : Nat) : Prop where
  minimum : min (n * 10 ^ 9) maxRetryDelay ≤ delay
  capped : delay ≤ maxRetryDelay
  monotone : ∀ response value after m shorter, FirstRetryAfter response.headers value after →
    DeltaSeconds value m → m ≤ n →
    policy.onResponse timing request response completedRetries = some (.retry shorter) →
    shorter ≤ delay

section Honoured

variable {policy : RetryPolicy} {configuredDelay : Nat → Nat}
  {parseHttpDate : Text → Option SystemTime} {now : SystemTime} {request : PolicyRequest}
  {response : ResponseHead} {completedRetries delay n : Nat} {value : Text} {after : HeaderPairs}

/-- The delay for a delta that fits. -/
theorem delay_of_delta
    (hretry : policy.onResponse (.at configuredDelay parseHttpDate now) request response
      completedRetries = some (.retry delay))
    (hfield : FirstRetryAfter response.headers value after) (hdelta : DeltaSeconds value n)
    (hfits : n < 2 ^ 64) :
    delay = min (max (n * 10 ^ 9) (configuredDelay completedRetries)) maxRetryDelay := by
  have hread : RetryTiming.parseRetryAfter (.at configuredDelay parseHttpDate now)
      (trim value) = some (n * 10 ^ 9) := parseRetryAfter_delta hdelta hfits
  have hfirst : retryAfter (.at configuredDelay parseHttpDate now) response.headers = _ :=
    retryAfter_first hfield
  rw [hread, Option.some_or] at hfirst
  rw [RetryPolicy.delay_of_retry hretry, hfirst, Option.elim_some]
  rfl

/-- The longest delay honours every delta. -/
theorem honoured_of_longest (hlongest : maxRetryDelay ≤ delay) (hcapped : delay ≤ maxRetryDelay) :
    DeltaHonoured policy (.at configuredDelay parseHttpDate now) request completedRetries n
      delay := by
  refine ⟨by omega, hcapped, ?_⟩
  intro response value after m shorter hfield hdelta hle hretry
  have hshorter := RetryPolicy.delay_of_retry hretry
  omega

/-- A delta that fits is honoured. -/
theorem honoured_of_fits
    (hretry : policy.onResponse (.at configuredDelay parseHttpDate now) request response
      completedRetries = some (.retry delay))
    (hfield : FirstRetryAfter response.headers value after) (hdelta : DeltaSeconds value n)
    (hfits : n < 2 ^ 64) :
    DeltaHonoured policy (.at configuredDelay parseHttpDate now) request completedRetries n
      delay := by
  have hdelay := delay_of_delta hretry hfield hdelta hfits
  refine ⟨by omega, by omega, ?_⟩
  intro response value after m shorter hfield hdelta hle hretry
  have hshorter := delay_of_delta hretry hfield hdelta (Nat.lt_of_le_of_lt hle hfits)
  have hseconds : m * 10 ^ 9 ≤ n * 10 ^ 9 := Nat.mul_le_mul_right _ hle
  omega

end Honoured

/-- A retry honours a delta exactly when it is a `u64`, or when the configured
delay or the fields behind it already ask for the longest delay.  A date is
always honoured. -/
theorem retry_after_honoured (policy : RetryPolicy) (configuredDelay : Nat → Nat)
    (parseHttpDate : Text → Option SystemTime) (now : SystemTime)
    (hdates : ∀ text deadline, parseHttpDate text = some deadline → ' ' ∈ text)
    (request : PolicyRequest) (response : ResponseHead) (completedRetries delay : Nat)
    (hretry : policy.onResponse (.at configuredDelay parseHttpDate now) request response
      completedRetries = some (.retry delay))
    (value : Text) (after : HeaderPairs)
    (hfield : FirstRetryAfter response.headers value after) :
    (∀ n, DeltaSeconds value n →
      (DeltaHonoured policy (.at configuredDelay parseHttpDate now) request completedRetries n
          delay ↔
        n < 2 ^ 64 ∨ maxRetryDelay ≤ configuredDelay completedRetries ∨
          ∃ later, retryAfter (.at configuredDelay parseHttpDate now) after = some later ∧
            maxRetryDelay ≤ later)) ∧
      ∀ deadline, parseHttpDate (trim value) = some deadline →
        min (deadline - now).toNat maxRetryDelay ≤ delay ∧ delay ≤ maxRetryDelay := by
  have hcapped : delay ≤ maxRetryDelay := by
    rw [RetryPolicy.delay_of_retry hretry]
    exact Nat.min_le_right _ _
  have hfirst : retryAfter (.at configuredDelay parseHttpDate now) response.headers = _ :=
    retryAfter_first hfield
  refine ⟨fun n hdelta => ⟨fun honoured => ?_, fun hcondition => ?_⟩, fun deadline hdate => ?_⟩
  · by_cases hfits : n < 2 ^ 64
    · exact Or.inl hfits
    · -- The field counts for nothing, so the longest delay comes from elsewhere.
      have hover : 2 ^ 64 ≤ n := Nat.not_lt.mp hfits
      have hlongest : maxRetryDelay ≤ n * 10 ^ 9 := by
        show (2 ^ 31 - 1) * 10 ^ 9 ≤ n * 10 ^ 9
        omega
      have hdelay : maxRetryDelay ≤ delay := by
        have hminimum := honoured.minimum
        omega
      have hnone : RetryTiming.parseRetryAfter (.at configuredDelay parseHttpDate now)
          (trim value) = none := parseRetryAfter_overflow hdates hdelta hover
      rw [hnone, Option.none_or] at hfirst
      rw [← hfirst]
      exact Or.inr ((RetryPolicy.maxRetryDelay_le_iff hretry).mp hdelay)
  · by_cases hfits : n < 2 ^ 64
    · exact honoured_of_fits hretry hfield hdelta hfits
    · have hnone : RetryTiming.parseRetryAfter (.at configuredDelay parseHttpDate now)
          (trim value) = none :=
        parseRetryAfter_overflow hdates hdelta (Nat.not_lt.mp hfits)
      rw [hnone, Option.none_or] at hfirst
      apply honoured_of_longest _ hcapped
      apply (RetryPolicy.maxRetryDelay_le_iff hretry).mpr
      rw [hfirst]
      exact hcondition.resolve_left hfits
  · have hread : RetryTiming.parseRetryAfter (.at configuredDelay parseHttpDate now)
        (trim value) = some (deadline - now).toNat := parseRetryAfter_date hdates hdate
    rw [hread, Option.some_or] at hfirst
    exact ⟨RetryPolicy.le_delay_of_retryAfter hretry hfirst, hcapped⟩

namespace RetryAfterExample

/-! A policy without backoff and jitter, and a 503 with one `Retry-After` field. -/

def policy : RetryPolicy := ⟨1, [503], ["GET"], true⟩

def request : PolicyRequest :=
  ⟨"GET", ⟨⟨"https", [], none, some "a.test", none, "/", none, none⟩, rfl, rfl⟩, .empty⟩

/-- The date reader on the date of the example. -/
def parseHttpDate (text : Text) : Option SystemTime :=
  if text = ("Thu, 01 Jan 1970 00:00:02 GMT" : Text) then some (2 * 10 ^ 9) else none

def timing : RetryTiming := .at (fun _ => 0) parseHttpDate 0

def response (value : Text) : ResponseHead := ⟨503, [("Retry-After", value)]⟩

theorem parseHttpDate_space (text : Text) (deadline : SystemTime)
    (h : parseHttpDate text = some deadline) : ' ' ∈ text := by
  rw [parseHttpDate] at h
  split at h
  · rename_i htext
    rw [htext]
    decide
  · simp at h

/-- The first field of the example is its only one. -/
theorem first_response (value : Text) : FirstRetryAfter (response value).headers value [] :=
  ⟨[], "Retry-After", rfl, by decide, by simp⟩

/-- The delta ` 120 ` is honoured: two minutes are the delay. -/
theorem retry_after_honoured_minutes :
    policy.onResponse timing request (response " 120 ") 0 = some (.retry (120 * 10 ^ 9)) ∧
      DeltaHonoured policy timing request 0 120 (120 * 10 ^ 9) := by
  have hretry : policy.onResponse timing request (response " 120 ") 0 =
      some (.retry (120 * 10 ^ 9)) := by decide +kernel
  have hdelta : DeltaSeconds " 120 " 120 :=
    ⟨" ", "120", " ", rfl, List.all_eq_true.mp rfl, List.all_eq_true.mp rfl, by decide,
      List.all_eq_true.mp rfl, by decide⟩
  have h := (retry_after_honoured policy (fun _ => 0) parseHttpDate 0 parseHttpDate_space request
    (response " 120 ") 0 (120 * 10 ^ 9) hretry " 120 " [] (first_response " 120 ")).1 120 hdelta
  exact ⟨hretry, h.mpr (Or.inl (by decide))⟩

/-- A delta of `2 ^ 64` seconds is retried at once. -/
theorem retry_after_overflow_ignored :
    policy.onResponse timing request (response "18446744073709551616") 0 = some (.retry 0) ∧
      DeltaSeconds "18446744073709551616" (2 ^ 64) ∧
      ¬ DeltaHonoured policy timing request 0 (2 ^ 64) 0 := by
  refine ⟨by decide, ⟨[], "18446744073709551616", [], rfl, by simp, by simp, by decide,
    List.all_eq_true.mp rfl, by decide⟩, fun honoured => ?_⟩
  have hminimum := honoured.minimum
  revert hminimum
  decide

end RetryAfterExample

end FogHttp
