import RhinoQ.Model.FailureReport

/-! # What becomes of a requested wait

Milliseconds are multiplied into nanoseconds. Beyond the longest duration of 64 bits the product wraps.
-/

namespace RhinoQ.Model.FailureReport

open Int64

/-- The milliseconds in the longest duration. -/
def maxMilliseconds : Int64 := 9223372036854

theorem toInt_milliseconds (positive : 0 ≤ d.toInt) : (d / millisecond).toInt = d.toInt / 1000000 := by
  have high := d.toInt_lt
  rw [toInt_div, Int.tdiv_eq_ediv_of_nonneg positive]
  change (d.toInt / 1000000).bmod (2 ^ 64) = _
  apply Int.bmod_eq_of_le <;> omega

theorem toInt_nanoseconds (accepted : 0 ≤ ms.toInt) (fits : ms.toInt ≤ 9223372036854) :
    (ms * millisecond).toInt = ms.toInt * 1000000 := by
  rw [toInt_mul]
  change (ms.toInt * 1000000).bmod (2 ^ 64) = _
  apply Int.bmod_eq_of_le <;> omega

/-- An accepted report keeps its wait, class and attempt exactly when the wait fits the longest duration. -/
theorem report_survives_iff {wire : FailureReportWire} {report : FailureReport} (accepted : unmarshal wire = .ok report) :
    (0 ≤ report.retryAfter ∧ report.marshal.retryAfterMs = wire.retryAfterMs ∧
        report.marshal.retryClass = wire.retryClass ∧ report.marshal.attempt = wire.attempt) ↔
      wire.retryAfterMs ≤ maxMilliseconds := by
  unfold unmarshal at accepted
  split at accepted
  · cases accepted
  rename_i positive
  cases accepted
  have positive : 0 ≤ wire.retryAfterMs.toInt := Int64.le_iff_toInt_le.mp (Int64.not_lt.mp positive)
  constructor
  · rintro ⟨later, same, _⟩
    have later : 0 ≤ (wire.retryAfterMs * millisecond).toInt := le_iff_toInt_le.mp later
    have high := (wire.retryAfterMs * millisecond).toInt_lt
    -- what comes back is the milliseconds of a duration
    have back := (toInt_milliseconds later).symm.trans (congrArg toInt same)
    refine le_iff_toInt_le.mpr ?_
    change wire.retryAfterMs.toInt ≤ 9223372036854
    omega
  · intro fits
    have exact := toInt_nanoseconds positive (le_iff_toInt_le.mp fits)
    have later : 0 ≤ (wire.retryAfterMs * millisecond).toInt := by omega
    have back : (wire.retryAfterMs * millisecond / millisecond).toInt = wire.retryAfterMs.toInt := by
      rw [toInt_milliseconds later]
      omega
    -- the kernel would otherwise compare the two reports by unfolding 64-bit division
    rw [marshal]
    exact ⟨le_iff_toInt_le.mpr later, toInt_inj.mp back, rfl, rfl⟩

/-- A provider asks for a wait. -/
def rateLimited (ms : Int64) : FailureReportWire := { retryClass := "rate_limited", retryAfterMs := ms }

theorem short_wait_survives :
    ∃ report, unmarshal (rateLimited 1500) = .ok report ∧ 0 ≤ report.retryAfter ∧ report.marshal.retryAfterMs = 1500 := by
  have survives := (report_survives_iff (rfl : unmarshal (rateLimited 1500) = .ok _)).mpr (by decide)
  exact ⟨_, rfl, survives.1, survives.2.1⟩

/-- One millisecond more than the longest duration holds becomes a negative wait. -/
theorem long_wait_negative : ∃ report, unmarshal (rateLimited 9223372036855) = .ok report ∧ report.retryAfter < 0 ∧
      report.marshal.retryAfterMs = -9223372036854 :=
  ⟨_, rfl, by decide, by decide⟩

end RhinoQ.Model.FailureReport
