import Degenerate.Markets

/-!
# Precision of Close Times

A listing gives its close time in one of two fields, each as a full timestamp or as a date
only (`models.rs`).  Both conversions pick a field by whether it is there and parse what they
picked, so a date in the first field hides a timestamp in the second one, and a text that does
not parse hides one that does.

## Main Results

- `zeroIfNoneParses_firstTime_iff`, `fullIfAny_firstTime_iff`: when the first of several fields
  is the one to use
- `closeTime_precise_iff`: when the close times of both venues are as precise as their fields
- `date_hides_timestamp`: a close time that is a day early
-/

namespace Degenerate

variable (fmt : Formats)

/-! ## §1 The first of several fields -/

/-- The instant that a text names in either format. -/
def parseTs (s : String) : Option ℤ := (fmt.parseFromRfc3339 s).or (fmt.parseFromStr s)

/-- A text that does not parse counts as zero. -/
theorem parseTsToMillis_eq (s : String) : parseTsToMillis fmt s = (parseTs fmt s).getD 0 := by
  unfold parseTsToMillis parseTs
  cases fmt.parseFromRfc3339 s with
  | some ms => rfl
  | none => rfl

/-- The time that both conversions take: that of the first field, whatever it holds. -/
def firstTime (fields : List String) : ℤ := parseTsToMillis fmt (fields.head?.getD "")

/-- The time is zero only if no field parses. -/
def ZeroIfNoneParses (fields : List String) (ms : ℤ) : Prop :=
  ms = 0 → ∀ s ∈ fields, parseTs fmt s = none

/-- If a field is a full timestamp, the time is such a timestamp and not a date. -/
def FullIfAny (fields : List String) (ms : ℤ) : Prop :=
  (∃ s ∈ fields, (fmt.parseFromRfc3339 s).isSome) → ∃ s ∈ fields, fmt.parseFromRfc3339 s = some ms

/-- The first field parses, and not to zero, or none of the fields does. -/
def FirstParses : List String → Prop
  | [] => True
  | s :: others =>
    parseTs fmt s ≠ some 0 ∧ (parseTs fmt s = none → ∀ o ∈ others, parseTs fmt o = none)

/-- The first field hides no timestamp: if only later fields are full timestamps, it is the
date whose midnight is one of them. -/
def HidesNone : List String → Prop
  | [] => True
  | s :: others =>
    fmt.parseFromRfc3339 s = none → (∃ o ∈ others, (fmt.parseFromRfc3339 o).isSome) →
      ∃ ms, fmt.parseFromStr s = some ms ∧ ∃ o ∈ others, fmt.parseFromRfc3339 o = some ms

/-- When the first time is zero only for lack of others. -/
theorem zeroIfNoneParses_firstTime_iff (fields : List String) :
    ZeroIfNoneParses fmt fields (firstTime fmt fields) ↔ FirstParses fmt fields := by
  cases fields with
  | nil =>
    refine iff_of_true (fun _ s hs => ?_) trivial
    exact absurd hs List.not_mem_nil
  | cons s others =>
    unfold ZeroIfNoneParses FirstParses
    rw [firstTime, List.head?_cons, Option.getD_some, parseTsToMillis_eq, List.forall_mem_cons]
    cases hparse : parseTs fmt s with
    | none => simp [hparse]
    | some ms => simp [hparse]

/-- A first field that parses, or fields of which none does, make the first time a full
timestamp exactly if the first field hides none. -/
theorem fullIfAny_firstTime_iff {fields : List String} (hparses : FirstParses fmt fields) :
    FullIfAny fmt fields (firstTime fmt fields) ↔ HidesNone fmt fields := by
  cases fields with
  | nil =>
    refine iff_of_true ?_ trivial
    rintro ⟨s, hs, -⟩
    exact absurd hs List.not_mem_nil
  | cons s others =>
    obtain ⟨-, hnone⟩ := hparses
    unfold FullIfAny HidesNone
    rw [firstTime, List.head?_cons, Option.getD_some, parseTsToMillis]
    simp only [List.exists_mem_cons_iff]
    cases hfull : fmt.parseFromRfc3339 s with
    | some ms => simp
    | none =>
      cases hdate : fmt.parseFromStr s with
      | some ms => simp
      | none =>
        -- no field parses, so none is a full timestamp
        have hothers : ¬∃ o ∈ others, (fmt.parseFromRfc3339 o).isSome := by
          rintro ⟨o, ho, hsome⟩
          have hparse := hnone (by rw [parseTs, hfull, hdate]; rfl) o ho
          rw [parseTs, Option.or_eq_none_iff] at hparse
          rw [hparse.1] at hsome
          cases hsome
        simp [hothers]

/-! ## §2 The two venues -/

/-- The fields of a Polymarket listing, in the order in which they are tried. -/
def GammaMarket.closeFields (value : GammaMarket) : List String :=
  value.endDateIso.toList ++ value.endDate.toList

/-- The fields of a Kalshi listing. -/
def KalshiMarket.closeFields (value : KalshiMarket) : List String :=
  value.closeTime :: value.expirationTime.toList

/-- The fields of a Kalshi listing that are tried; an empty close time is not. -/
def KalshiMarket.triedFields (value : KalshiMarket) : List String :=
  if value.closeTime ≠ "" then value.closeFields else value.expirationTime.toList

theorem MarketInfo.ofGamma_closeTimeMs (value : GammaMarket) :
    (MarketInfo.ofGamma fmt value).closeTimeMs = firstTime fmt value.closeFields := by
  unfold MarketInfo.ofGamma firstTime GammaMarket.closeFields
  cases value.endDateIso with
  | some s => rfl
  | none =>
    cases value.endDate with
    | some s => rfl
    | none => rfl

theorem MarketInfo.ofKalshi_closeTimeMs (value : KalshiMarket) :
    (MarketInfo.ofKalshi fmt value).closeTimeMs = firstTime fmt value.triedFields := by
  show parseTsToMillis fmt _ = _
  unfold firstTime KalshiMarket.triedFields
  split
  · rfl
  · cases value.expirationTime with
    | some s => rfl
    | none => rfl

/-- An empty close time never parses. -/
theorem zeroIfNoneParses_triedFields {fmt : Formats} (hempty : parseTs fmt "" = none)
    (value : KalshiMarket) (ms : ℤ) :
    ZeroIfNoneParses fmt value.closeFields ms ↔ ZeroIfNoneParses fmt value.triedFields ms := by
  unfold KalshiMarket.triedFields
  split
  · exact Iff.rfl
  · rename_i hclose
    rw [not_not] at hclose
    unfold ZeroIfNoneParses KalshiMarket.closeFields
    rw [hclose, List.forall_mem_cons]
    simp [hempty]

/-- **Precise close times.** The close time of a Polymarket listing is a full timestamp if one
of its fields is, and zero only if none parses, exactly when the first field that is there
parses (not to zero) or none does, and hides no timestamp in the other one.  The close time of
a Kalshi listing is zero only if no field parses, exactly when the first field that is not
empty parses (not to zero) or none does. -/
theorem closeTime_precise_iff {fmt : Formats} (hempty : parseTs fmt "" = none) :
    (∀ value : GammaMarket,
      FullIfAny fmt value.closeFields (MarketInfo.ofGamma fmt value).closeTimeMs ∧
        ZeroIfNoneParses fmt value.closeFields (MarketInfo.ofGamma fmt value).closeTimeMs ↔
      FirstParses fmt value.closeFields ∧ HidesNone fmt value.closeFields) ∧
    ∀ value : KalshiMarket,
      ZeroIfNoneParses fmt value.closeFields (MarketInfo.ofKalshi fmt value).closeTimeMs ↔
        FirstParses fmt value.triedFields := by
  refine ⟨fun value => ?_, fun value => ?_⟩
  · rw [MarketInfo.ofGamma_closeTimeMs, zeroIfNoneParses_firstTime_iff, and_comm]
    exact and_congr_right (fullIfAny_firstTime_iff fmt)
  · rw [MarketInfo.ofKalshi_closeTimeMs, zeroIfNoneParses_triedFields hempty,
      zeroIfNoneParses_firstTime_iff]

/-! ### A date that hides a timestamp -/

/-- The instants of the texts below. -/
def novemberFormats : Formats where
  newV5 := fun _ => "4a3c1f63-05bb-5a41-9d80-0a1d4b0a0e35"
  tryParse := fun s => s.length = 36
  parseFromRfc3339 s :=
    if s = "2026-11-03T23:30:00Z" then some 1793748600000 else none
  parseFromStr s :=
    if s = "2026-11-03" then some 1793664000000 else none

/-- A listing of Polymarket with a date and the exact close. -/
def novemberGamma : GammaMarket where
  slug := some "senate-control"
  endDateIso := some "2026-11-03"
  endDate := some "2026-11-03T23:30:00Z"

/-- A listing of Kalshi with a close time that does not parse. -/
def novemberKalshi : KalshiMarket where
  ticker := "KXSENATE-26"
  closeTime := "election day"
  expirationTime := some "2026-11-03T23:30:00Z"

/-- Listings with only the exact close have it as their close time. -/
theorem closeTime_precise_november :
    let gamma : GammaMarket := { novemberGamma with endDateIso := none }
    let kalshi : KalshiMarket := { novemberKalshi with closeTime := "" }
    (FullIfAny novemberFormats gamma.closeFields
        (MarketInfo.ofGamma novemberFormats gamma).closeTimeMs ∧
      ZeroIfNoneParses novemberFormats gamma.closeFields
        (MarketInfo.ofGamma novemberFormats gamma).closeTimeMs) ∧
    ZeroIfNoneParses novemberFormats kalshi.closeFields
      (MarketInfo.ofKalshi novemberFormats kalshi).closeTimeMs := by
  intro gamma kalshi
  -- only the exact close is there; it parses, and nothing hides it
  have hempty : parseTs novemberFormats "" = none := by decide
  have hparses : FirstParses novemberFormats ["2026-11-03T23:30:00Z"] := by
    refine ⟨by decide, fun _ o ho => ?_⟩
    exact absurd ho List.not_mem_nil
  have hhides : HidesNone novemberFormats ["2026-11-03T23:30:00Z"] := by
    intro hnone
    exact absurd hnone (by decide)
  obtain ⟨hgamma, hkalshi⟩ := closeTime_precise_iff hempty
  exact ⟨(hgamma gamma).mpr ⟨hparses, hhides⟩, (hkalshi kalshi).mpr hparses⟩

/-- **A date hides a timestamp.** The close time is 23 and a half hours before the exact one
that the listing supplies; and a text that does not parse makes the close time zero. -/
theorem date_hides_timestamp :
    (MarketInfo.ofGamma novemberFormats novemberGamma).closeTimeMs = 1793664000000 ∧
    ¬FullIfAny novemberFormats novemberGamma.closeFields
      (MarketInfo.ofGamma novemberFormats novemberGamma).closeTimeMs ∧
    (MarketInfo.ofKalshi novemberFormats novemberKalshi).closeTimeMs = 0 ∧
    ¬ZeroIfNoneParses novemberFormats novemberKalshi.closeFields
      (MarketInfo.ofKalshi novemberFormats novemberKalshi).closeTimeMs := by
  have hgamma : (MarketInfo.ofGamma novemberFormats novemberGamma).closeTimeMs =
      1793664000000 := by decide
  have hkalshi : (MarketInfo.ofKalshi novemberFormats novemberKalshi).closeTimeMs = 0 := by decide
  -- the exact close, behind a date and behind a text that does not parse
  have hexact : "2026-11-03T23:30:00Z" ∈ novemberGamma.closeFields := .tail _ (.head _)
  have hlater : "2026-11-03T23:30:00Z" ∈ novemberKalshi.closeFields := .tail _ (.head _)
  refine ⟨hgamma, fun hfull => ?_, hkalshi, fun hzero => ?_⟩
  · obtain ⟨s, hs, htime⟩ := hfull ⟨_, hexact, by decide⟩
    rw [hgamma] at htime
    revert s
    decide
  · exact absurd (hzero hkalshi _ hlater) (by decide)

end Degenerate
