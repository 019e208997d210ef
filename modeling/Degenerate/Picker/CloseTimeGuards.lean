import Degenerate.Picker.System

/-!
# The Close-Time Guards

`find_arb` refuses a pair one of whose legs closes within an hour, `evaluate_arb` skips
it within ten minutes of a close.  Both guards ask whether a close time lies *ahead* by
at most the window.  So a leg that is inside the window stays inside it until it closes,
and from that moment on it does not block the pair any more.

`evaluate_arb` moreover looks at the two close times only if both are representable as
dates: one that is not switches the guard off for the other leg too.  `find_arb` returns
with an error in that case, and does not register the pair.

## Main Results

- `close_guards_iff`: when a guard that has found a leg inside its window refuses the pair
- `trading_resumes`
-/

namespace Degenerate.Picker

open Degenerate.Lib

/-! ## §1 The window -/

/-- A close time inside the window stays inside it until it is reached. -/
theorem closesWithin_later {t t' window close : ℤ} (h : closesWithin t window close = true)
    (ht : t < t') : closesWithin t' window close = true ↔ t' < close := by
  simp only [closesWithin, Bool.and_eq_true, decide_eq_true_eq] at h ⊢
  omega

/-- Two legs, one of them inside the window: as long as it has not closed the guard holds, and
    then only the other one can make it hold. -/
theorem window_guard_later {t t' window close other : ℤ}
    (h : closesWithin t window close = true) (ht : t < t') :
    (closesWithin t' window close || closesWithin t' window other) = true ↔
      t' < close ∨ closesWithin t' window other = true := by
  rw [Bool.or_eq_true, closesWithin_later h ht]

/-! ## §2 `evaluate_arb` -/

/-- The close time can be represented as a date. -/
def Representable (ms : ℤ) : Prop := (fromTimestampMillis ms).isSome

theorem fromTimestampMillis_of_representable {ms : ℤ} (h : Representable ms) :
    fromTimestampMillis ms = some ms := by
  unfold Representable fromTimestampMillis at *
  split
  · rfl
  · rename_i hout
    rw [if_neg hout] at h
    cases h

/-- The guard of `evaluate_arb` looks at the close times only if both are representable. -/
theorem closesSoon_iff {now : ℤ} {pair : ArbMinifiedInfoPair} :
    closesSoon now pair = true ↔
      (Representable pair.anchor.closeTimeMs ∧ Representable pair.match.closeTimeMs) ∧
        (closesWithin now tenMinutesMs pair.anchor.closeTimeMs ||
          closesWithin now tenMinutesMs pair.match.closeTimeMs) = true := by
  by_cases ha : Representable pair.anchor.closeTimeMs
  · by_cases hm : Representable pair.match.closeTimeMs
    · simp [closesSoon, fromTimestampMillis_of_representable ha,
        fromTimestampMillis_of_representable hm, ha, hm]
    · have hnone : fromTimestampMillis pair.match.closeTimeMs = none := by
        simpa [Representable] using hm
      simp [closesSoon, hnone, hm]
  · have hnone : fromTimestampMillis pair.anchor.closeTimeMs = none := by
      simpa [Representable] using ha
    simp [closesSoon, hnone, ha]

/-- The legs of a pair, each with the other one. -/
def eachLeg (pair : ArbMinifiedInfoPair) : List (ArbMinifiedInfo × ArbMinifiedInfo) :=
  [(pair.anchor, pair.match), (pair.match, pair.anchor)]

/-- The guard of `evaluate_arb` after it has found a leg inside its window. -/
theorem closesSoon_later {t t' : ℤ} (ht : t < t') {pair : ArbMinifiedInfoPair}
    {leg other : ArbMinifiedInfo} (hlegs : (leg, other) ∈ eachLeg pair)
    (hleg : closesWithin t tenMinutesMs leg.closeTimeMs = true) :
    closesSoon t' pair = true ↔
      (Representable leg.closeTimeMs ∧ Representable other.closeTimeMs) ∧
        (t' < leg.closeTimeMs ∨ closesWithin t' tenMinutesMs other.closeTimeMs = true) := by
  rw [closesSoon_iff, ← window_guard_later hleg ht]
  simp only [eachLeg, List.mem_cons, Prod.mk.injEq, List.not_mem_nil, or_false] at hlegs
  rcases hlegs with ⟨rfl, rfl⟩ | ⟨rfl, rfl⟩
  · exact Iff.rfl
  · -- the guard does not distinguish the two legs
    rw [and_comm (a := Representable pair.anchor.closeTimeMs), Bool.or_comm]

/-! ## §3 `find_arb` -/

/-- The close time that a confirmed leg states. -/
def statedClose (leg : Option ArbEssentials) : Option ℤ :=
  leg.bind fun e => e.discovery.bind fun d => d.marketInfo.map (·.closeTimeMs)

/-- `find_arb` can read both legs. -/
def Readable (arb : Arb) : Prop :=
  (∃ a, System.findLeg "anchor" arb.anchor = .ok a) ∧ ∃ m, System.findLeg "match" arb.match = .ok m

/-- `find_arb` goes on to subscribe the legs. -/
def Subscribes (c : Choice) (p : System) (arb : Arb) (cid : CorrelationId) : Prop :=
  ∃ f, (System.findArb c p arb cid).comms.pc = .finding f

/-- The close time that `find_arb` reads is the one that the leg states. -/
theorem findLeg_close {name : String} {leg : Option ArbEssentials}
    {r : Platform × ℤ × String} (h : System.findLeg name leg = .ok r) :
    statedClose leg = some r.2.1 := by
  unfold System.findLeg at h
  split at h
  · cases h
  split at h
  · cases h
  rename_i d hd
  split at h
  · cases h
  rename_i m hm
  split at h
  · cases h
  split at h
  · cases h
  rename_i close hclose
  cases h
  -- only a representable time is read, and it is read unchanged
  have hrep : Representable m.closeTimeMs := by simp [Representable, hclose]
  have hsame := fromTimestampMillis_of_representable hrep
  rw [hclose] at hsame
  simp [statedClose, hd, hm, Option.some.inj hsame]

/-- `find_arb` refuses a pair that it cannot read, and one with a leg inside the window. -/
theorem not_subscribes_iff {c : Choice} {p : System} (hpc : p.comms.pc = .next) {arb : Arb}
    {cid : CorrelationId} {anchorClose matchClose : ℤ}
    (ha : statedClose arb.anchor = some anchorClose)
    (hm : statedClose arb.match = some matchClose) :
    ¬ Subscribes c p arb cid ↔ ¬ Readable arb ∨
      (closesWithin c.utcNow oneHourMs anchorClose ||
        closesWithin c.utcNow oneHourMs matchClose) = true := by
  -- a pair that is not read starts no search
  have hnext : ¬ ∃ f, p.comms.pc = .finding f := by rw [hpc]; rintro ⟨f, hf⟩; cases hf
  cases hanchor : System.findLeg "anchor" arb.anchor with
  | error e => simpa [Subscribes, System.findArb, Readable, hanchor] using hnext
  | ok a =>
    cases hmatch : System.findLeg "match" arb.match with
    | error e => simpa [Subscribes, System.findArb, Readable, hanchor, hmatch] using hnext
    | ok m =>
      obtain rfl : a.2.1 = anchorClose := Option.some.inj ((findLeg_close hanchor).symm.trans ha)
      obtain rfl : m.2.1 = matchClose := Option.some.inj ((findLeg_close hmatch).symm.trans hm)
      simp only [Subscribes, System.findArb, hanchor, hmatch, Readable]
      split
      · rename_i hclose
        simpa [System.push, hclose] using hnext
      · rename_i hclose
        simp [System.goto, hclose]

/-- The guard of `find_arb` after it has found a leg inside its window. -/
theorem not_subscribes_later {t : ℤ} {c : Choice} (ht : t < c.utcNow) {p : System}
    (hpc : p.comms.pc = .next) {arb : Arb} {cid : CorrelationId} {anchorClose matchClose : ℤ}
    (ha : statedClose arb.anchor = some anchorClose) (hm : statedClose arb.match = some matchClose)
    {close other : ℤ}
    (hlegs : (close, other) ∈ [(anchorClose, matchClose), (matchClose, anchorClose)])
    (hleg : closesWithin t oneHourMs close = true) :
    ¬ Subscribes c p arb cid ↔
      ¬ Readable arb ∨ c.utcNow < close ∨ closesWithin c.utcNow oneHourMs other = true := by
  rw [not_subscribes_iff hpc ha hm, ← window_guard_later hleg ht]
  simp only [List.mem_cons, Prod.mk.injEq, List.not_mem_nil, or_false] at hlegs
  rcases hlegs with ⟨rfl, rfl⟩ | ⟨rfl, rfl⟩
  · exact Iff.rfl
  · rw [Bool.or_comm]

/-! ## §4 Both guards -/

/-- **The guards over time**: with the close times fixed, and a leg found inside the window at
    `t`, the pair is refused at a later `t'` exactly as long as that leg has not closed, or
    while the other leg is inside the window.  `evaluate_arb` refuses it only if both close
    times are representable, `find_arb` always if they are not. -/
theorem close_guards_iff {t t' : ℤ} (ht : t < t') :
    (∀ pair leg other, (leg, other) ∈ eachLeg pair →
      closesWithin t tenMinutesMs leg.closeTimeMs = true →
      (closesSoon t' pair = true ↔
        (Representable leg.closeTimeMs ∧ Representable other.closeTimeMs) ∧
          (t' < leg.closeTimeMs ∨ closesWithin t' tenMinutesMs other.closeTimeMs = true))) ∧
    ∀ (c : Choice) (p : System) arb cid anchorClose matchClose close other, c.utcNow = t' →
      p.comms.pc = .next → statedClose arb.anchor = some anchorClose →
      statedClose arb.match = some matchClose →
      (close, other) ∈ [(anchorClose, matchClose), (matchClose, anchorClose)] →
      closesWithin t oneHourMs close = true →
      (¬ Subscribes c p arb cid ↔
        ¬ Readable arb ∨ t' < close ∨ closesWithin t' oneHourMs other = true) := by
  refine ⟨fun pair leg other hlegs hleg => closesSoon_later ht hlegs hleg, ?_⟩
  rintro c p arb cid anchorClose matchClose close other rfl hpc ha hm hlegs hleg
  exact not_subscribes_later ht hpc ha hm hlegs hleg

/-- One minute before the legs of the sample pair close they block it, and nothing else does. -/
theorem close_guards_sample : closesSoon (10 ^ 12 - 60000) samplePair = true := by
  refine ((close_guards_iff (t := 10 ^ 12 - 600000) (by decide)).1 samplePair samplePair.anchor
    samplePair.match ?_ (by decide)).mpr ⟨⟨rfl, rfl⟩, .inl (by decide)⟩
  simp [eachLeg]

/-- The sample pair at 0.40 each. -/
def sampleTop : TopOfBook := { TopOfBook.default with bestAsk := .fin ⟨40, 2⟩ }

/-- The sample pair with a Polymarket close time that is not a date. -/
def undatedPair : ArbMinifiedInfoPair :=
  { samplePair with «match» := { samplePair.match with closeTimeMs := 2 ^ 62 } }

/-- A step of the comms task at the given time. -/
def commsAt (now : ℤ) : Choice := { markets := oneSlugVenue, utcNow := now }

/-- **Trading resumes**: a millisecond before its close the pair is skipped and refused, at its
    close it is sent to the executor and subscribed again; and it is sent although one leg is
    inside the window when the other leg's close time is not a date. -/
theorem trading_resumes :
    closesSoon (10 ^ 12 - 1) samplePair = true ∧
    (evaluate (10 ^ 12) "x" samplePair (some sampleTop) (some sampleTop)).isSome ∧
    ¬ Subscribes (commsAt (10 ^ 12 - 1)) (.init (1 / 5) 2) (sampleArb "K" "11") "x" ∧
    Subscribes (commsAt (10 ^ 12)) (.init (1 / 5) 2) (sampleArb "K" "11") "x" ∧
    closesWithin (10 ^ 12 - 1) tenMinutesMs undatedPair.anchor.closeTimeMs = true ∧
    (evaluate (10 ^ 12 - 1) "x" undatedPair (some sampleTop) (some sampleTop)).isSome := by
  refine ⟨by decide, by decide +kernel, ?_, ⟨_, rfl⟩, by decide, by decide +kernel⟩
  rintro ⟨f, hf⟩
  cases hf

end Degenerate.Picker
