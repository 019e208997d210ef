import Degenerate.Lib.TransitionSystem
import Mathlib.Data.Finset.Basic
import Mathlib.Data.List.Count

/-!
# Flagged Work Queues

A producer and a consumer share a queue and a set of flags.  The producer tests
the flag of a key, enqueues the key, and raises the flag, as three separate steps;
the consumer takes a key from the queue, works on it, and lowers its flag.  The
flag is meant to say "there is work outstanding for this key".

## Main Results

- `FlaggedQueue.inv_run`: in every interleaving at most one piece of work is
  outstanding for each key, and the producer enqueues a key only when none is.
  The order "enqueue, then raise" does not matter for this.
- `FlaggedQueue.flagBacked_run`: a raised flag is backed by outstanding work in
  every run in which the consumer never lowers the flag of `k` between the
  producer's enqueueing of `k` and its raising of the flag.
- `FlaggedQueue.stuck_run`: a flag that is up without work stays up for ever.
-/

namespace Degenerate.Lib

/-- Where the producer is: not at a key, past the flag test, or past the enqueue. -/
inductive Producer (κ : Type*) where
  | outside
  | passed (k : κ)
  | sent (k : κ)
  deriving DecidableEq

/-- The shared state; `consumer` is the key whose flag the consumer has not lowered yet. -/
structure FlaggedQueue (κ : Type*) where
  queue : List κ
  flags : Finset κ
  producer : Producer κ
  consumer : Option κ

namespace FlaggedQueue

variable {κ : Type*} [DecidableEq κ]

/-- The steps of the two tasks. -/
inductive Move (κ : Type*) where
  /-- producer: the flag of `k` is down -/
  | pass (k : κ)
  /-- producer: give the key up -/
  | drop
  /-- producer: put the key in the queue -/
  | enqueue
  /-- producer: raise the flag of the key just enqueued -/
  | raise
  /-- consumer: take the next key -/
  | receive
  /-- consumer: lower the flag of the key it works on -/
  | release
  deriving DecidableEq

/-- One step of either task. -/
def step (s : FlaggedQueue κ) : Move κ → Option (FlaggedQueue κ)
  | .pass k =>
      if s.producer = .outside ∧ k ∉ s.flags then some { s with producer := .passed k } else none
  | .drop =>
      match s.producer with
      | .passed _ => some { s with producer := .outside }
      | _ => none
  | .enqueue =>
      match s.producer with
      | .passed k => some { s with queue := s.queue ++ [k], producer := .sent k }
      | _ => none
  | .raise =>
      match s.producer with
      | .sent k => some { s with flags := insert k s.flags, producer := .outside }
      | _ => none
  | .receive =>
      match s.consumer, s.queue with
      | none, k :: q => some { s with queue := q, consumer := some k }
      | _, _ => none
  | .release =>
      match s.consumer with
      | some k => some { s with flags := s.flags.erase k, consumer := none }
      | none => none

/-- The number of pieces of work outstanding for `k`: queued, or in the consumer's hands. -/
def outstanding (s : FlaggedQueue κ) (k : κ) : ℕ :=
  s.queue.count k + if s.consumer = some k then 1 else 0

/-- What one step can do, guards included. -/
inductive Moves (s : FlaggedQueue κ) : Move κ → FlaggedQueue κ → Prop
  | pass {k : κ} (hout : s.producer = .outside) (hdown : k ∉ s.flags) :
      Moves s (.pass k) { s with producer := .passed k }
  | drop {k : κ} (hpassed : s.producer = .passed k) : Moves s .drop { s with producer := .outside }
  | enqueue {k : κ} (hpassed : s.producer = .passed k) :
      Moves s .enqueue { s with queue := s.queue ++ [k], producer := .sent k }
  | raise {k : κ} (hsent : s.producer = .sent k) :
      Moves s .raise { s with flags := insert k s.flags, producer := .outside }
  | receive {k : κ} {q : List κ} (hidle : s.consumer = none) (hqueue : s.queue = k :: q) :
      Moves s .receive { s with queue := q, consumer := some k }
  | release {k : κ} (hworks : s.consumer = some k) :
      Moves s .release { s with flags := s.flags.erase k, consumer := none }

theorem step_moves {s s' : FlaggedQueue κ} {m : Move κ} (h : step s m = some s') :
    s.Moves m s' := by
  cases m with
  | pass k =>
    -- the guard: no flag, and an idle producer
    simp only [step] at h
    split at h <;> cases h
    rename_i hguard
    exact .pass hguard.1 hguard.2
  | drop =>
    simp only [step] at h
    split at h <;> cases h
    exact .drop ‹_›
  | enqueue =>
    simp only [step] at h
    split at h <;> cases h
    exact .enqueue ‹_›
  | raise =>
    simp only [step] at h
    split at h <;> cases h
    exact .raise ‹_›
  | receive =>
    simp only [step] at h
    split at h <;> cases h
    rename_i hidle hqueue
    exact .receive hidle hqueue
  | release =>
    simp only [step] at h
    split at h <;> cases h
    exact .release ‹_›

/-! ### What is outstanding afterwards -/

theorem outstanding_enqueue (s : FlaggedQueue κ) (p : Producer κ) (k k' : κ) :
    outstanding { s with queue := s.queue ++ [k], producer := p } k' =
      s.outstanding k' + if k = k' then 1 else 0 := by
  simp only [outstanding, List.count_append, List.count_singleton, beq_iff_eq]
  omega

/-- Work moves from the queue to the consumer. -/
theorem outstanding_receive {s : FlaggedQueue κ} {k : κ} {q : List κ} (hidle : s.consumer = none)
    (hqueue : s.queue = k :: q) (k' : κ) :
    outstanding { s with queue := q, consumer := some k } k' = s.outstanding k' := by
  simp only [outstanding, hidle, hqueue, List.count_cons, beq_iff_eq, Option.some.injEq,
    reduceCtorEq, if_false]
  omega

theorem outstanding_release {s : FlaggedQueue κ} {k : κ} (hworks : s.consumer = some k)
    (flags : Finset κ) (k' : κ) :
    outstanding { s with flags, consumer := none } k' + (if k = k' then 1 else 0) =
      s.outstanding k' := by
  simp [outstanding, hworks]

/-! ## At most one piece of work for each key -/

/-- The invariant of every interleaving. -/
structure Inv (s : FlaggedQueue κ) : Prop where
  /-- No key has two pieces of work outstanding. -/
  single : ∀ k, s.outstanding k ≤ 1
  /-- Outstanding work is flagged, or the producer is about to flag it. -/
  flagged : ∀ k, 0 < s.outstanding k → k ∈ s.flags ∨ s.producer = .sent k
  /-- The producer has passed the flag test only for a key without work. -/
  fresh : ∀ k, s.producer = .passed k → s.outstanding k = 0

/-- Outstanding work is flagged, while the producer has nothing to flag. -/
theorem Inv.mem_flags {s : FlaggedQueue κ} (hi : Inv s) {k : κ} (hpos : 0 < s.outstanding k)
    (hp : s.producer ≠ .sent k) : k ∈ s.flags :=
  (hi.flagged k hpos).resolve_right hp

/-- The flag of `k` is down and the producer is outside, so `k` has no work. -/
theorem Inv.pass {s : FlaggedQueue κ} (hi : Inv s) {k : κ} (hout : s.producer = .outside)
    (hdown : k ∉ s.flags) : Inv { s with producer := .passed k } where
  single := hi.single
  flagged k' hpos := .inl (hi.mem_flags hpos (by simp [hout]))
  fresh k' he := by
    obtain rfl : k = k' := by simpa using he
    by_contra hne
    exact hdown (hi.mem_flags (Nat.pos_of_ne_zero hne) (by simp [hout]))

/-- The only step that creates work, and only where there is none. -/
theorem Inv.enqueue {s : FlaggedQueue κ} (hi : Inv s) {k : κ} (hpassed : s.producer = .passed k) :
    Inv { s with queue := s.queue ++ [k], producer := .sent k } where
  single k' := by
    rw [outstanding_enqueue]
    split
    · rename_i hkk
      rw [← hkk, hi.fresh k hpassed]
    · exact hi.single k'
  flagged k' hpos := by
    rw [outstanding_enqueue] at hpos
    by_cases hkk : k = k'
    · exact .inr (by rw [hkk])
    · exact .inl (hi.mem_flags (by simpa [hkk] using hpos) (by simp [hpassed]))
  fresh k' he := by cases he

/-- Work that waited for its flag has it now. -/
theorem Inv.raise {s : FlaggedQueue κ} (hi : Inv s) {k : κ} (hsent : s.producer = .sent k) :
    Inv { s with flags := insert k s.flags, producer := .outside } where
  single := hi.single
  flagged k' hpos := by
    rcases hi.flagged k' hpos with hf | hf
    · exact .inl (Finset.mem_insert_of_mem hf)
    · obtain rfl : k = k' := by simpa [hsent] using hf
      exact .inl (Finset.mem_insert_self _ _)
  fresh k' he := by cases he

theorem Inv.receive {s : FlaggedQueue κ} (hi : Inv s) {k : κ} {q : List κ}
    (hidle : s.consumer = none) (hqueue : s.queue = k :: q) :
    Inv { s with queue := q, consumer := some k } where
  single k' := by
    rw [outstanding_receive hidle hqueue]
    exact hi.single k'
  flagged k' hpos := by
    rw [outstanding_receive hidle hqueue] at hpos
    exact hi.flagged k' hpos
  fresh k' he := by
    rw [outstanding_receive hidle hqueue]
    exact hi.fresh k' he

/-- The work on `k` was the only one, so lowering its flag uncovers nothing. -/
theorem Inv.release {s : FlaggedQueue κ} (hi : Inv s) {k : κ} (hworks : s.consumer = some k) :
    Inv { s with flags := s.flags.erase k, consumer := none } := by
  have hrest := outstanding_release hworks (s.flags.erase k)
  refine ⟨fun k' => ?_, fun k' hpos => ?_, fun k' he => ?_⟩
  · have hsingle := hi.single k'
    have h := hrest k'
    omega
  · have h := hrest k'
    have hkk : k' ≠ k := by
      rintro rfl
      have hsingle := hi.single k'
      rw [if_pos rfl] at h
      omega
    refine (hi.flagged k' (by omega)).imp_left fun hf => ?_
    exact Finset.mem_erase.mpr ⟨hkk, hf⟩
  · have hfresh := hi.fresh k' he
    have h := hrest k'
    omega

theorem inv_step {s s' : FlaggedQueue κ} {m : Move κ} (hi : Inv s)
    (h : step s m = some s') : Inv s' := by
  cases step_moves h with
  | pass hout hdown => exact hi.pass hout hdown
  | @drop k hpassed =>
    -- giving the key up leaves work and flags alone
    refine ⟨hi.single, fun k' hpos => ?_, fun k' he => by cases he⟩
    exact .inl (hi.mem_flags hpos (by simp [hpassed]))
  | enqueue hpassed => exact hi.enqueue hpassed
  | raise hsent => exact hi.raise hsent
  | receive hidle hqueue => exact hi.receive hidle hqueue
  | release hworks => exact hi.release hworks

theorem inv_run {s s' : FlaggedQueue κ} {ms : List (Move κ)} (hi : Inv s)
    (h : run step s ms = some s') : Inv s' :=
  run_invariant (fun _ _ _ => inv_step) hi h

/-! ## Raised flags are backed by work -/

/-- The consumer does not lower the flag of the key that the producer has enqueued
    but not flagged yet. -/
def QuietRelease (s : FlaggedQueue κ) (m : Move κ) : Prop :=
  m = .release → ∀ k, s.consumer = some k → s.producer ≠ .sent k

/-- Each raised flag, and the flag about to be raised, belongs to outstanding work. -/
def FlagBacked (s : FlaggedQueue κ) : Prop :=
  ∀ k, (k ∈ s.flags ∨ s.producer = .sent k) → 0 < s.outstanding k

theorem flagBacked_step {s s' : FlaggedQueue κ} {m : Move κ} (hb : FlagBacked s)
    (hq : QuietRelease s m) (h : step s m = some s') : FlagBacked s' := by
  cases step_moves h with
  | pass | drop =>
    rintro k' (hf | hf)
    · exact hb k' (.inl hf)
    · cases hf
  | @enqueue k hpassed =>
    -- the new key brings its own work
    intro k' hf
    rw [outstanding_enqueue]
    rcases hf with hf | hf
    · exact Nat.add_pos_left (hb k' (.inl hf)) _
    · rw [if_pos (Producer.sent.inj hf)]
      exact Nat.succ_pos _
  | @raise k hsent =>
    -- the raised flag was already accounted for as about to be raised
    rintro k' (hf | hf)
    · rcases Finset.mem_insert.mp hf with rfl | hf
      · exact hb k' (.inr hsent)
      · exact hb k' (.inl hf)
    · cases hf
  | receive hidle hqueue =>
    intro k' hf
    rw [outstanding_receive hidle hqueue]
    exact hb k' hf
  | @release k hworks =>
    -- only `k` loses work, and its flag goes down with it
    intro k' hf
    have hkk : k ≠ k' := by
      rintro rfl
      rcases hf with hf | hf
      · simp at hf
      · exact hq rfl k hworks hf
    have hpos := hb k' (hf.imp_left Finset.mem_of_mem_erase)
    rwa [← outstanding_release hworks (s.flags.erase k), if_neg hkk] at hpos

theorem flagBacked_run {s s' : FlaggedQueue κ} {ms : List (Move κ)} (hb : FlagBacked s)
    (hq : Along step QuietRelease s ms) (h : run step s ms = some s') : FlagBacked s' :=
  run_invariant_along (fun _ _ _ => flagBacked_step) hb hq h

/-! ## A flag without work stays up -/

/-- The flag of `k` is up, nothing is outstanding for `k`, and the producer is elsewhere. -/
structure Stuck (s : FlaggedQueue κ) (k : κ) : Prop where
  flag : k ∈ s.flags
  idle : s.outstanding k = 0
  notPassed : s.producer ≠ .passed k
  notSent : s.producer ≠ .sent k

/-- Nobody lowers a stuck flag, and the raised flag keeps the producer out. -/
theorem stuck_step {s s' : FlaggedQueue κ} {m : Move κ} {k : κ} (hs : Stuck s k)
    (h : step s m = some s') : Stuck s' k := by
  obtain ⟨hflag, hidle, hpassed, hsent⟩ := hs
  cases step_moves h with
  | @pass k' hout hdown =>
    -- the test would have to find the flag down
    refine ⟨hflag, hidle, ?_, by simp⟩
    rintro ⟨⟩
    exact hdown hflag
  | drop => exact ⟨hflag, hidle, by simp, by simp⟩
  | @enqueue k' hk' =>
    have hne : k' ≠ k := by
      rintro rfl
      exact hpassed hk'
    refine ⟨hflag, ?_, by simp, by simpa using hne⟩
    rw [outstanding_enqueue, if_neg hne]
    exact hidle
  | raise => exact ⟨Finset.mem_insert_of_mem hflag, hidle, by simp, by simp⟩
  | receive hnone hqueue =>
    refine ⟨hflag, ?_, hpassed, hsent⟩
    rw [outstanding_receive hnone hqueue]
    exact hidle
  | @release k' hworks =>
    -- the consumer lowers the flag of another key
    have hne : k ≠ k' := by
      rintro rfl
      simp [outstanding, hworks] at hidle
    refine ⟨Finset.mem_erase.mpr ⟨hne, hflag⟩, ?_, hpassed, hsent⟩
    exact Nat.eq_zero_of_add_eq_zero_right ((outstanding_release hworks _ k).trans hidle)

theorem stuck_run {s s' : FlaggedQueue κ} {ms : List (Move κ)} {k : κ} (hs : Stuck s k)
    (h : run step s ms = some s') : Stuck s' k :=
  run_invariant (fun _ _ _ hi => stuck_step hi) hs h

end FlaggedQueue

end Degenerate.Lib
