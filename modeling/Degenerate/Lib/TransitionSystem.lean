import Mathlib.Data.List.Induction

/-!
# Transition Systems with Executable Steps

A system is a function `step : σ → α → Option σ`: in state `s` the action `a` is
either refused (`none`) or leads to one next state.  Nondeterminism (which task
moves, what the environment answers) is carried by the action, so a run is a list
of actions and can be evaluated.

## Main Definitions

- `run step s as`: the state after the actions `as`, if all are accepted
- `Along step P s as`: every accepted step of the run satisfies `P` in its pre-state
- `trace out step s as`: what the run emits, where `out s a` is what one step emits
- `withHistory note step`: the system with a history variable

## Main Results

- `run_invariant`, `run_invariant_along`, `run_invariant_prefix`: the induction rules for
  invariants
- `exists_turn`: the step that brings a property about
- `exists_run_of_measure`: steps that decrease a measure lead to where it is zero
- `along_congr`: step conditions that agree under an invariant
- `trace_sublist`: a budget that pays for every emission bounds the trace
- `trace_conserved`: what is brought up is emitted, or still to come
- `run_withHistory`: a history variable changes nothing
- `forall_mem_trace_iff`: a property of all that a run emits, step by step
- `foldl_trace_along`: invariants that speak of what the run has emitted
- `simulate_along`, `project`: a step-wise simulation extends to runs
-/

namespace Degenerate.Lib

variable {σ τ α β ε : Type*}

/-! ## §1 Runs -/

/-- The state reached from `s` by the actions, or `none` if one of them is refused. -/
def run (step : σ → α → Option σ) : σ → List α → Option σ
  | s, [] => some s
  | s, a :: as => (step s a).bind fun s' => run step s' as

@[simp] theorem run_nil (step : σ → α → Option σ) (s : σ) : run step s [] = some s := rfl

theorem run_cons {step : σ → α → Option σ} {s s' : σ} {a : α} {as : List α} :
    run step s (a :: as) = some s' ↔ ∃ t, step s a = some t ∧ run step t as = some s' := by
  simp [run, Option.bind_eq_some_iff]

/-- A run of `as ++ bs` is a run of `as` followed by a run of `bs`. -/
theorem run_append {step : σ → α → Option σ} {s s' : σ} {as bs : List α} :
    run step s (as ++ bs) = some s' ↔
      ∃ t, run step s as = some t ∧ run step t bs = some s' := by
  induction as generalizing s with
  | nil => simp
  | cons a as ih =>
    simp only [List.cons_append, run_cons, ih]
    constructor
    · rintro ⟨u, hu, t, ht, hs⟩
      exact ⟨t, ⟨u, hu, ht⟩, hs⟩
    · rintro ⟨t, ⟨u, hu, ht⟩, hs⟩
      exact ⟨u, hu, t, ht, hs⟩

/-! ## §2 Conditions on the steps of a run -/

/-- Every step that the run takes satisfies `P` in the state before it. -/
def Along (step : σ → α → Option σ) (P : σ → α → Prop) : σ → List α → Prop
  | _, [] => True
  | s, a :: as => P s a ∧ ∀ s', step s a = some s' → Along step P s' as

@[simp] theorem along_nil (step : σ → α → Option σ) (P : σ → α → Prop) (s : σ) :
    Along step P s [] := trivial

/-- A decidable step condition is decided by evaluating the run. -/
instance Along.decidable (step : σ → α → Option σ) (P : σ → α → Prop)
    [∀ s a, Decidable (P s a)] : ∀ s as, Decidable (Along step P s as)
  | _, [] => .isTrue trivial
  | s, a :: as =>
      match h : step s a with
      | none => decidable_of_iff (P s a) (by simp [Along, h])
      | some t =>
          have := Along.decidable step P t as
          decidable_of_iff (P s a ∧ Along step P t as) (by simp [Along, h])

theorem along_of_forall {step : σ → α → Option σ} {P : σ → α → Prop} (h : ∀ s a, P s a)
    (s : σ) (as : List α) : Along step P s as := by
  induction as generalizing s with
  | nil => trivial
  | cons a as ih => exact ⟨h s a, fun s' _ => ih s'⟩

theorem along_of_forall_mem {step : σ → α → Option σ} {P : σ → α → Prop} {as : List α}
    (h : ∀ a ∈ as, ∀ s, P s a) (s : σ) : Along step P s as := by
  induction as generalizing s with
  | nil => trivial
  | cons a as ih =>
    exact ⟨h a (List.mem_cons_self ..) s, fun s' _ =>
      ih (fun b hb => h b (List.mem_cons_of_mem _ hb)) s'⟩

theorem along_mono {step : σ → α → Option σ} {P Q : σ → α → Prop} (hPQ : ∀ s a, P s a → Q s a)
    {s : σ} {as : List α} (h : Along step P s as) : Along step Q s as := by
  induction as generalizing s with
  | nil => trivial
  | cons a as ih => exact ⟨hPQ s a h.1, fun s' hs => ih (h.2 s' hs)⟩

theorem Along.and {step : σ → α → Option σ} {P Q : σ → α → Prop} {s : σ} {as : List α}
    (hp : Along step P s as) (hq : Along step Q s as) :
    Along step (fun s a => P s a ∧ Q s a) s as := by
  induction as generalizing s with
  | nil => trivial
  | cons a as ih => exact ⟨⟨hp.1, hq.1⟩, fun s' hs => ih (hp.2 s' hs) (hq.2 s' hs)⟩

/-- `P` holds along a run of `as ++ bs` as soon as it does along both parts. -/
theorem along_append {step : σ → α → Option σ} {P : σ → α → Prop} {s : σ} {as bs : List α} :
    Along step P s (as ++ bs) ↔
      Along step P s as ∧ ∀ t, run step s as = some t → Along step P t bs := by
  induction as generalizing s with
  | nil => simp
  | cons a as ih =>
    simp only [List.cons_append, Along, ih, run_cons]
    constructor
    · rintro ⟨hp, h⟩
      refine ⟨⟨hp, fun s' hs => (h s' hs).1⟩, ?_⟩
      rintro t ⟨u, hu, ht⟩
      exact (h u hu).2 t ht
    · rintro ⟨⟨hp, h⟩, hb⟩
      exact ⟨hp, fun s' hs => ⟨h s' hs, fun t ht => hb t ⟨s', hs, ht⟩⟩⟩

theorem along_of_split {step : σ → α → Option σ} {P : σ → α → Prop} {s t : σ} {a : α}
    {as bs : List α} (h : Along step P s (as ++ a :: bs)) (ht : run step s as = some t) : P t a :=
  ((along_append.mp h).2 t ht).1

/-! ## §3 Invariants -/

/-- **Invariant rule under a step condition**: what each step that meets `P` preserves
    holds at the end of every run all of whose steps meet `P`. -/
theorem run_invariant_along {step : σ → α → Option σ} {P : σ → α → Prop} {I : σ → Prop}
    (hstep : ∀ s a s', I s → P s a → step s a = some s' → I s')
    {s s' : σ} {as : List α} (hs : I s) (hp : Along step P s as)
    (hrun : run step s as = some s') : I s' := by
  induction as generalizing s with
  | nil =>
    obtain rfl : s = s' := by simpa using hrun
    exact hs
  | cons a as ih =>
    -- the first step keeps the invariant, the rest of the run starts from there
    obtain ⟨t, ht, hrest⟩ := run_cons.mp hrun
    exact ih (hstep s a t hs hp.1 ht) (hp.2 t ht) hrest

/-- **Invariant rule**: what every step preserves holds at the end of every run. -/
theorem run_invariant {step : σ → α → Option σ} {I : σ → Prop}
    (hstep : ∀ s a s', I s → step s a = some s' → I s')
    {s s' : σ} {as : List α} (hs : I s) (hrun : run step s as = some s') : I s' :=
  run_invariant_along (P := fun _ _ => True) (fun s a s' hi _ h => hstep s a s' hi h) hs
    (along_of_forall (fun _ _ => trivial) s as) hrun

/-- **Invariant rule with the past**: an invariant that also speaks of the actions so far. -/
theorem run_invariant_prefix {step : σ → α → Option σ} {I : List α → σ → Prop} {s₀ : σ}
    (hstart : I [] s₀)
    (hstep : ∀ as s a s', run step s₀ as = some s → I as s → step s a = some s' →
      I (as ++ [a]) s')
    {s : σ} {as : List α} (hrun : run step s₀ as = some s) : I as s := by
  induction as using List.reverseRecOn generalizing s with
  | nil =>
    obtain rfl : s₀ = s := by simpa using hrun
    exact hstart
  | append_singleton as a ih =>
    obtain ⟨t, ht, hlast⟩ := run_append.mp hrun
    obtain ⟨u, hu, hnil⟩ := run_cons.mp hlast
    obtain rfl : u = s := by simpa using hnil
    exact hstep as t a u ht (ih ht) hu

/-- A run that ends with `P` and does not start with it has a first step that brings `P`. -/
theorem exists_turn {step : σ → α → Option σ} (P : σ → Prop) {s s' : σ} {as : List α}
    (hs : ¬ P s) (hs' : P s') (hrun : run step s as = some s') :
    ∃ bs a cs t t', as = bs ++ a :: cs ∧ run step s bs = some t ∧ ¬ P t ∧
      step t a = some t' ∧ P t' ∧ run step t' cs = some s' := by
  induction as generalizing s with
  | nil =>
    obtain rfl : s = s' := by simpa using hrun
    exact absurd hs' hs
  | cons a as ih =>
    obtain ⟨t, ht, hrest⟩ := run_cons.mp hrun
    by_cases hP : P t
    · exact ⟨[], a, as, s, t, rfl, rfl, hs, ht, hP, hrest⟩
    · obtain ⟨bs, b, cs, u, u', rfl, hu, hrest'⟩ := ih hP hrest
      exact ⟨a :: bs, b, cs, u, u', rfl, run_cons.mpr ⟨t, ht, hu⟩, hrest'⟩

/-- **Progress rule**: when every state of an invariant has a step that keeps it and decreases
    the measure, some run leads to a state where the measure is zero. -/
theorem exists_run_of_measure {step : σ → α → Option σ} {P : σ → α → Prop} {I : σ → Prop}
    (μ : σ → ℕ)
    (hstep : ∀ s, I s → μ s ≠ 0 → ∃ a s', P s a ∧ step s a = some s' ∧ I s' ∧ μ s' < μ s)
    {s : σ} (hs : I s) :
    ∃ as s', Along step P s as ∧ run step s as = some s' ∧ I s' ∧ μ s' = 0 := by
  induction hn : μ s using Nat.strongRecOn generalizing s with
  | ind n ih =>
    by_cases h0 : μ s = 0
    · exact ⟨[], s, along_nil .., rfl, hs, h0⟩
    · -- one step, and the rest by the smaller measure
      obtain ⟨a, t, hp, ht, hI, hlt⟩ := hstep s hs h0
      obtain ⟨as, s', halong, hrun, hI', h0'⟩ := ih (μ t) (hn ▸ hlt) hI rfl
      refine ⟨a :: as, s', ⟨hp, fun u hu => ?_⟩, run_cons.mpr ⟨t, ht, hrun⟩, hI', h0'⟩
      obtain rfl : t = u := Option.some.inj (ht.symm.trans hu)
      exact halong

/-- A step condition that an invariant turns into another one. -/
theorem along_of_invariant {step : σ → α → Option σ} {P Q : σ → α → Prop} {I : σ → Prop}
    (hI : ∀ s a s', I s → P s a → step s a = some s' → I s')
    (hPQ : ∀ s a, I s → P s a → Q s a) {s : σ} {as : List α} (hs : I s)
    (hp : Along step P s as) : Along step Q s as := by
  induction as generalizing s with
  | nil => trivial
  | cons a as ih =>
    exact ⟨hPQ s a hs hp.1, fun t ht => ih (hI s a t hs hp.1 ht) (hp.2 t ht)⟩

/-- Two step conditions that agree in the states of an invariant hold along the same runs. -/
theorem along_congr {step : σ → α → Option σ} {P Q : σ → α → Prop} {I : σ → Prop}
    (hI : ∀ s a s', I s → P s a → step s a = some s' → I s')
    (hPQ : ∀ s a, I s → (P s a ↔ Q s a)) {s : σ} {as : List α} (hs : I s) :
    Along step P s as ↔ Along step Q s as := by
  induction as generalizing s with
  | nil => exact Iff.rfl
  | cons a as ih =>
    simp only [Along, ← hPQ s a hs]
    constructor
    · rintro ⟨hp, h⟩
      exact ⟨hp, fun s' hs' => (ih (hI s a s' hs hp hs')).mp (h s' hs')⟩
    · rintro ⟨hp, h⟩
      exact ⟨hp, fun s' hs' => (ih (hI s a s' hs hp hs')).mpr (h s' hs')⟩

/-! ## §4 Emissions -/

/-- What the run emits: `out s a` for each step, in order. -/
def trace (out : σ → α → List ε) (step : σ → α → Option σ) : σ → List α → List ε
  | _, [] => []
  | s, a :: as =>
      match step s a with
      | none => []
      | some s' => out s a ++ trace out step s' as

theorem trace_cons_of_step {out : σ → α → List ε} {step : σ → α → Option σ} {s t : σ} {a : α}
    (as : List α) (h : step s a = some t) :
    trace out step s (a :: as) = out s a ++ trace out step t as := by
  simp [trace, h]

/-- What is made of the emissions of a run is what is made of those of its steps. -/
theorem flatMap_trace {δ : Type*} (f : ε → List δ) (out : σ → α → List ε)
    (step : σ → α → Option σ) (s : σ) (as : List α) :
    (trace out step s as).flatMap f = trace (fun s a => (out s a).flatMap f) step s as := by
  induction as generalizing s with
  | nil => rfl
  | cons a as ih =>
    cases h : step s a with
    | none => simp [trace, h]
    | some t =>
      rw [trace_cons_of_step as h, trace_cons_of_step as h, List.flatMap_append, ih]

/-- **Budget rule**: if each step pays for what it emits out of the list `φ`, a run emits
    a sublist of the `φ` of its first state. -/
theorem trace_sublist {out : σ → α → List ε} {step : σ → α → Option σ}
    {P : σ → α → Prop} {I : σ → Prop} (φ : σ → List ε)
    (hI : ∀ s a s', I s → P s a → step s a = some s' → I s')
    (hpay : ∀ s a s', I s → P s a → step s a = some s' → (out s a ++ φ s').Sublist (φ s))
    {s : σ} {as : List α} (hs : I s) (hp : Along step P s as) :
    (trace out step s as).Sublist (φ s) := by
  induction as generalizing s with
  | nil => exact List.nil_sublist _
  | cons a as ih =>
    cases h : step s a with
    | none => simp [trace, h]
    | some t =>
      -- the rest is paid for by what the first step has left
      have hrest := ih (hI s a t hs hp.1 h) (hp.2 t h)
      rw [trace_cons_of_step as h]
      exact (List.Sublist.append_left hrest _).trans (hpay s a t hs hp.1 h)

/-- **History rule**: an invariant between the state and a value that is updated with
    everything the run emits. -/
theorem foldl_trace_along {γ : Type*} {out : σ → α → List ε} {step : σ → α → Option σ}
    {P : σ → α → Prop} {I : σ → γ → Prop} (upd : γ → ε → γ)
    (hstep : ∀ s a s' g, I s g → P s a → step s a = some s' → I s' ((out s a).foldl upd g))
    {s s' : σ} {as : List α} {g : γ} (hs : I s g) (hp : Along step P s as)
    (hrun : run step s as = some s') : I s' ((trace out step s as).foldl upd g) := by
  induction as generalizing s g with
  | nil =>
    obtain rfl : s = s' := by simpa using hrun
    exact hs
  | cons a as ih =>
    obtain ⟨t, ht, hrest⟩ := run_cons.mp hrun
    rw [trace_cons_of_step as ht, List.foldl_append]
    exact ih (hstep s a t g hs hp.1 ht) (hp.2 t ht) hrest

/-- **Conservation rule**: when each step turns what is to come and what it brings up into what
    it emits and what is to come, so does a run. -/
theorem trace_conserved {out new : σ → α → List ε} {step : σ → α → Option σ} (φ : σ → List ε)
    (hstep : ∀ s a s', step s a = some s' → φ s ++ new s a = out s a ++ φ s')
    {s s' : σ} {as : List α} (hrun : run step s as = some s') :
    φ s ++ trace new step s as = trace out step s as ++ φ s' := by
  induction as generalizing s with
  | nil =>
    obtain rfl : s = s' := by simpa using hrun
    exact List.append_nil _
  | cons a as ih =>
    obtain ⟨t, ht, hrest⟩ := run_cons.mp hrun
    rw [trace_cons_of_step as ht, trace_cons_of_step as ht, ← List.append_assoc, hstep s a t ht,
      List.append_assoc, ih hrest, List.append_assoc]

/-- What each step emits has a property as soon as an invariant gives it. -/
theorem forall_mem_trace {out : σ → α → List ε} {step : σ → α → Option σ} {I : σ → Prop}
    {Q : ε → Prop} (hI : ∀ s a s', I s → step s a = some s' → I s')
    (hQ : ∀ s a, I s → ∀ e ∈ out s a, Q e) {s : σ} {as : List α} (hs : I s) :
    ∀ e ∈ trace out step s as, Q e := by
  induction as generalizing s with
  | nil => exact fun _ h => nomatch h
  | cons a as ih =>
    intro e he
    cases h : step s a with
    | none => simp [trace, h] at he
    | some t =>
      rw [trace_cons_of_step as h, List.mem_append] at he
      rcases he with he | he
      · exact hQ s a hs e he
      · exact ih (hI s a t hs h) e he

/-- **What a run emits** has a property exactly if what every accepted step emits has it. -/
theorem forall_mem_trace_iff {out : σ → α → List ε} {step : σ → α → Option σ} {Q : ε → Prop}
    {s : σ} {as : List α} :
    (∀ e ∈ trace out step s as, Q e) ↔
      Along step (fun s a => (step s a).isSome → ∀ e ∈ out s a, Q e) s as := by
  induction as generalizing s with
  | nil => exact iff_of_true (fun e he => absurd he List.not_mem_nil) trivial
  | cons a as ih =>
    cases h : step s a with
    | none => simp [trace, Along, h]
    | some t =>
      rw [trace_cons_of_step as h, List.forall_mem_append, ih]
      simp [Along, h]

/-! ## §5 History variables -/

/-- The system with a history variable, which is updated from the state before each step and
    which no step reads. -/
def withHistory {γ : Type*} (note : σ → α → γ → γ) (step : σ → α → Option σ) :
    σ × γ → α → Option (σ × γ) :=
  fun s a => (step s.1 a).map fun t => (t, note s.1 a s.2)

theorem withHistory_eq_some {γ : Type*} {note : σ → α → γ → γ} {step : σ → α → Option σ}
    {s t : σ × γ} {a : α} :
    withHistory note step s a = some t ↔ step s.1 a = some t.1 ∧ t.2 = note s.1 a s.2 := by
  obtain ⟨t, g⟩ := t
  rw [withHistory, Option.map_eq_some_iff]
  constructor
  · rintro ⟨u, hu, heq⟩
    cases heq
    exact ⟨hu, rfl⟩
  · rintro ⟨ht, rfl⟩
    exact ⟨t, ht, rfl⟩

/-- **A history variable changes nothing**: the runs are those of the system without it. -/
theorem run_withHistory {γ : Type*} {note : σ → α → γ → γ} {step : σ → α → Option σ} {s s' : σ}
    {g : γ} {as : List α} :
    (∃ g', run (withHistory note step) (s, g) as = some (s', g')) ↔ run step s as = some s' := by
  induction as generalizing s g with
  | nil => simp
  | cons a as ih =>
    constructor
    · rintro ⟨g', h⟩
      obtain ⟨⟨t, g₁⟩, ht, hrest⟩ := run_cons.mp h
      exact run_cons.mpr ⟨t, (withHistory_eq_some.mp ht).1, ih.mp ⟨g', hrest⟩⟩
    · intro h
      obtain ⟨t, ht, hrest⟩ := run_cons.mp h
      obtain ⟨g', hg'⟩ := (ih (g := note s a g)).mpr hrest
      exact ⟨g', run_cons.mpr ⟨(t, note s a g), withHistory_eq_some.mpr ⟨ht, rfl⟩, hg'⟩⟩

/-! ## §6 Simulation -/

section Simulation

variable {step : σ → α → Option σ} {stepA : τ → β → Option τ}
variable {P : σ → α → Prop} {Q : τ → β → Prop} {I : σ → Prop} {abs : σ → τ}

/-- **Simulation**: if each concrete step that meets `P` is matched by abstract steps that
    meet `Q`, so is each concrete run. -/
theorem simulate_along (hI : ∀ s a s', I s → P s a → step s a = some s' → I s')
    (hsim : ∀ s a s', I s → P s a → step s a = some s' →
      ∃ bs, Along stepA Q (abs s) bs ∧ run stepA (abs s) bs = some (abs s'))
    {s s' : σ} {as : List α} (hs : I s) (hp : Along step P s as)
    (hrun : run step s as = some s') :
    ∃ bs, Along stepA Q (abs s) bs ∧ run stepA (abs s) bs = some (abs s') := by
  induction as generalizing s with
  | nil =>
    obtain rfl : s = s' := by simpa using hrun
    exact ⟨[], along_nil .., rfl⟩
  | cons a as ih =>
    obtain ⟨t, ht, hrest⟩ := run_cons.mp hrun
    obtain ⟨bs, hq, hb⟩ := hsim s a t hs hp.1 ht
    obtain ⟨cs, hq', hc⟩ := ih (hI s a t hs hp.1 ht) (hp.2 t ht) hrest
    -- the abstract run of the first step, followed by that of the rest
    refine ⟨bs ++ cs, along_append.mpr ⟨hq, fun u hu => ?_⟩, run_append.mpr ⟨abs t, hb, hc⟩⟩
    obtain rfl : abs t = u := Option.some.inj (hb.symm.trans hu)
    exact hq'

/-- **Projection**: if the concrete step `a` from `s` is matched by the abstract steps
    `moves s a`, a concrete run is matched by its trace of moves. -/
theorem project {moves : σ → α → List β}
    (hsim : ∀ s a s', step s a = some s' → run stepA (abs s) (moves s a) = some (abs s'))
    {s s' : σ} {as : List α} (hrun : run step s as = some s') :
    run stepA (abs s) (trace moves step s as) = some (abs s') := by
  induction as generalizing s with
  | nil =>
    obtain rfl : s = s' := by simpa using hrun
    simp [trace]
  | cons a as ih =>
    obtain ⟨t, ht, hrest⟩ := run_cons.mp hrun
    rw [trace_cons_of_step as ht]
    exact run_append.mpr ⟨abs t, hsim s a t ht, ih hrest⟩

end Simulation

end Degenerate.Lib
