import Degenerate.Picker.System

/-!
# The In-Flight Set and the Execution Channel

`evaluate_arb` tests `in_flight`, sends the request, and inserts the id into
`in_flight`, in three separate accesses; the executor receives the request, handles
it, and removes the id.  Projected to the ids, this is a flagged work queue, and the
two questions about it have the answers of the library:

- at most one request is outstanding for each id, in every interleaving;
- an id in `in_flight` has a request outstanding, unless the executor removed the id
  while comms was between its send and its insert.  An id inserted after that
  removal stays in the set for ever.

## Main Results

- `step_queue`: the system refines `FlaggedQueue`
- `no_double_execution`
- `in_flight_backed`, `stuck_forever`, `locked_out`
-/

namespace Degenerate.Picker

open Degenerate.Lib

namespace System

/-! ## §1 Refinement -/

/-- The in-flight set and the channel, seen as a flagged work queue of ids. -/
def queue (p : System) : FlaggedQueue CorrelationId where
  queue := p.executionRx.map (·.correlationId)
  flags := p.inFlight
  producer := p.comms.pc.stage
  consumer := p.exec.pc.unreleased

/-- The executor is about to remove an id from `in_flight`. -/
def Releasing (p : System) (cid : CorrelationId) : Prop :=
  ∃ c rest, p.exec.pc = .handling c (.removeInFlight cid :: rest)

/-- In order, the executor removes the id of the pair that it handles. -/
theorem releasing_of_isRelease {p : System} (ho : p.exec.pc.Orderly) {cid : CorrelationId}
    {e : ExecEffect} {rest : List ExecEffect} (hpc : p.exec.pc = .handling cid (e :: rest))
    (he : e.isRelease) : p.Releasing cid := by
  have hown : e.Of cid := (hpc ▸ ho : (ExecPc.handling cid (e :: rest)).Orderly).2 e
    (List.mem_cons_self ..)
  rw [hown.isRelease_iff.mp he] at hpc
  exact ⟨cid, rest, hpc⟩

theorem queue_of_same {p q : System} (hx : SameExec p q)
    (hs : q.comms.pc.stage = p.comms.pc.stage) : q.queue = p.queue := by
  simp [queue, hx.inFlight, hx.executionRx, hx.exec, hs]

/-- **Refinement**: a step of the system is one move of the flagged queue, or none; it is a
    release only where the executor removes an id. -/
theorem step_queue {cfg : Config} {p q : System} {a : Action} (ho : p.exec.pc.Orderly)
    (h : step cfg p a = some q) :
    ∃ ms, run FlaggedQueue.step p.queue ms = some q.queue ∧
      (ms = [] ∨ ∃ m, ms = [m] ∧ (m = .release → a = .execEffect ∧ ∃ cid, p.Releasing cid)) := by
  have hone : ∀ m, FlaggedQueue.step p.queue m = some q.queue →
      (m = .release → a = .execEffect ∧ ∃ cid, p.Releasing cid) →
      ∃ ms, run FlaggedQueue.step p.queue ms = some q.queue ∧ (ms = [] ∨
        ∃ m, ms = [m] ∧ (m = .release → a = .execEffect ∧ ∃ cid, p.Releasing cid)) :=
    fun m hm hr => ⟨[m], by simp [run, hm], .inr ⟨m, rfl, hr⟩⟩
  have hother : ∀ m, m ≠ .release → FlaggedQueue.step p.queue m = some q.queue →
      ∃ ms, run FlaggedQueue.step p.queue ms = some q.queue ∧ (ms = [] ∨
        ∃ m, ms = [m] ∧ (m = .release → a = .execEffect ∧ ∃ cid, p.Releasing cid)) :=
    fun m hne hm => hone m hm fun heq => absurd heq hne
  rcases step_exec_cases h with ⟨hx, hs, -⟩ | ⟨cid, hout, hcid, hx, hpc⟩ | ⟨cid, hs, hx, hpc⟩ |
    ⟨req, hpc, hf, hrx, hex, hpc'⟩ | ⟨cid, hpc, hf, hrx, hex, hpc'⟩ |
    ⟨ans, req, ha, hrx, hidle, hpc', hf, hc⟩ | ⟨cid, e, rest, ha, hpc, hpc', hf, hrx, hc⟩ |
    ⟨hq, hp, hf, hrx, hc⟩
  · exact ⟨[], by simp [queue_of_same hx hs], .inl rfl⟩
  · -- `evaluate_arb` has found the id not in flight
    have hstage : q.comms.pc.stage = .passed cid := by rw [hpc]; rfl
    apply hother (.pass cid) (by simp)
    simp [FlaggedQueue.step, queue, hout, hcid, hstage, hx.inFlight, hx.executionRx, hx.exec]
  · have hstage : q.comms.pc.stage = .outside := by rw [hpc]; rfl
    apply hother .drop (by simp)
    simp [FlaggedQueue.step, queue, hs, hstage, hx.inFlight, hx.executionRx, hx.exec]
  · have hstage : p.comms.pc.stage = .passed req.correlationId := by rw [hpc]; rfl
    have hstage' : q.comms.pc.stage = .sent req.correlationId := by rw [hpc']; rfl
    apply hother .enqueue (by simp)
    simp [FlaggedQueue.step, queue, hstage, hstage', hf, hrx, hex]
  · have hstage : p.comms.pc.stage = .sent cid := by rw [hpc]; rfl
    have hstage' : q.comms.pc.stage = .outside := by rw [hpc']; rfl
    apply hother .raise (by simp)
    simp [FlaggedQueue.step, queue, hstage, hstage', hf, hrx, hex]
  · have hun : p.exec.pc.unreleased = none := by rw [hidle]; rfl
    have hun' : q.exec.pc.unreleased = some req.correlationId := by
      rw [hpc', Executor.unreleased_handle]
    apply hother .receive (by simp)
    simp [FlaggedQueue.step, queue, hrx, hun, hun', hf, hc]
  · have hun := ExecPc.unreleased_effect (hpc ▸ ho)
    have hown : e.Of cid := (hpc ▸ ho : (ExecPc.handling cid (e :: rest)).Orderly).2 e
      (List.mem_cons_self ..)
    have hf := hf hown
    by_cases he : e.isRelease
    · have hold : p.exec.pc.unreleased = some cid := by
        rw [hpc]
        exact if_pos ⟨e, List.mem_cons_self .., he⟩
      rw [if_pos he, ← hpc'] at hun
      refine hone .release ?_ fun _ => ⟨ha, cid, releasing_of_isRelease ho hpc he⟩
      simp [FlaggedQueue.step, queue, hold, hun, hf, he, hrx, hc]
    · -- any other effect is invisible to the queue
      rw [if_neg he, ← hpc, ← hpc'] at hun
      refine ⟨[], ?_, .inl rfl⟩
      simp [queue, hun, hf, he, hrx, hc]
  · -- between two requests the executor holds no flag
    have hun : q.exec.pc.unreleased = none := by
      rcases hq with hq | hq <;> rw [hq] <;> rfl
    exact ⟨[], by simp [queue, hun, hp, hf, hrx, hc], .inl rfl⟩

/-- At start-up nothing is outstanding and no flag is up. -/
theorem inv_init (fraction minSize : ℚ) :
    (init fraction minSize).exec.pc.Orderly ∧ (init fraction minSize).queue.Inv := by
  have hnone : ∀ k, (init fraction minSize).queue.outstanding k = 0 := fun _ => rfl
  refine ⟨trivial, fun k => ?_, fun k hk => ?_, nofun⟩
  · simp [hnone]
  · simp [hnone] at hk

/-- The flagged queue behind every state of every run keeps its invariant. -/
theorem queue_inv_run {cfg : Config} {p q : System} {as : List Action}
    (hi : p.exec.pc.Orderly ∧ p.queue.Inv) (h : run (step cfg) p as = some q) :
    q.exec.pc.Orderly ∧ q.queue.Inv := by
  refine run_invariant (I := fun s => s.exec.pc.Orderly ∧ s.queue.Inv)
    (fun s a t hs ht => ?_) hi h
  obtain ⟨ms, hms, -⟩ := step_queue hs.1 ht
  exact ⟨orderly_step hs.1 ht, FlaggedQueue.inv_run hs.2 hms⟩

/-! ## §2 No double execution -/

/-- Comms is at the send of the request, and the channel has room for it. -/
def Enqueues (p : System) (req : ExecutionRequest) : Prop :=
  p.comms.pc = .evaluating (.trySend req) ∧ p.executionRx.length < executionCapacity

/-- A step that puts a request into the channel is the send of `evaluate_arb`. -/
theorem enqueue_cases {cfg : Config} {p q : System} {a : Action} {req : ExecutionRequest}
    (h : step cfg p a = some q) (hrx : q.executionRx = p.executionRx ++ [req]) :
    (∃ c, a = .comms c) ∧ p.Enqueues req := by
  have hne : q.executionRx.length ≠ p.executionRx.length := by simp [hrx]
  rcases step_exec_cases h with ⟨hx, -, -⟩ | ⟨_, -, -, hx, -⟩ | ⟨_, -, hx, -⟩ |
    ⟨req', hpc, -, hrx', -, hpc'⟩ | ⟨_, -, -, hrx', -, -⟩ | ⟨_, _, -, hrx', -, -, -, -⟩ |
    ⟨_, _, _, -, -, -, -, hrx', -⟩ | ⟨-, -, -, hrx', -⟩
  · exact absurd (by rw [hx.executionRx]) hne
  · exact absurd (by rw [hx.executionRx]) hne
  · exact absurd (by rw [hx.executionRx]) hne
  · obtain rfl : req' = req := by simpa using hrx'.symm.trans hrx
    rcases step_comms_cases h with ⟨msg, -, hbetween, -⟩ | ⟨c, hc, hstep⟩ | hsame
    · have hnext := pc_of_betweenMessages hbetween
      rw [hpc] at hnext
      cases hnext
    · refine ⟨⟨c, hc⟩, hpc, ?_⟩
      -- a full channel would have dropped the request
      by_contra hfull
      simp only [commsStep, hpc, evalStep, if_neg hfull, Option.some.injEq] at hstep
      subst hstep
      exact hne rfl
    · rw [hsame.comms, hpc] at hpc'
      cases hpc'
  · exact absurd (by rw [hrx']) hne
  · have := congrArg List.length hrx'
    simp only [hrx, List.length_append, List.length_cons, List.length_nil] at this
    omega
  · exact absurd (by rw [hrx']) hne
  · exact absurd (by rw [hrx']) hne

/-- A request in the channel was there before the step, or the step is its send. -/
theorem mem_executionRx_step {cfg : Config} {p q : System} {a : Action} {req : ExecutionRequest}
    (h : step cfg p a = some q) (hreq : req ∈ q.executionRx) :
    req ∈ p.executionRx ∨ (∃ c, a = .comms c) ∧ p.Enqueues req := by
  have hsame : q.executionRx = p.executionRx → req ∈ p.executionRx := fun hrx => hrx ▸ hreq
  rcases step_exec_cases h with ⟨hx, -, -⟩ | ⟨_, -, -, hx, -⟩ | ⟨_, -, hx, -⟩ |
    ⟨req', -, -, hrx, -, -⟩ | ⟨_, -, -, hrx, -, -⟩ | ⟨_, _, -, hrx, -, -, -, -⟩ |
    ⟨_, _, _, -, -, -, -, hrx, -⟩ | ⟨-, -, -, hrx, -⟩
  · exact .inl (hsame hx.executionRx)
  · exact .inl (hsame hx.executionRx)
  · exact .inl (hsame hx.executionRx)
  · rw [hrx, List.mem_append, List.mem_singleton] at hreq
    rcases hreq with hreq | rfl
    · exact .inl hreq
    · exact .inr (enqueue_cases h hrx)
  · exact .inl (hsame hrx)
  · -- the executor has taken the head
    rw [hrx]
    exact .inl (List.mem_cons_of_mem _ hreq)
  · exact .inl (hsame hrx)
  · exact .inl (hsame hrx)

/-- The executor is at the receive of the request. -/
def Receives (p : System) (req : ExecutionRequest) : Prop :=
  p.exec.pc = .idle ∧ p.executionRx.head? = some req

/-- While the executor holds the flag of an id, the channel has no request for it. -/
theorem not_queued_of_unreleased {p : System} (hi : p.queue.Inv) {cid : CorrelationId}
    (hun : p.exec.pc.unreleased = some cid) : ∀ req ∈ p.executionRx, req.correlationId ≠ cid := by
  intro req hreq hcid
  have hsingle : (p.executionRx.map (·.correlationId)).count cid +
      (if p.exec.pc.unreleased = some cid then 1 else 0) ≤ 1 := hi.single cid
  have hmem : cid ∈ p.executionRx.map (·.correlationId) := List.mem_map.mpr ⟨req, hreq, hcid⟩
  have hpos := List.count_pos_iff.mpr hmem
  rw [if_pos hun] at hsingle
  omega

/-- **No double execution**: in every run the channel holds at most one request for an id,
    none while the executor still holds the id's flag, and none is sent then. -/
theorem no_double_execution {cfg : Config} {fraction minSize : ℚ} {as : List Action}
    {p : System} (h : run (step cfg) (init fraction minSize) as = some p)
    (cid : CorrelationId) :
    (p.executionRx.map (·.correlationId)).count cid ≤ 1 ∧
    (p.exec.pc.unreleased = some cid →
      (∀ req ∈ p.executionRx, req.correlationId ≠ cid) ∧
      ∀ a q req, step cfg p a = some q → q.executionRx = p.executionRx ++ [req] →
        req.correlationId ≠ cid) := by
  obtain ⟨-, hi⟩ := queue_inv_run (inv_init fraction minSize) h
  have hsingle : (p.executionRx.map (·.correlationId)).count cid +
      (if p.exec.pc.unreleased = some cid then 1 else 0) ≤ 1 := hi.single cid
  refine ⟨by omega, fun hun => ⟨not_queued_of_unreleased hi hun, fun a q req ha hrx hcid => ?_⟩⟩
  -- a sender has found nothing outstanding, but the executor's request is
  have hfresh := hi.fresh cid (by
    simp [queue, (enqueue_cases ha hrx).2.1, CommsPc.stage, EvalPc.stage, hcid])
  simp [FlaggedQueue.outstanding, queue, hun] at hfresh

/-- The sample pair is registered, found cheap, sent and flagged. -/
def flaggedSteps : List Action :=
  confirmSteps (sampleArb "K" "11") "x" ++ seedSteps "x" ++ [commsOne, commsOne]

/-- While the executor handles the sample pair, the channel holds nothing for it. -/
theorem no_double_execution_sample :
    ∃ p, run (step sampleConfig) (init (1 / 5) 2)
        (flaggedSteps ++ [refreshFails, .execReceive silentAnswers]) = some p ∧
      p.exec.pc.unreleased = some "x" ∧
      (p.executionRx.map (·.correlationId)).count "x" ≤ 1 ∧
      ∀ req ∈ p.executionRx, req.correlationId ≠ "x" := by
  have hrun : (run (step sampleConfig) (init (1 / 5) 2)
      (flaggedSteps ++ [refreshFails, .execReceive silentAnswers])).any
      (fun p => decide (p.exec.pc.unreleased = some "x")) = true := by decide +kernel
  obtain ⟨p, hp, hx⟩ := (Option.any_eq_true _ _).mp hrun
  have hun := of_decide_eq_true hx
  have hone := no_double_execution hp "x"
  exact ⟨p, hp, hun, hone.1, (hone.2 hun).1⟩

/-! ## §3 Flags are backed by requests -/

/-- The executor does not remove an id from `in_flight` while comms is between the send of
    a request for that id and the insertion of the id. -/
def ReleaseQuiet (p : System) (a : Action) : Prop :=
  a = .execEffect → ∀ cid, p.Releasing cid → p.comms.pc ≠ .evaluating (.insertInFlight cid)

/-- The only program point past the send is the insertion. -/
theorem pc_of_stage_sent {pc : CommsPc} {cid : CorrelationId} (h : pc.stage = .sent cid) :
    pc = .evaluating (.insertInFlight cid) := by
  cases pc with
  | evaluating e => cases e <;> simp_all [CommsPc.stage, EvalPc.stage]
  | next => cases h
  | finding f => cases h
  | registering w => cases h

theorem Releasing.unreleased {p : System} (ho : p.exec.pc.Orderly) {cid : CorrelationId}
    (h : p.Releasing cid) : p.exec.pc.unreleased = some cid := by
  obtain ⟨c, rest, hpc⟩ := h
  rw [hpc] at ho ⊢
  obtain rfl : cid = c := ho.2 _ (List.mem_cons_self ..) cid rfl
  have hrel : Releases (.removeInFlight cid :: rest) := releases_cons.mpr (.inl rfl)
  rw [ExecPc.unreleased, if_pos hrel]

/-- A step without such a removal is a move of the queue without a release in the gap. -/
theorem step_queue_quiet {cfg : Config} {p q : System} {a : Action} (ho : p.exec.pc.Orderly)
    (hquiet : ReleaseQuiet p a) (h : step cfg p a = some q) :
    ∃ ms, Along FlaggedQueue.step FlaggedQueue.QuietRelease p.queue ms ∧
      run FlaggedQueue.step p.queue ms = some q.queue := by
  obtain ⟨ms, hrun, hms⟩ := step_queue ho h
  refine ⟨ms, ?_, hrun⟩
  rcases hms with rfl | ⟨m, rfl, hm⟩
  · exact along_nil ..
  · refine ⟨fun hrel k hk hsent => ?_, fun _ _ => along_nil ..⟩
    obtain ⟨ha, cid, hcid⟩ := hm hrel
    obtain rfl : cid = k := Option.some.inj ((hcid.unreleased ho).symm.trans hk)
    exact hquiet ha cid hcid (pc_of_stage_sent hsent)

/-- **A flag is backed by a request** in every run in which no removal falls between a send
    and its insertion. -/
theorem in_flight_backed {cfg : Config} {fraction minSize : ℚ} {as : List Action} {p : System}
    (h : run (step cfg) (init fraction minSize) as = some p)
    (hquiet : Along (step cfg) ReleaseQuiet (init fraction minSize) as) {cid : CorrelationId}
    (hcid : cid ∈ p.inFlight) :
    (∃ req ∈ p.executionRx, req.correlationId = cid) ∨
      ∃ effects, p.exec.pc = .handling cid effects := by
  have hinit : (init fraction minSize).queue.FlagBacked := by
    rintro k (hk | hk)
    · simp [queue, init] at hk
    · cases hk
  obtain ⟨ms, hms, hrun⟩ := simulate_along (I := fun s => s.exec.pc.Orderly)
    (fun _ _ _ hi _ ht => orderly_step hi ht) (fun _ _ _ hi hq ht => step_queue_quiet hi hq ht)
    (inv_init fraction minSize).1 hquiet h
  -- the flag counts at least one piece of work: in the executor's hands, or queued
  have hpos : 0 < (p.executionRx.map (·.correlationId)).count cid +
      (if p.exec.pc.unreleased = some cid then 1 else 0) :=
    FlaggedQueue.flagBacked_run hinit hms hrun cid (.inl hcid)
  by_cases hun : p.exec.pc.unreleased = some cid
  · right
    cases hpc : p.exec.pc with
    | handling c effects =>
      rw [hpc, ExecPc.unreleased] at hun
      split at hun
      · obtain rfl : c = cid := Option.some.inj hun
        exact ⟨effects, rfl⟩
      · cases hun
    | refreshing => rw [hpc] at hun; cases hun
    | idle => rw [hpc] at hun; cases hun
  · left
    rw [if_neg hun] at hpos
    obtain ⟨req, hreq, hid⟩ := List.mem_map.mp (List.count_pos_iff.mp hpos)
    exact ⟨req, hreq, hid⟩

/-- The sample pair in flight, with its request queued. -/
theorem in_flight_backed_sample :
    ∃ p, run (step sampleConfig) (init (1 / 5) 2) flaggedSteps = some p ∧ "x" ∈ p.inFlight ∧
      ((∃ req ∈ p.executionRx, req.correlationId = "x") ∨
        ∃ effects, p.exec.pc = .handling "x" effects) := by
  have hrun : (run (step sampleConfig) (init (1 / 5) 2) flaggedSteps).any
      (fun p => decide ("x" ∈ p.inFlight)) = true := by decide +kernel
  obtain ⟨p, hp, hx⟩ := (Option.any_eq_true _ _).mp hrun
  have hquiet : ∀ a ∈ flaggedSteps, ∀ s, ReleaseQuiet s a := by
    have hno : ∀ a ∈ flaggedSteps, a.isExecEffect = false := by decide
    rintro a ha s rfl
    exact absurd (hno _ ha) (by decide)
  exact ⟨p, hp, of_decide_eq_true hx,
    in_flight_backed hp (along_of_forall_mem hquiet _) (of_decide_eq_true hx)⟩

/-! ## §4 A pair that is locked out -/

/-- An id in flight without a request stays in flight, and is never sent again. -/
theorem stuck_forever {cfg : Config} {p q : System} {as : List Action} {cid : CorrelationId}
    (ho : p.exec.pc.Orderly) (hs : p.queue.Stuck cid) (h : run (step cfg) p as = some q) :
    cid ∈ q.inFlight ∧ ∀ req ∈ q.executionRx, req.correlationId ≠ cid := by
  have hinv : q.exec.pc.Orderly ∧ q.queue.Stuck cid := by
    refine run_invariant (I := fun s => s.exec.pc.Orderly ∧ s.queue.Stuck cid)
      (fun s a t hst ht => ?_) ⟨ho, hs⟩ h
    obtain ⟨ms, hms, -⟩ := step_queue hst.1 ht
    exact ⟨orderly_step hst.1 ht, FlaggedQueue.stuck_run hst.2 hms⟩
  refine ⟨hinv.2.flag, fun req hreq hid => ?_⟩
  have hzero := Nat.eq_zero_of_add_eq_zero_right hinv.2.idle
  have hmem : cid ∈ q.executionRx.map (·.correlationId) := List.mem_map.mpr ⟨req, hreq, hid⟩
  exact absurd hzero (List.count_pos_iff.mpr hmem).ne'

/-- The executor takes the request at once and skips the trade without any await (the sizes
    seeded from HTTP are zero), before comms has inserted the id. -/
def racedSteps : List Action :=
  confirmSteps (sampleArb "K" "11") "x" ++ seedSteps "x" ++
    [refreshFails, commsOne, .execReceive silentAnswers, .execEffect, commsOne, .execFinish,
      refreshFails]

/-- The id is in flight, no request is queued, and every task is at rest. -/
def idleInFlight (cid : CorrelationId) (p : System) : Bool :=
  decide (cid ∈ p.inFlight) && p.executionRx.isEmpty && p.betweenMessages && p.exec.pc.isIdle

/-- After the race the pair is in flight with every task at rest, for ever. -/
theorem locked_out :
    ∃ p, run (step sampleConfig) (init (1 / 5) 2) racedSteps = some p ∧
      idleInFlight "x" p = true ∧
      ∀ as q, run (step sampleConfig) p as = some q →
        "x" ∈ q.inFlight ∧ ∀ req ∈ q.executionRx, req.correlationId ≠ "x" := by
  have hrun : (run (step sampleConfig) (init (1 / 5) 2) racedSteps).any (idleInFlight "x") =
      true := by decide +kernel
  obtain ⟨p, hp, hidle⟩ := (Option.any_eq_true _ _).mp hrun
  refine ⟨p, hp, hidle, fun as q h => stuck_forever ?_ ?_ h⟩
  · exact (queue_inv_run (inv_init _ _) hp).1
  · -- the flag is up, and no request, handling or send is there to take it down
    simp only [idleInFlight, Bool.and_eq_true, decide_eq_true_eq, List.isEmpty_iff] at hidle
    obtain ⟨⟨⟨hflag, hrx⟩, hbetween⟩, hexec⟩ := hidle
    have hstage : p.comms.pc.stage = .outside := by
      rw [pc_of_betweenMessages hbetween]
      rfl
    have hun : p.exec.pc.unreleased = none := by
      cases hpc : p.exec.pc <;> rw [hpc] at hexec <;> first | rfl | cases hexec
    exact ⟨hflag, by simp [FlaggedQueue.outstanding, queue, hrx, hun], by simp [queue, hstage],
      by simp [queue, hstage]⟩

end System

end Degenerate.Picker
