import Degenerate.Grpc.Delivery

/-!
# Recovery of the Running Arbs

After a restart the bot has no records, and the server sends them on request.  The
request is sent by a task that sleeps first, and that holds the channel of the first
session.  The flag that starts it is cleared when that session opens.

## Main Results

- `running_arbs_requested`: the request is out once a session has stood for longer than
  the delay, if the first session lives to see it
- `request_suppressed`: a first session that dies early takes the request with it
-/

namespace Degenerate.Grpc

open Degenerate.Lib

namespace GrpcClient

variable {μ ν : Type}

/-! ## §1 The request -/

/-- The session on whose standing channel the step places the request. -/
def placed (c : GrpcClient μ ν) : Action μ ν → List ℕ
  | .request => (c.recovery.bind c.recoverySession).toList.map Session.id
  | _ => []

/-- The current session is the one that the request is waiting for. -/
def awaited (c : GrpcClient μ ν) : Bool := (c.recovery.bind c.recoverySession).isSome

/-- The session that the request is waiting for does not fail, and its channel is not full
    when the delay is over. -/
def Undisturbed (c : GrpcClient μ ν) : Action μ ν → Prop
  | .breakStream => c.awaited = false
  | .relay false => c.awaited = false
  | .tick ms => ∀ r, c.recovery = some r → c.blocked r → c.now + ms ≤ r.due
  | _ => True

/-- No session was opened yet. -/
structure Fresh (c : GrpcClient μ ν) : Prop where
  firstConnect : c.firstConnect = true
  recovery : c.recovery = none
  session : c.pc.session = none

/-- The first session stands, and the request is not due yet, or just due. -/
structure Awaiting (c : GrpcClient μ ν) (s : Session μ ν) (r : Recovery) : Prop where
  session : c.pc.session = some s
  up : s.up = true
  recovery : c.recovery = some r
  same : s.id = r.session
  due : r.due = s.openedAt + recoveryDelay
  early : c.now ≤ r.due

/-- The request is still to come. -/
def RequestPending (c : GrpcClient μ ν) : Prop :=
  c.pc.isStopped = true ∨ c.Fresh ∨ ∃ s r, c.Awaiting s r

/-! ## §2 One step -/

theorem Awaiting.recoverySession {c : GrpcClient μ ν} {s : Session μ ν} {r : Recovery}
    (h : c.Awaiting s r) : c.recoverySession r = some s := by
  simp [GrpcClient.recoverySession, h.session, h.same, h.up]

theorem Awaiting.awaited {c : GrpcClient μ ν} {s : Session μ ν} {r : Recovery}
    (h : c.Awaiting s r) : c.awaited = true := by
  simp [GrpcClient.awaited, h.recovery, h.recoverySession]

/-- A change of the session that keeps its identity, and of nothing else that the request
    depends on. -/
theorem Awaiting.of_session {c c' : GrpcClient μ ν} {s s' : Session μ ν} {r : Recovery}
    (h : c.Awaiting s r) (hs : c'.pc.session = some s') (hid : s'.id = s.id)
    (hopened : s'.openedAt = s.openedAt) (hup : s'.up = s.up) (hrec : c'.recovery = c.recovery)
    (hnow : c'.now = c.now) : ∃ s r, c'.Awaiting s r :=
  ⟨s', r, hs, hup.trans h.up, hrec.trans h.recovery, hid.trans h.same,
    by rw [h.due, hopened], by rw [hnow]; exact h.early⟩

/-- A fresh client that does not open a session stays fresh. -/
theorem Fresh.of_no_session {c c' : GrpcClient μ ν} (h : c.Fresh)
    (hfirst : c'.firstConnect = c.firstConnect) (hrec : c'.recovery = c.recovery)
    (hs : c'.pc.session = none) : c'.RequestPending :=
  .inr (.inl ⟨hfirst.trans h.firstConnect, hrec.trans h.recovery, hs⟩)

theorem fresh_step {c c' : GrpcClient μ ν} {a : Action μ ν} (hf : c.Fresh)
    (h : c.step a = some c') : c'.RequestPending := by
  have hno : ∀ {pc : ClientPc μ ν} {s : Session μ ν}, c.pc = pc → pc.session ≠ some s := by
    rintro pc s rfl hs
    cases hf.session.symm.trans hs
  have hfailed : ∀ t, (c.sessionFailed t).RequestPending := by
    intro t
    obtain ⟨retries, pc, heq, hs, -⟩ := c.sessionFailed_eq t
    rw [heq]
    exact hf.of_no_session rfl rfl hs
  cases (step_moves h).2 with
  | enqueue => exact hf.of_no_session rfl rfl hf.session
  | closeOutbound => exact hf.of_no_session rfl rfl hf.session
  | cancel => exact hf.of_no_session rfl rfl hf.session
  | tick => exact hf.of_no_session rfl rfl hf.session
  | attempt => exact hf.of_no_session rfl rfl c.session_attempt
  | connected => exact hf.of_no_session rfl rfl rfl
  | notConnected => exact hfailed _
  | opened =>
    -- the first session starts the task
    refine .inr (.inr ⟨_, ⟨c.sessions, c.now + recoveryDelay⟩, rfl, rfl, ?_, rfl, rfl, ?_⟩)
    · exact if_pos hf.firstConnect
    · exact Nat.le_add_right _ _
  | notOpened => exact hfailed _
  | returns => exact .inl rfl
  | recv hpc => exact absurd rfl (hno hpc)
  | sent hpc => exact absurd rfl (hno hpc)
  | sendFails hpc => exact absurd rfl (hno hpc)
  | message hpc => exact absurd rfl (hno hpc)
  | streamEnds hpc => exact absurd rfl (hno hpc)
  | relayed hpc => exact absurd rfl (hno hpc)
  | relayFails hpc => exact absurd rfl (hno hpc)
  | retry => exact hf.of_no_session rfl rfl rfl
  | requested hr => cases hf.recovery.symm.trans hr
  | requestFails hr => cases hf.recovery.symm.trans hr
  | transmit hs => exact absurd hs (hno rfl)
  | deliver hs => exact absurd hs (hno rfl)
  | reply hs => exact absurd hs (hno rfl)
  | breakStream hs => exact absurd hs (hno rfl)

theorem awaiting_step {c c' : GrpcClient μ ν} {a : Action μ ν} {s : Session μ ν} {r : Recovery}
    (ha : c.Awaiting s r) (hu : c.Undisturbed a) (h : c.step a = some c') :
    c.placed a ≠ [] ∨ c'.RequestPending := by
  -- a step after which the session stands as before
  have hkept : ∀ {c' : GrpcClient μ ν} (s' : Session μ ν), c'.pc.session = some s' →
      s'.id = s.id → s'.openedAt = s.openedAt → s'.up = s.up → c'.recovery = c.recovery →
      c'.now = c.now → c.placed a ≠ [] ∨ c'.RequestPending := by
    intro c' s' hs hid hopened hup hrec hnow
    exact .inr (.inr (.inr (ha.of_session hs hid hopened hup hrec hnow)))
  have hmap : ∀ {c' : GrpcClient μ ν} (f : Session μ ν → Session μ ν),
      c'.pc = c.pc.mapSession f → (f s).id = s.id → (f s).openedAt = s.openedAt →
      (f s).up = s.up → c'.recovery = c.recovery → c'.now = c.now →
      c.placed a ≠ [] ∨ c'.RequestPending := by
    intro c' f hpc
    exact hkept (f s) (by rw [hpc, ClientPc.session_mapSession, ha.session]; rfl)
  have hno : ∀ {pc : ClientPc μ ν}, c.pc = pc → pc.session ≠ none := by
    rintro pc rfl hs
    cases ha.session.symm.trans hs
  have hsame : ∀ {pc : ClientPc μ ν} {s' : Session μ ν}, c.pc = pc → pc.session = some s' →
      s' = s := by
    rintro pc s' rfl hs
    exact Option.some.inj (hs.symm.trans ha.session)
  cases (step_moves h).2 with
  | enqueue => exact hkept s ha.session rfl rfl rfl rfl rfl
  | closeOutbound => exact hkept s ha.session rfl rfl rfl rfl rfl
  | cancel => exact hkept s ha.session rfl rfl rfl rfl rfl
  | @tick ms htick =>
    -- the clock stops at the deadline, also when the channel is full
    refine .inr (.inr (.inr ⟨s, r, ha.session, ha.up, ha.recovery, ha.same, ha.due, ?_⟩))
    have hguard : c.blocked r ∨ c.now + ms ≤ r.due := by
      simpa [mayTick, ha.recovery] using htick
    exact hguard.elim (hu r ha.recovery) id
  | attempt hpc => exact absurd rfl (hno hpc)
  | connected hpc => exact absurd rfl (hno hpc)
  | notConnected hpc => exact absurd rfl (hno hpc)
  | opened hpc => exact absurd rfl (hno hpc)
  | notOpened hpc => exact absurd rfl (hno hpc)
  | returns => exact .inr (.inl rfl)
  | recv hpc =>
    obtain rfl := hsame hpc rfl
    exact hkept _ rfl rfl rfl rfl rfl rfl
  | sent hpc =>
    obtain rfl := hsame hpc rfl
    exact hkept _ rfl rfl rfl rfl rfl rfl
  | sendFails hpc hdown =>
    obtain rfl := hsame hpc rfl
    cases ha.up.symm.trans hdown
  | message hpc =>
    obtain rfl := hsame hpc rfl
    exact hkept _ rfl rfl rfl rfl rfl rfl
  | streamEnds hpc hdown =>
    obtain rfl := hsame hpc rfl
    cases ha.up.symm.trans hdown
  | relayed hpc =>
    obtain rfl := hsame hpc rfl
    exact hkept _ rfl rfl rfl rfl rfl rfl
  | relayFails => cases ha.awaited.symm.trans hu
  | retry hpc => exact absurd rfl (hno hpc)
  | requested hr hs =>
    left
    simp [placed, hr, hs]
  | requestFails hr hs =>
    -- the session that the request waits for stands
    cases ha.recovery.symm.trans hr
    cases ha.recoverySession.symm.trans hs
  | transmit => exact hmap _ rfl rfl rfl rfl rfl rfl
  | deliver => exact hmap _ rfl rfl rfl rfl rfl rfl
  | reply => exact hmap _ rfl rfl rfl rfl rfl rfl
  | breakStream => cases ha.awaited.symm.trans hu

/-- As long as nothing was placed, the request is still to come. -/
theorem pending_step {c c' : GrpcClient μ ν} {a : Action μ ν} (hp : c.RequestPending)
    (hu : c.Undisturbed a) (h : c.step a = some c') : c.placed a ≠ [] ∨ c'.RequestPending := by
  rcases hp with hstopped | hf | ⟨s, r, ha⟩
  · rw [(step_moves h).1] at hstopped
    cases hstopped
  · exact .inr (fresh_step hf h)
  · exact awaiting_step ha hu h

/-! ## §3 Runs -/

/-- The request was placed in the run, or is still to come. -/
theorem placed_or_pending {c c' : GrpcClient μ ν} {as : List (Action μ ν)}
    (hp : c.RequestPending) (hu : Along step Undisturbed c as) (hrun : run step c as = some c') :
    trace placed step c as ≠ [] ∨ c'.RequestPending := by
  induction as generalizing c with
  | nil =>
    obtain rfl : c = c' := by simpa using hrun
    exact .inr hp
  | cons a as ih =>
    obtain ⟨t, ht, hrest⟩ := run_cons.mp hrun
    rw [trace_cons_of_step as ht]
    rcases pending_step hp hu.1 ht with hplaced | hpending
    · exact .inl fun hnil => hplaced (List.append_eq_nil_iff.mp hnil).1
    · refine (ih hpending (hu.2 t ht) hrest).imp_left fun htrace hnil => ?_
      exact htrace (List.append_eq_nil_iff.mp hnil).2

/-- **The running arbs are asked for**: if the session that the request waits for does not fail
    and has a slot for it in time, then in every state with a session that has stood for more
    than the delay the request was placed on the channel of a standing session. -/
theorem running_arbs_requested {as : List (Action μ ν)} {c : GrpcClient μ ν} {s : Session μ ν}
    (hu : Along step Undisturbed {} as) (hrun : run step {} as = some c)
    (hs : c.pc.session = some s) (hlong : s.openedAt + recoveryDelay < c.now) :
    trace placed step {} as ≠ [] := by
  have hfresh : ({} : GrpcClient μ ν).RequestPending := .inr (.inl ⟨rfl, rfl, rfl⟩)
  refine (placed_or_pending hfresh hu hrun).resolve_right ?_
  rintro (hstopped | hf | ⟨s', r, ha⟩)
  · cases (ClientPc.session_of_isStopped hstopped).symm.trans hs
  · cases hf.session.symm.trans hs
  · cases ha.session.symm.trans hs
    have hearly := ha.early
    have hdue := ha.due
    omega

instance (c : GrpcClient μ ν) : (a : Action μ ν) → Decidable (c.Undisturbed a)
  | .breakStream => inferInstanceAs (Decidable (c.awaited = false))
  | .relay false => inferInstanceAs (Decidable (c.awaited = false))
  | .tick ms =>
      decidable_of_iff (∀ r ∈ c.recovery, c.blocked r → c.now + ms ≤ r.due) Iff.rfl
  | .relay true | .enqueue _ | .closeOutbound | .cancel | .attempt | .connected _ | .opened _
  | .shutdown | .recv | .send | .message | .retry | .request | .transmit | .deliver | .reply _ =>
      .isTrue trivial

/-- The current session has stood for longer than the delay. -/
def hasStood (c : GrpcClient μ ν) : Bool :=
  c.pc.session.any fun s => s.up && decide (s.openedAt + recoveryDelay < c.now)

/-- The first session stands for a minute. -/
def lastingSession : List (Action ℕ Unit) := openSession ++ [.tick 30000, .request, .tick 30000]

theorem running_arbs_requested_lasting : trace placed step {} lastingSession ≠ [] := by
  have hcheck : (run step ({} : GrpcClient ℕ Unit) lastingSession).any hasStood = true := by
    decide +kernel
  have hu : Along step Undisturbed ({} : GrpcClient ℕ Unit) lastingSession := by decide +kernel
  obtain ⟨c, hc, hcheck⟩ := (Option.any_eq_true _ _).mp hcheck
  obtain ⟨s, hs, hstood⟩ := (Option.any_eq_true _ _).mp hcheck
  rw [Bool.and_eq_true, decide_eq_true_eq] at hstood
  exact running_arbs_requested hu hc hs hstood.2

/-- The first session dies after ten seconds, the second one stands for a minute. -/
def shortLivedSession : List (Action ℕ Unit) :=
  openSession ++ [.tick 10000, .breakStream, .message, .tick 2000, .retry] ++ openSession ++
    [.tick 18000, .request, .tick 42000]

/-- **A request that never goes out**: the first session takes the task with it, and the second
    one does not start another. -/
theorem request_suppressed :
    ∃ c s, run step {} shortLivedSession = some c ∧ c.pc.session = some s ∧ s.up = true ∧
      s.openedAt + recoveryDelay < c.now ∧ c.recovery = none ∧
      trace placed step {} shortLivedSession = [] := by
  have hcheck : (run step ({} : GrpcClient ℕ Unit) shortLivedSession).any (fun c =>
      c.hasStood && c.recovery == none) = true := by decide +kernel
  have htrace : trace placed step ({} : GrpcClient ℕ Unit) shortLivedSession = [] := by
    decide +kernel
  obtain ⟨c, hc, hcheck⟩ := (Option.any_eq_true _ _).mp hcheck
  rw [Bool.and_eq_true, beq_iff_eq] at hcheck
  obtain ⟨s, hs, hstood⟩ := (Option.any_eq_true _ _).mp hcheck.1
  rw [Bool.and_eq_true, decide_eq_true_eq] at hstood
  exact ⟨c, s, hc, hs, hstood.1, hstood.2, hcheck.2, htrace⟩

end GrpcClient

end Degenerate.Grpc
