import Degenerate.Grpc.Client

/-!
# Retries of the gRPC Client

`run_grpc_client` counts the attempts that fail one after another.  An attempt is counted from
the connection to the end of its session; one that lasted for more than a minute starts the
count anew, whatever ended it.  The 30th failure in a row ends the client with an error, and
with it the bot.  The one other error is a server URL that is not one.

## Main Results

- `retries_run`: the counter is the number of short attempts since the last long one
- `gives_up_iff`: when the client gives up, and how long that takes
-/

namespace Degenerate.Grpc

open Degenerate.Lib

variable {μ ν : Type}

/-! ## §1 Failed attempts -/

/-- An attempt that failed. -/
structure FailedAttempt where
  sessionStart : ℕ
  failedAt : ℕ
  deriving DecidableEq

/-- It did not last for more than a minute. -/
def FailedAttempt.short (f : FailedAttempt) : Bool := f.failedAt - f.sessionStart ≤ stableAfter

namespace ClientPc

/-- The start of the attempt that the client is in. -/
def sessionStart : ClientPc μ ν → Option ℕ
  | .connecting t | .opening t | .selecting t _ | .sending t _ _ | .relaying t _ _ => some t
  | .top | .retrying _ | .stopped _ => none

/-- The client waits after a failed attempt, or has given up. -/
def failed : ClientPc μ ν → Bool
  | .retrying _ | .stopped (.error _) => true
  | _ => false

/-- The client has ended with an error. -/
def gaveUp : ClientPc μ ν → Bool
  | .stopped (.error _) => true
  | _ => false

theorem gaveUp_iff {pc : ClientPc μ ν} : pc.gaveUp = true ↔ ∃ e, pc = .stopped (.error e) := by
  cases pc with
  | stopped result => cases result <;> simp [gaveUp]
  | _ => simp [gaveUp]

/-- When the attempt started, or when the next one can start at the earliest. -/
def nextStart (now : ℕ) : ClientPc μ ν → ℕ
  | .top => now
  | .connecting t | .opening t | .selecting t _ | .sending t _ _ | .relaying t _ _ => t
  | .retrying wakeAt => wakeAt
  | .stopped _ => now + retryDelay

@[simp] theorem sessionStart_mapSession (f : Session μ ν → Session μ ν) (pc : ClientPc μ ν) :
    (pc.mapSession f).sessionStart = pc.sessionStart := by
  cases pc <;> rfl

@[simp] theorem nextStart_mapSession (f : Session μ ν → Session μ ν) (now : ℕ)
    (pc : ClientPc μ ν) : (pc.mapSession f).nextStart now = pc.nextStart now := by
  cases pc <;> rfl

@[simp] theorem failed_mapSession (f : Session μ ν → Session μ ν) (pc : ClientPc μ ν) :
    (pc.mapSession f).failed = pc.failed := by
  cases pc <;> rfl

/-- An attempt that is under way started at its start. -/
theorem nextStart_of_sessionStart {pc : ClientPc μ ν} {t : ℕ} (h : pc.sessionStart = some t)
    (now : ℕ) : pc.nextStart now = t := by
  cases pc <;> first | exact Option.some.inj h | cases h

/-- A client that is in an attempt neither waits nor has given up. -/
theorem failed_of_sessionStart {pc : ClientPc μ ν} {t : ℕ} (h : pc.sessionStart = some t) :
    pc.failed = false := by
  cases pc <;> first | rfl | cases h

end ClientPc

/-- A list begins with `n` elements of a kind if and only if it has as many before the first one
of another kind. -/
theorem le_length_takeWhile_iff {α : Type} {p : α → Bool} {n : ℕ} {l : List α} :
    n ≤ (l.takeWhile p).length ↔
      ∃ latest rest, l = latest ++ rest ∧ latest.length = n ∧ ∀ x ∈ latest, p x = true := by
  constructor
  · intro h
    obtain ⟨rest, hl⟩ := List.takeWhile_prefix (l := l) p
    refine ⟨(l.takeWhile p).take n, (l.takeWhile p).drop n ++ rest, ?_, ?_, fun x hx => ?_⟩
    · rw [← List.append_assoc, List.take_append_drop, hl]
    · rw [List.length_take, Nat.min_eq_left h]
    · exact List.all_eq_true.mp List.all_takeWhile x (List.mem_of_mem_take hx)
  · rintro ⟨latest, rest, rfl, rfl, hall⟩
    rw [List.takeWhile_append_of_pos hall, List.length_append]
    exact Nat.le_add_right _ _

namespace GrpcClient

/-- The attempt that fails in a step. -/
def failedAttempt (c : GrpcClient μ ν) (a : Action μ ν) : List FailedAttempt :=
  match c.pc.sessionStart, c.step a with
  | some t, some c' => if c'.pc.failed then [{ sessionStart := t, failedAt := c.now }] else []
  | _, _ => []

/-! ## §2 What a step does to the attempts -/

/-- The step goes on: no attempt fails in it. -/
structure GoesOn (c c' : GrpcClient μ ν) : Prop where
  retries : c'.retries = c.retries
  now : c.now ≤ c'.now
  failed : c'.pc.failed = true → c'.pc = c.pc
  nextStart : c'.pc ≠ .stopped (.ok ()) → c.pc.nextStart c.now ≤ c'.pc.nextStart c'.now
  started : ∀ t, c'.pc.sessionStart = some t → c.pc.sessionStart = some t ∨ t = c'.now

/-- The client leaves a point at which it is in an attempt for another one of that attempt. -/
theorem GoesOn.of_attempt {c c' : GrpcClient μ ν} {t : ℕ} (hc : c.pc.sessionStart = some t)
    (hc' : c'.pc.sessionStart = some t) (hretries : c'.retries = c.retries)
    (hnow : c'.now = c.now) : c.GoesOn c' where
  retries := hretries
  now := Nat.le_of_eq hnow.symm
  failed h := by
    rw [ClientPc.failed_of_sessionStart hc'] at h
    cases h
  nextStart _ := by
    apply Nat.le_of_eq
    rw [ClientPc.nextStart_of_sessionStart hc, ClientPc.nextStart_of_sessionStart hc']
  started t' h := .inl (by rw [hc, ← hc', h])

/-- The client returns because it was told to, or because there is nothing more to send. -/
theorem GoesOn.of_stopped {c c' : GrpcClient μ ν} (hc' : c'.pc = .stopped (.ok ()))
    (hretries : c'.retries = c.retries) (hnow : c'.now = c.now) : c.GoesOn c' where
  retries := hretries
  now := Nat.le_of_eq hnow.symm
  failed h := by
    rw [hc'] at h
    cases h
  nextStart h := absurd hc' h
  started t h := by
    rw [hc'] at h
    cases h

/-- At most the session changes. -/
theorem GoesOn.of_mapSession {c c' : GrpcClient μ ν} {f : Session μ ν → Session μ ν}
    (hpc : c'.pc = c.pc.mapSession f) (hretries : c'.retries = c.retries)
    (hnow : c'.now = c.now) : c.GoesOn c' where
  retries := hretries
  now := Nat.le_of_eq hnow.symm
  failed h := by
    rw [hpc] at h ⊢
    generalize c.pc = pc at h ⊢
    cases pc <;> first | rfl | cases h
  nextStart _ := by
    apply Nat.le_of_eq
    rw [hpc, hnow, ClientPc.nextStart_mapSession]
  started t h := .inl (by simpa [hpc] using h)

/-- The point of the program stays. -/
theorem GoesOn.of_pc {c c' : GrpcClient μ ν} (hpc : c'.pc = c.pc)
    (hretries : c'.retries = c.retries) (hnow : c.now ≤ c'.now) : c.GoesOn c' where
  retries := hretries
  now := hnow
  failed _ := hpc
  nextStart _ := by
    rw [hpc]
    generalize c.pc = pc
    cases pc with
    | top => exact hnow
    | stopped result => exact Nat.add_le_add_right hnow _
    | _ => exact Nat.le_refl _
  started t h := .inl (by rwa [hpc] at h)

/-- The head of the loop: the token is looked at, and the next attempt starts. -/
theorem goesOn_attempt {c : GrpcClient μ ν} (hpc : c.pc = .top) :
    c.GoesOn { c with pc := if c.shutdown then .stopped (.ok ()) else .connecting c.now } := by
  cases hshutdown : c.shutdown with
  | true => exact .of_stopped rfl rfl rfl
  | false =>
    refine ⟨rfl, Nat.le_refl _, fun h => (by cases h), fun _ => ?_, fun t ht => ?_⟩
    · rw [hpc]
      exact Nat.le_refl _
    · exact .inr (Option.some.inj ht).symm

/-- The pause between two attempts is over. -/
theorem goesOn_retry {c : GrpcClient μ ν} {t : ℕ} (hpc : c.pc = .retrying t) (hdue : t ≤ c.now) :
    c.GoesOn { c with pc := .top } := by
  refine ⟨rfl, Nat.le_refl _, fun h => (by cases h), fun _ => ?_, fun t ht => (by cases ht)⟩
  rw [hpc]
  exact hdue

/-- **What a step does**: an attempt fails, or the client goes on. -/
theorem step_attempts {c c' : GrpcClient μ ν} {a : Action μ ν} (h : c.step a = some c') :
    (∃ t, c.pc.sessionStart = some t ∧ c' = c.sessionFailed t) ∨ c.GoesOn c' := by
  have hstart : ∀ {pc t}, c.pc = pc → pc.sessionStart = some t → c.pc.sessionStart = some t :=
    fun hpc ht => hpc ▸ ht
  cases (step_moves h).2 with
  -- the point of the program stays
  | enqueue | closeOutbound | cancel => exact .inr (.of_pc rfl rfl (Nat.le_refl _))
  | tick => exact .inr (.of_pc rfl rfl (Nat.le_add_right _ _))
  | requestFails => exact .inr (.of_pc rfl rfl (Nat.le_refl _))
  | attempt hpc => exact .inr (goesOn_attempt hpc)
  | returns => exact .inr (.of_stopped rfl rfl rfl)
  | retry hpc hdue => exact .inr (goesOn_retry hpc hdue)
  -- the attempt goes on
  | connected hpc | opened hpc | recv hpc | sent hpc | message hpc | relayed hpc =>
    exact .inr (.of_attempt (hstart hpc rfl) rfl rfl rfl)
  -- the attempt fails
  | notConnected hpc | notOpened hpc | sendFails hpc | streamEnds hpc | relayFails hpc =>
    exact .inl ⟨_, hstart hpc rfl, rfl⟩
  -- the session changes, and nothing else
  | requested | transmit | deliver | reply | breakStream => exact .inr (.of_mapSession rfl rfl rfl)

/-! ## §3 Counting -/

/-- The client after the failed attempts `fs`, the latest first. -/
structure Counted (c : GrpcClient μ ν) (fs : List FailedAttempt) : Prop where
  retries : c.retries = (fs.takeWhile FailedAttempt.short).length
  gaveUp : (∃ e, c.pc = .stopped (.error e)) ↔ maxRetries ≤ c.retries
  started : ∀ t, c.pc.sessionStart = some t → t ≤ c.now
  /-- Between two attempts the client waits for the delay. -/
  spaced : c.pc ≠ .stopped (.ok ()) → ∀ (n : ℕ) f, fs[n]? = some f →
    f.failedAt + (n + 1) * retryDelay ≤ c.pc.nextStart c.now

theorem counted_init : ({} : GrpcClient μ ν).Counted [] where
  retries := rfl
  gaveUp := by
    constructor
    · rintro ⟨e, he⟩
      cases he
    · exact fun h => absurd h (Nat.not_succ_le_zero 29)
  started t h := by cases h
  spaced _ n f h := by simp at h

/-- No attempt fails. -/
theorem Counted.goesOn {c c' : GrpcClient μ ν} {fs : List FailedAttempt} (hc : c.Counted fs)
    (hrunning : c.pc.isStopped = false) (hgoes : c.GoesOn c') : c'.Counted fs where
  retries := hgoes.retries.trans hc.retries
  gaveUp := by
    -- the number of failures is as before, and the task still runs
    rw [hgoes.retries, ← hc.gaveUp]
    constructor
    · rintro ⟨e, he⟩
      rw [← hgoes.failed (by rw [he]; rfl)]
      exact ⟨e, he⟩
    · rintro ⟨e, he⟩
      rw [he] at hrunning
      cases hrunning
  started t h := by
    -- an attempt that was under way, or one that starts now
    rcases hgoes.started t h with h | rfl
    · exact Nat.le_trans (hc.started t h) hgoes.now
    · exact Nat.le_refl _
  spaced hpc n f h := by
    refine Nat.le_trans (hc.spaced ?_ n f h) (hgoes.nextStart hpc)
    intro hstopped
    rw [hstopped] at hrunning
    cases hrunning

/-- What a failed attempt leaves behind: the new count, and the pause or the end. -/
theorem sessionFailed_spec (c : GrpcClient μ ν) (t : ℕ) :
    ∃ retries, retries = (if stableAfter < c.now - t then 0 else c.retries + 1) ∧
      c.sessionFailed t = { c with
        retries
        pc := if maxRetries ≤ retries then
          .stopped (.error "max gRPC retries (30) reached. Aborting.")
          else .retrying (c.now + retryDelay) } := by
  refine ⟨_, rfl, ?_⟩
  unfold sessionFailed
  generalize (if stableAfter < c.now - t then 0 else c.retries + 1) = retries
  dsimp only
  by_cases hmax : maxRetries ≤ retries
  · rw [if_pos hmax, if_pos hmax]
  · rw [if_neg hmax, if_neg hmax]

/-- An attempt fails. -/
theorem Counted.fails {c : GrpcClient μ ν} {fs : List FailedAttempt} (hc : c.Counted fs) {t : ℕ}
    (ht : c.pc.sessionStart = some t) :
    (c.sessionFailed t).Counted ({ sessionStart := t, failedAt := c.now } :: fs) := by
  obtain ⟨retries, hretries, heq⟩ := c.sessionFailed_spec t
  rw [heq]
  constructor
  · show retries = _
    rw [hretries, List.takeWhile_cons, FailedAttempt.short, hc.retries]
    -- an attempt that outlasts the stable time sets the counter back
    by_cases hshort : c.now - t ≤ stableAfter
    · rw [if_neg (Nat.not_lt.mpr hshort), decide_eq_true hshort, if_pos rfl, List.length_cons]
    · rw [if_pos (Nat.not_le.mp hshort), decide_eq_false hshort]
      rfl
  · show (∃ e, (if maxRetries ≤ retries then _ else _) = ClientPc.stopped (.error e)) ↔
      maxRetries ≤ retries
    by_cases hmax : maxRetries ≤ retries
    · rw [if_pos hmax]
      exact iff_of_true ⟨_, rfl⟩ hmax
    · rw [if_neg hmax]
      refine iff_of_false ?_ hmax
      rintro ⟨e, he⟩
      cases he
  -- no attempt is under way after a failure
  · intro t' ht'
    dsimp only at ht'
    split at ht' <;> cases ht'
  · intro _ n f hf
    have hnext : (if maxRetries ≤ retries then
        .stopped (.error "max gRPC retries (30) reached. Aborting.")
        else .retrying (c.now + retryDelay) : ClientPc μ ν).nextStart c.now =
        c.now + retryDelay := by
      split <;> rfl
    have hstart := hc.started t ht
    have hactive : c.pc ≠ .stopped (.ok ()) := by
      intro hstopped
      rw [hstopped] at ht
      cases ht
    show f.failedAt + (n + 1) * retryDelay ≤ ClientPc.nextStart c.now _
    rw [hnext]
    cases n with
    | zero =>
      obtain rfl := Option.some.inj hf
      show c.now + (0 + 1) * retryDelay ≤ c.now + retryDelay
      omega
    | succ n =>
      -- the attempt started when the client had waited after the one before
      have hbefore := hc.spaced hactive n f (by simpa using hf)
      rw [ClientPc.nextStart_of_sessionStart ht] at hbefore
      rw [Nat.succ_mul]
      omega

theorem Counted.step {c c' : GrpcClient μ ν} {a : Action μ ν} {fs : List FailedAttempt}
    (hc : c.Counted fs) (hstep : c.step a = some c') :
    c'.Counted ((c.failedAttempt a).foldl (fun fs f => f :: fs) fs) := by
  have hrunning := (step_moves hstep).1
  rcases step_attempts hstep with ⟨t, ht, rfl⟩ | hgoes
  · have hfailed : c.failedAttempt a = [{ sessionStart := t, failedAt := c.now }] := by
      obtain ⟨retries, -, heq⟩ := c.sessionFailed_spec t
      rw [failedAttempt, ht, hstep, heq]
      refine if_pos ?_
      show ClientPc.failed (if maxRetries ≤ retries then _ else _) = true
      split <;> rfl
    rw [hfailed]
    exact hc.fails ht
  · have hnone : c.failedAttempt a = [] := by
      rw [failedAttempt, hstep]
      cases ht : c.pc.sessionStart with
      | none => rfl
      | some t =>
        refine if_neg fun hfailed => ?_
        -- an attempt that goes on has not failed
        rw [hgoes.failed hfailed, ClientPc.failed_of_sessionStart ht] at hfailed
        cases hfailed
    rw [hnone]
    exact hc.goesOn hrunning hgoes

/-- The failed attempts of a run, the latest first. -/
def failedAttempts (c : GrpcClient μ ν) (as : List (Action μ ν)) : List FailedAttempt :=
  (trace failedAttempt step c as).reverse

theorem retries_run {as : List (Action μ ν)} {c : GrpcClient μ ν}
    (hrun : run step {} as = some c) : c.Counted (failedAttempts {} as) := by
  have hfold := foldl_trace_along (P := fun _ _ => True) (I := Counted)
    (fun (fs : List FailedAttempt) f => f :: fs) (fun _ _ _ _ hc _ hstep => hc.step hstep)
    counted_init (along_of_forall (fun _ _ => trivial) _ as) hrun
  rw [List.foldl_flip_cons_eq_append', List.append_nil] at hfold
  exact hfold

/-- A client that makes attempts gives up after 30 short ones in a row. -/
theorem gaveUp_iff {as : List (Action μ ν)} {c : GrpcClient μ ν} (hrun : run step {} as = some c) :
    (∃ e, c.pc = .stopped (.error e)) ↔
      ∃ latest rest, failedAttempts {} as = latest ++ rest ∧ latest.length = maxRetries ∧
        ∀ f ∈ latest, f.failedAt - f.sessionStart ≤ stableAfter := by
  have hc := retries_run hrun
  have hlatest : ∀ f : FailedAttempt,
      f.short = true ↔ f.failedAt - f.sessionStart ≤ stableAfter := fun _ => decide_eq_true_iff
  rw [hc.gaveUp, hc.retries]
  simp only [le_length_takeWhile_iff, hlatest]

/-- A client that is started with an invalid URL has returned, and makes no attempt. -/
theorem run_start_invalid {fromShared : String → Bool} {grpcUrl : Option String}
    (hurl : fromShared (serverUrl grpcUrl) = false) {as : List (Action μ ν)} {c : GrpcClient μ ν}
    (hrun : run step (start fromShared grpcUrl) as = some c) :
    as = [] ∧ c.pc = .stopped (.error "grpc_url invalid") := by
  have hstart : (start fromShared grpcUrl : GrpcClient μ ν) =
      { pc := .stopped (.error "grpc_url invalid") } := by
    rw [start, hurl]
    rfl
  rw [hstart] at hrun
  cases as with
  | nil =>
    cases hrun
    exact ⟨rfl, rfl⟩
  | cons a as =>
    -- nothing moves once the client has returned
    obtain ⟨c', hstep, -⟩ := run_cons.mp hrun
    cases hstep

/-- **Giving up.** The client ends with an error if and only if `GRPC_URL` is not a URL or its
latest 30 attempts each failed within a minute of their start.  From the first of these
failures to the last it is 58 seconds at least. -/
theorem gives_up_iff {fromShared : String → Bool} {grpcUrl : Option String}
    {as : List (Action μ ν)} {c : GrpcClient μ ν}
    (hrun : run step (start fromShared grpcUrl) as = some c) :
    ((∃ e, c.pc = .stopped (.error e)) ↔
      fromShared (serverUrl grpcUrl) = false ∨
      ∃ latest rest, failedAttempts (start fromShared grpcUrl) as = latest ++ rest ∧
        latest.length = maxRetries ∧ ∀ f ∈ latest, f.failedAt - f.sessionStart ≤ stableAfter) ∧
    ∀ e f, c.pc = .stopped (.error e) →
      (failedAttempts (start fromShared grpcUrl) as)[maxRetries - 1]? = some f →
      f.failedAt + 58000 ≤ c.now := by
  cases hurl : fromShared (serverUrl grpcUrl) with
  -- the client ends before its first attempt
  | false =>
    obtain ⟨rfl, hpc⟩ := run_start_invalid hurl hrun
    refine ⟨iff_of_true ⟨_, hpc⟩ (.inl rfl), fun e f _ hf => ?_⟩
    rw [failedAttempts, trace, List.reverse_nil] at hf
    cases hf
  | true =>
    have hstart : (start fromShared grpcUrl : GrpcClient μ ν) = {} := by rw [start, hurl]; rfl
    rw [hstart] at hrun ⊢
    rw [gaveUp_iff hrun]
    refine ⟨⟨.inr, fun h => h.resolve_left (by simp)⟩, fun e f he hf => ?_⟩
    -- the oldest of the thirty failures lies 29 pauses before the last one
    have hspaced := (retries_run hrun).spaced (by rw [he]; intro h; cases h) (maxRetries - 1) f hf
    rw [he] at hspaced
    have hspaced' : f.failedAt + (29 + 1) * 2000 ≤ c.now + 2000 := hspaced
    omega

/-- An attempt that is refused, and the pause after it. -/
def refused : List (Action ℕ ℕ) := [.attempt, .connected false, .tick 2000, .retry]

/-- A server that is never there. -/
def neverThere : List (Action ℕ ℕ) :=
  (List.replicate 29 refused).flatten ++ [.attempt, .connected false]

/-- What `Endpoint::from_shared` accepts of the URLs that are tried here. -/
def isHttp (url : String) : Bool := url.startsWith "http://"

theorem gives_up_iff_refused : ∃ c : GrpcClient ℕ ℕ,
    run step (start isHttp none) neverThere = some c ∧
    (isHttp (serverUrl none) = false ∨ ∃ latest rest,
      failedAttempts (start isHttp none : GrpcClient ℕ ℕ) neverThere = latest ++ rest ∧
      latest.length = maxRetries ∧ ∀ f ∈ latest, f.failedAt - f.sessionStart ≤ stableAfter) ∧
    ∃ f, (failedAttempts (start isHttp none : GrpcClient ℕ ℕ) neverThere)[maxRetries - 1]? =
      some f ∧ f.failedAt + 58000 ≤ c.now := by
  have hrun : (run step (start isHttp none : GrpcClient ℕ ℕ) neverThere).any
      (fun c => c.pc.gaveUp) = true := by decide +kernel
  have hfirst : (failedAttempts (start isHttp none : GrpcClient ℕ ℕ) neverThere)[maxRetries - 1]? =
      some { sessionStart := 0, failedAt := 0 } := by decide +kernel
  obtain ⟨c, hc, hcheck⟩ := (Option.any_eq_true _ _).mp hrun
  obtain ⟨e, he⟩ := ClientPc.gaveUp_iff.mp hcheck
  exact ⟨c, hc, (gives_up_iff hc).1.mp ⟨e, he⟩, _, hfirst, (gives_up_iff hc).2 e _ he hfirst⟩

end GrpcClient

end Degenerate.Grpc
