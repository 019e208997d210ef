import Degenerate.Lib.TransitionSystem
import Mathlib.Algebra.Order.Ring.Int
import Mathlib.Data.List.Rotate
import Mathlib.Logic.Function.Basic

/-!
# The Main Task

`main` spawns the tasks of the bot and waits for six of them in a `try_join!`.  The other arm
of its `select!` waits for the shutdown token, which a signal cancels, and `main` itself when
a task fails.  Either way the tasks have five seconds to return before the process is gone.

What has happened is seen at the next poll of the main task, so every moment of the model is
that of a poll, and a bound on how late a poll may be is an assumption.

## Main Results

- `main_exits`: why the bot exits, how long its tasks have to return, and when it is gone
-/

namespace Degenerate.Runtime

open Degenerate.Lib

/-! ## §1 The tasks -/

/-- The handles of `AppRuntime`. -/
inductive Handle where
  | polymarket
  | kalshi
  | grpc
  | pickerComms
  | pickerExec
  | vectorStoreCleanup
  deriving DecidableEq, Repr

/-- In the order of the `try_join!`. -/
def Handle.all : List Handle :=
  [.polymarket, .kalshi, .grpc, .pickerComms, .pickerExec, .vectorStoreCleanup]

@[simp] theorem Handle.mem_all (h : Handle) : h ∈ Handle.all := by
  cases h <;> simp [Handle.all]

/-- What a `JoinHandle` resolves to. -/
inductive TaskEnd where
  | returned (innerResult : Except String Unit)
  | panicked (joinErr : String)
  deriving DecidableEq, Repr

def flatten : TaskEnd → Except String Unit
  | .returned innerResult => innerResult
  | .panicked joinErr => .error ("Task Panicked/Cancelled: " ++ joinErr)

/-- The error that a task ends with. -/
def TaskEnd.error (e : TaskEnd) : Option String :=
  match flatten e with
  | .ok _ => none
  | .error err => some err

theorem TaskEnd.eq_of_error_eq_none {e : TaskEnd} (h : e.error = none) :
    e = .returned (.ok ()) := by
  cases e with
  | panicked joinErr => simp [error, flatten] at h
  | returned innerResult =>
    cases innerResult with
    | ok u => rfl
    | error err => simp [error, flatten] at h

/-- The tasks that have ended, and when. -/
abbrev Ends := Handle → Option (ℤ × TaskEnd)

/-- No task has ended with an error. -/
def Ends.NoError (ends : Ends) : Prop :=
  ∀ h t e, ends h = some (t, e) → e.error = none

/-- An end that is recorded next to the others. -/
theorem Ends.update_eq_some {ends : Ends} {h h' : Handle} {e e' : ℤ × TaskEnd}
    (he : Function.update ends h (some e) h' = some e') : e' = e ∨ ends h' = some e' := by
  by_cases hh : h' = h
  · subst hh
    rw [Function.update_self] at he
    exact .inl (Option.some.inj he).symm
  · rw [Function.update_of_ne hh] at he
    exact .inr he

/-- A poll of `try_join!`, which starts at another handle each time: the first error it comes
    to, or the end of all. -/
def tryJoin (skip : ℕ) (ends : Ends) : Option (Except String Unit) :=
  match (Handle.all.rotate skip).findSome? fun h => (ends h).bind fun e => e.2.error with
  -- an error ends the wait at once, whatever becomes of the others
  | some err => some (.error err)
  | none => if Handle.all.all fun h => (ends h).isSome then some (.ok ()) else none

/-- **What a poll of the tasks says**. -/
theorem tryJoin_cases (skip : ℕ) (ends : Ends) :
    (∃ err, tryJoin skip ends = some (.error err) ∧
      ∃ h t e, ends h = some (t, e) ∧ e.error = some err) ∨
    (ends.NoError ∧
      (tryJoin skip ends = some (.ok ()) ∧ (∀ h, ∃ t e, ends h = some (t, e)) ∨
        tryJoin skip ends = none ∧ ∃ h, ends h = none)) := by
  unfold tryJoin
  -- wherever the poll starts, it comes to every handle
  cases hfind : (Handle.all.rotate skip).findSome? fun h => (ends h).bind fun e => e.2.error with
  | some err =>
    obtain ⟨h, -, herr⟩ := List.exists_of_findSome?_eq_some hfind
    obtain ⟨⟨t, e⟩, hends, herr⟩ := Option.bind_eq_some_iff.mp herr
    exact .inl ⟨err, rfl, h, t, e, hends, herr⟩
  | none =>
    have hno : ends.NoError := by
      intro h t e hends
      have := List.findSome?_eq_none_iff.mp hfind h (List.mem_rotate.mpr h.mem_all)
      rwa [hends] at this
    refine .inr ⟨hno, ?_⟩
    by_cases hall : ∀ h ∈ Handle.all, (ends h).isSome = true
    · refine .inl ⟨if_pos (List.all_eq_true.mpr hall), fun h => ?_⟩
      obtain ⟨⟨t, e⟩, hends⟩ := Option.isSome_iff_exists.mp (hall h h.mem_all)
      exact ⟨t, e, hends⟩
    · refine .inr ⟨if_neg (fun h => hall (List.all_eq_true.mp h)), ?_⟩
      push Not at hall
      obtain ⟨h, -, hnone⟩ := hall
      exact ⟨h, by simpa using hnone⟩

/-! ## §2 The main task -/

/-- How the process ends: all tasks have finished, one has failed, or the wait was cut off. -/
inductive Exit where
  | finished
  | crashed (e : String)
  | forced
  deriving DecidableEq, Repr

/-- Where the main task is: in the `select!`, with the deadline of the sleep of its second arm
    once the token was seen, or in the sleep after a failure. -/
inductive MainPc where
  | selecting (sleep : Option ℤ)
  | cleaning (e : String) (deadline : ℤ)
  | exited (how : Exit)
  deriving DecidableEq, Repr

structure MainTask where
  now : ℤ
  ends : Ends
  /-- When the shutdown token was cancelled. -/
  cancelled : Option ℤ
  signalled : Bool
  pc : MainPc

/-- `main` after `app_startup`. -/
def MainTask.start (now : ℤ) : MainTask where
  now := now
  ends := fun _ => none
  cancelled := none
  signalled := false
  pc := .selecting none

/-- The sleep of both arms. -/
def cleanupMs : ℤ := 5 * 1000

theorem cleanupMs_pos : 0 < cleanupMs := by decide

inductive MainAction where
  | elapse (ms : ℕ)
  /-- SIGTERM or SIGINT. -/
  | signal
  | finish (h : Handle) (e : TaskEnd)
  | poll (skip : ℕ)
  deriving DecidableEq, Repr

namespace MainTask

/-- A token is cancelled once. -/
def cancel (s : MainTask) : MainTask :=
  { s with cancelled := some (s.cancelled.getD s.now) }

/-- The second arm: `shutdown.cancelled()`, and then the sleep. -/
def pollShutdown (s : MainTask) : Option ℤ → MainTask
  | some deadline => if deadline ≤ s.now then { s with pc := .exited .forced } else s
  -- the sleep starts when the token is seen, not when it was cancelled
  | none =>
      if s.cancelled.isSome then { s with pc := .selecting (some (s.now + cleanupMs)) } else s

/-- The `select!` is biased: the tasks come first. -/
def poll (s : MainTask) (skip : ℕ) : MainTask :=
  match s.pc with
  | .selecting sleep =>
      match tryJoin skip s.ends with
      | some (.ok _) => { s with pc := .exited .finished }
      -- the body of the arm: the other arm is dropped with the `select!`
      | some (.error e) => { s.cancel with pc := .cleaning e (s.now + cleanupMs) }
      | none => s.pollShutdown sleep
  | .cleaning e deadline =>
      if deadline ≤ s.now then { s with pc := .exited (.crashed e) } else s
  | .exited _ => s

def isExited (s : MainTask) : Bool :=
  match s.pc with
  | .exited _ => true
  | _ => false

/-- Nothing happens in a process that is gone. -/
def step (s : MainTask) (a : MainAction) : Option MainTask :=
  if s.isExited then none
  else
    match a with
    | .elapse ms => some { s with now := s.now + ms }
    -- the task that waits for signals ends with the first one; another one changes nothing
    | .signal => some { s.cancel with signalled := true }
    | .finish h e =>
        if s.ends h = none then
          some { s with ends := Function.update s.ends h (some (s.now, e)) }
        else none
    | .poll skip => some (s.poll skip)

/-- What a poll of the main task does. -/
inductive Polls (s : MainTask) : MainTask → Prop
  | finished {sleep : Option ℤ} (hpc : s.pc = .selecting sleep) (hno : s.ends.NoError)
      (hall : ∀ h, ∃ t e, s.ends h = some (t, e)) : Polls s { s with pc := .exited .finished }
  | failed {sleep : Option ℤ} {err : String} {h : Handle} {t : ℤ} {e : TaskEnd}
      (hpc : s.pc = .selecting sleep) (hends : s.ends h = some (t, e))
      (herr : e.error = some err) :
      Polls s { s.cancel with pc := .cleaning err (s.now + cleanupMs) }
  | woken {t : ℤ} (hpc : s.pc = .selecting none) (hcancelled : s.cancelled = some t) :
      Polls s { s with pc := .selecting (some (s.now + cleanupMs)) }
  | forced {deadline : ℤ} (hpc : s.pc = .selecting (some deadline)) (hle : deadline ≤ s.now)
      (hno : s.ends.NoError) (hleft : ∃ h, s.ends h = none) :
      Polls s { s with pc := .exited .forced }
  | crashed {e : String} {deadline : ℤ} (hpc : s.pc = .cleaning e deadline)
      (hle : deadline ≤ s.now) : Polls s { s with pc := .exited (.crashed e) }
  | waits : Polls s s

/-- A poll ends no task. -/
theorem Polls.ends {s s' : MainTask} (h : Polls s s') : s'.ends = s.ends := by
  cases h <;> rfl

/-- **What a poll can do**. -/
theorem poll_polls (s : MainTask) (skip : ℕ) : Polls s (s.poll skip) := by
  unfold poll
  split
  · next sleep hpc =>
    -- `try_join` comes first: an error, every end, or a handle that is left
    obtain ⟨err, hjoin, h, t, e, hends, herr⟩ | ⟨hno, ⟨hjoin, hall⟩ | ⟨hjoin, hleft⟩⟩ :=
      tryJoin_cases skip s.ends
    · rw [hjoin]
      exact .failed hpc hends herr
    · rw [hjoin]
      exact .finished hpc hno hall
    · rw [hjoin]
      cases sleep with
      -- then the sleep, which a cancellation starts and a deadline ends
      | none =>
        simp only [pollShutdown]
        split
        · next hsome =>
          obtain ⟨t, ht⟩ := Option.isSome_iff_exists.mp hsome
          exact .woken hpc ht
        · exact .waits
      | some deadline =>
        simp only [pollShutdown]
        split
        · next hle => exact .forced hpc hle hno hleft
        · exact .waits
  · next e deadline hpc =>
    -- after an error the crash waits for its own deadline
    split
    · next hle => exact .crashed hpc hle
    · exact .waits
  · exact .waits

/-- What can happen in a running process. -/
inductive Moves (s : MainTask) : MainAction → MainTask → Prop
  | elapse (ms : ℕ) : Moves s (.elapse ms) { s with now := s.now + ms }
  | signal : Moves s .signal { s.cancel with signalled := true }
  | finish (h : Handle) (e : TaskEnd) (hnone : s.ends h = none) :
      Moves s (.finish h e) { s with ends := Function.update s.ends h (some (s.now, e)) }
  | poll (skip : ℕ) {s' : MainTask} (h : Polls s s') : Moves s (.poll skip) s'

theorem step_moves {s s' : MainTask} {a : MainAction} (h : s.step a = some s') :
    s.isExited = false ∧ Moves s a s' := by
  obtain ⟨hrunning, h⟩ := Option.ite_none_left_eq_some.mp h
  refine ⟨by simpa using hrunning, ?_⟩
  cases a with
  | elapse ms =>
    cases h
    exact .elapse ms
  | signal =>
    cases h
    exact .signal
  | finish h' e =>
    obtain ⟨hnone, h⟩ := Option.ite_none_right_eq_some.mp h
    cases h
    exact .finish h' e hnone
  | poll skip =>
    cases h
    exact .poll skip (s.poll_polls skip)

/-! ## §3 Why the process ends -/

/-- The tasks have had the time of the sleep since the token was cancelled. -/
def HadCleanup (s : MainTask) (t : ℤ) : Prop :=
  ∃ since, s.cancelled = some since ∧ since + cleanupMs ≤ t

/-- A task had ended with an error, that long before. -/
def HadFailed (s : MainTask) (err : String) (t : ℤ) : Prop :=
  ∃ h since e, s.ends h = some (since, e) ∧ e.error = some err ∧ since + cleanupMs ≤ t

/-- **What each exit means**. -/
def ExitsFor (s : MainTask) : Exit → Prop
  | .finished => ∀ h, ∃ t, s.ends h = some (t, .returned (.ok ()))
  | .crashed err => s.HadFailed err s.now ∧ s.HadCleanup s.now
  | .forced =>
      (s.ends.NoError ∧ ∃ h, s.ends h = none) ∧ s.signalled = true ∧ s.HadCleanup s.now

/-- What the main task has seen. -/
def Seen (s : MainTask) : MainPc → Prop
  | .selecting sleep =>
      (s.cancelled.isSome = true → s.signalled = true) ∧
        ∀ deadline ∈ sleep, s.HadCleanup deadline
  | .cleaning err deadline =>
      s.HadFailed err deadline ∧ s.HadCleanup deadline ∧ deadline ≤ s.now + cleanupMs
  | .exited how => s.ExitsFor how

/-- What every state of a run satisfies. -/
structure Inv (s : MainTask) : Prop where
  ended : ∀ h t e, s.ends h = some (t, e) → t ≤ s.now
  cancelled : ∀ t ∈ s.cancelled, t ≤ s.now
  seen : s.Seen s.pc

theorem inv_start (now : ℤ) : (start now).Inv where
  ended := fun _ _ _ h => by cases h
  cancelled := fun _ h => by cases h
  seen := ⟨fun h => absurd h Bool.false_ne_true, fun _ h => by cases h⟩

theorem HadCleanup.mono {s : MainTask} {t t' : ℤ} (h : s.HadCleanup t) (hle : t ≤ t') :
    s.HadCleanup t' := by
  obtain ⟨since, hsince, hle'⟩ := h
  exact ⟨since, hsince, hle'.trans hle⟩

theorem HadFailed.mono {s : MainTask} {err : String} {t t' : ℤ} (h : s.HadFailed err t)
    (hle : t ≤ t') : s.HadFailed err t' := by
  obtain ⟨h, since, e, hends, herr, hle'⟩ := h
  exact ⟨h, since, e, hends, herr, hle'.trans hle⟩

/-- What the main task has seen stays so while it runs. -/
theorem Seen.mono {s s' : MainTask} {pc : MainPc} (h : s.Seen pc)
    (hrunning : ∀ how, pc ≠ .exited how) (hnow : s.now ≤ s'.now)
    (hends : ∀ h t e, s.ends h = some (t, e) → s'.ends h = some (t, e))
    (hcancelled : ∀ t ∈ s.cancelled, s'.cancelled = some t)
    (hsignalled : s'.signalled = true ∨ s'.cancelled = s.cancelled ∧ s'.signalled = s.signalled) :
    s'.Seen pc := by
  have hcleanup : ∀ t, s.HadCleanup t → s'.HadCleanup t := by
    rintro t ⟨since, hsince, hle⟩
    exact ⟨since, hcancelled since hsince, hle⟩
  cases pc with
  | selecting sleep =>
    refine ⟨fun hsome => ?_, fun deadline hd => hcleanup deadline (h.2 deadline hd)⟩
    rcases hsignalled with hs | ⟨hc, hs⟩
    · exact hs
    · rw [hs]
      exact h.1 (hc ▸ hsome)
  | cleaning err deadline =>
    obtain ⟨⟨h, since, e, he, herr, hle⟩, hclean, hdeadline⟩ := h
    exact ⟨⟨h, since, e, hends h since e he, herr, hle⟩, hcleanup deadline hclean, by omega⟩
  | exited how => exact absurd rfl (hrunning how)

theorem Inv.polls {s s' : MainTask} (hinv : s.Inv) (h : Polls s s') : s'.Inv := by
  have hseen := hinv.seen
  cases h with
  | waits => exact hinv
  | finished hpc hno hall =>
    -- all have ended, and none with an error
    refine ⟨hinv.ended, hinv.cancelled, fun h => ?_⟩
    obtain ⟨t, e, he⟩ := hall h
    obtain rfl := TaskEnd.eq_of_error_eq_none (hno h t e he)
    exact ⟨t, he⟩
  | @failed _ err h t e hpc hends herr =>
    -- the token is cancelled now, if it was not before
    have hle : s.cancelled.getD s.now ≤ s.now := by
      cases hcancelled : s.cancelled with
      | none => exact le_refl _
      | some since => exact hinv.cancelled since hcancelled
    refine ⟨hinv.ended, ?_, ⟨h, t, e, hends, herr, ?_⟩, ⟨_, rfl, ?_⟩, le_refl _⟩
    · rintro since hsince
      obtain rfl := Option.mem_some_iff.mp hsince
      exact hle
    · exact Int.add_le_add_right (hinv.ended h t e hends) _
    · exact Int.add_le_add_right hle _
  | woken hpc hcancelled =>
    -- the sleep ends five seconds from now, and the token was cancelled before
    rw [hpc] at hseen
    refine ⟨hinv.ended, hinv.cancelled, hseen.1, fun deadline hd => ?_⟩
    obtain rfl := Option.mem_some_iff.mp hd
    exact ⟨_, hcancelled, Int.add_le_add_right (hinv.cancelled _ hcancelled) _⟩
  | forced hpc hle hno hleft =>
    rw [hpc] at hseen
    have hclean := hseen.2 _ rfl
    have hsome : s.cancelled.isSome = true := by
      obtain ⟨since, hsince, -⟩ := hclean
      rw [hsince, Option.isSome_some]
    exact ⟨hinv.ended, hinv.cancelled, ⟨hno, hleft⟩, hseen.1 hsome, hclean.mono hle⟩
  | crashed hpc hle =>
    rw [hpc] at hseen
    exact ⟨hinv.ended, hinv.cancelled, hseen.1.mono hle, hseen.2.1.mono hle⟩

theorem Inv.step {s s' : MainTask} {a : MainAction} (hinv : s.Inv) (h : s.step a = some s') :
    s'.Inv := by
  obtain ⟨hrunning, h⟩ := step_moves h
  have hpc : ∀ how, s.pc ≠ .exited how := by
    intro how hpc
    simp [isExited, hpc] at hrunning
  cases h with
  | elapse ms =>
    have hnow : s.now ≤ s.now + ms := by omega
    exact ⟨fun h t e he => (hinv.ended h t e he).trans hnow,
      fun t ht => (hinv.cancelled t ht).trans hnow,
      hinv.seen.mono hpc hnow (fun _ _ _ he => he) (fun _ ht => ht) (.inr ⟨rfl, rfl⟩)⟩
  | signal =>
    refine ⟨hinv.ended, ?_, hinv.seen.mono hpc (le_refl _) (fun _ _ _ he => he) ?_ (.inl rfl)⟩
    · intro t ht
      obtain rfl := Option.mem_some_iff.mp ht
      cases hcancelled : s.cancelled with
      | none => exact le_refl _
      | some since => exact hinv.cancelled since hcancelled
    · intro t ht
      simp [cancel, Option.mem_def.mp ht]
  | finish h' e' hnone =>
    -- the ends that were there are kept: a task ends once
    have hkeeps : ∀ h t e, s.ends h = some (t, e) →
        Function.update s.ends h' (some (s.now, e')) h = some (t, e) := by
      intro h t e he
      rw [Function.update_of_ne, he]
      rintro rfl
      rw [hnone] at he
      cases he
    refine ⟨?_, hinv.cancelled,
      hinv.seen.mono hpc (le_refl _) hkeeps (fun _ ht => ht) (.inr ⟨rfl, rfl⟩)⟩
    intro h t e he
    rcases Ends.update_eq_some he with heq | he
    · obtain ⟨rfl, rfl⟩ := Prod.mk.inj heq
      exact le_refl _
    · exact hinv.ended h t e he
  | poll skip h => exact hinv.polls h

/-! ## §4 When it is gone -/

/-- When the tasks that have failed ended. -/
def failures (s : MainTask) : List ℤ :=
  Handle.all.filterMap fun h => (s.ends h).bind fun e => e.2.error.map fun _ => e.1

/-- When the last of all tasks ended. -/
def lastEnd (s : MainTask) : Option ℤ :=
  if Handle.all.all fun h => (s.ends h).isSome then
    (Handle.all.filterMap fun h => (s.ends h).map Prod.fst).max?
  else none

/-- Since when, or from when, there is something for the main task to see. -/
def due (s : MainTask) : List ℤ :=
  match s.pc with
  -- the second arm waits for the end of its sleep, and before that for the token
  | .selecting sleep => s.failures ++ s.lastEnd.toList ++ (sleep.or s.cancelled).toList
  | .cleaning _ deadline => [deadline]
  | .exited _ => []

/-- The main task is polled no later than `δ` after there is something to see. -/
def Prompt (δ : ℕ) (s : MainTask) : MainAction → Prop
  | .elapse ms => ∀ t ∈ s.due, s.now + ms ≤ t + δ
  | _ => True

instance (δ : ℕ) (s : MainTask) : DecidablePred (Prompt δ s)
  | .elapse ms => inferInstanceAs (Decidable (∀ t ∈ s.due, s.now + ms ≤ t + δ))
  | .signal => inferInstanceAs (Decidable True)
  | .finish .. => inferInstanceAs (Decidable True)
  | .poll _ => inferInstanceAs (Decidable True)

theorem mem_failures {s : MainTask} {t : ℤ} :
    t ∈ s.failures ↔ ∃ h e err, s.ends h = some (t, e) ∧ e.error = some err := by
  simp only [failures, List.mem_filterMap, Option.bind_eq_some_iff, Option.map_eq_some_iff]
  constructor
  · rintro ⟨h, -, ⟨t, e⟩, he, err, herr, rfl⟩
    exact ⟨h, e, err, he, herr⟩
  · rintro ⟨h, e, err, he, herr⟩
    exact ⟨h, h.mem_all, (t, e), he, err, herr, rfl⟩

theorem lastEnd_eq_some {s : MainTask} {t : ℤ} :
    s.lastEnd = some t ↔
      (∃ h e, s.ends h = some (t, e)) ∧ ∀ h, ∃ t' e, s.ends h = some (t', e) ∧ t' ≤ t := by
  have hmem : ∀ t, t ∈ (Handle.all.filterMap fun h => (s.ends h).map Prod.fst) ↔
      ∃ h e, s.ends h = some (t, e) := by
    intro t
    simp only [List.mem_filterMap, Option.map_eq_some_iff]
    constructor
    · rintro ⟨h, -, ⟨t, e⟩, he, rfl⟩
      exact ⟨h, e, he⟩
    · rintro ⟨h, e, he⟩
      exact ⟨h, h.mem_all, (t, e), he, rfl⟩
  -- the greatest time, with every handle ended
  rw [lastEnd, Option.ite_none_right_eq_some, List.max?_eq_some_iff, hmem]
  simp only [hmem, List.all_eq_true, Handle.mem_all, forall_const, Option.isSome_iff_exists,
    Prod.exists]
  constructor
  · rintro ⟨hall, hlast, hle⟩
    refine ⟨hlast, fun h => ?_⟩
    obtain ⟨t', e, he⟩ := hall h
    exact ⟨t', e, he, hle t' ⟨h, e, he⟩⟩
  · rintro ⟨hlast, hall⟩
    refine ⟨fun h => ?_, hlast, ?_⟩
    · obtain ⟨t', e, he, -⟩ := hall h
      exact ⟨t', e, he⟩
    · rintro t' ⟨h, e, he⟩
      obtain ⟨t'', e', he', hle⟩ := hall h
      rw [he] at he'
      cases he'
      exact hle

theorem failures_eq_nil {s : MainTask} (h : s.ends.NoError) : s.failures = [] := by
  apply List.eq_nil_iff_forall_not_mem.mpr
  intro t ht
  obtain ⟨h', e, err, he, herr⟩ := mem_failures.mp ht
  rw [h h' t e he] at herr
  cases herr

theorem lastEnd_eq_none {s : MainTask} {h : Handle} (hnone : s.ends h = none) :
    s.lastEnd = none := by
  apply Option.eq_none_iff_forall_ne_some.mpr
  intro t ht
  obtain ⟨t', e, he, -⟩ := (lastEnd_eq_some.mp ht).2 h
  rw [hnone] at he
  cases he

/-- **A poll sees what there is to see**: what is due after it is later. -/
theorem lt_of_mem_due_poll {s : MainTask} {skip : ℕ} {t : ℤ} (h : t ∈ (s.poll skip).due) :
    s.now < t := by
  have hcleanup : s.now < s.now + cleanupMs := Int.lt_add_of_pos_right _ cleanupMs_pos
  unfold poll at h
  cases hpc : s.pc with
  | selecting sleep =>
    simp only [hpc] at h
    obtain ⟨err, hjoin, -⟩ | ⟨hno, ⟨hjoin, -⟩ | ⟨hjoin, h', hnone⟩⟩ := tryJoin_cases skip s.ends
    · simp only [hjoin, due, List.mem_singleton] at h
      rwa [h]
    · simp [hjoin, due] at h
    · -- no task has failed, and not all have ended: only the second arm is left
      have hdue : ∀ sleep', t ∈ { s with pc := .selecting sleep' }.due →
          t ∈ sleep'.or s.cancelled := by
        intro sleep' ht
        have hfailures : { s with pc := .selecting sleep' }.failures = [] := failures_eq_nil hno
        have hlast : { s with pc := .selecting sleep' }.lastEnd = none := lastEnd_eq_none hnone
        simpa [due, hfailures, hlast] using ht
      have hself : s = { s with pc := .selecting sleep } := by rw [← hpc]
      simp only [hjoin] at h
      cases sleep with
      | none =>
        simp only [pollShutdown] at h
        split at h
        · obtain rfl := Option.mem_some_iff.mp (hdue _ h)
          exact hcleanup
        · next hnone =>
          rw [hself] at h
          have := hdue _ h
          simp [Option.not_isSome_iff_eq_none.mp hnone] at this
      | some deadline =>
        simp only [pollShutdown] at h
        split at h
        · simp [due] at h
        · next hlt =>
          rw [hself] at h
          obtain rfl := Option.mem_some_iff.mp (hdue _ h)
          exact not_le.mp hlt
  | cleaning err deadline =>
    simp only [hpc] at h
    split at h
    · simp [due] at h
    · next hlt =>
      simp only [due, hpc, List.mem_singleton] at h
      rw [h]
      exact not_le.mp hlt
  | exited how =>
    simp only [hpc] at h
    simp [due, hpc] at h

/-- How long the main task may take, if it is polled within `δ`. -/
structure InTime (δ : ℕ) (s : MainTask) : Prop where
  failed : ∀ t ∈ s.failures, s.now ≤ t + cleanupMs + 2 * δ
  cancelled : ∀ t ∈ s.cancelled, s.now ≤ t + 2 * cleanupMs + 3 * δ
  ended : s.ends.NoError → ∀ t ∈ s.lastEnd, s.now ≤ t + δ

/-- How late its deadlines may be. -/
def Bounds (δ : ℕ) (s : MainTask) : MainPc → Prop
  | .selecting sleep => ∀ deadline ∈ sleep, ∀ t ∈ s.cancelled, deadline ≤ t + cleanupMs + δ
  | .cleaning _ deadline =>
      (∀ t ∈ s.failures, deadline ≤ t + cleanupMs + δ) ∧
        ∀ t ∈ s.cancelled, deadline ≤ t + 2 * cleanupMs + 2 * δ
  | .exited _ => s.InTime δ

/-- What every state of a prompt run satisfies. -/
structure Timed (δ : ℕ) (s : MainTask) : Prop where
  onTime : ∀ t ∈ s.due, s.now ≤ t + δ
  bounds : s.Bounds δ s.pc

theorem due_selecting {s : MainTask} {sleep : Option ℤ} (hpc : s.pc = .selecting sleep) :
    s.due = s.failures ++ s.lastEnd.toList ++ (sleep.or s.cancelled).toList := by
  simp [due, hpc]

/-- In the `select!`, the token was not cancelled long ago. -/
theorem Timed.le_of_cancelled {δ : ℕ} {s : MainTask} {sleep : Option ℤ} (h : s.Timed δ)
    (hpc : s.pc = .selecting sleep) {t : ℤ} (ht : t ∈ s.cancelled) :
    s.now ≤ t + cleanupMs + 2 * δ := by
  have hbounds := h.bounds
  rw [hpc] at hbounds
  have hcleanup := cleanupMs_pos
  cases sleep with
  | none =>
    have := h.onTime t (by simp [due_selecting hpc, Option.mem_def.mp ht])
    omega
  | some deadline =>
    have hdeadline := h.onTime deadline (by simp [due_selecting hpc])
    have := hbounds deadline rfl t ht
    omega

theorem Timed.inTime {δ : ℕ} {s : MainTask} (h : s.Timed δ) (hinv : s.Inv) : s.InTime δ := by
  have hcleanup := cleanupMs_pos
  cases hpc : s.pc with
  | selecting sleep =>
    refine ⟨fun t ht => ?_, fun t ht => ?_, fun _ t ht => ?_⟩
    · have := h.onTime t (by simp [due_selecting hpc, ht])
      omega
    · have := h.le_of_cancelled hpc ht
      omega
    · exact h.onTime t (by simp [due_selecting hpc, Option.mem_def.mp ht])
  | cleaning err deadline =>
    have hbounds := h.bounds
    have hseen := hinv.seen
    rw [hpc] at hbounds hseen
    have hnow := h.onTime deadline (by simp [due, hpc])
    refine ⟨fun t ht => ?_, fun t ht => ?_, fun hno => ?_⟩
    · have := hbounds.1 t ht
      omega
    · have := hbounds.2 t ht
      omega
    · -- a task has failed
      obtain ⟨⟨h', t, e, he, herr, -⟩, -⟩ := hseen
      rw [hno h' t e he] at herr
      cases herr
  | exited how =>
    have hbounds := h.bounds
    rwa [hpc] at hbounds

theorem Timed.polls {δ : ℕ} {s s' : MainTask} (htimed : s.Timed δ) (hinv : s.Inv)
    (h : Polls s s') : s'.Timed δ := by
  have hin := htimed.inTime hinv
  -- nothing is due in a process that is gone
  have hexit : ∀ how, Timed δ { s with pc := .exited how } := by
    intro how
    exact ⟨fun t ht => absurd ht List.not_mem_nil, hin.failed, hin.cancelled, hin.ended⟩
  cases h with
  | waits => exact htimed
  | finished => exact hexit _
  | forced => exact hexit _
  | crashed => exact hexit _
  | failed hpc hends herr =>
    refine ⟨fun t ht => ?_, fun t ht => ?_, fun t ht => ?_⟩
    · obtain rfl := List.mem_singleton.mp ht
      have hcleanup := cleanupMs_pos
      show s.now ≤ s.now + cleanupMs + δ
      omega
    · have hfailure : t ∈ s.failures := ht
      have := htimed.onTime t (by simp [due_selecting hpc, hfailure])
      omega
    · -- the token is cancelled now, if it was not before
      obtain rfl := Option.mem_some_iff.mp ht
      cases hcancelled : s.cancelled with
      | none =>
        have hcleanup := cleanupMs_pos
        show s.now + cleanupMs ≤ s.now + 2 * cleanupMs + 2 * δ
        omega
      | some since =>
        have := htimed.le_of_cancelled hpc hcancelled
        show s.now + cleanupMs ≤ since + 2 * cleanupMs + 2 * δ
        omega
  | woken hpc hcancelled =>
    have hdue := due_selecting hpc
    refine ⟨fun t ht => ?_, fun deadline hd t ht => ?_⟩
    · have ht' : t ∈ s.due ∨ t = s.now + cleanupMs := by
        rw [due_selecting rfl, Option.some_or, Option.toList_some, List.mem_append,
          List.mem_singleton] at ht
        exact ht.imp_left fun h => hdue ▸ List.mem_append_left _ h
      rcases ht' with ht | rfl
      · exact htimed.onTime t ht
      · have hcleanup := cleanupMs_pos
        show s.now ≤ s.now + cleanupMs + δ
        omega
    · obtain rfl := Option.mem_some_iff.mp hd
      have ht : t ∈ s.cancelled := ht
      have := htimed.onTime t (by simp [hdue, Option.mem_def.mp ht])
      omega

/-- A token is cancelled before the main task waits for anything else. -/
theorem Inv.cancel {s : MainTask} (hinv : s.Inv) (hrunning : s.isExited = false) :
    s.cancel = s ∨ s.pc = .selecting none ∧ s.cancelled = none := by
  have hseen := hinv.seen
  cases hcancelled : s.cancelled with
  | some since =>
    left
    simp only [MainTask.cancel, hcancelled, Option.getD_some]
    rw [← hcancelled]
  | none =>
    right
    have hnot : ∀ t, ¬ s.HadCleanup t := by
      rintro t ⟨since, hsince, -⟩
      rw [hcancelled] at hsince
      cases hsince
    cases hpc : s.pc with
    | selecting sleep =>
      rw [hpc] at hseen
      cases sleep with
      | none => exact ⟨rfl, rfl⟩
      | some deadline => exact absurd (hseen.2 deadline rfl) (hnot _)
    | cleaning err deadline =>
      rw [hpc] at hseen
      exact absurd hseen.2.1 (hnot _)
    | exited how => simp [isExited, hpc] at hrunning

theorem Timed.finish {δ : ℕ} {s : MainTask} {h : Handle} {e : TaskEnd} (htimed : s.Timed δ)
    (hinv : s.Inv) (hrunning : s.isExited = false) :
    Timed δ { s with ends := Function.update s.ends h (some (s.now, e)) } := by
  have hfailures : ∀ t ∈ failures { s with ends := Function.update s.ends h (some (s.now, e)) },
      t = s.now ∨ t ∈ s.failures := by
    intro t ht
    obtain ⟨h', e', err, he, herr⟩ := mem_failures.mp ht
    exact (Ends.update_eq_some he).imp (fun heq => (Prod.mk.inj heq).1)
      fun he => mem_failures.mpr ⟨h', e', err, he, herr⟩
  have hbounds := htimed.bounds
  refine ⟨fun t ht => ?_, ?_⟩
  · -- what is due now was due before, or is due since now
    cases hpc : s.pc with
    | selecting sleep =>
      have hdue := due_selecting
        (s := { s with ends := Function.update s.ends h (some (s.now, e)) }) hpc
      rw [hdue, List.mem_append, List.mem_append, Option.mem_toList] at ht
      rcases ht with (ht | ht) | ht
      · rcases hfailures t ht with rfl | ht
        · exact Int.le_add_of_nonneg_right (Int.natCast_nonneg δ)
        · exact htimed.onTime t (by simp [due_selecting hpc, ht])
      · -- the last of them ends now or later
        obtain ⟨t', e', he, hle⟩ := (lastEnd_eq_some.mp ht).2 h
        simp only [Function.update_self, Option.some.injEq, Prod.mk.injEq] at he
        show s.now ≤ t + δ
        omega
      · apply htimed.onTime t
        rw [due_selecting hpc]
        exact List.mem_append_right _ ht
    | cleaning err deadline =>
      simp only [due, hpc] at ht
      exact htimed.onTime t (by simpa [due, hpc] using ht)
    | exited how => simp [isExited, hpc] at hrunning
  · show Bounds δ _ s.pc
    cases hpc : s.pc with
    | selecting sleep =>
      rw [hpc] at hbounds
      exact hbounds
    | cleaning err deadline =>
      -- another task that fails in the sleep does not prolong it
      have hseen := hinv.seen
      rw [hpc] at hbounds hseen
      refine ⟨fun t ht => ?_, hbounds.2⟩
      rcases hfailures t ht with rfl | ht
      · have := hseen.2.2
        omega
      · exact hbounds.1 t ht
    | exited how => simp [isExited, hpc] at hrunning

/-- While the process runs, its deadlines are what they are at any time. -/
theorem Bounds.of_same {δ : ℕ} {s s' : MainTask} (h : s.Bounds δ s.pc)
    (hrunning : s.isExited = false) (hpc : s'.pc = s.pc) (hfailures : s'.failures = s.failures)
    (hcancelled : s'.cancelled = s.cancelled) : s'.Bounds δ s'.pc := by
  rw [hpc]
  cases hpc' : s.pc with
  | selecting sleep =>
    rw [hpc'] at h
    simpa only [Bounds, hcancelled] using h
  | cleaning err deadline =>
    rw [hpc'] at h
    simpa only [Bounds, hfailures, hcancelled] using h
  | exited how => simp [isExited, hpc'] at hrunning

theorem Timed.step {δ : ℕ} {s s' : MainTask} {a : MainAction} (htimed : s.Timed δ) (hinv : s.Inv)
    (hprompt : Prompt δ s a) (h : s.step a = some s') : s'.Timed δ := by
  obtain ⟨hrunning, h⟩ := step_moves h
  cases h with
  | elapse ms =>
    exact ⟨hprompt, htimed.bounds.of_same hrunning rfl rfl rfl⟩
  | signal =>
    obtain hsame | ⟨hpc, hnone⟩ := hinv.cancel hrunning
    · rw [hsame]
      exact ⟨htimed.onTime, htimed.bounds.of_same hrunning rfl rfl rfl⟩
    · have hpc' : { s.cancel with signalled := true }.pc = .selecting none := hpc
      refine ⟨fun t ht => ?_, ?_⟩
      · rw [due_selecting hpc'] at ht
        change t ∈ s.failures ++ s.lastEnd.toList ++ (s.cancelled.getD s.now :: []) at ht
        have ht' : t ∈ s.due ∨ t = s.now := by
          simpa [due_selecting hpc, hnone, or_assoc] using ht
        rcases ht' with ht | rfl
        · exact htimed.onTime t ht
        · exact Int.le_add_of_nonneg_right (Int.natCast_nonneg δ)
      · rw [hpc']
        exact fun _ h => by cases h
  | finish h e hnone => exact htimed.finish hinv hrunning
  | poll skip h => exact htimed.polls hinv h

/-! ## §5 Runs -/

theorem inv_run {now : ℤ} {as : List MainAction} {s : MainTask}
    (hrun : run step (start now) as = some s) : s.Inv :=
  run_invariant (fun _ _ _ hinv h => hinv.step h) (inv_start now) hrun

theorem timed_run {δ : ℕ} {now : ℤ} {as : List MainAction} {s : MainTask}
    (hrun : run step (start now) as = some s) (hprompt : Along step (Prompt δ) (start now) as) :
    s.Timed δ := by
  have hstart : (start now).Timed δ :=
    ⟨fun t ht => by simp [due, start, failures, lastEnd, Handle.all] at ht, fun _ h => by cases h⟩
  have hboth : s.Inv ∧ s.Timed δ :=
    run_invariant_along (I := fun s => s.Inv ∧ s.Timed δ)
      (fun _ _ _ hi hp h => ⟨hi.1.step h, hi.2.step hi.1 hp h⟩) ⟨inv_start now, hstart⟩ hprompt hrun
  exact hboth.2

/-- **How the bot exits**: in every run of the main task, with tasks that end whenever and
however they do, an exit has its reason, and unless all tasks have returned they have had five
seconds since the token was cancelled.  If the main task is polled within `δ`, `main` returns
within five seconds and `2 * δ` after a task has failed, ten seconds and `3 * δ` after the token
was cancelled, and `δ` after the last task has returned; and any poll does for that. -/
theorem main_exits {now : ℤ} {as : List MainAction} {s : MainTask}
    (hrun : run step (start now) as = some s) :
    (∀ how, s.pc = .exited how → s.ExitsFor how) ∧
    (∀ δ : ℕ, Along step (Prompt δ) (start now) as → s.InTime δ) ∧
    ∀ skip, ∀ t ∈ (s.poll skip).due, s.now < t := by
  refine ⟨fun how hpc => ?_, fun δ hprompt => ?_, fun skip t ht => lt_of_mem_due_poll ht⟩
  · have hseen := (inv_run hrun).seen
    rwa [hpc] at hseen
  · exact (timed_run hrun hprompt).inTime (inv_run hrun)

/-- A task that fails while the tasks return after a signal. -/
def failsWhileStopping : List MainAction := [
  .elapse 1000, .signal, .poll 3, .elapse 4000, .finish .kalshi (.returned (.ok ())),
  .finish .grpc (.panicked "overflow"), .elapse 10, .poll 1, .elapse 5005, .poll 0]

theorem main_exits_failsWhileStopping : ∃ s, run step (start 0) failsWhileStopping = some s ∧
    s.ExitsFor (.crashed "Task Panicked/Cancelled: overflow") ∧ s.InTime 10 := by
  have hcheck : (run step (start 0) failsWhileStopping).any (fun s =>
      decide (s.pc = .exited (.crashed "Task Panicked/Cancelled: overflow"))) = true := by
    decide +kernel
  obtain ⟨s, hs, hpc⟩ := (Option.any_eq_true _ _).mp hcheck
  have hexit := main_exits hs
  refine ⟨s, hs, hexit.1 _ (of_decide_eq_true hpc), hexit.2.1 10 ?_⟩
  decide +kernel

end MainTask

end Degenerate.Runtime
