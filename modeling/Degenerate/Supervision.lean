import Degenerate.Crossing
import Degenerate.Runtime

/-!
# The Main Task and What It Does Not See

The deployment with bounded channels next to the main task, over one shutdown token.  The main
task waits for tasks that end, and a task that waits for a slot of a channel does not: two tasks
that wait for each other go unnoticed.

## Main Results

- `crossing_unnoticed`
-/

namespace Degenerate

open Degenerate.Lib Degenerate.Grpc Degenerate.Runtime

/-! ## §1 The process -/

structure Supervised where
  deployment : Deployment
  main : MainTask

inductive Supervised.Action where
  | deployment (a : Deployment.Action)
  | main (a : MainAction)

/-- A task that is at a send does not end. -/
def Deployment.mayEnd (d : Deployment) : Handle → Bool
  | .grpc =>
      match d.client.pc with
      | .sending .. | .relaying .. => false
      | _ => true
  | .pickerComms => !d.bot.commsSends
  | .pickerExec => !d.bot.execSends
  | _ => true

/-- The token of the main task is the one that the client sees. -/
def Deployment.withToken (d : Deployment) (cancelled : Bool) : Deployment :=
  { d with client := { d.client with shutdown := d.client.shutdown || cancelled } }

namespace Supervised

/-- The move of the main task needs a task that can end. -/
def permits (d : Deployment) : MainAction → Bool
  | .finish h _ => d.mayEnd h
  | _ => true

/-- The tasks run as long as the process does.  Their clocks are their own. -/
def step (cfg : DeploymentConfig) (s : Supervised) : Action → Option Supervised
  -- the client's token is not cancelled on its own
  | .deployment (.client .cancel) => none
  | .deployment a =>
      if s.main.isExited then none
      else (Deployment.boundedStep cfg s.deployment a).map fun d => { s with deployment := d }
  | .main a =>
      if permits s.deployment a then
        (s.main.step a).map fun m => ⟨s.deployment.withToken m.cancelled.isSome, m⟩
      else none

inductive Moves (cfg : DeploymentConfig) (s : Supervised) : Action → Supervised → Prop
  | deployment {a : Deployment.Action} {d : Deployment}
      (h : Deployment.boundedStep cfg s.deployment a = some d) :
      Moves cfg s (.deployment a) { s with deployment := d }
  | main {a : MainAction} {m : MainTask} (hpermits : permits s.deployment a = true)
      (h : s.main.step a = some m) :
      Moves cfg s (.main a) ⟨s.deployment.withToken m.cancelled.isSome, m⟩

theorem step_moves {cfg : DeploymentConfig} {s s' : Supervised} {a : Action}
    (h : s.step cfg a = some s') : Moves cfg s a s' := by
  unfold step at h
  split at h
  · cases h
  · obtain ⟨-, h⟩ := Option.ite_none_left_eq_some.mp h
    obtain ⟨d, hd, rfl⟩ := Option.map_eq_some_iff.mp h
    exact .deployment hd
  · obtain ⟨hpermits, h⟩ := Option.ite_none_right_eq_some.mp h
    obtain ⟨m, hm, rfl⟩ := Option.map_eq_some_iff.mp h
    exact .main hpermits hm

theorem mainInv_run {cfg : DeploymentConfig} {d : Deployment} {now : ℤ} {as : List Action}
    {s : Supervised} (hrun : run (step cfg) ⟨d, .start now⟩ as = some s) : s.main.Inv := by
  refine run_invariant (I := fun s => s.main.Inv) ?_ (MainTask.inv_start now) hrun
  -- a step of the deployment leaves the main task as it is
  intro s a s' hinv h
  cases step_moves h with
  | deployment => exact hinv
  | main hpermits hm => exact hinv.step hm

end Supervised

/-! ## §2 While two tasks wait for each other -/

theorem Deployment.Crossed.withToken {d : Deployment} (hd : d.Crossed) (cancelled : Bool) :
    (d.withToken cancelled).Crossed :=
  ⟨hd.comms, hd.outbound, hd.client, hd.inbound⟩

/-- The two tasks that wait for each other, and neither has ended. -/
structure Supervised.Hung (s : Supervised) : Prop where
  crossed : s.deployment.Crossed
  grpc : s.main.ends .grpc = none
  pickerComms : s.main.ends .pickerComms = none

namespace Supervised

/-- They are not among the tasks that can end. -/
theorem Hung.ends {s : Supervised} {a : MainAction} {m : MainTask} (hs : s.Hung)
    (hpermits : permits s.deployment a = true) (hstep : s.main.step a = some m) :
    m.ends .grpc = none ∧ m.ends .pickerComms = none := by
  obtain ⟨-, hmoves⟩ := MainTask.step_moves hstep
  cases hmoves with
  | elapse => exact ⟨hs.grpc, hs.pickerComms⟩
  | signal => exact ⟨hs.grpc, hs.pickerComms⟩
  | poll skip hpolls => exact ⟨hpolls.ends ▸ hs.grpc, hpolls.ends ▸ hs.pickerComms⟩
  | finish task e hnone =>
    -- the task that ends is neither of the two, for both are at a send
    have hmay : s.deployment.mayEnd task = true := hpermits
    have hgrpc : task ≠ .grpc := by
      rintro rfl
      obtain ⟨t, session, ebo, hpc⟩ := hs.crossed.client
      simp [Deployment.mayEnd, hpc] at hmay
    have hcomms : task ≠ .pickerComms := by
      rintro rfl
      simp [Deployment.mayEnd, hs.crossed.comms] at hmay
    constructor
    · exact (Function.update_of_ne hgrpc.symm _ _).trans hs.grpc
    · exact (Function.update_of_ne hcomms.symm _ _).trans hs.pickerComms

theorem Hung.step {cfg : DeploymentConfig} {s s' : Supervised} {a : Action} (hs : s.Hung)
    (h : s.step cfg a = some s') : s'.Hung := by
  cases step_moves h with
  | deployment hd => exact ⟨(hs.crossed.frozen_step hd).crossed hs.crossed, hs.grpc, hs.pickerComms⟩
  | main hpermits hm =>
    obtain ⟨hgrpc, hcomms⟩ := hs.ends hpermits hm
    exact ⟨hs.crossed.withToken _, hgrpc, hcomms⟩

/-- **Two tasks that wait for each other go unnoticed**: once they do, in any run of the process,
they do so for ever, and the process exits only after a signal, cut off, or after the failure of
one of the other four tasks. -/
theorem crossing_unnoticed {cfg : DeploymentConfig} {d : Deployment} {now : ℤ}
    {as bs : List Action} {s s' : Supervised}
    (hrun : run (step cfg) ⟨d, .start now⟩ as = some s) (hs : s.Hung)
    (hrun' : run (step cfg) s bs = some s') :
    s'.Hung ∧ ∀ how, s'.main.pc = .exited how →
      how = .forced ∧ s'.main.signalled = true ∨
      ∃ err h t e, how = .crashed err ∧ s'.main.ends h = some (t, e) ∧ e.error = some err ∧
        h ≠ .grpc ∧ h ≠ .pickerComms := by
  have hhung : s'.Hung := run_invariant (fun _ _ _ hs h => hs.step h) hs hrun'
  have hinv : s'.main.Inv := mainInv_run (run_append.mpr ⟨s, hrun, hrun'⟩)
  refine ⟨hhung, fun how hpc => ?_⟩
  have hseen := hinv.seen
  rw [hpc] at hseen
  cases how with
  | finished =>
    -- `try_join!` waits for all six
    obtain ⟨t, he⟩ := hseen .grpc
    rw [hhung.grpc] at he
    cases he
  | forced => exact .inl ⟨rfl, hseen.2.1⟩
  | crashed err =>
    obtain ⟨⟨h, t, e, he, herr, -⟩, -⟩ := hseen
    refine .inr ⟨err, h, t, e, rfl, he, herr, ?_, ?_⟩
    · rintro rfl
      rw [hhung.grpc] at he
      cases he
    · rintro rfl
      rw [hhung.pickerComms] at he
      cases he

/-- A signal to a process in which two tasks wait for each other. -/
def cutOff : List Action := [
  .main (.elapse 60000), .main .signal, .main (.poll 0), .main (.elapse 5000), .main (.poll 1)]

theorem crossing_unnoticed_cutOff : ∃ s,
    run (step ⟨Picker.sampleConfig, some⟩) ⟨Deployment.crossedDeployment, .start 0⟩ cutOff =
      some s ∧ s.Hung ∧ s.main.pc = .exited .forced := by
  have hstart : Hung ⟨Deployment.crossedDeployment, .start 0⟩ :=
    ⟨Deployment.crossed_crossedDeployment, rfl, rfl⟩
  have hrun : run (step ⟨Picker.sampleConfig, some⟩) ⟨Deployment.crossedDeployment, .start 0⟩ [] =
      some ⟨Deployment.crossedDeployment, .start 0⟩ := rfl
  have hrun' : run (step ⟨Picker.sampleConfig, some⟩) ⟨Deployment.crossedDeployment, .start 0⟩
      cutOff = some ⟨Deployment.crossedDeployment.withToken true, {
        now := 65000, ends := fun _ => none, cancelled := some 60000, signalled := true
        pc := .exited .forced }⟩ := rfl
  exact ⟨_, hrun', (crossing_unnoticed hrun hstart hrun').1, rfl⟩

end Supervised

end Degenerate
