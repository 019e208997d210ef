import Degenerate.Deployment
import Degenerate.Lib.Lessening
import Degenerate.Picker.Resolution
import Mathlib.Tactic.Abel

/-!
# Channels That Fill

The tasks of the bot and its gRPC client talk over two channels of 1024 slots, one in each
direction.  A task that finds its channel full waits for a slot, and takes nothing from its
own channels meanwhile.

## Layout

- §1 the deployment with bounded channels
- §2 the work of the bot, and its steps, which lessen it
- §3 the bot at rest

## Main Results

- `bot_comes_to_rest`: no order of the bot's steps goes on for ever; where they end, nothing is
  left to do, or the comms task and the client wait for each other
-/

namespace Degenerate

open Degenerate.Lib Degenerate.Platforms Degenerate.Picker Degenerate.Grpc Degenerate.Web

/-! ## §1 Bounded channels -/

/-- `mpsc::channel(1_024)`, for the messages to the server and for those of the server. -/
def channelSlots : ℕ := 1024

/-- The comms task is at a send to the client. -/
def Picker.System.commsSends (p : System) : Bool :=
  match p.comms.pc, p.comms.todo with
  | .next, .send _ :: _ => true
  | _, _ => false

/-- The executor is at a send to the client. -/
def Picker.System.execSends (p : System) : Bool :=
  match p.exec.pc with
  | .handling _ (.send _ :: _) => true
  | _ => false

namespace Deployment

/-- The slots of the channel to the client that are taken. -/
def queued (d : Deployment) : ℕ := d.bot.outbox.length + d.client.botOutboundRx.length

/-- The step waits for no slot. -/
def fits (d : Deployment) : Action → Bool
  | .bot (.comms _) => !d.bot.commsSends || d.queued < channelSlots
  | .bot .execEffect => !d.bot.execSends || d.queued < channelSlots
  | .client (.relay true) => d.client.botInbound.length < channelSlots
  -- the tasks hold their ends of the channels as long as they run
  | .client (.relay false) | .client .closeOutbound => false
  | _ => true

/-- One step of the deployment with bounded channels. -/
def boundedStep (cfg : DeploymentConfig) (d : Deployment) (a : Action) : Option Deployment :=
  if d.fits a then d.step cfg a else none

theorem boundedStep_eq_some {cfg : DeploymentConfig} {d d' : Deployment} {a : Action} :
    boundedStep cfg d a = some d' ↔ d.fits a = true ∧ d.step cfg a = some d' :=
  Option.ite_none_right_eq_some

end Deployment

/-- The step is the client's own, or carries a message on; the server can be reached. -/
def Grpc.Action.ofClient {μ ν : Type} : Grpc.Action μ ν → Bool
  | .attempt | .connected true | .opened true | .shutdown | .recv | .send | .message | .relay _
  | .retry | .request | .transmit | .deliver => true
  | _ => false

/-- The step is one of the bot's tasks: nothing arrives in it from a venue or from the server,
    and the clock stands. -/
def Deployment.Action.ofBot : Deployment.Action → Bool
  | .bot (.receive _) | .bot (.subscribedResponse ..) | .bot (.tick _) => false
  | .bot _ | .receive | .forward => true
  | .client a => a.ofClient
  | _ => false

/-! ## §2 The work of the bot

Each piece of work has a rank above those of the pieces that it brings up. -/

namespace Picker

/-- A step of `evaluate_arb`: only its send brings up work elsewhere. -/
def EvalPc.rank : EvalPc → ℕ
  | .insertInFlight _ => 15
  | .trySend _ => 16
  | .checkPrices _ => 17
  | .removeCooldown _ => 18
  | .readCooldown _ => 19

/-- An operation of the comms task. -/
def CommsOp.rank : CommsOp → ℕ
  | .send _ | .unregisterArb _ | .updateCloseTime .. => 15
  | .marketResolved _ | .marketLifecycle _ | .resolveDiscovered _ => 16
  | .evaluateArb _ => 20
  | .onPriceUpdate .. => 21
  | .seedTobFromHttp _ => 22
  | .findArb .. => 32

/-- A subscription call: the steps that are left of it. -/
def AddCall.rank : AddCall → ℕ
  | .kalshi (.check _) | .polymarket (.check _) => 3
  | .kalshi (.readSid _) => 2
  | .kalshi (.send ..) | .polymarket (.send _) => 1
  | .kalshi (.insert _) | .polymarket (.insert _) => 0

/-- Where the comms task is. -/
def CommsPc.work : CommsPc → Multiset ℕ
  | .next => 0
  | .evaluating e => {e.rank}
  | .finding f => {24 + 4 * f.left.length + f.call.rank}
  | .registering _ => {23}

/-- A background task. -/
def DelTask.rank : DelTask → ℕ
  | .kalshi (.remove _) | .polymarket (.filter _) => 14
  | .kalshi (.readSids _) | .polymarket (.send _) => 13
  | .kalshi (.sendTicker ..) | .polymarket (.remove _) => 12
  | .kalshi (.sendOrderbook ..) => 11

/-- Where the executor is. -/
def ExecPc.work : ExecPc → Multiset ℕ
  | .idle => 0
  | .refreshing => {11}
  | .handling _ effects => 12 ::ₘ Multiset.replicate effects.length 11

namespace System

/-- The work that is not the program counter of the comms task. -/
def otherWork (p : System) : Multiset ℕ :=
  (p.comms.todo.map CommsOp.rank : Multiset ℕ) +
    (Multiset.replicate p.executionRx.length 13 + p.exec.pc.work +
      (p.spawned.map DelTask.rank : Multiset ℕ) + Multiset.replicate p.outbox.length 4)

/-- The work of the tasks. -/
def work (p : System) : Multiset ℕ := p.comms.pc.work + p.otherWork

end System

end Picker

namespace Grpc

/-- What a session still carries; its end is work of its own once it is broken. -/
def Session.work {μ ν : Type} (s : Session μ ν) : Multiset ℕ :=
  Multiset.replicate s.incoming.length 35 + Multiset.replicate s.network.length 1 +
    Multiset.replicate s.outgoing.length 0 + if s.up then 0 else {10}

/-- Where the client is. -/
def ClientPc.work {μ ν : Type} : ClientPc μ ν → Multiset ℕ
  | .stopped _ => 0
  | .retrying _ => {9}
  | .top => {8}
  | .connecting _ => {7}
  | .opening _ => {6}
  | .selecting _ s => 5 ::ₘ s.work
  | .sending _ s _ => 2 ::ₘ 5 ::ₘ s.work
  | .relaying _ s _ => 34 ::ₘ 5 ::ₘ s.work

/-- The work of the client. -/
def GrpcClient.work {μ ν : Type} (c : GrpcClient μ ν) : Multiset ℕ :=
  c.pc.work + (Multiset.replicate c.botOutboundRx.length 3 +
    Multiset.replicate c.botInbound.length 33 + if c.recovery.isSome then {2} else 0)

end Grpc

/-- The work of the bot, its client included. -/
def Deployment.work (d : Deployment) : Multiset ℕ := d.bot.work + d.client.work

namespace Picker.System

/-! ### The comms task -/

@[simp] theorem work_goto (p : System) (pc : CommsPc) :
    (p.goto pc).work = pc.work + p.otherWork := rfl

@[simp] theorem work_push (p : System) (ops : List CommsOp) :
    (p.push ops).work = (ops.map CommsOp.rank : Multiset ℕ) + p.work := by
  have happend : ((ops ++ p.comms.todo).map CommsOp.rank : Multiset ℕ) =
      (ops.map CommsOp.rank : Multiset ℕ) + (p.comms.todo.map CommsOp.rank : Multiset ℕ) := by
    rw [List.map_append]
    rfl
  show p.comms.pc.work + (((ops ++ p.comms.todo).map CommsOp.rank : Multiset ℕ) + _) =
    _ + (p.comms.pc.work + ((p.comms.todo.map CommsOp.rank : Multiset ℕ) + _))
  rw [happend]
  abel

/-- The program counter moves to a lower one, and brings up lower work elsewhere. -/
theorem lessens_goto {p q : System} {pc : CommsPc} {rank : ℕ} (brought : Multiset ℕ)
    (hp : p.comms.pc.work = {rank}) (hpc : ∀ r ∈ pc.work, r < rank) (hlt : ∀ r ∈ brought, r < rank)
    (hq : q.otherWork = p.otherWork + brought) : Lessens (q.goto pc).work p.work := by
  refine ⟨rank, 0, pc.work + brought, ?_, ?_⟩
  · intro r hr
    rcases Multiset.mem_add.mp hr with hr | hr
    · exact hpc r hr
    · exact hlt r hr
  · rw [work_goto, hq, work, hp, Multiset.cons_zero]
    abel

/-- A step of `evaluate_arb` lessens the work. -/
theorem evalStep_lessens (cfg : Config) (c : Choice) (p : System) (e : EvalPc)
    (hpc : p.comms.pc = .evaluating e) : Lessens (evalStep cfg c p e).work p.work := by
  have hp : p.comms.pc.work = {e.rank} := by rw [hpc, CommsPc.work]
  have hgoto : ∀ q pc, (∀ r ∈ CommsPc.work pc, r < e.rank) → otherWork q = p.otherWork →
      Lessens (q.goto pc).work p.work := by
    intro q pc hlt hq
    exact lessens_goto 0 hp hlt (by simp) (by rw [hq, add_zero])
  cases e with
  | readCooldown cid =>
    simp only [evalStep]
    split
    · exact hgoto p _ (by simp [CommsPc.work, EvalPc.rank]) rfl
    · split
      · exact hgoto p _ (by simp [CommsPc.work]) rfl
      · exact hgoto p _ (by simp [CommsPc.work, EvalPc.rank]) rfl
  | removeCooldown cid => exact hgoto _ _ (by simp [CommsPc.work, EvalPc.rank]) rfl
  | checkPrices cid =>
    simp only [evalStep]
    split
    · exact hgoto p _ (by simp [CommsPc.work]) rfl
    · split
      · exact hgoto p _ (by simp [CommsPc.work]) rfl
      · exact hgoto p _ (by simp [CommsPc.work, EvalPc.rank]) rfl
  | trySend req =>
    simp only [evalStep]
    split
    · -- a request is queued
      apply lessens_goto {13} hp (by simp [CommsPc.work, EvalPc.rank]) (by simp [EvalPc.rank])
      simp only [otherWork, List.length_append, List.length_singleton, Multiset.replicate_add,
        Multiset.replicate_one]
      abel
    · exact hgoto p _ (by simp [CommsPc.work]) rfl
  | insertInFlight cid => exact hgoto _ _ (by simp [CommsPc.work]) rfl

/-- A subscription call goes on to a lower step. -/
theorem addStep_rank {p : System} {ok : Bool} {call next : AddCall}
    (h : (p.addStep ok call).2 = .more next) : next.rank < call.rank := by
  -- check, then the sid on Kalshi, then the send, then the insert: a call does not go back
  cases call with
  | kalshi call =>
    obtain ⟨next, hnext, rfl⟩ := Progress.map_eq_more.mp h
    cases call with
    | check t =>
      simp only [KalshiClient.addStep] at hnext
      split at hnext <;> cases hnext
      exact of_decide_eq_true rfl
    | readSid t =>
      cases hnext
      exact of_decide_eq_true rfl
    | send t cmd =>
      simp only [KalshiClient.addStep] at hnext
      split at hnext <;> cases hnext
      exact of_decide_eq_true rfl
    | insert t => cases hnext
  | polymarket call =>
    obtain ⟨next, hnext, rfl⟩ := Progress.map_eq_more.mp h
    cases call with
    | check t =>
      simp only [PolymarketClient.addStep] at hnext
      split at hnext <;> cases hnext
      exact of_decide_eq_true rfl
    | send t =>
      simp only [PolymarketClient.addStep] at hnext
      split at hnext <;> cases hnext
      exact of_decide_eq_true rfl
    | insert t => cases hnext

theorem rank_start_le (entry : Entry) : (AddCall.start entry).rank ≤ 3 := by
  obtain ⟨platform, token⟩ := entry
  cases platform <;> exact of_decide_eq_true rfl

/-- The loop of `find_arb` goes on to the next entry, or ends. -/
theorem work_advance_lt (f : FindArb) (ok : Bool) :
    ∀ r ∈ (f.advance ok).work, r < 24 + 4 * f.left.length + f.call.rank := by
  -- the entry that is done pays for the whole call of the next one
  unfold FindArb.advance
  generalize f.subscribedCount + (if ok then 1 else 0) = count
  cases hleft : f.left with
  | cons entry left =>
    have hstart := rank_start_le entry
    intro r hr
    simp only [CommsPc.work, Multiset.mem_singleton, List.length_cons] at hr ⊢
    omega
  | nil =>
    show ∀ r ∈ (if count < 2 then CommsPc.next else _).work, _
    split
    · simp [CommsPc.work]
    · split
      · simp [CommsPc.work]
      · intro r hr
        simp only [CommsPc.work, Multiset.mem_singleton] at hr
        omega

/-- A step of `find_arb` lessens the work. -/
theorem findStep_lessens (c : Choice) (p : System) (f : FindArb)
    (hpc : p.comms.pc = .finding f) : Lessens (findStep c p f).work p.work := by
  have hp : p.comms.pc.work = {24 + 4 * f.left.length + f.call.rank} := by rw [hpc, CommsPc.work]
  have hother : (p.addStep c.sendOk f.call).1.otherWork = p.otherWork := by
    cases f.call <;> rfl
  have hpc' : ∀ r ∈ (f.resume (p.addStep c.sendOk f.call).2).work,
      r < 24 + 4 * f.left.length + f.call.rank := by
    cases hprogress : (p.addStep c.sendOk f.call).2 with
    | more next =>
      have hlt := addStep_rank hprogress
      intro r hr
      simp only [FindArb.resume, CommsPc.work, Multiset.mem_singleton] at hr
      omega
    | done ok => exact work_advance_lt f ok
  exact lessens_goto 0 hp hpc' (by simp) (by rw [hother, add_zero])

/-- The withdrawal of a pair spawns its unsubscriptions. -/
theorem work_unregisterArb (p : System) (cid : CorrelationId) :
    ∃ tasks : List DelTask, (p.unregisterArb cid).work =
      p.work + (tasks.map DelTask.rank : Multiset ℕ) ∧ ∀ r ∈ tasks.map DelTask.rank, r = 14 := by
  refine ⟨(p.book.unregisterArb cid).2.map DelTask.start, ?_, ?_⟩
  · simp only [work, otherWork, unregisterArb, List.map_append, ← Multiset.coe_add]
    abel
  · intro r hr
    obtain ⟨task, htask, rfl⟩ := List.mem_map.mp hr
    obtain ⟨leg, -, rfl⟩ := List.mem_map.mp htask
    unfold DelTask.start
    split <;> rfl

/-- An operation is replaced by lower ones, and may bring up lower work elsewhere. -/
theorem opStep_lessens {cfg : Config} {c : Choice} {p q : System} {op : CommsOp}
    (hpc : p.comms.pc = .next) (h : opStep cfg c p op = some q) :
    Lessens q.work ({op.rank} + p.work) := by
  -- what is brought up beside the work that was there
  have hbrings : ∀ brought : Multiset ℕ, (∀ r ∈ brought, r < op.rank) →
      q.work = brought + p.work → Lessens q.work ({op.rank} + p.work) := by
    intro brought hlt hq
    refine ⟨op.rank, 0, brought, hlt, ?_⟩
    rw [hq, Multiset.cons_zero]
    abel
  -- the other uses of it: the task goes to another point, has operations to do, or has done one
  have hgoto : ∀ pc : CommsPc, (∀ r ∈ pc.work, r < op.rank) → q = p.goto pc →
      Lessens q.work ({op.rank} + p.work) := by
    intro pc hlt hq
    apply hbrings pc.work hlt
    rw [hq, work_goto, work, hpc, CommsPc.work, zero_add]
  have hpush : ∀ ops : List CommsOp, (∀ op' ∈ ops, op'.rank < op.rank) → q = p.push ops →
      Lessens q.work ({op.rank} + p.work) := by
    intro ops hlt hq
    apply hbrings (ops.map CommsOp.rank : Multiset ℕ)
    · intro r hr
      obtain ⟨op', hop', rfl⟩ := List.mem_map.mp hr
      exact hlt op' hop'
    · rw [hq, work_push]
  have hsame : q.work = p.work → Lessens q.work ({op.rank} + p.work) := by
    intro hq
    exact hbrings 0 (by simp) (by rw [hq, zero_add])
  -- what an operation brings up ranks below it: prices before evaluations, lookups before sends
  cases op with
  | onPriceUpdate key tob =>
    simp only [opStep] at h
    split at h
    · split at h
      · cases h
        apply hbrings (c.order.map fun cid => (CommsOp.evaluateArb cid).rank : List ℕ)
        · intro r hr
          obtain ⟨cid, -, rfl⟩ := List.mem_map.mp hr
          exact of_decide_eq_true rfl
        · rw [work_push, List.map_map]
          rfl
      · cases h
    · cases h
      exact hsame rfl
  | evaluateArb cid =>
    simp only [opStep] at h
    split at h
    · cases h
      exact hsame rfl
    · cases h
      exact hgoto _ (by simp [CommsPc.work, EvalPc.rank, CommsOp.rank]) rfl
  | marketResolved assetId =>
    simp only [opStep] at h
    split at h
    · cases h
      refine hpush _ (fun op' hop' => ?_) rfl
      obtain ⟨cid, -, rfl⟩ := List.mem_map.mp hop'
      exact of_decide_eq_true rfl
    · cases h
  | marketLifecycle event =>
    simp only [opStep] at h
    split at h
    · cases h
      refine hpush _ (fun op' hop' => ?_) rfl
      obtain ⟨cid, -, hop'⟩ := List.mem_flatMap.mp hop'
      rcases mem_lifecycleOps hop' with ⟨-, rfl⟩ | rfl <;> exact of_decide_eq_true rfl
    · cases h
  | updateCloseTime key cid closeTs =>
    cases h
    exact hsame rfl
  -- what the pair was the last one to watch is deleted at the venues, by tasks
  | unregisterArb cid =>
    cases h
    obtain ⟨tasks, hwork, hrank⟩ := work_unregisterArb p cid
    apply hbrings (tasks.map DelTask.rank : Multiset ℕ)
    · intro r hr
      rw [hrank r hr]
      exact of_decide_eq_true rfl
    · rw [hwork, add_comm]
  | findArb arb cid =>
    simp only [opStep, findArb, Option.some.injEq] at h
    split at h
    · split at h
      · -- a pair about to close: two operations take the place of this one
        subst h
        refine hpush _ (fun op' hop' => ?_) rfl
        rcases List.mem_pair.mp hop' with rfl | rfl <;> exact of_decide_eq_true rfl
      -- the loop over both entries begins; it ranks below the operation that starts it
      · rename_i anchorPlatform _ anchorToken _ _ _ _ _ _
        subst h
        have hstart := rank_start_le (anchorPlatform, anchorToken)
        refine hgoto _ (fun r hr => ?_) rfl
        simp only [CommsPc.work, Multiset.mem_singleton, List.length_singleton] at hr
        simp only [CommsOp.rank]
        omega
    · subst h
      exact hsame rfl
  | seedTobFromHttp leg =>
    simp only [opStep] at h
    split at h
    · cases h
      exact hsame rfl
    · cases h
      refine hpush _ (fun op' hop' => ?_) rfl
      rw [List.mem_singleton.mp hop']
      exact of_decide_eq_true rfl
  | resolveDiscovered arb =>
    simp only [opStep] at h
    split at h
    · cases h
      exact hsame rfl
    · cases h
      refine hpush _ (fun op' hop' => ?_) rfl
      rw [List.mem_singleton.mp hop']
      exact of_decide_eq_true rfl
  -- the message still has to be forwarded
  | send ebo =>
    cases h
    apply hbrings {4} (by simp [CommsOp.rank])
    simp only [work, otherWork, List.length_append, List.length_singleton, Multiset.replicate_add,
      Multiset.replicate_one]
    abel

/-- A step of the comms task inside a message lessens the work. -/
theorem commsStep_lessens {cfg : Config} {c : Choice} {p q : System}
    (h : commsStep cfg c p = some q) : Lessens q.work p.work := by
  unfold commsStep at h
  split at h
  · rename_i e hpc
    cases h
    exact evalStep_lessens cfg c p e hpc
  · rename_i f hpc
    cases h
    exact findStep_lessens c p f hpc
  · rename_i w hpc
    cases h
    -- the registration is replaced by the two seeds, which rank below it
    refine ⟨23, 0, {22, 22}, by simp, ?_⟩
    show (({ p with book := p.book.registerArb w }.goto .next).push _).work + _ = _
    rw [work_push, work_goto, work, hpc]
    show ({22, 22} : Multiset ℕ) + (0 + p.otherWork) + {23} = {23} + p.otherWork + {22, 22}
    abel
  · rename_i hpc
    split at h
    · cases h
    · rename_i op rest htodo
      have hwork : {op.rank} + (p.pop rest).work = p.work := by
        simp only [work, otherWork, pop, htodo, List.map_cons, ← Multiset.cons_coe,
          ← Multiset.singleton_add]
        abel
      rw [← hwork]
      exact opStep_lessens hpc h

/-! ### The other tasks -/

/-- A background task goes on to a lower step. -/
theorem delStep_rank {p : System} {ok : Bool} {task next : DelTask}
    (h : (p.delStep ok task).2 = .more next) : next.rank < task.rank := by
  -- each stage of a deletion has a smaller rank than the one before it
  cases task with
  | kalshi call =>
    obtain ⟨next, hnext, rfl⟩ := Progress.map_eq_more.mp h
    cases call with
    | remove t =>
      cases hnext
      exact of_decide_eq_true rfl
    | readSids t =>
      simp only [KalshiClient.delStep] at hnext
      split at hnext <;> cases hnext <;> exact of_decide_eq_true rfl
    | sendTicker t tsid osid =>
      cases osid <;> cases hnext
      exact of_decide_eq_true rfl
    | sendOrderbook t osid => cases hnext
  | polymarket call =>
    obtain ⟨next, hnext, rfl⟩ := Progress.map_eq_more.mp h
    cases call with
    | filter ids =>
      simp only [PolymarketClient.delStep] at hnext
      split at hnext <;> cases hnext
      exact of_decide_eq_true rfl
    | send ids =>
      simp only [PolymarketClient.delStep] at hnext
      split at hnext <;> cases hnext
      exact of_decide_eq_true rfl
    | remove ids => cases hnext

/-- A step of a background task lessens the work. -/
theorem taskStep_lessens {p q : System} {i : ℕ} {ok : Bool} (h : p.taskStep i ok = some q) :
    Lessens q.work p.work := by
  unfold taskStep at h
  split at h
  · cases h
  · rename_i task hi
    cases h
    obtain ⟨hlt, rfl⟩ := List.getElem?_eq_some_iff.mp hi
    -- the task among the others
    have hspawned : (p.spawned.map DelTask.rank : Multiset ℕ) =
        p.spawned[i].rank ::ₘ ((p.spawned.eraseIdx i).map DelTask.rank : Multiset ℕ) :=
      Multiset.coe_eq_coe.mpr ((List.getElem_cons_eraseIdx_perm hlt).map _).symm
    have hkept : (p.delStep ok p.spawned[i]).1.spawned = p.spawned ∧
        ∀ spawned, { (p.delStep ok p.spawned[i]).1 with spawned }.work =
          { p with spawned }.work := by
      cases p.spawned[i] <;> exact ⟨rfl, fun _ => rfl⟩
    rw [hkept.1, hkept.2]
    cases hprogress : (p.delStep ok p.spawned[i]).2 with
    | more next =>
      have hset : ((p.spawned.set i next).map DelTask.rank : Multiset ℕ) =
          next.rank ::ₘ ((p.spawned.eraseIdx i).map DelTask.rank : Multiset ℕ) :=
        Multiset.coe_eq_coe.mpr ((List.set_perm_cons_eraseIdx hlt next).map _)
      refine ⟨p.spawned[i].rank, 0, {next.rank}, by simpa using delStep_rank hprogress, ?_⟩
      simp only [work, otherWork, Progress.advance, hset, hspawned, ← Multiset.singleton_add,
        add_zero]
      abel
    | done ok' =>
      refine ⟨p.spawned[i].rank, 0, 0, by simp, ?_⟩
      simp only [work, otherWork, Progress.advance, hspawned, ← Multiset.singleton_add, add_zero]
      abel

/-- **The bot's own steps lessen its work**. -/
theorem step_lessens {cfg : Config} {p q : System} {a : Picker.Action}
    (hown : (Deployment.Action.bot a).ofBot = true) (h : step cfg p a = some q) :
    Lessens q.work p.work := by
  cases a with
  | receive msg => cases hown
  | comms c => exact commsStep_lessens h
  | execReceive ans =>
    simp only [step] at h
    split at h
    · cases h
    · rename_i req rest hrx
      obtain ⟨x, hx, rfl⟩ := Option.map_eq_some_iff.mp h
      obtain ⟨hpc, rfl⟩ := Executor.step_receive hx
      -- a request of rank 13 becomes its effects, and the end of its handling
      refine ⟨13, 0, ExecPc.work (p.exec.handle cfg req ans), ?_, ?_⟩
      · intro r hr
        have hhandling : r ∈ 12 ::ₘ Multiset.replicate _ 11 := hr
        rcases Multiset.mem_cons.mp hhandling with rfl | heffect
        · exact of_decide_eq_true rfl
        · rw [Multiset.eq_of_mem_replicate heffect]
          exact of_decide_eq_true rfl
      · simp only [work, otherWork, hrx, hpc, List.length_cons, Multiset.replicate_add,
          Multiset.replicate_one, ExecPc.work, Multiset.cons_zero]
        abel
  | execEffect =>
    simp only [step] at h
    split at h
    · rename_i cid e rest hpc
      obtain ⟨x, hx, rfl⟩ := Option.map_eq_some_iff.mp h
      obtain ⟨_, _, _, hpc', rfl⟩ := Executor.step_effect hx
      cases hpc.symm.trans hpc'
      -- only a send brings up work
      have heffect : ∃ sent : ℕ, ∀ exec, { p.applyEffect e with exec }.work =
          { p with exec }.work + Multiset.replicate sent 4 := by
        cases e with
        | send ebo =>
          refine ⟨1, fun exec => ?_⟩
          simp only [work, otherWork, applyEffect, List.length_append, List.length_singleton,
            Multiset.replicate_add]
          abel
        | _ => exact ⟨0, fun exec => (add_zero _).symm⟩
      obtain ⟨sent, hsent⟩ := heffect
      refine ⟨11, 0, Multiset.replicate sent 4, fun r hr => ?_, ?_⟩
      · rw [Multiset.eq_of_mem_replicate hr]
        exact of_decide_eq_true rfl
      · rw [hsent]
        simp only [work, otherWork, hpc, ExecPc.work, List.length_cons, Multiset.replicate_succ,
          ← Multiset.singleton_add, add_zero]
        abel
    · cases h
  -- the handling ends, and a refresh of the balances is due
  | execFinish =>
    obtain ⟨x, hx, rfl⟩ := Option.map_eq_some_iff.mp h
    obtain ⟨cid, hpc, rfl⟩ := Executor.step_finish hx
    refine ⟨12, 0, {11}, by simp, ?_⟩
    simp only [work, otherWork, hpc, ExecPc.work, List.length_nil, Multiset.replicate_zero,
      Multiset.cons_zero]
    abel
  | execRefresh f =>
    obtain ⟨x, hx, rfl⟩ := Option.map_eq_some_iff.mp h
    obtain ⟨hpc, rfl⟩ := Executor.step_refresh hx
    refine ⟨11, 0, 0, by simp, ?_⟩
    simp only [work, otherWork, hpc, ExecPc.work, Multiset.cons_zero]
    abel
  | delTask i ok => exact taskStep_lessens h
  | subscribedResponse channel sid => cases hown
  | tick ms => cases hown

end Picker.System

/-! ### The client -/

namespace Grpc

variable {μ ν : Type}

/-- A client that has not returned has something to do. -/
theorem ClientPc.exists_work {pc : ClientPc μ ν} (h : pc.isStopped = false) :
    ∃ rank rest, pc.work = rank ::ₘ rest := by
  have hmem : ∃ rank, rank ∈ pc.work := by
    cases pc with
    | stopped result => cases h
    | _ => exact ⟨_, by simp only [work]; exact Multiset.mem_cons_self ..⟩
  obtain ⟨rank, hrank⟩ := hmem
  exact ⟨rank, Multiset.exists_cons_of_mem hrank⟩

/-- What changes in a session changes in the work of the client. -/
theorem ClientPc.exists_work_mapSession {pc : ClientPc μ ν} {s : Session μ ν}
    (h : pc.session = some s) :
    ∃ rest, pc.work = rest + s.work ∧ ∀ f, (pc.mapSession f).work = rest + (f s).work := by
  have hpair : ∀ (rank : ℕ) (w : Multiset ℕ), {rank, 5} + w = rank ::ₘ 5 ::ₘ w := fun rank w => by
    rw [Multiset.insert_eq_cons, Multiset.cons_add, Multiset.singleton_add]
  cases pc with
  | selecting t s' =>
    cases h
    exact ⟨{5}, rfl, fun f => rfl⟩
  | sending t s' ebo =>
    cases h
    exact ⟨{2, 5}, (hpair 2 _).symm, fun f => (hpair 2 _).symm⟩
  | relaying t s' ebo =>
    cases h
    exact ⟨{34, 5}, (hpair 34 _).symm, fun f => (hpair 34 _).symm⟩
  | _ => cases h

namespace GrpcClient

/-- The work that is not the program counter. -/
def otherWork (c : GrpcClient μ ν) : Multiset ℕ :=
  Multiset.replicate c.botOutboundRx.length 3 + Multiset.replicate c.botInbound.length 33 +
    if c.recovery.isSome then {2} else 0

theorem work_eq (c : GrpcClient μ ν) : c.work = c.pc.work + c.otherWork := rfl

/-- After a failed session the client sleeps or returns. -/
theorem sessionFailed_work (c : GrpcClient μ ν) (t : ℕ) :
    ∃ left ≤ 1, (c.sessionFailed t).work = Multiset.replicate left 9 + c.otherWork := by
  unfold sessionFailed
  generalize (if stableAfter < c.now - t then 0 else c.retries + 1) = retries
  show ∃ left ≤ 1, (if maxRetries ≤ retries then _ else _ : GrpcClient μ ν).work = _
  split
  · exact ⟨0, by omega, rfl⟩
  · exact ⟨1, by omega, rfl⟩

/-- A broken session is work above that of the next attempt. -/
theorem sessionFailed_lessens {c : GrpcClient μ ν} {t : ℕ} (rest : Multiset ℕ)
    (h : c.pc.work = rest + {10}) : Lessens (c.sessionFailed t).work c.work := by
  obtain ⟨left, -, hwork⟩ := c.sessionFailed_work t
  refine ⟨10, rest, Multiset.replicate left 9, fun r hr => ?_, ?_⟩
  · rw [Multiset.eq_of_mem_replicate hr]
    exact of_decide_eq_true rfl
  · rw [hwork, work_eq, h, ← Multiset.singleton_add]
    abel

/-- **The client's own steps lessen its work**. -/
theorem step_lessens {c c' : GrpcClient μ ν} {a : Grpc.Action μ ν} (hown : a.ofClient = true)
    (hrelay : a ≠ .relay false) (hstep : c.step a = some c') : Lessens c'.work c.work := by
  obtain ⟨hrunning, hmoves⟩ := step_moves hstep
  cases hmoves with
  -- what is not the client's own
  | enqueue => cases hown
  | closeOutbound => cases hown
  | cancel => cases hown
  | tick h => cases hown
  | notConnected h => cases hown
  | notOpened h => cases hown
  | reply hs hup => cases hown
  | breakStream hs hup => cases hown
  | relayFails h => exact absurd rfl hrelay
  -- the head of the loop ranks above the connection, the stream and the session
  | attempt h =>
    refine ⟨8, 0, (if c.shutdown then .stopped (.ok ()) else .connecting c.now : ClientPc μ ν).work,
      ?_, ?_⟩
    · split <;> simp [ClientPc.work]
    · rw [work_eq, work_eq, h]
      show _ + c.otherWork + {8} = {8} + c.otherWork + _
      abel
  | connected h =>
    refine ⟨7, 0, {6}, by simp, ?_⟩
    simp only [work_eq, h, ClientPc.work, otherWork, ← Multiset.singleton_add, add_zero]
    abel
  | opened h =>
    -- a request for the running arbs may be dropped for a new one
    refine ⟨6, if c.firstConnect then if c.recovery.isSome then {2} else 0 else 0,
      5 ::ₘ if c.firstConnect then {2} else 0, ?_, ?_⟩
    · split <;> simp
    · cases hfirst : c.firstConnect <;>
        simp only [work_eq, h, established, ClientPc.work, otherWork, Session.work, hfirst, if_true,
          Bool.false_eq_true, if_false, Option.isSome_some, List.length_nil,
          Multiset.replicate_zero, ← Multiset.singleton_add, add_zero] <;>
        abel
  -- nothing is left of the session, if there was one
  | returns =>
    obtain ⟨rank, rest, hwork⟩ := ClientPc.exists_work hrunning
    refine ⟨rank, rest, 0, by simp, ?_⟩
    rw [work_eq, work_eq, hwork]
    show 0 + c.otherWork + _ = _
    abel
  -- a message is ranked by the hands that it still has to pass through
  | recv h hrx =>
    refine ⟨3, 0, {2}, by simp, ?_⟩
    simp only [work_eq, h, ClientPc.work, otherWork, hrx, List.length_cons, Multiset.replicate_succ,
      ← Multiset.singleton_add, add_zero]
    abel
  | sent h hup =>
    refine ⟨2, 0, {1}, by simp, ?_⟩
    simp only [work_eq, h, ClientPc.work, otherWork, Session.work, List.length_append,
      List.length_singleton, Multiset.replicate_succ, ← Multiset.singleton_add, add_zero]
    abel
  | @sendFails t s ebo h hdown =>
    apply sessionFailed_lessens ({2, 5} + (Multiset.replicate s.incoming.length 35 +
      Multiset.replicate s.network.length 1 + Multiset.replicate s.outgoing.length 0))
    simp only [h, ClientPc.work, Session.work, hdown, Bool.false_eq_true, if_false,
      Multiset.insert_eq_cons, ← Multiset.singleton_add]
    abel
  | message h hin =>
    refine ⟨35, 0, {34}, by simp, ?_⟩
    simp only [work_eq, h, ClientPc.work, otherWork, Session.work, hin, List.length_cons,
      Multiset.replicate_succ, ← Multiset.singleton_add, add_zero]
    abel
  | @streamEnds t s h hdown =>
    apply sessionFailed_lessens ({5} + (Multiset.replicate s.incoming.length 35 +
      Multiset.replicate s.network.length 1 + Multiset.replicate s.outgoing.length 0))
    simp only [h, ClientPc.work, Session.work, hdown, Bool.false_eq_true, if_false,
      ← Multiset.singleton_add]
    abel
  | relayed h =>
    refine ⟨34, 0, {33}, by simp, ?_⟩
    simp only [work_eq, h, ClientPc.work, otherWork, List.length_append, List.length_singleton,
      Multiset.replicate_succ, ← Multiset.singleton_add, add_zero]
    abel
  -- the pause is over, and ranks above the head of the loop
  | retry h =>
    refine ⟨9, 0, {8}, by simp, ?_⟩
    simp only [work_eq, h, ClientPc.work, otherWork, ← Multiset.singleton_add, add_zero]
    abel
  -- the request of the start, which leaves a message or nothing
  | @requested r s h hs =>
    obtain ⟨hsession, -, -⟩ := recoverySession_eq_some hs
    obtain ⟨rest, hwork, hmap⟩ := ClientPc.exists_work_mapSession hsession
    refine ⟨2, 0, {1}, by simp, ?_⟩
    simp only [work_eq, push, otherWork, hmap, hwork, h, Session.work, List.length_append,
      List.length_singleton, Multiset.replicate_succ, Option.isSome_some, Option.isSome_none,
      Bool.false_eq_true, if_true, if_false, ← Multiset.singleton_add, add_zero]
    abel
  | requestFails h hs =>
    refine ⟨2, 0, 0, by simp, ?_⟩
    simp only [work_eq, otherWork, h, Option.isSome_some, Option.isSome_none, Bool.false_eq_true,
      if_true, if_false, ← Multiset.singleton_add, add_zero]
    abel
  -- messages that are on their way to the server
  | @transmit s ebo rest hs hnet =>
    obtain ⟨others, hwork, hmap⟩ := ClientPc.exists_work_mapSession hs
    refine ⟨1, 0, {0}, by simp, ?_⟩
    simp only [work_eq, otherWork, hmap, hwork, hnet, Session.work, List.length_append,
      List.length_cons, List.length_nil, Multiset.replicate_succ, ← Multiset.singleton_add,
      add_zero]
    abel
  | @deliver s ebo rest hs hout =>
    obtain ⟨others, hwork, hmap⟩ := ClientPc.exists_work_mapSession hs
    refine ⟨0, 0, 0, by simp, ?_⟩
    simp only [work_eq, otherWork, hmap, hwork, hout, Session.work, List.length_cons,
      Multiset.replicate_succ, ← Multiset.singleton_add, add_zero]
    abel

end GrpcClient

end Grpc

namespace Deployment

/-- Every operation is below a message of the server. -/
theorem rank_lt_message (op : CommsOp) : op.rank < 33 := by
  cases op <;> exact of_decide_eq_true rfl

/-- **Every step of the bot lessens its work**. -/
theorem boundedStep_lessens {cfg : DeploymentConfig} {d d' : Deployment} {a : Action}
    (hown : a.ofBot = true) (hstep : boundedStep cfg d a = some d') :
    Lessens d'.work d.work := by
  obtain ⟨hfits, hstep⟩ := boundedStep_eq_some.mp hstep
  cases step_moves hstep with
  | bot _ h => exact (System.step_lessens hown h).add_right _
  -- a message brings up its operations, which all rank below it
  | @receive ebo rest bot hin h =>
    obtain ⟨hbetween, ⟨⟩⟩ := Option.ite_none_right_eq_some.mp h
    obtain ⟨hpc, htodo⟩ := System.betweenMessages_iff.mp hbetween
    refine ⟨33, 0, ((System.opsOf d.bot.book ebo.toComms).map CommsOp.rank : Multiset ℕ), ?_, ?_⟩
    · intro r hr
      obtain ⟨op, -, rfl⟩ := List.mem_map.mp hr
      exact rank_lt_message op
    · simp only [work, System.work, System.otherWork, GrpcClient.work, hpc, htodo, hin,
        CommsPc.work, List.map_nil, Multiset.coe_nil, List.length_cons, Multiset.replicate_succ,
        ← Multiset.singleton_add, add_zero]
      abel
  | @forward ebo rest client hout h =>
    obtain ⟨-, h⟩ := Option.ite_none_left_eq_some.mp h
    obtain ⟨-, ⟨⟩⟩ := Option.ite_none_left_eq_some.mp h
    refine ⟨4, 0, {3}, by simp, ?_⟩
    simp only [work, System.work, System.otherWork, GrpcClient.work, hout, List.length_append,
      List.length_cons, List.length_nil, Multiset.replicate_succ, ← Multiset.singleton_add,
      add_zero]
    abel
  | client _ _ h =>
    -- the comms task holds its end of the channel, so that a relay does not fail
    refine (GrpcClient.step_lessens hown ?_ h).add_left _
    rintro rfl
    cases hfits
  -- the server's steps
  | request hr => cases hown
  | handler h => cases hown
  | sendCommand hcomms h => cases hown
  | sendReply hentry h => cases hown
  | esuReturns hgone => cases hown
  | process h => cases hown

end Deployment

/-! ## §3 The bot at rest -/

/-- What the environment decides, if nothing depends on it. -/
def Picker.Choice.any : Choice where
  markets := ⟨fun _ => .error "", fun _ => .error "", fun _ => none⟩

namespace Picker.System

/-- **The comms task never waits inside a message**, but for its channel to the client. -/
theorem exists_commsStep (cfg : Config) {p : System} (h : p.betweenMessages = false) :
    ∃ c q, commsStep cfg c p = some q := by
  unfold commsStep
  cases hpc : p.comms.pc with
  | evaluating e => exact ⟨Choice.any, _, rfl⟩
  | finding f => exact ⟨Choice.any, _, rfl⟩
  | registering w => exact ⟨Choice.any, _, rfl⟩
  | next =>
    cases htodo : p.comms.todo with
    | nil =>
      rw [betweenMessages_iff.mpr ⟨hpc, htodo⟩] at h
      cases h
    | cons op rest =>
      show ∃ c q, opStep cfg c (p.pop rest) op = some q
      cases op with
      | onPriceUpdate key tob =>
        -- an operation on a set of watchers goes on in some order of them
        obtain ⟨c, hc⟩ := exists_iterates ((p.book.registry key).getD ∅)
        refine ⟨c, ?_⟩
        simp only [opStep]
        split
        · exact ⟨_, if_pos hc⟩
        · exact ⟨_, rfl⟩
      | marketResolved assetId =>
        obtain ⟨c, hc⟩ :=
          exists_iterates ((p.book.registry (makeMarketKey assetId .polymarket)).getD ∅)
        exact ⟨c, _, if_pos hc⟩
      | marketLifecycle event =>
        obtain ⟨c, hc⟩ :=
          exists_iterates ((p.book.registry (makeMarketKey event.marketTicker .kalshi)).getD ∅)
        exact ⟨c, _, if_pos hc⟩
      | evaluateArb cid =>
        refine ⟨Choice.any, ?_⟩
        simp only [opStep]
        split <;> exact ⟨_, rfl⟩
      | seedTobFromHttp leg =>
        refine ⟨Choice.any, ?_⟩
        simp only [opStep]
        split <;> exact ⟨_, rfl⟩
      | resolveDiscovered arb =>
        refine ⟨Choice.any, ?_⟩
        simp only [opStep]
        split <;> exact ⟨_, rfl⟩
      | _ => exact ⟨Choice.any, _, rfl⟩

/-- A background task goes on as long as there is one. -/
theorem exists_taskStep {p : System} (h : p.spawned ≠ []) : ∃ q, p.taskStep 0 true = some q := by
  unfold taskStep
  cases hspawned : p.spawned with
  | nil => exact absurd hspawned h
  | cons task rest => exact ⟨_, rfl⟩

end Picker.System

namespace Deployment

/-- None of the bot's tasks can go on. -/
def AtRest (cfg : DeploymentConfig) (d : Deployment) : Prop :=
  ∀ a, a.ofBot = true → boundedStep cfg d a = none

/-- Nothing is left to do: each task waits for what may arrive, and the stream stands. -/
structure AllDone (d : Deployment) : Prop where
  comms : d.bot.betweenMessages = true
  exec : d.bot.exec.pc = .idle
  executionRx : d.bot.executionRx = []
  spawned : d.bot.spawned = []
  outbox : d.bot.outbox = []
  botOutboundRx : d.client.botOutboundRx = []
  botInbound : d.client.botInbound = []
  session : ∃ t s, d.client.pc = .selecting t s ∧ s.up = true ∧ s.network = [] ∧
    s.outgoing = [] ∧ s.incoming = []

/-- The comms task waits for a slot of the channel to the client, and the client for one of the
    channel to the comms task. -/
structure Crossed (d : Deployment) : Prop where
  comms : d.bot.commsSends = true
  outbound : channelSlots ≤ d.queued
  client : ∃ t s ebo, d.client.pc = .relaying t s ebo
  inbound : channelSlots ≤ d.client.botInbound.length

/-- The client sleeps before its next attempt. -/
def sleeps (d : Deployment) : Bool :=
  match d.client.pc with
  | .retrying wakeAt => d.client.now < wakeAt
  | _ => false

namespace AtRest

variable {cfg : DeploymentConfig} {d : Deployment}

/-- At rest a step of the client is refused, or waits for a slot. -/
theorem client_step (h : AtRest cfg d) {a : Grpc.Action ClientEbo ServerEbo}
    (hown : a.ofClient = true) (hfits : d.fits (.client a) = true) : d.client.step a = none := by
  have hnone : d.clientStep a = none := by
    have hrest := h (.client a) hown
    rwa [boundedStep, if_pos hfits] at hrest
  cases a with
  | enqueue ebo => cases hown
  | reply ebo => cases hown
  | _ => exact Option.map_eq_none_iff.mp hnone

/-- At rest a step of the other tasks is refused, or waits for a slot. -/
theorem bot_step (h : AtRest cfg d) {a : Picker.Action}
    (hown : (Action.bot a).ofBot = true) (hfits : d.fits (.bot a) = true)
    (hvenue : a.fromServer = false) : d.bot.step cfg.picker a = none := by
  have hrest := h (.bot a) hown
  rw [boundedStep, if_pos hfits] at hrest
  simp only [step, hvenue, Bool.false_eq_true, if_false, Option.map_eq_none_iff] at hrest
  exact hrest

/-- At rest the comms task is between messages, or waits for a slot. -/
theorem comms (h : AtRest cfg d) : d.bot.betweenMessages = true ∨
    d.bot.commsSends = true ∧ channelSlots ≤ d.queued := by
  by_contra hne
  push Not at hne
  obtain ⟨hbetween, hwaits⟩ := hne
  obtain ⟨c, q, hq⟩ := System.exists_commsStep cfg.picker (by simpa using hbetween)
  have hfits : d.fits (.bot (.comms c)) = true := by
    simp only [fits, Bool.or_eq_true, Bool.not_eq_true', decide_eq_true_eq]
    cases hsends : d.bot.commsSends with
    | false => exact .inl rfl
    | true => exact .inr (hwaits hsends)
  have hnone := h.bot_step (a := .comms c) rfl hfits rfl
  cases hnone.symm.trans hq

/-- At rest with a free slot to the client, the executor waits for a request, and there is none. -/
theorem exec (h : AtRest cfg d) (hfree : d.queued < channelSlots) :
    d.bot.exec.pc = .idle ∧ d.bot.executionRx = [] := by
  -- a handling or a refresh under way could go on, so there is none
  cases hpc : d.bot.exec.pc with
  | refreshing =>
    have hnone := h.bot_step (a := .execRefresh ⟨none, none⟩) rfl rfl rfl
    simp [System.step, Executor.step, hpc] at hnone
  | handling cid effects =>
    cases effects with
    | nil =>
      have hnone := h.bot_step (a := .execFinish) rfl rfl rfl
      simp [System.step, Executor.step, hpc] at hnone
    | cons e rest =>
      have hnone := h.bot_step (a := .execEffect) rfl (by simp [fits, hfree]) rfl
      simp [System.step, Executor.step, hpc] at hnone
  | idle =>
    refine ⟨rfl, ?_⟩
    -- an idle executor would take a request
    cases hrx : d.bot.executionRx with
    | nil => rfl
    | cons req rest =>
      have hnone := h.bot_step (a := .execReceive silentAnswers) rfl rfl rfl
      simp [System.step, Executor.step, hpc, hrx] at hnone

theorem spawned (h : AtRest cfg d) : d.bot.spawned = [] := by
  by_contra hne
  obtain ⟨q, hq⟩ := System.exists_taskStep hne
  have hnone := h.bot_step (a := .delTask 0 true) rfl rfl rfl
  cases hnone.symm.trans hq

/-- At rest in its `select!`, the client has nothing to pass on in either direction, and the other
    tasks have a free slot. -/
theorem allDone_of_selecting (h : AtRest cfg d) {t : ℕ} {s : Session ClientEbo ServerEbo}
    (hpc : d.client.pc = .selecting t s) : d.AllDone := by
  -- the three channels to the server: each step that would carry a message on is taken
  have hrx : d.client.botOutboundRx = [] := by
    have hnone := h.client_step (a := .recv) rfl rfl
    cases hrx : d.client.botOutboundRx with
    | nil => rfl
    | cons ebo rest =>
      simp [GrpcClient.step, hpc, ClientPc.isStopped, GrpcClient.clientStep, hrx] at hnone
  have hopen : d.client.outboundClosed = false := by
    have hnone := h.client_step (a := .recv) rfl rfl
    by_contra hclosed
    simp [GrpcClient.step, hpc, ClientPc.isStopped, GrpcClient.clientStep, hrx, hclosed] at hnone
  have houtbox : d.bot.outbox = [] := by
    have hnone := h .forward rfl
    cases hout : d.bot.outbox with
    | nil => rfl
    | cons ebo rest =>
      simp [boundedStep, fits, step, hout, GrpcClient.step, hpc, ClientPc.isStopped, hopen] at hnone
  -- the stream: nothing to read, and not broken, else the session would end
  have hin : s.incoming = [] := by
    have hnone := h.client_step (a := .message) rfl rfl
    cases hin : s.incoming with
    | nil => rfl
    | cons ebo rest =>
      simp [GrpcClient.step, hpc, ClientPc.isStopped, GrpcClient.clientStep, hin] at hnone
  have hup : s.up = true := by
    have hnone := h.client_step (a := .message) rfl rfl
    by_contra hdown
    simp [GrpcClient.step, hpc, ClientPc.isStopped, GrpcClient.clientStep, hin, hdown] at hnone
  have hnet : s.network = [] := by
    have hnone := h.client_step (a := .transmit) rfl rfl
    cases hnet : s.network with
    | nil => rfl
    | cons first rest =>
      simp [GrpcClient.step, hpc, ClientPc.isStopped, GrpcClient.clientStep, GrpcClient.networkStep,
        ClientPc.session, hnet] at hnone
  have hout : s.outgoing = [] := by
    have hnone := h.client_step (a := .deliver) rfl rfl
    cases hout : s.outgoing with
    | nil => rfl
    | cons first rest =>
      simp [GrpcClient.step, hpc, ClientPc.isStopped, GrpcClient.clientStep, GrpcClient.networkStep,
        ClientPc.session, hout] at hnone
  -- with its channel to the client empty, the comms task waits for no slot
  have hfree : d.queued < channelSlots := by
    rw [queued, houtbox, hrx]
    decide
  have hcomms : d.bot.betweenMessages = true := by
    rcases h.comms with hbetween | ⟨-, hfull⟩
    · exact hbetween
    · exact absurd hfree (not_lt.mpr hfull)
  have hinbound : d.client.botInbound = [] := by
    have hnone := h .receive rfl
    cases hin : d.client.botInbound with
    | nil => rfl
    | cons ebo rest =>
      simp [boundedStep, fits, step, hin, System.step, hcomms] at hnone
  obtain ⟨hexec, hrequests⟩ := h.exec hfree
  exact ⟨hcomms, hexec, hrequests, h.spawned, houtbox, hrx, hinbound,
    ⟨t, s, hpc, hup, hnet, hout, hin⟩⟩

end AtRest

/-- **At rest**: if its client neither sleeps nor has returned, the bot has nothing left to do, or
    its two channels to the client are full and both ends wait for each other. -/
theorem allDone_or_crossed {cfg : DeploymentConfig} {d : Deployment} (h : AtRest cfg d)
    (hrunning : d.client.pc.isStopped = false) (hawake : d.sleeps = false) :
    d.AllDone ∨ d.Crossed := by
  cases hpc : d.client.pc with
  | top =>
    have hnone := h.client_step (a := .attempt) rfl rfl
    simp [GrpcClient.step, hpc, ClientPc.isStopped, GrpcClient.clientStep] at hnone
  | connecting t =>
    have hnone := h.client_step (a := .connected true) rfl rfl
    simp [GrpcClient.step, hpc, ClientPc.isStopped, GrpcClient.clientStep] at hnone
  | opening t =>
    have hnone := h.client_step (a := .opened true) rfl rfl
    simp [GrpcClient.step, hpc, ClientPc.isStopped, GrpcClient.clientStep] at hnone
  | stopped result =>
    rw [hpc] at hrunning
    cases hrunning
  | retrying wakeAt =>
    have hnone := h.client_step (a := .retry) rfl rfl
    simp only [sleeps, hpc, decide_eq_false_iff_not, not_lt] at hawake
    simp [GrpcClient.step, hpc, ClientPc.isStopped, GrpcClient.clientStep, hawake] at hnone
  | sending t s ebo =>
    -- a slot, a broken stream, or a message to transmit
    have hsend := h.client_step (a := .send) rfl rfl
    have htransmit := h.client_step (a := .transmit) rfl rfl
    cases hnet : s.network with
    | nil =>
      cases hup : s.up <;>
        simp [GrpcClient.step, hpc, ClientPc.isStopped, GrpcClient.clientStep, hnet, hup,
          networkSlots] at hsend
    | cons first rest =>
      simp [GrpcClient.step, hpc, ClientPc.isStopped, GrpcClient.clientStep, GrpcClient.networkStep,
        ClientPc.session, hnet] at htransmit
  | selecting t s =>
    exact .inl (h.allDone_of_selecting hpc)
  | relaying t s ebo =>
    right
    have hfull : channelSlots ≤ d.client.botInbound.length := by
      by_contra hfree
      have hnone := h.client_step (a := .relay true) rfl (by simpa [fits] using hfree)
      simp [GrpcClient.step, hpc, ClientPc.isStopped, GrpcClient.clientStep] at hnone
    -- there is a message to take
    have hbusy : d.bot.betweenMessages = false := by
      by_contra hbetween
      have hnone := h .receive rfl
      cases hin : d.client.botInbound with
      | nil =>
        rw [hin] at hfull
        exact absurd hfull (by decide)
      | cons first rest =>
        simp [boundedStep, fits, step, hin, System.step, hbetween] at hnone
    rcases h.comms with hbetween | ⟨hsends, hqueued⟩
    · rw [hbusy] at hbetween
      cases hbetween
    · exact ⟨hsends, hqueued, ⟨t, s, ebo, hpc⟩, hfull⟩

/-- **The bot comes to rest**: as long as nothing arrives, no order of the steps of its tasks goes
    on for ever.  Where they end and the client runs and is awake, nothing is left to do, or two of
    the tasks wait for each other. -/
theorem bot_comes_to_rest (cfg : DeploymentConfig) :
    (∀ ds : ℕ → Deployment, ∃ n, ∀ a, a.ofBot = true →
      boundedStep cfg (ds n) a ≠ some (ds (n + 1))) ∧
    ∀ d, AtRest cfg d → d.client.pc.isStopped = false → d.sleeps = false →
      d.AllDone ∨ d.Crossed := by
  constructor
  · exact exists_not_step fun d a d' => boundedStep_lessens
  · intro d hrest hrunning hawake
    exact allDone_or_crossed hrest hrunning hawake

/-! ### Two bots at rest -/

/-- The stream stands, and nothing is on its way. -/
def idleDeployment : Deployment where
  bot := { System.init 1 1 with exec := { Executor.init 1 1 with pc := .idle } }
  client := { pc := .selecting 0 { id := 0, openedAt := 0 } }
  app := { arbs := ⟨[], List.nodup_nil⟩ }

theorem atRest_idleDeployment (cfg : DeploymentConfig) : AtRest cfg idleDeployment := by
  intro a hown
  cases a with
  | bot a => cases a <;> first | rfl | cases hown
  | client a =>
    cases a with
    | relay ok | connected ok | opened ok => cases ok <;> rfl
    | _ => first | rfl | cases hown
  | receive | forward => rfl
  | _ => cases hown

/-- Two tasks that wait for each other. -/
def crossedDeployment : Deployment where
  bot := { System.init 1 1 with
    comms := ⟨.next, [.send { action := .deleteRunningArbs ["x"] }]⟩
    exec := { Executor.init 1 1 with pc := .idle } }
  client := {
    botOutboundRx := List.replicate channelSlots { action := .deleteRunningArbs ["x"] }
    botInbound := List.replicate channelSlots (.deleteRunningArbs ["y"])
    pc := .relaying 0 { id := 0, openedAt := 0 } (.deleteRunningArbs ["y"]) }
  app := { arbs := ⟨[], List.nodup_nil⟩ }

theorem crossed_crossedDeployment : crossedDeployment.Crossed := by
  have hout : crossedDeployment.client.botOutboundRx.length = channelSlots :=
    List.length_replicate ..
  have hin : crossedDeployment.client.botInbound.length = channelSlots :=
    List.length_replicate ..
  refine ⟨rfl, ?_, ⟨_, _, _, rfl⟩, hin.ge⟩
  rw [queued, hout]
  exact Nat.le_add_left ..

theorem atRest_crossedDeployment (cfg : DeploymentConfig) : AtRest cfg crossedDeployment := by
  -- the comms task waits for room to the client, and the client for room to the comms task
  have hcrossed := crossed_crossedDeployment
  intro a hown
  cases a with
  | bot a =>
    cases a with
    | comms c =>
      apply if_neg
      simp [fits, hcrossed.comms, hcrossed.outbound]
    | _ => first | rfl | cases hown
  | client a =>
    cases a with
    | relay ok =>
      cases ok with
      | true =>
        apply if_neg
        simp [fits, hcrossed.inbound]
      | false => rfl
    | connected ok | opened ok => cases ok <;> rfl
    | _ => first | rfl | cases hown
  | receive | forward => rfl
  | _ => cases hown

theorem bot_comes_to_rest_samples :
    (AtRest ⟨sampleConfig, some⟩ idleDeployment ∧ idleDeployment.AllDone) ∧
      AtRest ⟨sampleConfig, some⟩ crossedDeployment ∧ crossedDeployment.Crossed := by
  have hidle := atRest_idleDeployment ⟨sampleConfig, some⟩
  have hcrossed := atRest_crossedDeployment ⟨sampleConfig, some⟩
  have hrest := (bot_comes_to_rest ⟨sampleConfig, some⟩).2
  refine ⟨⟨hidle, (hrest _ hidle rfl rfl).resolve_right fun h => ?_⟩,
    hcrossed, (hrest _ hcrossed rfl rfl).resolve_left fun h => ?_⟩
  · cases h.comms
  · cases h.comms

end Deployment

end Degenerate
