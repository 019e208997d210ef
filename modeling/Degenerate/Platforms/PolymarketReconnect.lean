import Degenerate.Platforms.Clients
import Degenerate.Lib.TransitionSystem

/-!
# Subscriptions across Polymarket Reconnects

`run_polymarket` reconnects in three cases: the stream has ended, it fails with a transport
error, or a close message arrives.  Each time it copies `subscribed_assets` after the new
connection is there and subscribes the copy, unless that is empty.  When this fails, the
first two cases end the task.  The third one does not: its error is logged.

The commands sent on the current connection are the field `sent` of the client, which is
emptied when a new connection is there.

## Main Results

- `tracked_subscribed`: in the loop every tracked asset is subscribed on the connection, if
  assets are inserted while their command stands and no close path fails
- `hole_persists`: a tracked asset that is not subscribed stays so until the next reconnect
-/

namespace Degenerate.Platforms

open Degenerate.Lib

/-! ## §1 The task and its calls -/

/-- Why `run_polymarket` reconnects. -/
inductive StreamLoss where
  | ended
  | transport
  | close
  deriving DecidableEq

/-- Where `run_polymarket` is. -/
inductive PolymarketPc where
  | subscribeMarket
  /-- in the `select!` loop -/
  | loop
  | reconnect (loss : StreamLoss)
  | readAssets (loss : StreamLoss)
  | resubscribe (loss : StreamLoss) (assets : List String)
  | stopped
  deriving DecidableEq

/-- The client, the task that runs it, and the calls that are under way. -/
structure PolymarketRun where
  client : PolymarketClient := {}
  pc : PolymarketPc := .subscribeMarket
  adds : List PolymarketAdd := []
  dels : List PolymarketDel := []

/-- A step, with what the environment decides in it. -/
inductive PolymarketAction where
  /-- `run_polymarket` takes its next step; `ok` is the outcome of the send or of `reconnect`. -/
  | task (ok : Bool)
  | streamLost (loss : StreamLoss)
  /-- `subscribed_assets` is copied in this order. -/
  | copyAssets (order : List String)
  | shutdown
  | callAdd (assetId : String)
  | addStep (i : ℕ) (ok : Bool)
  | callDel (assetIds : List String)
  | delStep (i : ℕ) (ok : Bool)

namespace PolymarketRun

/-- Put a command on the wire, or go on at `pc` when that fails. -/
def sendOr (s : PolymarketRun) (ok : Bool) (cmd : PolymarketCommand) (pc : PolymarketPc) :
    PolymarketRun :=
  if ok then { s with client := s.client.send cmd, pc := .loop } else { s with pc }

/-- The next step of `run_polymarket`. -/
def taskStep (s : PolymarketRun) (ok : Bool) : Option PolymarketRun :=
  match s.pc with
  | .subscribeMarket => some (s.sendOr ok (.subscribe []) .stopped)
  | .reconnect loss =>
      -- the new connection has no subscriptions
      if ok then some { s with client := { s.client with sent := [] }, pc := .readAssets loss }
      else some { s with pc := .stopped }
  | .resubscribe loss assets =>
      -- the close path logs the failure and goes on
      some (s.sendOr ok (.subscribe assets) (if loss = .close then .loop else .stopped))
  | .loop | .readAssets _ | .stopped => none

/-- One step of the client. -/
def step (s : PolymarketRun) : PolymarketAction → Option PolymarketRun
  | .task ok => s.taskStep ok
  | .streamLost loss => if s.pc = .loop then some { s with pc := .reconnect loss } else none
  | .copyAssets order =>
      match s.pc with
      | .readAssets loss =>
          if order.Nodup ∧ order.toFinset = s.client.subscribedAssets then
            some { s with pc := if order.isEmpty then .loop else .resubscribe loss order }
          else none
      | _ => none
  | .shutdown => if s.pc = .loop then some { s with pc := .stopped } else none
  | .callAdd assetId => some { s with adds := s.adds ++ [.check assetId] }
  | .addStep i ok =>
      match s.adds[i]? with
      | none => none
      | some call =>
          let r := s.client.addStep ok call
          some { s with client := r.1, adds := r.2.advance s.adds i }
  | .callDel assetIds => some { s with dels := s.dels ++ [.filter assetIds] }
  | .delStep i ok =>
      match s.dels[i]? with
      | none => none
      | some call =>
          let r := s.client.delStep ok call
          some { s with client := r.1, dels := r.2.advance s.dels i }

/-! ## §2 Subscriptions -/

/-- The newest command on the connection that names the asset subscribes it. -/
def Subscribed (s : PolymarketRun) (t : String) : Prop :=
  lastCommand PolymarketCommand.effect s.client.sent t = some true

/-- A deletion of the asset has sent its command, and is still to take the asset out of the
    set. -/
def Leaving (s : PolymarketRun) (t : String) : Prop :=
  ∃ ids, .remove ids ∈ s.dels ∧ t ∈ ids

end PolymarketRun

/-- The asset that the next step of a call inserts. -/
def PolymarketAdd.inserted : PolymarketAdd → Option String
  | .insert t => some t
  | _ => none

/-- The reconnect that is under way will subscribe the asset, if it is tracked in time. -/
def PolymarketPc.willSubscribe (t : String) : PolymarketPc → Bool
  | .reconnect _ | .readAssets _ => true
  | .resubscribe _ assets => t ∈ assets
  | _ => false

namespace PolymarketRun

/-- An asset is inserted while its command stands, or in time for a reconnect. -/
def InsertsStand (s : PolymarketRun) : PolymarketAction → Prop
  | .addStep i _ => ∀ t ∈ s.adds[i]?.bind PolymarketAdd.inserted,
      s.Subscribed t ∨ s.pc.willSubscribe t = true ∨ s.pc = .stopped
  | _ => True

/-- The close path subscribes its copy. -/
def CloseSubscribes (s : PolymarketRun) : PolymarketAction → Prop
  | .task ok => ∀ assets, s.pc = .resubscribe .close assets → ok = true
  | _ => True

/-- A tracked asset is subscribed, is leaving, or will be subscribed. -/
def Inv (s : PolymarketRun) : Prop :=
  ∀ t ∈ s.client.subscribedAssets,
    s.Subscribed t ∨ s.Leaving t ∨ s.pc.willSubscribe t = true ∨ s.pc = .stopped

theorem inv_init : Inv {} := fun t ht => absurd ht (Finset.notMem_empty t)

/-! ## §3 Steps -/

/-- A command that does not name the asset changes nothing for it. -/
theorem newest_send_of_none (c : PolymarketClient) {cmd : PolymarketCommand} {t : String}
    (h : cmd.effect t = none) : lastCommand PolymarketCommand.effect (c.send cmd).sent t =
      lastCommand PolymarketCommand.effect c.sent t := by
  rw [PolymarketClient.send, lastCommand_cons, h, Option.none_or]

/-- A subscription subscribes what it names, and leaves the rest. -/
theorem newest_subscribe (c : PolymarketClient) {ids : List String} {t : String}
    (h : t ∈ ids ∨ lastCommand PolymarketCommand.effect c.sent t = some true) :
    lastCommand PolymarketCommand.effect (c.send (.subscribe ids)).sent t = some true := by
  rw [PolymarketClient.send, lastCommand_cons]
  by_cases hmem : t ∈ ids
  · simp [PolymarketCommand.effect, hmem]
  · simpa [PolymarketCommand.effect, hmem] using h

/-- The steps of `run_polymarket`, unless the close path fails. -/
theorem Inv.taskStep {s s' : PolymarketRun} {ok : Bool} (hi : Inv s)
    (hclose : s.CloseSubscribes (.task ok)) (h : s.taskStep ok = some s') : Inv s' := by
  unfold PolymarketRun.taskStep at h
  intro t ht
  cases hpc : s.pc with
  | subscribeMarket =>
    rw [hpc] at h
    cases ok with
    | true =>
      -- the first subscription names no asset
      cases h
      rcases hi t ht with hsub | hleave | hwill | hstop
      · exact .inl (newest_subscribe s.client (.inr hsub))
      · exact .inr (.inl hleave)
      · rw [hpc] at hwill
        cases hwill
      · rw [hpc] at hstop
        cases hstop
    | false =>
      -- a failed send stops the task
      cases h
      exact .inr (.inr (.inr rfl))
  | loop =>
    rw [hpc] at h
    cases h
  | reconnect loss =>
    -- the new connection is bare; the read of the assets comes next
    rw [hpc] at h
    cases ok with
    | true =>
      cases h
      exact .inr (.inr (.inl rfl))
    | false =>
      cases h
      exact .inr (.inr (.inr rfl))
  | readAssets loss =>
    rw [hpc] at h
    cases h
  | resubscribe loss assets =>
    rw [hpc] at h
    cases ok with
    -- the resubscription names the assets that were read
    | true =>
      cases h
      rcases hi t ht with hsub | hleave | hwill | hstop
      · exact .inl (newest_subscribe s.client (.inr hsub))
      · exact .inr (.inl hleave)
      · rw [hpc] at hwill
        exact .inl (newest_subscribe s.client (.inl (of_decide_eq_true hwill)))
      · rw [hpc] at hstop
        cases hstop
    | false =>
      -- after a close frame the error is only logged, elsewhere it stops the task
      cases loss with
      | close => exact absurd (hclose assets hpc) Bool.false_ne_true
      | ended =>
        cases h
        exact .inr (.inr (.inr rfl))
      | transport =>
        cases h
        exact .inr (.inr (.inr rfl))
  | stopped =>
    rw [hpc] at h
    cases h

/-- A step of a call that inserts nothing, and takes a subscription back only when the asset is
    leaving. -/
theorem Inv.call {s s' : PolymarketRun} (hi : Inv s) (hpc : s'.pc = s.pc)
    (hset : s'.client.subscribedAssets ⊆ s.client.subscribedAssets)
    (hsub : ∀ t, s.Subscribed t → s'.Subscribed t ∨ s'.Leaving t)
    (hleave : ∀ t ∈ s'.client.subscribedAssets, s.Leaving t → s'.Leaving t) : Inv s' := by
  intro t ht
  rw [hpc]
  rcases hi t (hset ht) with h | h | h
  · exact (hsub t h).imp_right .inl
  · exact .inr (.inl (hleave t ht h))
  · exact .inr (.inr h)

/-- A check leaves the client as it is. -/
theorem addStep_check (c : PolymarketClient) (ok : Bool) (t : String) :
    (c.addStep ok (.check t)).1 = c := by
  simp only [PolymarketClient.addStep]
  split <;> rfl

/-- Calls of `add_market_ticker` that insert while their command stands. -/
theorem Inv.addStep {s : PolymarketRun} {i : ℕ} {ok : Bool} {call : PolymarketAdd} (hi : Inv s)
    (hcall : s.adds[i]? = some call) (hins : s.InsertsStand (.addStep i ok)) :
    Inv { s with
      client := (s.client.addStep ok call).1
      adds := (s.client.addStep ok call).2.advance s.adds i } := by
  cases call with
  | check t' =>
    rw [addStep_check]
    exact hi.call rfl (Finset.Subset.refl _) (fun t h => .inl h) fun t _ h => h
  | send t' =>
    cases ok with
    | true =>
      refine hi.call rfl (Finset.Subset.refl _) (fun t h => .inl ?_) fun t _ h => h
      exact newest_subscribe s.client (.inr h)
    | false => exact hi
  | insert t' =>
    intro t ht
    rcases Finset.mem_insert.mp ht with rfl | ht
    · -- the only new asset is the one of the call
      have hstand := hins t (by rw [hcall]; rfl)
      exact hstand.imp_right .inr
    · exact hi t ht

/-- A step of another phase keeps what is leaving. -/
theorem leaving_advance {s : PolymarketRun} {i : ℕ} {call : PolymarketDel}
    (hcall : s.dels[i]? = some call) (client : PolymarketClient) (r : Progress PolymarketDel)
    {t : String} (hnot : ∀ ids, call = .remove ids → t ∉ ids) (h : s.Leaving t) :
    ({ s with client, dels := r.advance s.dels i } : PolymarketRun).Leaving t := by
  obtain ⟨ids, hmem, ht⟩ := h
  rcases r.mem_advance_of_mem hcall hmem with heq | hmem
  · exact absurd ht (hnot ids heq.symm)
  · exact ⟨ids, hmem, ht⟩

/-- Calls of `del_market_ticker`: what they unsubscribe is leaving until it is out of the set. -/
theorem Inv.delStep {s : PolymarketRun} {i : ℕ} {ok : Bool} {call : PolymarketDel} (hi : Inv s)
    (hcall : s.dels[i]? = some call) :
    Inv { s with
      client := (s.client.delStep ok call).1
      dels := (s.client.delStep ok call).2.advance s.dels i } := by
  cases call with
  | filter ids =>
    have hclient : (s.client.delStep ok (.filter ids)).1 = s.client := by
      simp only [PolymarketClient.delStep]
      split <;> rfl
    rw [hclient]
    refine hi.call rfl (Finset.Subset.refl _) (fun t h => .inl h) fun t _ h => ?_
    exact leaving_advance hcall _ _ (fun _ h => by cases h) h
  | send ids =>
    cases ok with
    | true =>
      refine hi.call rfl (Finset.Subset.refl _) (fun t h => ?_) fun t _ h =>
        leaving_advance hcall _ _ (fun _ h => by cases h) h
      by_cases hmem : t ∈ ids
      · exact .inr ⟨ids, Progress.next_mem_advance hcall, hmem⟩
      · refine .inl ((newest_send_of_none s.client ?_).trans h)
        simp [PolymarketCommand.effect, hmem]
    | false =>
      exact hi.call rfl (Finset.Subset.refl _) (fun t h => .inl h) fun t _ h =>
        leaving_advance hcall _ _ (fun _ h => by cases h) h
  | remove ids =>
    -- an asset that stays in the set is not among those of the call
    refine hi.call rfl (Finset.filter_subset _ _) (fun t h => .inl h) fun t ht h => ?_
    refine leaving_advance hcall _ _ (fun ids' heq => ?_) h
    cases heq
    exact (Finset.mem_filter.mp ht).2

/-- **One step** keeps every tracked asset subscribed, leaving, or in time. -/
theorem Inv.step {s s' : PolymarketRun} {a : PolymarketAction} (hi : Inv s)
    (hins : s.InsertsStand a) (hclose : s.CloseSubscribes a) (h : s.step a = some s') :
    Inv s' := by
  cases a with
  | task ok => exact hi.taskStep hclose h
  | streamLost loss =>
    obtain ⟨-, h⟩ := Option.ite_none_right_eq_some.mp h
    cases h
    exact fun t _ => .inr (.inr (.inl rfl))
  | copyAssets order =>
    simp only [PolymarketRun.step] at h
    split at h
    · obtain ⟨⟨-, horder⟩, h⟩ := Option.ite_none_right_eq_some.mp h
      cases h
      intro t ht
      -- the copy holds what is tracked now
      have hmem : t ∈ order := by
        rw [← List.mem_toFinset, horder]
        exact ht
      refine .inr (.inr (.inl ?_))
      have hne : order.isEmpty = false := by
        rw [List.isEmpty_eq_false_iff]
        exact List.ne_nil_of_mem hmem
      simp only [hne, Bool.false_eq_true, if_false]
      exact decide_eq_true hmem
    · cases h
  | shutdown =>
    obtain ⟨-, h⟩ := Option.ite_none_right_eq_some.mp h
    cases h
    exact fun t _ => .inr (.inr (.inr rfl))
  | callAdd t =>
    cases h
    exact hi
  | addStep i ok =>
    simp only [PolymarketRun.step] at h
    split at h <;> cases h
    exact hi.addStep ‹_› hins
  | callDel ids =>
    cases h
    refine hi.call rfl (Finset.Subset.refl _) (fun t h => .inl h) fun t _ h => ?_
    obtain ⟨ids', hmem, ht⟩ := h
    exact ⟨ids', List.mem_append_left _ hmem, ht⟩
  | delStep i ok =>
    simp only [PolymarketRun.step] at h
    split at h <;> cases h
    exact hi.delStep ‹_›

/-! ## §4 Runs -/

/-- **Tracked assets are subscribed** on the current connection whenever `run_polymarket` is in its
    loop, unless a deletion is just taking them out: in every run in which an asset is inserted
    while its command stands, or before a reconnect that copies it, and in which the close path
    subscribes its copy. -/
theorem tracked_subscribed {as : List PolymarketAction} {s : PolymarketRun}
    (hins : Along PolymarketRun.step InsertsStand {} as)
    (hclose : Along PolymarketRun.step CloseSubscribes {} as)
    (hrun : run PolymarketRun.step {} as = some s) (hloop : s.pc = .loop) {t : String}
    (ht : t ∈ s.client.subscribedAssets) (hstay : ¬ s.Leaving t) : s.Subscribed t := by
  have hi : Inv s := run_invariant_along (fun _ _ _ hi hp h => hi.step hp.1 hp.2 h) inv_init
    (hins.and hclose) hrun
  rcases hi t ht with h | h | h | h
  · exact h
  · exact absurd h hstay
  · rw [hloop] at h
    cases h
  · rw [hloop] at h
    cases h

/-- A call of `add_market_ticker` that is not disturbed. -/
def addSteps (t : String) : List PolymarketAction :=
  .callAdd t :: List.replicate 3 (.addStep 0 true)

/-- The stream is lost while the assets in `order` are tracked; `ok` is the outcome of the
    subscription of the copy. -/
def lossSteps (loss : StreamLoss) (order : List String) (ok : Bool) : List PolymarketAction :=
  [.streamLost loss, .task true, .copyAssets order, .task ok]

instance (s : PolymarketRun) (t : String) : Decidable (s.Subscribed t) :=
  inferInstanceAs (Decidable (lastCommand PolymarketCommand.effect s.client.sent t = some true))

instance (s : PolymarketRun) : ∀ a, Decidable (s.InsertsStand a)
  | .addStep i _ => inferInstanceAs (Decidable (∀ t ∈ s.adds[i]?.bind PolymarketAdd.inserted,
      s.Subscribed t ∨ s.pc.willSubscribe t = true ∨ s.pc = .stopped))
  | .task _ | .streamLost _ | .copyAssets _ | .shutdown | .callAdd _ | .callDel _
  | .delStep .. => .isTrue trivial

/-- A step that subscribes the copy of a close path, and fails. -/
def closeFails (s : PolymarketRun) : PolymarketAction → Bool
  | .task false =>
      match s.pc with
      | .resubscribe .close _ => true
      | _ => false
  | _ => false

theorem closeSubscribes_of_not_fails {s : PolymarketRun} {a : PolymarketAction}
    (h : s.closeFails a = false) : s.CloseSubscribes a := by
  cases a with
  | task ok =>
    intro assets hpc
    cases ok with
    | true => rfl
    | false =>
      rw [closeFails, hpc] at h
      cases h
  | _ => trivial

/-- Two losses of the stream, and an asset that is added between them. -/
def twoLosses : List PolymarketAction :=
  .task true :: addSteps "11" ++ lossSteps .close ["11"] true ++ addSteps "22" ++
    lossSteps .ended ["22", "11"] true

theorem tracked_subscribed_sample : ∃ s, run PolymarketRun.step {} twoLosses = some s ∧
    s.pc = .loop ∧ s.Subscribed "11" ∧ s.Subscribed "22" := by
  have hrun : (run PolymarketRun.step {} twoLosses).any (fun s => decide (s.pc = .loop ∧
      "11" ∈ s.client.subscribedAssets ∧ "22" ∈ s.client.subscribedAssets ∧ s.dels = [])) =
      true := by decide +kernel
  have hins : Along PolymarketRun.step InsertsStand {} twoLosses := by decide +kernel
  have hclose : Along PolymarketRun.step (fun s a => s.closeFails a = false) {} twoLosses := by
    decide +kernel
  obtain ⟨s, hs, hcheck⟩ := (Option.any_eq_true _ _).mp hrun
  obtain ⟨hloop, h11, h22, hdels⟩ := of_decide_eq_true hcheck
  have hstay : ∀ t, ¬ s.Leaving t := by
    rintro t ⟨ids, hmem, -⟩
    rw [hdels] at hmem
    cases hmem
  have hclose' := along_mono (fun _ _ => closeSubscribes_of_not_fails) hclose
  exact ⟨s, hs, hloop, tracked_subscribed hins hclose' hs hloop h11 (hstay _),
    tracked_subscribed hins hclose' hs hloop h22 (hstay _)⟩

/-! ## §5 Holes -/

/-- The step loses no stream, and takes the asset out of no set. -/
def Keeps (t : String) (s : PolymarketRun) : PolymarketAction → Prop
  | .streamLost _ => False
  | .delStep i _ => ∀ ids, s.dels[i]? = some (.remove ids) → t ∉ ids
  | _ => True

/-- A tracked asset without a subscription, and no call that is past its check of the asset. -/
structure Hole (t : String) (s : PolymarketRun) : Prop where
  pc : s.pc = .loop ∨ s.pc = .stopped
  tracked : t ∈ s.client.subscribedAssets
  hole : ¬ s.Subscribed t
  adds : ∀ call ∈ s.adds, call.token = t → call = .check t

/-- A command that does not subscribe the asset leaves the hole. -/
theorem not_newest_send {c : PolymarketClient} {cmd : PolymarketCommand} {t : String}
    (hcmd : cmd.effect t ≠ some true)
    (h : lastCommand PolymarketCommand.effect c.sent t ≠ some true) :
    lastCommand PolymarketCommand.effect (c.send cmd).sent t ≠ some true := by
  rw [PolymarketClient.send, lastCommand_cons]
  cases heffect : cmd.effect t with
  | none => rwa [Option.none_or]
  | some b =>
    rw [Option.some_or, ← heffect]
    exact hcmd

/-- The calls after a step whose next phase is not about the asset. -/
theorem Hole.adds_advance {t : String} {s : PolymarketRun} (hh : Hole t s) (i : ℕ)
    (r : Progress PolymarketAdd) (hnext : ∀ call, r = .more call → call.token ≠ t) :
    ∀ call ∈ r.advance s.adds i, call.token = t → call = .check t := by
  intro call hmem htoken
  rcases Progress.mem_advance hmem with hmem | hmore
  · exact hh.adds call hmem htoken
  · exact absurd htoken (hnext call hmore)

/-- A call for the asset ends at its check, one for another asset does not help. -/
theorem Hole.addStep {t : String} {s : PolymarketRun} {i : ℕ} {ok : Bool} {call : PolymarketAdd}
    (hh : Hole t s) (hcall : s.adds[i]? = some call) :
    Hole t { s with
      client := (s.client.addStep ok call).1
      adds := (s.client.addStep ok call).2.advance s.adds i } := by
  cases call with
  | check t' =>
    rw [addStep_check]
    refine { hh with adds := hh.adds_advance i _ fun call hnext => ?_ }
    -- the check of a tracked asset is the end of the call
    simp only [PolymarketClient.addStep] at hnext
    split at hnext
    · cases hnext
    · rename_i hnot
      cases hnext
      rintro rfl
      exact hnot hh.tracked
  | send t' =>
    have hne : t' ≠ t := by
      rintro rfl
      cases hh.adds _ (List.mem_of_getElem? hcall) rfl
    cases ok with
    | true =>
      refine { hh with
        hole := not_newest_send ?_ hh.hole
        adds := hh.adds_advance i (.more (.insert t')) fun call hnext => ?_ }
      · simp [PolymarketCommand.effect, Ne.symm hne]
      · cases hnext
        exact hne
    | false =>
      exact { hh with adds := hh.adds_advance i (.done false) fun call hnext => by cases hnext }
  | insert t' =>
    exact { hh with
      tracked := Finset.mem_insert_of_mem hh.tracked
      adds := hh.adds_advance i (.done true) fun call hnext => by cases hnext }

/-- A deletion subscribes nothing. -/
theorem Hole.delStep {t : String} {s : PolymarketRun} {i : ℕ} {ok : Bool} {call : PolymarketDel}
    (hh : Hole t s) (hkeep : ∀ ids, call = .remove ids → t ∉ ids) :
    Hole t { s with
      client := (s.client.delStep ok call).1
      dels := (s.client.delStep ok call).2.advance s.dels i } := by
  cases call with
  | filter ids =>
    have hclient : (s.client.delStep ok (.filter ids)).1 = s.client := by
      simp only [PolymarketClient.delStep]
      split <;> rfl
    rw [hclient]
    exact { hh with }
  | send ids =>
    cases ok with
    | true =>
      refine { hh with hole := not_newest_send ?_ hh.hole }
      simp only [PolymarketCommand.effect]
      split
      · exact fun h => by cases h
      · exact fun h => by cases h
    | false => exact { hh with }
  | remove ids =>
    exact { hh with tracked := Finset.mem_filter.mpr ⟨hh.tracked, hkeep ids rfl⟩ }

theorem Hole.step {t : String} {s s' : PolymarketRun} {a : PolymarketAction} (hh : Hole t s)
    (hkeep : Keeps t s a) (h : s.step a = some s') : Hole t s' := by
  cases a with
  | task ok =>
    -- neither in the loop nor after it there is a step of the task itself
    simp only [PolymarketRun.step, PolymarketRun.taskStep] at h
    rcases hh.pc with hpc | hpc <;> rw [hpc] at h <;> cases h
  | streamLost loss => exact absurd hkeep id
  | copyAssets order =>
    simp only [PolymarketRun.step] at h
    rcases hh.pc with hpc | hpc <;> rw [hpc] at h <;> cases h
  | shutdown =>
    obtain ⟨-, h⟩ := Option.ite_none_right_eq_some.mp h
    cases h
    exact { hh with pc := .inr rfl }
  | callAdd t' =>
    cases h
    refine { hh with adds := fun call hin htoken => ?_ }
    rcases List.mem_append.mp hin with hin | hin
    · exact hh.adds call hin htoken
    · obtain rfl := List.mem_singleton.mp hin
      exact congrArg PolymarketAdd.check htoken
  | addStep i ok =>
    simp only [PolymarketRun.step] at h
    split at h <;> cases h
    exact hh.addStep ‹_›
  | callDel ids =>
    cases h
    exact { hh with }
  | delStep i ok =>
    simp only [PolymarketRun.step] at h
    split at h
    · cases h
    · rename_i call hcall
      cases h
      exact hh.delStep fun ids heq => hkeep ids (heq ▸ hcall)

/-- **A hole persists**: an asset that is tracked and not subscribed while the loop runs, with no
    call of `add_market_ticker` for it past its check, stays tracked and unsubscribed in every run
    that neither loses the stream nor takes the asset out of the set, however often
    `add_market_ticker` is called for it. -/
theorem hole_persists {t : String} {as : List PolymarketAction} {s s' : PolymarketRun}
    (hh : Hole t s) (hkeep : Along PolymarketRun.step (Keeps t) s as)
    (hrun : run PolymarketRun.step s as = some s') :
    t ∈ s'.client.subscribedAssets ∧ ¬ s'.Subscribed t := by
  have hafter : Hole t s' :=
    run_invariant_along (fun _ _ _ hh hp h => hh.step hp h) hh hkeep hrun
  exact ⟨hafter.tracked, hafter.hole⟩

/-- A close path that fails to subscribe its copy. -/
def closePathFails : List PolymarketAction :=
  .task true :: addSteps "11" ++ lossSteps .close ["11"] false

/-- The failure of a close path is not made good by another call. -/
theorem hole_persists_after_close : ∃ s s', run PolymarketRun.step {} closePathFails = some s ∧
    s.pc = .loop ∧ run PolymarketRun.step s [.callAdd "11", .addStep 0 true] = some s' ∧
    s'.adds = [] ∧ "11" ∈ s'.client.subscribedAssets ∧ ¬ s'.Subscribed "11" := by
  have hrun : (run PolymarketRun.step {} closePathFails).any (fun s => decide (s.pc = .loop ∧
      "11" ∈ s.client.subscribedAssets ∧ ¬ s.Subscribed "11" ∧ s.adds = []) &&
      (run PolymarketRun.step s [.callAdd "11", .addStep 0 true]).any fun s' =>
        decide (s'.adds = [])) = true := by decide +kernel
  obtain ⟨s, hs, hcheck⟩ := (Option.any_eq_true _ _).mp hrun
  rw [Bool.and_eq_true, decide_eq_true_eq, Option.any_eq_true] at hcheck
  obtain ⟨⟨hloop, htracked, hhole, hadds⟩, s', hs', hadds'⟩ := hcheck
  have hkeep : Along PolymarketRun.step (Keeps "11") s [.callAdd "11", .addStep 0 true] :=
    ⟨trivial, fun _ _ => ⟨trivial, fun _ _ => trivial⟩⟩
  have hh : Hole "11" s := ⟨.inl hloop, htracked, hhole, by rw [hadds]; simp⟩
  obtain ⟨hstay, hstill⟩ := hole_persists hh hkeep hs'
  exact ⟨s, s', hs, hloop, hs', of_decide_eq_true hadds', hstay, hstill⟩

end PolymarketRun

end Degenerate.Platforms
