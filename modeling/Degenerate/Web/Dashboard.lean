import Degenerate.Picker.Discovery
import Degenerate.Grpc.Client
import Degenerate.Web.SimilarityHits
import Mathlib.Data.Finset.Basic

/-!
# The Dashboard's Server

The server keeps the `arbs` table, the channel `GrpcComms` from the handlers of the
dashboard to the stream, and for each stream an `Esu` call with two goroutines: one
receives and processes the messages of the bot, the other one sends.  Handlers,
streams and goroutines interleave at every database statement and channel operation.

## Layout

- §1 the `arbs` table and its statements
- §2 messages, handlers, the state
- §3 the steps of a handler
- §4 `ProcessEbo`
-/

namespace Degenerate.Web

open Degenerate.Picker Degenerate.Grpc

/-! ## §1 The `arbs` table -/

/-- A row of the `arbs` table. -/
structure ArbsRow where
  correlationId : CorrelationId
  /-- What the JSON of the arb unmarshals to. -/
  arbs : Option Arb
  arbType : ArbType
  confirmed : Bool := false
  running : Bool := false

/-- The `arbs` table, the newest row first. -/
structure ArbsTable where
  rows : List ArbsRow
  /-- `CORRELATION_ID TEXT NOT NULL UNIQUE` -/
  unique : (rows.map ArbsRow.correlationId).Nodup

/-- Mark the row of an id as confirmed and running. -/
def ArbsRow.run (cid : CorrelationId) (row : ArbsRow) : ArbsRow :=
  if row.correlationId = cid then { row with confirmed := true, running := true } else row

theorem ArbsRow.correlationId_run (cid : CorrelationId) (row : ArbsRow) :
    (row.run cid).correlationId = row.correlationId := by
  unfold ArbsRow.run
  split <;> rfl

namespace ArbsTable

/-- `GetArbByCorrelationID`. -/
def getArbByCorrelationID (t : ArbsTable) (cid : CorrelationId) : Option ArbsRow :=
  t.rows.find? fun row => row.correlationId = cid

/-- `InsertNewArb`: `ON CONFLICT (correlation_id) DO NOTHING`. -/
def insertNewArb (t : ArbsTable) (row : ArbsRow) : ArbsTable :=
  if h : row.correlationId ∈ t.rows.map ArbsRow.correlationId then t
  else ⟨row :: t.rows, List.nodup_cons.mpr ⟨h, t.unique⟩⟩

theorem map_run (t : ArbsTable) (cid : CorrelationId) :
    (t.rows.map (ArbsRow.run cid)).map ArbsRow.correlationId =
      t.rows.map ArbsRow.correlationId := by
  simp [Function.comp_def, ArbsRow.correlationId_run]

/-- `UpdateArbStatus`; no row is changed when there is none with the id. -/
def updateArbStatus (t : ArbsTable) (cid : CorrelationId) : ArbsTable :=
  ⟨t.rows.map (ArbsRow.run cid), (t.map_run cid).symm ▸ t.unique⟩

/-- `DeleteArbsBulk`; `DeleteArb` is the case of one id. -/
def deleteArbsBulk (t : ArbsTable) (cids : List CorrelationId) : ArbsTable :=
  ⟨t.rows.filter fun row => row.correlationId ∉ cids,
    t.unique.sublist (List.filter_sublist.map _)⟩

/-- `GetRunninngArbs`. -/
def getRunningArbs (t : ArbsTable) (arbType : ArbType) : List ArbsRow :=
  t.rows.filter fun row => row.arbType = arbType && row.running

/-- The ids of the table. -/
def ids (t : ArbsTable) : Finset CorrelationId := (t.rows.map ArbsRow.correlationId).toFinset

/-- The ids of the rows with `running = TRUE`. -/
def running (t : ArbsTable) : Finset CorrelationId :=
  ((t.rows.filter ArbsRow.running).map ArbsRow.correlationId).toFinset

theorem mem_ids {t : ArbsTable} {cid : CorrelationId} :
    cid ∈ t.ids ↔ ∃ row ∈ t.rows, row.correlationId = cid := by
  simp [ids]

theorem mem_running {t : ArbsTable} {cid : CorrelationId} :
    cid ∈ t.running ↔ ∃ row ∈ t.rows, row.correlationId = cid ∧ row.running = true := by
  simp only [running, List.mem_toFinset, List.mem_map, List.mem_filter]
  constructor
  · rintro ⟨row, ⟨hrow, hrun⟩, hcid⟩
    exact ⟨row, hrow, hcid, hrun⟩
  · rintro ⟨row, hrow, hcid, hrun⟩
    exact ⟨row, ⟨hrow, hrun⟩, hcid⟩

theorem ids_insertNewArb (t : ArbsTable) (row : ArbsRow) :
    (t.insertNewArb row).ids = insert row.correlationId t.ids := by
  unfold insertNewArb
  split
  · rename_i h
    exact (Finset.insert_eq_self.mpr (List.mem_toFinset.mpr h)).symm
  · simp [ids]

/-- A new row is not running. -/
theorem running_insertNewArb (t : ArbsTable) {row : ArbsRow} (h : row.running = false) :
    (t.insertNewArb row).running = t.running := by
  unfold insertNewArb
  split
  · rfl
  · simp [running, h]

theorem ids_updateArbStatus (t : ArbsTable) (cid : CorrelationId) :
    (t.updateArbStatus cid).ids = t.ids :=
  congrArg List.toFinset (t.map_run cid)

/-- **The update**: the row of the id is running after it, if there is one. -/
theorem running_updateArbStatus (t : ArbsTable) (cid : CorrelationId) :
    (t.updateArbStatus cid).running = if cid ∈ t.ids then insert cid t.running else t.running := by
  -- only the row of the id changes
  have hrun : ∀ row : ArbsRow, (row.run cid).running = true ↔
      row.correlationId = cid ∨ row.running = true := by
    intro row
    unfold ArbsRow.run
    split <;> simp [*]
  ext cid'
  have hmem : cid' ∈ (t.updateArbStatus cid).running ↔
      (cid' = cid ∧ cid ∈ t.ids) ∨ cid' ∈ t.running := by
    rw [mem_running, mem_running, mem_ids]
    constructor
    · rintro ⟨_, hmap, hcid, h⟩
      obtain ⟨row, hrow, rfl⟩ := List.mem_map.mp hmap
      rw [ArbsRow.correlationId_run] at hcid
      rcases (hrun row).mp h with hthis | h
      · exact .inl ⟨hcid.symm.trans hthis, row, hrow, hthis⟩
      · exact .inr ⟨row, hrow, hcid, h⟩
    · -- the updated row stands where the old one stood
      intro h
      have hupdated : ∀ row ∈ t.rows, row.correlationId = cid' →
          row.correlationId = cid ∨ row.running = true →
          ∃ row ∈ (t.updateArbStatus cid).rows, row.correlationId = cid' ∧ row.running = true :=
        fun row hrow hcid h => ⟨row.run cid, List.mem_map_of_mem hrow,
          (ArbsRow.correlationId_run cid row).trans hcid, (hrun row).mpr h⟩
      rcases h with ⟨rfl, row, hrow, hcid⟩ | ⟨row, hrow, hcid, h⟩
      · exact hupdated row hrow hcid (.inl hcid)
      · exact hupdated row hrow hcid (.inr h)
  rw [hmem]
  split
  · -- the id has a row
    rename_i h
    rw [Finset.mem_insert]
    exact or_congr_left (and_iff_left h)
  · rename_i h
    exact or_iff_right fun hand => h hand.2

theorem deleteArbsBulk_nil (t : ArbsTable) : t.deleteArbsBulk [] = t := by
  simp [deleteArbsBulk]

theorem ids_deleteArbsBulk (t : ArbsTable) (cids : List CorrelationId) :
    (t.deleteArbsBulk cids).ids = t.ids.filter (· ∉ cids) := by
  ext cid
  simp only [deleteArbsBulk, mem_ids, Finset.mem_filter, List.mem_filter, decide_eq_true_eq]
  constructor
  · rintro ⟨row, ⟨hrow, hnot⟩, rfl⟩
    exact ⟨⟨row, hrow, rfl⟩, hnot⟩
  · rintro ⟨⟨row, hrow, rfl⟩, hnot⟩
    exact ⟨row, ⟨hrow, hnot⟩, rfl⟩

theorem running_deleteArbsBulk (t : ArbsTable) (cids : List CorrelationId) :
    (t.deleteArbsBulk cids).running = t.running.filter (· ∉ cids) := by
  ext cid
  simp only [deleteArbsBulk, mem_running, Finset.mem_filter, List.mem_filter, decide_eq_true_eq]
  constructor
  · rintro ⟨row, ⟨hrow, hnot⟩, rfl, hrun⟩
    exact ⟨⟨row, hrow, rfl, hrun⟩, hnot⟩
  · rintro ⟨⟨row, hrow, rfl, hrun⟩, hnot⟩
    exact ⟨row, ⟨hrow, hnot⟩, rfl, hrun⟩

end ArbsTable

/-! ## §2 State -/

/-- The messages of the server to the bot. -/
inductive ServerEbo where
  | crossPlatformArbDiscovery (arbs : List DiscoveredArb)
  | confirmedAndRun (correlationId : CorrelationId) (arb : Arb)
  | deleteRunningArbs (correlationIds : List CorrelationId)
  | runningArbsResponse (confirmedAndRun : List Arb) (correlationIds : List CorrelationId)

/-- A request to one of the handlers that use `GrpcComms`. -/
inductive Request where
  /-- `resolveHit`, with the arbs that the selected legs make -/
  | resolveHit (arbs : List DiscoveredArb)
  | resolveArbConfirmAndRun (correlationId : CorrelationId)
  | deleteArb (correlationId : CorrelationId)
  | bulkDeleteArbs (ids : List CorrelationId)

/-- Where a handler is. -/
inductive Handler where
  /-- at the send of the discovered arbs; what follows does not touch the `arbs` table -/
  | sendDiscovery (arbs : List DiscoveredArb)
  /-- `resolveArbConfirmAndRun`, at `GetArbByCorrelationID` -/
  | getArb (correlationId : CorrelationId)
  | sendConfirmedAndRun (correlationId : CorrelationId) (arb : Arb)
  | updateArbStatus (correlationId : CorrelationId)
  /-- `deleteArb` and `bulkDeleteArbs`, at the send -/
  | sendDelete (correlationIds : List CorrelationId)
  | deleteRows (correlationIds : List CorrelationId)

/-- The server. -/
structure App where
  arbs : ArbsTable
  /-- The handlers that are half-way, in no order. -/
  handlers : List Handler := []
  grpcComms : List ServerEbo := []
  /-- The streams whose `Esu` has not returned. -/
  streams : List ℕ := []
  /-- Received on a stream, and not processed yet. -/
  received : List (ℕ × NetworkEbo ClientEbo) := []
  /-- The replies on the `sendCh` of a stream. -/
  sendCh : List (ℕ × ServerEbo) := []

/-- `make(chan *protos.ServerEbo, 512)`. -/
def grpcCommsCapacity : ℕ := 512

/-- The handler of a request; a request without an id is refused. -/
def Request.handler : Request → Option Handler
  | .resolveHit arbs => some (.sendDiscovery arbs)
  | .resolveArbConfirmAndRun cid => if cid = "" then none else some (.getArb cid)
  | .deleteArb cid => if cid = "" then none else some (.sendDelete [cid])
  | .bulkDeleteArbs ids => if ids = [] then none else some (.sendDelete ids)

/-! ## §3 Handlers -/

/-- Send on `GrpcComms`, and go on with `next`; a send that is not `ok` has timed out. -/
def App.send (w : App) (ok : Bool) (ebo : ServerEbo) (next : Option Handler) :
    Option (App × Option Handler) :=
  if ok then
    if w.grpcComms.length < grpcCommsCapacity then
      some ({ w with grpcComms := w.grpcComms ++ [ebo] }, next)
    else none
  else some (w, none)

/-- One step of a handler, and where it is after it; `ok` says whether the statement or the send
    succeeds. -/
def Handler.step (w : App) (ok : Bool) : Handler → Option (App × Option Handler)
  | .sendDiscovery arbs => w.send ok (.crossPlatformArbDiscovery arbs) none
  | .getArb cid =>
      let arb := (w.arbs.getArbByCorrelationID cid).bind ArbsRow.arbs
      some (w, if ok then arb.map (.sendConfirmedAndRun cid) else none)
  -- the command is out before the row is written
  | .sendConfirmedAndRun cid arb =>
      w.send ok (.confirmedAndRun cid arb) (some (.updateArbStatus cid))
  | .updateArbStatus cid =>
      some (if ok then { w with arbs := w.arbs.updateArbStatus cid } else w, none)
  | .sendDelete cids => w.send ok (.deleteRunningArbs cids) (some (.deleteRows cids))
  | .deleteRows cids =>
      some (if ok then { w with arbs := w.arbs.deleteArbsBulk cids } else w, none)

/-- One step of the handler at a position. -/
def App.handlerStep (w : App) (i : ℕ) (ok : Bool) : Option App :=
  w.handlers[i]?.bind fun h =>
    (h.step { w with handlers := w.handlers.eraseIdx i } ok).map fun r =>
      { r.1 with handlers := r.2.toList ++ r.1.handlers }

/-! ## §4 `ProcessEbo` -/

/-- The answer to `GetRunningArbs`: rows that do not unmarshal are skipped. -/
def ArbsTable.runningArbsResponse (t : ArbsTable) : ServerEbo :=
  let found := (t.getRunningArbs .cross).filterMap fun row =>
    row.arbs.map fun arb => (arb, row.correlationId)
  .runningArbsResponse (found.map Prod.fst) (found.map Prod.snd)

/-- `ProcessEbo`.  Here `readBack` is what an arb unmarshals to after it was stored, and `ok`
    what becomes of the statement about an id. -/
def App.processEbo (w : App) (readBack : Arb → Option Arb) (ok : CorrelationId → Bool) :
    NetworkEbo ClientEbo → App × Option ServerEbo
  | .getRunningArbs => (w, if ok "" then some w.arbs.runningArbsResponse else none)
  | .bot ebo =>
      match ebo.action with
      | .crossPlatformArb arb =>
          let row := {
            correlationId := ebo.correlationId
            arbs := readBack arb
            arbType := .cross }
          (if ok ebo.correlationId then { w with arbs := w.arbs.insertNewArb row } else w, none)
      -- one statement for each id; an error is logged
      | .deleteRunningArbs cids =>
          ({ w with arbs := w.arbs.deleteArbsBulk (cids.filter ok) }, none)
      -- these do not touch the `arbs` table
      | .orderSubmitted _ | .excessFillSubmitted _ => (w, none)

/-- Take the entry at a position, if it is the oldest one of its stream. -/
def takeOldest {α : Type} (entries : List (ℕ × α)) (i : ℕ) : Option (ℕ × α) :=
  entries[i]?.filter fun entry => (entries.take i).all fun e => e.1 ≠ entry.1

/-- Put the reply, if there is one, on the `sendCh` of its stream, unless that is gone. -/
def App.reply (w : App) (sid : ℕ) (ebo : Option ServerEbo) : App :=
  if sid ∈ w.streams then { w with sendCh := w.sendCh ++ ebo.toList.map (sid, ·) } else w

/-- Process the message at a position. -/
def App.process (w : App) (readBack : Arb → Option Arb) (i : ℕ) (ok : CorrelationId → Bool) :
    Option App :=
  (takeOldest w.received i).map fun entry =>
    let r := { w with received := w.received.eraseIdx i }.processEbo readBack ok entry.2
    r.1.reply entry.1 r.2

end Degenerate.Web
