import Degenerate.RunningPairs
import Degenerate.Picker.Provenance
import Degenerate.Grpc.Order

/-!
# Trades are Reviewed

A trade takes two choices of the people at the dashboard: a hit is resolved to a
discovered arb, and the arb that the bot made of it is confirmed.  Between the two, and
after them, the arb passes through the bot, the stream, the `arbs` table, the stream again
and the bot, with the messages of other arbs in between.

## Main Results

- `reviewed_step`: no step of the two programs adds an arb that was not chosen twice
- `trades_chosen_twice`: every order of a run is for a leg of such an arb
-/

namespace Degenerate

open Degenerate.Lib Degenerate.Picker Degenerate.Grpc Degenerate.Web

/-! ## §1 Choices -/

/-- A run of the two programs, in which the choices are made. -/
structure Choices where
  start : Deployment
  actions : List Deployment.Action

namespace Choices

variable (ch : Choices)

/-- The run takes the step in the state. -/
def Takes (cfg : DeploymentConfig) (t : Deployment) (a : Deployment.Action) : Prop :=
  ∃ before after, ch.actions = before ++ a :: after ∧
    run (Deployment.step cfg) ch.start before = some t

/-- A row of the table held the arb under the id, at some time of the run. -/
def Held (cfg : DeploymentConfig) (cid : CorrelationId) (arb : Arb) : Prop :=
  ∃ before after t, ch.actions = before ++ after ∧
    run (Deployment.step cfg) ch.start before = some t ∧
    ∃ row ∈ t.app.arbs.rows, row.correlationId = cid ∧ row.arbs = some arb

/-- A hit was resolved to the arb. -/
def Selected (d : DiscoveredArb) : Prop :=
  ∃ ds, .request (.resolveHit ds) ∈ ch.actions ∧ d ∈ ds

/-- The bot made the arb of a selected one, in the step of the run that resolves it. -/
def Proposed (cfg : DeploymentConfig) (cid : CorrelationId) (arb : Arb) : Prop :=
  ∃ t d c ebo, ch.Selected d ∧ ch.Takes cfg t (.bot (.comms c)) ∧ t.bot.ResolvesHit d ∧
    resolveDiscovered cfg.picker.generateUuidV5 c.markets c.utcNow d = some ebo ∧
    ebo.correlationId = cid ∧ ebo.action = .crossPlatformArb arb

/-- The arb is in a row that the run started with, or is what is read back of one that was
proposed. -/
def Storable (cfg : DeploymentConfig) (cid : CorrelationId) (arb : Arb) : Prop :=
  (∃ row ∈ ch.start.app.arbs.rows, row.correlationId = cid ∧ row.arbs = some arb) ∨
    ∃ proposal, ch.Proposed cfg cid proposal ∧ cfg.readBack proposal = some arb

/-- The table held the arb, and could only hold it for one of those reasons. -/
def Stored (cfg : DeploymentConfig) (cid : CorrelationId) (arb : Arb) : Prop :=
  ch.Held cfg cid arb ∧ ch.Storable cfg cid arb

/-- The pair was confirmed to run, in this run or in the earlier one. -/
def Approved (cid : CorrelationId) : Prop :=
  (∃ row ∈ ch.start.app.arbs.rows, row.correlationId = cid ∧ row.running = true) ∨
    .request (.resolveArbConfirmAndRun cid) ∈ ch.actions

/-- The endpoints of an execution of the run. -/
def Venue (venue : OrderVenue) : Prop :=
  ∃ ans, .bot (.execReceive ans) ∈ ch.actions ∧
    venue ∈ [ans.anchorVenue, ans.matchVenue, ans.hedgeVenue]

/-- What the bot may act on. -/
def sources (cfg : DeploymentConfig) : Sources where
  selected := ch.Selected
  proposed := ch.Proposed cfg
  confirmed cid arb := ch.Approved cid ∧ ch.Stored cfg cid arb
  venue := ch.Venue

variable {ch}

theorem Takes.mem {cfg : DeploymentConfig} {t : Deployment} {a : Deployment.Action}
    (h : ch.Takes cfg t a) : a ∈ ch.actions := by
  obtain ⟨before, after, hactions, -⟩ := h
  rw [hactions]
  exact List.mem_append_right _ List.mem_cons_self

/-- The rows of a state of the run are held. -/
theorem Takes.held {cfg : DeploymentConfig} {t : Deployment} {a : Deployment.Action}
    (h : ch.Takes cfg t a) {row : ArbsRow} (hrow : row ∈ t.app.arbs.rows) {arb : Arb}
    (harb : row.arbs = some arb) : ch.Held cfg row.correlationId arb := by
  obtain ⟨before, after, hactions, hrun⟩ := h
  exact ⟨before, a :: after, t, hactions, hrun, row, hrow, rfl, harb⟩

theorem Takes.closed {cfg : DeploymentConfig} {t : Deployment} {c : Picker.Choice}
    (h : ch.Takes cfg t (.bot (.comms c))) :
    (ch.sources cfg).Closed cfg.picker.generateUuidV5 t.bot c := by
  intro d ebo arb hd hresolves hebo harb
  exact ⟨t, d, c, ebo, hd, h, hresolves, hebo, rfl, harb⟩

end Choices

/-! ## §2 The server -/

/-- A handler acts on choices. -/
def Web.Handler.Reviewed (src : Sources) (approved : CorrelationId → Prop) : Handler → Prop
  | .sendDiscovery arbs => ∀ d ∈ arbs, src.selected d
  | .getArb cid => approved cid
  | .sendConfirmedAndRun cid arb => src.confirmed cid arb
  | .updateArbStatus cid => approved cid
  | .sendDelete _ | .deleteRows _ => True

/-- A row holds an arb that it may hold, and runs if it was approved. -/
structure Web.ArbsRow.Reviewed (cfg : DeploymentConfig) (ch : Choices) (row : ArbsRow) : Prop where
  storable : ∀ arb, row.arbs = some arb → ch.Storable cfg row.correlationId arb
  running : row.running = true → ch.Approved row.correlationId

/-- A message to the server proposes what the bot may propose. -/
def Grpc.NetworkEbo.Reviewed (src : Sources) (ebo : NetworkEbo ClientEbo) : Prop :=
  ∀ e, ebo = .bot e → e.Traced src

/-- Everything that the two programs hold was chosen. -/
structure Reviewed (cfg : DeploymentConfig) (ch : Choices) (d : Deployment) : Prop where
  bot : Traced (ch.sources cfg) cfg.picker.generateUuidV5 d.bot
  rows : ∀ row ∈ d.app.arbs.rows, row.Reviewed cfg ch
  handlers : ∀ h ∈ d.app.handlers, h.Reviewed (ch.sources cfg) ch.Approved
  down : ∀ ebo ∈ d.down, ebo.toComms.From (ch.sources cfg)
  up : ∀ ebo ∈ d.up, ebo.Reviewed (ch.sources cfg)

variable {cfg : DeploymentConfig} {ch : Choices} {d d' : Deployment}

theorem Deployment.mem_down {ebo : ServerEbo} : ebo ∈ d.down ↔
    ebo ∈ d.app.grpcComms ∨ ebo ∈ d.app.sendCh.map Prod.snd ∨ ebo ∈ d.client.inbound := by
  rw [Deployment.down, Multiset.mem_add, Multiset.mem_add, or_assoc]
  exact Iff.rfl

theorem Deployment.mem_up {ebo : NetworkEbo ClientEbo} : ebo ∈ d.up ↔
    ebo ∈ d.client.outbound ∨ ebo ∈ d.app.received.map Prod.snd :=
  Multiset.mem_add

theorem reviewed_start (cfg : DeploymentConfig) (tradeFraction minTradeSize : ℚ) (arbs : ArbsTable)
    (actions : List Deployment.Action) :
    Reviewed cfg ⟨Deployment.start tradeFraction minTradeSize arbs, actions⟩
      (Deployment.start tradeFraction minTradeSize arbs) where
  bot := traced_init ..
  rows row hrow :=
    ⟨fun _ harb => .inl ⟨row, hrow, rfl, harb⟩, fun hrun => .inl ⟨row, hrow, rfl, hrun⟩⟩
  handlers _ hh := absurd hh List.not_mem_nil
  down ebo hebo := absurd hebo (Multiset.notMem_zero ebo)
  up ebo hebo := absurd hebo (Multiset.notMem_zero ebo)

/-! ## §3 The table -/

/-- A row that is inserted, or was there. -/
theorem mem_insertNewArb {t : ArbsTable} {row row' : ArbsRow}
    (h : row' ∈ (t.insertNewArb row).rows) : row' = row ∨ row' ∈ t.rows := by
  unfold ArbsTable.insertNewArb at h
  split at h
  · exact .inr h
  · exact List.mem_cons.mp h

/-- An approved row may run. -/
theorem Web.ArbsRow.Reviewed.run {row : ArbsRow} (hrow : row.Reviewed cfg ch) {cid : CorrelationId}
    (hcid : ch.Approved cid) : (row.run cid).Reviewed cfg ch := by
  unfold ArbsRow.run
  split
  · rename_i hthis
    exact ⟨hrow.storable, fun _ => hthis ▸ hcid⟩
  · exact hrow

/-- The rows of the answer to a request for the running arbs were approved. -/
theorem from_runningArbsResponse {t : ArbsTable} (hrows : ∀ row ∈ t.rows, row.Reviewed cfg ch)
    (hheld : ∀ row ∈ t.rows, ∀ arb, row.arbs = some arb → ch.Held cfg row.correlationId arb) :
    t.runningArbsResponse.toComms.From (ch.sources cfg) where
  found := by
    intro a ha
    simp only [ArbsTable.runningArbsResponse, ServerEbo.toComms, CommsMessage.found,
      ← List.zip_of_prod rfl rfl] at ha
    obtain ⟨row, hrow, hfound⟩ := List.mem_filterMap.mp ha
    obtain ⟨arb, harb, rfl⟩ := Option.map_eq_some_iff.mp hfound
    obtain ⟨hrow, hrunning⟩ := List.mem_filter.mp hrow
    rw [Bool.and_eq_true] at hrunning
    exact ⟨(hrows row hrow).running hrunning.2, hheld row hrow arb harb,
      (hrows row hrow).storable arb harb⟩
  discovered d hd := absurd hd List.not_mem_nil

/-! ## §4 One step -/

/-- The server with other rows, handlers and messages, all of which were chosen. -/
theorem Reviewed.withApp (hr : Reviewed cfg ch d) {app : App}
    (hrows : ∀ row ∈ app.arbs.rows, row.Reviewed cfg ch)
    (hhandlers : ∀ h ∈ app.handlers, h.Reviewed (ch.sources cfg) ch.Approved)
    (hcomms : ∀ ebo ∈ app.grpcComms, ebo.toComms.From (ch.sources cfg))
    (hsend : ∀ ebo ∈ app.sendCh.map Prod.snd, ebo.toComms.From (ch.sources cfg))
    (hreceived : ∀ ebo ∈ app.received.map Prod.snd, ebo.Reviewed (ch.sources cfg)) :
    Reviewed cfg ch { d with app } where
  bot := hr.bot
  rows := hrows
  handlers := hhandlers
  down ebo hebo := by
    rcases Deployment.mem_down.mp hebo with h | h | h
    · exact hcomms ebo h
    · exact hsend ebo h
    · exact hr.down ebo (Deployment.mem_down.mpr (.inr (.inr h)))
  up ebo hebo := by
    rcases Deployment.mem_up.mp hebo with h | h
    · exact hr.up ebo (Deployment.mem_up.mpr (.inl h))
    · exact hreceived ebo h

theorem Reviewed.grpcComms (hr : Reviewed cfg ch d) :
    ∀ ebo ∈ d.app.grpcComms, ebo.toComms.From (ch.sources cfg) :=
  fun ebo hebo => hr.down ebo (Deployment.mem_down.mpr (.inl hebo))

theorem Reviewed.sendCh (hr : Reviewed cfg ch d) :
    ∀ ebo ∈ d.app.sendCh.map Prod.snd, ebo.toComms.From (ch.sources cfg) :=
  fun ebo hebo => hr.down ebo (Deployment.mem_down.mpr (.inr (.inl hebo)))

theorem Reviewed.received (hr : Reviewed cfg ch d) :
    ∀ ebo ∈ d.app.received.map Prod.snd, ebo.Reviewed (ch.sources cfg) :=
  fun ebo hebo => hr.up ebo (Deployment.mem_up.mpr (.inr hebo))

/-- A send of a handler puts its message on the channel, or gives up. -/
theorem Reviewed.send (hr : Reviewed cfg ch d) {handlers : List Handler}
    (hhandlers : ∀ h ∈ handlers, h.Reviewed (ch.sources cfg) ch.Approved) {ok : Bool}
    {ebo : ServerEbo} {next : Option Handler} {r : App × Option Handler}
    (hebo : ebo.toComms.From (ch.sources cfg))
    (hnext : ∀ h, next = some h → h.Reviewed (ch.sources cfg) ch.Approved)
    (h : ({ d.app with handlers } : App).send ok ebo next = some r) :
    Reviewed cfg ch { d with app := { r.1 with handlers := r.2.toList ++ r.1.handlers } } := by
  rcases Deployment.send_cases h with ⟨-, rfl⟩ | ⟨-, rfl⟩
  · refine hr.withApp hr.rows (fun h' hh => ?_) (fun ebo' hebo' => ?_) hr.sendCh hr.received
    · rcases List.mem_append.mp hh with hh | hh
      · exact hnext h' (Option.mem_toList.mp hh)
      · exact hhandlers h' hh
    · rcases List.mem_append.mp hebo' with h | h
      · exact hr.grpcComms ebo' h
      · obtain rfl := List.mem_singleton.mp h
        exact hebo
  · exact hr.withApp hr.rows hhandlers hr.grpcComms hr.sendCh hr.received

/-- **A step of a handler** hands on what was chosen. -/
theorem Reviewed.handlerStep (hr : Reviewed cfg ch d)
    (hheld : ∀ row ∈ d.app.arbs.rows, ∀ arb, row.arbs = some arb →
      ch.Held cfg row.correlationId arb)
    {i : ℕ} {ok : Bool} {app : App} (h : d.app.handlerStep i ok = some app) :
    Reviewed cfg ch { d with app } := by
  obtain ⟨handler, hi, h⟩ := Option.bind_eq_some_iff.mp h
  obtain ⟨r, hstep, rfl⟩ := Option.map_eq_some_iff.mp h
  have hhandler := hr.handlers handler (List.mem_of_getElem? hi)
  have hrest : ∀ h' ∈ d.app.handlers.eraseIdx i, h'.Reviewed (ch.sources cfg) ch.Approved :=
    fun h' hh => hr.handlers h' (List.mem_of_mem_eraseIdx hh)
  cases handler with
  | sendDiscovery arbs =>
    have hebo : (ServerEbo.crossPlatformArbDiscovery arbs).toComms.From (ch.sources cfg) :=
      ⟨fun a ha => absurd ha List.not_mem_nil, hhandler⟩
    -- the arbs are those of the hit that was resolved; nothing follows the send
    exact hr.send hrest hebo (fun h' hh => by cases hh) hstep
  | getArb cid =>
    cases hstep
    refine hr.withApp hr.rows (fun h' hh => ?_) hr.grpcComms hr.sendCh hr.received
    rcases List.mem_append.mp hh with hh | hh
    · -- the row that is found has the id
      split at hh
      · obtain ⟨arb, harb, rfl⟩ := Option.map_eq_some_iff.mp (Option.mem_toList.mp hh)
        obtain ⟨row, hrow, harb⟩ := Option.bind_eq_some_iff.mp harb
        have hcid : row.correlationId = cid := by simpa using List.find?_some hrow
        have hmem := List.mem_of_find?_eq_some hrow
        have hstored : ch.Stored cfg row.correlationId arb :=
          ⟨hheld row hmem arb harb, (hr.rows row hmem).storable arb harb⟩
        rw [hcid] at hstored
        exact ⟨hhandler, hstored⟩
      · cases hh
    · exact hrest h' hh
  | sendConfirmedAndRun cid arb =>
    -- the status is updated only after the arb is handed to the client
    refine hr.send hrest ⟨fun a ha => ?_, fun d hd => absurd hd List.not_mem_nil⟩ ?_ hstep
    · obtain rfl := List.mem_singleton.mp ha
      exact hhandler
    · intro h' hh
      cases hh
      exact hhandler.1
  | updateArbStatus cid =>
    cases hstep
    cases ok with
    | true =>
      refine hr.withApp (fun row hrow => ?_) hrest hr.grpcComms hr.sendCh hr.received
      obtain ⟨row', hrow', rfl⟩ := List.mem_map.mp hrow
      -- a row is set running by the handler of its confirmation
      exact (hr.rows row' hrow').run hhandler
    | false => exact hr.withApp hr.rows hrest hr.grpcComms hr.sendCh hr.received
  | sendDelete cids =>
    refine hr.send hrest ⟨fun a ha => absurd ha List.not_mem_nil,
      fun d hd => absurd hd List.not_mem_nil⟩ ?_ hstep
    intro h' hh
    cases hh
    trivial
  | deleteRows cids =>
    cases hstep
    cases ok with
    | true =>
      refine hr.withApp (fun row hrow => ?_) hrest hr.grpcComms hr.sendCh hr.received
      exact hr.rows row (List.mem_filter.mp hrow).1
    | false => exact hr.withApp hr.rows hrest hr.grpcComms hr.sendCh hr.received

/-- **The processing of a message** stores what was proposed, and replies with what was
    approved. -/
theorem Reviewed.process (hr : Reviewed cfg ch d)
    (hheld : ∀ row ∈ d.app.arbs.rows, ∀ arb, row.arbs = some arb →
      ch.Held cfg row.correlationId arb)
    {i : ℕ} {ok : CorrelationId → Bool} {app : App}
    (h : d.app.process cfg.readBack i ok = some app) : Reviewed cfg ch { d with app } := by
  obtain ⟨entry, hi, rfl⟩ := Option.map_eq_some_iff.mp h
  have hrest : ∀ ebo ∈ (d.app.received.eraseIdx i).map Prod.snd, ebo.Reviewed (ch.sources cfg) := by
    intro ebo hebo
    obtain ⟨e, he, rfl⟩ := List.mem_map.mp hebo
    exact hr.received e.2 (List.mem_map_of_mem (List.mem_of_mem_eraseIdx he))
  have hentry : entry.2.Reviewed (ch.sources cfg) :=
    hr.received entry.2 (List.mem_map_of_mem (List.mem_of_getElem?
      (Option.filter_eq_some_iff.mp hi).1))
  -- other rows, and perhaps a reply
  have hafter : ∀ (w : App) (reply : Option ServerEbo),
      (∀ row ∈ w.arbs.rows, row.Reviewed cfg ch) → w.handlers = d.app.handlers →
      w.grpcComms = d.app.grpcComms → w.sendCh = d.app.sendCh →
      w.received = d.app.received.eraseIdx i →
      (∀ ebo, reply = some ebo → ebo.toComms.From (ch.sources cfg)) →
      Reviewed cfg ch { d with app := w.reply entry.1 reply } := by
    intro w reply hrows hhandlers hcomms hsend hreceived hreply
    have hw : Reviewed cfg ch { d with app := w } :=
      hr.withApp hrows (hhandlers ▸ hr.handlers) (hcomms ▸ hr.grpcComms) (hsend ▸ hr.sendCh)
        (hreceived ▸ hrest)
    unfold App.reply
    split
    · refine hw.withApp hw.rows hw.handlers hw.grpcComms (fun ebo hebo => ?_) hw.received
      rw [List.map_append, List.mem_append] at hebo
      rcases hebo with hebo | hebo
      · exact hw.sendCh ebo hebo
      · simp only [List.map_map, List.mem_map, Option.mem_toList] at hebo
        obtain ⟨ebo', hebo', rfl⟩ := hebo
        exact hreply ebo' hebo'
    · exact hw
  have hnone : ∀ ebo : ServerEbo, (none : Option ServerEbo) = some ebo →
      ebo.toComms.From (ch.sources cfg) := fun ebo hebo => by cases hebo
  cases hebo : entry.2 with
  | getRunningArbs =>
    refine hafter _ _ hr.rows rfl rfl rfl rfl fun ebo hreply => ?_
    obtain ⟨-, hreply⟩ := Option.ite_none_right_eq_some.mp hreply
    cases hreply
    exact from_runningArbsResponse hr.rows hheld
  | bot ebo =>
    -- only an arb that was discovered adds a row; every other report drops rows or changes none
    have htraced := hentry ebo hebo
    simp only [App.processEbo]
    split
    · rename_i arb harb
      split
      · refine hafter _ _ (fun row hrow => ?_) rfl rfl rfl rfl hnone
        rcases mem_insertNewArb hrow with rfl | hrow
        · exact ⟨fun arb' h => .inr ⟨arb, htraced arb harb, h⟩, fun hrun => by cases hrun⟩
        · exact hr.rows row hrow
      · exact hafter _ _ hr.rows rfl rfl rfl rfl hnone
    · refine hafter _ _ (fun row hrow => ?_) rfl rfl rfl rfl hnone
      exact hr.rows row (List.mem_filter.mp hrow).1
    · exact hafter _ _ hr.rows rfl rfl rfl rfl hnone
    · exact hafter _ _ hr.rows rfl rfl rfl rfl hnone

/-- The client with other messages on their way, all of which were chosen. -/
theorem Reviewed.withClient (hr : Reviewed cfg ch d) {client : GrpcClient ClientEbo ServerEbo}
    (hin : ∀ ebo ∈ client.inbound, ebo.toComms.From (ch.sources cfg))
    (hout : ∀ ebo ∈ client.outbound, ebo.Reviewed (ch.sources cfg)) :
    Reviewed cfg ch { d with client } where
  bot := hr.bot
  rows := hr.rows
  handlers := hr.handlers
  down ebo hebo := by
    rcases Deployment.mem_down.mp hebo with h | h | h
    · exact hr.grpcComms ebo h
    · exact hr.sendCh ebo h
    · exact hin ebo h
  up ebo hebo := (Deployment.mem_up.mp hebo).elim (hout ebo) (hr.received ebo)

/-- A step of the client hands on what it is given. -/
theorem Reviewed.clientStep (hr : Reviewed cfg ch d) {a : Grpc.Action ClientEbo ServerEbo}
    {client : GrpcClient ClientEbo ServerEbo} (h : d.client.step a = some client)
    (hreplied : ∀ ebo ∈ a.replied, ebo.toComms.From (ch.sources cfg))
    (hadded : ∀ ebo ∈ a.added, ebo.Reviewed (ch.sources cfg)) :
    Reviewed cfg ch { d with client } := by
  apply hr.withClient
  · intro ebo hebo
    rcases GrpcClient.mem_inbound_step h hebo with hebo | hebo
    · exact hr.down ebo (Deployment.mem_down.mpr (.inr (.inr hebo)))
    · exact hreplied ebo hebo
  · intro ebo hebo
    rcases GrpcClient.mem_outbound_step h (.inl hebo) with hebo | hebo
    · exact hr.up ebo (Deployment.mem_up.mpr (.inl hebo))
    · exact hadded ebo hebo

/-- What the server sends on a stream arrives, or is lost. -/
theorem Reviewed.streamSend (hr : Reviewed cfg ch d) {sid : ℕ} {ebo : ServerEbo}
    {client : GrpcClient ClientEbo ServerEbo} (hebo : ebo.toComms.From (ch.sources cfg))
    (h : d.streamSend sid ebo = some client) : Reviewed cfg ch { d with client } := by
  unfold Deployment.streamSend at h
  split at h
  · refine hr.clientStep h (fun ebo' hebo' => ?_) fun ebo' hebo' => absurd hebo' List.not_mem_nil
    obtain rfl := List.mem_singleton.mp hebo'
    exact hebo
  · cases h
    exact hr

/-- The client's own request proposes nothing. -/
theorem reviewed_added {a : Grpc.Action ClientEbo ServerEbo} (hbot : ∀ ebo, a ≠ .enqueue ebo)
    (src : Sources) : ∀ ebo ∈ a.added, ebo.Reviewed src := by
  intro ebo hebo
  cases a with
  | enqueue ebo' => exact absurd rfl (hbot ebo')
  | request =>
    obtain rfl := List.mem_singleton.mp hebo
    intro e he
    cases he
  | _ => exact absurd hebo List.not_mem_nil

/-- A message that names no arb. -/
theorem from_venue {msg : CommsMessage} {src : Sources} (hfound : msg.found = [])
    (hdiscovered : msg.discovered = []) : msg.From src where
  found a ha := by
    rw [hfound] at ha
    cases ha
  discovered d hd := by
    rw [hdiscovered] at hd
    cases hd

/-- **No step** of the two programs adds an arb that was not chosen. -/
theorem reviewed_step (hr : Reviewed cfg ch d) {a : Deployment.Action} (htakes : ch.Takes cfg d a)
    (hstep : Deployment.step cfg d a = some d') : Reviewed cfg ch d' := by
  have ha := htakes.mem
  cases Deployment.step_moves hstep with
  | @bot a bot hown h =>
    have hmsg : ∀ msg, a = .receive msg → msg.From (ch.sources cfg) := by
      rintro msg rfl
      -- a message of a venue is about no arb
      cases msg with
      | polymarket _ => exact from_venue rfl rfl
      | kalshi _ => exact from_venue rfl rfl
      | _ => cases hown
    have hcomms : ∀ c, a = .comms c →
        (ch.sources cfg).Closed cfg.picker.generateUuidV5 d.bot c := by
      rintro c rfl
      exact htakes.closed
    have hans : ∀ ans, a = .execReceive ans → (ch.sources cfg).Answered ans := by
      rintro ans rfl
      exact fun venue hvenue => ⟨ans, ha, hvenue⟩
    exact { hr with bot := hr.bot.step hmsg hcomms hans h }
  | @receive ebo rest bot hin h =>
    have hebo : ebo.toComms.From (ch.sources cfg) := by
      refine hr.down ebo (Deployment.mem_down.mpr (.inr (.inr ?_)))
      simp [GrpcClient.inbound, hin]
    have hbot := hr.bot.step (fun msg hmsg => by cases hmsg; exact hebo)
      (fun c hc => by cases hc) (fun ans hans => by cases hans) h
    -- the message is taken off the channel
    have hafter : Reviewed cfg ch { d with bot } := { hr with bot := hbot }
    refine hafter.withClient ?_ fun ebo' hebo' => hr.up ebo' (Deployment.mem_up.mpr (.inl hebo'))
    intro ebo' hebo'
    refine hr.down ebo' (Deployment.mem_down.mpr (.inr (.inr ?_)))
    simp only [GrpcClient.inbound, hin, List.cons_append, Multiset.mem_coe] at hebo' ⊢
    exact List.mem_cons_of_mem _ hebo'
  | @forward ebo rest client hout h =>
    have houtbox : ∀ ebo' ∈ ebo :: rest, ebo'.Traced (ch.sources cfg) := hout ▸ hr.bot.outbox
    have hbot : Reviewed cfg ch { d with bot := { d.bot with outbox := rest } } :=
      { hr with bot := { hr.bot with
        outbox := fun ebo' h => houtbox ebo' (List.mem_cons_of_mem _ h) } }
    refine hbot.clientStep h (fun ebo' hebo' => absurd hebo' List.not_mem_nil) fun ebo' hebo' => ?_
    obtain rfl := List.mem_singleton.mp hebo'
    intro e he
    cases he
    exact houtbox ebo List.mem_cons_self
  | @client a client hbot hreplied h =>
    obtain ⟨harbs, hhandlers, hcomms, hsend, hreceived⟩ := Deployment.observe_frame d.app d.client a
    have hclient := hr.clientStep h (fun ebo hebo => by rw [hreplied] at hebo; cases hebo)
      (reviewed_added hbot (ch.sources cfg))
    refine hclient.withApp (harbs ▸ hr.rows) (hhandlers ▸ hr.handlers) (hcomms ▸ hr.grpcComms)
      (hsend ▸ hr.sendCh) fun ebo hebo => ?_
    -- a message arrives that was on its way
    rw [hreceived, List.mem_append] at hebo
    rcases hebo with hebo | hebo
    · exact hr.received ebo hebo
    · rcases GrpcClient.mem_outbound_step h (.inr hebo) with hebo | hebo
      · exact hr.up ebo (Deployment.mem_up.mpr (.inl hebo))
      · exact reviewed_added hbot (ch.sources cfg) ebo hebo
  | @request r handler hr' =>
    refine hr.withApp hr.rows (fun h' hh => ?_) hr.grpcComms hr.sendCh hr.received
    rcases List.mem_cons.mp hh with rfl | hh
    · -- the choice is made here
      cases r with
      | resolveHit ds =>
        cases hr'
        exact fun d hd => ⟨ds, ha, hd⟩
      | resolveArbConfirmAndRun cid =>
        obtain ⟨-, hr'⟩ := Option.ite_none_left_eq_some.mp hr'
        cases hr'
        exact .inr ha
      | deleteArb cid =>
        obtain ⟨-, hr'⟩ := Option.ite_none_left_eq_some.mp hr'
        cases hr'
        trivial
      | bulkDeleteArbs ids =>
        obtain ⟨-, hr'⟩ := Option.ite_none_left_eq_some.mp hr'
        cases hr'
        trivial
    · exact hr.handlers h' hh
  | handler h => exact hr.handlerStep (fun _ hrow _ => htakes.held hrow) h
  | @sendCommand sid ebo rest client hcomms h =>
    have hqueue : ∀ ebo' ∈ ebo :: rest, ebo'.toComms.From (ch.sources cfg) :=
      hcomms ▸ hr.grpcComms
    exact (hr.streamSend (hqueue ebo List.mem_cons_self) h).withApp hr.rows hr.handlers
      (fun ebo' h => hqueue ebo' (List.mem_cons_of_mem _ h)) hr.sendCh hr.received
  | @sendReply i entry client hentry h =>
    have hmem := List.mem_of_getElem? (Option.filter_eq_some_iff.mp hentry).1
    refine (hr.streamSend (hr.sendCh entry.2 (List.mem_map_of_mem hmem)) h).withApp hr.rows
      hr.handlers hr.grpcComms (fun ebo hebo => ?_) hr.received
    obtain ⟨e, he, rfl⟩ := List.mem_map.mp hebo
    exact hr.sendCh e.2 (List.mem_map_of_mem (List.mem_of_mem_eraseIdx he))
  | esuReturns hgone =>
    refine hr.withApp hr.rows hr.handlers hr.grpcComms (fun ebo hebo => ?_) hr.received
    obtain ⟨e, he, rfl⟩ := List.mem_map.mp hebo
    exact hr.sendCh e.2 (List.mem_map_of_mem (List.mem_filter.mp he).1)
  | process h => exact hr.process (fun _ hrow _ => htakes.held hrow) h

/-! ## §5 Runs -/

theorem reviewed_run {tradeFraction minTradeSize : ℚ} {arbs : ArbsTable}
    {as : List Deployment.Action} (hrun : run (Deployment.step cfg)
      (Deployment.start tradeFraction minTradeSize arbs) as = some d) :
    Reviewed cfg ⟨Deployment.start tradeFraction minTradeSize arbs, as⟩ d := by
  -- every part of the run is reviewed by the choices of the whole
  have hpart : ∀ after, as = as ++ after →
      Reviewed cfg ⟨Deployment.start tradeFraction minTradeSize arbs, as⟩ d := by
    refine run_invariant_prefix (I := fun before d => ∀ after, as = before ++ after →
      Reviewed cfg ⟨Deployment.start tradeFraction minTradeSize arbs, as⟩ d) ?_ ?_ hrun
    · exact fun _ _ => reviewed_start cfg tradeFraction minTradeSize arbs as
    · intro before d a d' hbefore hr hstep after has
      have has' : as = before ++ a :: after := by simpa using has
      exact reviewed_step (hr _ has') ⟨before, after, has', hbefore⟩ hstep
  exact hpart [] (List.append_nil as).symm

/-- **Trades are chosen twice**: in every run, each order that the executor is about to place, a
    hedge included, is for a leg of an arb that a row of the table held under the id of the pair,
    and the pair was confirmed.  The arb is one that the run started with, or what is read back of
    the arb that the bot made of a hit that was resolved, in the step that resolved it.  The leg
    may have another close time. -/
theorem trades_chosen_twice {tradeFraction minTradeSize : ℚ} {arbs : ArbsTable}
    {as : List Deployment.Action} (hrun : run (Deployment.step cfg)
      (Deployment.start tradeFraction minTradeSize arbs) as = some d)
    {cid : CorrelationId} {effects : List ExecEffect}
    (hpc : d.bot.exec.pc = .handling cid effects) {e : ExecEffect} (he : e ∈ effects)
    (horder : e.isOrder = true) :
    (⟨Deployment.start tradeFraction minTradeSize arbs, as⟩ : Choices).Approved cid ∧
      ∃ arb pair leg,
        (⟨Deployment.start tradeFraction minTradeSize arbs, as⟩ : Choices).Stored cfg cid arb ∧
        ArbMinifiedInfoPair.tryFrom arb = .ok pair ∧
        (SameLeg pair.anchor leg ∨ SameLeg pair.match leg) ∧
        e.OrderFor (⟨Deployment.start tradeFraction minTradeSize arbs, as⟩ : Choices).Venue
          cfg.picker.generateUuidV5 cid leg := by
  obtain ⟨arb, pair, leg, ⟨happroved, hstored⟩, hpair, hleg, ho⟩ :=
    (reviewed_run hrun).bot.order hpc he horder
  exact ⟨happroved, arb, pair, leg, hstored, hpair, hleg, ho⟩

/-! ### From a hit to a trade -/

/-- Venues whose markets close far from now. -/
def closingVenue : MarketVenue where
  getMarket ticker := .ok { marketId := ticker, closeTimeMs := 10 ^ 12, platform := 1 }
  getMarketBySlug slug :=
    .ok ({ marketId := slug, closeTimeMs := 10 ^ 12, platform := 0 }, some "[11, 22]")
  fromJson text := if text = "[11, 22]" then some ["11", "22"] else none

/-- A hit is resolved, looked up by the bot in these markets and stored. -/
def resolveHitSteps (ds : List DiscoveredArb) (markets : MarketVenue) : List Deployment.Action :=
  [.request (.resolveHit ds), .handler 0 true, .sendCommand 0] ++ Deployment.deliverSteps ++
    List.replicate 2 (.bot (.comms { markets })) ++
    [.forward, .client .recv, .client .send, .client .transmit, .client .deliver,
      .process 0 fun _ => true]

/-- The stored arb is confirmed, registered, priced and handed to the executor. -/
def tradeSteps (cid : CorrelationId) (ans : ExecAnswers) : List Deployment.Action :=
  .request (.resolveArbConfirmAndRun cid) :: List.replicate 3 (.handler 0 true) ++
    [.sendCommand 0] ++ Deployment.deliverSteps ++ List.replicate 9 (.bot commsOne) ++
    (seedSteps cid).map .bot ++ [.bot commsOne, .bot commsOne, .bot refreshFunds,
      .bot (.execReceive ans)]

/-- The whole way of an arb, from its hit to its first order. -/
def sampleTradeSteps : List Deployment.Action :=
  Deployment.connectSteps ++ resolveHitSteps [kalshiAgainstSlug 0] closingVenue ++
    tradeSteps "K:11" (filledAnswers "50.00" 0)

/-- The sample configuration with prices fetched at execution. -/
def httpDeployment : DeploymentConfig := { Deployment.sampleDeployment with picker := httpConfig }

/-- The executor is about to place an order for the pair. -/
def Picker.ExecPc.orders (cid : CorrelationId) : ExecPc → Bool
  | .handling cid' effects => cid' = cid && effects.any ExecEffect.isOrder
  | _ => false

theorem Picker.ExecPc.exists_of_orders {pc : ExecPc} {cid : CorrelationId}
    (h : pc.orders cid = true) :
    ∃ effects e, pc = .handling cid effects ∧ e ∈ effects ∧ e.isOrder = true := by
  cases pc with
  | handling cid' effects =>
    rw [orders, Bool.and_eq_true, decide_eq_true_eq, List.any_eq_true] at h
    obtain ⟨rfl, e, he, horder⟩ := h
    exact ⟨effects, e, rfl, he, horder⟩
  | _ => cases h

/-- From an empty table to the first order. -/
theorem trades_chosen_twice_sample : ∃ d effects e,
    run (Deployment.step httpDeployment)
      (Deployment.start (1 / 5) 2 ⟨[], List.nodup_nil⟩) sampleTradeSteps = some d ∧
    d.bot.exec.pc = .handling "K:11" effects ∧ e ∈ effects ∧ e.isOrder = true ∧
    (⟨Deployment.start (1 / 5) 2 ⟨[], List.nodup_nil⟩, sampleTradeSteps⟩ : Choices).Approved
      "K:11" := by
  have hrun : (run (Deployment.step httpDeployment)
      (Deployment.start (1 / 5) 2 ⟨[], List.nodup_nil⟩) sampleTradeSteps).any
        (fun d => d.bot.exec.pc.orders "K:11") = true := by decide +kernel
  obtain ⟨d, hd, hcheck⟩ := (Option.any_eq_true _ _).mp hrun
  obtain ⟨effects, e, hpc, he, horder⟩ := ExecPc.exists_of_orders hcheck
  exact ⟨d, effects, e, hd, hpc, he, horder, (trades_chosen_twice hd hpc he horder).1⟩

end Degenerate
