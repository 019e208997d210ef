import Degenerate.VectorStore
import Degenerate.Lib.Traversal

/-!
# Search-and-Insert Calls

One call of `search_and_insert` or `multiple_search_and_insert` (`vector_store.rs`) with all
that can fail in it.  The embedding model may refuse a text, or return more or fewer vectors
than it was given texts; Qdrant may refuse a query or an insertion, and what it answers may
hold payloads that are not payloads of markets.

A batch handles its markets in parallel lists (values, filters, payloads, points, vectors,
queries and responses) which the code recombines by position.  Although the only check is that
there are as many responses as markets, a position never changes its market on the way.

The single call builds its hit before it inserts the point.  The batch inserts first, so a
response that does not convert ends the call when all of its markets are already stored.

## Main Results

- `multipleSearchAndInsert_aligned`: the hits and points of a batch, market by market
- `failed_keeps_store_iff`: when a call that fails has stored nothing
-/

namespace Degenerate.SearchCalls

open Degenerate.Lib
open Degenerate.VectorStore (Filter CrossPlatformHit similarityScoreThreshold)

/-! ## §1 Messages of the store -/

/-- `QueryPoints`, with the fields that the searches set. -/
structure QueryPoints (V : Type) where
  vector : V
  scoreThreshold : F32
  limit : ℕ
  withPayload : Bool
  filter : Option Filter
  deriving DecidableEq

/-- `PointStruct`, whose payload is a map of values. -/
structure PointStruct (V P : Type) where
  id : String
  vectors : V
  payload : P
  deriving DecidableEq

/-- `ScoredPoint`. -/
structure ScoredPoint (P : Type) where
  score : F32
  payload : P
  deriving DecidableEq

/-- What a call takes from its caller, from the embedding model and from Qdrant. -/
structure Services (T V P : Type) where
  formats : Formats
  /-- `T: TryInto<QdrantPointData>`. -/
  tryInto : T → Except String QdrantPointData
  /-- `SentenceTransformer::embed`, on a thread of its own. -/
  embed : List String → Except String (List V)
  /-- `Payload::try_from(json!(payload))`. -/
  toPayload : QdrantPayload → Except String P
  /-- `TryFrom<HashMap<String, Value>> for QdrantPayload`. -/
  fromPayload : P → Except String QdrantPayload
  query : QueryPoints V → Except String (List (ScoredPoint P))
  queryBatch : List (QueryPoints V) → Except String (List (List (ScoredPoint P)))
  /-- Stores all of the points or none. -/
  upsertPoints : List (PointStruct V P) → Except String Unit
  /-- The same, in chunks of a given size. -/
  upsertPointsChunked : List (PointStruct V P) → ℕ → Except String Unit

/-- What an insertion has handed to Qdrant with success, and its result. -/
structure Insertion (V P : Type) where
  stored : List (PointStruct V P) := []
  result : Except String Unit

/-- What a call has asked and stored, and its result. -/
structure Call (V P α : Type) where
  queries : List (QueryPoints V) := []
  upserted : List (PointStruct V P) := []
  result : Except String α

variable {T V P : Type} (sv : Services T V P)

/-! ## §2 The calls -/

/-- `TryFrom<QdrantPointData> for PointStruct`, and the vector. -/
def pointStruct (data : QdrantPointData) (vector : V) : Except String (PointStruct V P) :=
  match sv.toPayload data.payload with
  | .error _ => .error "payload conversion to qdrant PointStruct failed"
  | .ok payload => .ok { id := data.id, vectors := vector, payload := payload }

/-- `create_point`. -/
def createPoint (data : QdrantPointData) : Except String (PointStruct V P × V) := do
  let embedding ← sv.embed [data.questionVector]
  let some vector := embedding.head? | throw "embedding model returned no vectors"
  let point ← pointStruct sv data vector
  return (point, vector)

/-- `create_points`; without data the model is not called. -/
def createPoints (dataList : List QdrantPointData) : Except String (List (PointStruct V P × V)) :=
  if dataList.isEmpty then .ok []
  else do
    let embeddings ← sv.embed (dataList.map (·.questionVector))
    (dataList.zip embeddings).mapM fun (data, vector) => do
      let point ← pointStruct sv data vector
      return (point, vector)

/-- The request of `semantic_similarity_search`; a zero stands for the default. -/
def similaritySearch (vector : V) (scoreThreshold : F32) (limit : ℕ) (filter : Option Filter)
    (withPayload : Bool) : QueryPoints V where
  vector := vector
  scoreThreshold :=
    if scoreThreshold.le .zero && ExactFloat.zero.le scoreThreshold then .fin ⟨8, 1⟩
    else scoreThreshold
  limit := if limit = 0 then 10 else limit
  withPayload := withPayload
  filter := filter

/-- The request for one market of a batch. -/
def batchSearch (vector : V) (filter : Option Filter) : QueryPoints V where
  vector := vector
  scoreThreshold := similarityScoreThreshold
  limit := 10
  withPayload := true
  filter := filter

/-- `TryFrom<ScoredPoint> for MatchCandidate`. -/
def matchCandidate (value : ScoredPoint P) : Except String MatchCandidate := do
  let payload ← sv.fromPayload value.payload
  return { scored := value.score, marketInfo := payload.marketInfo }

/-- `SimilarityHit::try_from_results`. -/
def tryFromResults (anchor : QdrantPayload) (results : List (ScoredPoint P)) :
    Except String SimilarityHit := do
  let candidates ← results.mapM (matchCandidate sv)
  return { anchor := anchor.marketInfo, «matches» := candidates }

/-- The `ClientEbo` for a market with matches. -/
def clientEbo (info : MarketInfo) (hit : SimilarityHit) (now : ℤ) : CrossPlatformHit where
  correlationId := generateUuidV5 sv.formats (info.uuid ++ ":" ++ info.marketId)
  actionAt := now
  hit := hit

/-- `insert`. -/
def insert (point : PointStruct V P) : Insertion V P :=
  match sv.upsertPoints [point] with
  | .error e => { result := .error e }
  | .ok () => { stored := [point], result := .ok () }

/-- `insert_many`. -/
def insertMany (pointStructs : List (PointStruct V P)) (chunkSize : ℕ) : Insertion V P :=
  if pointStructs.isEmpty then { result := .ok () }
  else
    let chunkSize := if chunkSize < 2000 then 2000 else chunkSize
    match sv.upsertPointsChunked pointStructs chunkSize with
    | .error _ => { result := .error "failed to insert_many of points" }
    | .ok () => { stored := pointStructs, result := .ok () }

/-- `search_and_insert`. -/
def searchAndInsert (pointData : T) (scoreThreshold : F32) (filter : Option Filter) (now : ℤ) :
    Call V P (Option CrossPlatformHit) :=
  match sv.tryInto pointData with
  | .error e => { result := .error e }
  | .ok pointData =>
    let anchor := pointData.payload
    match createPoint sv pointData with
    | .error e => { result := .error e }
    | .ok (point, vecData) =>
      let request := similaritySearch vecData scoreThreshold 10 filter true
      match sv.query request with
      | .error e => { queries := [request], result := .error e }
      | .ok response =>
        if response.isEmpty then { queries := [request], result := .ok none }
        else
          match anchor.marketInfo with
          | none => { queries := [request], result := .error "market should not be None" }
          | some info =>
            match tryFromResults sv anchor response with
            | .error e => { queries := [request], result := .error e }
            | .ok hit =>
              let insertion := insert sv point
              { queries := [request]
                upserted := insertion.stored
                result := insertion.result.map fun () => some (clientEbo sv info hit now) }

/-- The data and the filters of the values that convert. -/
def convertedData (values : List (T × Option Filter)) : List (QdrantPointData × Option Filter) :=
  values.filterMap fun (t, filter) => (sv.tryInto t).toOption.map (·, filter)

/-- The requests of a batch. -/
def batchQueries (vectors : List V) (filters : List (Option Filter)) : List (QueryPoints V) :=
  (vectors.zip filters).map fun (vecData, filter) => batchSearch vecData filter

/-- The loop over the responses; its first error ends the call. -/
def batchHits (now : ℤ) :
    List (QdrantPayload × List (ScoredPoint P)) → Except String (List CrossPlatformHit)
  | [] => .ok []
  | (take, response) :: rest =>
    if response.isEmpty then batchHits now rest
    else do
      let some info := take.marketInfo | throw "market_info should not be None"
      let hit ← tryFromResults sv take response
      let ebos ← batchHits now rest
      return clientEbo sv info hit now :: ebos

/-- `multiple_search_and_insert`. -/
def multipleSearchAndInsert (values : List (T × Option Filter)) (chunkSize : ℕ) (now : ℤ) :
    Call V P (List CrossPlatformHit) :=
  let converted := convertedData sv values
  let takes := converted.map (·.1.payload)
  match createPoints sv (converted.map (·.1)) with
  | .error e => { result := .error e }
  | .ok pointsAndVectors =>
    let pointStructs := pointsAndVectors.map (·.1)
    let vectors := pointsAndVectors.map (·.2)
    let queryPoints := batchQueries vectors (converted.map (·.2))
    match sv.queryBatch queryPoints with
    | .error e => { queries := queryPoints, result := .error e }
    | .ok responses =>
      if responses.isEmpty then { queries := queryPoints, result := .ok [] }
      else if takes.length ≠ responses.length then {
        queries := queryPoints
        result := .error ("batch search alignment error: Sent " ++ toString takes.length ++
          " queries but received " ++ toString responses.length ++ " responses") }
      else
        -- the points are stored before any response is converted
        let insertion := insertMany sv pointStructs chunkSize
        { queries := queryPoints
          upserted := insertion.stored
          result := insertion.result.bind fun () => batchHits sv now (takes.zip responses) }

/-! ## §3 What a call does -/

@[simp] theorem batchQueries_length (vectors : List V) (filters : List (Option Filter)) :
    (batchQueries vectors filters).length = min vectors.length filters.length := by
  rw [batchQueries, List.length_map, List.length_zip]

/-- A point is stored exactly if its insertion succeeds. -/
theorem insert_cases (point : PointStruct V P) :
    insert sv point = { stored := [point], result := .ok () } ∨
      ∃ e, insert sv point = { result := .error e } := by
  unfold insert
  cases sv.upsertPoints [point] with
  | error e => exact .inr ⟨e, rfl⟩
  | ok u => exact .inl rfl

/-- The points are stored exactly if their insertion succeeds. -/
theorem insertMany_cases (points : List (PointStruct V P)) (chunkSize : ℕ) :
    insertMany sv points chunkSize = { stored := points, result := .ok () } ∨
      ∃ e, insertMany sv points chunkSize = { result := .error e } := by
  unfold insertMany
  split
  · rename_i hempty
    rw [List.isEmpty_iff.mp hempty]
    exact .inl rfl
  · dsimp only
    split
    · exact .inr ⟨_, rfl⟩
    · exact .inl rfl

/-- The hit of one response. -/
def hitOf (now : ℤ) (take : QdrantPayload) (response : List (ScoredPoint P)) :
    Except String CrossPlatformHit := do
  let some info := take.marketInfo | throw "market_info should not be None"
  let hit ← tryFromResults sv take response
  return clientEbo sv info hit now

/-- The loop is a traversal of the responses that are not empty. -/
theorem batchHits_eq_mapM (now : ℤ) (results : List (QdrantPayload × List (ScoredPoint P))) :
    batchHits sv now results =
      (results.filter fun r => !r.2.isEmpty).mapM fun r => hitOf sv now r.1 r.2 := by
  induction results with
  | nil => rfl
  | cons r results ih =>
    obtain ⟨take, response⟩ := r
    rw [batchHits, List.filter_cons, ih]
    cases hempty : response.isEmpty with
    | true => rfl
    | false =>
      show _ = List.mapM _ ((take, response) :: _)
      rw [List.mapM_cons]
      cases hinfo : take.marketInfo with
      | none => simp [hitOf, hinfo, throw, throwThe, MonadExceptOf.throw, bind, Except.bind]
      | some info => simp [hitOf, hinfo]

/-- What a batch does: it stops before it stores anything, or finds that there is nothing to
do, or stores its points and then goes through the responses. -/
theorem multipleSearchAndInsert_cases (values : List (T × Option Filter)) (chunkSize : ℕ)
    (now : ℤ) {call : Call V P (List CrossPlatformHit)}
    (hcall : multipleSearchAndInsert sv values chunkSize now = call) :
    (call.upserted = [] ∧ ∃ e, call.result = .error e) ∨
    ∃ created responses, createPoints sv ((convertedData sv values).map (·.1)) = .ok created ∧
      call.queries = batchQueries (created.map (·.2)) ((convertedData sv values).map (·.2)) ∧
      sv.queryBatch call.queries = .ok responses ∧
      (responses = [] ∧ call.upserted = [] ∧ call.result = .ok [] ∨
        responses ≠ [] ∧ (convertedData sv values).length = responses.length ∧
        (insertMany sv (created.map (·.1)) chunkSize).result = .ok () ∧
        call.upserted = created.map (·.1) ∧
        call.result =
          batchHits sv now (((convertedData sv values).map (·.1.payload)).zip responses)) := by
  subst hcall
  simp only [multipleSearchAndInsert]
  -- `create_points` fails before anything is sent
  split
  · exact .inl ⟨rfl, _, rfl⟩
  · rename_i created hcreated
    -- the query fails
    split
    · exact .inl ⟨rfl, _, rfl⟩
    · rename_i responses hresponses
      -- no response at all: the batch ends with no hits
      split
      · rename_i hempty
        exact .inr ⟨created, responses, hcreated, rfl, hresponses,
          .inl ⟨List.isEmpty_iff.mp hempty, rfl, rfl⟩⟩
      · rename_i hsome
        -- the lengths differ: nothing is stored
        split
        · exact .inl ⟨rfl, _, rfl⟩
        · rename_i haligned
          rw [not_not, List.length_map] at haligned
          -- the insertion, and then the responses
          rcases insertMany_cases sv (created.map (·.1)) chunkSize with hinsert | ⟨e, hinsert⟩
          · refine .inr ⟨created, responses, hcreated, rfl, hresponses, .inr ?_⟩
            simp only [hinsert]
            exact ⟨fun h => hsome (List.isEmpty_iff.mpr h), haligned, trivial, trivial, rfl⟩
          · rw [hinsert]
            exact .inl ⟨rfl, e, rfl⟩

/-- A batch that gets as far as its responses. -/
theorem multipleSearchAndInsert_stored {values : List (T × Option Filter)} {chunkSize : ℕ}
    {created : List (PointStruct V P × V)} {responses : List (List (ScoredPoint P))} (now : ℤ)
    (hcreated : createPoints sv ((convertedData sv values).map (·.1)) = .ok created)
    (hresponses : sv.queryBatch (batchQueries (created.map (·.2))
      ((convertedData sv values).map (·.2))) = .ok responses)
    (hsome : responses ≠ []) (haligned : (convertedData sv values).length = responses.length)
    (hinsert : (insertMany sv (created.map (·.1)) chunkSize).result = .ok ()) :
    multipleSearchAndInsert sv values chunkSize now = {
      queries := batchQueries (created.map (·.2)) ((convertedData sv values).map (·.2))
      upserted := created.map (·.1)
      result := batchHits sv now
        (((convertedData sv values).map (·.1.payload)).zip responses) } := by
  have hempty : responses.isEmpty = false := List.isEmpty_eq_false_iff.mpr hsome
  rcases insertMany_cases sv (created.map (·.1)) chunkSize with hstored | ⟨e, hfailed⟩
  · simp [multipleSearchAndInsert, hcreated, hresponses, hempty, haligned, hstored, Except.bind]
  · rw [hfailed] at hinsert
    cases hinsert

/-! ## §4 Market by market -/

/-- A market of a batch, with what the parallel lists hold at its position. -/
structure Searched (T V P : Type) where
  value : T
  filter : Option Filter
  data : QdrantPointData
  vector : V
  response : List (ScoredPoint P)

/-- The hit reports a market with the matches of its own response. -/
structure Reports (r : Searched T V P) (ebo : CrossPlatformHit) : Prop where
  anchor : ebo.hit.anchor = r.data.payload.marketInfo
  «matches» : List.Forall₂ (fun scored candidate => candidate.scored = scored.score ∧
    ∃ payload, sv.fromPayload scored.payload = .ok payload ∧
      candidate.marketInfo = payload.marketInfo) r.response ebo.hit.matches
  correlationId : ∃ info, r.data.payload.marketInfo = some info ∧
    ebo.correlationId = generateUuidV5 sv.formats (info.uuid ++ ":" ++ info.marketId)

/-- The point holds a market under its identifier, with its own payload and vector. -/
structure Holds (r : Searched T V P) (p : PointStruct V P) : Prop where
  id : p.id = r.data.id
  payload : sv.toPayload r.data.payload = .ok p.payload
  vectors : p.vectors = r.vector

/-- **A batch that never mixes up its markets.** Its rows are the values that convert, in
their order, each with its own vector and the response to the query made of that vector and of
its own filter; only if the model returns no vector at all there are no rows.  The hits are
those of the rows with a response that is not empty, and the points those of all rows. -/
structure Aligned (values : List (T × Option Filter)) (call : Call V P (List CrossPlatformHit))
    (ebos : List CrossPlatformHit) (rows : List (Searched T V P)) : Prop where
  values : rows.map (fun r => (r.value, r.filter)) =
      values.filter (fun v => (sv.tryInto v.1).toBool) ∨
    rows = [] ∧ sv.embed ((convertedData sv values).map (·.1.questionVector)) = .ok []
  data : ∀ r ∈ rows, sv.tryInto r.value = .ok r.data
  vectors : rows ≠ [] → ∃ vectors,
    sv.embed (rows.map (·.data.questionVector)) = .ok vectors ∧
      rows.map (·.vector) = vectors.take rows.length
  queries : call.queries = rows.map fun r => batchSearch r.vector r.filter
  responses : sv.queryBatch call.queries = .ok (rows.map (·.response))
  hits : List.Forall₂ (Reports sv) (rows.filter fun r => !r.response.isEmpty) ebos
  upserted : List.Forall₂ (Holds sv) rows call.upserted

/-- The hit of a market's response reports it. -/
theorem reports_of_hitOf {now : ℤ} {r : Searched T V P} {ebo : CrossPlatformHit}
    (h : hitOf sv now r.data.payload r.response = .ok ebo) : Reports sv r ebo := by
  unfold hitOf at h
  split at h
  · rename_i info hinfo
    obtain ⟨hit, hhit, hebo⟩ := bind_eq_ok.mp h
    obtain ⟨candidates, hcandidates, hok⟩ := bind_eq_ok.mp hhit
    cases hok
    cases hebo
    refine { anchor := rfl, «matches» := ?_, correlationId := ⟨info, hinfo, rfl⟩ }
    apply (mapM_eq_ok_iff.mp hcandidates).imp
    intro scored candidate hcandidate
    obtain ⟨payload, hpayload, hok⟩ := bind_eq_ok.mp hcandidate
    cases hok
    exact ⟨rfl, payload, hpayload, rfl⟩
  · cases h

/-- The point that is made of a market's data and vector holds it. -/
theorem holds_of_pointStruct {r : Searched T V P} {p : PointStruct V P}
    (h : pointStruct sv r.data r.vector = .ok p) : Holds sv r p := by
  unfold pointStruct at h
  split at h
  · cases h
  · rename_i payload hpayload
    cases h
    exact { id := rfl, payload := hpayload, vectors := rfl }

/-- The values that convert, each with its data. -/
theorem exists_converted (values : List (T × Option Filter)) :
    ∃ pairs : List ((T × Option Filter) × QdrantPointData),
      pairs.map (·.1) = values.filter (fun v => (sv.tryInto v.1).toBool) ∧
      (∀ x ∈ pairs, sv.tryInto x.1.1 = .ok x.2) ∧
      convertedData sv values = pairs.map fun x => (x.2, x.1.2) := by
  induction values with
  | nil => exact ⟨[], rfl, by simp, rfl⟩
  | cons v values ih =>
    obtain ⟨t, filter⟩ := v
    obtain ⟨pairs, hvalues, hdata, hconverted⟩ := ih
    unfold convertedData at hconverted ⊢
    rw [List.filter_cons, List.filterMap_cons, hconverted]
    dsimp only
    cases hv : sv.tryInto t with
    | error e => exact ⟨pairs, hvalues, hdata, rfl⟩
    | ok data =>
      refine ⟨((t, filter), data) :: pairs, ?_, ?_, rfl⟩
      · rw [List.map_cons, hvalues]
        rfl
      · rw [List.forall_mem_cons]
        exact ⟨hv, hdata⟩

/-- The points that `create_points` makes, one for each market that gets a vector. -/
theorem createPoints_ok {dataList : List QdrantPointData}
    {created : List (PointStruct V P × V)} (h : createPoints sv dataList = .ok created) :
    ∃ embeddings, (dataList ≠ [] → sv.embed (dataList.map (·.questionVector)) = .ok embeddings) ∧
      created.map (·.2) = (dataList.zip embeddings).map (·.2) ∧
      List.Forall₂ (fun x p => pointStruct sv x.1 x.2 = .ok p) (dataList.zip embeddings)
        (created.map (·.1)) := by
  unfold createPoints at h
  split at h
  · -- without data the model is not asked
    rename_i hempty
    cases h
    obtain rfl := List.isEmpty_iff.mp hempty
    exact ⟨[], fun hne => absurd rfl hne, rfl, .nil⟩
  · obtain ⟨embeddings, hembed, hcreated⟩ := bind_eq_ok.mp h
    -- each point comes from one market and its vector
    have hrows : List.Forall₂ (fun x y => pointStruct sv x.1 x.2 = .ok y.1 ∧ y.2 = x.2)
        (dataList.zip embeddings) created := by
      apply (mapM_eq_ok_iff.mp hcreated).imp
      intro x y hxy
      obtain ⟨point, hpoint, hok⟩ := bind_eq_ok.mp hxy
      cases hok
      exact ⟨hpoint, rfl⟩
    refine ⟨embeddings, fun _ => hembed, ?_, ?_⟩
    · rw [← List.forall₂_eq_eq_eq, List.forall₂_map_left_iff, List.forall₂_map_right_iff]
      exact (hrows.imp fun _ _ hxy => hxy.2.symm).flip.imp fun _ _ hxy => hxy.symm
    · rw [List.forall₂_map_right_iff]
      exact hrows.imp fun _ _ hxy => hxy.1

/-- The table of a batch that got as many responses as it has values that convert. -/
theorem exists_searched {values : List (T × Option Filter)} {embeddings : List V}
    {responses : List (List (ScoredPoint P))}
    (hembeddings : (convertedData sv values).length ≤ embeddings.length)
    (hresponses : (convertedData sv values).length = responses.length) :
    ∃ rows : List (Searched T V P),
      rows.map (fun r => (r.value, r.filter)) =
        values.filter (fun v => (sv.tryInto v.1).toBool) ∧
      (∀ r ∈ rows, sv.tryInto r.value = .ok r.data) ∧
      convertedData sv values = rows.map (fun r => (r.data, r.filter)) ∧
      rows.map (·.vector) = embeddings.take rows.length ∧
      ((convertedData sv values).map (·.1)).zip embeddings =
        rows.map (fun r => (r.data, r.vector)) ∧
      responses = rows.map (·.response) := by
  -- the values that convert, and their rows with vectors and responses
  obtain ⟨pairs, hvalues, hdata, hconverted⟩ := exists_converted sv values
  rw [hconverted, List.length_map] at hembeddings hresponses
  obtain ⟨table, hx, hy, hz, hzip⟩ := exists_rows hembeddings hresponses
  have hlength : table.length = pairs.length := by
    rw [← hx, List.length_map]
  refine ⟨table.map fun t => ⟨t.1.1.1, t.1.1.2, t.1.2, t.2.1, t.2.2⟩, ?_, ?_, ?_, ?_, ?_, ?_⟩
  · rw [← hvalues, ← hx, List.map_map, List.map_map]
    rfl
  · intro r hr
    obtain ⟨t, ht, rfl⟩ := List.mem_map.mp hr
    apply hdata t.1
    rw [← hx]
    exact List.mem_map_of_mem ht
  · rw [hconverted, ← hx, List.map_map, List.map_map]
    rfl
  · rw [List.map_map, List.length_map, hlength]
    exact hy
  · rw [hconverted, List.map_map, List.zip_map_left, hzip, List.map_map, List.map_map]
    rfl
  · rw [← hz, List.map_map]
    rfl

/-- A batch without values, or without vectors, is aligned as it stands. -/
theorem aligned_nil {values : List (T × Option Filter)} {embeddings : List V}
    {call : Call V P (List CrossPlatformHit)}
    (hembed : (convertedData sv values).map (·.1) ≠ [] →
      sv.embed (((convertedData sv values).map (·.1)).map (·.questionVector)) = .ok embeddings)
    (hnone : convertedData sv values = [] ∨ embeddings = [])
    (hqueries : call.queries = []) (hresponses : sv.queryBatch call.queries = .ok [])
    (hupserted : call.upserted = []) : Aligned sv values call [] [] where
  values := by
    -- there is no value that converts, or the model gave no vector
    obtain ⟨pairs, hvalues, -, hconverted⟩ := exists_converted sv values
    by_cases hempty : convertedData sv values = []
    · rw [hempty, eq_comm, List.map_eq_nil_iff] at hconverted
      rw [hconverted] at hvalues
      exact .inl hvalues
    · rw [hnone.resolve_left hempty, List.map_map] at hembed
      exact .inr ⟨rfl, hembed (by simpa using hempty)⟩
  data := by simp
  vectors := fun hne => absurd rfl hne
  queries := hqueries
  responses := hresponses
  hits := .nil
  upserted := by
    rw [hupserted]
    exact .nil

/-- A batch with a vector and a response for each value is aligned, row by row. -/
theorem aligned_rows {values : List (T × Option Filter)} {embeddings : List V}
    {created : List (PointStruct V P × V)} {responses : List (List (ScoredPoint P))} {now : ℤ}
    {call : Call V P (List CrossPlatformHit)} {ebos : List CrossPlatformHit}
    (hembed : (convertedData sv values).map (·.1) ≠ [] →
      sv.embed (((convertedData sv values).map (·.1)).map (·.questionVector)) = .ok embeddings)
    (hvectors : created.map (·.2) =
      (((convertedData sv values).map (·.1)).zip embeddings).map (·.2))
    (hpoints : List.Forall₂ (fun x p => pointStruct sv x.1 x.2 = .ok p)
      (((convertedData sv values).map (·.1)).zip embeddings) (created.map (·.1)))
    (hmany : (convertedData sv values).length ≤ embeddings.length)
    (haligned : (convertedData sv values).length = responses.length)
    (hqueries : call.queries =
      batchQueries (created.map (·.2)) ((convertedData sv values).map (·.2)))
    (hresponses : sv.queryBatch call.queries = .ok responses)
    (hupserted : call.upserted = created.map (·.1))
    (hok : batchHits sv now (((convertedData sv values).map (·.1.payload)).zip responses) =
      .ok ebos) :
    ∃ rows, Aligned sv values call ebos rows := by
  -- the rows; then each of the lists is read off them
  obtain ⟨rows, hvalues, hdata, hconverted, hvector, hzip, rfl⟩ :=
    exists_searched sv hmany haligned
  rw [hzip] at hvectors hpoints
  rw [hvectors, hconverted] at hqueries
  rw [hconverted, List.map_map] at hembed
  refine ⟨rows, ?_⟩
  exact {
    values := .inl hvalues
    data := hdata
    vectors := by
      intro hne
      rw [List.map_map] at hembed
      exact ⟨embeddings, hembed (by simpa using hne), hvector⟩
    queries := by
      rw [hqueries, batchQueries, List.map_map, List.map_map, List.zip_map', List.map_map]
      rfl
    responses := hresponses
    hits := by
      rw [hconverted, batchHits_eq_mapM, List.map_map, List.zip_map', List.filter_map,
        mapM_eq_ok_iff, List.forall₂_map_left_iff] at hok
      apply hok.imp
      intro r ebo hebo
      exact reports_of_hitOf sv hebo
    upserted := by
      rw [List.forall₂_map_left_iff] at hpoints
      rw [hupserted]
      apply hpoints.imp
      intro r p hp
      exact holds_of_pointStruct sv hp }

/-- **No anchor is mixed up.** If Qdrant answers every batch with one response for each query,
a batch that succeeds is aligned market by market, whatever values fail to convert, whatever
their filters are and however many vectors the model returns. -/
theorem multipleSearchAndInsert_aligned
    (hone : ∀ queries responses, sv.queryBatch queries = .ok responses →
      responses.length = queries.length)
    {values : List (T × Option Filter)} {chunkSize : ℕ} {now : ℤ} {ebos : List CrossPlatformHit}
    (hok : (multipleSearchAndInsert sv values chunkSize now).result = .ok ebos) :
    ∃ rows, Aligned sv values (multipleSearchAndInsert sv values chunkSize now) ebos rows := by
  generalize hcall : multipleSearchAndInsert sv values chunkSize now = call at hok ⊢
  obtain ⟨-, e, herror⟩ | ⟨created, responses, hcreated, hqueries, hresponses, hrest⟩ :=
    multipleSearchAndInsert_cases sv values chunkSize now hcall
  · rw [herror] at hok
    cases hok
  obtain ⟨embeddings, hembed, hvectors, hpoints⟩ := createPoints_ok sv hcreated
  have hlength := hone _ _ hresponses
  obtain ⟨rfl, hupserted, hresult⟩ | ⟨-, haligned, -, hupserted, hresult⟩ := hrest
  · -- without responses no queries were sent, so there are no values or no vectors
    rw [hresult] at hok
    cases hok
    have hqueried : call.queries = [] := List.length_eq_zero_iff.mp hlength.symm
    have hnone : convertedData sv values = [] ∨ embeddings = [] := by
      rw [hqueries, hvectors, batchQueries_length, List.length_map, List.length_zip,
        List.length_map, List.length_map, List.length_nil] at hlength
      rw [← List.length_eq_zero_iff, ← List.length_eq_zero_iff]
      omega
    exact ⟨[], aligned_nil sv hembed hnone hqueried hresponses hupserted⟩
  · -- as many responses as values, and one for each query: there is a vector for each value
    rw [hqueries, hvectors, batchQueries_length, List.length_map, List.length_zip,
      List.length_map, List.length_map] at hlength
    rw [hresult] at hok
    exact aligned_rows sv hembed hvectors hpoints (by omega) haligned hqueries hresponses
      hupserted hok

/-- A model that returns the texts themselves, and a collection with given responses, in which
`none` is a payload that is not the payload of a market. -/
def fedCalls (respond : QueryPoints String → List (ScoredPoint (Option QdrantPayload))) :
    Services QdrantPayload String (Option QdrantPayload) where
  formats := VectorStore.fedServices.formats
  tryInto := QdrantPointData.new VectorStore.fedServices.formats
  embed := .ok
  toPayload payload := .ok (some payload)
  fromPayload payload := payload.elim (.error "missing field") .ok
  query q := .ok (respond q)
  queryBatch qs := .ok (qs.map respond)
  upsertPoints _ := .ok ()
  upsertPointsChunked _ _ := .ok ()

/-- Two markets with the same text, and between them a payload without a record. -/
def fedBatch : List (QdrantPayload × Option Filter) := [
  (VectorStore.kalshiFed.payload, VectorStore.kalshiFed.filter),
  ({ marketInfo := none }, none),
  (VectorStore.polymarketFed.payload, VectorStore.polymarketFed.filter)]

/-- Only the market of Polymarket has a match. -/
def oneMatch (q : QueryPoints String) : List (ScoredPoint (Option QdrantPayload)) :=
  if q.filter = VectorStore.polymarketFed.filter then
    [{ score := .one, payload := some VectorStore.kalshiFed.payload }]
  else []

/-- The batch drops the second value, and its one hit is that of the third. -/
theorem multipleSearchAndInsert_aligned_fed :
    ∃ ebos rows, ebos.map (·.hit.anchor) = [some VectorStore.polymarketFed.info] ∧
      Aligned (fedCalls oneMatch) fedBatch
        (multipleSearchAndInsert (fedCalls oneMatch) fedBatch 0 0) ebos rows := by
  have hanchors : (multipleSearchAndInsert (fedCalls oneMatch) fedBatch 0 0).result.toOption.map
      (List.map (·.hit.anchor)) = some [some VectorStore.polymarketFed.info] := by decide +kernel
  obtain ⟨ebos, hsome, hebos⟩ := Option.map_eq_some_iff.mp hanchors
  have hok := toOption_eq_some_iff.mp hsome
  obtain ⟨rows, hrows⟩ := multipleSearchAndInsert_aligned (fedCalls oneMatch)
    (by
      intro queries responses h
      cases h
      exact List.length_map _) hok
  exact ⟨ebos, rows, hebos, hrows⟩

/-! ## §5 What a failure leaves behind -/

/-- A call that fails has stored nothing. -/
def KeepsStore {α : Type} (call : Call V P α) : Prop :=
  ∀ e, call.result = .error e → call.upserted = []

/-- No hit can be made of the response: it has matches, but a payload among them does not
convert, or the market that it is for has no record. -/
def Malformed (take : QdrantPayload) (response : List (ScoredPoint P)) : Prop :=
  response ≠ [] ∧
    (take.marketInfo = none ∨ ∃ scored ∈ response, ∃ e, sv.fromPayload scored.payload = .error e)

/-- The answers with which a batch stores its points. -/
structure Stored (values : List (T × Option Filter)) (chunkSize : ℕ) (vectors : List V)
    (points : List (PointStruct V P)) (responses : List (List (ScoredPoint P))) : Prop where
  embedded : sv.embed ((convertedData sv values).map (·.1.questionVector)) = .ok vectors
  converted : List.Forall₂ (fun x p => pointStruct sv x.1 x.2 = .ok p)
    (((convertedData sv values).map (·.1)).zip vectors) points
  some : points ≠ []
  answered : sv.queryBatch (batchQueries vectors ((convertedData sv values).map (·.2))) =
    .ok responses
  aligned : (convertedData sv values).length = responses.length
  inserted : sv.upsertPointsChunked points (max chunkSize 2000) = .ok ()

/-- When the hit of a response can be made. -/
theorem hitOf_isOk_iff {now : ℤ} {take : QdrantPayload} {response : List (ScoredPoint P)} :
    (∃ ebo, hitOf sv now take response = .ok ebo) ↔
      take.marketInfo ≠ none ∧
        ∀ scored ∈ response, ∀ e, sv.fromPayload scored.payload ≠ .error e := by
  have hcandidates : (∃ hit, tryFromResults sv take response = .ok hit) ↔
      ∀ scored ∈ response, ∀ e, sv.fromPayload scored.payload ≠ .error e := by
    rw [tryFromResults, bind_pure_isOk_iff, mapM_isOk_iff]
    apply forall₂_congr
    intro scored _
    rw [matchCandidate, bind_pure_isOk_iff, isOk_iff_ne_error]
  unfold hitOf
  cases take.marketInfo with
  | none => simp [throw, throwThe, MonadExceptOf.throw]
  | some info =>
    dsimp only
    rw [bind_pure_isOk_iff, hcandidates]
    simp

/-- The loop over the responses succeeds if none of them is malformed. -/
theorem batchHits_isOk_iff (now : ℤ) {results : List (QdrantPayload × List (ScoredPoint P))} :
    (∃ ebos, batchHits sv now results = .ok ebos) ↔ ∀ x ∈ results, ¬Malformed sv x.1 x.2 := by
  rw [batchHits_eq_mapM, mapM_isOk_iff]
  simp only [List.mem_filter, hitOf_isOk_iff, Malformed]
  apply forall_congr'
  intro x
  simp

/-- When the points of a batch are inserted. -/
theorem insertMany_ok_iff {points : List (PointStruct V P)} {chunkSize : ℕ} (hsome : points ≠ []) :
    (insertMany sv points chunkSize).result = .ok () ↔
      sv.upsertPointsChunked points (max chunkSize 2000) = .ok () := by
  have hempty : points.isEmpty = false := List.isEmpty_eq_false_iff.mpr hsome
  have hchunk : (if chunkSize < 2000 then 2000 else chunkSize) = max chunkSize 2000 := by
    split <;> omega
  simp only [insertMany, hempty, hchunk]
  cases sv.upsertPointsChunked points (max chunkSize 2000) with
  | error e => simp
  | ok u => simp

/-- The single call inserts its point last. -/
theorem searchAndInsert_keepsStore (t : T) (scoreThreshold : F32) (filter : Option Filter)
    (now : ℤ) : KeepsStore (searchAndInsert sv t scoreThreshold filter now) := by
  unfold searchAndInsert
  intro e
  split
  · exact fun _ => rfl
  dsimp only
  split
  · exact fun _ => rfl
  split
  · exact fun _ => rfl
  split
  · exact fun _ => rfl
  split
  · exact fun _ => rfl
  split
  · exact fun _ => rfl
  -- nothing is left that can fail once the point is stored
  rcases insert_cases sv _ with hstored | ⟨e', hfailed⟩
  · rw [hstored]
    intro herror
    cases herror
  · rw [hfailed]
    exact fun _ => rfl

/-- Points are made of data. -/
theorem data_ne_nil {dataList : List QdrantPointData} {vectors : List V}
    {points : List (PointStruct V P)}
    (h : List.Forall₂ (fun x p => pointStruct sv x.1 x.2 = .ok p) (dataList.zip vectors) points)
    (hsome : points ≠ []) : dataList ≠ [] := by
  rintro rfl
  rw [List.zip_nil_left, List.forall₂_nil_left_iff] at h
  exact hsome h

/-- With the answers of a stored batch, the points are created and inserted. -/
theorem Stored.created {values : List (T × Option Filter)} {chunkSize : ℕ} {vectors : List V}
    {points : List (PointStruct V P)} {responses : List (List (ScoredPoint P))}
    (h : Stored sv values chunkSize vectors points responses) :
    ∃ created, createPoints sv ((convertedData sv values).map (·.1)) = .ok created ∧
      created.map (·.1) = points ∧
      batchQueries (created.map (·.2)) ((convertedData sv values).map (·.2)) =
        batchQueries vectors ((convertedData sv values).map (·.2)) := by
  have hdata := data_ne_nil sv h.converted h.some
  obtain ⟨created, hcreated⟩ :
      ∃ created, createPoints sv ((convertedData sv values).map (·.1)) = .ok created := by
    rw [createPoints, if_neg (fun hempty => hdata (List.isEmpty_iff.mp hempty)), List.map_map]
    show ∃ created, sv.embed ((convertedData sv values).map (·.1.questionVector)) >>= _ = _
    rw [h.embedded]
    refine mapM_isOk_iff.mpr fun x hx => ?_
    rw [bind_pure_isOk_iff]
    exact mapM_isOk_iff.mp ⟨points, mapM_eq_ok_iff.mpr h.converted⟩ x hx
  obtain ⟨embeddings, hembed, hvectors, hpoints⟩ := createPoints_ok sv hcreated
  -- the model has only one answer, and an answer makes only one list of points
  have hsame : embeddings = vectors := by
    have hembed' := hembed hdata
    rw [List.map_map] at hembed'
    exact Except.ok.inj (hembed'.symm.trans h.embedded)
  subst hsame
  refine ⟨created, hcreated, ?_, ?_⟩
  · apply List.right_unique_forall₂' _ hpoints h.converted
    intro x p q hp hq
    exact Except.ok.inj (hp.symm.trans hq)
  · rw [hvectors, batchQueries, batchQueries, map_snd_zip_zip]
    rw [List.length_map, List.length_map]

/-- **What a failure leaves behind.** A single call that fails has stored nothing.  A batch
that fails has stored nothing exactly if none of the responses that it reads after storing its
points is malformed. -/
theorem failed_keeps_store_iff (values : List (T × Option Filter)) (chunkSize : ℕ) (now : ℤ) :
    (∀ t scoreThreshold filter, KeepsStore (searchAndInsert sv t scoreThreshold filter now)) ∧
    (KeepsStore (multipleSearchAndInsert sv values chunkSize now) ↔
      ∀ vectors points responses, Stored sv values chunkSize vectors points responses →
        ∀ x ∈ ((convertedData sv values).map (·.1.payload)).zip responses,
          ¬Malformed sv x.1 x.2) := by
  refine ⟨fun t scoreThreshold filter => searchAndInsert_keepsStore sv t scoreThreshold filter now,
    ?_, ?_⟩
  · -- what a batch stored stays when one of its responses is malformed
    intro hkeeps vectors points responses hstored
    obtain ⟨created, hcreated, hpoints, hqueries⟩ := hstored.created
    have hresponses := hstored.answered
    have hinsert := (insertMany_ok_iff sv hstored.some).mpr hstored.inserted
    rw [← hqueries] at hresponses
    rw [← hpoints] at hinsert
    -- points were stored, so there are responses
    have hsome : responses ≠ [] := by
      intro hnil
      apply data_ne_nil sv hstored.converted hstored.some
      rw [List.map_eq_nil_iff, ← List.length_eq_zero_iff, hstored.aligned, hnil, List.length_nil]
    rw [multipleSearchAndInsert_stored sv now hcreated hresponses hsome hstored.aligned hinsert,
      hpoints] at hkeeps
    rw [← batchHits_isOk_iff sv now, isOk_iff_ne_error]
    intro e herror
    exact hstored.some (hkeeps e herror)
  · -- a batch that failed: before the insertion, or on a response after it
    intro hsound e herror
    obtain ⟨hnone, -⟩ | ⟨created, responses, hcreated, hqueries, hresponses, hrest⟩ :=
      multipleSearchAndInsert_cases sv values chunkSize now rfl
    · exact hnone
    obtain ⟨-, -, hresult⟩ | ⟨-, haligned, hinsert, hupserted, hresult⟩ := hrest
    · rw [hresult] at herror
      cases herror
    by_contra hsome
    rw [hupserted] at hsome
    -- had it stored a point, its responses would all convert
    obtain ⟨embeddings, hembed, hvectors, hpoints⟩ := createPoints_ok sv hcreated
    have hembed' := hembed (data_ne_nil sv hpoints hsome)
    rw [List.map_map] at hembed'
    rw [hqueries, hvectors, batchQueries, map_snd_zip_zip (by simp)] at hresponses
    have hstored : Stored sv values chunkSize embeddings (created.map (·.1)) responses := {
      embedded := hembed'
      converted := hpoints
      some := hsome
      answered := hresponses
      aligned := haligned
      inserted := (insertMany_ok_iff sv hsome).mp hinsert }
    obtain ⟨ebos, hok⟩ := (batchHits_isOk_iff sv now).mpr (hsound _ _ _ hstored)
    rw [hresult, hok] at herror
    cases herror

/-- The first of two responses holds a payload that does not convert. -/
def oneMalformed (q : QueryPoints String) : List (ScoredPoint (Option QdrantPayload)) :=
  if q.filter = VectorStore.polymarketFed.filter then
    [{ score := .one, payload := some VectorStore.kalshiFed.payload }]
  else [{ score := .one, payload := none }]

/-- **A failure that stores the batch.** One response does not convert: the call fails, the hit
of the other market is lost, and both markets are stored. -/
theorem malformed_batch_stored :
    (multipleSearchAndInsert (fedCalls oneMalformed) fedBatch 0 0).result =
      .error "missing field" ∧
    (multipleSearchAndInsert (fedCalls oneMalformed) fedBatch 0 0).upserted.map (·.id) =
      [VectorStore.kalshiFed.info.uuid, VectorStore.polymarketFed.info.uuid] ∧
    ¬KeepsStore (multipleSearchAndInsert (fedCalls oneMalformed) fedBatch 0 0) := by
  have hresult : (multipleSearchAndInsert (fedCalls oneMalformed) fedBatch 0 0).result =
      .error "missing field" := by rfl
  have hids : (multipleSearchAndInsert (fedCalls oneMalformed) fedBatch 0 0).upserted.map (·.id) =
      [VectorStore.kalshiFed.info.uuid, VectorStore.polymarketFed.info.uuid] := by decide +kernel
  refine ⟨hresult, hids, fun hkeeps => ?_⟩
  rw [hkeeps _ hresult] at hids
  cases hids

/-! ## §6 Calls on a store -/

section Store

variable (store : VectorStore.Services V) (points : List (VectorStore.PointStruct V))

/-- A response of the store as the calls read it. -/
def toResponse (response : List VectorStore.ScoredPoint) : List (ScoredPoint QdrantPayload) :=
  response.map fun r => { score := r.score, payload := r.payload }

/-- The answer of a collection to a query. -/
def answer (q : QueryPoints V) : List (ScoredPoint QdrantPayload) :=
  toResponse (VectorStore.queryPoints store points q.vector q.scoreThreshold q.limit q.filter)

/-- A model and a collection that never fail, with payloads stored as they are. -/
def ofStore : Services QdrantPayload V QdrantPayload where
  formats := store.formats
  tryInto := QdrantPointData.new store.formats
  embed texts := .ok (texts.map store.embed)
  toPayload := .ok
  fromPayload := .ok
  query q := .ok (answer store points q)
  queryBatch qs := .ok (qs.map (answer store points))
  upsertPoints _ := .ok ()
  upsertPointsChunked _ _ := .ok ()

/-- A point as the collection keeps it. -/
def toStored (p : PointStruct V QdrantPayload) : VectorStore.PointStruct V where
  id := p.id
  vectors := p.vectors
  payload := p.payload

/-- Without failures, a hit is made as the store makes it. -/
theorem tryFromResults_ofStore (take : QdrantPayload) (response : List VectorStore.ScoredPoint) :
    tryFromResults (ofStore store points) take (toResponse response) =
      .ok (VectorStore.similarityHit take response) := by
  have hcandidates : (toResponse response).mapM (matchCandidate (ofStore store points)) =
      .ok ((toResponse response).map fun r =>
        { scored := r.score, marketInfo := r.payload.marketInfo }) := by
    apply mapM_eq_ok_map
    intro r _
    rfl
  rw [tryFromResults, hcandidates, toResponse, List.map_map]
  rfl

/-- Without failures, the loop over the responses is that of the store. -/
theorem batchHits_ofStore (now : ℤ)
    (results : List (QdrantPayload × List VectorStore.ScoredPoint)) :
    batchHits (ofStore store points) now (results.map fun r => (r.1, toResponse r.2)) =
      VectorStore.batchHits store now results := by
  induction results with
  | nil => rfl
  | cons r results ih =>
    obtain ⟨take, response⟩ := r
    rw [List.map_cons, batchHits, VectorStore.batchHits, ih, tryFromResults_ofStore]
    cases response with
    | nil => rfl
    | cons s response => rfl

/-- The point of a market, and its vector. -/
def pointAndVector (data : QdrantPointData) : PointStruct V QdrantPayload × V :=
  ({ id := data.id, vectors := store.embed data.questionVector, payload := data.payload },
    store.embed data.questionVector)

/-- Without failures, the points of a batch are those that the store makes. -/
theorem createPoints_ofStore (dataList : List QdrantPointData) :
    createPoints (ofStore store points) dataList = .ok (dataList.map (pointAndVector store)) := by
  unfold createPoints
  split
  · rename_i hempty
    obtain rfl := List.isEmpty_iff.mp hempty
    rfl
  · have hzip : dataList.zip ((dataList.map (·.questionVector)).map store.embed) =
        dataList.map fun data => (data, store.embed data.questionVector) := by
      have h := List.zip_map' (l := dataList) (f := id)
        (g := fun data => store.embed data.questionVector)
      rw [List.map_id] at h
      rw [List.map_map]
      exact h
    show List.mapM _ (dataList.zip ((dataList.map (·.questionVector)).map store.embed)) = _
    rw [hzip, List.mapM_map]
    apply mapM_eq_ok_map
    intro data _
    rfl

/-- Without failures, the points are inserted. -/
theorem insertMany_ofStore (pointStructs : List (PointStruct V QdrantPayload)) (chunkSize : ℕ) :
    (insertMany (ofStore store points) pointStructs chunkSize).result = .ok () := by
  unfold insertMany
  split
  · rfl
  · rfl

/-- **A batch on a store.** A batch whose services never fail is the batch of the discovery
model: it returns the same hits and leaves the same points. -/
theorem multipleSearchAndInsert_ofStore (values : List (QdrantPayload × Option Filter))
    (chunkSize : ℕ) (now : ℤ) :
    ((multipleSearchAndInsert (ofStore store points) values chunkSize now).result,
      ((multipleSearchAndInsert (ofStore store points) values chunkSize now).upserted.map
        toStored).foldl VectorStore.upsert points) =
      VectorStore.multipleSearchAndInsert store points values now := by
  have hcreated := createPoints_ofStore store points
    ((convertedData (ofStore store points) values).map (·.1))
  have hconverted : convertedData (ofStore store points) values =
      values.filterMap fun v =>
        (QdrantPointData.new store.formats v.1).toOption.map (·, v.2) := rfl
  rw [VectorStore.multipleSearchAndInsert, ← hconverted]
  -- no value converts: neither is anything asked nor stored
  by_cases hnil : convertedData (ofStore store points) values = []
  · have hcall : multipleSearchAndInsert (ofStore store points) values chunkSize now =
        { result := .ok [] } := by
      rw [multipleSearchAndInsert, hnil]
      rfl
    rw [hcall, hnil]
    rfl
  · -- a store answers each query, and stores what is inserted
    have hresponses : (ofStore store points).queryBatch (batchQueries
          ((((convertedData (ofStore store points) values).map (·.1)).map
            (pointAndVector store)).map (·.2))
          ((convertedData (ofStore store points) values).map (·.2))) =
        .ok (((convertedData (ofStore store points) values).map fun v =>
          VectorStore.queryPoints store points (VectorStore.createPoint store v.1).vectors
            similarityScoreThreshold 10 v.2).map toResponse) := by
      rw [batchQueries, List.map_map, List.map_map, List.zip_map', List.map_map, List.map_map]
      show Except.ok _ = _
      rw [List.map_map]
      rfl
    have hsome : (convertedData (ofStore store points) values).map (fun v =>
        VectorStore.queryPoints store points (VectorStore.createPoint store v.1).vectors
          similarityScoreThreshold 10 v.2) ≠ [] := by
      rw [Ne, List.map_eq_nil_iff]
      exact hnil
    rw [multipleSearchAndInsert_stored (ofStore store points) now hcreated hresponses
      (by rwa [Ne, List.map_eq_nil_iff]) (by rw [List.length_map, List.length_map])
      (insertMany_ofStore store points _ chunkSize)]
    dsimp only
    rw [if_neg hsome, ← batchHits_ofStore store points, List.zip_map_right, List.map_map,
      List.map_map, List.map_map]
    rfl

/-- **A single call on a store.** -/
theorem searchAndInsert_ofStore (payload : QdrantPayload) (scoreThreshold : F32)
    (filter : Option Filter) (now : ℤ) :
    ((searchAndInsert (ofStore store points) payload scoreThreshold filter now).result,
      ((searchAndInsert (ofStore store points) payload scoreThreshold filter now).upserted.map
        toStored).foldl VectorStore.upsert points) =
      VectorStore.searchAndInsert store points payload scoreThreshold filter now := by
  have hquery : ∀ vector, (ofStore store points).query
      (similaritySearch vector scoreThreshold 10 filter true) =
        .ok (toResponse (VectorStore.semanticSimilaritySearch store points vector scoreThreshold
          10 filter)) := fun _ => rfl
  have hcreate : ∀ data, createPoint (ofStore store points) data =
      .ok (pointAndVector store data) := fun _ => rfl
  -- a payload that does not convert is an error in both
  cases hdata : QdrantPointData.new store.formats payload with
  | error e =>
    have htry : (ofStore store points).tryInto payload = .error e := hdata
    simp only [searchAndInsert, VectorStore.searchAndInsert, hdata, htry]
    rfl
  | ok data =>
    have htry : (ofStore store points).tryInto payload = .ok data := hdata
    simp only [searchAndInsert, VectorStore.searchAndInsert, hdata, htry, hcreate, hquery,
      pointAndVector, VectorStore.createPoint, tryFromResults_ofStore]
    -- without a result nothing is stored; otherwise the point is, and the hit is sent
    by_cases hnil : VectorStore.semanticSimilaritySearch store points
        (store.embed data.questionVector) scoreThreshold 10 filter = []
    · refine Eq.trans ?_ (if_pos hnil).symm
      rw [hnil]
      rfl
    · refine Eq.trans ?_ (if_neg hnil).symm
      rw [if_neg (by simpa [toResponse] using hnil)]
      cases data.payload.marketInfo with
      | none => rfl
      | some info => rfl

end Store

end Degenerate.SearchCalls
