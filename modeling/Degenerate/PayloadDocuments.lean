import Degenerate.Retention
import Degenerate.SearchCalls

/-!
# Payloads as Documents

Qdrant stores the payload of a point as a map of values.  `TryFrom<QdrantPointData> for
PointStruct` writes a record into such a map, the filters of the searches look into it by the
paths of `vector_store.rs`, and `TryFrom<HashMap<String, Value>> for QdrantPayload` reads a
record back (`models.rs`).  The discovery model works with the records themselves; here the
calls run on the documents.

## Main Results

- `fromDocument_toDocument`: a record is read back as it was written
- `Represents.searchAndInsert`, `Represents.multipleSearchAndInsert`: the calls do not look into
  a payload
- `documents_refine_records`: the store of documents sends the hits of the store of records
-/

namespace Degenerate.PayloadDocuments

open Degenerate.Lib
open Degenerate.VectorStore (Filter Condition MatchValue CrossPlatformHit Market Arrival
  createCrossPlatformFilter platformNumber similarityScoreThreshold)
open Degenerate.SearchCalls

/-! ## §1 Documents -/

/-- `Value`, with the kinds that a payload is written with. -/
inductive Value where
  | null
  | integer (n : ℤ)
  | string (s : String)
  | struct (fields : List (String × Value))

/-- A payload: `HashMap<String, Value>`. -/
abbrev Document := List (String × Value)

/-- The value at a path. -/
def valueAt : List String → Document → Option Value
  | [], _ => none
  -- the last name may hold any value, the ones before it a struct
  | [name], d => d.lookup name
  | name :: rest, d =>
    match d.lookup name with
    | some (.struct fields) => valueAt rest fields
    | _ => none

/-- The names of a nested key. -/
def keyPath (key : String) : List String := (key.toList.splitOn '.').map String.ofList

/-- `Condition::matches`, on a document. -/
def Matches (c : Condition) (d : Document) : Bool :=
  match valueAt (keyPath c.key) d with
  | some (.string s) => c.value = .keyword s
  | some (.integer n) => c.value = .integer n
  | _ => false

/-- A filter on a document. -/
def passes (f : Filter) (d : Document) : Bool :=
  f.must.all (Matches · d) && f.mustNot.all (!Matches · d)

/-! ## §2 Writing and reading a record -/

/-- `Serialize for MarketInfo`. -/
def marketFields (info : MarketInfo) : Document := [
  ("uuid", .string info.uuid),
  ("market_id", .string info.marketId),
  ("question", .string info.question),
  ("outcome", .string info.outcome),
  ("rules", .string info.rules),
  ("market_category", .string info.marketCategory),
  ("market_subcategory", .string info.marketSubcategory),
  ("close_time_ms", .integer info.closeTimeMs),
  ("platform", .integer info.platform)]

/-- `Payload::try_from(json!(payload))`. -/
def toDocument (payload : QdrantPayload) : Document := [
  ("market_info", (payload.marketInfo.map fun info => .struct (marketFields info)).getD .null),
  ("qdrant_inserted_at", .integer payload.qdrantInsertedAt)]

/-- A field of type `String`. -/
def stringField (d : Document) (name : String) : Option String :=
  match d.lookup name with
  | some (.string s) => some s
  | _ => none

/-- A field of type `i64`. -/
def integerField (d : Document) (name : String) : Option ℤ :=
  match d.lookup name with
  | some (.integer n) => some n
  | _ => none

/-- `i32` as a platform number. -/
def inI32 (n : ℤ) : Bool := -2 ^ 31 ≤ n && n < 2 ^ 31

/-- `Deserialize for MarketInfo`: other fields are passed over. -/
def readMarketInfo (d : Document) : Option MarketInfo := do
  let uuid ← stringField d "uuid"
  let marketId ← stringField d "market_id"
  let question ← stringField d "question"
  let outcome ← stringField d "outcome"
  let rules ← stringField d "rules"
  let marketCategory ← stringField d "market_category"
  let marketSubcategory ← stringField d "market_subcategory"
  let closeTimeMs ← integerField d "close_time_ms"
  let platform ← (integerField d "platform").filter inI32
  return {
    uuid, marketId, question, outcome, rules, marketCategory, marketSubcategory, closeTimeMs,
    platform }

/-- `Option<MarketInfo>`: a field that is missing or null is nothing. -/
def readMarket : Option Value → Option (Option MarketInfo)
  | none | some .null => some none
  | some (.struct fields) => (readMarketInfo fields).map some
  | _ => none

/-- `TryFrom<HashMap<String, Value>> for QdrantPayload`. -/
def fromDocument (d : Document) : Option QdrantPayload := do
  let marketInfo ← readMarket (d.lookup "market_info")
  let qdrantInsertedAt ← integerField d "qdrant_inserted_at"
  return { marketInfo, qdrantInsertedAt }

/-- The platform of the record is an `i32`. -/
def Fits (payload : QdrantPayload) : Prop := ∀ info ∈ payload.marketInfo, inI32 info.platform

theorem readMarketInfo_marketFields {info : MarketInfo} (h : inI32 info.platform) :
    readMarketInfo (marketFields info) = some info := by
  simp [readMarketInfo, marketFields, stringField, integerField, List.lookup_cons, Option.filter, h]

/-- **Round trip.** A record is read back as it was written. -/
theorem fromDocument_toDocument {payload : QdrantPayload} (h : Fits payload) :
    fromDocument (toDocument payload) = some payload := by
  obtain ⟨marketInfo, qdrantInsertedAt⟩ := payload
  cases marketInfo with
  | none => rfl
  | some info =>
      have hinfo := readMarketInfo_marketFields (h info rfl)
      simp [fromDocument, toDocument, readMarket, integerField, List.lookup_cons, hinfo]

/-! ## §3 Paths -/

/-- The indexed fields: `setup_qdrant_payload_index`. -/
def indexedFields : List String := [
  "market_info.uuid", "market_info.platform", "market_info.market_category",
  "market_info.market_subcategory", "market_info.close_time_ms", "qdrant_inserted_at"]

/-- A value that a condition can match. -/
def MatchValue.toValue : MatchValue → Value
  | .keyword s => .string s
  | .integer n => .integer n

/-- **The paths name the fields of a record.** -/
theorem valueAt_toDocument {key : String} (hkey : key ∈ indexedFields) (payload : QdrantPayload) :
    valueAt (keyPath key) (toDocument payload) =
      (VectorStore.payloadField payload key).map MatchValue.toValue := by
  have hpaths : indexedFields.map keyPath = [
      ["market_info", "uuid"], ["market_info", "platform"], ["market_info", "market_category"],
      ["market_info", "market_subcategory"], ["market_info", "close_time_ms"],
      ["qdrant_inserted_at"]] := by decide +kernel
  simp only [indexedFields, List.map_cons, List.map_nil, List.cons.injEq, and_true] at hpaths
  obtain ⟨huuid, hplatform, hcategory, hsubcategory, hclose, hinserted⟩ := hpaths
  obtain ⟨marketInfo, qdrantInsertedAt⟩ := payload
  simp only [indexedFields, List.mem_cons, List.not_mem_nil, or_false] at hkey
  rcases hkey with rfl | rfl | rfl | rfl | rfl | rfl
  -- the last field is beside the market, the others are inside of it
  case inr.inr.inr.inr.inr => rw [hinserted]; rfl
  all_goals
    cases marketInfo <;>
      simp only [huuid, hplatform, hcategory, hsubcategory, hclose] <;> rfl

/-- A condition on an indexed field holds of the document if it holds of the record. -/
theorem matches_toDocument {c : Condition} (hkey : c.key ∈ indexedFields)
    (payload : QdrantPayload) : Matches c (toDocument payload) = c.holds payload := by
  rw [Matches, valueAt_toDocument hkey, Condition.holds]
  cases VectorStore.payloadField payload c.key with
  | none => simp
  | some v => cases v <;> simp [MatchValue.toValue, eq_comm]

/-! ## §4 The calls and the payloads -/

section Represents

variable {T V P Q : Type}

/-- A point with its payload in another form. -/
def mapPoint (f : P → Q) (p : PointStruct V P) : PointStruct V Q where
  id := p.id
  vectors := p.vectors
  payload := f p.payload

/-- A response with its payloads in another form. -/
def mapResponse (f : P → Q) (response : List (ScoredPoint P)) : List (ScoredPoint Q) :=
  response.map fun r => { score := r.score, payload := f r.payload }

/-- A call with its points in another form. -/
def mapCall {α : Type} (f : P → Q) (c : Call V P α) : Call V Q α where
  queries := c.queries
  upserted := c.upserted.map (mapPoint f)
  result := c.result

/-- An insertion with its points in another form. -/
def mapInsertion (f : P → Q) (i : Insertion V P) : Insertion V Q where
  stored := i.stored.map (mapPoint f)
  result := i.result

/-- **Two forms of the payloads.** The services agree up to the form `f`, for queries with
filters of a kind, and a payload that a query returns reads the same in both. -/
structure Represents (kind : Option Filter → Prop) (f : P → Q) (sv : Services T V P)
    (sv' : Services T V Q) : Prop where
  formats : sv'.formats = sv.formats
  tryInto : sv'.tryInto = sv.tryInto
  embed : sv'.embed = sv.embed
  toPayload : ∀ payload, sv'.toPayload payload = (sv.toPayload payload).map f
  query : ∀ q, kind q.filter → sv'.query q = (sv.query q).map (mapResponse f)
  queryBatch : ∀ qs, (∀ q ∈ qs, kind q.filter) →
    sv'.queryBatch qs = (sv.queryBatch qs).map (List.map (mapResponse f))
  fromPayload : ∀ q response, kind q.filter → sv.query q = .ok response →
    ∀ r ∈ response, sv'.fromPayload (f r.payload) = sv.fromPayload r.payload
  fromPayloads : ∀ qs responses, (∀ q ∈ qs, kind q.filter) → sv.queryBatch qs = .ok responses →
    ∀ response ∈ responses, ∀ r ∈ response,
      sv'.fromPayload (f r.payload) = sv.fromPayload r.payload
  upsertPoints : ∀ points, sv'.upsertPoints (points.map (mapPoint f)) = sv.upsertPoints points
  upsertPointsChunked : ∀ points n,
    sv'.upsertPointsChunked (points.map (mapPoint f)) n = sv.upsertPointsChunked points n

variable {kind : Option Filter → Prop} {f : P → Q} {sv : Services T V P} {sv' : Services T V Q}

/-- A hit does not depend on the form of the payloads that it is made of. -/
theorem tryFromResults_mapResponse {take : QdrantPayload} {response : List (ScoredPoint P)}
    (h : ∀ r ∈ response, sv'.fromPayload (f r.payload) = sv.fromPayload r.payload) :
    tryFromResults sv' take (mapResponse f response) = tryFromResults sv take response := by
  have hcandidates : (mapResponse f response).mapM (matchCandidate sv') =
      response.mapM (matchCandidate sv) := by
    rw [mapResponse, List.mapM_map]
    induction response with
    -- one candidate after the other; the first error ends both
    | nil => rfl
    | cons r response ih =>
        rw [List.mapM_cons, List.mapM_cons, ih fun s hs => h s (List.mem_cons_of_mem r hs)]
        simp only [Function.comp_apply, matchCandidate, h r List.mem_cons_self]
  rw [tryFromResults, tryFromResults, hcandidates]

namespace Represents

variable (h : Represents kind f sv sv')
include h

theorem pointStruct (data : QdrantPointData) (vector : V) :
    pointStruct sv' data vector = (pointStruct sv data vector).map (mapPoint f) := by
  unfold SearchCalls.pointStruct
  rw [h.toPayload]
  cases sv.toPayload data.payload <;> rfl

theorem createPoint (data : QdrantPointData) :
    createPoint sv' data = (createPoint sv data).map fun x => (mapPoint f x.1, x.2) := by
  unfold SearchCalls.createPoint
  rw [h.embed]
  cases sv.embed [data.questionVector] with
  | error e => rfl
  | ok vectors =>
      cases hhead : vectors.head? with
      | none =>
          simp only [bind, Except.bind, hhead]
          rfl
      | some vector =>
          simp only [bind, Except.bind, hhead, h.pointStruct]
          cases SearchCalls.pointStruct sv data vector <;> rfl

theorem insert (point : PointStruct V P) :
    insert sv' (mapPoint f point) = mapInsertion f (insert sv point) := by
  have hupsert := h.upsertPoints [point]
  simp only [List.map_cons, List.map_nil] at hupsert
  simp only [SearchCalls.insert, hupsert]
  cases sv.upsertPoints [point] <;> rfl

/-- **A single call** asks and answers the same. -/
theorem searchAndInsert {filter : Option Filter} (hkind : kind filter) (t : T)
    (scoreThreshold : F32) (now : ℤ) : searchAndInsert sv' t scoreThreshold filter now =
      mapCall f (searchAndInsert sv t scoreThreshold filter now) := by
  unfold SearchCalls.searchAndInsert
  rw [h.tryInto]
  cases sv.tryInto t with
  | error e => rfl
  | ok data =>
      -- from here on the two calls take the same branch at each step
      simp only [h.createPoint]
      cases SearchCalls.createPoint sv data with
      | error e => rfl
      | ok point =>
          obtain ⟨point, vector⟩ := point
          have hrequest : kind (similaritySearch vector scoreThreshold 10 filter true).filter :=
            hkind
          simp only [Except.map, h.query _ hrequest]
          cases hresponse : sv.query (similaritySearch vector scoreThreshold 10 filter true) with
          | error e => rfl
          | ok response =>
              have hread := h.fromPayload _ response hrequest hresponse
              have hempty : (mapResponse f response).isEmpty = response.isEmpty := by
                cases response <;> rfl
              simp only [hempty, tryFromResults_mapResponse hread]
              split
              · rfl
              · cases data.payload.marketInfo with
                | none => rfl
                | some info =>
                    simp only
                    cases tryFromResults sv data.payload response with
                    | error e => rfl
                    | ok hit =>
                        simp only [h.insert, clientEbo, h.formats]
                        rfl

theorem createPoints (dataList : List QdrantPointData) : createPoints sv' dataList =
    (createPoints sv dataList).map (List.map fun x => (mapPoint f x.1, x.2)) := by
  unfold SearchCalls.createPoints
  split
  · rfl
  · -- the model is asked the same, and each vector goes into its own point
    rw [h.embed]
    cases sv.embed (dataList.map (·.questionVector)) with
    | error e => rfl
    | ok embeddings =>
        simp only [bind, Except.bind]
        induction dataList.zip embeddings with
        | nil => rfl
        | cons x xs ih =>
            rw [List.mapM_cons, List.mapM_cons, ih]
            simp only [bind, Except.bind, h.pointStruct]
            cases SearchCalls.pointStruct sv x.1 x.2 with
            | error e => rfl
            | ok point =>
                simp only [Except.map, pure, Except.pure]
                cases List.mapM (m := Except String) _ xs <;> rfl

theorem insertMany (points : List (PointStruct V P)) (chunkSize : ℕ) :
    insertMany sv' (points.map (mapPoint f)) chunkSize =
      mapInsertion f (insertMany sv points chunkSize) := by
  have hempty : (points.map (mapPoint f)).isEmpty = points.isEmpty := by cases points <;> rfl
  simp only [SearchCalls.insertMany, hempty, h.upsertPointsChunked]
  split
  · rfl
  · cases sv.upsertPointsChunked points (if chunkSize < 2000 then 2000 else chunkSize) <;> rfl

theorem batchHits (now : ℤ) {takes : List QdrantPayload} {responses : List (List (ScoredPoint P))}
    (hread : ∀ response ∈ responses, ∀ r ∈ response,
      sv'.fromPayload (f r.payload) = sv.fromPayload r.payload) :
    batchHits sv' now (takes.zip (responses.map (mapResponse f))) =
      batchHits sv now (takes.zip responses) := by
  induction responses generalizing takes with
  | nil => rw [List.map_nil, List.zip_nil_right, List.zip_nil_right]; rfl
  | cons response responses ih =>
      cases takes with
      | nil => rfl
      | cons take takes =>
          -- an empty response is one on both sides
          have hempty : (mapResponse f response).isEmpty = response.isEmpty := by
            cases response <;> rfl
          have hrest : SearchCalls.batchHits sv' now (takes.zip (responses.map (mapResponse f))) =
              SearchCalls.batchHits sv now (takes.zip responses) := by
            apply ih
            intro s hs
            exact hread s (List.mem_cons_of_mem response hs)
          rw [List.map_cons, List.zip_cons_cons, List.zip_cons_cons, SearchCalls.batchHits,
            SearchCalls.batchHits, hempty, hrest,
            tryFromResults_mapResponse (hread response List.mem_cons_self)]
          simp only [clientEbo, h.formats]

/-- **A batch** asks and answers the same. -/
theorem multipleSearchAndInsert {values : List (T × Option Filter)}
    (hkind : ∀ v ∈ values, kind v.2) (chunkSize : ℕ) (now : ℤ) :
    multipleSearchAndInsert sv' values chunkSize now =
      mapCall f (multipleSearchAndInsert sv values chunkSize now) := by
  have hconverted : convertedData sv' values = convertedData sv values := by
    simp only [convertedData, h.tryInto]
  unfold SearchCalls.multipleSearchAndInsert
  simp only [hconverted, h.createPoints]
  cases SearchCalls.createPoints sv ((convertedData sv values).map (·.1)) with
  | error e => rfl
  | ok points =>
      have hpoints : (points.map fun x => (mapPoint f x.1, x.2)).map (·.1) =
          (points.map (·.1)).map (mapPoint f) := by simp [Function.comp_def]
      have hvectors : (points.map fun x => (mapPoint f x.1, x.2)).map (·.2) =
          points.map (·.2) := by simp [Function.comp_def]
      -- each query has the filter of a value
      have hqueries : ∀ q ∈ batchQueries (points.map (·.2)) ((convertedData sv values).map (·.2)),
          kind q.filter := by
        intro q hq
        obtain ⟨⟨vector, filter⟩, hmem, rfl⟩ := List.mem_map.mp hq
        obtain ⟨v, hv, rfl⟩ := List.mem_map.mp (List.of_mem_zip hmem).2
        obtain ⟨value, hvalue, hv⟩ := List.mem_filterMap.mp hv
        obtain ⟨data, -, rfl⟩ := Option.map_eq_some_iff.mp hv
        exact hkind value hvalue
      simp only [Except.map, hpoints, hvectors, h.queryBatch _ hqueries]
      cases hresponses : sv.queryBatch
        (batchQueries (points.map (·.2)) ((convertedData sv values).map (·.2))) with
      | error e => rfl
      | ok responses =>
          have hread := h.fromPayloads _ responses hqueries hresponses
          have hempty : (responses.map (mapResponse f)).isEmpty = responses.isEmpty := by
            cases responses <;> rfl
          simp only [hempty, List.length_map, h.insertMany, h.batchHits now hread]
          split
          · rfl
          · split
            · rfl
            · rfl

end Represents

end Represents

/-! ## §5 A store of documents -/

section Store

variable {V : Type} (store : VectorStore.Services V)

/-- `query_points` on documents. -/
def queryDocuments (points : List (PointStruct V Document)) (q : QueryPoints V) :
    List (ScoredPoint Document) :=
  let passing := points.filter fun p =>
    q.filter.all (passes · p.payload) && q.scoreThreshold.le (store.score q.vector p.vectors)
  let scored := passing.map fun p =>
    { score := store.score q.vector p.vectors, payload := p.payload }
  (scored.mergeSort fun a b => b.score.le a.score).take q.limit

/-- `upsert_points` of one point. -/
def upsertDocument (points : List (PointStruct V Document)) (point : PointStruct V Document) :
    List (PointStruct V Document) :=
  if points.any (·.id = point.id) then points.map fun p => if p.id = point.id then point else p
  else points ++ [point]

/-- What a document is read as; the text of the error is not one of this program. -/
def readPayload (d : Document) : Except String QdrantPayload :=
  match fromDocument d with
  | some payload => .ok payload
  | none => .error ""

/-- A model and a collection of documents that never fail. -/
def ofDocuments (points : List (PointStruct V Document)) : Services QdrantPayload V Document where
  formats := store.formats
  tryInto := QdrantPointData.new store.formats
  embed texts := .ok (texts.map store.embed)
  toPayload payload := .ok (toDocument payload)
  fromPayload := readPayload
  query q := .ok (queryDocuments store points q)
  queryBatch qs := .ok (qs.map (queryDocuments store points))
  upsertPoints _ := .ok ()
  upsertPointsChunked _ _ := .ok ()

/-- The point of a record, with its document. -/
def documentPoint (p : VectorStore.PointStruct V) : PointStruct V Document where
  id := p.id
  vectors := p.vectors
  payload := toDocument p.payload

/-- The conditions of a filter are on indexed fields. -/
def Indexed (filter : Option Filter) : Prop :=
  ∀ f ∈ filter, ∀ c ∈ f.must ++ f.mustNot, c.key ∈ indexedFields

theorem indexed_filter {fmt : Formats} (m : Market fmt) : Indexed m.filter := by
  intro f hf
  cases hf
  simp [indexedFields]

theorem passes_toDocument {f : Filter} (hf : ∀ c ∈ f.must ++ f.mustNot, c.key ∈ indexedFields)
    (payload : QdrantPayload) : passes f (toDocument payload) = f.holds payload := by
  have hmust : ∀ c ∈ f.must, Matches c (toDocument payload) = c.holds payload :=
    fun c hc => matches_toDocument (hf c (List.mem_append_left _ hc)) payload
  have hmustNot : ∀ c ∈ f.mustNot, Matches c (toDocument payload) = c.holds payload :=
    fun c hc => matches_toDocument (hf c (List.mem_append_right _ hc)) payload
  rw [Bool.eq_iff_iff, passes, Filter.holds, Bool.and_eq_true, Bool.and_eq_true]
  simp only [List.all_eq_true]
  apply and_congr
  · exact forall₂_congr fun c hc => by rw [hmust c hc]
  · exact forall₂_congr fun c hc => by rw [hmustNot c hc]

/-- A query finds in the documents what it finds in the records. -/
theorem queryDocuments_map (points : List (VectorStore.PointStruct V)) {q : QueryPoints V}
    (hq : Indexed q.filter) : queryDocuments store (points.map documentPoint) q =
      mapResponse toDocument (answer store points q) := by
  -- filter, sort and take, each of them before or after the change of form
  have hpassing : (points.map documentPoint).filter (fun p =>
      q.filter.all (passes · p.payload) && q.scoreThreshold.le (store.score q.vector p.vectors)) =
        (points.filter fun p => q.filter.all (·.holds p.payload) &&
          q.scoreThreshold.le (store.score q.vector p.vectors)).map documentPoint := by
    rw [List.filter_map]
    congr 1
    apply List.filter_congr
    intro p _
    rw [Function.comp_apply]
    congr 1
    cases hfilter : q.filter with
    | none => rfl
    | some f => exact passes_toDocument (hq f hfilter) p.payload
  have hsort : ∀ l : List VectorStore.ScoredPoint,
      mapResponse toDocument (toResponse (l.mergeSort fun a b => b.score.le a.score)) =
        (mapResponse toDocument (toResponse l)).mergeSort fun a b => b.score.le a.score := by
    intro l
    rw [toResponse, mapResponse, List.map_map, toResponse, mapResponse, List.map_map]
    exact List.map_mergeSort fun _ _ _ _ => rfl
  have htake : ∀ (l : List VectorStore.ScoredPoint) (n : ℕ),
      mapResponse toDocument (toResponse (l.take n)) =
        (mapResponse toDocument (toResponse l)).take n := by
    intro l n
    simp only [mapResponse, toResponse, List.map_take]
  rw [answer, VectorStore.queryPoints, htake, hsort, queryDocuments, hpassing]
  simp only [mapResponse, toResponse, List.map_map]
  rfl

theorem upsertDocument_map (points : List (VectorStore.PointStruct V))
    (p : VectorStore.PointStruct V) :
    upsertDocument (points.map documentPoint) (documentPoint p) =
      (VectorStore.upsert points p).map documentPoint := by
  have hany : (points.map documentPoint).any (·.id = (documentPoint p).id) =
      points.any (·.id = p.id) := by
    rw [List.any_map]
    rfl
  rw [upsertDocument, VectorStore.upsert, hany]
  split
  · rw [List.map_map, List.map_map]
    apply List.map_congr_left
    intro q _
    rw [Function.comp_apply, Function.comp_apply]
    exact (apply_ite documentPoint (q.id = p.id) p q).symm
  · rw [List.map_append]
    rfl

theorem foldl_upsertDocument_map (new : List (PointStruct V QdrantPayload)) :
    ∀ points : List (VectorStore.PointStruct V),
      (new.map (mapPoint toDocument)).foldl upsertDocument (points.map documentPoint) =
        ((new.map toStored).foldl VectorStore.upsert points).map documentPoint := by
  induction new with
  | nil => exact fun _ => rfl
  | cons p new ih =>
      intro points
      rw [List.map_cons, List.map_cons, List.foldl_cons, List.foldl_cons, ← ih,
        ← upsertDocument_map]
      rfl

/-- **Documents represent records** as long as every stored record is read back. -/
theorem represents_ofDocuments {points : List (VectorStore.PointStruct V)}
    (hpoints : ∀ p ∈ points, Fits p.payload) :
    Represents Indexed toDocument (ofStore store points)
      (ofDocuments store (points.map documentPoint)) := by
  have hread : ∀ q : QueryPoints V, ∀ r ∈ answer store points q,
      (ofDocuments store (points.map documentPoint)).fromPayload (toDocument r.payload) =
        (ofStore store points).fromPayload r.payload := by
    intro q r hr
    -- what a query returns is stored
    have hmem : ∃ p ∈ points, r.payload = p.payload := by
      simp only [answer, toResponse, VectorStore.queryPoints] at hr
      obtain ⟨s, hs, rfl⟩ := List.mem_map.mp hr
      obtain ⟨p, hp, rfl⟩ := List.mem_map.mp (List.mem_mergeSort.mp (List.mem_of_mem_take hs))
      exact ⟨p, List.mem_of_mem_filter hp, rfl⟩
    obtain ⟨p, hp, hpayload⟩ := hmem
    have hback := fromDocument_toDocument (hpoints p hp)
    rw [← hpayload] at hback
    show readPayload (toDocument r.payload) = Except.ok r.payload
    rw [readPayload, hback]
  constructor
  · rfl
  · rfl
  · rfl
  · exact fun _ => rfl
  · exact fun q hq => congrArg Except.ok (queryDocuments_map store points hq)
  · intro qs hqs
    refine congrArg Except.ok ?_
    rw [List.map_map]
    exact List.map_congr_left fun q hq => queryDocuments_map store points (hqs q hq)
  · intro q response _ hresponse r hr
    cases hresponse
    exact hread q r hr
  · intro qs responses _ hresponses response hresponse r hr
    cases hresponses
    obtain ⟨q, -, rfl⟩ := List.mem_map.mp hresponse
    exact hread q r hr
  · exact fun _ => rfl
  · exact fun _ _ => rfl

/-! ## §6 Runs -/

/-- The collection of documents, and the hits sent so far. -/
structure DocumentStore (V : Type) where
  points : List (PointStruct V Document) := []
  emitted : List CrossPlatformHit := []

/-- One call of either path, as the live handlers and the backfills make it. -/
def DocumentStore.ingest (st : DocumentStore V) : Arrival store → DocumentStore V
  | .live m now =>
    let call := searchAndInsert (ofDocuments store st.points) m.payload similarityScoreThreshold
      m.filter now
    { points := call.upserted.foldl upsertDocument st.points
      emitted := st.emitted ++ (call.result.toOption.join).toList }
  | .batch _ ms now _ =>
    let call := multipleSearchAndInsert (ofDocuments store st.points)
      (ms.map fun m => (m.payload, m.filter)) 100 now
    { points := call.upserted.foldl upsertDocument st.points
      emitted := st.emitted ++ (call.result.toOption).getD [] }

/-- The collection of documents after several arrivals. -/
def DocumentStore.ingestAll (as : List (Arrival store)) : DocumentStore V :=
  as.foldl (DocumentStore.ingest store) {}

/-- A store of documents stands for one of records, the points of which are those of markets. -/
structure StandsFor (d : DocumentStore V) (st : VectorStore.Discovery V) : Prop where
  points : d.points = st.points.map documentPoint
  emitted : d.emitted = st.emitted
  source : ∀ p ∈ st.points, ∃ m : Market store.formats, p = VectorStore.point store m

theorem fits_payload {fmt : Formats} (m : Market fmt) : Fits m.payload := by
  intro info hinfo
  cases hinfo
  rw [m.platform_eq]
  cases m.platform <;> decide

variable {store}

theorem StandsFor.represents {d : DocumentStore V} {st : VectorStore.Discovery V}
    (h : StandsFor store d st) :
    Represents Indexed toDocument (ofStore store st.points) (ofDocuments store d.points) := by
  rw [h.points]
  apply represents_ofDocuments
  intro p hp
  obtain ⟨m, rfl⟩ := h.source p hp
  exact fits_payload m

/-- **One arrival** keeps the two together. -/
theorem StandsFor.ingest {d : DocumentStore V} {st : VectorStore.Discovery V}
    (h : StandsFor store d st) (a : Arrival store) :
    StandsFor store (d.ingest store a) (VectorStore.ingest store st a) := by
  have hsource : ∀ p ∈ (VectorStore.ingest store st a).points,
      ∃ m : Market store.formats, p = VectorStore.point store m := by
    intro p hp
    rcases VectorStore.mem_of_mem_ingest hp with hp | ⟨m, -, rfl⟩
    · exact h.source p hp
    · exact ⟨m, rfl⟩
  cases a with
  | live m now =>
      have hcall := h.represents.searchAndInsert (indexed_filter m) m.payload
        similarityScoreThreshold now
      have hstore := searchAndInsert_ofStore store st.points m.payload similarityScoreThreshold
        m.filter now
      refine ⟨?_, ?_, hsource⟩
      -- the call on documents is the call on records, and that is the discovery model
      · show List.foldl upsertDocument d.points (searchAndInsert _ _ _ _ _).upserted = _
        rw [hcall, h.points]
        refine (foldl_upsertDocument_map _ st.points).trans ?_
        exact congrArg (List.map documentPoint) (congrArg Prod.snd hstore)
      · show d.emitted ++ (searchAndInsert _ _ _ _ _).result.toOption.join.toList = _
        rw [hcall, h.emitted]
        exact congrArg (fun r => st.emitted ++ (Except.toOption r).join.toList)
          (congrArg Prod.fst hstore)
  | batch p ms now single =>
      have hkind : ∀ v ∈ ms.map fun m => (m.payload, m.filter), Indexed v.2 := by
        intro v hv
        obtain ⟨m, -, rfl⟩ := List.mem_map.mp hv
        exact indexed_filter m
      have hcall := h.represents.multipleSearchAndInsert hkind 100 now
      have hstore := multipleSearchAndInsert_ofStore store st.points
        (ms.map fun m => (m.payload, m.filter)) 100 now
      refine ⟨?_, ?_, hsource⟩
      · show List.foldl upsertDocument d.points (multipleSearchAndInsert _ _ _ _).upserted = _
        rw [hcall, h.points]
        refine (foldl_upsertDocument_map _ st.points).trans ?_
        exact congrArg (List.map documentPoint) (congrArg Prod.snd hstore)
      · show d.emitted ++ ((multipleSearchAndInsert _ _ _ _).result.toOption).getD [] = _
        rw [hcall, h.emitted]
        exact congrArg (fun r => st.emitted ++ (Except.toOption r).getD [])
          (congrArg Prod.fst hstore)

variable (store)

/-- **Documents refine records.** Whatever arrives by either path, the calls on a collection of
documents send the hits of the discovery model; the collection holds the documents of its
points, and each of them is read back as the record of a market. -/
theorem documents_refine_records (as : List (Arrival store)) :
    (DocumentStore.ingestAll store as).emitted = (VectorStore.ingestAll store as).emitted ∧
      (DocumentStore.ingestAll store as).points =
        (VectorStore.ingestAll store as).points.map documentPoint ∧
      ∀ p ∈ (DocumentStore.ingestAll store as).points, ∃ m : Market store.formats,
        p.id = m.info.uuid ∧ fromDocument p.payload = some m.payload := by
  -- the run, arrival by arrival
  have hrun : StandsFor store (DocumentStore.ingestAll store as)
      (VectorStore.ingestAll store as) := by
    induction as using List.reverseRecOn with
    | nil => exact ⟨rfl, rfl, fun p hp => absurd hp List.not_mem_nil⟩
    | append_singleton as a ih =>
        rw [VectorStore.ingestAll_concat, DocumentStore.ingestAll, List.foldl_concat]
        exact ih.ingest a
  refine ⟨hrun.emitted, hrun.points, fun p hp => ?_⟩
  rw [hrun.points] at hp
  obtain ⟨q, hq, rfl⟩ := List.mem_map.mp hp
  obtain ⟨m, rfl⟩ := hrun.source q hq
  exact ⟨m, rfl, fromDocument_toDocument (fits_payload m)⟩

end Store

end Degenerate.PayloadDocuments
