import Degenerate.Markets
import Degenerate.Lib.SearchThenInsert

/-!
# Discovery in the Vector Store

The store of listed markets (`vector_store.rs`).  A point is a market's payload under its
identifier, with the embedding of its question and outcomes; a search returns the points
that pass a filter and are similar enough, and its hits go to the dashboard for review.

Markets arrive by two paths.  The backfill searches for every market of a batch and then
stores the whole batch.  The live path stores a market only if its search found something,
so a market that arrives before its counterparts is neither found nor stored, and when a
counterpart arrives later there is nothing to find.

## Main Results

- `points_eq`: the collection holds what the two insertion rules of the index store
- `discovery_complete_iff`: when every pair of counterparts is discovered
- `pair_missed`: two live markets with the same text, of which neither is ever stored
-/

namespace Degenerate.VectorStore

open Degenerate.Lib

/-! ## §1 Filters -/

/-- `MatchValue`. -/
inductive MatchValue where
  | keyword (s : String)
  | integer (n : ℤ)
  deriving DecidableEq

/-- The indexed fields of a payload, under their names. -/
def payloadField (payload : QdrantPayload) (key : String) : Option MatchValue :=
  if key = "qdrant_inserted_at" then some (.integer payload.qdrantInsertedAt)
  else payload.marketInfo.bind fun info =>
    if key = "market_info.uuid" then some (.keyword info.uuid)
    else if key = "market_info.market_category" then some (.keyword info.marketCategory)
    else if key = "market_info.market_subcategory" then some (.keyword info.marketSubcategory)
    else if key = "market_info.platform" then some (.integer info.platform)
    else if key = "market_info.close_time_ms" then some (.integer info.closeTimeMs)
    else none

/-- `Condition::matches`. -/
structure Condition where
  key : String
  value : MatchValue
  deriving DecidableEq

def Condition.holds (c : Condition) (payload : QdrantPayload) : Bool :=
  payloadField payload c.key = some c.value

/-- `Filter`, of which the code sets these two lists. -/
structure Filter where
  must : List Condition
  mustNot : List Condition
  deriving DecidableEq

def Filter.holds (f : Filter) (payload : QdrantPayload) : Bool :=
  f.must.all (·.holds payload) && f.mustNot.all (!·.holds payload)

/-- `platform.into()`. -/
def platformNumber : Platform → ℤ
  | .polymarket => 0
  | .kalshi => 1

/-- `create_cross_platform_filter`. -/
def createCrossPlatformFilter (platform : Option Platform) (market : MarketTag) :
    Option Filter :=
  platform.map fun platform => {
    must := [
      ⟨"market_info.market_category", .keyword market.info.marketCategory⟩,
      ⟨"market_info.market_subcategory", .keyword market.info.marketSubcategory⟩]
    mustNot := [⟨"market_info.platform", .integer (platformNumber platform)⟩] }

/-! ## §2 Points and searches -/

/-- What the store takes from the embedding model and from Qdrant. -/
structure Services (V : Type) where
  formats : Formats
  /-- `SentenceTransformer::embed`, for one text. -/
  embed : String → V
  /-- `Distance::Cosine`. -/
  score : V → V → F32
  score_comm : ∀ v w, score v w = score w v

/-- `PointStruct`. -/
structure PointStruct (V : Type) where
  id : String
  vectors : V
  payload : QdrantPayload
  deriving DecidableEq

/-- `ScoredPoint`. -/
structure ScoredPoint where
  score : F32
  payload : QdrantPayload
  deriving DecidableEq

variable {V : Type} (sv : Services V)

/-- `upsert_points`: replace the point of the same identifier, or add one. -/
def upsert (points : List (PointStruct V)) (point : PointStruct V) : List (PointStruct V) :=
  if points.any (·.id = point.id) then
    points.map fun p => if p.id = point.id then point else p
  else points ++ [point]

/-- `query_points` for the nearest vectors: the points that pass the filter and the
threshold, best first, up to the limit. -/
def queryPoints (points : List (PointStruct V)) (vector : V) (scoreThreshold : F32)
    (limit : ℕ) (filter : Option Filter) : List ScoredPoint :=
  let passing := points.filter fun p =>
    filter.all (·.holds p.payload) && scoreThreshold.le (sv.score vector p.vectors)
  let scored := passing.map fun p => { score := sv.score vector p.vectors, payload := p.payload }
  (scored.mergeSort fun a b => b.score.le a.score).take limit

/-- `SIMILARITY_SCORE_THRESHOLD`. -/
def similarityScoreThreshold : F32 := .fin ⟨75, 2⟩

/-- `semantic_similarity_search`; a zero stands for the default. -/
def semanticSimilaritySearch (points : List (PointStruct V)) (vector : V) (scoreThreshold : F32)
    (limit : ℕ) (filter : Option Filter) : List ScoredPoint :=
  let limit := if limit = 0 then 10 else limit
  let scoreThreshold :=
    if scoreThreshold.le .zero && ExactFloat.zero.le scoreThreshold then .fin ⟨8, 1⟩
    else scoreThreshold
  queryPoints sv points vector scoreThreshold limit filter

/-- `create_point`, and each element of `create_points`. -/
def createPoint (data : QdrantPointData) : PointStruct V where
  id := data.id
  vectors := sv.embed data.questionVector
  payload := data.payload

/-- `SimilarityHit::try_from_results`. -/
def similarityHit (anchor : QdrantPayload) (results : List ScoredPoint) : SimilarityHit where
  anchor := anchor.marketInfo
  «matches» := results.map fun r => { scored := r.score, marketInfo := r.payload.marketInfo }

/-! ## §3 Search and insert -/

/-- A `ClientEbo` with the action `CrossPlatformHit`. -/
structure CrossPlatformHit where
  correlationId : String
  actionAt : ℤ
  hit : SimilarityHit
  deriving DecidableEq

/-- The message for a market whose search found something. -/
def crossPlatformHit (anchor : QdrantPayload) (info : MarketInfo) (results : List ScoredPoint)
    (now : ℤ) : CrossPlatformHit where
  correlationId := generateUuidV5 sv.formats (info.uuid ++ ":" ++ info.marketId)
  actionAt := now
  hit := similarityHit anchor results

/-- `search_and_insert`: the message, if any, and the points afterwards. -/
def searchAndInsert (points : List (PointStruct V)) (payload : QdrantPayload)
    (scoreThreshold : F32) (filter : Option Filter) (now : ℤ) :
    Except String (Option CrossPlatformHit) × List (PointStruct V) :=
  match QdrantPointData.new sv.formats payload with
  | .error e => (.error e, points)
  | .ok pointData =>
    let anchor := pointData.payload
    let point := createPoint sv pointData
    let response := semanticSimilaritySearch sv points point.vectors scoreThreshold 10 filter
    -- without a match the market is not stored
    if response = [] then (.ok none, points)
    else
      match anchor.marketInfo with
      | none => (.error "market should not be None", points)
      | some info =>
        (.ok (some (crossPlatformHit sv anchor info response now)), upsert points point)

/-- The messages of a batch, for the markets whose searches found something. -/
def batchHits (now : ℤ) :
    List (QdrantPayload × List ScoredPoint) → Except String (List CrossPlatformHit)
  | [] => .ok []
  | (take, response) :: rest => do
    if response = [] then batchHits now rest
    else
      let some info := take.marketInfo | throw "market_info should not be None"
      let ebos ← batchHits now rest
      return crossPlatformHit sv take info response now :: ebos

/-- `multiple_search_and_insert`: all searches run before the batch is stored.  The size of
the chunks in which it is sent makes no difference. -/
def multipleSearchAndInsert (points : List (PointStruct V))
    (values : List (QdrantPayload × Option Filter)) (now : ℤ) :
    Except String (List CrossPlatformHit) × List (PointStruct V) :=
  let converted := values.filterMap fun (payload, filter) =>
    (QdrantPointData.new sv.formats payload).toOption.map (·, filter)
  let takes := converted.map (·.1.payload)
  let pointStructs := converted.map (createPoint sv ·.1)
  let responses := converted.map fun (data, filter) =>
    queryPoints sv points (createPoint sv data).vectors similarityScoreThreshold 10 filter
  if responses = [] then (.ok [], points)
  else (batchHits sv now (takes.zip responses), pointStructs.foldl upsert points)

/-! ## §4 Arriving markets -/

/-- A market that passes the checks, with the tag and the platform under which it was
fetched. -/
structure Market (fmt : Formats) where
  info : MarketInfo
  insertedAt : ℤ
  tag : MarketTag
  platform : Platform
  valid : QdrantPointData.validate fmt info = .ok ()
  category_eq : info.marketCategory = tag.info.marketCategory
  subcategory_eq : info.marketSubcategory = tag.info.marketSubcategory
  platform_eq : info.platform = platformNumber platform

section Market

variable {fmt : Formats}

/-- The payload of a market. -/
def Market.payload (m : Market fmt) : QdrantPayload where
  marketInfo := some m.info
  qdrantInsertedAt := m.insertedAt

/-- It is what `from_market` makes of the record under the tag of the market. -/
theorem Market.payload_eq_fromMarket (m : Market fmt) :
    m.payload = QdrantPayload.fromMarket m.info m.tag.info.marketCategory
      m.tag.info.marketSubcategory m.insertedAt := by
  rw [← m.category_eq, ← m.subcategory_eq]
  rfl

/-- The text that is embedded. -/
def Market.questionVector (m : Market fmt) : String :=
  "Question: " ++ m.info.question ++ " " ++ "Possible outcomes: " ++ m.info.outcome

/-- The filter that both callers pass. -/
def Market.filter (m : Market fmt) : Option Filter :=
  createCrossPlatformFilter (some m.platform) m.tag

/-- A valid market converts. -/
theorem Market.new_payload (m : Market fmt) :
    QdrantPointData.new fmt m.payload =
      .ok { id := m.info.uuid, questionVector := m.questionVector, payload := m.payload } := by
  simp [QdrantPointData.new, Market.payload, m.valid, Market.questionVector, pure, Except.pure]

end Market

/-- An arrival: a market of a live stream, or a batch of one platform's backfill. -/
inductive Arrival where
  | live (m : Market sv.formats) (now : ℤ)
  | batch (platform : Platform) (ms : List (Market sv.formats)) (now : ℤ)
      (single : ∀ m ∈ ms, m.platform = platform)

/-- The markets of an arrival. -/
def Arrival.markets {sv : Services V} : Arrival sv → List (Market sv.formats)
  | .live m _ => [m]
  | .batch _ ms _ _ => ms

/-- The collection, and the hits sent so far. -/
structure Discovery (V : Type) where
  points : List (PointStruct V) := []
  emitted : List CrossPlatformHit := []

/-- One call of either path; both callers forward every hit. -/
def ingest (st : Discovery V) : Arrival sv → Discovery V
  | .live m now =>
    let (ebo, points) :=
      searchAndInsert sv st.points m.payload similarityScoreThreshold m.filter now
    { points := points, emitted := st.emitted ++ (ebo.toOption.join).toList }
  | .batch _ ms now _ =>
    let (ebos, points) :=
      multipleSearchAndInsert sv st.points (ms.map fun m => (m.payload, m.filter)) now
    { points := points, emitted := st.emitted ++ (ebos.toOption).getD [] }

/-- The store after several arrivals, from the empty one. -/
def ingestAll (as : List (Arrival sv)) : Discovery V := as.foldl (ingest sv) {}

/-! ## §5 Counterparts -/

/-- **Counterparts.** Markets of different platforms, of the same category and subcategory,
whose texts are similar enough. -/
def Counterpart (m n : Market sv.formats) : Prop :=
  m.platform ≠ n.platform ∧ m.info.marketCategory = n.info.marketCategory ∧
    m.info.marketSubcategory = n.info.marketSubcategory ∧
    similarityScoreThreshold.le (sv.score (sv.embed m.questionVector) (sv.embed n.questionVector))

instance : DecidableRel (Counterpart sv) :=
  fun _ _ => inferInstanceAs (Decidable (_ ∧ _ ∧ _ ∧ _))

theorem Counterpart.symm {m n : Market sv.formats} (h : Counterpart sv m n) :
    Counterpart sv n m := by
  obtain ⟨hplatform, hcategory, hsubcategory, hscore⟩ := h
  refine ⟨hplatform.symm, hcategory.symm, hsubcategory.symm, ?_⟩
  rw [sv.score_comm]
  exact hscore

/-- The point of a market. -/
def point (m : Market sv.formats) : PointStruct V where
  id := m.info.uuid
  vectors := sv.embed m.questionVector
  payload := m.payload

theorem platformNumber_inj {p q : Platform} : platformNumber p = platformNumber q ↔ p = q := by
  cases p <;> cases q <;> simp [platformNumber]

/-- A stored market passes another's filter if it is of the other platform and of the same
category and subcategory. -/
theorem filter_holds_iff {fmt : Formats} (m n : Market fmt) :
    m.filter.all (·.holds n.payload) = true ↔
      m.platform ≠ n.platform ∧ m.info.marketCategory = n.info.marketCategory ∧
        m.info.marketSubcategory = n.info.marketSubcategory := by
  have hcategory : ∀ c, Condition.holds ⟨"market_info.market_category", .keyword c⟩ n.payload =
      decide (n.info.marketCategory = c) := by
    simp [Condition.holds, payloadField, Market.payload]
  have hsubcategory : ∀ c,
      Condition.holds ⟨"market_info.market_subcategory", .keyword c⟩ n.payload =
        decide (n.info.marketSubcategory = c) := by
    simp [Condition.holds, payloadField, Market.payload]
  have hplatform : ∀ p,
      Condition.holds ⟨"market_info.platform", .integer (platformNumber p)⟩ n.payload =
        decide (n.platform = p) := by
    simp [Condition.holds, payloadField, Market.payload, n.platform_eq, platformNumber_inj]
  simp only [Market.filter, createCrossPlatformFilter, Option.map_some, Option.all_some,
    Filter.holds, List.all_cons, List.all_nil, hcategory, hsubcategory, hplatform,
    ← m.category_eq, ← m.subcategory_eq, Bool.and_true, Bool.and_eq_true, decide_eq_true_eq,
    Bool.not_eq_true', decide_eq_false_iff_not]
  constructor
  · rintro ⟨⟨hc, hs⟩, hp⟩
    exact ⟨Ne.symm hp, hc.symm, hs.symm⟩
  · rintro ⟨hp, hc, hs⟩
    exact ⟨⟨hc.symm, hs.symm⟩, Ne.symm hp⟩

/-- A point passes the search of `m` if its market is a counterpart. -/
theorem passes_iff (m n : Market sv.formats) :
    (m.filter.all (·.holds (point sv n).payload) &&
      similarityScoreThreshold.le (sv.score (sv.embed m.questionVector) (point sv n).vectors)) =
        true ↔ Counterpart sv m n := by
  rw [Bool.and_eq_true, point, filter_holds_iff, Counterpart]
  simp only [and_assoc]

/-! ## §6 One search -/

/-- The search that either path makes for a market. -/
def search (points : List (PointStruct V)) (m : Market sv.formats) : List ScoredPoint :=
  queryPoints sv points (sv.embed m.questionVector) similarityScoreThreshold 10 m.filter

/-- The message for a market, if its search finds something. -/
def hitOf (points : List (PointStruct V)) (now : ℤ) (m : Market sv.formats) :
    Option CrossPlatformHit :=
  if search sv points m = [] then none
  else some (crossPlatformHit sv m.payload m.info (search sv points m) now)

/-- The points that pass a search among stored markets are those of the counterparts. -/
theorem filter_points (ns : List (Market sv.formats)) (m : Market sv.formats) :
    (ns.map (point sv)).filter (fun p => m.filter.all (·.holds p.payload) &&
      similarityScoreThreshold.le (sv.score (sv.embed m.questionVector) p.vectors)) =
    (ns.filter (Counterpart sv m ·)).map (point sv) := by
  rw [List.filter_map]
  congr 1
  apply List.filter_congr
  intro n _
  rw [Bool.eq_iff_iff, decide_eq_true_eq]
  exact passes_iff sv m n

/-- A search finds nothing if and only if no counterpart is stored. -/
theorem search_eq_nil_iff (ns : List (Market sv.formats)) (m : Market sv.formats) :
    search sv (ns.map (point sv)) m = [] ↔ ∀ n ∈ ns, ¬Counterpart sv m n := by
  rw [search, queryPoints, filter_points, ← List.length_eq_zero_iff]
  simp [List.length_mergeSort]

/-- A search that the limit does not cut finds exactly the stored counterparts. -/
theorem mem_search_iff {ns : List (Market sv.formats)} {m : Market sv.formats}
    (hfew : (ns.filter (Counterpart sv m ·)).length < 10) {r : ScoredPoint} :
    r ∈ search sv (ns.map (point sv)) m ↔ ∃ n ∈ ns, Counterpart sv m n ∧
      r = ⟨sv.score (sv.embed m.questionVector) (sv.embed n.questionVector), n.payload⟩ := by
  rw [search, queryPoints, filter_points, List.take_of_length_le, List.mem_mergeSort]
  · constructor
    · intro hr
      obtain ⟨p, hp, rfl⟩ := List.mem_map.mp hr
      obtain ⟨n, hn, rfl⟩ := List.mem_map.mp hp
      obtain ⟨hn, hc⟩ := List.mem_filter.mp hn
      exact ⟨n, hn, of_decide_eq_true hc, rfl⟩
    · rintro ⟨n, hn, hc, rfl⟩
      refine List.mem_map.mpr ⟨point sv n, List.mem_map_of_mem ?_, rfl⟩
      exact List.mem_filter.mpr ⟨hn, decide_eq_true hc⟩
  · simp only [List.length_mergeSort, List.length_map]
    omega

/-- What the hit of a market pairs it with: the stored counterparts. -/
theorem hitOf_pairs {ns : List (Market sv.formats)} {m : Market sv.formats}
    (hfew : (ns.filter (Counterpart sv m ·)).length < 10) {now : ℤ} {e : CrossPlatformHit}
    (he : hitOf sv (ns.map (point sv)) now m = some e) :
    e.hit.anchor = some m.info ∧ ∀ info, (∃ c ∈ e.hit.matches, c.marketInfo = some info) ↔
      ∃ n ∈ ns, Counterpart sv m n ∧ n.info = info := by
  unfold hitOf at he
  split at he
  · cases he
  · cases he
    refine ⟨rfl, fun info => ?_⟩
    simp only [crossPlatformHit, similarityHit, List.mem_map, mem_search_iff sv hfew]
    constructor
    · rintro ⟨c, ⟨r, ⟨n, hn, hc, rfl⟩, rfl⟩, hinfo⟩
      exact ⟨n, hn, hc, Option.some.inj hinfo⟩
    · rintro ⟨n, hn, hc, rfl⟩
      exact ⟨_, ⟨_, ⟨n, hn, hc, rfl⟩, rfl⟩, rfl⟩

/-! ## §7 One arrival -/

/-- The time of an arrival. -/
def Arrival.now {sv : Services V} : Arrival sv → ℤ
  | .live _ now => now
  | .batch _ _ now _ => now

/-- Fresh points are added behind the others. -/
theorem foldl_upsert {new : List (PointStruct V)} :
    ∀ {points}, ((points ++ new).map (·.id)).Nodup →
      new.foldl upsert points = points ++ new := by
  induction new with
  | nil => simp
  | cons p new ih =>
    intro points hnodup
    have hfresh : points.any (·.id = p.id) = false := by
      rw [List.map_append, List.map_cons, List.nodup_append] at hnodup
      simp only [List.any_eq_false, decide_eq_true_eq]
      intro q hq
      exact hnodup.2.2 _ (List.mem_map_of_mem hq) _ List.mem_cons_self
    rw [List.foldl_cons, upsert, hfresh, if_neg (by simp), ih (by simpa using hnodup)]
    simp

/-- The live path searches with the given threshold and limit. -/
theorem semanticSimilaritySearch_eq (points : List (PointStruct V)) (m : Market sv.formats) :
    semanticSimilaritySearch sv points (sv.embed m.questionVector) similarityScoreThreshold 10
      m.filter = search sv points m := by
  have hnonzero : (similarityScoreThreshold.le .zero &&
      ExactFloat.zero.le similarityScoreThreshold) = false := by decide +kernel
  rw [semanticSimilaritySearch, hnonzero]
  rfl

/-- The messages of a batch of valid markets. -/
theorem batchHits_eq (points : List (PointStruct V)) (now : ℤ) (ms : List (Market sv.formats)) :
    batchHits sv now (ms.map fun m => (m.payload, search sv points m)) =
      .ok (ms.filterMap (hitOf sv points now)) := by
  induction ms with
  | nil => rfl
  | cons m ms ih =>
    rw [List.map_cons, batchHits, List.filterMap_cons, hitOf, ih]
    split <;> rfl

/-- The conversions of a batch of valid markets. -/
theorem converted_eq (ms : List (Market sv.formats)) :
    ((ms.map fun m => (m.payload, m.filter)).filterMap fun (payload, filter) =>
      (QdrantPointData.new sv.formats payload).toOption.map (·, filter)) =
    ms.map fun m => (⟨m.info.uuid, m.questionVector, m.payload⟩, m.filter) := by
  rw [List.filterMap_map, ← List.filterMap_eq_map]
  congr 1
  funext m
  simp [Market.new_payload, Except.toOption]

/-- **The live path.** A valid market is stored if its search finds something. -/
theorem searchAndInsert_eq (points : List (PointStruct V)) (m : Market sv.formats) (now : ℤ) :
    searchAndInsert sv points m.payload similarityScoreThreshold m.filter now =
      (.ok (hitOf sv points now m),
        if search sv points m = [] then points else upsert points (point sv m)) := by
  simp only [searchAndInsert, Market.new_payload, createPoint, semanticSimilaritySearch_eq, hitOf]
  split <;> rfl

/-- **The batch path.** All valid markets are stored. -/
theorem multipleSearchAndInsert_eq (points : List (PointStruct V)) (ms : List (Market sv.formats))
    (now : ℤ) :
    multipleSearchAndInsert sv points (ms.map fun m => (m.payload, m.filter)) now =
      (.ok (ms.filterMap (hitOf sv points now)), (ms.map (point sv)).foldl upsert points) := by
  have htakes : (ms.map fun m => m.payload).zip (ms.map (search sv points)) =
      ms.map fun m => (m.payload, search sv points m) := List.zip_map'
  simp only [multipleSearchAndInsert, converted_eq, List.map_map, Function.comp_def]
  split
  · rename_i hnil
    obtain rfl := List.map_eq_nil_iff.mp hnil
    rfl
  · rw [← batchHits_eq, ← htakes]
    rfl

/-- The turn that an arrival takes in the index. -/
def Arrival.turn {sv : Services V} : Arrival sv → Turn (Market sv.formats)
  | .live m _ => .single m
  | .batch _ ms _ _ => .batch ms

@[simp] theorem Arrival.items_turn (a : Arrival sv) : a.turn.items = a.markets := by
  cases a <;> rfl

/-- **One arrival.** The collection follows the index, and the hits are those of the
searches made before anything is stored. -/
theorem ingest_eq {st : Discovery V} {ns : List (Market sv.formats)} {a : Arrival sv}
    (hst : st.points = ns.map (point sv))
    (hfresh : ((ns ++ a.markets).map (·.info.uuid)).Nodup) :
    (ingest sv st a).points = (a.turn.store (Counterpart sv) ns).map (point sv) ∧
      (ingest sv st a).emitted = st.emitted ++ a.markets.filterMap (hitOf sv st.points a.now) := by
  -- identifiers that are new to the store come last
  have hupsert : (a.markets.map (point sv)).foldl upsert (ns.map (point sv)) =
      ns.map (point sv) ++ a.markets.map (point sv) := by
    apply foldl_upsert
    simpa [point, Function.comp_def] using hfresh
  cases a with
  -- a live market is stored when its search finds a counterpart
  | live m now =>
    have hnil := search_eq_nil_iff sv ns m
    rw [ingest, searchAndInsert_eq, Arrival.turn, Turn.store, hst]
    constructor
    · by_cases hsearch : search sv (ns.map (point sv)) m = []
      · have hno : ¬∃ n ∈ ns, Counterpart sv m n := by
          rintro ⟨n, hn, h⟩
          exact hnil.mp hsearch n hn h
        rw [if_neg hno]
        exact if_pos hsearch
      · have hsome : ∃ n ∈ ns, Counterpart sv m n := by
          by_contra hno
          exact hsearch (hnil.mpr fun n hn h => hno ⟨n, hn, h⟩)
        rw [if_pos hsome, List.map_append]
        exact (if_neg hsearch).trans hupsert
    · simp only [Arrival.markets, Arrival.now, List.filterMap_cons, List.filterMap_nil]
      cases hitOf sv (ns.map (point sv)) now m <;> rfl
  -- a batch is stored whatever it finds
  | batch p ms now single =>
    rw [ingest, multipleSearchAndInsert_eq, hst]
    exact ⟨hupsert.trans List.map_append.symm, rfl⟩

/-! ## §8 Runs -/

/-- The markets of several arrivals, in order. -/
def markets (as : List (Arrival sv)) : List (Market sv.formats) := as.flatMap Arrival.markets

theorem arrivals_turn (as : List (Arrival sv)) :
    arrivals (as.map Arrival.turn) = markets sv as := by
  simp [arrivals, markets, List.flatMap_map]

theorem ingestAll_concat (as : List (Arrival sv)) (a : Arrival sv) :
    ingestAll sv (as ++ [a]) = ingest sv (ingestAll sv as) a := by
  simp [ingestAll]

/-- Identifiers that are distinct among all markets are distinct among what is stored and
what comes next. -/
theorem fresh_of_nodup {as : List (Arrival sv)} {a : Arrival sv}
    (hids : ((markets sv (as ++ [a])).map (·.info.uuid)).Nodup) :
    ((stored (Counterpart sv) (as.map Arrival.turn) ++ a.markets).map (·.info.uuid)).Nodup := by
  have hsub := stored_sublist (Counterpart sv) (as.map Arrival.turn)
  rw [arrivals_turn] at hsub
  have hall : markets sv (as ++ [a]) = markets sv as ++ a.markets := by simp [markets]
  rw [hall] at hids
  exact hids.sublist ((hsub.append (List.Sublist.refl _)).map _)

/-- **The collection.** It holds the points of the markets that the index stores. -/
theorem points_eq {as : List (Arrival sv)}
    (hids : ((markets sv as).map (·.info.uuid)).Nodup) :
    (ingestAll sv as).points =
      (stored (Counterpart sv) (as.map Arrival.turn)).map (point sv) := by
  induction as using List.reverseRecOn with
  | nil => rfl
  | append_singleton as a ih =>
    have hids' : ((markets sv as).map (·.info.uuid)).Nodup := by
      refine hids.sublist (List.Sublist.map _ ?_)
      simp [markets]
    rw [ingestAll_concat, (ingest_eq sv (ih hids') (fresh_of_nodup sv hids)).1, List.map_append,
      List.map_singleton, stored_concat]

/-- **The hits.** Each is the hit of a market of some arrival, against the points stored
before that arrival. -/
theorem mem_emitted_iff {as : List (Arrival sv)}
    (hids : ((markets sv as).map (·.info.uuid)).Nodup) {e : CrossPlatformHit} :
    e ∈ (ingestAll sv as).emitted ↔ ∃ pre a post, as = pre ++ a :: post ∧ ∃ m ∈ a.markets,
      hitOf sv (ingestAll sv pre).points a.now m = some e := by
  induction as using List.reverseRecOn with
  | nil => simp [ingestAll]
  | append_singleton as a ih =>
    have hids' : ((markets sv as).map (·.info.uuid)).Nodup := by
      refine hids.sublist (List.Sublist.map _ ?_)
      simp [markets]
    rw [ingestAll_concat, (ingest_eq sv (points_eq sv hids') (fresh_of_nodup sv hids)).2,
      List.mem_append, ih hids', List.mem_filterMap]
    constructor
    · rintro (⟨pre, a', post, rfl, h⟩ | h)
      · exact ⟨pre, a', post ++ [a], by simp, h⟩
      · exact ⟨as, a, [], rfl, h⟩
    · rintro ⟨pre, a', post, heq, h⟩
      -- the arrival that emitted the hit is the last one, or comes before it
      obtain rfl | ⟨post, a'', rfl⟩ := post.eq_nil_or_concat
      · obtain ⟨rfl, ha⟩ := List.append_inj' heq rfl
        obtain rfl := List.singleton_inj.mp ha
        exact .inr h
      · have heq' : as ++ [a] = (pre ++ a' :: post) ++ [a''] := by simpa using heq
        obtain ⟨rfl, -⟩ := List.append_inj' heq' rfl
        exact .inl ⟨pre, a', post, rfl, h⟩

/-! ## §9 Completeness -/

/-- A hit that reports `n` as a match of `m`. -/
def Pairs {fmt : Formats} (e : CrossPlatformHit) (m n : Market fmt) : Prop :=
  e.hit.anchor = some m.info ∧ ∃ c ∈ e.hit.matches, c.marketInfo = some n.info

/-- Some hit has one of two markets as its anchor and the other among its matches. -/
def Discovered (as : List (Arrival sv)) (m n : Market sv.formats) : Prop :=
  ∃ e ∈ (ingestAll sv as).emitted, Pairs e m n ∨ Pairs e n m

/-- **No live market comes too early.** A live market of which no counterpart is stored when
it arrives has no counterpart among the later arrivals. -/
def NoneTooEarly (as : List (Arrival sv)) : Prop :=
  ∀ pre m now post, as = pre ++ .live m now :: post →
    (∀ n ∈ markets sv pre, point sv n ∈ (ingestAll sv pre).points → ¬Counterpart sv m n) →
      ∀ n ∈ markets sv post, ¬Counterpart sv m n

section Run

variable {sv} {as : List (Arrival sv)}

/-- Markets of a part of a run are markets of the run. -/
theorem mem_markets_of_append {pre post : List (Arrival sv)} (has : as = pre ++ post)
    {n : Market sv.formats} (hn : n ∈ markets sv pre ∨ n ∈ markets sv post) :
    n ∈ markets sv as := by
  rw [has, markets, List.flatMap_append]
  exact List.mem_append.mpr hn

/-- What is stored after a part of a run has arrived in it. -/
theorem mem_markets_of_stored {pre : List (Arrival sv)} {n : Market sv.formats}
    (hn : n ∈ stored (Counterpart sv) (pre.map Arrival.turn)) : n ∈ markets sv pre := by
  rw [← arrivals_turn]
  exact (stored_sublist _ _).subset hn

/-- A split of the turns of a run is a split of the run. -/
theorem split_turns {ts us : List (Turn (Market sv.formats))} {t : Turn (Market sv.formats)}
    (h : as.map Arrival.turn = ts ++ t :: us) :
    ∃ pre a post, as = pre ++ a :: post ∧ pre.map Arrival.turn = ts ∧ a.turn = t ∧
      post.map Arrival.turn = us := by
  obtain ⟨pre, rest, rfl, hpre, hrest⟩ := List.map_eq_append_iff.mp h
  obtain ⟨a, post, rfl, ha, hpost⟩ := List.map_eq_cons_iff.mp hrest
  exact ⟨pre, a, post, rfl, hpre, ha, hpost⟩

/-- No search of the run is cut by the limit. -/
theorem few_stored
    (hfew : ∀ m ∈ markets sv as, ((markets sv as).filter (Counterpart sv m ·)).length < 10)
    {pre post : List (Arrival sv)} (has : as = pre ++ post) {m : Market sv.formats}
    (hm : m ∈ markets sv as) :
    ((stored (Counterpart sv) (pre.map Arrival.turn)).filter (Counterpart sv m ·)).length < 10 := by
  have hsub := stored_sublist (Counterpart sv) (pre.map Arrival.turn)
  rw [arrivals_turn] at hsub
  have hsub' : (stored (Counterpart sv) (pre.map Arrival.turn)).Sublist (markets sv as) := by
    rw [has, markets, List.flatMap_append]
    exact hsub.trans (List.sublist_append_left _ _)
  exact (hsub'.filter _).length_le.trans_lt (hfew m hm)

variable (hids : ((markets sv as).map (·.info.uuid)).Nodup)
include hids

/-- Among the markets of a run, the identifier tells which one it is. -/
theorem eq_of_uuid_eq {m n : Market sv.formats} (hm : m ∈ markets sv as) (hn : n ∈ markets sv as)
    (h : m.info.uuid = n.info.uuid) : m = n :=
  List.inj_on_of_nodup_map hids hm hn h

/-- The identifiers in a part of a run are distinct. -/
theorem nodup_of_append {pre post : List (Arrival sv)} (has : as = pre ++ post) :
    ((markets sv pre).map (·.info.uuid)).Nodup := by
  refine hids.sublist (List.Sublist.map _ ?_)
  rw [has, markets, markets, List.flatMap_append]
  exact List.sublist_append_left _ _

/-- The collection holds the point of a market if and only if the index stores it. -/
theorem point_mem_iff {pre post : List (Arrival sv)} (has : as = pre ++ post)
    {n : Market sv.formats} (hn : n ∈ markets sv pre) :
    point sv n ∈ (ingestAll sv pre).points ↔
      n ∈ stored (Counterpart sv) (pre.map Arrival.turn) := by
  rw [points_eq sv (nodup_of_append hids has)]
  refine ⟨fun h => ?_, List.mem_map_of_mem⟩
  obtain ⟨n', hn', heq⟩ := List.mem_map.mp h
  have hmem := mem_markets_of_append has (.inl (mem_markets_of_stored hn'))
  have huuid : n'.info.uuid = n.info.uuid := congrArg PointStruct.id heq
  rw [← eq_of_uuid_eq hids hmem (mem_markets_of_append has (.inl hn)) huuid]
  exact hn'

/-- Coming too early is being turned away by the index. -/
theorem noneTooEarly_iff :
    NoneTooEarly sv as ↔ NoneTurnedAway (Counterpart sv) (as.map Arrival.turn) := by
  constructor
  · intro h ts m us hturns hnone n hn
    -- the arrivals are the turns, one by one
    obtain ⟨pre, a, post, has, rfl, ha, rfl⟩ := split_turns hturns
    rw [arrivals_turn] at hn
    cases a with
    | live m' now =>
      cases ha
      refine h pre m now post has (fun n' hn' hheld => hnone n' ?_) n hn
      exact (point_mem_iff hids has hn').mp hheld
    | batch p ms now single => cases ha
  · intro h pre m now post has hnone n hn
    refine h (pre.map Arrival.turn) m (post.map Arrival.turn) (by simp [has, Arrival.turn]) ?_ n
      (by rwa [arrivals_turn])
    intro n' hn'
    have hmem := mem_markets_of_stored hn'
    exact hnone n' hmem ((point_mem_iff hids has hmem).mpr hn')

variable (hfew : ∀ m ∈ markets sv as, ((markets sv as).filter (Counterpart sv m ·)).length < 10)
include hfew

/-- The hits of a run pair what the searches of the index find. -/
theorem pairs_iff_finds {m n : Market sv.formats} (hm : m ∈ markets sv as)
    (hn : n ∈ markets sv as) :
    (∃ e ∈ (ingestAll sv as).emitted, Pairs e m n) ↔
      Finds (Counterpart sv) (as.map Arrival.turn) m n := by
  constructor
  · rintro ⟨e, he, hanchor, hmatch⟩
    obtain ⟨pre, a, post, has, m', hm', hhit⟩ := (mem_emitted_iff sv hids).mp he
    have hm'' : m' ∈ markets sv as := by
      refine mem_markets_of_append has (.inr ?_)
      exact List.mem_flatMap.mpr ⟨a, List.mem_cons_self, hm'⟩
    rw [points_eq sv (nodup_of_append hids has)] at hhit
    obtain ⟨hanchor', hmatches⟩ := hitOf_pairs sv (few_stored hfew has hm'') hhit
    obtain ⟨n', hn', hc, hinfo⟩ := (hmatches n.info).mp hmatch
    -- the records of the hit tell which markets it is about
    have hinfo' : m'.info = m.info := Option.some.inj (hanchor'.symm.trans hanchor)
    obtain rfl := eq_of_uuid_eq hids hm'' hm (congrArg MarketInfo.uuid hinfo')
    have hn'' := mem_markets_of_append has (.inl (mem_markets_of_stored hn'))
    obtain rfl := eq_of_uuid_eq hids hn'' hn (congrArg MarketInfo.uuid hinfo)
    exact ⟨pre.map Arrival.turn, a.turn, post.map Arrival.turn, by simp [has], by simpa, hn', hc⟩
  · rintro ⟨ts, t, us, hturns, hmt, hstored, hc⟩
    obtain ⟨pre, a, post, has, rfl, rfl, rfl⟩ := split_turns hturns
    rw [Arrival.items_turn] at hmt
    have hpoints := points_eq sv (nodup_of_append hids has)
    have hsearch : search sv (ingestAll sv pre).points m ≠ [] := by
      rw [hpoints]
      exact fun hnil => (search_eq_nil_iff sv _ m).mp hnil n hstored hc
    obtain ⟨e, hhit⟩ : ∃ e, hitOf sv (ingestAll sv pre).points a.now m = some e := by
      rw [hitOf, if_neg hsearch]
      exact ⟨_, rfl⟩
    refine ⟨e, (mem_emitted_iff sv hids).mpr ⟨pre, a, post, has, m, hmt, hhit⟩, ?_⟩
    rw [hpoints] at hhit
    obtain ⟨hanchor, hmatches⟩ := hitOf_pairs sv (few_stored hfew has hm) hhit
    exact ⟨hanchor, (hmatches n.info).mpr ⟨n, hstored, hc, rfl⟩⟩

/-- **Completeness of discovery.** In whatever order and by whichever path the markets of a
set arrive, all pairs of counterparts are discovered if and only if no live market comes too
early. -/
theorem discovery_complete_iff :
    (∀ m ∈ markets sv as, ∀ n ∈ markets sv as, Counterpart sv m n → Discovered sv as m n) ↔
      NoneTooEarly sv as := by
  have hfound : ∀ m ∈ markets sv as, ∀ n ∈ markets sv as, Discovered sv as m n ↔
      Finds (Counterpart sv) (as.map Arrival.turn) m n ∨
        Finds (Counterpart sv) (as.map Arrival.turn) n m := by
    intro m hm n hn
    rw [← pairs_iff_finds hids hfew hm hn, ← pairs_iff_finds hids hfew hn hm, Discovered]
    constructor
    · rintro ⟨e, he, h | h⟩
      · exact .inl ⟨e, he, h⟩
      · exact .inr ⟨e, he, h⟩
    · rintro (⟨e, he, h⟩ | ⟨e, he, h⟩)
      · exact ⟨e, he, .inl h⟩
      · exact ⟨e, he, .inr h⟩
  -- within a turn all markets are of one platform
  have hapart : ∀ t ∈ as.map Arrival.turn, ∀ m ∈ t.items, ∀ n ∈ t.items,
      ¬Counterpart sv m n := by
    intro t ht m hm n hn hc
    obtain ⟨a, -, rfl⟩ := List.mem_map.mp ht
    rw [Arrival.items_turn] at hm hn
    cases a with
    | live m' now =>
      obtain rfl := List.mem_singleton.mp hm
      obtain rfl := List.mem_singleton.mp hn
      exact hc.1 rfl
    | batch p ms now single => exact hc.1 ((single m hm).trans (single n hn).symm)
  have hnodup : (arrivals (as.map Arrival.turn)).Nodup := by
    rw [arrivals_turn]
    exact List.Nodup.of_map _ hids
  rw [noneTooEarly_iff hids, ← complete_iff _ (fun _ _ h => h.symm) hapart hnodup, arrivals_turn]
  exact forall₂_congr fun m hm => forall₂_congr fun n hn =>
    imp_congr_right fun _ => hfound m hm n hn

end Run

/-! ### Two markets with the same text -/

/-- Texts are their own embeddings, and equal texts have the score of equal vectors.  The one
identifier that is made is that of the hit for `polymarketFed`. -/
def fedServices : Services String where
  formats := {
    newV5 := fun _ => "c23bfa0a-04ad-5227-b73f-dd5339d1137d"
    tryParse := fun s => s.length = 36
    parseFromRfc3339 := fun _ => none
    parseFromStr := fun _ => none }
  embed := id
  score v w := if v = w then .one else .zero
  score_comm v w := by simp only [eq_comm]

/-- A record with the question and outcomes that both platforms list. -/
def fedInfo (uuid marketId : String) (platform : Platform) : MarketInfo where
  uuid := uuid
  marketId := marketId
  question := "Will the Fed cut rates in December?"
  outcome := "[Yes, No]"
  rules := "Resolves to Yes if the target range is lowered."
  marketCategory := "politics"
  marketSubcategory := "Politics"
  closeTimeMs := 1796083200000
  platform := platformNumber platform

def kalshiFed : Market fedServices.formats where
  info := fedInfo "d478be85-5596-5279-964d-eec4c7285075" "KXFED-26DEC" .kalshi
  insertedAt := 1790000000000
  tag := .politics
  platform := .kalshi
  valid := by decide +kernel
  category_eq := rfl
  subcategory_eq := rfl
  platform_eq := rfl

def polymarketFed : Market fedServices.formats where
  info := fedInfo "b8ae8b02-059d-55af-9039-301aa49f990b" "fed-december" .polymarket
  insertedAt := 1790000000000
  tag := .politics
  platform := .polymarket
  valid := by decide +kernel
  category_eq := rfl
  subcategory_eq := rfl
  platform_eq := rfl

/-- Both markets arrive on the live streams. -/
def liveTwice : List (Arrival fedServices) := [.live kalshiFed 0, .live polymarketFed 1]

/-- **A pair is missed.** Neither market is stored, and no hit is sent, although the two are
counterparts with the highest score. -/
theorem pair_missed :
    (ingestAll fedServices liveTwice).points = [] ∧
    (ingestAll fedServices liveTwice).emitted = [] ∧
    ¬∀ m ∈ markets fedServices liveTwice, ∀ n ∈ markets fedServices liveTwice,
      Counterpart fedServices m n → Discovered fedServices liveTwice m n := by
  have hemitted : (ingestAll fedServices liveTwice).emitted = [] := by decide +kernel
  refine ⟨by decide +kernel, hemitted, fun h => ?_⟩
  have hm : kalshiFed ∈ markets fedServices liveTwice := .head _
  have hn : polymarketFed ∈ markets fedServices liveTwice := .tail _ (.head _)
  obtain ⟨e, he, -⟩ := h _ hm _ hn (by decide +kernel)
  rw [hemitted] at he
  exact absurd he List.not_mem_nil

/-- One market is in the backfill of its platform when the other arrives live. -/
def backfillThenLive : List (Arrival fedServices) :=
  [.batch .kalshi [kalshiFed] 0 (by simp [kalshiFed]), .live polymarketFed 1]

/-- Backfill first, and the pair is discovered. -/
theorem discovery_complete_sample :
    Discovered fedServices backfillThenLive kalshiFed polymarketFed := by
  have hm : kalshiFed ∈ markets fedServices backfillThenLive := .head _
  have hn : polymarketFed ∈ markets fedServices backfillThenLive := .tail _ (.head _)
  refine (discovery_complete_iff (by decide +kernel) (by decide +kernel)).mpr ?_ _ hm _ hn
    (by decide +kernel)
  -- nothing arrives after the live market
  intro pre m now post has _ n hn
  match pre with
  | [] => cases has
  | [_] =>
    have htail : (m = polymarketFed ∧ now = 1) ∧ post = [] := by
      simpa [backfillThenLive] using (congrArg List.tail has).symm
    rw [htail.2] at hn
    cases hn
  | _ :: _ :: _ => simp [backfillThenLive] at has

end Degenerate.VectorStore
