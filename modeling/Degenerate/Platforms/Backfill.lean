import Degenerate.Lib.Paging
import Degenerate.Platforms.Ingestion
import Degenerate.SearchCalls

/-!
# The Backfills

`backfill_polymarket_for_market_tag` and `backfill_kalshi_for_market_tag` with all that can
fail in them.  Each of them reads the markets of its tags (Polymarket) or series (Kalshi) page
by page, with retries for the errors that pass, and hands what it has read to one call of
`multiple_search_and_insert`.  A page that cannot be had is logged; it ends its own tag or
series, and the others go on.

The shutdown token is not cancelled here.

## Main Results

- `backfills_hand_over`: what the backfills hand over, and when they succeed
- `isSome_backfillPolymarketForMarketTag_iff`, `isSome_backfillKalshiForMarketTag_iff`: when
  they return
- `scanTags_ofApi`: without failures, a Polymarket backfill is that of the ingestion model
-/

namespace Degenerate.Backfill

open Degenerate.Lib
open Degenerate.VectorStore (Filter CrossPlatformHit createCrossPlatformFilter)
open Degenerate.SearchCalls (Services multipleSearchAndInsert)

/-! ## §1 Requests and answers -/

/-- `GetMarketsRequest`, with the fields that the backfill sets. -/
structure GetMarketsRequest where
  limit : ℕ
  offset : ℕ
  tagId : String
  closed : Bool
  ascending : Bool
  includeTag : Bool
  startDateMin : String

/-- `MarketsQuery`, with the fields that the backfill sets. -/
structure MarketsQuery where
  limit : ℕ
  cursor : Option String
  status : String
  seriesTicker : String
  minCreatedTs : ℤ

/-- What `get_all_markets` answers. -/
structure MarketsResponse where
  markets : List KalshiMarket
  cursor : Option String

/-- What a venue answers to the requests of a backfill: for the tag at a position and the number
    of a page, the page that it has, and the failures of the attempts at it. -/
structure Answers (ρ π : Type) where
  page : ℕ → ℕ → ρ → π
  failure : ℕ → ℕ → ρ → ℕ → Option String

/-- `str::contains`. -/
def contains (msg text : String) : Bool :=
  msg.toList.tails.any fun tail => text.toList.isPrefixOf tail

/-- `is_transient`. -/
def isTransient (msg : String) : Bool :=
  contains msg "error sending request" || contains msg "error decoding response body"

/-- `is_rate_limited`. -/
def isRateLimited (msg : String) : Bool :=
  contains msg "429" || contains msg "too_many_requests"

/-- `max_retries`. -/
def maxRetries : ℕ := 3

/-- The attempts at one page. -/
def Answers.get {ρ π : Type} (answers : Answers ρ π) (retryable : String → Bool) (i k : ℕ)
    (req : ρ) : Option π :=
  retry retryable maxRetries (attempts (answers.page i k req) (answers.failure i k req))

/-! ## §2 The end of a backfill -/

/-- What a backfill did. -/
structure Backfilled where
  /-- What `multiple_search_and_insert` was called with, if it was. -/
  handed : Option (List (QdrantPayload × Option Filter)) := none
  /-- What was sent on `grpc_tx`. -/
  forwarded : List CrossPlatformHit := []
  result : Except String Unit

variable {V P : Type} (sv : Services QdrantPayload V P)

/-- A market as it is handed over: `from_markets`, and the filter. -/
def needed (platform : Platform) (market : MarketTag) (now : ℤ) (info : MarketInfo) :
    QdrantPayload × Option Filter :=
  (.fromMarket info market.info.marketCategory market.info.marketSubcategory now,
    createCrossPlatformFilter (some platform) market)

/-- Hand over what was read; without any market there is nothing to do. -/
def handOver (context : String) (now : ℤ) (values : List (QdrantPayload × Option Filter)) :
    Backfilled :=
  if values.isEmpty then { result := .ok () }
  else
    match (multipleSearchAndInsert sv values 100 now).result with
    | .error _ => { handed := some values, result := .error context }
    | .ok ebos => { handed := some values, forwarded := ebos, result := .ok () }

/-! ## §3 Polymarket -/

section Polymarket

variable (gamma : Answers GetMarketsRequest (List TaggedMarket)) (startDateMin : String)

/-- The request for the page of a tag at an offset. -/
def getMarketsRequest (tagId : String) (offset : ℕ) : GetMarketsRequest where
  limit := pageLimit
  offset := offset
  tagId := tagId
  closed := false
  ascending := false
  includeTag := true
  startDateMin := startDateMin

/-- The pages of the tag at position `i`, from number `k` on; a page that cannot be had counts
    as an empty one. -/
def scanTag (i : ℕ) (tagId : String) :
    ℕ → ℕ → ℕ → FirstScan TaggedMarket String → Option (FirstScan TaggedMarket String)
  | 0, _, _, _ => none
  | fuel + 1, k, offset, s =>
    let markets := (gamma.get isTransient i k (getMarketsRequest startDateMin tagId offset)).getD []
    let s := s.offerAll TaggedMarket.conditionKey markets
    if markets.length < pageLimit then some s
    else scanTag i tagId fuel (k + 1) (offset + pageLimit) s

/-- The tags, one after the other. -/
def scanTags (fuel : ℕ) (tags : List String) : Option (FirstScan TaggedMarket String) :=
  tags.zipIdx.foldlM (fun s tag => scanTag gamma startDateMin tag.2 tag.1 fuel 0 0 s) {}

/-- A Polymarket listing as it is handed over. -/
def neededGamma (market : MarketTag) (now : ℤ) (m : TaggedMarket) :
    QdrantPayload × Option Filter :=
  needed .polymarket market now (MarketInfo.ofGamma sv.formats m.toGammaMarket)

/-- `backfill_polymarket_for_market_tag`, with at most `fuel` pages for each tag. -/
def backfillPolymarketForMarketTag (market : MarketTag) (now : ℤ) (fuel : ℕ) :
    Option Backfilled :=
  (scanTags gamma startDateMin fuel (market.identifiers .polymarket)).map fun s =>
    handOver sv "qdrant multiple_search_and_insert failed during polymarket backfill" now
      (s.container.map (neededGamma sv market now))

end Polymarket

/-! ## §4 Kalshi -/

section Kalshi

variable (kalshi : Answers MarketsQuery MarketsResponse)

/-- The query for the page of a series behind a cursor. -/
def marketsQuery (minCreatedTs : ℤ) (seriesTicker : String) (cursor : Option String) :
    MarketsQuery where
  limit := 100
  cursor := cursor
  status := "open"
  seriesTicker := seriesTicker
  minCreatedTs := minCreatedTs

/-- The pages of the series at position `i`, from number `k` on. -/
def extendSeries (minCreatedTs : ℤ) (i : ℕ) (seriesTicker : String) :
    ℕ → ℕ → Option String → List KalshiMarket → Option (List KalshiMarket)
  | 0, _, _, _ => none
  | fuel + 1, k, cursor, container =>
    match kalshi.get isRateLimited i k (marketsQuery minCreatedTs seriesTicker cursor) with
    -- the page is given up, and with it the series
    | none => some container
    | some result =>
      let container := container ++ result.markets
      match result.cursor with
      | none => some container
      | some next =>
        if next = "" then some container
        else extendSeries minCreatedTs i seriesTicker fuel (k + 1) (some next) container

/-- The series, one after the other. -/
def extendAll (minCreatedTs : ℤ) (fuel : ℕ) (tickers : List String) :
    Option (List KalshiMarket) :=
  tickers.zipIdx.foldlM
    (fun container ticker => extendSeries kalshi minCreatedTs ticker.2 ticker.1 fuel 0 none
      container) []

/-- A Kalshi listing as it is handed over. -/
def neededKalshi (market : MarketTag) (now : ℤ) (m : KalshiMarket) :
    QdrantPayload × Option Filter :=
  needed .kalshi market now (MarketInfo.ofKalshi sv.formats m)

/-- `backfill_kalshi_for_market_tag`, with at most `fuel` pages for each series.  Here `clock` is
    the time in seconds since the epoch, unless it lies before that. -/
def backfillKalshiForMarketTag (clock : Option ℕ) (duration : ℕ) (market : MarketTag)
    (tickers : List String) (now : ℤ) (fuel : ℕ) : Option Backfilled :=
  match clock with
  | none => some { result := .error "time went backwards" }
  | some seconds =>
    (extendAll kalshi (seconds - duration) fuel tickers).map fun container =>
      handOver sv "qdrant multiple_search_and_insert failed during kalshi backfill" now
        (container.map (neededKalshi sv market now))

end Kalshi

/-! ## §5 What is read -/

/-- The pages of one tag at Polymarket: a full page has another one behind it. -/
def gammaListing (gamma : Answers GetMarketsRequest (List TaggedMarket)) (i : ℕ) :
    Listing GetMarketsRequest (List TaggedMarket) where
  page := gamma.page i
  next req markets :=
    if markets.length < pageLimit then none
    else some { req with offset := req.offset + pageLimit }

/-- The pages of one series at Kalshi: a cursor that is not empty leads to another one. -/
def kalshiListing (kalshi : Answers MarketsQuery MarketsResponse) (i : ℕ) :
    Listing MarketsQuery MarketsResponse where
  page := kalshi.page i
  next req result :=
    (result.cursor.filter (· ≠ "")).map fun next => { req with cursor := some next }

/-- One of the attempts at a page succeeds, behind failures that are worth another attempt. -/
def Answers.obtainable {ρ π : Type} (answers : Answers ρ π) (retryable : String → Bool)
    (i k : ℕ) (req : ρ) : Bool :=
  decide (Obtainable retryable maxRetries (answers.failure i k req))

theorem Answers.get_eq {ρ π : Type} (answers : Answers ρ π) (retryable : String → Bool)
    (i k : ℕ) (req : ρ) : answers.get retryable i k req =
      if answers.obtainable retryable i k req then some (answers.page i k req) else none := by
  rw [get, retry_attempts, obtainable]
  simp only [decide_eq_true_eq]

section Read

variable (gamma : Answers GetMarketsRequest (List TaggedMarket)) (startDateMin : String)
  (kalshi : Answers MarketsQuery MarketsResponse) (minCreatedTs : ℤ)

/-- The loop over the pages of a tag reads its listing. -/
theorem scanTag_eq (i : ℕ) (tagId : String) (fuel k offset : ℕ)
    (s : FirstScan TaggedMarket String) :
    scanTag gamma startDateMin i tagId fuel k offset s =
      ((gammaListing gamma i).read (gamma.obtainable isTransient i) fuel k
        (getMarketsRequest startDateMin tagId offset)).map fun pages =>
          s.offerAll TaggedMarket.conditionKey pages.flatten := by
  induction fuel generalizing k offset s with
  | zero => rfl
  | succ fuel ih =>
    unfold scanTag
    rw [gamma.get_eq]
    by_cases hget : gamma.obtainable isTransient i k
        (getMarketsRequest startDateMin tagId offset) = true
    · rw [if_pos hget]
      by_cases hlast :
          (gamma.page i k (getMarketsRequest startDateMin tagId offset)).length < pageLimit
      · -- a page that is not full ends both
        rw [Listing.read_of_last _ _ hget (if_pos hlast)]
        refine (if_pos hlast).trans ?_
        rw [Option.map_some, List.flatten_singleton]
        rfl
      · -- the markets of this page are offered before those of the others
        rw [Listing.read_of_next _ _ hget (if_neg hlast), Option.map_map]
        refine (if_neg hlast).trans ((ih (k + 1) (offset + pageLimit) _).trans ?_)
        congr 1
        funext pages
        exact (s.offerAll_append TaggedMarket.conditionKey _ _).symm
    · -- an empty page is not full, so that it ends the tag like a last one
      rw [if_neg hget, Listing.read_of_not_obtainable _ _ hget]
      rfl

/-- The loop over the pages of a series reads its listing. -/
theorem extendSeries_eq (i : ℕ) (ticker : String) (fuel k : ℕ) (cursor : Option String)
    (container : List KalshiMarket) :
    extendSeries kalshi minCreatedTs i ticker fuel k cursor container =
      ((kalshiListing kalshi i).read (kalshi.obtainable isRateLimited i) fuel k
        (marketsQuery minCreatedTs ticker cursor)).map fun pages =>
          container ++ pages.flatMap MarketsResponse.markets := by
  induction fuel generalizing k cursor container with
  | zero => rfl
  | succ fuel ih =>
    unfold extendSeries
    rw [kalshi.get_eq]
    by_cases hget : kalshi.obtainable isRateLimited i k
        (marketsQuery minCreatedTs ticker cursor) = true
    · rw [if_pos hget]
      have hnext : (kalshiListing kalshi i).next (marketsQuery minCreatedTs ticker cursor)
          (kalshi.page i k (marketsQuery minCreatedTs ticker cursor)) =
            ((kalshi.page i k (marketsQuery minCreatedTs ticker cursor)).cursor.filter
              (· ≠ "")).map fun next => marketsQuery minCreatedTs ticker (some next) := rfl
      dsimp only
      cases hcursor : (kalshi.page i k (marketsQuery minCreatedTs ticker cursor)).cursor with
      | none =>
        rw [hcursor] at hnext
        rw [Listing.read_of_last _ _ hget hnext, Option.map_some, List.flatMap_singleton]
        rfl
      | some next =>
        by_cases hempty : next = ""
        · -- an empty cursor is none
          rw [hcursor, Option.filter_some_neg (by simp [hempty])] at hnext
          rw [Listing.read_of_last _ _ hget hnext, Option.map_some, List.flatMap_singleton]
          exact if_pos hempty
        · rw [hcursor, Option.filter_some_pos (by simp [hempty])] at hnext
          rw [Listing.read_of_next _ _ hget hnext, Option.map_map]
          refine (if_neg hempty).trans ((ih (k + 1) (some next) _).trans ?_)
          congr 1
          funext pages
          exact List.append_assoc _ _ _
    · rw [if_neg hget, Listing.read_of_not_obtainable _ _ hget]
      show some container = some (container ++ [])
      rw [List.append_nil]

/-- A market on the pages that a Polymarket backfill reads: for each tag, those in front of the
    first page that cannot be had. -/
def ReadGamma (tags : List String) (m : TaggedMarket) : Prop :=
  ∃ tag ∈ tags.zipIdx, (gammaListing gamma tag.2).Reads (gamma.obtainable isTransient tag.2) id
    (getMarketsRequest startDateMin tag.1 0) m

/-- A market on the pages that a Kalshi backfill reads: for each series, those in front of the
    first page that cannot be had. -/
def ReadKalshi (tickers : List String) (m : KalshiMarket) : Prop :=
  ∃ ticker ∈ tickers.zipIdx, (kalshiListing kalshi ticker.2).Reads
    (kalshi.obtainable isRateLimited ticker.2) MarketsResponse.markets
    (marketsQuery minCreatedTs ticker.1 none) m

/-- **The scan of a Polymarket backfill** is one over all markets that it reads. -/
theorem scanTags_eq_some {fuel : ℕ} {tags : List String} {s : FirstScan TaggedMarket String}
    (h : scanTags gamma startDateMin fuel tags = some s) :
    ∃ markets, (∀ m, m ∈ markets ↔ ReadGamma gamma startDateMin tags m) ∧
      s = FirstScan.offerAll TaggedMarket.conditionKey {} markets := by
  unfold scanTags at h
  simp only [scanTag_eq] at h
  -- each tag has read some pages, and the scan goes over all of them
  obtain ⟨read, hread, rfl⟩ := foldlM_map_eq_some h
  refine ⟨read.flatMap List.flatten, ?_, FirstScan.offerAll_flatMap _ _ _ _⟩
  apply mem_flatMap_forall₂
  apply hread.imp
  intro tag pages hpages m
  rw [← Listing.mem_read_iff _ _ id hpages, List.flatMap_id]

/-- **The container of a Kalshi backfill** has the markets that it reads. -/
theorem mem_extendAll {fuel : ℕ} {tickers : List String} {container : List KalshiMarket}
    (h : extendAll kalshi minCreatedTs fuel tickers = some container) (m : KalshiMarket) :
    m ∈ container ↔ ReadKalshi kalshi minCreatedTs tickers m := by
  unfold extendAll at h
  simp only [extendSeries_eq] at h
  obtain ⟨read, hread, rfl⟩ := foldlM_map_eq_some h
  rw [List.foldl_append_eq_append]
  apply mem_flatMap_forall₂
  apply hread.imp
  intro ticker pages hpages m
  exact Listing.mem_read_iff _ _ MarketsResponse.markets hpages m

end Read

/-! ## §6 What is handed over -/

section HandedOver

variable {V P : Type} (sv : Services QdrantPayload V P)

/-- The backfill calls `multiple_search_and_insert` with the values, if there are any, and
    succeeds when that does. -/
structure HandsOver (now : ℤ) (values : List (QdrantPayload × Option Filter))
    (run : Backfilled) : Prop where
  handed : run.handed.getD [] = values
  result : run.result = .ok () ↔
    values = [] ∨ ∃ ebos, (multipleSearchAndInsert sv values 100 now).result = .ok ebos

theorem handsOver_handOver (context : String) (now : ℤ)
    (values : List (QdrantPayload × Option Filter)) :
    HandsOver sv now values (handOver sv context now values) := by
  unfold handOver
  -- nothing is handed over for an empty list
  cases values with
  | nil => exact { handed := rfl, result := iff_of_true rfl (.inl rfl) }
  | cons value values =>
    dsimp only [List.isEmpty_cons]
    rw [if_neg Bool.false_ne_true]
    have hresult : value :: values = [] ∨
        (∃ ebos, (multipleSearchAndInsert sv (value :: values) 100 now).result = .ok ebos) ↔
          ∃ ebos, (multipleSearchAndInsert sv (value :: values) 100 now).result = .ok ebos :=
      or_iff_right (List.cons_ne_nil _ _)
    cases hcall : (multipleSearchAndInsert sv (value :: values) 100 now).result with
    | error e =>
      refine { handed := rfl, result := ?_ }
      rw [hresult, hcall]
      simp
    | ok ebos =>
      refine { handed := rfl, result := ?_ }
      rw [hresult, hcall]
      exact iff_of_true rfl ⟨ebos, rfl⟩

/-- The container holds markets that were read, and of each condition id that is not empty one. -/
structure OncePerConditionId (Read : TaggedMarket → Prop) (container : List TaggedMarket) :
    Prop where
  read : ∀ m ∈ container, Read m
  once : ∀ m, Read m → ∀ id, m.conditionId = some id → id ≠ "" →
    ∃ kept, container.filter (fun x => x.conditionId = some id) = [kept]

/-- The scan of what was read keeps one market of each condition id. -/
theorem oncePerConditionId_scan {Read : TaggedMarket → Prop} {markets : List TaggedMarket}
    (h : ∀ m, m ∈ markets ↔ Read m) : OncePerConditionId Read
      (FirstScan.offerAll TaggedMarket.conditionKey {} markets).container := by
  constructor
  · intro m hm
    have hfirst := (FirstScan.mem_scan_container TaggedMarket.conditionKey markets).mp hm
    exact (h m).mp (List.mem_of_find?_eq_some hfirst)
  · intro m hm id hid hne
    -- only a market that has the id has it as its key
    have hkey : ∀ x : TaggedMarket,
        (decide (x.conditionId = some id)) = decide (x.conditionKey = id) := by
      intro x
      unfold TaggedMarket.conditionKey
      cases x.conditionId with
      | none => simp [Ne.symm hne]
      | some id' => simp
    simp only [hkey]
    rw [FirstScan.filter_scan_container]
    have hfound : (markets.find? fun x => x.conditionKey = id).isSome = true := by
      rw [List.find?_isSome]
      refine ⟨m, (h m).mpr hm, ?_⟩
      rw [← hkey]
      exact decide_eq_true hid
    obtain ⟨kept, hkept⟩ := Option.isSome_iff_exists.mp hfound
    exact ⟨kept, by rw [hkept]; rfl⟩

/-- **What the backfills hand over.**  A Polymarket backfill that returns has handed over markets
    that it has read, and of each condition id that is not empty one; a Kalshi backfill, unless its
    clock is wrong, exactly the markets that it has read.  Both succeed when the call does, whatever
    page could not be had. -/
theorem backfills_hand_over (gamma : Answers GetMarketsRequest (List TaggedMarket))
    (kalshi : Answers MarketsQuery MarketsResponse) (startDateMin : String) (clock : Option ℕ)
    (duration : ℕ) (market : MarketTag) (tickers : List String) (now : ℤ) (fuel : ℕ) :
    (∀ run, backfillPolymarketForMarketTag sv gamma startDateMin market now fuel = some run →
      ∃ container : List TaggedMarket,
        HandsOver sv now (container.map (neededGamma sv market now)) run ∧
        OncePerConditionId
          (ReadGamma gamma startDateMin (market.identifiers .polymarket)) container) ∧
    (∀ run, backfillKalshiForMarketTag sv kalshi clock duration market tickers now fuel =
        some run →
      (clock = none ∧ run.result = .error "time went backwards") ∨
      ∃ (seconds : ℕ) (container : List KalshiMarket), clock = some seconds ∧
        HandsOver sv now (container.map (neededKalshi sv market now)) run ∧
        ∀ m, m ∈ container ↔ ReadKalshi kalshi (seconds - duration) tickers m) := by
  constructor
  · -- the scan of the tags keeps one market of a condition id
    intro run hrun
    obtain ⟨s, hs, rfl⟩ := Option.map_eq_some_iff.mp hrun
    obtain ⟨markets, hmarkets, rfl⟩ := scanTags_eq_some gamma startDateMin hs
    exact ⟨_, handsOver_handOver sv _ now _, oncePerConditionId_scan hmarkets⟩
  · -- the query needs the clock; then it extends the container page by page
    intro run hrun
    cases clock with
    | none =>
      cases hrun
      exact .inl ⟨rfl, rfl⟩
    | some seconds =>
      obtain ⟨container, hcontainer, rfl⟩ := Option.map_eq_some_iff.mp hrun
      exact .inr ⟨seconds, container, rfl, handsOver_handOver sv _ now _,
        mem_extendAll kalshi _ hcontainer⟩

end HandedOver

/-! ### A page that is refused -/

/-- A store with nothing in it, on which nothing fails. -/
def emptyStore : Services QdrantPayload String QdrantPayload :=
  SearchCalls.ofStore VectorStore.fedServices []

/-- Polymarket has one market, and refuses the first request. -/
def refusingGamma : Answers GetMarketsRequest (List TaggedMarket) where
  page i _ _ := if i = 0 then [crossTaggedMarket] else []
  failure i k _ n := if i = 0 ∧ k = 0 ∧ n = 0 then some "401 Unauthorized" else none

/-- Kalshi has one market, and refuses the first request. -/
def refusingKalshi : Answers MarketsQuery MarketsResponse where
  page _ _ _ := { markets := [{ ticker := "KXFED" }], cursor := none }
  failure _ k _ n := if k = 0 ∧ n = 0 then some "500 Internal Server Error" else none

/-- The same market, and a first request that fails on the way. -/
def retriedGamma : Answers GetMarketsRequest (List TaggedMarket) where
  page := refusingGamma.page
  failure i k _ n := if i = 0 ∧ k = 0 ∧ n = 0 then some "error sending request for url" else none

/-- The same market, and a first request that comes too early. -/
def retriedKalshi : Answers MarketsQuery MarketsResponse where
  page := refusingKalshi.page
  failure _ k _ n := if k = 0 ∧ n = 0 then some "429 Too Many Requests" else none

theorem backfills_hand_over_retried :
    (∃ run, backfillPolymarketForMarketTag emptyStore retriedGamma "" .soccer 0 1 = some run ∧
      run.result = .ok () ∧ run.handed.map List.length = some 1 ∧
      ∃ container : List TaggedMarket,
        HandsOver emptyStore 0 (container.map (neededGamma emptyStore .soccer 0)) run ∧
        OncePerConditionId
          (ReadGamma retriedGamma "" (MarketTag.soccer.identifiers .polymarket)) container) ∧
    ∃ run, backfillKalshiForMarketTag emptyStore retriedKalshi (some 0) 0 .politics ["KXFED"] 0 1 =
        some run ∧
      run.result = .ok () ∧ run.handed.map List.length = some 1 ∧
      ((some 0 = none ∧ run.result = .error "time went backwards") ∨
      ∃ (seconds : ℕ) (container : List KalshiMarket), some 0 = some seconds ∧
        HandsOver emptyStore 0 (container.map (neededKalshi emptyStore .politics 0)) run ∧
        ∀ m, m ∈ container ↔ ReadKalshi retriedKalshi (seconds - 0) ["KXFED"] m) :=
  ⟨⟨_, rfl, rfl, rfl, (backfills_hand_over emptyStore retriedGamma retriedKalshi "" (some 0) 0
      .soccer ["KXFED"] 0 1).1 _ rfl⟩,
    _, rfl, rfl, rfl, (backfills_hand_over emptyStore retriedGamma retriedKalshi "" (some 0) 0
      .politics ["KXFED"] 0 1).2 _ rfl⟩

/-- **A page that is refused looks like the last one**: the call succeeds, and the market of the
    page is not handed over. -/
theorem refused_page_succeeds :
    (∃ run, backfillPolymarketForMarketTag emptyStore refusingGamma "" .soccer 0 1 = some run ∧
      run.result = .ok () ∧ run.handed = none) ∧
    (gammaListing refusingGamma 0).pageAt 0 (getMarketsRequest "" "306" 0) 0 =
      some [crossTaggedMarket] ∧
    (∃ run, backfillKalshiForMarketTag emptyStore refusingKalshi (some 0) 0 .politics ["KXFED"] 0
      1 = some run ∧ run.result = .ok () ∧ run.handed = none) ∧
    (kalshiListing refusingKalshi 0).pageAt 0 (marketsQuery 0 "KXFED" none) 0 =
      some { markets := [{ ticker := "KXFED" }], cursor := none } := by
  exact ⟨⟨_, rfl, rfl, rfl⟩, rfl, ⟨_, rfl, rfl, rfl⟩, rfl⟩

/-! ## §7 When a backfill returns -/

section Returns

variable {V P : Type} (sv : Services QdrantPayload V P)

/-- A Polymarket backfill returns exactly when each tag has a last page, or one that cannot be
    had. -/
theorem isSome_backfillPolymarketForMarketTag_iff
    (gamma : Answers GetMarketsRequest (List TaggedMarket)) (startDateMin : String)
    (market : MarketTag) (now : ℤ) (fuel : ℕ) :
    (backfillPolymarketForMarketTag sv gamma startDateMin market now fuel).isSome = true ↔
      ∀ tag ∈ (market.identifiers .polymarket).zipIdx, ∃ k < fuel,
        (gammaListing gamma tag.2).StopsAt (gamma.obtainable isTransient tag.2) 0
          (getMarketsRequest startDateMin tag.1 0) k := by
  unfold backfillPolymarketForMarketTag scanTags
  rw [Option.isSome_map]
  simp only [scanTag_eq]
  rw [isSome_foldlM_map_iff]
  simp only [Listing.isSome_read_iff]

/-- A Kalshi backfill returns exactly when each series has a last page, or one that cannot be
    had. -/
theorem isSome_backfillKalshiForMarketTag_iff (kalshi : Answers MarketsQuery MarketsResponse)
    (seconds duration : ℕ) (market : MarketTag) (tickers : List String) (now : ℤ) (fuel : ℕ) :
    (backfillKalshiForMarketTag sv kalshi (some seconds) duration market tickers now
        fuel).isSome = true ↔
      ∀ ticker ∈ tickers.zipIdx, ∃ k < fuel,
        (kalshiListing kalshi ticker.2).StopsAt (kalshi.obtainable isRateLimited ticker.2) 0
          (marketsQuery (seconds - duration) ticker.1 none) k := by
  unfold backfillKalshiForMarketTag extendAll
  rw [Option.isSome_map]
  simp only [extendSeries_eq]
  rw [isSome_foldlM_map_iff]
  simp only [Listing.isSome_read_iff]

end Returns

/-! ## §8 Without failures -/

section Api

variable (api : GammaApi) (startDateMin : String)

/-- A venue that answers every request with a page of its listing. -/
def ofApi : Answers GetMarketsRequest (List TaggedMarket) where
  page _ _ req := ((api.getMarkets req.tagId).drop req.offset).take req.limit
  failure _ _ _ _ := none

theorem get_ofApi (i k : ℕ) (tagId : String) (offset : ℕ) :
    (ofApi api).get isTransient i k (getMarketsRequest startDateMin tagId offset) =
      some (((api.getMarkets tagId).drop offset).take pageLimit) :=
  rfl

/-- The pages of a tag are those of the ingestion model. -/
theorem scanTag_ofApi (i : ℕ) (tagId : String) (fuel k offset : ℕ)
    (s : FirstScan TaggedMarket String) (hoffset : offset ≤ (api.getMarkets tagId).length)
    (hfuel : (api.getMarkets tagId).length < offset + fuel * pageLimit) :
    scanTag (ofApi api) startDateMin i tagId fuel k offset s =
      some (scanPages (api.getMarkets tagId) offset s) := by
  induction fuel generalizing k offset s with
  | zero => omega
  | succ fuel ih =>
    rw [scanTag, get_ofApi, scanPages]
    dsimp only [Option.getD_some]
    -- a short page is the last one of both
    by_cases hlast : (((api.getMarkets tagId).drop offset).take pageLimit).length < pageLimit
    · rw [if_pos hlast, if_pos hlast]
    · rw [if_neg hlast, if_neg hlast]
      rw [List.length_take, List.length_drop] at hlast
      apply ih
      · omega
      · rw [Nat.succ_mul] at hfuel
        omega

/-- **Without failures**, a Polymarket backfill keeps the markets of the ingestion model. -/
theorem scanTags_ofApi (market : MarketTag) (fuel : ℕ)
    (hfuel : ∀ tagId ∈ market.identifiers .polymarket,
      (api.getMarkets tagId).length < fuel * pageLimit) :
    (scanTags (ofApi api) startDateMin fuel (market.identifiers .polymarket)).map
        FirstScan.container = some (Degenerate.backfillPolymarketForMarketTag api market) := by
  have hscan : ∀ (tags : List String) (n : ℕ) (s : FirstScan TaggedMarket String),
      (∀ tagId ∈ tags, (api.getMarkets tagId).length < fuel * pageLimit) →
      (tags.zipIdx n).foldlM
          (fun s tag => scanTag (ofApi api) startDateMin tag.2 tag.1 fuel 0 0 s) s =
        some (tags.foldl (fun s tagId => scanPages (api.getMarkets tagId) 0 s) s) := by
    intro tags
    induction tags with
    | nil => exact fun _ _ _ => rfl
    | cons tagId tags ih =>
      intro n s hfuel
      rw [List.forall_mem_cons] at hfuel
      rw [List.zipIdx_cons, List.foldlM_cons,
        scanTag_ofApi api startDateMin _ tagId fuel 0 0 s (Nat.zero_le _) (by omega)]
      exact ih (n + 1) _ hfuel.2
  rw [scanTags, hscan _ 0 {} hfuel]
  rfl

end Api

end Degenerate.Backfill
