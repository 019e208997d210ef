import Degenerate.Platforms.MarketTags
import Degenerate.Lib.FirstOfKey

/-!
# Live and Backfill Ingestion

How a market gets its category when it is taken in as it appears, and when it is fetched
afterwards (`kalshi.rs`, `polymarket.rs`).  The live handlers go by the first tag of the
market that is known; the Kalshi backfills ask for the series of a category, the Polymarket
backfill asks for the markets of one tag after the other.

`KalshiApi` and `GammaApi` are what the platforms answer, with what their queries promise.

## Main Results

- `classifiedAlike_iff`: the live handler and the backfills agree on an item iff the
  backfills store it exactly under what the live handler finds
- `mem_backfillPolymarketForMarketTag`: what one Polymarket backfill keeps
- `ingestion_alike_iff`: when the paths agree, on both platforms
-/

namespace Degenerate

open Degenerate.Lib

/-! ## §1 Agreement of Two Paths -/

/-- What the backfills of one platform hand on to be stored, each part with its tag. -/
abbrev Ingested (α : Type) := List (MarketTag × List α)

/-- The categories under which the backfills store the item `x`. -/
def Ingested.storedUnder {α : Type} [DecidableEq α] (run : Ingested α) (x : α) :
    List MarketTagInfo :=
  (run.filter fun part => x ∈ part.2).map fun part => part.1.info

/-- The item gets the same category on both paths, is taken by both or by neither, and is
not stored under two categories. -/
structure ClassifiedAlike (live : Option MarketTagInfo) (stored : List MarketTagInfo) :
    Prop where
  same : ∀ i ∈ live, ∀ j ∈ stored, i = j
  taken : live.isSome ↔ stored ≠ []
  one : ∀ i ∈ stored, ∀ j ∈ stored, i = j

theorem classifiedAlike_iff {live : Option MarketTagInfo} {stored : List MarketTagInfo} :
    ClassifiedAlike live stored ↔ ∀ i, i ∈ stored ↔ live = some i := by
  constructor
  · intro h i
    constructor
    · -- what is stored is what the live path says, as both took it
      intro hi
      obtain ⟨j, hj⟩ := Option.isSome_iff_exists.mp (h.taken.mpr (List.ne_nil_of_mem hi))
      rw [hj, h.same j hj i hi]
    · intro hi
      obtain ⟨j, hj⟩ := List.exists_mem_of_ne_nil _ (h.taken.mp (by simp [hi]))
      rwa [h.same i hi j hj]
  · intro h
    refine ⟨fun i hi j hj => ?_, ⟨fun hl hn => ?_, fun hs => ?_⟩, fun i hi j hj => ?_⟩
    · -- and conversely each of the three parts is read off the equivalence
      exact Option.some.inj (hi.symm.trans ((h j).mp hj))
    · obtain ⟨i, hi⟩ := Option.isSome_iff_exists.mp hl
      have := (h i).mpr hi
      simp [hn] at this
    · obtain ⟨i, hi⟩ := List.exists_mem_of_ne_nil _ hs
      simp [(h i).mp hi]
    · exact Option.some.inj (((h i).mp hi).symm.trans ((h j).mp hj))

theorem MarketTag.info_injective {m m' : MarketTag} (h : m.info = m'.info) : m = m' := by
  cases m <;> cases m' <;> first | rfl | exact absurd h (by decide)

/-- An item is stored under the category of a tag iff some part with that tag holds it. -/
theorem Ingested.mem_storedUnder {α : Type} [DecidableEq α] {run : Ingested α} {x : α}
    {market : MarketTag} :
    market.info ∈ run.storedUnder x ↔ ∃ part ∈ run, x ∈ part.2 ∧ part.1 = market := by
  simp only [storedUnder, List.mem_map, List.mem_filter, decide_eq_true_eq, and_assoc]
  constructor
  · intro ⟨part, hpart, hx, hinfo⟩
    exact ⟨part, hpart, hx, MarketTag.info_injective hinfo⟩
  · intro ⟨part, hpart, hx, hm⟩
    exact ⟨part, hpart, hx, hm ▸ rfl⟩

/-- Agreement, tag by tag. -/
theorem Ingested.alike_iff {α : Type} [DecidableEq α] {run : Ingested α} {x : α}
    {live : Option MarketTag} :
    ClassifiedAlike (live.map MarketTag.info) (run.storedUnder x) ↔
      ∀ market, market.info ∈ run.storedUnder x ↔ live = some market := by
  -- the wire values tell the tags apart
  have hlive : ∀ market : MarketTag,
      live.map MarketTag.info = some market.info ↔ live = some market := by
    intro market
    rw [Option.map_eq_some_iff]
    constructor
    · intro ⟨m, hm, hinfo⟩
      rw [hm, MarketTag.info_injective hinfo]
    · intro hm
      exact ⟨market, hm, rfl⟩
  rw [classifiedAlike_iff]
  constructor
  · intro h market
    rw [h, hlive]
  · intro h i
    constructor
    · intro hi
      obtain ⟨part, -, rfl⟩ := List.mem_map.mp hi
      exact (hlive _).mpr ((h _).mp hi)
    · intro hi
      obtain ⟨market, -, rfl⟩ := Option.map_eq_some_iff.mp hi
      exact (h market).mpr ((hlive market).mp hi)

/-! ## §2 Kalshi -/

/-- `Series`: the fields that the classification reads. -/
structure Series where
  ticker : String
  category : String
  tags : Option (List String) := none
  deriving DecidableEq

/-- The series that Kalshi lists, and its answers to the query by category. -/
structure KalshiApi where
  series : List Series
  /-- `get_all_series` with a category. -/
  getAllSeries : String → List Series
  mem_getAllSeries : ∀ {category s}, s ∈ getAllSeries category ↔ s ∈ series ∧ s.category = category
  ticker_inj : ∀ s ∈ series, ∀ s' ∈ series, s.ticker = s'.ticker → s = s'

/-- `sort_kalshi_tags`. -/
def sortKalshiTags (seriesData : Series) : Option MarketTag := do
  let tags ← seriesData.tags
  firstTag .kalshi tags

/-- `backfill_kalshi_politics_history`: the tickers handed on for each political category. -/
def backfillKalshiPoliticsHistory (api : KalshiApi) : Ingested String :=
  (MarketTag.politics.identifiers .kalshi).map fun category =>
    (.politics, (api.getAllSeries category).map Series.ticker)

/-- The vectors of `backfill_kalshi_sport_history`. -/
structure SportTickers where
  soccer : List String := []
  football : List String := []
  basketball : List String := []

/-- The loop over the tags of one series, left at the first that names a sport. -/
def SportTickers.pushByTag (v : SportTickers) (ticker : String) : List String → SportTickers
  | [] => v
  | tag :: tags =>
    match trim tag with
    | "Soccer" => { v with soccer := v.soccer ++ [ticker] }
    | "Football" => { v with football := v.football ++ [ticker] }
    | "Basketball" => { v with basketball := v.basketball ++ [ticker] }
    | _ => v.pushByTag ticker tags

/-- One series of the loop of `backfill_kalshi_sport_history`. -/
def SportTickers.pushSeries (v : SportTickers) (market : Series) : SportTickers :=
  match market.tags with
  | none => v
  | some tags => v.pushByTag market.ticker tags

/-- `backfill_kalshi_sport_history`. -/
def backfillKalshiSportHistory (api : KalshiApi) : Ingested String :=
  let v := (api.getAllSeries "Sports").foldl SportTickers.pushSeries {}
  [(.soccer, v.soccer), (.nfl, v.football), (.nba, v.basketball)]

/-- `backfill_funcs` of the Kalshi client. -/
def backfillKalshi (api : KalshiApi) : Ingested String :=
  backfillKalshiSportHistory api ++ backfillKalshiPoliticsHistory api

/-! ## §3 What the Kalshi Backfills Take -/

/-- The vector of a sport. -/
def SportTickers.of (v : SportTickers) : MarketTag → List String
  | .soccer => v.soccer
  | .nfl => v.football
  | .nba => v.basketball
  | .politics => []

/-- The sport that a Kalshi tag names. -/
def sportOf (tag : String) : Option MarketTag :=
  (kalshiTagLookup (trim tag)).filter (· ≠ .politics)

theorem sportOf_eq_some {tag : String} {market : MarketTag} :
    sportOf tag = some market ↔
      market ≠ .politics ∧ trim tag ∈ market.identifiers .kalshi := by
  rw [sportOf, Option.filter_eq_some_iff, kalshiTagLookup, tagLookup_eq_some, and_comm,
    decide_eq_true_iff]

/-- The first sport that the tags of a series name. -/
def firstSport (tags : List String) : Option MarketTag := tags.findSome? sportOf

/-- The loop over the tags puts the ticker into the vector of the first sport. -/
theorem SportTickers.pushByTag_of (v : SportTickers) (ticker : String) (tags : List String)
    (market : MarketTag) :
    (v.pushByTag ticker tags).of market =
      v.of market ++ if firstSport tags = some market then [ticker] else [] := by
  induction tags with
  | nil => simp [pushByTag, firstSport]
  | cons tag tags ih =>
    rw [pushByTag, firstSport, List.findSome?_cons]
    split
    · rename_i htag
      have : sportOf tag = some .soccer := sportOf_eq_some.mpr (by rw [htag]; decide)
      rw [this]
      cases market <;> simp [of]
    · rename_i htag
      have : sportOf tag = some .nfl := sportOf_eq_some.mpr (by rw [htag]; decide)
      rw [this]
      cases market <;> simp [of]
    · rename_i htag
      have : sportOf tag = some .nba := sportOf_eq_some.mpr (by rw [htag]; decide)
      rw [this]
      cases market <;> simp [of]
    · -- none of the three names: the loop goes on
      rename_i hsoccer hfootball hbasketball
      have hnone : sportOf tag = none := by
        rw [Option.eq_none_iff_forall_ne_some]
        intro m hm
        obtain ⟨hp, hmem⟩ := sportOf_eq_some.mp hm
        cases m <;> simp_all [MarketTag.identifiers, MarketTag.kalshiIdentifiers]
      rw [hnone]
      exact ih

/-- One series goes into the vector of the first sport among its tags. -/
theorem SportTickers.pushSeries_of (v : SportTickers) (s : Series) (market : MarketTag) :
    (v.pushSeries s).of market =
      v.of market ++ if firstSport (s.tags.getD []) = some market then [s.ticker] else [] := by
  unfold pushSeries
  split
  · rename_i htags
    simp [htags, firstSport]
  · rename_i tags htags
    rw [htags]
    exact v.pushByTag_of s.ticker tags market

/-- The loop over the series: each goes into the vector of its first sport. -/
theorem SportTickers.mem_foldl_of (series : List Series) {ticker : String}
    {market : MarketTag} :
    ticker ∈ (series.foldl SportTickers.pushSeries {}).of market ↔
      ∃ s ∈ series, firstSport (s.tags.getD []) = some market ∧ s.ticker = ticker := by
  induction series using List.reverseRecOn with
  | nil => cases market <;> simp [of]
  | append_singleton series s ih =>
    rw [List.foldl_append, List.foldl_cons, List.foldl_nil, pushSeries_of, List.mem_append, ih]
    by_cases hs : firstSport (s.tags.getD []) = some market
    · simp [hs, or_and_right, exists_or, eq_comm]
    · simp [hs, or_and_right, exists_or]

theorem firstSport_ne_politics {tags : List String} : firstSport tags ≠ some .politics := by
  intro h
  obtain ⟨tag, -, htag⟩ := List.exists_of_findSome?_eq_some h
  exact (sportOf_eq_some.mp htag).1 rfl

section Kalshi

variable (api : KalshiApi) {s : Series}

/-- A query by category hands on the ticker of a listed series iff it is of that category. -/
theorem KalshiApi.ticker_mem_getAllSeries (hs : s ∈ api.series) {category : String} :
    s.ticker ∈ (api.getAllSeries category).map Series.ticker ↔ s.category = category := by
  rw [List.mem_map]
  constructor
  · intro ⟨s', hs', hticker⟩
    obtain ⟨hlisted, hcategory⟩ := api.mem_getAllSeries.mp hs'
    rwa [← api.ticker_inj s' hlisted s hs hticker]
  · intro hcategory
    exact ⟨s, api.mem_getAllSeries.mpr ⟨hs, hcategory⟩, rfl⟩

/-- The sport backfill takes a series iff it is of the category `Sports` and its first sport
is that of the vector. -/
theorem ticker_mem_sport (hs : s ∈ api.series) {market : MarketTag} :
    s.ticker ∈ ((api.getAllSeries "Sports").foldl SportTickers.pushSeries {}).of market ↔
      s.category = "Sports" ∧ firstSport (s.tags.getD []) = some market := by
  rw [SportTickers.mem_foldl_of]
  constructor
  · intro ⟨s', hs', hsport, hticker⟩
    obtain ⟨hlisted, hcategory⟩ := api.mem_getAllSeries.mp hs'
    rw [← api.ticker_inj s' hlisted s hs hticker]
    exact ⟨hcategory, hsport⟩
  · intro ⟨hcategory, hsport⟩
    exact ⟨s, api.mem_getAllSeries.mpr ⟨hs, hcategory⟩, hsport, rfl⟩

/-- **What the Kalshi backfills store a series under.** -/
theorem mem_backfillKalshi (hs : s ∈ api.series) {market : MarketTag} :
    market.info ∈ (backfillKalshi api).storedUnder s.ticker ↔
      (s.category = "Sports" ∧ firstSport (s.tags.getD []) = some market) ∨
      (s.category ∈ MarketTag.politics.identifiers .kalshi ∧ market = .politics) := by
  rw [Ingested.mem_storedUnder]
  have hsport : (∃ part ∈ backfillKalshiSportHistory api,
      s.ticker ∈ part.2 ∧ part.1 = market) ↔
        s.category = "Sports" ∧ firstSport (s.tags.getD []) = some market := by
    rw [← ticker_mem_sport api hs]
    cases market <;> simp [backfillKalshiSportHistory, SportTickers.of]
  have hpolitics : (∃ part ∈ backfillKalshiPoliticsHistory api,
      s.ticker ∈ part.2 ∧ part.1 = market) ↔
        s.category ∈ MarketTag.politics.identifiers .kalshi ∧ market = .politics := by
    constructor
    · intro ⟨part, hpart, hticker, hm⟩
      obtain ⟨category, hmem, rfl⟩ := List.mem_map.mp hpart
      rw [(api.ticker_mem_getAllSeries hs).mp hticker]
      exact ⟨hmem, hm.symm⟩
    · intro ⟨hmem, hm⟩
      refine ⟨_, List.mem_map_of_mem hmem, ?_, hm.symm⟩
      exact (api.ticker_mem_getAllSeries hs).mpr rfl
  simp only [backfillKalshi, List.mem_append, or_and_right, exists_or, hsport, hpolitics]

/-- The category and the tags of a series agree: a political category goes with a political
first tag, `Sports` with the tag of a sport or no known tag, and any other category with no
known tag. -/
def Series.Consistent (s : Series) : Prop :=
  (s.category ∈ MarketTag.politics.identifiers .kalshi ∧
    LeadsWith .kalshi .politics (s.tags.getD [])) ∨
  (s.category = "Sports" ∧ ∃ market ≠ .politics, LeadsWith .kalshi market (s.tags.getD [])) ∨
  (s.category ∉ MarketTag.politics.identifiers .kalshi ∧
    ∀ tag ∈ s.tags.getD [], ¬ Known .kalshi tag)

theorem sortKalshiTags_eq (s : Series) :
    sortKalshiTags s = firstTag .kalshi (s.tags.getD []) := by
  unfold sortKalshiTags
  cases s.tags <;> rfl

/-- When the first known tag is that of a sport, it is the first sport as well. -/
theorem firstSport_of_firstTag {tags : List String} (h : firstTag .kalshi tags ≠ some .politics) :
    firstSport tags = firstTag .kalshi tags := by
  induction tags with
  | nil => simp only [firstSport, firstTag, List.findSome?_nil]
  | cons tag tags ih =>
    simp only [firstTag, firstSport, List.findSome?_cons, sportOf, kalshiTagLookup] at h ih ⊢
    cases hl : tagLookup .kalshi (trim tag) with
    | none =>
      rw [hl] at h
      exact ih h
    | some market =>
      rw [hl] at h
      have hne : market ≠ .politics := fun he => h (congrArg some he)
      simp [Option.filter, hne]

/-- **Kalshi**: both paths agree on a series iff its category and its tags do. -/
theorem kalshi_alike_iff (hs : s ∈ api.series) :
    ClassifiedAlike ((sortKalshiTags s).map MarketTag.info)
        ((backfillKalshi api).storedUnder s.ticker) ↔
      s.Consistent := by
  have hsports : "Sports" ∉ MarketTag.politics.identifiers .kalshi := by decide
  simp only [Ingested.alike_iff, mem_backfillKalshi api hs, sortKalshiTags_eq]
  unfold Series.Consistent
  simp only [← firstTag_eq_some, ← firstTag_eq_none]
  -- a politics series is taken by its category, any other by its tags
  by_cases hp : s.category ∈ MarketTag.politics.identifiers .kalshi
  · have hns : s.category ≠ "Sports" := fun he => hsports (he ▸ hp)
    simp only [hp, hns, false_and, true_and, false_or, not_true, or_false]
    constructor
    · intro h
      exact (h .politics).mp rfl
    · intro h market
      rw [h, Option.some.injEq, eq_comm]
  · simp only [hp, false_and, or_false, false_or, not_false_eq_true, true_and]
    constructor
    · intro h
      cases hl : firstTag .kalshi (s.tags.getD []) with
      | none => exact Or.inr rfl
      | some market =>
        obtain ⟨hcategory, hsport⟩ := (h market).mpr hl
        refine Or.inl ⟨hcategory, market, ?_, rfl⟩
        -- the sport that the tags name is never politics
        exact fun he => firstSport_ne_politics (he ▸ hsport)
    · intro h market
      -- the first tag is a sport, or there is none
      rcases h with ⟨hcategory, m, hm, hl⟩ | hl
      · have hne : firstTag .kalshi (s.tags.getD []) ≠ some .politics := by
          rw [hl]
          exact fun he => hm (Option.some.inj he)
        rw [firstSport_of_firstTag hne]
        exact and_iff_right hcategory
      · rw [firstSport_of_firstTag (by rw [hl]; exact nofun), hl]
        simp

end Kalshi

/-! ## §4 Polymarket -/

/-- `gamma::Tag`. -/
structure Tag where
  id : String
  deriving DecidableEq

deriving instance DecidableEq for GammaMarket

/-- `gamma::Market`, with the fields that the classification reads. -/
structure TaggedMarket extends GammaMarket where
  conditionId : Option String := none
  tags : Option (List Tag) := none
  deriving DecidableEq

/-- The ids of the tags that a market carries. -/
def TaggedMarket.tagIds (m : TaggedMarket) : List String := (m.tags.getD []).map Tag.id

/-- The markets that Polymarket lists, and its answers to the query by tag. -/
structure GammaApi where
  markets : List TaggedMarket
  /-- `get_markets` with a `tag_id`, all pages of it. -/
  getMarkets : String → List TaggedMarket
  mem_getMarkets : ∀ {tagId m}, m ∈ getMarkets tagId ↔ m ∈ markets ∧ tagId ∈ m.tagIds

/-- `sort_polymarket_tags`. -/
def sortPolymarketTags (tags : List Tag) : Option MarketTag :=
  firstTag .polymarket (tags.map Tag.id)

/-- `handle_polymarket_wss_message` on a new market: without tags it fails, without a known
tag it takes no part. -/
def handleNewMarket (value : TaggedMarket) : Except String (Option MarketTag) :=
  match value.tags with
  | none => .error "tags are missing"
  | some tags => .ok (sortPolymarketTags tags)

/-- The key of `seen_markets`. -/
def TaggedMarket.conditionKey (m : TaggedMarket) : String := m.conditionId.getD ""

/-- `limit`. -/
def pageLimit : ℕ := 100

/-- The pages of one tag, from `offset` to the first that is not full. -/
def scanPages (all : List TaggedMarket) (offset : ℕ) (s : FirstScan TaggedMarket String) :
    FirstScan TaggedMarket String :=
  let markets := (all.drop offset).take pageLimit
  let s := s.offerAll TaggedMarket.conditionKey markets
  if markets.length < pageLimit then s else scanPages all (offset + pageLimit) s
termination_by all.length - offset
decreasing_by
  simp only [markets, pageLimit, List.length_take, List.length_drop] at *
  omega

/-- `backfill_polymarket_for_market_tag`: the markets kept for a tag. -/
def backfillPolymarketForMarketTag (api : GammaApi) (market : MarketTag) : List TaggedMarket :=
  ((market.identifiers .polymarket).foldl
    (fun s tagId => scanPages (api.getMarkets tagId) 0 s) {}).container

/-- `backfill_funcs` of the Polymarket client: `backfill_polymarket_sport_history` and
`backfill_polymarket_politics_history`. -/
def backfillPolymarket (api : GammaApi) : Ingested TaggedMarket :=
  [.soccer, .nba, .nfl, .politics].map fun market =>
    (market, backfillPolymarketForMarketTag api market)

/-! ## §5 What the Polymarket Backfills Take -/

/-- The pages together are the whole answer. -/
theorem scanPages_eq (all : List TaggedMarket) (offset : ℕ)
    (s : FirstScan TaggedMarket String) :
    scanPages all offset s = s.offerAll TaggedMarket.conditionKey (all.drop offset) := by
  fun_induction scanPages all offset s with
  | case1 offset s markets s' hlast =>
    -- the last page: nothing lies behind it
    have hall : markets = all.drop offset := by
      apply List.take_of_length_le
      simp only [markets, List.length_take] at hlast
      omega
    rw [← hall]
  | case2 offset s markets s' hfull ih =>
    rw [ih, ← FirstScan.offerAll_append, ← List.drop_drop, List.take_append_drop]

/-- The answers to the queries of one market tag, in the order in which they come. -/
def GammaApi.answers (api : GammaApi) (market : MarketTag) : List TaggedMarket :=
  (market.identifiers .polymarket).flatMap api.getMarkets

/-- **What one backfill keeps**: the first market of each condition id. -/
theorem mem_backfillPolymarketForMarketTag (api : GammaApi) {market : MarketTag}
    {m : TaggedMarket} :
    m ∈ backfillPolymarketForMarketTag api market ↔
      FirstScan.IsFirst TaggedMarket.conditionKey (api.answers market) m := by
  simp only [backfillPolymarketForMarketTag, scanPages_eq, List.drop_zero]
  rw [FirstScan.offerAll_flatMap, FirstScan.mem_scan_container, GammaApi.answers]

/-- The market carries an identifier of the tag, as it stands. -/
def TaggedMarket.Carries (m : TaggedMarket) (market : MarketTag) : Prop :=
  ∃ tagId ∈ m.tagIds, tagId ∈ market.identifiers .polymarket

/-- The queries of the tag answer another market with the same condition id first. -/
def GammaApi.Shadowed (api : GammaApi) (market : MarketTag) (m : TaggedMarket) : Prop :=
  ∃ other ≠ m, (api.answers market).find? (fun b => b.conditionKey = m.conditionKey) = some other

section Polymarket

variable (api : GammaApi) {m : TaggedMarket}

theorem GammaApi.mem_answers (hm : m ∈ api.markets) {market : MarketTag} :
    m ∈ api.answers market ↔ m.Carries market := by
  simp only [answers, List.mem_flatMap, api.mem_getMarkets, hm, true_and, TaggedMarket.Carries]
  simp only [and_comm]

/-- The market is the first of its condition id iff it is answered at all and not shadowed. -/
theorem GammaApi.isFirst_iff (hm : m ∈ api.markets) {market : MarketTag} :
    FirstScan.IsFirst TaggedMarket.conditionKey (api.answers market) m ↔
      m.Carries market ∧ ¬ api.Shadowed market m := by
  rw [← api.mem_answers hm]
  constructor
  · intro h
    refine ⟨List.mem_of_find?_eq_some h, ?_⟩
    intro ⟨other, hne, hother⟩
    exact hne (Option.some.inj (hother.symm.trans h))
  · intro ⟨hmem, hfree⟩
    have hsome : ((api.answers market).find?
        (fun b => b.conditionKey = m.conditionKey)).isSome := by
      rw [List.find?_isSome]
      exact ⟨m, hmem, by simp⟩
    obtain ⟨other, hother⟩ := Option.isSome_iff_exists.mp hsome
    have hsame : other = m := by
      by_contra hne
      exact hfree ⟨other, hne, hother⟩
    exact hsame ▸ hother

/-- **What the Polymarket backfills store a market under.** -/
theorem mem_backfillPolymarket (hm : m ∈ api.markets) {market : MarketTag} :
    market.info ∈ (backfillPolymarket api).storedUnder m ↔
      m.Carries market ∧ ¬ api.Shadowed market m := by
  rw [Ingested.mem_storedUnder, ← api.isFirst_iff hm, ← mem_backfillPolymarketForMarketTag]
  constructor
  · intro ⟨part, hpart, hmem, htag⟩
    obtain ⟨market', -, rfl⟩ := List.mem_map.mp hpart
    exact htag ▸ hmem
  · intro hmem
    refine ⟨_, List.mem_map_of_mem ?_, hmem, rfl⟩
    cases market <;> decide

/-- The tags of a market agree: it has no known tag, or the tag of its first known one also
stands on it without whitespace and is not shadowed there, while each other tag that stands
on it is shadowed. -/
def GammaApi.Consistent (m : TaggedMarket) : Prop :=
  (∀ tag ∈ m.tagIds, ¬ Known .polymarket tag) ∨
  ∃ market, LeadsWith .polymarket market m.tagIds ∧
    m.Carries market ∧ ¬ api.Shadowed market m ∧
    ∀ other ≠ market, m.Carries other → api.Shadowed other m

/-- The tag under which the live handler takes a new market in. -/
def liveMarketTag (value : TaggedMarket) : Option MarketTag :=
  (handleNewMarket value).toOption.join

theorem liveMarketTag_eq (value : TaggedMarket) :
    liveMarketTag value = firstTag .polymarket value.tagIds := by
  unfold liveMarketTag handleNewMarket TaggedMarket.tagIds
  cases value.tags <;> rfl

/-- **Polymarket**: both paths agree on a market iff its tags do. -/
theorem polymarket_alike_iff (hm : m ∈ api.markets) :
    ClassifiedAlike ((liveMarketTag m).map MarketTag.info)
        ((backfillPolymarket api).storedUnder m) ↔
      api.Consistent m := by
  simp only [Ingested.alike_iff, mem_backfillPolymarket api hm, liveMarketTag_eq]
  unfold GammaApi.Consistent
  simp only [← firstTag_eq_some, ← firstTag_eq_none]
  constructor
  · intro h
    cases hl : firstTag .polymarket m.tagIds with
    | none => exact Or.inl rfl
    | some market =>
      obtain ⟨hcarries, hfree⟩ := (h market).mpr hl
      refine Or.inr ⟨market, rfl, hcarries, hfree, fun other hne hother => ?_⟩
      by_contra hshadow
      exact hne (Option.some.inj (((h other).mp ⟨hother, hshadow⟩).symm.trans hl))
  · intro h market
    rcases h with hnone | ⟨lead, hl, hcarries, hfree, hothers⟩
    · -- no known tag: no query answers the market either
      rw [hnone]
      refine iff_of_false ?_ nofun
      rintro ⟨⟨tagId, htag, hid⟩, -⟩
      exact firstTag_eq_none.mp hnone tagId htag (known_of_mem hid)
    · rw [hl, Option.some.injEq]
      constructor
      · intro ⟨hother, hshadow⟩
        by_contra hne
        exact hshadow (hothers market (Ne.symm hne) hother)
      · intro he
        exact he ▸ ⟨hcarries, hfree⟩

end Polymarket

/-! ## §6 Both Platforms -/

/-- **When live and backfill ingestion classify alike.**  For every listed Kalshi series and
every listed Polymarket market, exactly when its category and tags are consistent. -/
theorem ingestion_alike_iff (kalshi : KalshiApi) (gamma : GammaApi) :
    (∀ s ∈ kalshi.series,
      (ClassifiedAlike ((sortKalshiTags s).map MarketTag.info)
          ((backfillKalshi kalshi).storedUnder s.ticker) ↔ s.Consistent)) ∧
    (∀ m ∈ gamma.markets,
      (ClassifiedAlike ((liveMarketTag m).map MarketTag.info)
          ((backfillPolymarket gamma).storedUnder m) ↔ gamma.Consistent m)) :=
  ⟨fun _ hs => kalshi_alike_iff kalshi hs, fun _ hm => polymarket_alike_iff gamma hm⟩

/-! ### Two Inconsistent Items -/

/-- A series of a political category, which Kalshi lists without tags. -/
def untaggedSeries : Series where
  ticker := "KXPRES"
  category := "Elections"

theorem untagged_ticker_inj :
    ∀ s ∈ [untaggedSeries], ∀ s' ∈ [untaggedSeries], s.ticker = s'.ticker → s = s' := by
  decide

theorem mem_filter_category {series : List Series} {category : String} {s : Series} :
    s ∈ series.filter (·.category = category) ↔ s ∈ series ∧ s.category = category := by
  simp

/-- A platform that lists only this series. -/
def untaggedApi : KalshiApi where
  series := [untaggedSeries]
  getAllSeries category := [untaggedSeries].filter (·.category = category)
  mem_getAllSeries := mem_filter_category
  ticker_inj := untagged_ticker_inj

/-- A market on a basketball team's visit to Congress: tags `NBA` and `Politics`. -/
def crossTaggedMarket : TaggedMarket where
  slug := some "nba-visit"
  conditionId := some "0x1"
  tags := some [{ id := "745" }, { id := "2" }]

theorem mem_filter_tagIds {markets : List TaggedMarket} {tagId : String} {m : TaggedMarket} :
    m ∈ markets.filter (tagId ∈ ·.tagIds) ↔ m ∈ markets ∧ tagId ∈ m.tagIds := by
  simp

/-- A platform that lists only this market. -/
def crossTaggedApi : GammaApi where
  markets := [crossTaggedMarket]
  getMarkets tagId := [crossTaggedMarket].filter (tagId ∈ ·.tagIds)
  mem_getMarkets := mem_filter_tagIds

/-- **The paths differ**: the backfill takes in a series that the live handler rejects, and
stores a market under two tags. -/
theorem ingestion_differs :
    ¬ ClassifiedAlike ((sortKalshiTags untaggedSeries).map MarketTag.info)
        ((backfillKalshi untaggedApi).storedUnder untaggedSeries.ticker) ∧
    ¬ ClassifiedAlike ((liveMarketTag crossTaggedMarket).map MarketTag.info)
        ((backfillPolymarket crossTaggedApi).storedUnder crossTaggedMarket) := by
  constructor
  · -- the backfill takes a series of the category, whatever its tags
    intro h
    have hstored : MarketTag.politics.info ∈
        (backfillKalshi untaggedApi).storedUnder untaggedSeries.ticker :=
      (mem_backfillKalshi untaggedApi (List.mem_singleton_self _)).mpr
        (Or.inr ⟨by decide, rfl⟩)
    have hlive := h.taken.mpr (List.ne_nil_of_mem hstored)
    exact absurd hlive (by decide)
  · intro h
    -- the market answers to a tag of nba and to one of politics
    have hlisted : crossTaggedMarket ∈ crossTaggedApi.markets := List.mem_singleton_self _
    have hnotShadowed : ∀ market, ¬ crossTaggedApi.Shadowed market crossTaggedMarket := by
      intro market ⟨other, hne, hother⟩
      have hmem := List.mem_of_find?_eq_some hother
      obtain ⟨tagId, -, hanswer⟩ := List.mem_flatMap.mp hmem
      have hone : other ∈ crossTaggedApi.markets :=
        (crossTaggedApi.mem_getMarkets.mp hanswer).1
      exact hne (List.mem_singleton.mp hone)
    have hnba := (mem_backfillPolymarket crossTaggedApi hlisted).mpr
      ⟨⟨"745", by decide, by decide⟩, hnotShadowed .nba⟩
    have hpolitics := (mem_backfillPolymarket crossTaggedApi hlisted).mpr
      ⟨⟨"2", by decide, by decide⟩, hnotShadowed .politics⟩
    -- one market would have to be of both
    have hsame := h.one _ hnba _ hpolitics
    exact absurd (MarketTag.info_injective hsame) (by decide)

end Degenerate
