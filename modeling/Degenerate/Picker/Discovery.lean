import Degenerate.Picker.Book
import Degenerate.Picker.Execution
import Mathlib.Data.List.Basic

/-!
# Discovered Arbs and Their Correlation Ids

`resolve_discovered_list` looks up the two markets of a discovered arb, picks the
token of the chosen leg, and derives the correlation id from the two tokens.  The
id is then the key of the arb everywhere: of its row in the `arbs` table, of its
record in the watch book, of its in-flight flag and of its cooldown.

On Polymarket each leg of a market has a token of its own.  On Kalshi the token is
the market ticker, for both legs: the id does not see the leg.

## Main Results

- `correlationId_ne_iff`: exactly when two resolved arbs get different ids, and that
  different ids keep the second arb from being lost in the table or in the book
- `yes_and_no_share_id`: two arbs that differ in a Kalshi leg get one id
-/

namespace Degenerate.Picker

open Degenerate.Lib

/-! ## §1 Resolution -/

/-- The market endpoints: Kalshi by ticker, Polymarket by slug with the token ids as JSON. -/
structure MarketVenue where
  getMarket : String → Except String MarketInfo
  getMarketBySlug : String → Except String (MarketInfo × Option String)
  fromJson : String → Option (List String)

/-- `get_arb_entity_detail_kalshi`: the token is the ticker. -/
def getArbEntityDetailKalshi (v : MarketVenue) (ticker : String) :
    Except String (MarketInfo × String) :=
  match v.getMarket ticker with
  | .error e => .error ("error from picker kalshi get market: " ++ e)
  | .ok market => .ok (market, ticker)

/-- `get_arb_entity_detail_polymarket`: the token is that of the leg. -/
def getArbEntityDetailPolymarket (v : MarketVenue) (slug : String) (leg : Leg) :
    Except String (MarketInfo × String) :=
  match v.getMarketBySlug slug with
  | .error e => .error ("error from picker polymarket get market: " ++ e)
  | .ok (_, none) => .error "polymarket clob_token_ids should not be empty"
  | .ok (market, some clobTokens) =>
      match v.fromJson clobTokens with
      | none => .error "failed to parse clob_token_ids JSON array"
      | some parsedTokens =>
          match parsedTokens[leg.index]? with
          | none => .error ("leg index " ++ toString leg.index ++
              " is out of bounds for clob_tokens")
          | some token => .ok (market, token)

/-- The entity lookup of `get_arb_market`, by platform. -/
def getArbEntityDetail (v : MarketVenue) (platform : Platform) (marketId : String) (leg : Leg) :
    Except String (MarketInfo × String) :=
  match platform with
  | .kalshi => getArbEntityDetailKalshi v marketId
  | .polymarket => getArbEntityDetailPolymarket v marketId leg

/-- `get_arb_market`. -/
def getArbMarket (v : MarketVenue) (discovery : Discovery) : Except String ArbEssentials :=
  match discovery.marketInfo with
  | none => .error "market_info should not be None"
  | some marketInfo =>
      match Platform.tryFrom marketInfo.platform with
      | none => .error ("unknown enumeration value " ++ toString marketInfo.platform)
      | some platform =>
          match getArbEntityDetail v platform marketInfo.marketId discovery.getLeg with
          | .error e => .error e
          | .ok (newMarket, tokenId) =>
              .ok {
                discovery := some { discovery with
                  marketInfo := some { newMarket with
                    marketCategory := marketInfo.marketCategory
                    marketSubcategory := marketInfo.marketSubcategory } }
                tokenId := tokenId }

/-- The id of an arb with these two tokens. -/
def arbCorrelationId (uuidV5 : String → String) (anchorToken matchToken : String) :
    CorrelationId :=
  uuidV5 (anchorToken ++ ":" ++ matchToken)

/-- One turn of the loop of `resolve_discovered_list`: the message for a discovered arb,
    unless a leg is missing or cannot be looked up. -/
def resolveDiscovered (uuidV5 : String → String) (v : MarketVenue) (now : ℤ)
    (d : DiscoveredArb) : Option ClientEbo :=
  match d.anchor, d.match with
  | some anchor, some «match» =>
      match getArbMarket v anchor, getArbMarket v «match» with
      | .ok a, .ok m => some {
          correlationId := arbCorrelationId uuidV5 a.tokenId m.tokenId
          actionAt := now
          action := .crossPlatformArb ⟨some a, some m, d.scored⟩ }
      | _, _ => none
  | _, _ => none

/-- A row of the `arbs` table. -/
structure ArbRow where
  foundAt : ℤ
  arbs : ClientAction
  deriving DecidableEq

/-- `InsertNewArb`: `ON CONFLICT (correlation_id) DO NOTHING`. -/
def insertNewArb (table : PMap CorrelationId ArbRow) (ebo : ClientEbo) :
    PMap CorrelationId ArbRow :=
  match table ebo.correlationId with
  | some _ => table
  | none => table.insert ebo.correlationId ⟨ebo.actionAt, ebo.action⟩

/-! ## §2 Tokens -/

/-- The token that the venues give for a market and a leg. -/
def MarketVenue.token (v : MarketVenue) (platform : Platform) (marketId : String) (leg : Leg) :
    Option String :=
  (getArbEntityDetail v platform marketId leg).toOption.map (·.2)

/-- The token of a discovered leg, if it can be looked up. -/
def MarketVenue.tokenOf (v : MarketVenue) (d : Discovery) : Option String :=
  d.marketInfo.bind fun m =>
    (Platform.tryFrom m.platform).bind fun p => v.token p m.marketId d.getLeg

theorem getArbMarket_tokenId {v : MarketVenue} {d : Discovery} {e : ArbEssentials}
    (h : getArbMarket v d = .ok e) : v.tokenOf d = some e.tokenId := by
  unfold getArbMarket at h
  split at h
  · cases h
  · rename_i m hm
    split at h
    · cases h
    · rename_i p hp
      split at h
      · cases h
      · rename_i market token hd
        cases h
        simp [MarketVenue.tokenOf, MarketVenue.token, hm, hp, hd, Except.toOption]

/-- A resolved arb has the id of its two tokens. -/
theorem resolveDiscovered_eq_some {uuidV5 : String → String} {v : MarketVenue} {now : ℤ}
    {d : DiscoveredArb} {ebo : ClientEbo} (h : resolveDiscovered uuidV5 v now d = some ebo) :
    ∃ anchor «match» ta tm, d.anchor = some anchor ∧ d.match = some «match» ∧
      v.tokenOf anchor = some ta ∧ v.tokenOf «match» = some tm ∧
      ebo.correlationId = arbCorrelationId uuidV5 ta tm ∧ ebo.actionAt = now := by
  unfold resolveDiscovered at h
  split at h
  · rename_i anchor «match» ha hm
    split at h
    · rename_i a m hra hrm
      cases h
      exact ⟨anchor, «match», a.tokenId, m.tokenId, ha, hm, getArbMarket_tokenId hra,
        getArbMarket_tokenId hrm, rfl, rfl⟩
    · cases h
  · cases h

/-- Between two lookups, a Polymarket token still belongs to one leg of one market. -/
def SameTokens (v₁ v₂ : MarketVenue) : Prop :=
  ∀ s₁ s₂ l₁ l₂ t₁ t₂, v₁.token .polymarket s₁ l₁ = some t₁ → v₂.token .polymarket s₂ l₂ = some t₂ →
    (t₁ = t₂ ↔ s₁ = s₂ ∧ l₁ = l₂)

/-- The token of a discovered leg contains no colon. -/
def PlainToken (v : MarketVenue) (d : Discovery) : Prop :=
  ∀ t, v.tokenOf d = some t → ':' ∉ t.toList

/-- Two discovered legs differ in the market or in the leg. -/
def Differ (d₁ d₂ : Discovery) : Prop :=
  d₁.marketInfo.map (fun m => (m.platform, m.marketId)) ≠
      d₂.marketInfo.map (fun m => (m.platform, m.marketId)) ∨
    d₁.getLeg ≠ d₂.getLeg

/-- The difference that tokens show: on Kalshi the ticker, on Polymarket the market or the
    leg, across venues whatever keeps the ticker apart from the token. -/
def TokensDiffer (v₁ v₂ : MarketVenue) (d₁ d₂ : Discovery) : Prop :=
  ∃ m₁ m₂, d₁.marketInfo = some m₁ ∧ d₂.marketInfo = some m₂ ∧
    match Platform.tryFrom m₁.platform, Platform.tryFrom m₂.platform with
    | some .kalshi, some .kalshi => m₁.marketId ≠ m₂.marketId
    | some .polymarket, some .polymarket => m₁.marketId ≠ m₂.marketId ∨ d₁.getLeg ≠ d₂.getLeg
    | some .kalshi, some .polymarket =>
        v₂.token .polymarket m₂.marketId d₂.getLeg ≠ some m₁.marketId
    | some .polymarket, some .kalshi =>
        v₁.token .polymarket m₁.marketId d₁.getLeg ≠ some m₂.marketId
    | _, _ => False

/-- A Kalshi token is the ticker, whatever the leg. -/
theorem token_kalshi {v : MarketVenue} {ticker t : String} {leg : Leg}
    (h : v.token .kalshi ticker leg = some t) : t = ticker := by
  unfold MarketVenue.token getArbEntityDetail getArbEntityDetailKalshi at h
  cases hm : v.getMarket ticker <;> simp [hm, Except.toOption] at h
  exact h.symm

/-- Tokens differ exactly where `TokensDiffer` says so. -/
theorem token_ne_iff {v₁ v₂ : MarketVenue} (hv : SameTokens v₁ v₂) {d₁ d₂ : Discovery}
    {t₁ t₂ : String} (h₁ : v₁.tokenOf d₁ = some t₁) (h₂ : v₂.tokenOf d₂ = some t₂) :
    t₁ ≠ t₂ ↔ TokensDiffer v₁ v₂ d₁ d₂ := by
  simp only [MarketVenue.tokenOf, Option.bind_eq_some_iff] at h₁ h₂
  obtain ⟨m₁, hm₁, p₁, hp₁, h₁⟩ := h₁
  obtain ⟨m₂, hm₂, p₂, hp₂, h₂⟩ := h₂
  simp only [TokensDiffer, hm₁, hm₂, Option.some.injEq, exists_and_left, exists_eq_left', hp₁, hp₂]
  -- by the venues of the two legs
  cases p₁ <;> cases p₂
  · rw [ne_eq, hv _ _ _ _ _ _ h₁ h₂, not_and_or]
  · rw [token_kalshi h₂, h₁]
    simp
  · rw [token_kalshi h₁, h₂]
    simp [eq_comm]
  · rw [token_kalshi h₁, token_kalshi h₂]

/-- The seed of an id determines both tokens. -/
theorem seed_inj {a b a' b' : String} (ha : ':' ∉ a.toList) (hb : ':' ∉ b.toList) :
    a ++ ":" ++ b = a' ++ ":" ++ b' ↔ a = a' ∧ b = b' := by
  constructor
  · intro h
    have hl : a.toList ++ ':' :: b.toList = a'.toList ++ ':' :: b'.toList := by
      simpa [String.toList_append] using congrArg String.toList h
    obtain ⟨h₁, -, h₂⟩ := (List.append_cons_inj_of_notMem ha hb).mp hl
    exact ⟨String.toList_inj.mp h₁, String.toList_inj.mp h₂⟩
  · rintro ⟨rfl, rfl⟩
    rfl

/-- A collision-free hash keeps the ids of two pairs of tokens apart. -/
theorem arbCorrelationId_inj {uuidV5 : String → String} (hu : Function.Injective uuidV5)
    {a b a' b' : String} (ha : ':' ∉ a.toList) (hb : ':' ∉ b.toList) :
    arbCorrelationId uuidV5 a b = arbCorrelationId uuidV5 a' b' ↔ a = a' ∧ b = b' := by
  rw [arbCorrelationId, arbCorrelationId, hu.eq_iff, seed_inj ha hb]

/-! ## §3 The id as a key -/

/-- The row of an arb is in the table after it was inserted, if its id was free. -/
theorem insertNewArb_self {table : PMap CorrelationId ArbRow} {ebo : ClientEbo}
    (h : table ebo.correlationId = none) :
    insertNewArb table ebo ebo.correlationId = some ⟨ebo.actionAt, ebo.action⟩ := by
  simp [insertNewArb, h]

/-- A second arb with the id of a row is discarded. -/
theorem insertNewArb_of_some {table : PMap CorrelationId ArbRow} {ebo : ClientEbo} {row : ArbRow}
    (h : table ebo.correlationId = some row) : insertNewArb table ebo = table := by
  simp [insertNewArb, h]

/-- An insertion leaves the rows of other ids alone. -/
theorem insertNewArb_of_ne (table : PMap CorrelationId ArbRow) {ebo : ClientEbo}
    {cid : CorrelationId} (h : cid ≠ ebo.correlationId) :
    insertNewArb table ebo cid = table cid := by
  cases ht : table ebo.correlationId <;> simp [insertNewArb, ht, h]

/-- The two legs of one pair of arbs are told apart by the tokens of one of them. -/
def ArbTokensDiffer (v₁ v₂ : MarketVenue) (d₁ d₂ : DiscoveredArb) : Prop :=
  ∃ a₁ m₁ a₂ m₂, d₁.anchor = some a₁ ∧ d₁.match = some m₁ ∧
    d₂.anchor = some a₂ ∧ d₂.match = some m₂ ∧
    (TokensDiffer v₁ v₂ a₁ a₂ ∨ TokensDiffer v₁ v₂ m₁ m₂)

/-- The tokens of both legs of an arb contain no colon. -/
def PlainTokens (v : MarketVenue) (d : DiscoveredArb) : Prop :=
  (∀ a, d.anchor = some a → PlainToken v a) ∧ ∀ m, d.match = some m → PlainToken v m

/-- **Ids tell arbs apart exactly where tokens do**: two resolved arbs get different ids
    iff the tokens of their anchors or of their matches differ, and then neither the
    table nor the watch book loses one of them. -/
theorem correlationId_ne_iff {uuidV5 : String → String} (hu : Function.Injective uuidV5)
    {v₁ v₂ : MarketVenue} (hv : SameTokens v₁ v₂) {now₁ now₂ : ℤ} {d₁ d₂ : DiscoveredArb}
    {e₁ e₂ : ClientEbo} (h₁ : resolveDiscovered uuidV5 v₁ now₁ d₁ = some e₁)
    (h₂ : resolveDiscovered uuidV5 v₂ now₂ d₂ = some e₂) (hplain : PlainTokens v₁ d₁) :
    (e₁.correlationId ≠ e₂.correlationId ↔ ArbTokensDiffer v₁ v₂ d₁ d₂) ∧
    (ArbTokensDiffer v₁ v₂ d₁ d₂ →
      (∀ table, table e₁.correlationId = none → table e₂.correlationId = none →
        insertNewArb (insertNewArb table e₁) e₂ e₁.correlationId =
            some ⟨e₁.actionAt, e₁.action⟩ ∧
          insertNewArb (insertNewArb table e₁) e₂ e₂.correlationId =
            some ⟨e₂.actionAt, e₂.action⟩) ∧
      ∀ (b : Book) (p₁ p₂ : ArbMinifiedInfoPair),
        let b' := (b.registerArb ⟨e₁.correlationId, p₁⟩).registerArb ⟨e₂.correlationId, p₂⟩
        b'.records e₁.correlationId = some ⟨e₁.correlationId, p₁⟩ ∧
          b'.records e₂.correlationId = some ⟨e₂.correlationId, p₂⟩) := by
  obtain ⟨a₁, m₁, ta₁, tm₁, ha₁, hm₁, hta₁, htm₁, hc₁, -⟩ := resolveDiscovered_eq_some h₁
  obtain ⟨a₂, m₂, ta₂, tm₂, ha₂, hm₂, hta₂, htm₂, hc₂, -⟩ := resolveDiscovered_eq_some h₂
  have hiff : e₁.correlationId ≠ e₂.correlationId ↔ ArbTokensDiffer v₁ v₂ d₁ d₂ := by
    rw [hc₁, hc₂, ne_eq,
      arbCorrelationId_inj hu (hplain.1 a₁ ha₁ ta₁ hta₁) (hplain.2 m₁ hm₁ tm₁ htm₁),
      not_and_or, ← ne_eq, ← ne_eq, token_ne_iff hv hta₁ hta₂, token_ne_iff hv htm₁ htm₂]
    simp [ArbTokensDiffer, ha₁, hm₁, ha₂, hm₂]
  refine ⟨hiff, fun hd => ?_⟩
  -- with different ids the table and the book keep both
  have hne := hiff.mpr hd
  refine ⟨fun table hf₁ hf₂ => ⟨?_, ?_⟩, fun b p₁ p₂ => ⟨?_, ?_⟩⟩
  · rw [insertNewArb_of_ne _ hne, insertNewArb_self hf₁]
  · apply insertNewArb_self
    rw [insertNewArb_of_ne _ hne.symm, hf₂]
  · simp [hne]
  · simp

/-! ## §4 Two legs of one Kalshi market -/

/-- Venues with a Kalshi market for each ticker and one Polymarket market, `m`. -/
def oneSlugVenue : MarketVenue where
  getMarket ticker := .ok { marketId := ticker, platform := 1 }
  getMarketBySlug slug :=
    if slug = "m" then .ok ({ marketId := "m", platform := 0 }, some "[11, 22]")
    else .error "not found"
  fromJson text := if text = "[11, 22]" then some ["11", "22"] else none

/-- The discovery of a leg of a market. -/
def discoveryOf (platform : ℤ) (marketId : String) (leg : ℤ) : Discovery :=
  { marketInfo := some { marketId, platform }, leg }

/-- A leg of the Kalshi market `K` against the first leg of the Polymarket market `m`. -/
def kalshiAgainstSlug (leg : ℤ) : DiscoveredArb :=
  { anchor := some (discoveryOf 1 "K" leg), «match» := some (discoveryOf 0 "m" 0) }

theorem oneSlugVenue_token {s t : String} {l : Leg}
    (h : oneSlugVenue.token .polymarket s l = some t) :
    s = "m" ∧ t = if l = .left then "11" else "22" := by
  by_cases hs : s = "m"
  · subst hs
    have htok : oneSlugVenue.token .polymarket "m" l = some (if l = .left then "11" else "22") := by
      cases l <;> decide
    exact ⟨rfl, Option.some.inj (h.symm.trans htok)⟩
  · simp [MarketVenue.token, getArbEntityDetail, getArbEntityDetailPolymarket, oneSlugVenue, hs,
      Except.toOption] at h

theorem oneSlugVenue_sameTokens : SameTokens oneSlugVenue oneSlugVenue := by
  intro s₁ s₂ l₁ l₂ t₁ t₂ h₁ h₂
  obtain ⟨rfl, rfl⟩ := oneSlugVenue_token h₁
  obtain ⟨rfl, rfl⟩ := oneSlugVenue_token h₂
  cases l₁ <;> cases l₂ <;> decide

theorem oneSlugVenue_plainTokens (leg : ℤ) :
    PlainTokens oneSlugVenue (kalshiAgainstSlug leg) := by
  constructor
  · rintro a ⟨⟩ t ht
    obtain rfl : t = "K" := by
      cases hl : Leg.tryFrom leg <;>
        simpa [MarketVenue.tokenOf, discoveryOf, Platform.tryFrom, MarketVenue.token,
          getArbEntityDetail, getArbEntityDetailKalshi, oneSlugVenue, Except.toOption,
          eq_comm] using ht
    decide
  · rintro m ⟨⟩ t ht
    have : oneSlugVenue.tokenOf (discoveryOf 0 "m" 0) = some "11" := by decide
    obtain rfl : "11" = t := Option.some.inj (this.symm.trans ht)
    decide

/-- Arbs on the two legs of a Kalshi market resolve, differ in the leg of the anchor, and
    get one id: the second row is discarded. -/
theorem yes_and_no_share_id :
    SameTokens oneSlugVenue oneSlugVenue ∧
    (∀ leg, PlainTokens oneSlugVenue (kalshiAgainstSlug leg)) ∧
    Differ (discoveryOf 1 "K" 0) (discoveryOf 1 "K" 1) ∧
    ∃ e₁ e₂, resolveDiscovered id oneSlugVenue 0 (kalshiAgainstSlug 0) = some e₁ ∧
      resolveDiscovered id oneSlugVenue 0 (kalshiAgainstSlug 1) = some e₂ ∧
      e₁.action ≠ e₂.action ∧ e₁.correlationId = e₂.correlationId ∧
      insertNewArb (insertNewArb PMap.empty e₁) e₂ = insertNewArb PMap.empty e₁ := by
  refine ⟨oneSlugVenue_sameTokens, oneSlugVenue_plainTokens, .inr (by decide),
    _, _, rfl, rfl, by decide, by decide, ?_⟩
  exact insertNewArb_of_some (insertNewArb_self (by decide))

/-- Two tickers on Kalshi: the condition of `correlationId_ne_iff` is met. -/
theorem correlationId_ne_two_tickers :
    ∃ e₁ e₂, resolveDiscovered id oneSlugVenue 0 (kalshiAgainstSlug 0) = some e₁ ∧
      resolveDiscovered id oneSlugVenue 0
        ⟨some (discoveryOf 1 "L" 0), some (discoveryOf 0 "m" 0), .zero⟩ = some e₂ ∧
      e₁.correlationId ≠ e₂.correlationId := by
  obtain ⟨e₁, h₁⟩ : ∃ e, resolveDiscovered id oneSlugVenue 0 (kalshiAgainstSlug 0) = some e :=
    ⟨_, rfl⟩
  obtain ⟨e₂, h₂⟩ : ∃ e, resolveDiscovered id oneSlugVenue 0
      ⟨some (discoveryOf 1 "L" 0), some (discoveryOf 0 "m" 0), .zero⟩ = some e := ⟨_, rfl⟩
  refine ⟨e₁, e₂, h₁, h₂, ?_⟩
  refine (correlationId_ne_iff Function.injective_id oneSlugVenue_sameTokens h₁ h₂
    (oneSlugVenue_plainTokens 0)).1.mpr ?_
  exact ⟨_, _, _, _, rfl, rfl, rfl, rfl, .inl ⟨_, _, rfl, rfl, (by decide : "K" ≠ "L")⟩⟩

end Degenerate.Picker
