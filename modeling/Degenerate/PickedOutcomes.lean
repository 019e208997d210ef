import Degenerate.ReviewedTrades
import Degenerate.Web.Selections

/-!
# What is Traded is What was Picked

A reviewer picks a leg of a stored market by its index.  The index goes through the
server's arbs, the stream, the market that the bot looks up again, the `arbs` table, the
stream again, and the order function of the leg's venue.  On Kalshi the order names a side,
on Polymarket a token.

## Main Results

- `traded_of_resolved`: a leg of a resolved arb trades the side that was selected
- `picked_outcome_traded`: in every run, an order is for the outcome at a picked index
-/

namespace Degenerate

open Degenerate.Lib Degenerate.Picker Degenerate.Grpc Degenerate.Web

/-! ## §1 Markets that are looked up -/

namespace Picker

/-- The market endpoints of the bot: what the venues list, converted. -/
def MarketVenue.ofListings (fmt : Formats) (kalshi : String → Except String KalshiMarket)
    (gamma : String → Except String (GammaMarket × Option String))
    (fromJson : String → Option (List String)) : MarketVenue where
  getMarket ticker := (kalshi ticker).map (MarketInfo.ofKalshi fmt)
  getMarketBySlug slug := (gamma slug).map fun g => (MarketInfo.ofGamma fmt g.1, g.2)
  fromJson := fromJson

/-- The market endpoints answer with converted listings. -/
def MarketVenue.Listed (v : MarketVenue) : Prop :=
  ∃ fmt kalshi gamma fromJson, v = .ofListings fmt kalshi gamma fromJson

/-- The tokens of a Polymarket market, in the order of its outcomes. -/
def MarketVenue.clobTokens (v : MarketVenue) (slug : String) : Option (List String) :=
  ((v.getMarketBySlug slug).toOption.bind Prod.snd).bind v.fromJson

/-- The leg trades a side of a market: its venue, its index, and the token that is there. -/
structure Traded (v : MarketVenue) (side : Discovery) (leg : ArbMinifiedInfo)
    (info : MarketInfo) : Prop where
  market : side.marketInfo = some info
  platform : Platform.tryFrom info.platform = some leg.platform
  index : Leg.tryFrom side.leg = some leg.leg
  token : v.token leg.platform info.marketId leg.leg = some leg.tokenId

/-- A Polymarket market that is looked up, and its token. -/
theorem polymarket_detail {v : MarketVenue} {slug token : String} {leg : Leg} {market : MarketInfo}
    (h : getArbEntityDetailPolymarket v slug leg = .ok (market, token)) :
    ∃ text tokens, v.getMarketBySlug slug = .ok (market, some text) ∧
      v.fromJson text = some tokens ∧ tokens[leg.index]? = some token := by
  unfold getArbEntityDetailPolymarket at h
  split at h
  · cases h
  · cases h
  · rename_i market' text hmarket
    split at h
    · cases h
    · rename_i tokens htokens
      split at h
      · cases h
      · rename_i token' htoken
        cases h
        exact ⟨text, tokens, hmarket, htokens, htoken⟩

/-- A market that is looked up is one of the venue where it was looked for. -/
theorem platform_of_detail {v : MarketVenue} (hv : v.Listed) {platform : Platform}
    {marketId token : String} {leg : Leg} {market : MarketInfo}
    (h : getArbEntityDetail v platform marketId leg = .ok (market, token)) :
    Platform.tryFrom market.platform = some platform := by
  obtain ⟨fmt, kalshi, gamma, fromJson, rfl⟩ := hv
  -- each venue labels its listings with its own platform
  cases platform with
  | kalshi =>
    simp only [getArbEntityDetail, getArbEntityDetailKalshi, MarketVenue.ofListings] at h
    cases hk : kalshi marketId <;> rw [hk] at h <;> cases h
    rfl
  | polymarket =>
    obtain ⟨text, tokens, hmarket, -, -⟩ := polymarket_detail h
    simp only [MarketVenue.ofListings] at hmarket
    cases hg : gamma marketId with
    | error e =>
      rw [hg] at hmarket
      cases hmarket
    | ok g =>
      rw [hg] at hmarket
      obtain ⟨rfl, -⟩ := Prod.mk.inj (Except.ok.inj hmarket)
      rfl

/-- What a side becomes when it is resolved: the same leg of the market that was found. -/
theorem getArbMarket_ok {v : MarketVenue} {side : Discovery} {e : ArbEssentials}
    (h : getArbMarket v side = .ok e) : ∃ info platform market d, side.marketInfo = some info ∧
      Platform.tryFrom info.platform = some platform ∧
      getArbEntityDetail v platform info.marketId side.getLeg = .ok (market, e.tokenId) ∧
      e.discovery = some d ∧ d.leg = side.leg ∧
      d.marketInfo.map MarketInfo.platform = some market.platform := by
  unfold getArbMarket at h
  split at h
  · cases h
  · rename_i info hinfo
    split at h
    · cases h
    · rename_i platform hplatform
      split at h
      · cases h
      · rename_i market token hdetail
        cases h
        exact ⟨info, platform, market, _, hinfo, hplatform, hdetail, rfl, rfl, rfl⟩

/-- A converted leg has the leg of its source. -/
theorem leg_of_tryFrom {e : ArbEssentials} {leg : ArbMinifiedInfo} {d : Discovery}
    (h : ArbMinifiedInfo.tryFrom e = .ok leg) (hd : e.discovery = some d) :
    Leg.tryFrom d.leg = some leg.leg := by
  unfold ArbMinifiedInfo.tryFrom at h
  simp only [hd, bind, Except.bind, pure, Except.pure, throw, throwThe,
    MonadExceptOf.throw] at h
  split at h
  · split at h
    · cases h
    split at h
    · cases h
    split at h
    · cases h
    split at h
    · split at h
      · rename_i l hl
        cases h
        exact hl
      · cases h
    · cases h
  · cases h

/-- **A leg of a resolved arb** trades the side that was selected. -/
theorem traded_of_resolved {v : MarketVenue} (hv : v.Listed) {side : Discovery} {e : ArbEssentials}
    {leg : ArbMinifiedInfo} (h : getArbMarket v side = .ok e)
    (hleg : ArbMinifiedInfo.tryFrom e = .ok leg) : ∃ info, Traded v side leg info := by
  obtain ⟨info, platform, market, d, hinfo, hplatform, hdetail, hd, hindex, hmarket⟩ :=
    getArbMarket_ok h
  obtain ⟨d', m, hd', hm, hp, htoken, -⟩ := ArbMinifiedInfo.tryFrom_ok hleg
  obtain rfl : d = d' := Option.some.inj (hd.symm.trans hd')
  have hsame : m.platform = market.platform := by
    rw [hm] at hmarket
    exact Option.some.inj hmarket
  -- the market that was found is one of the same venue
  have hvenue : leg.platform = platform := by
    rw [hsame, platform_of_detail hv hdetail] at hp
    exact (Option.some.inj hp).symm
  have hl : Leg.tryFrom side.leg = some leg.leg := hindex ▸ leg_of_tryFrom hleg hd
  refine ⟨info, hinfo, hvenue ▸ hplatform, hl, ?_⟩
  have hget : side.getLeg = leg.leg := by rw [Discovery.getLeg, hl]; rfl
  rw [MarketVenue.token, hvenue, ← hget, hdetail, htoken]
  rfl

/-- Only the close time of a leg may differ. -/
theorem Traded.sameLeg {v : MarketVenue} {side : Discovery} {leg leg' : ArbMinifiedInfo}
    {info : MarketInfo} (ht : Traded v side leg info) (h : SameLeg leg leg') :
    Traded v side leg' info := by
  unfold SameLeg at h
  rw [← h]
  exact ⟨ht.market, ht.platform, ht.index, ht.token⟩

/-! ## §2 Orders -/

/-- The order that goes out. -/
def ExecEffect.sent : ExecEffect → Option SentOrder
  | .makeFakOrder buy => buy.order.sent
  | .hedgeSellOrder hedge => hedge.sent
  | _ => none

/-- An effect that sends an order is an order. -/
theorem ExecEffect.isOrder_of_sent {e : ExecEffect} {order : SentOrder} (h : e.sent = some order) :
    e.isOrder = true := by
  cases e <;> first | rfl | cases h

/-- The order names the token of the leg: on Kalshi as the ticker, with the side of the leg. -/
def SentOrder.Names (venues : OrderVenue → Prop) (leg : ArbMinifiedInfo) : SentOrder → Prop
  | .kalshi req => leg.platform = .kalshi ∧ req.ticker = leg.tokenId ∧ req.side = sideStr leg.leg
  | .polymarket order => leg.platform = .polymarket ∧
      ∃ venue, venues venue ∧ venue.u256FromStr leg.tokenId = some order.tokenId

/-- An order of the Polymarket branch names the token. -/
theorem names_of_submitLimitOrder {ρ : Type} {venues : OrderVenue → Prop} {venue : OrderVenue}
    (hvenue : venues venue) {leg : ArbMinifiedInfo} (hp : leg.platform = .polymarket)
    {order : ℕ → LimitOrder} (horder : ∀ token, (order token).tokenId = token) {buildErr : String}
    {read : Except String PostOrderResponse → Except String ρ} {sent : SentOrder}
    (h : (submitLimitOrder venue leg.tokenId order buildErr read).sent = some sent) :
    sent.Names venues leg := by
  rcases submitLimitOrder_cases venue leg.tokenId order buildErr read with
    ⟨e, he⟩ | ⟨token, htoken, he⟩
  · rw [he] at h
    cases h
  · rw [he] at h
    cases h
    exact ⟨hp, venue, hvenue, by rw [horder, htoken]⟩

/-- **An order for a leg** names its token. -/
theorem ExecEffect.OrderFor.names {venues : OrderVenue → Prop} {uuidV5 : String → String}
    {cid : CorrelationId} {leg : ArbMinifiedInfo} {e : ExecEffect}
    (ho : e.OrderFor venues uuidV5 cid leg) {order : SentOrder} (h : e.sent = some order) :
    order.Names venues leg := by
  cases ho with
  | @buy venue hvenue size reported price =>
    simp only [ExecEffect.sent, Picker.makeFakOrder] at h
    split at h
    · rename_i hp
      -- nothing is sent where the size or the price is refused
      rcases makeKalshiFak_cases uuidV5 venue leg size price cid with ⟨e, he⟩ |
        ⟨cents, n, -, -, -, he⟩
      · rw [he] at h
        cases h
      · rw [he] at h
        cases h
        exact ⟨hp, rfl, rfl⟩
    · rename_i hp
      exact names_of_submitLimitOrder hvenue hp (fun _ => rfl) h
  | @hedge venue hvenue id excess price =>
    -- a hedge sells the same token
    simp only [ExecEffect.sent, Picker.hedgeSellOrder] at h
    split at h
    · rename_i hp
      split at h
      · cases h
      · cases h
        exact ⟨hp, rfl, rfl⟩
    · rename_i hp
      exact names_of_submitLimitOrder hvenue hp (fun _ => rfl) h

/-- The order is for the outcome at an index of a market: one of the two sides on Kalshi, the
    token at the index on Polymarket. -/
def SentOrder.ForOutcome (v : MarketVenue) (u256FromStr : String → Option ℕ) (info : MarketInfo)
    (idx : ℤ) : SentOrder → Prop
  | .kalshi req => info.platform = 1 ∧ req.ticker = info.marketId ∧
      ((idx = 0 ∧ req.side = "yes") ∨ (idx = 1 ∧ req.side = "no"))
  | .polymarket order => info.platform = 0 ∧ ∃ tokens token, 0 ≤ idx ∧
      v.clobTokens info.marketId = some tokens ∧ tokens[idx.toNat]? = some token ∧
      u256FromStr token = some order.tokenId

/-- The index of a leg, as the proto messages have it. -/
theorem Leg.tryFrom_eq_some {n : ℤ} {leg : Leg} (h : Leg.tryFrom n = some leg) :
    n = leg.index := by
  unfold Leg.tryFrom at h
  split at h <;> cases h <;> rfl

theorem Platform.tryFrom_eq_some {n : ℤ} {platform : Platform}
    (h : Platform.tryFrom n = some platform) :
    n = if platform = .kalshi then 1 else 0 := by
  unfold Platform.tryFrom at h
  split at h <;> cases h <;> rfl

/-- A token of Polymarket is the one at the index of the leg. -/
theorem clobTokens_of_token {v : MarketVenue} {slug token : String} {leg : Leg}
    (h : v.token .polymarket slug leg = some token) :
    ∃ tokens, v.clobTokens slug = some tokens ∧ tokens[leg.index]? = some token := by
  obtain ⟨detail, hdetail, rfl⟩ := Option.map_eq_some_iff.mp h
  have hok : getArbEntityDetailPolymarket v slug leg = .ok (detail.1, detail.2) := by
    simp only [getArbEntityDetail] at hdetail
    cases hd : getArbEntityDetailPolymarket v slug leg with
    | error e =>
      rw [hd] at hdetail
      cases hdetail
    | ok found =>
      rw [hd] at hdetail
      cases hdetail
      rfl
  obtain ⟨text, tokens, hmarket, htokens, htoken⟩ := polymarket_detail hok
  refine ⟨tokens, ?_, htoken⟩
  simp only [MarketVenue.clobTokens, hmarket, Except.toOption, Option.bind_some]
  exact htokens

/-- **An order that names a leg** is for the outcome that the leg trades. -/
theorem forOutcome_of_names {v : MarketVenue} {side : Discovery} {leg : ArbMinifiedInfo}
    {info : MarketInfo} (ht : Traded v side leg info) {venues : OrderVenue → Prop}
    {u256FromStr : String → Option ℕ}
    (hparse : ∀ venue, venues venue → venue.u256FromStr = u256FromStr)
    {order : SentOrder} (h : order.Names venues leg) :
    order.ForOutcome v u256FromStr info side.leg := by
  have hplatform := Platform.tryFrom_eq_some ht.platform
  have hindex := Leg.tryFrom_eq_some ht.index
  have htoken := ht.token
  cases order with
  | kalshi req =>
    -- the ticker is the token of the leg, its side the one that the index stands for
    obtain ⟨hp, hticker, hside⟩ := h
    rw [hp] at hplatform htoken
    refine ⟨hplatform, hticker.trans (token_kalshi htoken), ?_⟩
    rw [hside, hindex]
    cases leg.leg
    · exact .inl ⟨rfl, rfl⟩
    · exact .inr ⟨rfl, rfl⟩
  | polymarket order =>
    -- the order holds the parsed token, which is the one at the index
    obtain ⟨hp, venue, hvenue, hparsed⟩ := h
    rw [hp] at hplatform htoken
    obtain ⟨tokens, htokens, hat⟩ := clobTokens_of_token htoken
    rw [hparse venue hvenue] at hparsed
    refine ⟨hplatform, tokens, leg.tokenId, by omega, htokens, ?_, hparsed⟩
    rw [hindex, Int.toNat_natCast]
    exact hat

end Picker

/-! ## §3 Runs -/

/-- A reviewer picked the index of a market: the anchor of a hit, or the first candidate with the
    uuid of the mapping. -/
def Web.LegMapping.Picks (hit : SimilarityHit) (mapping : LegMapping) (info : MarketInfo)
    (idx : ℤ) : Prop :=
  (hit.anchor = some info ∧ idx = mapping.anchorLeg) ∨
    ∃ found, candidateOf hit mapping.matchUUID = some found ∧ info = found.2 ∧
      idx = mapping.matchLeg

/-- The sides of a built arb were picked. -/
theorem picks_of_built {hit : SimilarityHit} {mappings : List LegMapping} {ds : List DiscoveredArb}
    (hbuilt : buildDiscoveredArbs hit mappings = .ok ds) {d : DiscoveredArb} (hd : d ∈ ds)
    {side : Discovery} (hside : d.anchor = some side ∨ d.match = some side) {info : MarketInfo}
    (hinfo : side.marketInfo = some info) :
    ∃ mapping ∈ mappings, mapping.Picks hit info side.leg := by
  obtain ⟨-, rfl⟩ := buildDiscoveredArbs_ok_iff.mp hbuilt
  obtain ⟨mapping, hmapping, hpicked⟩ := List.mem_filterMap.mp hd
  obtain ⟨anchor, hanchor, hpicked⟩ := Option.bind_eq_some_iff.mp hpicked
  obtain ⟨found, hfound, rfl⟩ := Option.map_eq_some_iff.mp hpicked
  refine ⟨mapping, hmapping, ?_⟩
  rcases hside with hside | hside
  · cases hside
    cases hinfo
    exact .inl ⟨hanchor, rfl⟩
  · cases hside
    cases hinfo
    exact .inr ⟨found, hfound, rfl, rfl⟩

/-- Both legs of an arb that the bot proposed trade the sides that were selected. -/
theorem traded_of_proposed {uuidV5 : String → String} {v : MarketVenue} (hv : v.Listed) {now : ℤ}
    {d : DiscoveredArb} {ebo : ClientEbo} (hebo : resolveDiscovered uuidV5 v now d = some ebo)
    {arb : Arb} (harb : ebo.action = .crossPlatformArb arb) {pair : ArbMinifiedInfoPair}
    (hpair : ArbMinifiedInfoPair.tryFrom arb = .ok pair) :
    (∃ side info, d.anchor = some side ∧ Traded v side pair.anchor info) ∧
      ∃ side info, d.match = some side ∧ Traded v side pair.match info := by
  obtain ⟨a, m, ha, hm, hanchor, hmatch⟩ := ArbMinifiedInfoPair.tryFrom_ok hpair
  unfold resolveDiscovered at hebo
  split at hebo
  -- an arb with one side resolved is not proposed
  · rename_i sa sm hsa hsm
    split at hebo
    · rename_i ea em hea hem
      cases hebo
      cases harb
      cases ha
      cases hm
      obtain ⟨ia, hta⟩ := traded_of_resolved hv hea hanchor
      obtain ⟨im, htm⟩ := traded_of_resolved hv hem hmatch
      exact ⟨⟨sa, ia, hsa, hta⟩, sm, im, hsm, htm⟩
    · cases hebo
  · cases hebo

/-- **What is traded is what was picked**: in a run that starts with an empty table, where arbs are
    read back as they were stored, each order that is sent is for the outcome at an index that a
    reviewer picked for a hit of a request that was made. -/
theorem picked_outcome_traded {cfg : DeploymentConfig} {d : Deployment}
    {tradeFraction minTradeSize : ℚ} {arbs : ArbsTable} {as : List Deployment.Action}
    (hrun : run (Deployment.step cfg) (Deployment.start tradeFraction minTradeSize arbs) as =
      some d)
    (hempty : arbs.rows = []) (hread : ∀ a b, cfg.readBack a = some b → b = a)
    (hbuilt : ∀ ds, .request (.resolveHit ds) ∈ as →
      ∃ hit mappings, buildDiscoveredArbs hit mappings = .ok ds)
    (hlisted : ∀ c, .bot (.comms c) ∈ as → c.markets.Listed)
    {u256FromStr : String → Option ℕ} (hparse : ∀ ans, .bot (.execReceive ans) ∈ as →
      ∀ venue ∈ [ans.anchorVenue, ans.matchVenue, ans.hedgeVenue],
        venue.u256FromStr = u256FromStr)
    {cid : CorrelationId} {effects : List ExecEffect}
    (hpc : d.bot.exec.pc = .handling cid effects) {e : ExecEffect} (he : e ∈ effects)
    {order : SentOrder} (hsent : e.sent = some order) :
    ∃ ds hit mappings mapping info idx c, .request (.resolveHit ds) ∈ as ∧
      buildDiscoveredArbs hit mappings = .ok ds ∧ mapping ∈ mappings ∧
      mapping.Picks hit info idx ∧ .bot (.comms c) ∈ as ∧
      order.ForOutcome c.markets u256FromStr info idx := by
  obtain ⟨arb, pair, leg, ⟨-, hstored⟩, hpair, hleg, ho⟩ :=
    (reviewed_run hrun).bot.order hpc he (ExecEffect.isOrder_of_sent hsent)
  -- the order names the leg, the leg is of a resolved side, and the side was picked
  have hnames := ho.names hsent
  have hvenues : ∀ venue,
      (⟨Deployment.start tradeFraction minTradeSize arbs, as⟩ : Choices).Venue venue →
        venue.u256FromStr = u256FromStr := by
    rintro venue ⟨ans, hans, hvenue⟩
    exact hparse ans hans venue hvenue
  -- no row is older than the run
  obtain ⟨row, hrow, -⟩ |
    ⟨proposal, ⟨t, disc, c, ebo, ⟨ds, hds, hdisc⟩, htakes, -, hebo, -, hprop⟩, hback⟩ := hstored.2
  · change row ∈ arbs.rows at hrow
    rw [hempty] at hrow
    cases hrow
  · have hc := htakes.mem
    obtain rfl := hread proposal arb hback
    obtain ⟨⟨sa, ia, hsa, hta⟩, sm, im, hsm, htm⟩ :=
      traded_of_proposed (hlisted c hc) hebo hprop hpair
    obtain ⟨hit, mappings, hb⟩ := hbuilt ds hds
    rcases hleg with hleg | hleg
    · have ht := hta.sameLeg hleg
      obtain ⟨mapping, hmapping, hpicks⟩ := picks_of_built hb hdisc (.inl hsa) ht.market
      exact ⟨ds, hit, mappings, mapping, ia, sa.leg, c, hds, hb, hmapping, hpicks, hc,
        forOutcome_of_names ht hvenues hnames⟩
    · have ht := htm.sameLeg hleg
      obtain ⟨mapping, hmapping, hpicks⟩ := picks_of_built hb hdisc (.inr hsm) ht.market
      exact ⟨ds, hit, mappings, mapping, im, sm.leg, c, hds, hb, hmapping, hpicks, hc,
        forOutcome_of_names ht hvenues hnames⟩

/-! ### From a pick to an order -/

/-- The yes side of the Kalshi market against the second outcome of the Polymarket one. -/
def yesAgainstOther : LegMapping where
  matchUUID := hostCityInfo.uuid
  anchorLeg := 0
  matchLeg := 1

/-- The arbs of that pick. -/
def pickedHosts : List DiscoveredArb := [yesAgainstOther].filterMap (picked hostHit)

/-- The two markets as the venues list them, with a close time far from now. -/
def hostMarkets : MarketVenue :=
  .ofListings { hostFormats with parseFromRfc3339 := fun _ => some (10 ^ 12) }
    (fun _ => .ok dallas) (fun _ => .ok (hostCity, some "[11, 22]"))
    fun text => if text = "[11, 22]" then some ["11", "22"] else none

/-- The step with the markets of the two venues. -/
def onHostMarkets : Deployment.Action → Deployment.Action
  | .bot (.comms c) => .bot (.comms { c with markets := hostMarkets })
  | a => a

/-- Endpoints that fill fifty contracts, and read decimal token ids. -/
def decimalVenue : OrderVenue := { fillVenue "50.00" 50000000 with u256FromStr := String.toNat? }

/-- Answers of these endpoints only. -/
def decimalAnswers : ExecAnswers :=
  { silentAnswers with
    anchorVenue := decimalVenue
    matchVenue := decimalVenue
    hedgeVenue := decimalVenue }

/-- The pick is resolved, confirmed, priced and handed to the executor. -/
def pickedSteps : List Deployment.Action :=
  (Deployment.connectSteps ++ resolveHitSteps pickedHosts hostMarkets ++
    tradeSteps "KXHOST-26:22" decimalAnswers).map onHostMarkets

/-- The hits that are resolved in a step. -/
def resolvedIn : Deployment.Action → Option (List DiscoveredArb)
  | .request (.resolveHit ds) => some ds
  | _ => none

/-- The answers that an execution starts with in a step. -/
def answersIn : Deployment.Action → Option ExecAnswers
  | .bot (.execReceive ans) => some ans
  | _ => none

/-- Every lookup of the steps finds the two markets. -/
theorem markets_of_mem {as : List Deployment.Action} {c : Picker.Choice}
    (h : .bot (.comms c) ∈ as.map onHostMarkets) : c.markets = hostMarkets := by
  obtain ⟨a, -, ha⟩ := List.mem_map.mp h
  cases a with
  | bot a =>
    cases a with
    | comms c' =>
      cases ha
      rfl
    | _ => cases ha
  | _ => cases ha

/-- The first order for the pair: the yes side of the Kalshi market. -/
def Picker.ExecPc.buysYes (cid : CorrelationId) : ExecPc → Bool
  | .handling cid' (e :: _) => cid' = cid && e.sent.any fun order =>
      match order with
      | .kalshi req => req.ticker = "KXHOST-26" && req.side = "yes"
      | .polymarket _ => false
  | _ => false

theorem Picker.ExecPc.exists_of_buysYes {pc : ExecPc} {cid : CorrelationId}
    (h : pc.buysYes cid = true) : ∃ e rest req, pc = .handling cid (e :: rest) ∧
      e.sent = some (.kalshi req) ∧ req.ticker = "KXHOST-26" ∧ req.side = "yes" := by
  unfold buysYes at h
  split at h
  · rename_i cid' e rest
    rw [Bool.and_eq_true, decide_eq_true_eq] at h
    obtain ⟨rfl, h⟩ := h
    obtain ⟨order, hsent, h⟩ := (Option.any_eq_true _ _).mp h
    cases order with
    | kalshi req =>
      simp only [Bool.and_eq_true, decide_eq_true_eq] at h
      exact ⟨e, rest, req, rfl, hsent, h.1, h.2⟩
    | polymarket _ => cases h
  · cases h

/-- The order for the yes side goes out because the first outcome was picked. -/
theorem picked_outcome_traded_hosts : ∃ d e rest req,
    run (Deployment.step httpDeployment) (Deployment.start (1 / 5) 2 ⟨[], List.nodup_nil⟩)
      pickedSteps = some d ∧
    d.bot.exec.pc = .handling "KXHOST-26:22" (e :: rest) ∧ e.sent = some (.kalshi req) ∧
    req.side = "yes" ∧ ∃ hit mapping info idx,
      LegMapping.Picks hit mapping info idx ∧ info.marketId = "KXHOST-26" ∧ idx = 0 := by
  have hrun : (run (Deployment.step httpDeployment)
      (Deployment.start (1 / 5) 2 ⟨[], List.nodup_nil⟩) pickedSteps).any
        (fun d => d.bot.exec.pc.buysYes "KXHOST-26:22") = true := by decide +kernel
  obtain ⟨d, hd, hcheck⟩ := (Option.any_eq_true _ _).mp hrun
  obtain ⟨e, rest, req, hpc, hsent, hticker, hyes⟩ := ExecPc.exists_of_buysYes hcheck
  -- one hit was resolved in the steps, and one execution was answered
  have hbuilt : ∀ ds, .request (.resolveHit ds) ∈ pickedSteps →
      ∃ hit mappings, buildDiscoveredArbs hit mappings = .ok ds := by
    intro ds hds
    have hmem : ds ∈ pickedSteps.filterMap resolvedIn := List.mem_filterMap.mpr ⟨_, hds, rfl⟩
    obtain rfl : ds = pickedHosts := List.mem_singleton.mp hmem
    exact ⟨hostHit, [yesAgainstOther], by decide +kernel⟩
  have hparse : ∀ ans, .bot (.execReceive ans) ∈ pickedSteps →
      ∀ venue ∈ [ans.anchorVenue, ans.matchVenue, ans.hedgeVenue],
        venue.u256FromStr = String.toNat? := by
    intro ans hans venue hvenue
    have hmem : ans ∈ pickedSteps.filterMap answersIn := List.mem_filterMap.mpr ⟨_, hans, rfl⟩
    obtain rfl : ans = decimalAnswers := List.mem_singleton.mp hmem
    simp only [decimalAnswers, List.mem_cons, List.not_mem_nil, or_false, or_self] at hvenue
    rw [hvenue]
    rfl
  obtain ⟨ds, hit, mappings, mapping, info, idx, c, -, -, -, hpicks, -, -, hmarket, hside⟩ :=
    picked_outcome_traded hd rfl (fun a b hab => (Option.some.inj hab).symm) hbuilt
      (fun c hc => ⟨_, _, _, _, markets_of_mem hc⟩) hparse hpc List.mem_cons_self hsent
  refine ⟨d, e, rest, req, hd, hpc, hsent, hyes, hit, mapping, info, idx, hpicks,
    hmarket.symm.trans hticker, ?_⟩
  -- a no side would have been the other outcome
  rcases hside with ⟨hidx, -⟩ | ⟨-, hno⟩
  · exact hidx
  · rw [hyes] at hno
    exact absurd hno (by decide)

end Degenerate
