import Degenerate.Lib.FloatOps

/-!
# Domain Types and Proto Conversions

The types that the bot's tasks exchange (`models.rs`, `protos/`): platforms, legs,
market keys, the proto messages of a discovered and of a confirmed arb, the watch
record built from a confirmed arb, the top of book and the execution request.

Proto enum fields arrive as integers and are decoded where the code decodes them.
A `Decimal` is an exact decimal.  An `f32` is an `ExactFloat` unless something else is
said; prices can also be read as the 32-bit numbers that they are (`Binary32`).
-/

namespace Degenerate

open Degenerate.Lib

/-- Single-precision values, taken as the numbers they spell. -/
abbrev F32 := ExactFloat

/-- `"{platform}:{asset_id}"`: the asset id on Polymarket, the market ticker on Kalshi. -/
abbrev MarketKey := String

/-- The identifier of an arb, shared by the bot and the dashboard. -/
abbrev CorrelationId := String

/-! ## §1 Platforms and legs -/

/-- The two venues. -/
inductive Platform where
  | polymarket
  | kalshi
  deriving DecidableEq, Repr

/-- The proto name of a platform. -/
def Platform.asStrName : Platform → String
  | .polymarket => "POLYMARKET"
  | .kalshi => "KALSHI"

/-- Decode a proto enum value. -/
def Platform.tryFrom : ℤ → Option Platform
  | 0 => some .polymarket
  | 1 => some .kalshi
  | _ => none

/-- The outcome side of a market that a leg buys. -/
inductive Leg where
  | left
  | right
  deriving DecidableEq, Repr

/-- Decode a proto enum value. -/
def Leg.tryFrom : ℤ → Option Leg
  | 0 => some .left
  | 1 => some .right
  | _ => none

/-- The position of a leg in a list of outcomes. -/
def Leg.index : Leg → ℕ
  | .left => 0
  | .right => 1

/-- `make_market_key`. -/
def makeMarketKey (assetId : String) (platform : Platform) : MarketKey :=
  platform.asStrName ++ ":" ++ assetId

/-- A market key determines its platform and its asset. -/
theorem makeMarketKey_inj {a a' : String} {p p' : Platform} :
    makeMarketKey a p = makeMarketKey a' p' ↔ a = a' ∧ p = p' := by
  constructor
  · intro h
    have hl : p.asStrName.toList ++ ':' :: a.toList = p'.asStrName.toList ++ ':' :: a'.toList := by
      simpa [makeMarketKey, String.toList_append] using congrArg String.toList h
    -- the two names begin with different letters
    cases p <;> cases p' <;> simp [Platform.asStrName, String.toList_inj] at hl ⊢ <;> exact hl
  · rintro ⟨rfl, rfl⟩
    rfl

/-! ## §2 Proto messages -/

/-- `MarketInfo`. -/
structure MarketInfo where
  uuid : String := ""
  marketId : String := ""
  question : String := ""
  outcome : String := ""
  rules : String := ""
  marketCategory : String := ""
  marketSubcategory : String := ""
  closeTimeMs : ℤ := 0
  platform : ℤ := 0
  deriving DecidableEq

/-- `Discovery`: a market with the leg that was picked. -/
structure Discovery where
  marketInfo : Option MarketInfo
  leg : ℤ
  legStr : String := ""
  deriving DecidableEq

/-- The generated getter of `leg`, which falls back to the default variant. -/
def Discovery.getLeg (d : Discovery) : Leg := (Leg.tryFrom d.leg).getD .left

/-- `DiscoveredArb`. -/
structure DiscoveredArb where
  anchor : Option Discovery
  «match» : Option Discovery
  scored : F32 := .zero
  deriving DecidableEq

/-- `ArbEssentials`: a leg with the token to trade. -/
structure ArbEssentials where
  discovery : Option Discovery
  tokenId : String
  deriving DecidableEq

/-- `Arb`. -/
structure Arb where
  anchor : Option ArbEssentials
  «match» : Option ArbEssentials
  scored : F32 := .zero
  deriving DecidableEq

/-! ## §3 Watch records -/

/-- `ArbMinifiedInfo`: what the picker keeps of a leg. -/
structure ArbMinifiedInfo where
  marketKey : MarketKey
  platform : Platform
  marketId : String
  tokenId : String
  leg : Leg
  closeTimeMs : ℤ
  deriving DecidableEq

/-- `ArbMinifiedInfoPair`. -/
structure ArbMinifiedInfoPair where
  anchor : ArbMinifiedInfo
  «match» : ArbMinifiedInfo
  scored : F32 := .zero
  deriving DecidableEq

/-- `ArbWatch`: a registered arb. -/
structure ArbWatch where
  correlationId : CorrelationId
  arb : ArbMinifiedInfoPair
  deriving DecidableEq

/-- The legs of a watch in the order in which the code visits them. -/
def ArbWatch.legs (w : ArbWatch) : List ArbMinifiedInfo := [w.arb.anchor, w.arb.match]

/-- The market keys of the two legs. -/
def ArbWatch.legKeys (w : ArbWatch) : List MarketKey := w.legs.map (·.marketKey)

/-- `TryFrom<ArbEssentials> for ArbMinifiedInfo`. -/
def ArbMinifiedInfo.tryFrom (essentials : ArbEssentials) : Except String ArbMinifiedInfo := do
  let some discovery := essentials.discovery
    | throw "Missing 'discovery' in ArbEssentials"
  let some marketInfo := discovery.marketInfo
    | throw "Missing 'market_info' in Discovery"
  if marketInfo.marketId = "" then throw "market_id cannot be empty"
  -- zero is the proto default of a missing close time
  if marketInfo.closeTimeMs = 0 then throw "close_time_ms cannot be 0"
  if essentials.tokenId = "" then throw "token_id cannot be empty"
  let some platform := Platform.tryFrom marketInfo.platform
    | throw ("Invalid platform ID: " ++ toString marketInfo.platform)
  let some leg := Leg.tryFrom discovery.leg
    | throw ("Invalid leg ID: " ++ toString discovery.leg)
  return {
    marketKey := makeMarketKey essentials.tokenId platform
    marketId := marketInfo.marketId
    tokenId := essentials.tokenId
    platform := platform
    leg := leg
    closeTimeMs := marketInfo.closeTimeMs }

/-- `TryFrom<Arb> for ArbMinifiedInfoPair`. -/
def ArbMinifiedInfoPair.tryFrom (arb : Arb) : Except String ArbMinifiedInfoPair := do
  let some anchor := arb.anchor | throw "Missing 'anchor' in Arb"
  let some «match» := arb.match | throw "Missing 'match' in Arb"
  return {
    anchor := ← ArbMinifiedInfo.tryFrom anchor
    «match» := ← ArbMinifiedInfo.tryFrom «match»
    scored := arb.scored }

/-! ## §4 Prices -/

/-- `TopOfBook`. -/
structure TopOfBook (F : Type := F32) where
  sid : Option ℤ := none
  bestBid : F
  bestAsk : F
  bidSize : F
  askSize : F
  spread : F
  tobTimestampMs : ℤ := 0
  deriving DecidableEq

/-- The fields that a source does not report. -/
protected def TopOfBook.default {F : Type} [FloatOps F] : TopOfBook F where
  bestBid := FloatOps.zero
  bestAsk := FloatOps.zero
  bidSize := FloatOps.zero
  askSize := FloatOps.zero
  spread := FloatOps.zero

/-- `ExecutionRequest`. -/
structure ExecutionRequest where
  correlationId : CorrelationId
  anchor : ArbMinifiedInfo
  «match» : ArbMinifiedInfo
  anchorWsPrice : Decimal
  matchWsPrice : Decimal
  anchorWsSize : Decimal
  matchWsSize : Decimal
  deriving DecidableEq

/-- `parse_f32`. -/
def parseF32 {F : Type} [FloatOps F] (s : String) : Except String F :=
  match FloatOps.parse s with
  | some v => .ok v
  | none => .error "error parsing string to f32"

/-- The range of `i64`. -/
def inI64 (n : ℤ) : Bool := -2 ^ 63 ≤ n && n < 2 ^ 63

/-- `str::parse::<i64>`: an optional sign and digits, within the range of the type. -/
def parseI64 (s : String) : Option ℤ :=
  let (neg, ds) := Decimal.splitSign s.toList
  if ds.all Char.isDigit && !ds.isEmpty then
    let n : ℤ := Nat.ofDigitChars 10 ds 0
    let v := if neg then -n else n
    if inI64 v then some v else none
  else none

/-- The `i64` product of a timestamp in seconds and 1000, wrapping as release builds do. -/
def secsToMillis (secs : ℤ) : ℤ := (secs * 1000).bmod (2 ^ 64)

/-- `str_to_decimal`. -/
def strToDecimal (value : String) : Except String Decimal :=
  match Decimal.fromStr value with
  | some d => .ok d
  | none => .error ("Failed to parse '" ++ value ++ "' into Decimal")

/-- `opt_str_to_decimal_strict`. -/
def optStrToDecimalStrict : Option String → Except String Decimal
  | none => .error "Expected value but got None"
  | some value => strToDecimal value

/-! ## §5 Time -/

/-- `DateTime::from_timestamp_millis`: refused outside the years -262143 to 262142. -/
def fromTimestampMillis (ms : ℤ) : Option ℤ :=
  if -8334601228800000 ≤ ms ∧ ms ≤ 8210266876799999 then some ms else none

/-! ## §6 What a conversion keeps -/

/-- A computation that succeeds has succeeded in each of its parts. -/
theorem bind_eq_ok {ε α β : Type} {x : Except ε α} {f : α → Except ε β} {b : β} :
    x >>= f = .ok b ↔ ∃ a, x = .ok a ∧ f a = .ok b := by
  cases x with
  | error e => simp [bind, Except.bind]
  | ok a => simp [bind, Except.bind]

/-- What a strict conversion reads is there and parses. -/
theorem optStrToDecimalStrict_ok {o : Option String} {d : Decimal}
    (h : optStrToDecimalStrict o = .ok d) : o.bind Decimal.fromStr = some d := by
  cases o with
  | none => cases h
  | some text =>
    simp only [optStrToDecimalStrict, strToDecimal] at h
    split at h
    · rename_i d' hd
      cases h
      exact hd
    · cases h

/-- A converted leg carries the key of its own token and platform. -/
def ArbMinifiedInfo.WellKeyed (leg : ArbMinifiedInfo) : Prop :=
  leg.marketKey = makeMarketKey leg.tokenId leg.platform

/-- What a successful conversion of a leg says about its source. -/
theorem ArbMinifiedInfo.tryFrom_ok {e : ArbEssentials} {leg : ArbMinifiedInfo}
    (h : ArbMinifiedInfo.tryFrom e = .ok leg) :
    ∃ d m, e.discovery = some d ∧ d.marketInfo = some m ∧
      Platform.tryFrom m.platform = some leg.platform ∧ leg.tokenId = e.tokenId ∧
      leg.WellKeyed := by
  unfold ArbMinifiedInfo.tryFrom at h
  simp only [bind, Except.bind, pure, Except.pure, throw, throwThe, MonadExceptOf.throw] at h
  split at h
  · rename_i d hd
    split at h
    · rename_i m hm
      -- the three checks of the market, then its platform and the index of the leg
      split at h
      · cases h
      split at h
      · cases h
      split at h
      · cases h
      split at h
      · rename_i p hp
        split at h
        · cases h
          exact ⟨d, m, hd, hm, hp, rfl, rfl⟩
        · cases h
      · cases h
    · cases h
  · cases h

/-- A successful conversion of an arb converts both of its legs. -/
theorem ArbMinifiedInfoPair.tryFrom_ok {arb : Arb} {pair : ArbMinifiedInfoPair}
    (h : ArbMinifiedInfoPair.tryFrom arb = .ok pair) :
    ∃ a m, arb.anchor = some a ∧ arb.match = some m ∧
      ArbMinifiedInfo.tryFrom a = .ok pair.anchor ∧
      ArbMinifiedInfo.tryFrom m = .ok pair.match := by
  unfold ArbMinifiedInfoPair.tryFrom at h
  split at h
  · rename_i a ha
    split at h
    · rename_i m hm
      obtain ⟨anchor, hanchor, h⟩ := bind_eq_ok.mp h
      obtain ⟨«match», hmatch, h⟩ := bind_eq_ok.mp h
      cases h
      exact ⟨a, m, ha, hm, hanchor, hmatch⟩
    · cases h
  · cases h

end Degenerate
