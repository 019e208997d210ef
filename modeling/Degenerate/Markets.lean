import Degenerate.Models
import Degenerate.Lib.DelimitedText

/-!
# Listed Markets

How a market listed on a platform becomes the record that the vector store keeps
(`models.rs`): the conversions of Polymarket and Kalshi listings into a `MarketInfo`,
the payload with its category, the tags, and the checks that a payload has to pass.

Identifiers and calendar texts are read and written by libraries; `Formats` collects
what the code calls of them.
-/

namespace Degenerate

open Degenerate.Lib

/-! ## §1 Text -/

/-- `char::is_whitespace`, which is `unicode.IsSpace` in Go: the property `White_Space`. -/
def isWhitespace (c : Char) : Bool :=
  let n := c.toNat
  (0x9 ≤ n && n ≤ 0xD) || n == 0x20 || n == 0x85 || n == 0xA0 || n == 0x1680 ||
    (0x2000 ≤ n && n ≤ 0x200A) || n == 0x2028 || n == 0x2029 || n == 0x202F || n == 0x205F ||
    n == 0x3000

/-- `str::trim`. -/
def trim (s : String) : String := String.ofList (trimBy isWhitespace s.toList)

/-- What the code takes from `uuid` and `chrono`. -/
structure Formats where
  /-- `Uuid::new_v5` under `NAMESPACE_OID`, as text. -/
  newV5 : String → String
  /-- `Uuid::try_parse` succeeds. -/
  tryParse : String → Bool
  /-- `DateTime::parse_from_rfc3339`, in milliseconds. -/
  parseFromRfc3339 : String → Option ℤ
  /-- `NaiveDate::parse_from_str` with `%Y-%m-%d`: midnight of that day, in milliseconds. -/
  parseFromStr : String → Option ℤ

variable (fmt : Formats)

/-- `parse_ts_to_millis`. -/
def parseTsToMillis (s : String) : ℤ :=
  match fmt.parseFromRfc3339 s with
  | some ms => ms
  | none => (fmt.parseFromStr s).getD 0

/-- `generate_uuid_v5`. -/
def generateUuidV5 (seed : String) : String := fmt.newV5 seed

/-- A question that ends in neither `?` nor `.` gets a full stop. -/
def closeQuestion (q : String) : String :=
  match q.toList.getLast? with
  | some '?' => q
  | some '.' => q
  | _ => q ++ "."

/-! ## §2 Listings -/

/-- `gamma::Market`: the fields of a Polymarket listing that the conversion reads. -/
structure GammaMarket where
  slug : Option String := none
  question : Option String := none
  outcomes : Option String := none
  description : Option String := none
  endDateIso : Option String := none
  endDate : Option String := none

/-- `kalshi_rs::markets::models::Market`: the fields that the conversion reads. -/
structure KalshiMarket where
  ticker : String
  title : String := ""
  subtitle : String := ""
  yesSubTitle : String := ""
  noSubTitle : String := ""
  rulesPrimary : String := ""
  rulesSecondary : String := ""
  closeTime : String := ""
  expirationTime : Option String := none

/-- `From<gamma::Market> for MarketInfo`. -/
def MarketInfo.ofGamma (value : GammaMarket) : MarketInfo where
  uuid := generateUuidV5 fmt (Platform.polymarket.asStrName ++ ":" ++ value.slug.getD "")
  question := closeQuestion (value.question.getD "")
  outcome := String.ofList ((value.outcomes.getD "").toList.filter (· != '\\'))
  rules := value.description.getD ""
  marketId := value.slug.getD ""
  marketCategory := ""
  marketSubcategory := ""
  platform := 0
  closeTimeMs := parseTsToMillis fmt ((value.endDateIso.or value.endDate).getD "")

/-- `From<Market> for MarketInfo`, for a Kalshi listing. -/
def MarketInfo.ofKalshi (value : KalshiMarket) : MarketInfo where
  uuid := generateUuidV5 fmt (Platform.kalshi.asStrName ++ ":" ++ value.ticker)
  question := closeQuestion <|
    if trim value.subtitle = "" then trim value.title
    else trim value.title ++ " " ++ trim value.subtitle
  outcome :=
    "[Yes(" ++ trim value.yesSubTitle ++ "), No(Not " ++ trim value.noSubTitle ++ ")]"
  marketId := value.ticker
  rules :=
    if value.rulesSecondary = "" then value.rulesPrimary
    else if value.rulesPrimary.toList.getLast? = some '.' then
      value.rulesPrimary ++ " " ++ value.rulesSecondary
    else value.rulesPrimary ++ ". " ++ value.rulesSecondary
  marketCategory := ""
  marketSubcategory := ""
  platform := 1
  closeTimeMs := parseTsToMillis fmt <|
    if value.closeTime ≠ "" then value.closeTime else value.expirationTime.getD ""

/-! ## §3 Payloads -/

/-- `QdrantPayload`. -/
structure QdrantPayload where
  marketInfo : Option MarketInfo
  qdrantInsertedAt : ℤ := 0
  deriving DecidableEq

/-- The category that a listing is fetched under, written into its record. -/
def MarketInfo.inCategory (info : MarketInfo) (marketCategory marketSubcategory : String) :
    MarketInfo :=
  { info with marketCategory := marketCategory, marketSubcategory := marketSubcategory }

/-- `QdrantMarketConverter::from_market`, after the conversion `info` of the listing at
time `now`. -/
def QdrantPayload.fromMarket (info : MarketInfo) (marketCategory marketSubcategory : String)
    (now : ℤ) : QdrantPayload where
  marketInfo := some (info.inCategory marketCategory marketSubcategory)
  qdrantInsertedAt := now

/-- `MatchCandidate`. -/
structure MatchCandidate where
  scored : F32 := .zero
  marketInfo : Option MarketInfo
  deriving DecidableEq

/-- `SimilarityHit`. -/
structure SimilarityHit where
  anchor : Option MarketInfo
  «matches» : List MatchCandidate
  deriving DecidableEq

/-- `MarketTag`. -/
inductive MarketTag where
  | soccer
  | nba
  | nfl
  | politics
  deriving DecidableEq, Repr

/-- `MarketTagInfo`. -/
structure MarketTagInfo where
  marketCategory : String
  marketSubcategory : String
  deriving DecidableEq

/-- `MarketTag::info`. -/
def MarketTag.info : MarketTag → MarketTagInfo
  | .soccer => { marketCategory := "sport", marketSubcategory := "Socer" }
  | .nba => { marketCategory := "sport", marketSubcategory := "NBA" }
  | .nfl => { marketCategory := "sport", marketSubcategory := "NFL" }
  | .politics => { marketCategory := "politics", marketSubcategory := "Politics" }

/-! ## §4 Points -/

/-- The text of a check that fails, or nothing. -/
def ensure (ok : Bool) (message : String) : Except String Unit :=
  if ok then .ok () else .error message

/-- `QdrantPointData::validate`. -/
def QdrantPointData.validate (marketInfo : MarketInfo) : Except String Unit := do
  ensure (fmt.tryParse marketInfo.uuid) "uuid string not valid uuid"
  ensure (trim marketInfo.marketId != "") "market_id cannot be empty"
  ensure (trim marketInfo.question != "") "question cannot be empty"
  ensure (trim marketInfo.outcome != "") "outcome cannot be empty"
  ensure (trim marketInfo.rules != "") "rules cannot be empty"
  ensure (trim marketInfo.marketCategory != "") "market_category cannot be empty"
  ensure (trim marketInfo.marketSubcategory != "") "market_subcategory cannot be empty"
  ensure (Platform.tryFrom marketInfo.platform).isSome "invalid platform"
  ensure (marketInfo.closeTimeMs != 0) "close_time_ms cannot be 0"

/-- `QdrantPointData`: a payload that passed the checks, with the text to embed. -/
structure QdrantPointData where
  id : String
  questionVector : String
  payload : QdrantPayload
  deriving DecidableEq

/-- `QdrantPointData::new`. -/
def QdrantPointData.new (payload : QdrantPayload) : Except String QdrantPointData := do
  let some marketInfo := payload.marketInfo | throw "market_info cannot be None"
  match QdrantPointData.validate fmt marketInfo with
  | .error _ => throw "QdrantPointData validation constraint failed"
  | .ok () => return {
      id := marketInfo.uuid
      questionVector :=
        "Question: " ++ marketInfo.question ++ " " ++ "Possible outcomes: " ++ marketInfo.outcome
      payload := payload }

end Degenerate
