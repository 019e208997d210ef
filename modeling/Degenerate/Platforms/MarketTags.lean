import Degenerate.Markets
import Degenerate.Lib.PartialMap

/-!
# Market Tags

The identifiers by which each platform names the markets of a `MarketTag`, and the tables
that lead from an identifier back to its tag (`models.rs`).

No identifier belongs to two tags of one platform, so a table answers with the one tag
that lists the identifier, in whichever order it was filled.

## Main Results

- `tagLookup_eq_some`: the table of a platform holds an identifier under a tag iff the tag
  lists it
- `firstTag_eq_some`, `firstTag_eq_none`: what the first known identifier of a list decides
-/

namespace Degenerate

open Degenerate.Lib

/-! ## §1 Identifiers -/

/-- `MarketTag::iter`. -/
def MarketTag.iter : List MarketTag := [.soccer, .nba, .nfl, .politics]

theorem MarketTag.mem_iter (market : MarketTag) : market ∈ iter := by
  cases market <;> decide

/-- `MarketTag::identifiers`, for `Platform::Kalshi`. -/
def MarketTag.kalshiIdentifiers : MarketTag → List String
  | .nba => ["Basketball"]
  | .soccer => ["Soccer"]
  | .nfl => ["Football"]
  | .politics => ["Politics", "Elections", "Companies", "Mentions"]

/-- `MarketTag::identifiers`, for `Platform::Polymarket`. -/
def MarketTag.polymarketIdentifiers : MarketTag → List String
  | .nba => [
      "745", "100240", "100871", "102037", "101506", "102288", "100108", "100254",
      "101849", "100283", "102769"]
  | .soccer => ["306", "100350", "100834", "100300"]
  | .nfl => [
      "450", "101674", "100959", "1453", "100833", "102575", "102590", "636", "102160",
      "101594", "1186", "102934", "10", "101673"]
  | .politics => [
      "2", "80", "126", "144", "176", "230", "247", "264", "282", "393", "396", "514",
      "538", "596", "718", "766", "778", "789", "791", "828", "859", "902", "915",
      "1337", "1346", "1396", "1400", "1405", "1459", "1515", "1597", "100199", "100343",
      "100381", "100387", "100388", "100434", "100783", "101206", "101426", "101773",
      "102006", "102477", "102514", "102788", "102810", "103026"]

/-- `MarketTag::identifiers`. -/
def MarketTag.identifiers (market : MarketTag) : Platform → List String
  | .polymarket => market.polymarketIdentifiers
  | .kalshi => market.kalshiIdentifiers

/-- The identifiers of a platform, each with the tag that lists it. -/
def taggedIdentifiers (platform : Platform) : List (String × MarketTag) :=
  MarketTag.iter.flatMap fun market => (market.identifiers platform).map (·, market)

theorem mem_taggedIdentifiers {platform : Platform} {tag : String} {market : MarketTag} :
    (tag, market) ∈ taggedIdentifiers platform ↔ tag ∈ market.identifiers platform := by
  simp [taggedIdentifiers, MarketTag.mem_iter]

/-- **Identifiers are unambiguous**: a platform uses none of them twice. -/
theorem taggedIdentifiers_nodup (platform : Platform) :
    ((taggedIdentifiers platform).map Prod.fst).Nodup := by
  cases platform <;> decide +kernel

/-! ## §2 Lookup Tables -/

/-- `KALSHI_TAG_LOOKUP` and `POLYMARKET_TAG_LOOKUP`: tag after tag and identifier after
identifier. -/
def tagLookup (platform : Platform) : PMap String MarketTag :=
  MarketTag.iter.foldl (fun map market =>
    (market.identifiers platform).foldl (fun map tag => map.insert tag market) map) PMap.empty

/-- `KALSHI_TAG_LOOKUP`. -/
def kalshiTagLookup : PMap String MarketTag := tagLookup .kalshi

theorem tagLookup_eq_ofEntries (platform : Platform) :
    tagLookup platform = PMap.ofEntries (taggedIdentifiers platform) := by
  simp only [tagLookup, PMap.ofEntries, taggedIdentifiers, List.foldl_flatMap, List.foldl_map]

theorem tagLookup_eq_some {platform : Platform} {tag : String} {market : MarketTag} :
    tagLookup platform tag = some market ↔ tag ∈ market.identifiers platform := by
  rw [tagLookup_eq_ofEntries, PMap.ofEntries_eq_some (taggedIdentifiers_nodup platform),
    mem_taggedIdentifiers]

theorem tagLookup_eq_none {platform : Platform} {tag : String} :
    tagLookup platform tag = none ↔ ∀ market : MarketTag, tag ∉ market.identifiers platform := by
  rw [Option.eq_none_iff_forall_ne_some]
  exact forall_congr' fun market => not_congr tagLookup_eq_some

/-! ## §3 The First Known Tag -/

/-- The loop of `sort_kalshi_tags` and of `sort_polymarket_tags`: the first tag that the
table knows, whitespace around it ignored. -/
def firstTag (platform : Platform) (tags : List String) : Option MarketTag :=
  tags.findSome? fun tag => tagLookup platform (trim tag)

/-- The tag is, but for whitespace around it, an identifier of some market tag. -/
def Known (platform : Platform) (tag : String) : Prop :=
  ∃ market : MarketTag, trim tag ∈ market.identifiers platform

/-- Of the known tags of a list, the first one is an identifier of `market`. -/
def LeadsWith (platform : Platform) (market : MarketTag) (tags : List String) : Prop :=
  ∃ pre tag post, tags = pre ++ tag :: post ∧ trim tag ∈ market.identifiers platform ∧
    ∀ other ∈ pre, ¬ Known platform other

theorem not_known_iff {platform : Platform} {tag : String} :
    ¬ Known platform tag ↔ tagLookup platform (trim tag) = none := by
  rw [tagLookup_eq_none, Known, not_exists]

theorem firstTag_eq_some {platform : Platform} {tags : List String} {market : MarketTag} :
    firstTag platform tags = some market ↔ LeadsWith platform market tags := by
  simp only [firstTag, List.findSome?_eq_some_iff, LeadsWith, not_known_iff, tagLookup_eq_some]

theorem firstTag_eq_none {platform : Platform} {tags : List String} :
    firstTag platform tags = none ↔ ∀ tag ∈ tags, ¬ Known platform tag := by
  simp only [firstTag, List.findSome?_eq_none_iff, not_known_iff]

/-- An identifier is written without whitespace around it. -/
theorem trim_identifier {platform : Platform} {market : MarketTag} {tag : String}
    (h : tag ∈ market.identifiers platform) : trim tag = tag := by
  have hall : ∀ entry ∈ taggedIdentifiers platform, trim entry.1 = entry.1 := by
    cases platform <;> decide +kernel
  exact hall (tag, market) (mem_taggedIdentifiers.mpr h)

/-- An identifier is known as it stands. -/
theorem known_of_mem {platform : Platform} {market : MarketTag} {tag : String}
    (h : tag ∈ market.identifiers platform) : Known platform tag :=
  ⟨market, (trim_identifier h).symm ▸ h⟩

end Degenerate
