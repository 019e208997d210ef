import Degenerate.Markets
import Degenerate.Lib.JsonStrings

/-!
# Outcome Labels

The bot writes the outcomes of a market into one text (`models.rs`), and the dashboard
takes it apart again: it splits at commas, trims each piece and drops square brackets
(`view/pages/utils.go`).  The label that a reviewer reads, and that is stored as `LegStr`
beside the leg to buy (`server/utils.go`), is the piece at the position of the leg.

The writer escapes nothing and the reader takes every comma for a separator, so the labels
are the outcomes only when no name holds a comma or a square bracket.  A Polymarket listing
brings its outcomes as a JSON array of strings whose backslashes the bot deletes: an escape
survives only where it stands for its own letter.

## Main Results

- `labelsDenote_iff`: which listings keep their labels
- `comma_shifts_labels`: a comma in a name makes what follows it the label of the other leg
-/

namespace Degenerate.Web

open Degenerate.Lib

/-! ## §1 Reading labels -/

/-- `ParseOutcomes`. -/
def parseOutcomes (raw : String) : List String := (raw.toList.splitOn ',').map String.ofList

/-- A square bracket, which the dashboard drops. -/
def isBracket (c : Char) : Bool := c == '[' || c == ']'

/-- Characters without the square brackets. -/
def dropBrackets (cs : List Char) : List Char := cs.filter (!isBracket ·)

/-- The text shown for a piece: trimmed, and without brackets. -/
def shownText (piece : List Char) : List Char := dropBrackets (trimBy isWhitespace piece)

/-- `GetOutcomeByIndex`. -/
def getOutcomeByIndex (outcomes : List String) (idx : ℤ) : String :=
  if 0 ≤ idx then
    match outcomes[idx.toNat]? with
    | some s => String.ofList (shownText s.toList)
    | none => "?"
  else "?"

/-- The label of a market at an index, as the pages and the server compute it. -/
def outcomeLabel (info : MarketInfo) (idx : ℤ) : String :=
  getOutcomeByIndex (parseOutcomes info.outcome) idx

/-! ## §2 Picking legs -/

/-- `LegMapping`: the legs that a reviewer picked for one candidate. -/
structure LegMapping where
  matchUUID : String
  anchorLeg : ℤ
  matchLeg : ℤ

/-- How a request ends without arbs: with an error, or with a nil dereference. -/
inductive Failure where
  | error (message : String)
  | nilPointer
  deriving DecidableEq

/-- `setLeg`. -/
def setLeg (leg : ℤ) : Except Failure ℤ :=
  if leg = 0 then .ok 0
  else if leg = 1 then .ok 1
  else .error (.error ("wrong leg: " ++ toString leg))

/-- One round of the loop of `buildDiscoveredArbs`; a mapping without its candidate is
passed over. -/
def buildDiscoveredArb (similarityHit : SimilarityHit) (mapping : LegMapping) :
    Except Failure (Option DiscoveredArb) := do
  let found := similarityHit.matches.find? fun candidate =>
    candidate.marketInfo.any (·.uuid = mapping.matchUUID)
  let some candidate := found | return none
  let some anchorInfo := similarityHit.anchor | throw .nilPointer
  let some matchInfo := candidate.marketInfo | throw .nilPointer
  let anchorLegStr := outcomeLabel anchorInfo mapping.anchorLeg
  if anchorLegStr = "?" then throw (.error "anchor.LegStr is ?")
  let matchLegStr := outcomeLabel matchInfo mapping.matchLeg
  if matchLegStr = "?" then throw (.error "match.LegStr is ?")
  let anchorLeg ← setLeg mapping.anchorLeg
  let matchLeg ← setLeg mapping.matchLeg
  return some {
    anchor := some { marketInfo := some anchorInfo, leg := anchorLeg, legStr := anchorLegStr }
    «match» := some { marketInfo := some matchInfo, leg := matchLeg, legStr := matchLegStr }
    scored := candidate.scored }

/-- `buildDiscoveredArbs`. -/
def buildDiscoveredArbs (similarityHit : SimilarityHit) :
    List LegMapping → Except Failure (List DiscoveredArb)
  | [] => .ok []
  | mapping :: mappings => do
    let arb ← buildDiscoveredArb similarityHit mapping
    let arbs ← buildDiscoveredArbs similarityHit mappings
    return arb.toList ++ arbs

/-- A side of an arb whose text is the label of the leg it buys. -/
def Labelled (d : Discovery) : Prop :=
  ∃ info, d.marketInfo = some info ∧ d.legStr = outcomeLabel info d.getLeg.index

theorem setLeg_ok {leg l : ℤ} (h : setLeg leg = .ok l) :
    l = leg ∧ (Leg.tryFrom l).map Leg.index = some l.toNat ∧ 0 ≤ l := by
  unfold setLeg at h
  split at h
  · rename_i h0
    cases h
    exact ⟨h0.symm, rfl, le_refl _⟩
  · split at h
    · rename_i h1
      cases h
      exact ⟨h1.symm, rfl, by decide⟩
    · cases h

/-- A leg that `setLeg` accepts keeps the label of its index. -/
theorem labelled_of_setLeg {info : MarketInfo} {leg l : ℤ} (h : setLeg leg = .ok l) :
    Labelled { marketInfo := some info, leg := l, legStr := outcomeLabel info leg } := by
  obtain ⟨rfl, hindex, hpos⟩ := setLeg_ok h
  obtain ⟨side, hside, hl⟩ := Option.map_eq_some_iff.mp hindex
  refine ⟨info, rfl, ?_⟩
  simp only [Discovery.getLeg, hside, Option.getD_some, hl, Int.toNat_of_nonneg hpos]

/-- Both sides of an arb built from a mapping are labelled by the legs they buy. -/
theorem labelled_of_buildDiscoveredArb {hit : SimilarityHit} {mapping : LegMapping}
    {arb : DiscoveredArb} (h : buildDiscoveredArb hit mapping = .ok (some arb)) :
    ∀ d, arb.anchor = some d ∨ arb.match = some d → Labelled d := by
  unfold buildDiscoveredArb at h
  simp only [pure, Except.pure, throw, throwThe, MonadExceptOf.throw] at h
  split at h
  · split at h
    · split at h
      · split at h
        · cases h
        split at h
        · cases h
        obtain ⟨anchorLeg, hanchor, h⟩ := bind_eq_ok.mp h
        obtain ⟨matchLeg, hmatch, h⟩ := bind_eq_ok.mp h
        cases h
        intro d hd
        rcases hd with hd | hd
        · cases hd
          exact labelled_of_setLeg hanchor
        · cases hd
          exact labelled_of_setLeg hmatch
      · cases h
    · cases h
  · cases h

/-- **Labels of built arbs.** Every side of every arb that the server builds is labelled by
the leg it buys. -/
theorem labelled_of_buildDiscoveredArbs {hit : SimilarityHit} {mappings : List LegMapping} :
    ∀ {arbs}, buildDiscoveredArbs hit mappings = .ok arbs →
      ∀ arb ∈ arbs, ∀ d, arb.anchor = some d ∨ arb.match = some d → Labelled d := by
  induction mappings with
  | nil =>
    intro arbs h
    cases h
    simp
  | cons mapping mappings ih =>
    intro arbs h arb harb
    obtain ⟨first, hfirst, h⟩ := bind_eq_ok.mp h
    obtain ⟨rest, hrest, h⟩ := bind_eq_ok.mp h
    cases h
    rcases List.mem_append.mp harb with harb | harb
    · obtain rfl := Option.mem_toList.mp harb
      exact labelled_of_buildDiscoveredArb hfirst
    · exact ih hrest arb harb

/-! ## §3 What labels ought to say -/

/-- A listing, with the reading of its outcomes if it is one of Polymarket. -/
inductive Listing where
  | kalshi (m : KalshiMarket)
  | polymarket (m : GammaMarket) (names : JsonStrings)
      (reads : m.outcomes = some (String.ofList names.text))

/-- The record made of a listing. -/
def Listing.info (fmt : Formats) (marketCategory marketSubcategory : String) :
    Listing → MarketInfo
  | .kalshi m => (MarketInfo.ofKalshi fmt m).inCategory marketCategory marketSubcategory
  | .polymarket m _ _ => (MarketInfo.ofGamma fmt m).inCategory marketCategory marketSubcategory

/-- The outcome at an index, in its platform's words: a side of a Kalshi market with its
subtitle, `?` beyond the two sides, and a quoted name of a Polymarket listing. -/
def Listing.outcome : Listing → ℕ → Option String
  | .kalshi m, 0 => some ("Yes(" ++ trim m.yesSubTitle ++ ")")
  | .kalshi m, 1 => some ("No(Not " ++ trim m.noSubTitle ++ ")")
  | .kalshi _, _ => some "?"
  | .polymarket _ names _, i => names.items[i]?.map fun s => String.ofList ('"' :: s.value ++ ['"'])

/-- **Labels denote.** The label at each index is the outcome there, and so is the text
stored for a leg of any arb that the server builds with this market on a side. -/
structure LabelsDenote (info : MarketInfo) (outcome : ℕ → Option String) : Prop where
  labels : ∀ i name, outcome i = some name → outcomeLabel info i = name
  legStrs : ∀ hit mappings arbs, buildDiscoveredArbs hit mappings = .ok arbs →
    ∀ arb ∈ arbs, ∀ d, arb.anchor = some d ∨ arb.match = some d → d.marketInfo = some info →
      ∀ name, outcome d.getLeg.index = some name → d.legStr = name

/-- Right labels are all it takes: the server stores the label of the leg. -/
theorem labelsDenote_iff_labels {info : MarketInfo} {outcome : ℕ → Option String} :
    LabelsDenote info outcome ↔ ∀ i name, outcome i = some name → outcomeLabel info i = name := by
  refine ⟨LabelsDenote.labels, fun hlabels => ⟨hlabels, ?_⟩⟩
  intro hit mappings arbs hbuild arb harb d hd hinfo name hname
  obtain ⟨info', hinfo', hstr⟩ := labelled_of_buildDiscoveredArbs hbuild arb harb d hd
  obtain rfl : info = info' := by simpa [hinfo] using hinfo'
  rw [hstr]
  exact hlabels _ _ hname

/-- A character that the reader leaves where it is. -/
def Keeps (c : Char) : Prop := c ≠ ',' ∧ isBracket c = false

/-- A character of a JSON name that reaches the dashboard as it is: it stands for itself,
or is a quote or a slash behind a backslash. -/
def Legible : Spelled → Prop
  | .plain c _ => Keeps c
  | .short e _ _ => e = '"' ∨ e = '/'
  | .unit _ _ _ => False
  | .pair _ _ _ _ _ _ _ _ => False

/-- **Legible listings.** No subtitle holds a comma or a square bracket; every character of
a Polymarket name is legible, and no blank stands inside the brackets of the array before
the first or after the last name. -/
def Listing.Legible : Listing → Prop
  | .kalshi m => (∀ c ∈ m.yesSubTitle.toList, Keeps c) ∧ ∀ c ∈ m.noSubTitle.toList, Keeps c
  | .polymarket _ names _ => ∀ i s, names.items[i]? = some s →
      (∀ c ∈ s.chars, Web.Legible c) ∧ (i = 0 → s.before = []) ∧
        (i + 1 = names.items.length → s.after = [])

/-! ## §4 Pieces -/

/-- The label at an index is the shown text of the piece there. -/
theorem outcomeLabel_natCast (info : MarketInfo) (i : ℕ) :
    outcomeLabel info i =
      ((info.outcome.toList.splitOn ',')[i]?).elim "?" fun p => String.ofList (shownText p) := by
  simp only [outcomeLabel, getOutcomeByIndex, parseOutcomes, Int.natCast_nonneg, if_true,
    Int.toNat_natCast, List.getElem?_map]
  cases (info.outcome.toList.splitOn ',')[i]? <;> simp

/-- No label holds a comma. -/
theorem comma_notMem_outcomeLabel (info : MarketInfo) (i : ℕ) :
    ',' ∉ (outcomeLabel info i).toList := by
  rw [outcomeLabel_natCast]
  cases hp : (info.outcome.toList.splitOn ',')[i]? with
  | none => simp
  | some p =>
    have hno := notMem_of_mem_splitOn (List.mem_of_getElem? hp)
    have htrim : ',' ∉ trimBy isWhitespace p := mt (mem_trimBy_iff _ (by decide)).mp hno
    simp only [Option.elim_some, String.toList_ofList, shownText, dropBrackets]
    exact fun h => htrim (List.mem_of_mem_filter h)

/-- Brackets are dropped from a text that has none. -/
theorem dropBrackets_eq_self {cs : List Char} :
    dropBrackets cs = cs ↔ ∀ c ∈ cs, isBracket c = false := by
  simp [dropBrackets, List.filter_eq_self]

@[simp] theorem dropBrackets_append (cs ds : List Char) :
    dropBrackets (cs ++ ds) = dropBrackets cs ++ dropBrackets ds := List.filter_append _ _

@[simp] theorem dropBrackets_nil : dropBrackets [] = [] := rfl

/-- The shown text of a padded piece that starts with `c` and ends with `d`. -/
theorem shownText_padded {a b m : List Char} {c d : Char} (ha : ∀ x ∈ a, isWhitespace x = true)
    (hb : ∀ x ∈ b, isWhitespace x = true) (hc : isWhitespace c = false)
    (hd : isWhitespace d = false) :
    shownText (a ++ (c :: m ++ d :: b)) = dropBrackets (c :: m ++ [d]) := by
  rw [shownText, trimBy_padded _ ha hb hc hd]

/-! ## §5 Kalshi -/

/-- The characters of a Kalshi side: its opening words, the trimmed subtitle and a
parenthesis. -/
def sideText (opening subTitle : String) : List Char :=
  opening.toList ++ (trimBy isWhitespace subTitle.toList ++ [')'])

/-- The text of a Kalshi market encloses its two sides in square brackets. -/
theorem kalshi_outcome (fmt : Formats) (m : KalshiMarket) (cat sub : String) :
    ((Listing.kalshi m).info fmt cat sub).outcome.toList =
      ['['] ++
        [','].intercalate [sideText "Yes(" m.yesSubTitle, sideText " No(Not " m.noSubTitle] ++
        [']'] := by
  simp [Listing.info, MarketInfo.inCategory, MarketInfo.ofKalshi, trim, sideText,
    String.toList_append, List.intercalate_cons_cons]

/-- Sides without commas are the pieces. -/
theorem kalshi_pieces (fmt : Formats) {m : KalshiMarket} (cat sub : String)
    (hy : ',' ∉ trimBy isWhitespace m.yesSubTitle.toList)
    (hn : ',' ∉ trimBy isWhitespace m.noSubTitle.toList) :
    ((Listing.kalshi m).info fmt cat sub).outcome.toList.splitOn ',' =
      ['[' :: sideText "Yes(" m.yesSubTitle, sideText " No(Not " m.noSubTitle ++ [']']] := by
  rw [kalshi_outcome, splitOn_enclosed (List.cons_ne_nil _ _) (by decide) _ (by decide)]
  · simp [enclose]
  · simp [sideText, hy, hn]

theorem shownText_yes (y : String) :
    shownText ('[' :: sideText "Yes(" y) =
      "Yes(".toList ++ (dropBrackets (trimBy isWhitespace y.toList) ++ [')']) := by
  have h := shownText_padded (a := []) (b := []) (c := '[') (d := ')')
    (m := "Yes(".toList ++ trimBy isWhitespace y.toList) (by simp) (by simp) (by decide) (by decide)
  simpa [sideText, dropBrackets, isBracket] using h

theorem shownText_no (n : String) :
    shownText (sideText " No(Not " n ++ [']']) =
      "No(Not ".toList ++ (dropBrackets (trimBy isWhitespace n.toList) ++ [')']) := by
  have h := shownText_padded (a := [' ']) (b := []) (c := 'N') (d := ']')
    (m := "o(Not ".toList ++ (trimBy isWhitespace n.toList ++ [')']))
    (List.forall_mem_singleton.mpr (by decide)) (by simp) (by decide) (by decide)
  simpa [sideText, dropBrackets, isBracket] using h

/-- A text keeps its characters if trimming leaves no comma and no bracket in it. -/
theorem keeps_iff_trimBy {cs : List Char} :
    (∀ c ∈ cs, Keeps c) ↔
      ',' ∉ trimBy isWhitespace cs ∧
        dropBrackets (trimBy isWhitespace cs) = trimBy isWhitespace cs := by
  have hcomma : isWhitespace ',' = false := by decide
  rw [dropBrackets_eq_self, mem_trimBy_iff _ hcomma]
  constructor
  · intro h
    refine ⟨fun hc => (h _ hc).1 rfl, fun c hc => ?_⟩
    by_cases hb : isWhitespace c = true
    · -- no blank is a bracket
      rw [isBracket, Bool.or_eq_false_iff, beq_eq_false_iff_ne, beq_eq_false_iff_ne]
      constructor <;> rintro rfl <;> exact absurd hb (by decide)
    · exact (h c ((mem_trimBy_iff _ (by simpa using hb)).mp hc)).2
  · intro ⟨hno, hkeep⟩ c hc
    refine ⟨by rintro rfl; exact hno hc, ?_⟩
    by_contra hb
    have hblank : isWhitespace c = false := by
      have hc' : c = '[' ∨ c = ']' := by
        simpa [isBracket, or_iff_not_imp_left] using hb
      rcases hc' with rfl | rfl <;> decide
    exact hb (hkeep c ((mem_trimBy_iff _ hblank).mpr hc))

/-- **Kalshi labels.** -/
theorem kalshi_labels_iff (fmt : Formats) (m : KalshiMarket) (cat sub : String) :
    (∀ i name, (Listing.kalshi m).outcome i = some name →
      outcomeLabel ((Listing.kalshi m).info fmt cat sub) i = name) ↔
    (Listing.kalshi m).Legible := by
  set info := (Listing.kalshi m).info fmt cat sub with hinfo
  rw [Listing.Legible, keeps_iff_trimBy, keeps_iff_trimBy]
  constructor
  · intro h
    have h0 : outcomeLabel info 0 = "Yes(" ++ trim m.yesSubTitle ++ ")" := h 0 _ rfl
    have h1 : outcomeLabel info 1 = "No(Not " ++ trim m.noSubTitle ++ ")" := h 1 _ rfl
    -- a label holds no comma, so the subtitles hold none
    have hy : ',' ∉ trimBy isWhitespace m.yesSubTitle.toList := by
      have hno := comma_notMem_outcomeLabel info 0
      rw [Nat.cast_zero, h0] at hno
      simpa [trim, String.toList_append] using hno
    have hn : ',' ∉ trimBy isWhitespace m.noSubTitle.toList := by
      have hno := comma_notMem_outcomeLabel info 1
      rw [Nat.cast_one, h1] at hno
      simpa [trim, String.toList_append] using hno
    have hpieces := kalshi_pieces fmt cat sub hy hn
    rw [← hinfo] at hpieces
    refine ⟨⟨hy, ?_⟩, hn, ?_⟩
    · have hl := outcomeLabel_natCast info 0
      rw [hpieces, Nat.cast_zero, h0] at hl
      have hl' := congrArg String.toList hl
      simpa [shownText_yes, trim, String.toList_append] using hl'.symm
    · have hl := outcomeLabel_natCast info 1
      rw [hpieces, Nat.cast_one, h1] at hl
      have hl' := congrArg String.toList hl
      simpa [shownText_no, trim, String.toList_append] using hl'.symm
  · intro ⟨⟨hy, hyb⟩, hn, hnb⟩ i name hname
    rw [outcomeLabel_natCast, kalshi_pieces fmt cat sub hy hn]
    match i with
    | 0 =>
      cases hname
      apply String.toList_inj.mp
      simp [shownText_yes, hyb, trim, String.toList_append]
    | 1 =>
      cases hname
      apply String.toList_inj.mp
      simp [shownText_no, hnb, trim, String.toList_append]
    | i + 2 =>
      cases hname
      rfl

/-! ## §6 Polymarket names -/

/-- Characters without the backslashes, which the bot deletes. -/
def bare (cs : List Char) : List Char := cs.filter (· != '\\')

/-- The digits of a unit are neither commas nor brackets. -/
theorem notMem_of_hexUnit {ds : List Char} {n : ℕ} {c : Char} (h : hexUnit ds = some n)
    (hc : ¬Keeps c) : c ∉ ds := by
  intro hmem
  have hdigit := isSome_hexDigit_of_hexUnit h c hmem
  have hc' : c = ',' ∨ c = '[' ∨ c = ']' := by
    simpa [Keeps, isBracket, or_iff_not_imp_left] using hc
  rcases hc' with rfl | rfl | rfl <;> exact absurd hdigit (by decide)

/-- A comma or bracket in what is left of a spelling is the character spelled. -/
theorem value_of_mem_bare {s : Spelled} {c : Char} (hc : ¬Keeps c) (h : c ∈ bare s.text) :
    s.value = c := by
  -- neither the `u` of an escape nor its digits are such a character
  have hu : c ≠ 'u' := by
    rintro rfl
    exact hc ⟨by decide, rfl⟩
  obtain ⟨hmem, hslash⟩ := List.mem_filter.mp h
  have hne : c ≠ '\\' := by simpa using hslash
  cases s with
  | plain c' _ => exact (List.mem_singleton.mp hmem).symm
  | short e v legal =>
    obtain rfl : c = e := by simpa [Spelled.text, hne] using hmem
    have hc' : c = ',' ∨ c = '[' ∨ c = ']' := by
      simpa [Keeps, isBracket, or_iff_not_imp_left] using hc
    rcases hc' with rfl | rfl | rfl <;> cases legal
  | unit ds v legal =>
    have hds : c ∈ ds := by simpa [Spelled.text, hne, hu] using hmem
    exact absurd hds (notMem_of_hexUnit legal hc)
  | pair hi lo u v w hhi hlo _ =>
    have hds : c ∈ hi ∨ c ∈ lo := by simpa [Spelled.text, hne, hu] using hmem
    rcases hds with hds | hds
    · exact absurd hds (notMem_of_hexUnit hhi hc)
    · exact absurd hds (notMem_of_hexUnit hlo hc)

/-- Only a backslash is deleted altogether. -/
theorem bare_ne_nil {s : Spelled} (h : s.value ≠ '\\') : bare s.text ≠ [] := by
  cases s with
  | plain c legal => simp [bare, Spelled.text, ne_backslash_of_isPlain legal]
  | short e c legal =>
    have he : e ≠ '\\' := by
      rintro rfl
      cases legal
      exact h rfl
    simp [bare, Spelled.text, he]
  | unit ds c legal => simp [bare, Spelled.text]
  | pair hi lo u v c hhi hlo legal => simp [bare, Spelled.text]

/-- A unit is longer than the character it spells. -/
theorem length_bare_unit {ds : List Char} {n : ℕ} (h : hexUnit ds = some n) :
    (bare ds).length = 4 := by
  have hself : bare ds = ds := by
    refine List.filter_eq_self.mpr fun c hc => ?_
    have hdigit := isSome_hexDigit_of_hexUnit h c hc
    have hne : c ≠ '\\' := by
      rintro rfl
      exact absurd hdigit (by decide)
    simpa using hne
  rw [hself, length_of_hexUnit h]

/-- A kept character is legible if deleting backslashes leaves it alone. -/
theorem legible_iff_bare {s : Spelled} (hkeep : Keeps s.value) (hslash : s.value ≠ '\\') :
    Legible s ↔ bare s.text = [s.value] := by
  cases s with
  | plain c legal =>
    have hne := ne_backslash_of_isPlain legal
    simpa [Legible, bare, Spelled.text, Spelled.value, hne] using hkeep
  -- an escape is read as what it stands for, and shown as what it is
  | short e c legal =>
    have he : e ≠ '\\' := by
      rintro rfl
      cases legal
      exact hslash rfl
    have hbare : bare (Spelled.short e c legal).text = [e] := by simp [bare, Spelled.text, he]
    rw [hbare, List.cons.injEq, Spelled.value, Legible, and_iff_left rfl]
    constructor
    · rintro (rfl | rfl) <;> cases legal <;> rfl
    · rintro rfl
      simpa [he] using shortEscape_self_iff.mp legal
  -- of a `\u` escape at least the `u` and the digits are shown
  | unit ds c legal =>
    refine iff_of_false id fun h => ?_
    have htext : bare (Spelled.unit ds c legal).text = 'u' :: bare ds := by
      simp [bare, Spelled.text]
    have hlen := congrArg List.length (htext.symm.trans h)
    simp [length_bare_unit legal] at hlen
  | pair hi lo u v c hhi hlo legal =>
    refine iff_of_false id fun h => ?_
    have htext : bare (Spelled.pair hi lo u v c hhi hlo legal).text =
        'u' :: (bare hi ++ 'u' :: bare lo) := by
      simp [bare, Spelled.text]
    have hlen := congrArg List.length (htext.symm.trans h)
    simp [length_bare_unit hhi] at hlen

/-- A legible character is kept, and is no backslash. -/
theorem keeps_of_legible {s : Spelled} (h : Legible s) : Keeps s.value ∧ s.value ≠ '\\' := by
  cases s with
  | plain c legal => exact ⟨h, ne_backslash_of_isPlain legal⟩
  | short e c legal =>
    rcases h with rfl | rfl <;> cases legal <;> exact ⟨⟨by decide, rfl⟩, by decide⟩
  | unit _ _ _ => exact h.elim
  | pair _ _ _ _ _ _ _ _ => exact h.elim

/-- The names that survive are the legible ones, among texts without commas. -/
theorem dropBrackets_bare_iff {cs : List Spelled}
    (hcomma : ',' ∉ cs.flatMap fun c => bare c.text) :
    dropBrackets (cs.flatMap fun c => bare c.text) = cs.map Spelled.value ↔
      ∀ c ∈ cs, Legible c := by
  have hmem : ∀ s ∈ cs, ∀ c ∈ bare s.text, c ∈ cs.flatMap fun c => bare c.text :=
    fun s hs c hc => List.mem_flatMap.mpr ⟨s, hs, hc⟩
  constructor
  · intro h
    -- a character of the name is one of the text, so it is no backslash and no bracket
    have hvalue : ∀ s ∈ cs, s.value ≠ '\\' ∧ isBracket s.value = false := by
      intro s hs
      have hv : s.value ∈ dropBrackets (cs.flatMap fun c => bare c.text) :=
        h ▸ List.mem_map_of_mem hs
      obtain ⟨hv, hb⟩ := List.mem_filter.mp hv
      obtain ⟨s', -, hs'⟩ := List.mem_flatMap.mp hv
      exact ⟨by simpa using (List.mem_filter.mp hs').2, by simpa using hb⟩
    have hkeeps : ∀ c ∈ cs.flatMap fun c => bare c.text, Keeps c := by
      intro c hc
      by_contra hno
      obtain ⟨s, hs, hcs⟩ := List.mem_flatMap.mp hc
      have hv := value_of_mem_bare hno hcs
      exact hno ⟨by rintro rfl; exact hcomma hc, hv ▸ (hvalue s hs).2⟩
    rw [dropBrackets_eq_self.mpr fun c hc => (hkeeps c hc).2,
      flatMap_eq_map_iff fun s hs => bare_ne_nil (hvalue s hs).1] at h
    intro s hs
    have hv : s.value ∈ bare s.text := by simp [h s hs]
    exact (legible_iff_bare (hkeeps _ (hmem s hs _ hv)) (hvalue s hs).1).mpr (h s hs)
  · intro h
    have hone : ∀ s ∈ cs, bare s.text = [s.value] ∧ Keeps s.value := by
      intro s hs
      obtain ⟨hkeep, hslash⟩ := keeps_of_legible (h s hs)
      exact ⟨(legible_iff_bare hkeep hslash).mp (h s hs), hkeep⟩
    rw [(flatMap_eq_map_iff (g := Spelled.value) fun s hs => by simp [(hone s hs).1]).mpr
      fun s hs => (hone s hs).1, dropBrackets_eq_self]
    intro c hc
    obtain ⟨s, hs, rfl⟩ := List.mem_map.mp hc
    exact (hone s hs).2.2

/-! ## §7 Polymarket arrays -/

/-- Blanks of the array are trimmed, are no backslashes and are kept by the reader. -/
theorem facts_of_isJsonBlank {c : Char} (h : IsJsonBlank c) :
    isWhitespace c = true ∧ c ≠ '\\' ∧ c ≠ '"' ∧ Keeps c := by
  rcases h with rfl | rfl | rfl | rfl <;>
    exact ⟨by decide, by decide, by decide, by decide, by decide⟩

@[simp] theorem bare_append (cs ds : List Char) : bare (cs ++ ds) = bare cs ++ bare ds :=
  List.filter_append _ _

theorem bare_of_blank {cs : List Char} (h : ∀ c ∈ cs, IsJsonBlank c) : bare cs = cs :=
  List.filter_eq_self.mpr fun c hc => by simpa using (facts_of_isJsonBlank (h c hc)).2.1

theorem dropBrackets_of_blank {cs : List Char} (h : ∀ c ∈ cs, IsJsonBlank c) :
    dropBrackets cs = cs :=
  dropBrackets_eq_self.mpr fun c hc => (facts_of_isJsonBlank (h c hc)).2.2.2.2

/-- What the bot leaves of a name's spelling. -/
def bareName (s : JsonString) : List Char := s.chars.flatMap fun c => bare c.text

theorem bare_text (s : JsonString) :
    bare s.text = s.before ++ ('"' :: bareName s ++ '"' :: s.after) := by
  have hchars : bare (s.chars.flatMap Spelled.text) = bareName s := List.filter_flatMap
  have hquote : ∀ cs, bare ('"' :: cs) = '"' :: bare cs := fun cs => by simp [bare]
  rw [JsonString.text, bare_append, List.cons_append, hquote, bare_append, hchars, hquote,
    bare_of_blank s.before_blank, bare_of_blank s.after_blank, List.cons_append]

/-- The text of an array encloses its names in square brackets. -/
theorem polymarket_outcome (fmt : Formats) {m : GammaMarket} {names : JsonStrings}
    (reads : m.outcomes = some (String.ofList names.text)) (hne : names.items ≠ [])
    (cat sub : String) :
    ((Listing.polymarket m names reads).info fmt cat sub).outcome.toList =
      (names.before ++ ['[']) ++ [','].intercalate (names.items.map fun s => bare s.text) ++
        ']' :: names.after := by
  -- the backslashes are deleted piece by piece
  have hjoin : bare ([','].intercalate (names.items.map (·.text))) =
      [','].intercalate (names.items.map fun s => bare s.text) := by
    rw [bare, filter_intercalate, List.map_map]
    rfl
  have hop : ∀ cs, bare ('[' :: cs) = '[' :: bare cs := fun cs => by simp [bare]
  have hcl : ∀ cs, bare (']' :: cs) = ']' :: bare cs := fun cs => by simp [bare]
  have hbare : ((Listing.polymarket m names reads).info fmt cat sub).outcome.toList =
      bare names.text := by
    simp [Listing.info, MarketInfo.inCategory, MarketInfo.ofGamma, reads, bare]
  rw [hbare, JsonStrings.text, if_neg hne, bare_append, bare_append, hop, hjoin, hcl,
    bare_of_blank names.before_blank, bare_of_blank names.after_blank]
  simp

/-- A comma in what is left of an item is one of its name. -/
theorem comma_mem_bare_text {s : JsonString} : ',' ∈ bare s.text ↔ ',' ∈ bareName s := by
  have hblank : ∀ cs : List Char, (∀ c ∈ cs, IsJsonBlank c) → ',' ∉ cs :=
    fun cs h hc => (facts_of_isJsonBlank (h _ hc)).2.2.2.1 rfl
  simp [bare_text, hblank _ s.before_blank, hblank _ s.after_blank]

/-- Names without commas are the pieces. -/
theorem polymarket_pieces (fmt : Formats) {m : GammaMarket} {names : JsonStrings}
    (reads : m.outcomes = some (String.ofList names.text)) (hne : names.items ≠ [])
    (hcomma : ∀ s ∈ names.items, ',' ∉ bareName s) (cat sub : String) :
    ((Listing.polymarket m names reads).info fmt cat sub).outcome.toList.splitOn ',' =
      enclose (names.before ++ ['[']) (']' :: names.after)
        (names.items.map fun s => bare s.text) := by
  have hblank : ∀ cs : List Char, (∀ c ∈ cs, IsJsonBlank c) → ',' ∉ cs :=
    fun cs h hc => (facts_of_isJsonBlank (h _ hc)).2.2.2.1 rfl
  rw [polymarket_outcome fmt reads hne, splitOn_enclosed (by simpa using hne)]
  · simp [hblank _ names.before_blank]
  · intro l hl
    obtain ⟨s, hs, rfl⟩ := List.mem_map.mp hl
    exact mt comma_mem_bare_text.mp (hcomma s hs)
  · simp [hblank _ names.after_blank]

/-- The shown text of an item: trimming stops at the brackets of the array, so the blanks
between a bracket and a name stay. -/
theorem shownText_item {op cl b a t : List Char} (hop : ∀ c ∈ op, IsJsonBlank c)
    (hcl : ∀ c ∈ cl, IsJsonBlank c) (hb : ∀ c ∈ b, IsJsonBlank c) (ha : ∀ c ∈ a, IsJsonBlank c)
    (first last : Prop) [Decidable first] [Decidable last] :
    shownText ((if first then op ++ ['['] else []) ++ (b ++ ('"' :: t ++ '"' :: a)) ++
      if last then ']' :: cl else []) =
    (if first then b else []) ++ ('"' :: dropBrackets t ++ '"' :: if last then a else []) := by
  have blank : ∀ {cs : List Char}, (∀ c ∈ cs, IsJsonBlank c) → ∀ c ∈ cs, isWhitespace c = true :=
    fun h c hc => (facts_of_isJsonBlank (h c hc)).1
  have hb' := dropBrackets_of_blank hb
  have ha' := dropBrackets_of_blank ha
  have hquote : ∀ cs, dropBrackets ('"' :: cs) = '"' :: dropBrackets cs :=
    fun cs => by simp [dropBrackets, isBracket]
  have hopen : ∀ cs, dropBrackets ('[' :: cs) = dropBrackets cs :=
    fun cs => by simp [dropBrackets, isBracket]
  have hclose : dropBrackets [']'] = [] := by decide
  by_cases hfirst : first <;> by_cases hlast : last
  · -- an array of one name: trimming meets both brackets
    have h := shownText_padded (c := '[') (d := ']') (m := b ++ ('"' :: t ++ '"' :: a)) (blank hop)
      (blank hcl) (by decide) (by decide)
    simpa [hfirst, hlast, hquote, hopen, hclose, hb', ha'] using h
  · -- the first of several names
    have h := shownText_padded (c := '[') (d := '"') (m := b ++ '"' :: t) (blank hop) (blank ha)
      (by decide) (by decide)
    simpa [hfirst, hlast, hquote, hopen, hb'] using h
  · -- the last of several names
    have h := shownText_padded (c := '"') (d := ']') (m := t ++ '"' :: a) (blank hb) (blank hcl)
      (by decide) (by decide)
    simpa [hfirst, hlast, hquote, hclose, ha'] using h
  · -- a name between two others
    have h := shownText_padded (c := '"') (d := '"') (m := t) (blank hb) (blank ha)
      (by decide) (by decide)
    simpa [hfirst, hlast, hquote] using h

/-- Quoted texts with blanks around them agree with a quoted name only without the blanks. -/
theorem padded_quote_eq_iff {b a x y : List Char} (hb : ∀ c ∈ b, IsJsonBlank c)
    (ha : ∀ c ∈ a, IsJsonBlank c) :
    b ++ ('"' :: x ++ '"' :: a) = '"' :: y ++ ['"'] ↔ b = [] ∧ a = [] ∧ x = y := by
  constructor
  · intro h
    -- a blank in front would be the quote
    have hb0 : b = [] := by
      cases b with
      | nil => rfl
      | cons c b =>
        injection h with hc _
        exact absurd hc (facts_of_isJsonBlank (hb c List.mem_cons_self)).2.2.1
    subst hb0
    have h' : x ++ '"' :: a = y ++ ['"'] := by simpa using h
    obtain rfl | ⟨a, c, rfl⟩ := a.eq_nil_or_concat
    · exact ⟨rfl, rfl, List.append_inj_left' h' rfl⟩
    · -- the last character is a quote on the right and a blank on the left
      have hcat : (x ++ '"' :: a) ++ [c] = y ++ ['"'] := by simpa using h'
      have hlast : c = '"' := List.singleton_inj.mp (List.append_inj' hcat rfl).2
      exact absurd hlast (facts_of_isJsonBlank (ha c (by simp))).2.2.1
  · rintro ⟨rfl, rfl, rfl⟩
    rfl

/-- A comma in what the bot leaves of a name's spelling is one of the name. -/
theorem comma_mem_value {s : JsonString} (h : ',' ∈ bareName s) : ',' ∈ s.value := by
  obtain ⟨c, hc, hcc⟩ := List.mem_flatMap.mp h
  have hv : c.value = ',' := value_of_mem_bare (by simp [Keeps]) hcc
  rw [JsonString.value, ← hv]
  exact List.mem_map_of_mem hc

/-- Among names without commas, each label is right if and only if its name is legible. -/
theorem polymarket_label_iff (fmt : Formats) {m : GammaMarket} {names : JsonStrings}
    (reads : m.outcomes = some (String.ofList names.text)) (cat sub : String)
    (hcomma : ∀ s ∈ names.items, ',' ∉ bareName s) {i : ℕ} {s : JsonString}
    (hs : names.items[i]? = some s) :
    outcomeLabel ((Listing.polymarket m names reads).info fmt cat sub) i =
        String.ofList ('"' :: s.value ++ ['"']) ↔
      (∀ c ∈ s.chars, Legible c) ∧ (i = 0 → s.before = []) ∧
        (i + 1 = names.items.length → s.after = []) := by
  -- the piece at the index is the spelling of the name, trimmed
  have hne : names.items ≠ [] := by
    rintro h0
    simp [h0] at hs
  have hmem := List.mem_of_getElem? hs
  rw [outcomeLabel_natCast, polymarket_pieces fmt reads hne hcomma cat sub, getElem?_enclose,
    List.getElem?_map, hs, Option.map_some, Option.map_some, Option.elim_some, List.length_map,
    String.ofList_inj, bare_text,
    shownText_item names.before_blank names.after_blank s.before_blank s.after_blank,
    padded_quote_eq_iff, bareName, JsonString.value, dropBrackets_bare_iff (hcomma s hmem)]
  · rw [ite_eq_right_iff, ite_eq_right_iff]
    constructor
    · rintro ⟨hbefore, hafter, hchars⟩
      exact ⟨hchars, hbefore, hafter⟩
    · rintro ⟨hchars, hbefore, hafter⟩
      exact ⟨hbefore, hafter, hchars⟩
  · -- the blanks are those of JSON
    split
    · exact s.before_blank
    · simp
  · split
    · exact s.after_blank
    · simp

/-- **Polymarket labels.** -/
theorem polymarket_labels_iff (fmt : Formats) {m : GammaMarket} {names : JsonStrings}
    (reads : m.outcomes = some (String.ofList names.text)) (cat sub : String) :
    (∀ i name, (Listing.polymarket m names reads).outcome i = some name →
      outcomeLabel ((Listing.polymarket m names reads).info fmt cat sub) i = name) ↔
    (Listing.polymarket m names reads).Legible := by
  have houtcome : ∀ (i : ℕ) (s : JsonString), names.items[i]? = some s →
      (Listing.polymarket m names reads).outcome i =
        some (String.ofList ('"' :: s.value ++ ['"'])) := by
    intro i s hs
    simp [Listing.outcome, hs]
  constructor
  · intro h i s hs
    refine (polymarket_label_iff fmt reads cat sub ?_ hs).mp (h i _ (houtcome i s hs))
    -- a comma of a name would stand in its label, which holds none
    intro s' hs' hc
    obtain ⟨j, hj⟩ := List.mem_iff_getElem?.mp hs'
    have hno := comma_notMem_outcomeLabel ((Listing.polymarket m names reads).info fmt cat sub) j
    rw [h j _ (houtcome j s' hj), String.toList_ofList] at hno
    apply hno
    exact List.mem_append_left _ (List.mem_cons_of_mem _ (comma_mem_value hc))
  · intro h i name hname
    obtain ⟨s, hs, hname⟩ := Option.map_eq_some_iff.mp hname
    rw [← hname]
    refine (polymarket_label_iff fmt reads cat sub ?_ hs).mpr (h i s hs)
    -- a comma is not legible
    intro s' hs' hc
    obtain ⟨j, hj⟩ := List.mem_iff_getElem?.mp hs'
    obtain ⟨c, hc, hv⟩ := List.mem_map.mp (comma_mem_value hc)
    exact (keeps_of_legible ((h j s' hj).1 c hc)).1.1 hv

/-! ## §8 All listings -/

/-- **Which listings keep their labels.** Under every category, the labels of a listing
denote its outcomes if and only if the listing is legible. -/
theorem labelsDenote_iff (fmt : Formats) (listing : Listing) (marketCategory
    marketSubcategory : String) :
    LabelsDenote (listing.info fmt marketCategory marketSubcategory) listing.outcome ↔
      listing.Legible := by
  rw [labelsDenote_iff_labels]
  cases listing with
  | kalshi m => exact kalshi_labels_iff fmt m marketCategory marketSubcategory
  | polymarket m names reads => exact polymarket_labels_iff fmt reads _ _

/-! ### A comma in a name -/

/-- A Kalshi market whose subtitle is a place. -/
def dallas : KalshiMarket where
  ticker := "KXHOST-26"
  yesSubTitle := "Dallas, TX"
  noSubTitle := "Dallas, TX"

/-- The outcomes of a Polymarket listing with a comma in the first name. -/
def dallasNames : JsonStrings where
  items := [.plain "Dallas, TX".toList rfl, .plain "Other".toList rfl]

/-- A Polymarket listing with these outcomes. -/
def hostCity : GammaMarket where
  slug := some "host-city"
  outcomes := some (String.ofList dallasNames.text)

/-- The identifiers of the two markets; their times are empty texts, which do not parse. -/
def hostFormats : Formats where
  newV5 seed :=
    if seed = "KALSHI:KXHOST-26" then "759a1407-702b-5d96-b81b-e5b701da2711"
    else "230edd55-4258-5476-ae09-6cb291b2a68e"
  tryParse _ := true
  parseFromRfc3339 _ := none
  parseFromStr _ := none

/-- The two listings and their records. -/
def dallasListing : Listing := .kalshi dallas

def hostCityListing : Listing := .polymarket hostCity dallasNames rfl

def dallasInfo : MarketInfo := dallasListing.info hostFormats "politics" "Politics"

def hostCityInfo : MarketInfo := hostCityListing.info hostFormats "politics" "Politics"

/-- The hit of one against the other, and a reviewer's choice of the right leg on both sides. -/
def hostHit : SimilarityHit where
  anchor := some dallasInfo
  «matches» := [{ marketInfo := some hostCityInfo }]

def rightLegs : LegMapping where
  matchUUID := hostCityInfo.uuid
  anchorLeg := 1
  matchLeg := 1

/-- **A comma shifts the labels.** The legs that buy `No` and `Other` are both stored with
what follows the comma in the name of the first outcome. -/
theorem comma_shifts_labels :
    buildDiscoveredArbs hostHit [rightLegs] = .ok [{
      anchor := some { marketInfo := some dallasInfo, leg := 1, legStr := "TX)" }
      «match» := some { marketInfo := some hostCityInfo, leg := 1, legStr := "TX\"" } }] ∧
    ¬LabelsDenote dallasInfo dallasListing.outcome ∧
    ¬LabelsDenote hostCityInfo hostCityListing.outcome := by
  refine ⟨by decide +kernel, fun h => ?_, fun h => ?_⟩
  · have hlabel := h.labels 1 "No(Not Dallas, TX)" (by decide +kernel)
    exact absurd hlabel (by decide +kernel)
  · have hlabel := h.labels 1 "\"Other\"" (by decide +kernel)
    exact absurd hlabel (by decide +kernel)

end Degenerate.Web
