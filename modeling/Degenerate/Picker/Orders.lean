import Degenerate.Picker.Prices

/-!
# Orders

The two order functions of `PickerExec`: `make_fak_order` buys a leg and reports
what was filled, `hedge_sell_order` sells the excess of one leg.  A venue is a
function from the order that it receives to its answer, so the order that goes out
and the reading of the answer are both explicit.

## Main Definitions

- `OrderVenue`: the answers of the two venues' order endpoints
- `makeFakOrder`: the order sent, if any, with the result read from the answer
- `venueFill`: what the venue reports as filled, whether or not the code reads it
- `hedgeSellOrder`
-/

namespace Degenerate.Picker

open Degenerate.Lib

/-! ## §1 Requests and answers -/

/-- `CreateOrderRequest` of Kalshi; the fields that stay at their default are left out. -/
structure CreateOrderRequest where
  ticker : String
  action : String
  side : String
  count : Option ℕ
  type : String
  yesPrice : Option ℕ
  noPrice : Option ℕ
  clientOrderId : Option String
  postOnly : Option Bool
  timeInForce : Option String
  deriving DecidableEq

/-- The order in Kalshi's answer. -/
structure KalshiOrder where
  orderId : String
  fillCountFp : Option String
  remainingCountFp : Option String
  deriving DecidableEq

/-- `clob::types::Side`. -/
inductive Side where
  | buy
  | sell
  deriving DecidableEq

/-- `clob::types::OrderType`, as far as it is used. -/
inductive OrderType where
  | fak
  | gtc
  deriving DecidableEq

/-- A Polymarket limit order. -/
structure LimitOrder where
  tokenId : ℕ
  size : ℚ
  price : ℚ
  side : Side
  orderType : OrderType
  deriving DecidableEq

/-- `PostOrderResponse` of Polymarket. -/
structure PostOrderResponse where
  success : Bool
  errorMsg : Option String
  takingAmount : ℚ
  orderId : String
  deriving DecidableEq

/-- The order endpoints of both venues, and the parsing of token ids. -/
structure OrderVenue where
  createOrder : CreateOrderRequest → Except String KalshiOrder
  u256FromStr : String → Option ℕ
  buildOrder : LimitOrder → Except String Unit
  signOrder : LimitOrder → Except String Unit
  postOrder : LimitOrder → Except String PostOrderResponse

/-- The SDK's builder refuses an order for nothing. -/
def OrderVenue.RefusesEmpty (venue : OrderVenue) : Prop :=
  ∀ order : LimitOrder, order.size = 0 → venue.buildOrder order ≠ .ok ()

/-- An order that reached a venue's order endpoint. -/
inductive SentOrder where
  | kalshi (req : CreateOrderRequest)
  | polymarket (order : LimitOrder)
  deriving DecidableEq

/-- An order function's outcome: the order that it sent, and its result. -/
structure Placed (ρ : Type) where
  sent : Option SentOrder
  result : Except String ρ

/-- The outcome of a call that fails before it sends anything. -/
def Placed.unsent {ρ : Type} (e : String) : Placed ρ := ⟨none, .error e⟩

/-- The Kalshi side that a leg stands for. -/
def sideStr : Leg → String
  | .left => "yes"
  | .right => "no"

/-- An order on the side of a leg, priced on that side only. -/
def kalshiRequest (leg : ArbMinifiedInfo) (action : String) (count price : ℕ)
    (clientOrderId : String) (postOnly : Bool) (timeInForce : String) : CreateOrderRequest where
  ticker := leg.tokenId
  action := action
  side := sideStr leg.leg
  count := some count
  type := "limit"
  yesPrice := if sideStr leg.leg = "yes" then some price else none
  noPrice := if sideStr leg.leg = "no" then some price else none
  clientOrderId := some clientOrderId
  postOnly := some postOnly
  timeInForce := some timeInForce

/-! ## §2 `make_fak_order` -/

/-- Filled quantity, remaining quantity and order id. -/
abbrev Fill := ℚ × ℚ × String

/-- The seed of a buy order's client order id. -/
def clientOrderSeed (cid : CorrelationId) (size : ℕ) (limitPrice : Decimal) : String :=
  cid ++ ":" ++ toString size ++ ":" ++ limitPrice.display

/-- Kalshi's answer to a buy order, as the code reads it. -/
def kalshiFill : Except String KalshiOrder → Except String Fill
  | .error _ => .error "error creating kalshi order"
  | .ok order => do
      let filled ← optStrToDecimalStrict order.fillCountFp
      -- an answer without a readable remainder is an error, whatever was filled
      let remaining ← optStrToDecimalStrict order.remainingCountFp
      return (filled.toRat, remaining.toRat, order.orderId)

/-- Polymarket reports amounts in millionths. -/
def polyScale : ℚ := 1000000

/-- Polymarket's answer to a buy order of `size`, as the code reads it. -/
def polyFill (size : ℚ) : Except String PostOrderResponse → Except String Fill
  | .error e => .error e
  | .ok response =>
      if response.success then
        let filled := response.takingAmount / polyScale
        .ok (filled, size - filled, response.orderId)
      else .error ("Polymarket order failed: " ++ response.errorMsg.getD "Unknown error")

/-- The Kalshi branch of `make_fak_order`. -/
def makeKalshiFak (uuidV5 : String → String) (venue : OrderVenue) (leg : ArbMinifiedInfo)
    (size : ℚ) (limitPrice : Decimal) (cid : CorrelationId) : Placed Fill :=
  match toU64 ⌊limitPrice.toRat * 100⌋ with
  | none => .unsent "error converting decimal to u64"
  | some safePrice =>
      match toU64 size with
      | none => .unsent "Size too large or negative"
      | some safeSize =>
          if safeSize = 0 then .unsent "Calculated size should not 0"
          else
            let req := kalshiRequest leg "buy" safeSize safePrice
              (uuidV5 (clientOrderSeed cid safeSize limitPrice)) false "immediate_or_cancel"
            ⟨some (.kalshi req), kalshiFill (venue.createOrder req)⟩

/-- The Polymarket branch of both order functions: build, sign and post an order. -/
def submitLimitOrder {ρ : Type} (venue : OrderVenue) (tokenId : String) (order : ℕ → LimitOrder)
    (buildErr : String) (read : Except String PostOrderResponse → Except String ρ) : Placed ρ :=
  match venue.u256FromStr tokenId with
  | none => .unsent "invalid hex token_id"
  | some token =>
      match venue.buildOrder (order token) with
      | .error _ => .unsent buildErr
      | .ok () =>
          match venue.signOrder (order token) with
          | .error e => .unsent e
          | .ok () => ⟨some (.polymarket (order token)), read (venue.postOrder (order token))⟩

/-- `make_fak_order`: fill-and-kill at `limit_price`. -/
def makeFakOrder (uuidV5 : String → String) (venue : OrderVenue) (leg : ArbMinifiedInfo)
    (size : ℚ) (limitPrice : Decimal) (cid : CorrelationId) : Placed Fill :=
  match leg.platform with
  | .kalshi => makeKalshiFak uuidV5 venue leg size limitPrice cid
  | .polymarket =>
      submitLimitOrder venue leg.tokenId
        (fun token => ⟨token, roundDp size 2, roundDp limitPrice.toRat 2, .buy, .fak⟩)
        "error creating polymarket order" (polyFill size)

/-- The fill that the handler accounts for: a failed order counts as zero. -/
def Placed.fill (o : Placed Fill) : Fill :=
  match o.result with
  | .ok f => f
  | .error _ => (0, 0, "")

/-- The quantity that a venue reports as filled for an order that it received. -/
def venueFill (venue : OrderVenue) : Option SentOrder → ℚ
  | none => 0
  | some (.kalshi req) =>
      match venue.createOrder req with
      | .ok order => ((order.fillCountFp.bind Decimal.fromStr).map Decimal.toRat).getD 0
      | .error _ => 0
  | some (.polymarket order) =>
      match venue.postOrder order with
      | .ok response => if response.success then response.takingAmount / polyScale else 0
      | .error _ => 0

/-! ## §3 `hedge_sell_order` -/

/-- Order id, platform, size and price of a hedge. -/
abbrev Hedge := String × Platform × ℚ × ℚ

/-- Polymarket's answer to a hedge order. -/
def polyHedge (excess price : ℚ) : Except String PostOrderResponse → Except String Hedge
  | .error _ => .error "Failed to post Polymarket hedge order"
  | .ok response =>
      if response.success then .ok (response.orderId, .polymarket, excess, price)
      else .error ("Polymarket hedge failed: " ++ response.errorMsg.getD "Unknown error")

/-- `hedge_sell_order`: sell the excess of a leg, at most at 0.99.  The client order id is
    a fresh random one. -/
def hedgeSellOrder (venue : OrderVenue) (clientOrderId : String) (leg : ArbMinifiedInfo)
    (excessSize sellPrice : ℚ) : Placed Hedge :=
  let safeSellPrice := min sellPrice (99 / 100)
  match leg.platform with
  | .kalshi =>
      -- whole cents and whole contracts, both rounded down
      let priceCents := (toU64 ⌊safeSellPrice * 100⌋).getD 99
      let safeExcessSize := (toU64 ⌊excessSize⌋).getD 0
      if safeExcessSize = 0 then .unsent "Hedge size too small (rounds to 0). Skipping."
      else
        let req := kalshiRequest leg "sell" safeExcessSize priceCents clientOrderId true
          "good_till_canceled"
        ⟨some (.kalshi req),
          match venue.createOrder req with
          -- reported as asked for, not as rounded
          | .ok order => .ok (order.orderId, .kalshi, excessSize, safeSellPrice)
          | .error _ => .error "Failed to post kalshi hedge order"⟩
  | .polymarket =>
      submitLimitOrder venue leg.tokenId
        (fun token => ⟨token, roundDp excessSize 2, roundDp safeSellPrice 2, .sell, .gtc⟩)
        "Failed to build Polymarket hedge order" (polyHedge excessSize safeSellPrice)

/-! ## §4 What the order functions send -/

/-- The Kalshi branch sends nothing, or one order for a positive count, whose answer it reads. -/
theorem makeKalshiFak_cases (uuidV5 : String → String) (venue : OrderVenue)
    (leg : ArbMinifiedInfo) (size : ℚ) (price : Decimal) (cid : CorrelationId) :
    (∃ e, makeKalshiFak uuidV5 venue leg size price cid = .unsent e) ∨
    ∃ cents n, toU64 ⌊price.toRat * 100⌋ = some cents ∧ toU64 size = some n ∧ n ≠ 0 ∧
      let req := kalshiRequest leg "buy" n cents (uuidV5 (clientOrderSeed cid n price)) false
        "immediate_or_cancel"
      makeKalshiFak uuidV5 venue leg size price cid =
        ⟨some (.kalshi req), kalshiFill (venue.createOrder req)⟩ := by
  unfold makeKalshiFak
  -- the price is no number of cents, or the size no positive count
  split
  · exact .inl ⟨_, rfl⟩
  · rename_i cents hcents
    split
    · exact .inl ⟨_, rfl⟩
    · rename_i n hn
      split
      · exact .inl ⟨_, rfl⟩
      · rename_i hpos
        exact .inr ⟨cents, n, hcents, hn, hpos, rfl⟩

/-- The Polymarket branch sends nothing, or one order for the parsed token, whose answer it
    reads. -/
theorem submitLimitOrder_cases {ρ : Type} (venue : OrderVenue) (tokenId : String)
    (order : ℕ → LimitOrder) (buildErr : String)
    (read : Except String PostOrderResponse → Except String ρ) :
    (∃ e, submitLimitOrder venue tokenId order buildErr read = .unsent e) ∨
    ∃ token, venue.u256FromStr tokenId = some token ∧
      submitLimitOrder venue tokenId order buildErr read =
        ⟨some (.polymarket (order token)), read (venue.postOrder (order token))⟩ := by
  unfold submitLimitOrder
  split
  · exact .inl ⟨_, rfl⟩
  · rename_i token htoken
    split
    · exact .inl ⟨_, rfl⟩
    · split
      · exact .inl ⟨_, rfl⟩
      · exact .inr ⟨token, htoken, rfl⟩

/-- What the Polymarket branch sends is an order that was built. -/
theorem submitLimitOrder_built {ρ : Type} {venue : OrderVenue} {tokenId : String}
    {order : ℕ → LimitOrder} {buildErr : String}
    {read : Except String PostOrderResponse → Except String ρ} {sent : SentOrder}
    (h : (submitLimitOrder venue tokenId order buildErr read).sent = some sent) :
    ∃ token, venue.buildOrder (order token) = .ok () ∧ sent = .polymarket (order token) := by
  unfold submitLimitOrder at h
  split at h
  · cases h
  · rename_i token _
    split at h
    · cases h
    · rename_i hbuilt
      split at h
      · cases h
      · cases h
        exact ⟨token, hbuilt, rfl⟩

/-- No order of the Polymarket branch goes to Kalshi. -/
theorem submitLimitOrder_sent_ne {ρ : Type} {venue : OrderVenue} {tokenId : String}
    {order : ℕ → LimitOrder} {buildErr : String}
    {read : Except String PostOrderResponse → Except String ρ} (req : CreateOrderRequest) :
    (submitLimitOrder venue tokenId order buildErr read).sent ≠ some (.kalshi req) := by
  rcases submitLimitOrder_cases venue tokenId order buildErr read with ⟨e, h⟩ | ⟨token, -, h⟩
  · simp [h, Placed.unsent]
  · simp [h]

/-- A Kalshi buy order carries the id derived from its pair, size and price. -/
theorem makeFakOrder_sent_kalshi {uuidV5 : String → String} {venue : OrderVenue}
    {leg : ArbMinifiedInfo} {size : ℚ} {price : Decimal} {cid : CorrelationId}
    {req : CreateOrderRequest}
    (h : (makeFakOrder uuidV5 venue leg size price cid).sent = some (.kalshi req)) :
    ∃ n, toU64 size = some n ∧ req.action = "buy" ∧ req.count = some n ∧
      req.clientOrderId = some (uuidV5 (clientOrderSeed cid n price)) := by
  unfold makeFakOrder at h
  split at h
  · rcases makeKalshiFak_cases uuidV5 venue leg size price cid with ⟨e, he⟩ |
      ⟨cents, n, -, hn, -, he⟩
    · rw [he] at h
      cases h
    · rw [he] at h
      cases h
      exact ⟨n, hn, rfl, rfl, rfl⟩
  · exact absurd h (submitLimitOrder_sent_ne req)

/-- A fill read from Kalshi's answer is the one in the answer. -/
theorem kalshiFill_ok {answer : Except String KalshiOrder} {f : Fill}
    (h : kalshiFill answer = .ok f) :
    ∃ order d, answer = .ok order ∧ order.fillCountFp.bind Decimal.fromStr = some d ∧
      f.1 = d.toRat := by
  cases answer with
  | error e => cases h
  | ok order =>
    obtain ⟨filled, hfilled, h⟩ := bind_eq_ok.mp h
    -- the remainder has to be readable too, whatever was filled
    obtain ⟨remaining, -, h⟩ := bind_eq_ok.mp h
    cases h
    exact ⟨order, filled, rfl, optStrToDecimalStrict_ok hfilled, rfl⟩

/-- A fill read from Polymarket's answer is the one in the answer. -/
theorem polyFill_ok {size : ℚ} {answer : Except String PostOrderResponse} {f : Fill}
    (h : polyFill size answer = .ok f) :
    ∃ response, answer = .ok response ∧ response.success ∧
      f.1 = response.takingAmount / polyScale := by
  cases answer with
  | error e => cases h
  | ok response =>
    simp only [polyFill] at h
    split at h
    · rename_i hs
      cases h
      exact ⟨response, rfl, hs, rfl⟩
    · cases h

/-- **Accounted fills are reported fills**: when the code can read a venue's answer, the
    fill that it accounts for is the one that the venue reports. -/
theorem fill_eq_venueFill {uuidV5 : String → String} {venue : OrderVenue}
    {leg : ArbMinifiedInfo} {size : ℚ} {price : Decimal} {cid : CorrelationId} {f : Fill}
    (h : (makeFakOrder uuidV5 venue leg size price cid).result = .ok f) :
    f.1 = venueFill venue (makeFakOrder uuidV5 venue leg size price cid).sent := by
  unfold makeFakOrder at h ⊢
  split at h
  · -- what is read from the answer is what the venue reports
    rcases makeKalshiFak_cases uuidV5 venue leg size price cid with ⟨e, he⟩ |
      ⟨cents, n, -, -, -, he⟩
    · rw [he] at h
      cases h
    · simp only [he] at h ⊢
      obtain ⟨order, d, ho, hd, hf⟩ := kalshiFill_ok h
      simp only [venueFill, ho, hd, Option.map_some, Option.getD_some, hf]
  · rcases submitLimitOrder_cases venue leg.tokenId
      (fun token => ⟨token, roundDp size 2, roundDp price.toRat 2, .buy, .fak⟩)
      "error creating polymarket order" (polyFill size) with ⟨e, he⟩ | ⟨token, -, he⟩
    · rw [he] at h
      cases h
    · simp only [he] at h ⊢
      obtain ⟨response, hr, hs, hf⟩ := polyFill_ok h
      simp only [venueFill, hr, hs, if_true, hf]

end Degenerate.Picker
