import Degenerate.Lib.PartialMap
import Degenerate.Lib.TransitionSystem
import Degenerate.Lib.FlaggedQueue
import Degenerate.Lib.Decimal
import Degenerate.Lib.Rounding
import Degenerate.Lib.DecimalText
import Degenerate.Lib.ExactFloat
import Degenerate.Lib.DelimitedText
import Degenerate.Lib.FirstOfKey
import Degenerate.Lib.JsonStrings
import Degenerate.Lib.LatestEntry
import Degenerate.Lib.KeptTwice
import Degenerate.Lib.LeftJoin
import Degenerate.Lib.SearchThenInsert
import Degenerate.Lib.Traversal
import Degenerate.Lib.Paging
import Degenerate.Lib.Lessening
import Degenerate.Models
import Degenerate.Markets
import Degenerate.CloseTimePrecision
import Degenerate.VectorStore
import Degenerate.Retention
import Degenerate.SearchCalls
import Degenerate.Platforms.Clients
import Degenerate.Platforms.KalshiReconnect
import Degenerate.Platforms.PolymarketReconnect
import Degenerate.Platforms.Venue
import Degenerate.Platforms.VenueSubscriptions
import Degenerate.Platforms.MarketTags
import Degenerate.Platforms.Ingestion
import Degenerate.Platforms.Backfill
import Degenerate.Grpc.Client
import Degenerate.Grpc.Delivery
import Degenerate.Grpc.Recovery
import Degenerate.Grpc.Passage
import Degenerate.Grpc.Order
import Degenerate.Grpc.Retries
import Degenerate.Picker.Book
import Degenerate.Picker.Prices
import Degenerate.Picker.Balances
import Degenerate.Picker.Orders
import Degenerate.Picker.Execution
import Degenerate.Picker.SeededPrices
import Degenerate.Picker.Sizing
import Degenerate.Picker.Discovery
import Degenerate.Picker.System
import Degenerate.Picker.TwoIndexSync
import Degenerate.Picker.InFlight
import Degenerate.Picker.Withdrawal
import Degenerate.Picker.Subscriptions
import Degenerate.Picker.ExecutionModes
import Degenerate.Picker.BalanceLedger
import Degenerate.Picker.Exposure
import Degenerate.Picker.LockedProfit
import Degenerate.Picker.ClientOrderIds
import Degenerate.Picker.PricedLegs
import Degenerate.Picker.CloseTimeGuards
import Degenerate.Picker.Cooldown
import Degenerate.Picker.ExecutionOutcome
import Degenerate.Picker.OrderTerms
import Degenerate.Picker.MarketableLimits
import Degenerate.Picker.ReportedFills
import Degenerate.Picker.OrderMessages
import Degenerate.Picker.FailedExecutions
import Degenerate.Picker.CommsTask
import Degenerate.Picker.WatchedPrices
import Degenerate.Picker.FindArbOutcome
import Degenerate.Picker.FreshQuotes
import Degenerate.Picker.ArrivalOrder
import Degenerate.Picker.Eviction
import Degenerate.Picker.Resolution
import Degenerate.Picker.CloseTimes
import Degenerate.Picker.Evaluations
import Degenerate.Picker.PairWork
import Degenerate.Picker.Provenance
import Degenerate.Picker.TimestampArithmetic
import Degenerate.Web.OutcomeLabels
import Degenerate.Web.Selections
import Degenerate.Web.SimilarityHits
import Degenerate.Web.Dashboard
import Degenerate.Web.HitSubmission
import Degenerate.Web.OrderTables
import Degenerate.Web.HitCleanup
import Degenerate.Web.ProcessEbo
import Degenerate.Deployment
import Degenerate.RunningPairs
import Degenerate.ReviewedTrades
import Degenerate.PickedOutcomes
import Degenerate.Backpressure
import Degenerate.Crossing
import Degenerate.Resumption
import Degenerate.HitContents
import Degenerate.PayloadDocuments
import Degenerate.Runtime
import Degenerate.Supervision
