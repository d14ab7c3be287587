import SevenLens.Library.Prog
import SevenLens.Library.Table
import SevenLens.Library.Pattern
import SevenLens.Library.Decimal
import SevenLens.Library.Rank
import SevenLens.Library.Dict
import SevenLens.Library.Json
import SevenLens.Library.Linked
import SevenLens.Library.Stages
import SevenLens.Values
import SevenLens.Orders
import SevenLens.Records
import SevenLens.Store
import SevenLens.Ports
import SevenLens.UnitOfWork
import SevenLens.TradeUpdates
import SevenLens.ConsumerStep
import SevenLens.ConsumerStream
import SevenLens.StatusOrder
import SevenLens.FillDelivery
import SevenLens.BrokerHistory
import SevenLens.ConflictGate
import SevenLens.Engine
import SevenLens.Polling
import SevenLens.EntryGate
import SevenLens.Ledger
import SevenLens.FifoLedger
import SevenLens.Reconciliation
import SevenLens.Observation
import SevenLens.ClosedHistory
import SevenLens.ControlPlane
import SevenLens.Serial
import SevenLens.EngineLaw
import SevenLens.EngineRuns
import SevenLens.ServiceRuns
import SevenLens.SerialStep
import SevenLens.Correspondence
import SevenLens.CancelPending
import SevenLens.Unresolved
import SevenLens.ResumeEvidence
import SevenLens.SubmissionWindow
import SevenLens.CleanRun
import SevenLens.BaselineCash
import SevenLens.ArrivalOrder
import SevenLens.Securities.Contracts
import SevenLens.Securities.Identity
import SevenLens.Securities.CorporateActions
import SevenLens.Securities.Quarantine
import SevenLens.Securities.Eligibility
import SevenLens.Securities.Sources
import SevenLens.Securities.Master
import SevenLens.Securities.Service
import SevenLens.Securities.ServiceRuns
import SevenLens.Securities.EventChains
import SevenLens.Securities.Readback
import SevenLens.Securities.PointInTime
import SevenLens.Securities.Resolution
import SevenLens.Securities.ReviewReached
import SevenLens.Screening.Scores
import SevenLens.Screening.Contracts
import SevenLens.MarketData.Spread
import SevenLens.MarketData.ProviderTime
import SevenLens.MarketData.Snapshots
import SevenLens.MarketData.Adv
import SevenLens.MarketData.AdvRecomputed
import SevenLens.MarketData.Bars
import SevenLens.Universe.Contracts
import SevenLens.Universe.Builder
import SevenLens.Universe.Judgement
import SevenLens.Universe.Specification
import SevenLens.Sources.Reobservation
import SevenLens.Sources.CanonicalJson
import SevenLens.Securities.TickerChange
import SevenLens.Securities.DecisionStorage
import SevenLens.Memory.Validation
import SevenLens.Memory.Promotion
import SevenLens.Memory.Chain
import SevenLens.Memory.History
import SevenLens.Memory.Reflections
import SevenLens.Library.Digits
import SevenLens.Analysis.JsonValues
import SevenLens.Library.Codec
import SevenLens.Analysis.Texts
import SevenLens.Analysis.Decimals
import SevenLens.Analysis.Readers
import SevenLens.Analysis.Portfolio
import SevenLens.Analysis.Research
import SevenLens.Analysis.Proposals
import SevenLens.Analysis.RoundTrip
import SevenLens.Library.Method
import SevenLens.Analysis.ProposalRepository
import SevenLens.Analysis.ProposalEffects
import SevenLens.Analysis.ProposalEntries
import SevenLens.Analysis.ProposalAuthority
import SevenLens.Analysis.ProposalRuns
import SevenLens.Library.DecimalText
import SevenLens.Alpaca.Timestamps
import SevenLens.Alpaca.Wire
import SevenLens.Alpaca.Adapter
import SevenLens.Alpaca.Positions
import SevenLens.Alpaca.RecentOrders
import SevenLens.Alpaca.Submission
import SevenLens.SparedOrders
import SevenLens.OrderKeys
import SevenLens.Collars
import SevenLens.Screening.SparseNodes
import SevenLens.Library.Windows
import SevenLens.Screening.Ttm
import SevenLens.Screening.TtmWindow
import SevenLens.Screening.TtmEncoding
import SevenLens.Screening.Fundamentals
import SevenLens.Securities.IdentityHistory
import SevenLens.Library.SlidingWindow
import SevenLens.Sources.RateBudget
import SevenLens.Library.DecimalDigits
import SevenLens.MarketData.Midpoint
import SevenLens.Library.Greedy
import SevenLens.Memory.SelectionSpec
import SevenLens.Memory.LongestPrefix
import SevenLens.Security.SanitizedText
import SevenLens.Security.Tickers
import SevenLens.Security.BareHosts
import SevenLens.Memory.FactClosure
import SevenLens.Library.Midrank
import SevenLens.Library.Paging
import SevenLens.Alpaca.Pagination
import SevenLens.Screening.Midranks
import SevenLens.Library.Lease
import SevenLens.Jobs.Leases
import SevenLens.Jobs.Fencing
import SevenLens.Library.FloatText
import SevenLens.Library.JsonDecoder
import SevenLens.Library.JsonTokens
import SevenLens.Library.JsonRoundTrip
import SevenLens.Analysis.JsonObjects
import SevenLens.Library.Concurrent
import SevenLens.Invocation.Contracts
import SevenLens.Invocation.Invoker
import SevenLens.Invocation.Once
import SevenLens.Invocation.Outcomes
import SevenLens.Screening.Funnel
import SevenLens.Screening.Ranking
import SevenLens.Screening.FunnelStages
