import OracleServer.Lib.Machine
import OracleServer.Lib.Contract
import OracleServer.Lib.Ordered
import OracleServer.QuoteLog
import OracleServer.Session
import OracleServer.Oracle
import OracleServer.TokenFile
import OracleServer.ReloadRun
import OracleServer.Provenance
import OracleServer.BuilderSpec
import OracleServer.HandlerSpec
import OracleServer.Delivery
import OracleServer.Lib.Protocol
import OracleServer.RequestOrder
import OracleServer.WorldSafety
import OracleServer.Guarantees
import OracleServer.CacheFollows
import OracleServer.ChainIsolation
import OracleServer.Lib.Completion
import OracleServer.ItemModes
import OracleServer.Lib.Replay
import OracleServer.SingleItem
import OracleServer.ItemRuns
import OracleServer.BuilderRuns
import OracleServer.Lib.Tally
import OracleServer.SlotBuilds
import OracleServer.TokenUniverse
import OracleServer.SignedTimes
import OracleServer.SignSafety
import OracleServer.Statements
import OracleServer.PricingSession
import OracleServer.Subscription
import OracleServer.Lib.AbiCodec
import OracleServer.RequestShapes
import OracleServer.StandStill
import OracleServer.BatchReuse
import OracleServer.ReuseLag
import OracleServer.CacheBound
import OracleServer.Counters
import OracleServer.CountersServed
import OracleServer.CountersMatch
import OracleServer.RunRefusals
import OracleServer.Availability
import OracleServer.SignatureOrigin
import OracleServer.Lib.Compose
import OracleServer.Upstream
import OracleServer.BucketReload
import OracleServer.SlotTimes
import OracleServer.ReloadReport
import OracleServer.SignTimes
import OracleServer.FeedTimes
