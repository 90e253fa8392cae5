import Mathlib

/-! Byte strings, quotes and the frames of the pricing socket. The frame types carry
the fields that the server reads; `venue`, `model_version`, `last_ok_unix_ms`, `detail`
and the halt `reason` are only logged and are left out. -/
namespace OracleServer

abbrev FixedBytes (n : ℕ) := Vector UInt8 n

abbrev B256 := FixedBytes 32

abbrev Address := FixedBytes 20

abbrev Symbol := String

inductive SessionTag
  | premarket
  | rth
  | afterhours
  | closed
  deriving DecidableEq, Repr

def SessionTag.asStr : SessionTag → String
  | .premarket => "premarket"
  | .rth => "rth"
  | .afterhours => "afterhours"
  | .closed => "closed"

structure QuoteSession where
  tag : SessionTag
  startUnixMs : Int64
  endUnixMs : Int64
  deriving DecidableEq

structure Quote where
  asset : Symbol
  chainId : UInt64
  base : Address
  quote : Address
  rateBaseToQuote : B256
  rateQuoteToBase : B256
  expiryUnixMs : Int64
  executionDeadlineUnixMs : Option Int64
  sourceTsUnixMs : Int64
  navRatio : B256
  underlyingRateBaseToQuote : B256
  underlyingRateQuoteToBase : B256
  session : Option QuoteSession
  deriving DecidableEq

structure PriceFrame where
  asset : Symbol
  chainId : UInt64
  base : Address
  quote : Address
  rateBaseToQuote : B256
  rateQuoteToBase : B256
  expiryUnixMs : Int64
  executionDeadlineUnixMs : Option Int64
  sourceTsUnixMs : Int64
  navRatio : B256
  underlyingRateBaseToQuote : B256
  underlyingRateQuoteToBase : B256
  session : Option QuoteSession
  deriving DecidableEq

inductive ErrorCode
  | staleSource
  | unknownAsset
  | modelError
  | internal
  deriving DecidableEq, Repr

structure ErrorFrame where
  code : ErrorCode
  asset : Option Symbol
  deriving DecidableEq

structure HaltFrame where
  asset : Symbol
  chainId : UInt64
  halted : Bool
  deriving DecidableEq

inductive ServerFrame
  | price (p : PriceFrame)
  | error (e : ErrorFrame)
  | halt (h : HaltFrame)
  | ping (tsUnixMs : Int64)
  deriving DecidableEq

inductive ClientFrame
  | subscribe (consumer : String) (assets : List Symbol)
  | unsubscribe (assets : List Symbol)
  | pong (tsUnixMs : Int64)
  deriving DecidableEq

/-- The quote a price frame is stored as: the whole frame, field by field. -/
def Quote.ofPrice (p : PriceFrame) : Quote where
  asset := p.asset
  chainId := p.chainId
  base := p.base
  quote := p.quote
  rateBaseToQuote := p.rateBaseToQuote
  rateQuoteToBase := p.rateQuoteToBase
  expiryUnixMs := p.expiryUnixMs
  executionDeadlineUnixMs := p.executionDeadlineUnixMs
  sourceTsUnixMs := p.sourceTsUnixMs
  navRatio := p.navRatio
  underlyingRateBaseToQuote := p.underlyingRateBaseToQuote
  underlyingRateQuoteToBase := p.underlyingRateQuoteToBase
  session := p.session

end OracleServer
