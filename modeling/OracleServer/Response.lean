import OracleServer.Registry

/-! What a `/context` request answers: signed responses, refusals with their codes and
texts, the two wire shapes, and the counters that describe them. -/
namespace OracleServer

structure OracleResponse where
  signer : Address
  context : List B256
  signature : List UInt8
  deriving DecidableEq

inductive UnavailableReason
  | noLiveQuote
  | expiredQuote
  | legacySchema
  | missingSession
  | invalidSession
  deriving DecidableEq, Repr

def UnavailableReason.code : UnavailableReason → String
  | .noLiveQuote => "no_live_quote"
  | .expiredQuote => "expired_quote"
  | .legacySchema => "legacy_schema"
  | .missingSession => "missing_session"
  | .invalidSession => "invalid_session"

inductive RefusalPhase
  | admission
  | preSign
  | postSign
  | preReuseReturn
  | batchFinal
  deriving DecidableEq, Repr

def RefusalPhase.label : RefusalPhase → String
  | .admission => "admission"
  | .preSign => "pre_sign"
  | .postSign => "post_sign"
  | .preReuseReturn => "pre_reuse_return"
  | .batchFinal => "batch_final"

/-- An `Internal` error carries the text of its `anyhow::Error`. -/
inductive AppError
  | internal (message : String)
  | badRequest (detail : String)
  | unavailable (reason : UnavailableReason) (detail : String)
  deriving DecidableEq

structure ErrorResponse where
  error : String
  detail : String
  deriving DecidableEq

namespace AppError

def statusCode : AppError → ℕ
  | .internal _ => 500
  | .badRequest _ => 400
  | .unavailable _ _ => 503

def code : AppError → String
  | .internal _ => "internal_error"
  | .badRequest _ => "bad_request"
  | .unavailable reason _ => reason.code

def toErrorResponse (e : AppError) : ErrorResponse :=
  let detail := match e with
    | .internal message => message
    | .badRequest detail => detail
    | .unavailable _ detail => detail
  ⟨e.code, detail⟩

end AppError

inductive BatchItemResponse
  | ok (r : OracleResponse)
  | error (e : ErrorResponse)
  deriving DecidableEq

/-- `From<Result<OracleResponse, AppError>>`. -/
def BatchItemResponse.ofResult : Except AppError OracleResponse → BatchItemResponse
  | .ok r => .ok r
  | .error e => .error e.toErrorResponse

inductive ContextResponse
  | strict (items : List OracleResponse)
  | envelope (items : List BatchItemResponse)
  deriving DecidableEq

def BatchItemResponse.isError : BatchItemResponse → Bool
  | .ok _ => false
  | .error _ => true

def ContextResponse.outcome : ContextResponse → String
  | .strict items => if items.isEmpty then "empty" else "ok"
  | .envelope items =>
    if items.isEmpty then "empty"
    else
      let failed := items.countP BatchItemResponse.isError
      if failed = 0 then "ok" else if failed = items.length then "failed" else "partial"

/-- The increments of the request counters, with their labels. -/
inductive Metric
  | contextItem (endpoint outcome : String) (count : ℕ)
  | contextRequest (endpoint outcome : String)
  | quoteRefusal (reason endpoint symbol phase : String)
  | quoteAddressMismatch (symbol : Symbol)
  | signatureReuse
  deriving DecidableEq

/-- The pair-bound schemas, one endpoint each. -/
inductive PairSchema
  | v4
  | v5
  | v6
  | v7
  deriving DecidableEq, Repr

namespace PairSchema

def tag : PairSchema → String
  | .v4 => "v4"
  | .v5 => "v5"
  | .v6 => "v6"
  | .v7 => "v7"

def signsUnderlying (s : PairSchema) : Bool := s = .v7

def signsExpiry (s : PairSchema) : Bool := s ≠ .v4

theorem tag_injective {a b : PairSchema} (h : a.tag = b.tag) : a = b := by
  cases a <;> cases b <;> first | rfl | exact absurd h (by decide)

end PairSchema

theorem PriceDirection.asStr_injective {a b : PriceDirection} (h : a.asStr = b.asStr) : a = b := by
  cases a <;> cases b <;> first | rfl | exact absurd h (by decide)

end OracleServer
