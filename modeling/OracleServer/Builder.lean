import OracleServer.Oracle
import OracleServer.Server
import OracleServer.Session

/-! The pair-bound response builder of `lib.rs` and the checks it makes around the
signature. Log lines are left out; every counter is kept. -/
namespace OracleServer

section Refusals
variable {α : Type}

def unavailable (reason : UnavailableReason) (endpoint : String) (symbol : Symbol)
    (phase : RefusalPhase) (detail : String) : Act α := do
  Act.count (.quoteRefusal reason.code endpoint symbol phase.label)
  throw (.unavailable reason detail)

def noLiveQuoteAt (endpoint : String) (symbol : Symbol) (phase : RefusalPhase) : Act α :=
  unavailable .noLiveQuote endpoint symbol phase s!"No live quote for {symbol}."

def noLiveQuote (endpoint : String) (symbol : Symbol) : Act α :=
  noLiveQuoteAt endpoint symbol .admission

def expiredQuoteAt (endpoint : String) (symbol : Symbol) (phase : RefusalPhase)
    (detail : String) : Act α :=
  unavailable .expiredQuote endpoint symbol phase detail

def sessionRefused (endpoint : String) (symbol : Symbol) : SessionRefusal → Act α
  | .missing => unavailable .missingSession endpoint symbol .admission
      s!"The pricing quote for {symbol} carries no market session."
  | .invalid why => unavailable .invalidSession endpoint symbol .admission
      s!"The pricing quote for {symbol} carries an invalid market session: {why}."

def legacySignatureUnavailable (endpoint : String) (symbol : Symbol) : Act α :=
  unavailable .legacySchema endpoint symbol .admission
    "Legacy schema has no verified settlement expiry bound; migrate to v5, v6, or v7."

end Refusals

/-- The earlier of the model's expiry and a positive execution deadline. -/
def effectiveExpiryUnixMs (quote : Quote) : Except AppError Int64 :=
  match quote.executionDeadlineUnixMs.filter fun d => d > 0 with
  | some deadline =>
    .ok (if quote.expiryUnixMs ≤ deadline then quote.expiryUnixMs else deadline)
  | none => .error (.unavailable .expiredQuote "Execution deadline is missing or invalid.")

/-- `i64` division truncates; `div_euclid`, elsewhere, floors. -/
def publishTimeFromQuote (quote : Quote) : Except AppError UInt64 :=
  match u64TryFrom (quote.sourceTsUnixMs.toInt.tdiv 1000) with
  | some s => .ok s
  | none => .error (.internal "source_ts out of range")

def expiryFromQuote (quote : Quote) : Except AppError UInt64 := do
  let effective ← effectiveExpiryUnixMs quote
  match u64TryFrom (effective.toInt.tdiv 1000) with
  | some s => .ok s
  | none => .error (.internal "quote expiry out of range")

def quoteIsLive (expiryUnixMs checkedAtUnixMs : Int64) (signsExpiry : Bool) : Bool :=
  expiryUnixMs > checkedAtUnixMs &&
    (!signsExpiry || expiryUnixMs.toInt / 1000 > checkedAtUnixMs.toInt / 1000)

def validateQuoteLiveness (check : LiveCheck) (generation : QuoteGeneration) (endpoint : String)
    (symbol : Symbol) (phase : RefusalPhase) : Act Unit := do
  let live : Bool ← Act.ask (.isLive check generation)
  if live then pure () else noLiveQuoteAt endpoint symbol phase

def validateQuoteAddress (quote : Quote) (pair : ResolvedPair) (settlement : Address)
    (endpoint : String) (phase : RefusalPhase) : Act Unit :=
  if quote.base = pair.token ∧ quote.quote = settlement then pure ()
  else do
    Act.count (.quoteAddressMismatch pair.symbol)
    noLiveQuoteAt endpoint pair.symbol phase

def validateExpiryDeadline (expiryUnixMs checkedAtUnixMs : Int64) (endpoint : String)
    (symbol : Symbol) (signsExpiry : Bool) (phase : RefusalPhase) : Act Unit :=
  if quoteIsLive expiryUnixMs checkedAtUnixMs signsExpiry then pure ()
  else unavailable .expiredQuote endpoint symbol phase
    s!"Quote for {symbol} expired at {expiryUnixMs} (checked at {checkedAtUnixMs})."

def validateQuoteExpiry (quote : Quote) (checkedAtUnixMs : Int64) (endpoint : String)
    (symbol : Symbol) (signsExpiry : Bool) (phase : RefusalPhase) : Act Unit :=
  match effectiveExpiryUnixMs quote with
  | .error _ => expiredQuoteAt endpoint symbol phase
      s!"Execution deadline for {symbol} is missing or invalid."
  | .ok effective =>
    if quote.executionDeadlineUnixMs = some effective ∧
        !quoteIsLive effective checkedAtUnixMs signsExpiry then
      expiredQuoteAt endpoint symbol phase
        s!"Execution deadline for {symbol} elapsed at {effective} (checked at {checkedAtUnixMs})."
    else validateExpiryDeadline effective checkedAtUnixMs endpoint symbol signsExpiry phase

def signedExpiry (schema : PairSchema) (quote : Quote) : Except AppError (Option UInt64) :=
  if schema.signsExpiry then (expiryFromQuote quote).map some else .ok none

section Rates
variable [RainFloat]

/-- The rate of the taker's own direction, inverted into Raindex ratio units. -/
def pickRateBytes (quote : Quote) (direction : PriceDirection) : Except String B256 :=
  let (rate, name) := match direction with
    | .quoteToBase => (quote.rateQuoteToBase, "rate_quote_to_base")
    | .baseToQuote => (quote.rateBaseToQuote, "rate_base_to_quote")
  match RainFloat.inv rate with
  | .ok inverted => .ok inverted
  | .error e => .error s!"Failed to invert {name} into ratio units: {e}"

/-- The underlying asset's rate; the all-zero sentinel is refused. -/
def pickUnderlyingRateBytes (quote : Quote) (direction : PriceDirection) : Except String B256 :=
  let (rate, name) := match direction with
    | .quoteToBase => (quote.underlyingRateQuoteToBase, "underlying_rate_quote_to_base")
    | .baseToQuote => (quote.underlyingRateBaseToQuote, "underlying_rate_base_to_quote")
  match RainFloat.isZero rate with
  | .error e => .error s!"Failed to test {name} for zero: {e}"
  | .ok true => .error s!"{name} is the zero sentinel: the pricing producer carried no underlying rate for this quote (it predates underlying pricing, or the pair is misconfigured); refusing to sign a zero underlying price"
  | .ok false =>
    match RainFloat.inv rate with
    | .ok inverted => .ok inverted
    | .error e => .error s!"Failed to invert {name} into ratio units: {e}"

def priceBytes (schema : PairSchema) (quote : Quote) (direction : PriceDirection) :
    Except AppError B256 :=
  (if schema.signsUnderlying then pickUnderlyingRateBytes quote direction
    else pickRateBytes quote direction).mapError AppError.internal

/-- The `match (schema, expiry)` that picks the schema's builder. -/
def buildContext (chainId : UInt64) (schema : PairSchema) (quote : Quote) (price : B256)
    (publishTime : UInt64) (session : SignedSession) (inputToken outputToken : Address)
    (expiry : Option UInt64) : Except AppError (List B256) :=
  let tag := tagBytes32V3 session.tag
  let built : Except String (List B256) :=
    match schema, expiry with
    | .v4, _ =>
      buildContextV4 price publishTime tag session.start session.stop inputToken outputToken
    | .v5, some expiry =>
      buildContextV5 price publishTime tag session.start session.stop inputToken outputToken expiry
    | .v6, some expiry =>
      buildContextV6 price publishTime tag session.start session.stop inputToken outputToken expiry
        quote.navRatio
    | .v7, some expiry =>
      buildContextV7 price publishTime tag session.start session.stop inputToken outputToken expiry
        chainId
    | schema, none =>
      .error s!"{schema.tag} signs an expiry but none was derived from the quote"
  built.mapError AppError.internal

end Rates

structure BuiltResponse where
  response : OracleResponse
  /-- The deadline of the response itself: of its quote when fresh, the signed one when reused. -/
  validityExpiryUnixMs : Int64

/-- `ReuseCache::lookup`: the map and the liveness flag are two reads. -/
def reuseLookup (D : Deployment) (key : ReuseKey) (context : List B256)
    (expiryUnixSecs nowSecs : UInt64) (generation : QuoteGeneration) :
    Act (Option ReusedResponse) :=
  if !D.reuseEnabled then pure none
  else do
    match ← Act.ask (.reuseGet key) with
    | none => pure none
    | some stored =>
      if stored.generation ≠ generation then pure none
      else do
        let live : Bool ← Act.ask (.isLive .stored stored.generation)
        if live then pure (stored.reusable context expiryUnixSecs nowSecs D.minRemainingSecs)
        else pure none

/-- `ReuseCache::store`, for a schema that signs an expiry. -/
def reuseStore (D : Deployment) (key : ReuseKey) (expiry : Option UInt64)
    (response : OracleResponse) (generation : QuoteGeneration) : Act Unit :=
  match expiry with
  | none => pure ()
  | some expiry =>
    if !D.reuseEnabled then pure ()
    else do
      let _ ← Act.ask (.reuseInsert key ⟨expiry, response, generation⟩)
      pure ()

/-- `i64::try_from(secs).ok().and_then(|s| s.checked_mul(1000))`. -/
def secsToMillis (secs : UInt64) : Option Int64 :=
  if secs.toNat * 1000 < 2 ^ 63 then some (Int64.ofInt (secs.toNat * 1000)) else none

section Build
variable (D : Deployment) (pair : ResolvedPair) (quote : QuoteSnapshot)
  (inputToken outputToken : Address) (schema : PairSchema)

def reuseKey : ReuseKey where
  schema := schema.tag
  symbol := pair.symbol
  direction := pair.direction.asStr
  inputToken := inputToken
  outputToken := outputToken

/-- The last checks before an earlier response is handed out again. -/
def returnReused (previous : ReusedResponse) : Act BuiltResponse := do
  let validatedAt ← Act.ask (.nowUnixMs .preReuseReturn)
  validateQuoteLiveness (.own .preReuseReturn) quote.generation schema.tag pair.symbol
    .preReuseReturn
  match secsToMillis previous.expiryUnixSecs with
  | none => throw (.internal "stored quote expiry out of range")
  | some storedExpiry => do
    validateExpiryDeadline storedExpiry validatedAt schema.tag pair.symbol true .preReuseReturn
    Act.count .signatureReuse
    pure ⟨previous.response, storedExpiry⟩

/-- Sign the context and check the quote on both sides of the signature. -/
def signFresh (context : List B256) (expiry : Option UInt64) : Act BuiltResponse := do
  validateQuoteLiveness (.own .preSign) quote.generation schema.tag pair.symbol .preSign
  let beforeSign ← Act.ask (.nowUnixMs .preSign)
  validateQuoteExpiry quote.quote beforeSign schema.tag pair.symbol schema.signsExpiry .preSign
  match ← Act.ask (.signContext context) with
  | .error e => throw (.internal e)
  | .ok (signature, signer) => do
    let validatedAt ← Act.ask (.nowUnixMs .postSign)
    validateQuoteLiveness (.own .postSign) quote.generation schema.tag pair.symbol .postSign
    validateQuoteExpiry quote.quote validatedAt schema.tag pair.symbol schema.signsExpiry .postSign
    let response : OracleResponse := ⟨signer, context, signature⟩
    reuseStore D (reuseKey pair inputToken outputToken schema) expiry response quote.generation
    let validity ← Act.ofExcept (effectiveExpiryUnixMs quote.quote)
    pure ⟨response, validity⟩

/-- An earlier signature of the same statement, or else a fresh one. -/
def reuseOrSign (context : List B256) (expiry : Option UInt64) : Act BuiltResponse :=
  match expiry with
  | none => signFresh D pair quote inputToken outputToken schema context none
  | some e => do
    validateQuoteLiveness (.own .preSign) quote.generation schema.tag pair.symbol .preSign
    let now ← Act.ask (.nowUnixMs .preSign)
    match u64TryFrom (now.toInt / 1000) with
    | none => throw (.internal "system clock before 1970")
    | some nowSecs => do
      match ← reuseLookup D (reuseKey pair inputToken outputToken schema) context e nowSecs
          quote.generation with
      | some previous => returnReused pair quote schema previous
      | none => signFresh D pair quote inputToken outputToken schema context (some e)

def sessionFromQuote : Act SignedSession :=
  match SignedSession.fromQuote quote.quote with
  | .ok session => pure session
  | .error refusal => sessionRefused schema.tag pair.symbol refusal

variable [RainFloat]

/-- What is signed for a quote, computed from that quote alone. -/
def contextFromQuote : Act (List B256 × Option UInt64) := do
  let publishTime ← Act.ofExcept (publishTimeFromQuote quote.quote)
  let session ← sessionFromQuote pair quote schema
  let price ← Act.ofExcept (priceBytes schema quote.quote pair.direction)
  let expiry ← Act.ofExcept (signedExpiry schema quote.quote)
  let context ← Act.ofExcept (buildContext D.chainId schema quote.quote price publishTime session
    inputToken outputToken expiry)
  pure (context, expiry)

def buildResponseFromQuotePairBound : Act BuiltResponse := do
  validateQuoteLiveness (.own .admission) quote.generation schema.tag pair.symbol .admission
  let set ← Act.ask (.tokens .admission)
  validateQuoteAddress quote.quote pair set.registry.quoteToken schema.tag .admission
  let now ← Act.ask (.nowUnixMs .admission)
  validateQuoteExpiry quote.quote now schema.tag pair.symbol schema.signsExpiry .admission
  let signed ← contextFromQuote D pair quote inputToken outputToken schema
  reuseOrSign D pair quote inputToken outputToken schema signed.1 signed.2

end Build

end OracleServer
