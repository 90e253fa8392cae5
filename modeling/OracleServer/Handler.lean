import OracleServer.Builder
import OracleServer.Request

/-! The `/context` handlers of `lib.rs`: resolve every item, build every slot, re-check
every built slot, and answer in one of two shapes. The three phases of an item enter the
pipeline as parameters, so that it can be read without them; `pairBound` supplies the
server's own. -/
namespace OracleServer

open Interaction

inductive Endpoint
  | v1
  | pair (schema : PairSchema)
  deriving DecidableEq, Repr

def Endpoint.tag : Endpoint → String
  | .v1 => "v1"
  | .pair schema => schema.tag

/-- The endpoints that resolve an item and then refuse to sign it. -/
def Endpoint.legacy : Endpoint → Bool
  | .v1 => true
  | .pair schema => schema = .v4

theorem signsExpiry_of_not_legacy {schema : PairSchema}
    (h : (Endpoint.pair schema).legacy = false) : schema.signsExpiry = true := by
  cases schema with
  | v4 => exact absurd h (by decide)
  | _ => rfl

/-- A request, whose branches build slots. -/
abbrev Handle (B α : Type) := ExceptT AppError (Par Op Op.Answer (Except AppError B)) α

namespace Handle
variable {B α : Type}

/-- Run a sequential part in the request's own thread. -/
def act (x : Act α) : Handle B α := ExceptT.mk (Prog.toPar x.run)

def ask (o : Op) : Handle B o.Answer := act (Act.ask o)

end Handle

/-- What one endpoint does with an item in each phase. The reads that come before a
phase (the token set, the two snapshots, the final clock) are the outer programs. -/
structure Phases (R B : Type) where
  resolver : Act (OracleRequestTuple → Except AppError R)
  symbolOf : R → Symbol
  builder : List R → Act (R → Act B)
  rechecker : List B → Act (B → Act OracleResponse)

/-- The values of the slots that have not failed. -/
def oks {α : Type} (slots : List (Except AppError α)) : List α := slots.filterMap Except.toOption

/-- `Result::and_then` on one slot, the error kept in its place. -/
def andThen {α β : Type} (f : α → Act β) : Except AppError α → Act (Except AppError β)
  | .error e => pure (.error e)
  | .ok a => ExceptT.lift (f a).run

section Pipeline
variable {R B : Type}

def recordItemOutcome (endpoint outcome : String) (count : ℕ) : Act Unit :=
  if count = 0 then pure () else Act.count (.contextItem endpoint outcome count)

def strictAbort {α : Type} (endpoint : String) (err : AppError) : Act α := do
  recordItemOutcome endpoint err.code 1
  throw err

/-- The strict early exit on the first item that did not resolve. -/
def abortUnresolved (endpoint : String) (envelope : Bool) (resolved : List (Except AppError R)) :
    Act Unit :=
  if envelope then pure ()
  else
    match resolved.findSome? fun r => match r with | .error e => some e | .ok _ => none with
    | some err => strictAbort endpoint err
    | none => pure ()

def maxConcurrentSlotBuilds : ℕ := 10

/-- The strict loop: sequential, stopping at the first error. -/
def buildInOrder (buildOne : R → Act B) : List (Except AppError R) →
    Act (List (Except AppError B))
  | [] => pure []
  | slot :: rest => do
    let value ← Act.ofExcept slot
    let built ← buildOne value
    let others ← buildInOrder buildOne rest
    pure (.ok built :: others)

/-- `built[index] = Some(result)` for every completion, then the `expect` on each place;
`none` is the panic. -/
def place {α : Type} (n : ℕ) (completed : List (ℕ × α)) : Option (List α) :=
  (completed.foldl (fun built c => built.set c.1 (some c.2)) (List.replicate n none)).mapM id

def buildSlots (slots : List (Except AppError R)) (envelope : Bool) (buildOne : R → Act B) :
    Handle B (List (Except AppError B)) :=
  if !envelope then Handle.act (buildInOrder buildOne slots)
  else do
    let branches : List (Prog Op Op.Answer (Except AppError B)) := slots.map fun slot =>
      match slot with
      | .error err => .ret (.error err)
      | .ok value => (buildOne value).run
    let completed ← ExceptT.lift (Par.bufferUnordered maxConcurrentSlotBuilds branches)
    match place slots.length completed with
    | some built => pure built
    | none => throw (.internal "every index is produced exactly once")

/-- The loop of `revalidate_batch`. -/
def revalidateBatch (recheckOne : B → Act OracleResponse) (envelope : Bool) :
    List (Except AppError B) → Act (List (Except AppError OracleResponse))
  | [] => pure []
  | slot :: rest => do
    let item ← andThen recheckOne slot
    match envelope, item with
    | false, .error err => throw err
    | _, item => do
      let items ← revalidateBatch recheckOne envelope rest
      pure (item :: items)

/-- The strict half of `finish`. -/
def finishStrict (endpoint : String) : List (Except AppError OracleResponse) →
    Act (List OracleResponse)
  | [] => pure []
  | .error err :: _ => strictAbort endpoint err
  | .ok response :: rest => do
    let responses ← finishStrict endpoint rest
    pure (response :: responses)

def itemOutcome : Except AppError OracleResponse → String
  | .ok _ => "ok"
  | .error err => err.code

/-- The envelope half of `finish`. -/
def finishEnvelope (endpoint : String) : List (Except AppError OracleResponse) →
    Act (List BatchItemResponse)
  | [] => pure []
  | item :: rest => do
    recordItemOutcome endpoint (itemOutcome item) 1
    let items ← finishEnvelope endpoint rest
    pure (BatchItemResponse.ofResult item :: items)

def finish (endpoint : String) (items : List (Except AppError OracleResponse)) (envelope : Bool) :
    Act ContextResponse :=
  if !envelope then do
    let responses ← finishStrict endpoint items
    recordItemOutcome endpoint "ok" responses.length
    pure (.strict responses)
  else do
    let items ← finishEnvelope endpoint items
    pure (.envelope items)

/-- Every item that resolved is refused, in order. -/
def refuseLegacy (endpoint : String) (symbolOf : R → Symbol) : List (Except AppError R) →
    Act (List (Except AppError OracleResponse))
  | [] => pure []
  | slot :: rest => do
    let item ← andThen (fun r => legacySignatureUnavailable endpoint (symbolOf r)) slot
    let items ← refuseLegacy endpoint symbolOf rest
    pure (item :: items)

/-- `.map_err(|err| strict_abort(endpoint, err))`. -/
def orAbort {α : Type} (endpoint : String) (x : Handle B α) : Handle B α :=
  tryCatch x fun err => Handle.act (strictAbort endpoint err)

/-- The build pass and the batch-final pass. -/
def buildAndRecheck (P : Phases R B) (endpoint : String) (envelope : Bool)
    (resolved : List (Except AppError R)) : Handle B ContextResponse := do
  let buildOne ← Handle.act (P.builder (oks resolved))
  let built ← orAbort endpoint (buildSlots resolved envelope buildOne)
  let recheckOne ← Handle.act (P.rechecker (oks built))
  let items ← orAbort endpoint (Handle.act (revalidateBatch recheckOne envelope built))
  Handle.act (finish endpoint items envelope)

def serve (P : Phases R B) (endpoint : Endpoint) (query : ContextQuery)
    (decoded : DecodedRequest) : Handle B ContextResponse :=
  let envelope := query.allowFailure && decoded.isBatch
  if decoded.items.isEmpty then Handle.act (finish endpoint.tag [] envelope)
  else do
    let resolve ← Handle.act P.resolver
    let resolved := decoded.items.map resolve
    Handle.act (abortUnresolved endpoint.tag envelope resolved)
    if endpoint.legacy then do
      let items ← Handle.act (refuseLegacy endpoint.tag P.symbolOf resolved)
      Handle.act (finish endpoint.tag items envelope)
    else buildAndRecheck P endpoint.tag envelope resolved

def requestOutcome : Except AppError ContextResponse → String
  | .ok response => response.outcome
  | .error _ => "error"

def serveBody [Abi] (P : Phases R B) (endpoint : Endpoint) (query : ContextQuery)
    (body : ByteArray) : Handle B ContextResponse :=
  match decodeRequestBody body with
  | .error e => throw e
  | .ok decoded => serve P endpoint query decoded

/-- The outer handler: serve the request and record its outcome. -/
def postSignedContext [Abi] (P : Phases R B) (endpoint : Endpoint) (query : Option String)
    (body : ByteArray) :
    Par Op Op.Answer (Except AppError B) (Except AppError ContextResponse) := do
  let result ← (serveBody P endpoint (ContextQuery.parse query) body).run
  let _ ← (Prog.ask (.count (.contextRequest endpoint.tag (requestOutcome result)))).toPar
  pure result

end Pipeline

/-- One slot that built, with the snapshot it was built from. -/
structure BuiltSlot where
  pair : ResolvedPair
  quote : QuoteSnapshot
  response : BuiltResponse

section Server
variable [Alloy]

/-- The batch-final check of one slot. -/
def revalidateSlot (endpoint : String) (signsExpiry : Bool) (validatedAtUnixMs : Int64)
    (current : Map Symbol QuoteSnapshot) (registry : TokenRegistry) (slot : BuiltSlot) :
    Act OracleResponse := do
  let symbol := slot.pair.symbol
  match registry.resolve slot.pair.token registry.quoteToken with
  | .error _ => noLiveQuoteAt endpoint symbol .batchFinal
  | .ok mapping =>
    if mapping.symbol ≠ symbol then noLiveQuoteAt endpoint symbol .batchFinal
    else do
      validateQuoteLiveness (.own .batchFinal) slot.quote.generation endpoint symbol .batchFinal
      validateExpiryDeadline slot.response.validityExpiryUnixMs validatedAtUnixMs endpoint symbol
        signsExpiry .batchFinal
      match current.lookup symbol with
      | none => noLiveQuoteAt endpoint symbol .batchFinal
      | some currentQuote => do
        validateQuoteLiveness .current currentQuote.generation endpoint symbol .batchFinal
        validateQuoteAddress currentQuote.quote slot.pair registry.quoteToken endpoint .batchFinal
        validateQuoteExpiry currentQuote.quote validatedAtUnixMs endpoint symbol signsExpiry
          .batchFinal
        match signsExpiry, effectiveExpiryUnixMs currentQuote.quote with
        | true, .error e => throw e
        | true, .ok bound =>
          if slot.response.validityExpiryUnixMs > bound then
            expiredQuoteAt endpoint symbol .batchFinal
              "Signed expiry exceeds the current execution bound."
          else pure slot.response.response
        | false, _ => pure slot.response.response

/-- `post_signed_context_pair_bound` of the schemas that sign. -/
def pairBound [RainFloat] (D : Deployment) (schema : PairSchema) :
    Phases ResolvedSlot BuiltSlot where
  resolver := do
    let set ← Act.ask (.tokens .request)
    pure (resolveSlot set.registry)
  symbolOf slot := slot.pair.symbol
  builder slots := do
    let snapshot ← Act.ask (.snapshotMany .request (slots.map fun s => s.pair.symbol))
    pure fun slot =>
      match snapshot.lookup slot.pair.symbol with
      | none => noLiveQuote schema.tag slot.pair.symbol
      | some quote => do
        let response ← buildResponseFromQuotePairBound D slot.pair quote slot.inputToken
          slot.outputToken schema
        pure ⟨slot.pair, quote, response⟩
  rechecker built := do
    let current ← Act.ask (.snapshotMany .batchFinal (built.map fun s => s.pair.symbol))
    let set ← Act.ask (.tokens .batchFinal)
    let validatedAt ← Act.ask (.nowUnixMs .batchFinal)
    pure (revalidateSlot schema.tag schema.signsExpiry validatedAt current set.registry)

/-- `v1` resolves without keeping the two tokens, and never reaches a build. -/
def legacyV1 : Phases ResolvedPair BuiltSlot where
  resolver := do
    let set ← Act.ask (.tokens .request)
    pure (resolvePairForOrder set.registry)
  symbolOf pair := pair.symbol
  builder _ := pure fun pair => legacySignatureUnavailable "v1" pair.symbol
  rechecker _ := pure fun slot => pure slot.response.response

abbrev Request := Par Op Op.Answer (Except AppError BuiltSlot) (Except AppError ContextResponse)

def handler [RainFloat] [Abi] (D : Deployment) (endpoint : Endpoint) (query : Option String)
    (body : ByteArray) : Request :=
  match endpoint with
  | .v1 => postSignedContext legacyV1 .v1 query body
  | .pair schema => postSignedContext (pairBound D schema) (.pair schema) query body

end Server

end OracleServer
