import OracleServer.Response

/-! Decoding a `/context` request: the ABI body in its two shapes and the one flag of the
query string. ABI decoding is alloy's. -/
namespace OracleServer

abbrev U256 := BitVec 256

structure IOV2 where
  token : Address
  vaultId : B256
  deriving DecidableEq

structure EvaluableV4 where
  interpreter : Address
  store : Address
  bytecode : List UInt8
  deriving DecidableEq

structure OrderV4 where
  owner : Address
  evaluable : EvaluableV4
  validInputs : List IOV2
  validOutputs : List IOV2
  nonce : B256
  deriving DecidableEq

structure OracleRequestTuple where
  order : OrderV4
  inputIOIndex : U256
  outputIOIndex : U256
  counterparty : Address
  deriving DecidableEq

class Abi where
  decodeBatch : ByteArray → Except String (List OracleRequestTuple)
  decodeSingle : ByteArray → Except String OracleRequestTuple

structure DecodedRequest where
  items : List OracleRequestTuple
  isBatch : Bool

def decodeRequestBody [Abi] (body : ByteArray) : Except AppError DecodedRequest :=
  match Abi.decodeBatch body with
  | .ok items => .ok ⟨items, true⟩
  | .error _ =>
    match Abi.decodeSingle body with
    | .ok single => .ok ⟨[single], false⟩
    | .error e => .error (.badRequest s!"Invalid ABI-encoded body: {e}")

structure ContextQuery where
  allowFailure : Bool
  deriving DecidableEq

namespace ContextQuery

/-- `pair.split_once('=').unwrap_or((pair, ""))`. -/
def splitOnce (pair : List Char) : List Char × List Char :=
  (pair.takeWhile (· ≠ '='), (pair.dropWhile (· ≠ '=')).drop 1)

def isTrue (value : List Char) : Bool :=
  value.map Char.toLower = "true".toList || value = "1".toList

/-- The last `allowFailure` of the raw query decides; garbage reads as `false`. -/
def parse (raw : Option String) : ContextQuery :=
  match raw with
  | none => ⟨false⟩
  | some raw =>
    let values := (raw.toList.splitOn '&').filterMap fun pair =>
      let (key, value) := splitOnce pair
      if key = "allowFailure".toList then some value else none
    ⟨(values.getLast?.map isTrue).getD false⟩

example : (parse (some "x=1&allowFailure=TRUE")).allowFailure = true := by decide

end ContextQuery

/-- `U256::try_into::<usize>().unwrap_or(usize::MAX)` on a 64-bit host. -/
def toUsize (i : U256) : ℕ := if i.toNat < 2 ^ 64 then i.toNat else 2 ^ 64 - 1

def ioTokensFor (order : OrderV4) (inputIOIndex outputIOIndex : U256) :
    Except AppError (Address × Address) :=
  let inputIdx := toUsize inputIOIndex
  let outputIdx := toUsize outputIOIndex
  match order.validInputs[inputIdx]? with
  | none => .error (.badRequest
      s!"Invalid input IO index: {inputIdx} (order has {order.validInputs.length} inputs)")
  | some input =>
    match order.validOutputs[outputIdx]? with
    | none => .error (.badRequest
        s!"Invalid output IO index: {outputIdx} (order has {order.validOutputs.length} outputs)")
    | some output => .ok (input.token, output.token)

theorem ioTokensFor_ok {order : OrderV4} {i j : U256} {x y : Address}
    (h : ioTokensFor order i j = .ok (x, y)) :
    (∃ io, order.validInputs[toUsize i]? = some io ∧ io.token = x) ∧
      ∃ io, order.validOutputs[toUsize j]? = some io ∧ io.token = y := by
  unfold ioTokensFor at h
  dsimp only at h
  split at h
  · cases h
  next input hinput =>
  split at h
  · cases h
  next output houtput =>
  obtain ⟨rfl, rfl⟩ := Prod.mk.inj (Except.ok.inj h)
  exact ⟨⟨input, hinput, rfl⟩, ⟨output, houtput, rfl⟩⟩

variable [Alloy]

/-- `e.to_string()` of a failed resolution is a bad request. -/
def resolveTokens (registry : TokenRegistry) (inputToken outputToken : Address) :
    Except AppError ResolvedPair :=
  (registry.resolve inputToken outputToken).mapError AppError.badRequest

def resolvePairForOrder (registry : TokenRegistry) (r : OracleRequestTuple) :
    Except AppError ResolvedPair := do
  let tokens ← ioTokensFor r.order r.inputIOIndex r.outputIOIndex
  resolveTokens registry tokens.1 tokens.2

/-- One resolved item of a pair-bound request. -/
structure ResolvedSlot where
  inputToken : Address
  outputToken : Address
  pair : ResolvedPair
  deriving DecidableEq

def resolveSlot (registry : TokenRegistry) (r : OracleRequestTuple) :
    Except AppError ResolvedSlot := do
  let tokens ← ioTokensFor r.order r.inputIOIndex r.outputIOIndex
  let pair ← resolveTokens registry tokens.1 tokens.2
  pure ⟨tokens.1, tokens.2, pair⟩

theorem resolveSlot_ok {registry : TokenRegistry} {r : OracleRequestTuple} {slot : ResolvedSlot}
    (h : resolveSlot registry r = .ok slot) :
    ioTokensFor r.order r.inputIOIndex r.outputIOIndex = .ok (slot.inputToken, slot.outputToken) ∧
      registry.resolve slot.inputToken slot.outputToken = .ok slot.pair := by
  unfold resolveSlot at h
  obtain ⟨⟨x, y⟩, htokens, h⟩ := except_bind_ok h
  obtain ⟨pair, hpair, h⟩ := except_bind_ok h
  obtain rfl := Except.ok.inj h
  exact ⟨htokens, except_mapError_ok hpair⟩

end OracleServer
