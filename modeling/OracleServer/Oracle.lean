import OracleServer.Lib.Result
import OracleServer.Wire

/-! The signed-context builders of `oracle.rs`. Rain Float arithmetic lives in another
crate and enters as the class `RainFloat`; the texts in its errors are the `Debug` form
of that crate's error. -/
namespace OracleServer

class RainFloat where
  parse : String → Except String B256
  inv : B256 → Except String B256
  isZero : B256 → Except String Bool
  fromFixedDecimal : ℕ → UInt8 → Except String B256

def schemaVersionV4 : UInt64 := 4
def schemaVersionV5 : UInt64 := 5
def schemaVersionV6 : UInt64 := 6
def schemaVersionV7 : UInt64 := 7
def navRatioDecimals : UInt8 := 18

/-- `FixedBytes::<32>::left_padding_from` of an address. -/
def leftPadding (a : Address) : B256 := (Vector.replicate 12 (0 : UInt8) ++ a : Vector UInt8 (12 + 20))

/-- `U256::from_be_bytes`. -/
def fromBeBytes (b : B256) : ℕ := b.toList.foldl (fun acc x => 256 * acc + x.toNat) 0

variable [RainFloat]

/-- `Float::parse` of a decimal `u64`, with the context its caller adds to a failure. -/
def parseSlot (what : String) (n : UInt64) : Except String B256 :=
  match RainFloat.parse (toString n) with
  | .ok b => .ok b
  | .error e => .error s!"Failed to parse {what}: {e}"

def buildSessionContext (schemaVersion : UInt64) (priceBytes : B256) (publishTime : UInt64)
    (sessionBytes : B256) (sessionStart sessionEnd : UInt64) : Except String (List B256) := do
  let version ← parseSlot "schema version" schemaVersion
  let publish ← parseSlot "publish_time as Rain float" publishTime
  let start ← parseSlot "session_start as Rain float" sessionStart
  let stop ← parseSlot "session_end as Rain float" sessionEnd
  pure [version, priceBytes, publish, sessionBytes, start, stop]

def buildPairBoundContext (schemaVersion : UInt64) (priceBytes : B256) (publishTime : UInt64)
    (sessionBytes : B256) (sessionStart sessionEnd : UInt64) (inputToken outputToken : Address) :
    Except String (List B256) := do
  let ctx ← buildSessionContext schemaVersion priceBytes publishTime sessionBytes
    sessionStart sessionEnd
  pure (ctx ++ [leftPadding inputToken, leftPadding outputToken])

def buildContextV4 (priceBytes : B256) (publishTime : UInt64) (sessionBytes : B256)
    (sessionStart sessionEnd : UInt64) (inputToken outputToken : Address) :
    Except String (List B256) :=
  buildPairBoundContext schemaVersionV4 priceBytes publishTime sessionBytes
    sessionStart sessionEnd inputToken outputToken

def buildExpiryBoundContext (schemaVersion : UInt64) (priceBytes : B256) (publishTime : UInt64)
    (sessionBytes : B256) (sessionStart sessionEnd : UInt64) (inputToken outputToken : Address)
    (quoteExpiry : UInt64) : Except String (List B256) := do
  let ctx ← buildPairBoundContext schemaVersion priceBytes publishTime sessionBytes
    sessionStart sessionEnd inputToken outputToken
  let expiry ← parseSlot "quote_expiry as Rain float" quoteExpiry
  pure (ctx ++ [expiry])

def buildContextV5 (priceBytes : B256) (publishTime : UInt64) (sessionBytes : B256)
    (sessionStart sessionEnd : UInt64) (inputToken outputToken : Address)
    (quoteExpiry : UInt64) : Except String (List B256) :=
  buildExpiryBoundContext schemaVersionV5 priceBytes publishTime sessionBytes
    sessionStart sessionEnd inputToken outputToken quoteExpiry

def buildContextV6 (priceBytes : B256) (publishTime : UInt64) (sessionBytes : B256)
    (sessionStart sessionEnd : UInt64) (inputToken outputToken : Address)
    (quoteExpiry : UInt64) (navRatio : B256) : Except String (List B256) := do
  let ctx ← buildExpiryBoundContext schemaVersionV6 priceBytes publishTime sessionBytes
    sessionStart sessionEnd inputToken outputToken quoteExpiry
  match RainFloat.fromFixedDecimal (fromBeBytes navRatio) navRatioDecimals with
  | .ok nav => pure (ctx ++ [nav])
  | .error e => .error s!"Failed to pack nav_ratio as a Rain float: {e}"

def buildContextV7 (priceBytes : B256) (publishTime : UInt64) (sessionBytes : B256)
    (sessionStart sessionEnd : UInt64) (inputToken outputToken : Address)
    (quoteExpiry chainId : UInt64) : Except String (List B256) := do
  let ctx ← buildExpiryBoundContext schemaVersionV7 priceBytes publishTime sessionBytes
    sessionStart sessionEnd inputToken outputToken quoteExpiry
  let chain ← parseSlot "chain_id as Rain float" chainId
  pure (ctx ++ [chain])

/-- `slot` is the Rain Float of the decimal text of `n`. -/
def Encodes (slot : B256) (n : UInt64) : Prop := RainFloat.parse (toString n) = .ok slot

theorem parseSlot_ok {what : String} {n : UInt64} {b : B256} (h : parseSlot what n = .ok b) :
    Encodes b n := by
  unfold parseSlot at h
  split at h
  · next b' hb =>
    obtain rfl := Except.ok.inj h
    exact hb
  · cases h

/-- The eight slots every pair-bound schema shares. -/
theorem buildPairBoundContext_ok {version : UInt64} {price : B256} {publish : UInt64}
    {tag : B256} {start stop : UInt64} {input output : Address} {ctx : List B256}
    (h : buildPairBoundContext version price publish tag start stop input output = .ok ctx) :
    ∃ v p s e, ctx = [v, price, p, tag, s, e, leftPadding input, leftPadding output] ∧
      Encodes v version ∧ Encodes p publish ∧ Encodes s start ∧ Encodes e stop := by
  unfold buildPairBoundContext at h
  obtain ⟨c₁, h₁, h⟩ := except_bind_ok h
  unfold buildSessionContext at h₁
  obtain ⟨v, hv, h₁⟩ := except_bind_ok h₁
  obtain ⟨p, hp, h₁⟩ := except_bind_ok h₁
  obtain ⟨s, hs, h₁⟩ := except_bind_ok h₁
  obtain ⟨e, he, h₁⟩ := except_bind_ok h₁
  obtain rfl := Except.ok.inj h₁
  obtain rfl := Except.ok.inj h
  exact ⟨v, p, s, e, rfl, parseSlot_ok hv, parseSlot_ok hp, parseSlot_ok hs, parseSlot_ok he⟩

/-- The nine slots every expiry-bound schema shares. -/
theorem buildExpiryBoundContext_ok {version : UInt64} {price : B256} {publish : UInt64}
    {tag : B256} {start stop : UInt64} {input output : Address} {expiry : UInt64}
    {ctx : List B256}
    (h : buildExpiryBoundContext version price publish tag start stop input output expiry = .ok ctx) :
    ∃ v p s e x, ctx = [v, price, p, tag, s, e, leftPadding input, leftPadding output, x] ∧
      Encodes v version ∧ Encodes p publish ∧ Encodes s start ∧ Encodes e stop ∧
      Encodes x expiry := by
  unfold buildExpiryBoundContext at h
  obtain ⟨c₂, h₂, h⟩ := except_bind_ok h
  obtain ⟨x, hx, h⟩ := except_bind_ok h
  obtain ⟨v, p, s, e, rfl, hv, hp, hs, he⟩ := buildPairBoundContext_ok h₂
  obtain rfl := Except.ok.inj h
  exact ⟨v, p, s, e, x, rfl, hv, hp, hs, he, parseSlot_ok hx⟩

theorem buildContextV6_ok {price : B256} {publish : UInt64} {tag : B256} {start stop : UInt64}
    {input output : Address} {expiry : UInt64} {nav : B256} {ctx : List B256}
    (h : buildContextV6 price publish tag start stop input output expiry nav = .ok ctx) :
    ∃ ctx₉ slot, buildExpiryBoundContext schemaVersionV6 price publish tag start stop
        input output expiry = .ok ctx₉ ∧ ctx = ctx₉ ++ [slot] ∧
      RainFloat.fromFixedDecimal (fromBeBytes nav) navRatioDecimals = .ok slot := by
  unfold buildContextV6 at h
  obtain ⟨ctx₉, h₉, h⟩ := except_bind_ok h
  split at h
  · next slot hslot => exact ⟨ctx₉, slot, h₉, (Except.ok.inj h).symm, hslot⟩
  · cases h

theorem buildContextV7_ok {price : B256} {publish : UInt64} {tag : B256} {start stop : UInt64}
    {input output : Address} {expiry chainId : UInt64} {ctx : List B256}
    (h : buildContextV7 price publish tag start stop input output expiry chainId = .ok ctx) :
    ∃ ctx₉ slot, buildExpiryBoundContext schemaVersionV7 price publish tag start stop
        input output expiry = .ok ctx₉ ∧ ctx = ctx₉ ++ [slot] ∧ Encodes slot chainId := by
  unfold buildContextV7 at h
  obtain ⟨ctx₉, h₉, h⟩ := except_bind_ok h
  obtain ⟨slot, hslot, h⟩ := except_bind_ok h
  exact ⟨ctx₉, slot, h₉, (Except.ok.inj h).symm, parseSlot_ok hslot⟩

end OracleServer
