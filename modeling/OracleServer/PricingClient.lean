import OracleServer.Lib.AssocMap
import OracleServer.Wire

/-! The quote cache of `pricing_client.rs`: the latest quote per `(chain, symbol)` with
the generation token of its run of frames, and the frames that fill and evict it. -/
namespace OracleServer

abbrev Key := UInt64 × Symbol

/-- The shared `GenerationState` a token points to. Allocations are named by the key
whose insert made them and how many that key had before, so `Arc::ptr_eq` is equality. -/
structure QuoteGeneration where
  key : Key
  serial : ℕ
  deriving DecidableEq

structure CachedQuote where
  quote : Quote
  generation : QuoteGeneration
  deriving DecidableEq

structure QuoteSnapshot where
  quote : Quote
  generation : QuoteGeneration
  deriving DecidableEq

def CachedQuote.snapshot (entry : CachedQuote) : QuoteSnapshot :=
  ⟨entry.quote, entry.generation⟩

/-- The locked map, together with the heap of `GenerationState`s: how many tokens each
key has minted and the `live` flag of every token. -/
structure QuoteCache where
  entries : Map Key CachedQuote
  minted : Key → ℕ
  live : QuoteGeneration → Bool

namespace QuoteCache

def empty : QuoteCache := ⟨∅, fun _ => 0, fun _ => false⟩

/-- `QuoteGeneration::new`: a token no one else holds, live. -/
def newGeneration (c : QuoteCache) (key : Key) : QuoteGeneration × QuoteCache :=
  let g : QuoteGeneration := ⟨key, c.minted key⟩
  (g, { c with
    minted := Function.update c.minted key (c.minted key + 1)
    live := Function.update c.live g true })

def isLive (c : QuoteCache) (g : QuoteGeneration) : Bool := c.live g

def revoke (c : QuoteCache) (g : QuoteGeneration) : QuoteCache :=
  { c with live := Function.update c.live g false }

/-- Remove and revoke every cached quote for `symbols`, on every chain. -/
def evict (c : QuoteCache) (symbols : List Symbol) : ℕ × QuoteCache :=
  let dropped := c.entries.entries.filter fun e => symbols.contains e.1.2
  let kept := c.entries.retain fun key _ => !symbols.contains key.2
  (c.entries.entries.length - kept.entries.length,
    { dropped.foldl (fun c e => c.revoke e.2.generation) c with entries := kept })

def insertQuote (c : QuoteCache) (quote : Quote) : QuoteCache :=
  let key : Key := (quote.chainId, quote.asset)
  match c.entries.lookup key with
  | some previous => { c with entries := c.entries.insert key ⟨quote, previous.generation⟩ }
  | none =>
    let (generation, c) := c.newGeneration key
    { c with entries := c.entries.insert key ⟨quote, generation⟩ }

/-- `LiveClient::forget`. -/
def forget (c : QuoteCache) (symbols : List Symbol) : ℕ × QuoteCache :=
  if symbols.isEmpty then (0, c) else c.evict symbols

/-- The halted key alone is removed and revoked. -/
def remove (c : QuoteCache) (key : Key) : QuoteCache :=
  match c.entries.lookup key with
  | some entry => { c with entries := c.entries.erase key }.revoke entry.generation
  | none => c

/-- One inbound frame, under the cache's write lock. `assets` is the subscribed list the
frame is checked against; the test helper passes none. -/
def applyServerFrame (c : QuoteCache) (assets : Option (List Symbol)) (frame : ServerFrame) :
    Option ClientFrame × QuoteCache :=
  match frame with
  | .price p =>
    let q := Quote.ofPrice p
    if assets.any fun list => !list.contains q.asset then (none, c)
    else (none, c.insertQuote q)
  | .error e =>
    if e.code = .staleSource then
      match e.asset with
      | some asset => (none, (c.evict [asset]).2)
      | none => (none, c)
    else (none, c)
  | .halt h => if h.halted then (none, c.remove (h.chainId, h.asset)) else (none, c)
  | .ping ts => (some (.pong ts), c)

/-! Reads, each keyed by the chain the deployment serves. -/

def latest (c : QuoteCache) (chainId : UInt64) (symbol : Symbol) : Option Quote :=
  (c.entries.lookup (chainId, symbol)).map CachedQuote.quote

def snapshotMany (c : QuoteCache) (chainId : UInt64) (symbols : List Symbol) :
    Map Symbol QuoteSnapshot :=
  symbols.foldl (fun out sym =>
    match c.entries.lookup (chainId, sym) with
    | some entry => out.insert sym entry.snapshot
    | none => out) ∅

def newestSourceTsMs (c : QuoteCache) (chainId : UInt64) : Option Int64 :=
  ((c.entries.entries.filter fun e => e.1.1 = chainId).map
    fun e => e.2.quote.sourceTsUnixMs).max?

def missing (c : QuoteCache) (chainId : UInt64) (symbols : List Symbol) : List Symbol :=
  symbols.filter fun s => (c.entries.lookup (chainId, s)).isNone

end QuoteCache

/-- What reaches the quote cache: a frame of the socket, a change of the subscribed list
(`watch::Sender::send_replace`), or a call of `forget`. -/
inductive ClientEvent
  | frame (f : ServerFrame)
  | publish (assets : List Symbol)
  | forget (symbols : List Symbol)
  deriving DecidableEq

structure ClientState where
  cache : QuoteCache
  assets : List Symbol

def ClientState.step (s : ClientState) : ClientEvent → ClientState
  | .frame f => { s with cache := (s.cache.applyServerFrame (some s.assets) f).2 }
  | .publish assets => { s with assets := assets }
  | .forget symbols => { s with cache := (s.cache.forget symbols).2 }

/-- The state after a log of events, from an empty cache and a first subscribed list. -/
def ClientState.after (assets : List Symbol) (log : List ClientEvent) : ClientState :=
  log.foldl ClientState.step ⟨.empty, assets⟩

end OracleServer
