import OracleServer.Lib.AssocMap
import OracleServer.Lib.Machine
import OracleServer.Wire

/-! `sign.rs`: the content-addressed signature cache and the tasks that fill it. An entry
is known by its place in the list of all entries ever made, which stands for the `Arc`;
with it go the value of its channel and where the sender is. The hit and miss counters,
which only tests read, are left out. -/
namespace OracleServer

class Keccak where
  keccak256 : List UInt8 → B256

/-- `abi.encodePacked(bytes32[])`: the slots one after the other. -/
def packed (context : List B256) : List UInt8 := context.flatMap (·.toList)

lemma packed_injective : Function.Injective packed := by
  intro xs
  induction xs with
  | nil =>
    intro ys h
    cases ys with
    | nil => rfl
    | cons y ys =>
      have hlen := congrArg List.length h
      simp [packed] at hlen
      omega
  | cons x xs ih =>
    intro ys h
    cases ys with
    | nil =>
      have hlen := congrArg List.length h
      simp [packed] at hlen
    | cons y ys =>
      simp only [packed, List.flatMap_cons] at h
      obtain ⟨hhead, htail⟩ := List.append_inj h (by simp)
      rw [Vector.toList_inj.mp hhead, ih htail]

def contextHash [Keccak] (context : List B256) : B256 := Keccak.keccak256 (packed context)

/-- An instant or a duration, in nanoseconds. -/
abbrev Nanos := ℕ

def seconds (n : ℕ) : Nanos := n * 1000000000

def waitTimeout : Nanos := seconds (2 * 5 + 1)
def sweepEveryInserts : ℕ := 256

inductive SignState
  | pending
  | done (signature : List UInt8)
  | failed (message : String)
  deriving DecidableEq

/-- Where the sender of an entry is. -/
inductive SignTask
  /-- With the call that made the entry, which has yet to spawn the task. -/
  | held
  /-- In the task, while the backend signs for the first or the second time. -/
  | signing (retry : Bool)
  /-- In the task, which is about to evict the entry after a failure. -/
  | evicting (message : String)
  /-- In the task, which is about to send the outcome. -/
  | sending (state : SignState)
  /-- Dropped after the outcome was sent. -/
  | ended
  /-- Dropped with nothing sent: a panic, or a spawn during shutdown. -/
  | dead
  deriving DecidableEq

structure CacheEntry where
  hash : B256
  startedAt : Nanos
  state : SignState
  task : SignTask
  deriving DecidableEq

namespace CacheEntry

def isPending (e : CacheEntry) : Bool := e.state = .pending

/-- `has_changed().is_ok()`: the channel is closed once its sender is gone. -/
def senderAlive (e : CacheEntry) : Bool :=
  match e.task with
  | .ended | .dead => false
  | _ => true

def isInFlight (e : CacheEntry) : Bool := e.isPending && e.senderAlive

end CacheEntry

structure Slot where
  lastUsed : Nanos
  entry : ℕ
  deriving DecidableEq

/-- What a signer is built with; in production 120 s and 16384 entries. -/
structure SignerConfig where
  idleTtl : Nanos
  maxEntries : ℕ
  address : Address

structure SignatureCache where
  entries : Map B256 Slot
  insertsSinceSweep : ℕ
  made : List CacheEntry

inductive Lookup
  | existing (entry : ℕ)
  | fresh (entry : ℕ)
  deriving DecidableEq

namespace SignatureCache

def new : SignatureCache := ⟨∅, 0, []⟩

def isInFlight (c : SignatureCache) (k : ℕ) : Bool := c.made[k]?.any CacheEntry.isInFlight

variable (cfg : SignerConfig)

def isLive (c : SignatureCache) (slot : Slot) (now : Nanos) : Bool :=
  c.isInFlight slot.entry || now - slot.lastUsed < cfg.idleTtl

/-- The entries a sweep leaves: the live ones, or only those in flight if these are still
too many. -/
def swept (c : SignatureCache) (now : Nanos) : Map B256 Slot :=
  let live := c.entries.retain fun _ slot => c.isLive cfg slot now
  if live.len ≥ cfg.maxEntries then live.retain fun _ slot => c.isInFlight slot.entry else live

def sweepIfDue (c : SignatureCache) (now : Nanos) : SignatureCache :=
  let inserts := c.insertsSinceSweep + 1
  if inserts ≥ sweepEveryInserts ∨ c.entries.len ≥ cfg.maxEntries then
    { c with entries := c.swept cfg now, insertsSinceSweep := 0 }
  else { c with insertsSinceSweep := inserts }

/-- A new entry, whose sender the caller holds. -/
def insertFresh (c : SignatureCache) (now : Nanos) (hash : B256) : Lookup × SignatureCache :=
  let c := c.sweepIfDue cfg now
  let k := c.made.length
  (.fresh k, { c with
    entries := c.entries.insert hash ⟨now, k⟩
    made := c.made ++ [⟨hash, now, .pending, .held⟩] })

def lookup (c : SignatureCache) (now : Nanos) (hash : B256) : Lookup × SignatureCache :=
  match c.entries.lookup hash with
  | some slot =>
    if c.isLive cfg slot now then
      (.existing slot.entry, { c with entries := c.entries.insert hash { slot with lastUsed := now } })
    else insertFresh cfg { c with entries := c.entries.erase hash } now hash
  | none => insertFresh cfg c now hash

/-- Only if the entry is still the one registered for `hash`. -/
def evict (c : SignatureCache) (hash : B256) (k : ℕ) : SignatureCache :=
  if (c.entries.lookup hash).any fun slot => slot.entry = k then
    { c with entries := c.entries.erase hash }
  else c

/-- Another value or sender of the entry `k`. -/
def update (c : SignatureCache) (k : ℕ) (e : CacheEntry) : SignatureCache :=
  { c with made := c.made.set k e }

end SignatureCache

/-- How far a call of `sign_context` has come. -/
inductive CallPhase
  /-- It made the entry and is about to spawn the task. -/
  | starting
  | waiting
  | returned (result : Except String (List UInt8 × Address))
  | timedOut (message : String)
  | disconnected

structure Call where
  context : List B256
  entry : ℕ
  phase : CallPhase

/-- One attempt of `sign_message` under its timeout. -/
inductive Attempt
  | signed (signature : List UInt8)
  | error (message : String)
  | timedOut
  deriving DecidableEq

def attemptTimedOut : String := "signing timed out after 5s (retry included)"
def taskAborted : String := "signing task aborted before producing a result"
def waitTimedOut : String := "timed out after 11s waiting for an in-flight signature"

/-- `produced` is the backend's own record: what it signed, and for which hash. -/
structure SignerState where
  now : Nanos
  cache : SignatureCache
  calls : List Call
  produced : List (B256 × List UInt8)

inductive SignEvent
  | tick (elapsed : Nanos)
  | call (context : List B256)
  | spawn (j : ℕ)
  | attempt (k : ℕ) (outcome : Attempt)
  | evict (k : ℕ)
  | send (k : ℕ)
  | die (k : ℕ)
  | poll (j : ℕ)
  | disconnect (j : ℕ)

namespace SignerState

def boot : SignerState := ⟨0, .new, [], []⟩

def setPhase (s : SignerState) (j : ℕ) (c : Call) (phase : CallPhase) : SignerState :=
  { s with calls := s.calls.set j { c with phase := phase } }

def setTask (s : SignerState) (k : ℕ) (e : CacheEntry) (task : SignTask) : SignerState :=
  { s with cache := s.cache.update k { e with task := task } }

variable [Keccak] (cfg : SignerConfig)

/-- `sign_context` up to the end of its `lookup`. -/
def call (s : SignerState) (context : List B256) : SignerState :=
  match s.cache.lookup cfg s.now (contextHash context) with
  | (.existing k, c) => { s with cache := c, calls := s.calls ++ [⟨context, k, .waiting⟩] }
  | (.fresh k, c) => { s with cache := c, calls := s.calls ++ [⟨context, k, .starting⟩] }

/-- `spawn_sign`, in the same turn of the call but not under the lock of the map. -/
def spawn (s : SignerState) (j : ℕ) : Option SignerState := do
  let c ← s.calls[j]?
  let e ← s.cache.made[c.entry]?
  match c.phase, e.task with
  | .starting, .held => some ((s.setTask c.entry e (.signing false)).setPhase j c .waiting)
  | _, _ => none

/-- `sign_hash_with_retry`: one retry, and the error of the second attempt. -/
def attempt (s : SignerState) (k : ℕ) (outcome : Attempt) : Option SignerState := do
  let e ← s.cache.made[k]?
  match e.task, outcome with
  | .signing _, .signed signature =>
    some { s.setTask k e (.sending (.done signature)) with
      produced := s.produced ++ [(e.hash, signature)] }
  | .signing false, _ => some (s.setTask k e (.signing true))
  | .signing true, .error message => some (s.setTask k e (.evicting message))
  | .signing true, .timedOut => some (s.setTask k e (.evicting attemptTimedOut))
  | _, _ => none

/-- The entry leaves the map before its failure is sent. -/
def evict (s : SignerState) (k : ℕ) : Option SignerState := do
  let e ← s.cache.made[k]?
  match e.task with
  | .evicting message =>
    some ({ s with cache := s.cache.evict e.hash k }.setTask k e (.sending (.failed message)))
  | _ => none

/-- The task keeps the entry, so the channel has a receiver and the send succeeds. -/
def send (s : SignerState) (k : ℕ) : Option SignerState := do
  let e ← s.cache.made[k]?
  match e.task with
  | .sending state =>
    some { s with cache := s.cache.update k { e with state := state, task := .ended } }
  | _ => none

def die (s : SignerState) (k : ℕ) : Option SignerState := do
  let e ← s.cache.made[k]?
  match e.task with
  | .signing _ | .evicting _ | .sending _ => some (s.setTask k e .dead)
  | _ => none

/-- A waiting call wakes: the channel settled or closed, or its budget, counted from the
start of the sign, is spent. A closed channel stays closed, so the eviction that follows
may be part of the same step. -/
def poll (s : SignerState) (j : ℕ) : Option SignerState := do
  let c ← s.calls[j]?
  let e ← s.cache.made[c.entry]?
  match c.phase with
  | .waiting =>
    match e.state with
    | .done signature => some (s.setPhase j c (.returned (.ok (signature, cfg.address))))
    | .failed message => some (s.setPhase j c (.returned (.error message)))
    | .pending =>
      if !e.senderAlive then
        some ({ s with cache := s.cache.evict (contextHash c.context) c.entry }.setPhase j c
          (.returned (.error taskAborted)))
      else if s.now - e.startedAt ≥ waitTimeout then
        some (s.setPhase j c (.timedOut waitTimedOut))
      else none
  | _ => none

/-- The client hangs up; the task goes on without it. -/
def disconnect (s : SignerState) (j : ℕ) : Option SignerState := do
  let c ← s.calls[j]?
  match c.phase with
  | .waiting => some (s.setPhase j c .disconnected)
  | _ => none

def step (s : SignerState) : SignEvent → Option SignerState
  | .tick elapsed => some { s with now := s.now + elapsed }
  | .call context => some (s.call cfg context)
  | .spawn j => s.spawn j
  | .attempt k outcome => s.attempt k outcome
  | .evict k => s.evict k
  | .send k => s.send k
  | .die k => s.die k
  | .poll j => s.poll cfg j
  | .disconnect j => s.disconnect j

def run (es : List SignEvent) : Option SignerState := Machine.run (step cfg) boot es

end SignerState

end OracleServer
