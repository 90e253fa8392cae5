import OracleServer.Lib.Machine
import OracleServer.Lib.Ordered
import OracleServer.PricingClient

/-! The socket side of `pricing_client.rs`: `run_loop`, `connect_and_run` and
`run_session`, one await after the other. The list of symbols is a watch channel, whose
value is the `assets` of the client; what a session has handed to the socket is its log. -/
namespace OracleServer

/-- `ciborium::from_reader` at the type of a server frame. -/
class Cbor where
  decodeServerFrame : ByteArray → Except String ServerFrame

inductive ClientError
  | webSocket (message : String)
  | cbor (message : String)
  | header (message : String)
  | idToken (message : String)
  deriving DecidableEq

inductive WsMessage
  | binary (bytes : ByteArray)
  | ping (payload : ByteArray)
  /-- Text, pong, close and raw frames. -/
  | other

/-- What a session sends: a frame, or the answer to a ping of the socket itself. -/
inductive Outbound
  | frame (f : ClientFrame)
  | pong (payload : ByteArray)

def readDeadlinePassed : ClientError :=
  .webSocket
    "no frame for 60s (server heartbeats every 15s); presuming half-open connection"

/-- `seen` is the version of the list the receiver has seen, and `last` its value then.
`sent` is the ordered set of what was subscribed. -/
structure PricingSession where
  seen : ℕ
  last : List Symbol
  sent : List Symbol
  watching : Bool
  log : List Outbound

/-- Which await of `run_session` the task is at. -/
inductive SessionPlace
  | opening
  | selecting
  | subscribing (next : List Symbol)
  | unsubscribing (next : List Symbol)
  | replying (message : Outbound)

/-- Which await of `run_loop` and what it calls. -/
inductive FeedPhase
  | waiting
  | dialing
  | connecting
  | session (s : PricingSession) (place : SessionPlace)
  | ended (s : Option PricingSession) (result : Except ClientError Unit)
  | sleeping
  | stopped

structure FeedConfig where
  consumer : String
  initialBackoff : ℕ
  maxBackoff : ℕ

/-- The client, the version of its list, whether the list's sender is gone, and the task. -/
structure Feed where
  client : ClientState
  version : ℕ
  closed : Bool
  backoff : ℕ
  phase : FeedPhase

inductive FeedEvent
  | publish (assets : List Symbol)
  | forget (symbols : List Symbol)
  | close
  | check
  | dial
  | connect (result : Except ClientError Unit)
  | send (result : Except ClientError Unit)
  | changed
  | message (m : Option (Except String WsMessage))
  | deadline
  | resume
  | wake

namespace PricingSession

variable (s : PricingSession)

/-- `next.difference(&sent)` and `sent.difference(&next)`. -/
def added (next : List Symbol) : List Symbol := next.filter (· ∉ s.sent)
def removed (next : List Symbol) : List Symbol := s.sent.filter (· ∉ next)

def push (m : Outbound) : PricingSession := { s with log := s.log ++ [m] }

/-- The end of a handled change. -/
def settle (next : List Symbol) : FeedPhase :=
  let s := { s with sent := next }
  if next.isEmpty then .ended (some s) (.ok ()) else .session s .selecting

def unsubscribe (next : List Symbol) : FeedPhase :=
  if !(s.removed next).isEmpty then .session s (.unsubscribing next) else s.settle next

/-- `borrow_and_update`, and on to the first frame the change needs. -/
def follow (version : ℕ) (assets : List Symbol) : FeedPhase :=
  let s := { s with seen := version, last := assets }
  let next := btreeSet assets
  if !(s.added next).isEmpty then .session s (.subscribing next) else s.unsubscribe next

/-- What the send the task waits for carries. -/
def pending (cfg : FeedConfig) : SessionPlace → Option Outbound
  | .opening => some (.frame (.subscribe cfg.consumer s.sent))
  | .selecting => none
  | .subscribing next => some (.frame (.subscribe cfg.consumer (s.added next)))
  | .unsubscribing next => some (.frame (.unsubscribe (s.removed next)))
  | .replying m => some m

/-- What the task does after its send succeeded. -/
def resume : SessionPlace → FeedPhase
  | .subscribing next => s.unsubscribe next
  | .unsubscribing next => s.settle next
  | .opening | .selecting | .replying _ => .session s .selecting

/-- A failed send ends the session, unless it was a reply. -/
def fail (e : ClientError) : SessionPlace → FeedPhase
  | .replying _ => .session s .selecting
  | _ => .ended (some s) (.error e)

end PricingSession

namespace Feed

variable [Cbor] (cfg : FeedConfig)

def boot (assets : List Symbol) : Feed := ⟨⟨.empty, assets⟩, 0, false, cfg.initialBackoff, .waiting⟩

/-- `run_session` up to its first send. -/
def start (f : Feed) : FeedPhase :=
  let sent := btreeSet f.client.assets
  let s : PricingSession := ⟨f.version, f.client.assets, sent, true, []⟩
  if sent.isEmpty then .ended (some s) (.ok ()) else .session s .opening

/-- A message in `select!`; nothing of it touches the subscription. -/
def receive (f : Feed) (s : PricingSession) : Option (Except String WsMessage) → Feed
  | none => { f with phase := .ended (some s) (.ok ()) }
  | some (.error e) => { f with phase := .ended (some s) (.error (.webSocket e)) }
  | some (.ok .other) => f
  | some (.ok (.ping payload)) => { f with phase := .session s (.replying (.pong payload)) }
  | some (.ok (.binary bytes)) =>
    match Cbor.decodeServerFrame bytes with
    | .error _ => f
    | .ok frame =>
      let (reply, cache) := f.client.cache.applyServerFrame (some f.client.assets) frame
      let f := { f with client := { f.client with cache := cache } }
      match reply with
      | some reply => { f with phase := .session s (.replying (.frame reply)) }
      | none => f

def step (f : Feed) : FeedEvent → Option Feed
  | .publish assets => some { f with
      client := f.client.step (.publish assets), version := f.version + 1 }
  | .forget symbols => some { f with client := f.client.step (.forget symbols) }
  | .close => some { f with closed := true }
  | .check =>
    match f.phase with
    | .waiting =>
      if !f.client.assets.isEmpty then some { f with phase := .dialing }
      else if f.closed then some { f with phase := .stopped }
      else none
    | _ => none
  | .dial =>
    match f.phase with
    | .dialing =>
      if f.client.assets.isEmpty then some { f with phase := .ended none (.ok ()) }
      else some { f with phase := .connecting }
    | _ => none
  | .connect result =>
    match f.phase, result with
    | .connecting, .ok () => some { f with phase := f.start }
    | .connecting, .error e => some { f with phase := .ended none (.error e) }
    | _, _ => none
  | .send result =>
    match f.phase with
    | .session s place =>
      match s.pending cfg place, result with
      | some m, .ok () => some { f with phase := (s.push m).resume place }
      | some _, .error e => some { f with phase := s.fail e place }
      | none, _ => none
    | _ => none
  | .changed =>
    match f.phase with
    | .session s .selecting =>
      if !s.watching then none
      else if s.seen ≠ f.version then
        some { f with phase := s.follow f.version f.client.assets }
      else if f.closed then some { f with phase := .session { s with watching := false } .selecting }
      else none
    | _ => none
  | .message m =>
    match f.phase with
    | .session s .selecting => some (f.receive s m)
    | _ => none
  | .deadline =>
    match f.phase with
    | .session s .selecting => some { f with phase := .ended (some s) (.error readDeadlinePassed) }
    | _ => none
  | .resume =>
    match f.phase with
    | .ended _ (.ok ()) => some { f with phase := .waiting, backoff := cfg.initialBackoff }
    | .ended _ (.error _) => some { f with phase := .sleeping }
    | _ => none
  | .wake =>
    match f.phase with
    | .sleeping => some { f with phase := .waiting, backoff := min (f.backoff * 2) cfg.maxBackoff }
    | _ => none

def run (assets : List Symbol) (es : List FeedEvent) : Option Feed :=
  Machine.run (step cfg) (boot cfg assets) es

end Feed

end OracleServer
