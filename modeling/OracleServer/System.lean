import OracleServer.CacheFollows
import OracleServer.SignatureOrigin
import OracleServer.SignSafety
import OracleServer.Subscription

/-! The server with its two other machines: the task that keeps the socket to pricing and
the signer with its signature cache. The frames the socket task applies are those that
reach the quotes of the server, the list a reload publishes is the one that task follows,
and a request that signs is answered by the call of the signer it made. -/
namespace OracleServer

open Interaction

/-- What boot builds the three machines with. -/
structure Program where
  deployment : Deployment
  feed : FeedConfig
  signer : SignerConfig

/-- A thread of a request in flight. -/
abbrev Thread := ℕ × Move

/-- `waiting` are the threads inside `sign_context`, each with the call it made. -/
structure System where
  world : World
  feed : Feed
  signer : SignerState
  waiting : Map Thread ℕ

/-- An event of the socket task or of the signer, or one of the world. A thread that signs
makes its call (`sign`) and goes on once this has an outcome (`answer`). -/
inductive SystemEvent
  | socket (e : FeedEvent)
  | poll (read : Option (Int64 × ByteArray))
  | reload
  | arrive (endpoint : Endpoint) (query : Option String) (body : ByteArray)
  | move (r : ℕ) (m : Move) (i : Input)
  | sign (r : ℕ) (m : Move)
  | answer (r : ℕ) (m : Move)
  | signer (e : SignEvent)

/-- What `sign_context` returns. -/
def CallPhase.result : CallPhase → Option (Except String (List UInt8 × Address))
  | .returned result => some result
  | .timedOut message => some (.error message)
  | _ => none

/-- The events of the signer itself; only a request makes a call. -/
def SignEvent.isOwn : SignEvent → Bool
  | .call _ => false
  | _ => true

/-- The context that a thread is about to have signed. -/
def InFlight.signs (q : InFlight) (m : Move) : Option (List B256) :=
  match q.task.asking m with
  | some (.signContext context) => some context
  | _ => none

lemma InFlight.signs_eq_some {q : InFlight} {m : Move} {context : List B256} :
    q.signs m = some context ↔ q.task.asking m = some (.signContext context) := by
  unfold InFlight.signs
  split
  · next context' h => simp [h]
  · next h =>
    constructor
    · intro hn
      cases hn
    · intro hs
      exact absurd hs (h context)

/-- The event of the socket task that a write of the reload is. -/
def ReloadStep.fed : ReloadStep → Option FeedEvent
  | .sendReplace symbols => some (.publish symbols)
  | .forget symbols => some (.forget symbols)
  | _ => none

namespace Feed
variable [Cbor]

/-- The frame that the task applies to the quotes. -/
def applied (f : Feed) : FeedEvent → Option ServerFrame
  | .message (some (.ok (.binary bytes))) =>
    match f.phase with
    | .session _ .selecting => (Cbor.decodeServerFrame bytes).toOption
    | _ => none
  | _ => none

/-- The events of the task itself; the other two are writes of a reload. -/
def IsSocket : FeedEvent → Bool
  | .publish _ | .forget _ => false
  | _ => true

lemma receive_client (f : Feed) (s : PricingSession) (hphase : f.phase = .session s .selecting)
    (m : Option (Except String WsMessage)) :
    (f.receive s m).client = ((f.applied (.message m)).map ClientEvent.frame).elim f.client
      f.client.step := by
  match m with
  | none | some (.error _) | some (.ok .other) | some (.ok (.ping _)) => rfl
  | some (.ok (.binary bytes)) =>
    simp only [receive, applied, hphase]
    cases Cbor.decodeServerFrame bytes with
    | error e => rfl
    | ok frame =>
      dsimp only
      split <;> rfl

/-- An event of the socket task leaves the list alone, and the quotes but for its frame. -/
theorem step_client {cfg : FeedConfig} {f f' : Feed} {e : FeedEvent} (he : IsSocket e = true)
    (h : f.step cfg e = some f') :
    f'.client = ((f.applied e).map ClientEvent.frame).elim f.client f.client.step ∧
      f'.version = f.version := by
  cases e with
  | publish assets => cases he
  | forget symbols => cases he
  | close => exact Option.some.inj h ▸ ⟨rfl, rfl⟩
  | message m =>
    simp only [step] at h
    split at h
    · next s hphase =>
      obtain rfl := Option.some.inj h
      refine ⟨f.receive_client s hphase m, ?_⟩
      unfold receive
      split
      case h_5 => split <;> first | rfl | (dsimp only; split <;> rfl)
      all_goals rfl
    · cases h
  | check =>
    simp only [step] at h
    split at h
    · split at h
      · exact Option.some.inj h ▸ ⟨rfl, rfl⟩
      · split at h
        · exact Option.some.inj h ▸ ⟨rfl, rfl⟩
        · cases h
    · cases h
  | dial =>
    simp only [step] at h
    split at h
    · split at h <;> exact Option.some.inj h ▸ ⟨rfl, rfl⟩
    · cases h
  | connect result =>
    simp only [step] at h
    split at h
    · exact Option.some.inj h ▸ ⟨rfl, rfl⟩
    · exact Option.some.inj h ▸ ⟨rfl, rfl⟩
    · cases h
  | send result =>
    simp only [step] at h
    split at h
    · split at h
      · exact Option.some.inj h ▸ ⟨rfl, rfl⟩
      · exact Option.some.inj h ▸ ⟨rfl, rfl⟩
      · cases h
    · cases h
  | changed =>
    simp only [step] at h
    split at h
    · split at h
      · cases h
      · split at h
        · exact Option.some.inj h ▸ ⟨rfl, rfl⟩
        · split at h
          · exact Option.some.inj h ▸ ⟨rfl, rfl⟩
          · cases h
    · cases h
  | deadline =>
    simp only [step] at h
    split at h
    · exact Option.some.inj h ▸ ⟨rfl, rfl⟩
    · cases h
  | resume =>
    simp only [step] at h
    split at h
    · exact Option.some.inj h ▸ ⟨rfl, rfl⟩
    · exact Option.some.inj h ▸ ⟨rfl, rfl⟩
    · cases h
  | wake =>
    simp only [step] at h
    split at h
    · exact Option.some.inj h ▸ ⟨rfl, rfl⟩
    · cases h

end Feed

namespace System
variable [Toml] [Alloy] [Unicode] [RainFloat] [Abi] [Cbor] [Keccak]

def boot (P : Program) (set : TokenSet) : System :=
  ⟨.boot set, .boot P.feed set.symbols, .boot, ∅⟩

/-- The world takes an event, if there is one to take. -/
def turn (P : Program) (w : World) : Option Event → Option World
  | some e => World.step P.deployment w e
  | none => some w

def step (P : Program) (S : System) : SystemEvent → Option System
  | .socket e => do
    guard (Feed.IsSocket e)
    let feed ← S.feed.step P.feed e
    let world ← turn P S.world ((S.feed.applied e).map .frame)
    some { S with world := world, feed := feed }
  | .poll read => do
    let world ← World.step P.deployment S.world (.poll read)
    some { S with world := world }
  | .reload => do
    let st ← S.world.reloading.head?
    let feed ← (st.fed.map (S.feed.step P.feed)).getD (some S.feed)
    let world ← World.step P.deployment S.world .reload
    some { S with world := world, feed := feed }
  | .arrive endpoint query body => do
    let world ← World.step P.deployment S.world (.arrive endpoint query body)
    some { S with world := world }
  | .move r m i => do
    let q ← S.world.requests[r]?
    guard (q.signs m = none)
    let world ← World.step P.deployment S.world (.move r m i)
    some { S with world := world }
  | .sign r m => do
    let q ← S.world.requests[r]?
    let context ← q.signs m
    guard (S.waiting.lookup (r, m) = none)
    some { S with
      signer := S.signer.call P.signer context
      waiting := S.waiting.insert (r, m) S.signer.calls.length }
  | .answer r m => do
    let j ← S.waiting.lookup (r, m)
    let call ← S.signer.calls[j]?
    let signed ← call.phase.result
    let world ← World.step P.deployment S.world (.move r m ⟨0, signed⟩)
    some { S with world := world, waiting := S.waiting.erase (r, m) }
  | .signer e => do
    guard e.isOwn
    let signer ← S.signer.step P.signer e
    some { S with signer := signer }

/-- What one event does. -/
inductive Took (P : Program) (S : System) : SystemEvent → System → Prop
  | socket {e : FeedEvent} {feed : Feed} {world : World} (he : Feed.IsSocket e = true)
    (hfeed : S.feed.step P.feed e = some feed)
    (hworld : turn P S.world ((S.feed.applied e).map .frame) = some world) :
    Took P S (.socket e) { S with world := world, feed := feed }
  | poll {read : Option (Int64 × ByteArray)} {world : World}
    (hworld : World.step P.deployment S.world (.poll read) = some world) :
    Took P S (.poll read) { S with world := world }
  | reload {st : ReloadStep} {rest : List ReloadStep} {feed : Feed} {world : World}
    (hpending : S.world.reloading = st :: rest)
    (hfeed : (st.fed.map (S.feed.step P.feed)).getD (some S.feed) = some feed)
    (hworld : World.step P.deployment S.world .reload = some world) :
    Took P S .reload { S with world := world, feed := feed }
  | arrive {endpoint : Endpoint} {query : Option String} {body : ByteArray} {world : World}
    (hworld : World.step P.deployment S.world (.arrive endpoint query body) = some world) :
    Took P S (.arrive endpoint query body) { S with world := world }
  | move {r : ℕ} {m : Move} {i : Input} {q : InFlight} {world : World}
    (hq : S.world.requests[r]? = some q) (hsigns : q.signs m = none)
    (hworld : World.step P.deployment S.world (.move r m i) = some world) :
    Took P S (.move r m i) { S with world := world }
  | sign {r : ℕ} {m : Move} {q : InFlight} {context : List B256}
    (hq : S.world.requests[r]? = some q) (hsigns : q.signs m = some context)
    (hfree : S.waiting.lookup (r, m) = none) :
    Took P S (.sign r m) { S with
      signer := S.signer.call P.signer context
      waiting := S.waiting.insert (r, m) S.signer.calls.length }
  | answer {r : ℕ} {m : Move} {j : ℕ} {call : Call} {signed : Except String (List UInt8 × Address)}
    {world : World} (hwaiting : S.waiting.lookup (r, m) = some j)
    (hcall : S.signer.calls[j]? = some call) (hresult : call.phase.result = some signed)
    (hworld : World.step P.deployment S.world (.move r m ⟨0, signed⟩) = some world) :
    Took P S (.answer r m) { S with world := world, waiting := S.waiting.erase (r, m) }
  | signer {e : SignEvent} {signer : SignerState} (he : e.isOwn = true)
    (hsigner : S.signer.step P.signer e = some signer) :
    Took P S (.signer e) { S with signer := signer }

theorem took_of_step {P : Program} {S S' : System} {e : SystemEvent} (h : S.step P e = some S') :
    Took P S e S' := by
  cases e with
  | socket e =>
    simp only [step, Option.bind_eq_bind, Option.bind_eq_some_iff, Option.guard_eq_some'] at h
    obtain ⟨-, he, feed, hfeed, world, hworld, heq⟩ := h
    exact Option.some.inj heq ▸ .socket he hfeed hworld
  | poll read =>
    obtain ⟨world, hworld, heq⟩ := Option.bind_eq_some_iff.mp h
    exact Option.some.inj heq ▸ .poll hworld
  | reload =>
    obtain ⟨st, hst, h⟩ := Option.bind_eq_some_iff.mp h
    obtain ⟨feed, hfeed, h⟩ := Option.bind_eq_some_iff.mp h
    obtain ⟨world, hworld, heq⟩ := Option.bind_eq_some_iff.mp h
    obtain ⟨rest, hpending⟩ := List.head?_eq_some_iff.mp hst
    exact Option.some.inj heq ▸ .reload hpending hfeed hworld
  | arrive endpoint query body =>
    simp only [step, Option.bind_eq_bind, Option.bind_eq_some_iff] at h
    obtain ⟨world, hworld, heq⟩ := h
    exact Option.some.inj heq ▸ .arrive hworld
  | move r m i =>
    simp only [step, Option.bind_eq_bind, Option.bind_eq_some_iff, Option.guard_eq_some'] at h
    obtain ⟨q, hq, -, hsigns, world, hworld, heq⟩ := h
    exact Option.some.inj heq ▸ .move hq hsigns hworld
  | sign r m =>
    simp only [step, Option.bind_eq_bind, Option.bind_eq_some_iff, Option.guard_eq_some'] at h
    obtain ⟨q, hq, context, hsigns, -, hfree, heq⟩ := h
    exact Option.some.inj heq ▸ .sign hq hsigns hfree
  | answer r m =>
    obtain ⟨j, hwaiting, h⟩ := Option.bind_eq_some_iff.mp h
    obtain ⟨call, hcall, h⟩ := Option.bind_eq_some_iff.mp h
    obtain ⟨signed, hresult, h⟩ := Option.bind_eq_some_iff.mp h
    obtain ⟨world, hworld, heq⟩ := Option.bind_eq_some_iff.mp h
    exact Option.some.inj heq ▸ .answer hwaiting hcall hresult hworld
  | signer e =>
    simp only [step, Option.bind_eq_bind, Option.bind_eq_some_iff, Option.guard_eq_some'] at h
    obtain ⟨-, he, signer, hsigner, heq⟩ := h
    exact Option.some.inj heq ▸ .signer he hsigner

def run (P : Program) (set : TokenSet) (es : List SystemEvent) : Option System :=
  Machine.run (step P) (boot P set) es

end System

end OracleServer
