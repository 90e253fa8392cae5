import OracleServer.Slots
import OracleServer.WorldSafety

/-! What every signed response that leaves the server guarantees, in every run of the
whole server: it is alive and within the producer's bound, it comes from one frame that
no eviction separates from the answer, it states that frame faithfully, and it binds the
right token. -/
namespace OracleServer

open Interaction Interaction.Contract

section Views
variable [Alloy] [Abi]

/-- Item `i` of the request is `req`, and resolved to `slot` in the set that the request read. -/
def InFlight.Resolves (q : InFlight) (i : ℕ) (req : OracleRequestTuple) (slot : ResolvedSlot) :
    Prop :=
  ∃ decoded s₀, decodeRequestBody q.body = .ok decoded ∧ decoded.items[i]? = some req ∧
    OnlyTokens q.task.trace .request s₀ ∧ resolveSlot s₀.tokens.registry req = .ok slot

end Views

/-- `snap` is what the cache held for the symbol at the only snapshot taken at `point`. -/
def InFlight.Snapshotted (D : Deployment) (q : InFlight) (point : ReadPoint) (symbol : Symbol)
    (snap : QuoteSnapshot) : Prop :=
  ∃ s₀ m, OnlySnapshot q.task.trace point s₀ m ∧ m.lookup symbol = some snap ∧
    s₀.pricing.cache.entries.lookup (D.chainId, symbol) = some ⟨snap.quote, snap.generation⟩

/-- The request's batch-final check found `g` live, in the state `s₀`. -/
def InFlight.FoundLive (q : InFlight) (check : LiveCheck) (g : QuoteGeneration) (s₀ : Server) :
    Prop :=
  (⟨s₀, .isLive check g, true⟩ : Entry Server Op Op.Answer) ∈ q.task.trace

section Backing
variable {D : Deployment} {a : List Symbol} {H : Assume} {q : InFlight} {s : Server}

theorem SnapshotRead.snapshotted {point : ReadPoint} {symbol : Symbol} {snap : QuoteSnapshot}
    (h : SnapshotRead D a point symbol snap q.task.trace s) (hordered : Ordered q.task.trace)
    (hpoint : point = .request ∨ point = .batchFinal) : q.Snapshotted D point symbol snap := by
  obtain ⟨s₀, symbols, m, hmem, hm, hpricing, hheld, -⟩ := h
  refine ⟨s₀, m, hordered.onlySnapshot hpoint hmem, hm, ?_⟩
  rw [hpricing]
  exact hheld

theorem Genuine.tokens [RainFloat] {tr : ServerTrace} (h : Genuine D a H tr s) {s₀ : Server}
    {point : ReadPoint} {set : TokenSet}
    (hmem : (⟨s₀, .tokens point, set⟩ : Entry Server Op Op.Answer) ∈ tr) : set = s₀.tokens := by
  obtain ⟨-, -, i, s', hp⟩ := h _ hmem
  exact (Prod.mk.inj (Option.some.inj hp)).1.symm

variable [Toml] [Alloy] [Unicode] [RainFloat] [Abi]

/-- Everything that stands behind a delivered response: the item, the slot it built, the
state `s₁`, the clock reading `t` and the quote `current` of the closing pass. -/
structure Backed (D : Deployment) (a : List Symbol) (H : Assume) (w : World) (q : InFlight) (i : ℕ)
    (r : OracleResponse) (schema : PairSchema) (req : OracleRequestTuple) (slot : ResolvedSlot)
    (out : BuiltSlot) (s₁ : Server) (t : Int64) (current : QuoteSnapshot) : Prop where
  endpoint : q.endpoint = .pair schema
  signs : schema.signsExpiry = true
  resolves : q.Resolves i req slot
  resolved : ∃ set, H.sets set ∧ resolveSlot set.registry req = .ok slot
  snapshot : q.Snapshotted D .request slot.pair.symbol out.quote
  key : out.quote.generation.key = (D.chainId, slot.pair.symbol)
  built : Built D a H schema slot.pair slot.inputToken slot.outputToken out.quote out.response
    q.task.trace w.server
  pair : out.pair = slot.pair
  tokens : OnlyTokens q.task.trace .batchFinal s₁
  clock : ClosingClock q.task.trace t
  closing : q.Snapshotted D .batchFinal slot.pair.symbol current
  rechecked : Rechecked D a H out s₁.tokens t current q.task.trace w.server
  genuine : Genuine D a H q.task.trace w.server
  response : r = out.response.response

theorem backed_of_run (hH : H.Closed D.staticConfig) {set : TokenSet} (hset : H.sets set)
    {es : List Event} {w : World} (hes : ∀ e ∈ es, e.Clocked H.clock)
    (hrun : World.run D (.boot set) es = some w) (hq : q ∈ w.requests) {i : ℕ}
    {r : OracleResponse} (hr : q.Delivered i r) :
    ∃ schema req slot out s₁ t current,
      Backed D set.symbols H w q i r schema req slot out s₁ t current := by
  obtain ⟨hordered, hgenuine, schema, decoded, hep, hsigns, hdecoded, hat⟩ :=
    delivered_of_run hH hset hes hrun hq hr
  obtain ⟨req, readSet, slot, out, finalSet, t, current, hreq, hd, heq⟩ := hat
  obtain ⟨s₀, hread⟩ := hd.resolved.read
  obtain ⟨s₁, hfinal⟩ := hd.rechecked.tokens
  have hreadSet := hgenuine.tokens hread
  have hfinalSet := hgenuine.tokens hfinal
  subst hreadSet hfinalSet
  have hclosing := hd.rechecked.snapshot.snapshotted hordered (.inr rfl)
  rw [hd.pair] at hclosing
  exact ⟨schema, req, slot, out, s₁, t, current,
    { endpoint := hep
      signs := hsigns
      resolves := ⟨decoded, s₀, hdecoded, hreq, hordered.onlyTokens (.inl rfl) hread,
        hd.resolved.resolved⟩
      resolved := ⟨s₀.tokens, hd.resolved.assumed, hd.resolved.resolved⟩
      snapshot := hd.snapshot.snapshotted hordered (.inl rfl)
      key := hd.snapshot.key
      built := hd.built
      pair := hd.pair
      tokens := hordered.onlyTokens (.inr rfl) hfinal
      clock := hordered.closingClock hd.rechecked.clock
      closing := hclosing
      rechecked := hd.rechecked
      genuine := hgenuine
      response := heq }⟩

end Backing

section Expiry
variable [RainFloat]

/-- `E` is the second that slot 8 of the response signs. -/
def OracleResponse.Signs (r : OracleResponse) (E : UInt64) : Prop :=
  ∃ slot, r.context[expirySlot]? = some slot ∧ Encodes slot E

/-- What a signed response is valid until, in whole seconds, is the expiry it signs. -/
theorem Built.signs {D : Deployment} {a : List Symbol} {H : Assume} {schema : PairSchema}
    {pair : ResolvedPair} {x y : Address} {snap : QuoteSnapshot} {b : BuiltResponse}
    {tr : ServerTrace} {s : Server} (hsigns : schema.signsExpiry = true)
    (h : Built D a H schema pair x y snap b tr s) (hpos : 0 ≤ b.validityExpiryUnixMs.toInt) :
    ∃ E, b.response.Signs E ∧ (E.toNat : ℤ) = b.validityExpiryUnixMs.toInt / 1000 := by
  obtain ⟨F, context, expiry, bound, h⟩ := h
  obtain ⟨publish, session, price, -, -, -, -, hcontext⟩ := h.signed.builds
  refine ⟨expiry, (buildContext_ok hsigns hcontext).1.expiry, ?_⟩
  rcases h.origin with ⟨rfl, heffective⟩ | ⟨hsecs, -⟩
  · exact h.signed.builds.floor heffective hpos
  · rw [secsToMillis_some hsecs]
    omega

variable [Toml] [Alloy] [Unicode] [Abi]

/-- The clock reading and the quote that bound a delivered expiry. -/
structure Unexpired (D : Deployment) (q : InFlight) (i : ℕ) (r : OracleResponse) (symbol : Symbol)
    (t : Int64) (current : QuoteSnapshot) (E : UInt64) : Prop where
  item : ∃ req slot, q.Resolves i req slot ∧ slot.pair.symbol = symbol
  clock : ClosingClock q.task.trace t
  snapshot : q.Snapshotted D .batchFinal symbol current
  signs : r.Signs E
  alive : t.toInt / 1000 < E.toNat
  within : ∃ d, current.quote.executionDeadlineUnixMs = some d ∧ 0 < d.toInt ∧
    t.toInt < min current.quote.expiryUnixMs.toInt d.toInt ∧
    t.toInt / 1000 < min current.quote.expiryUnixMs.toInt d.toInt / 1000 ∧
    E.toNat ≤ min current.quote.expiryUnixMs.toInt d.toInt / 1000
  found : ∃ s₀, q.FoundLive .current current.generation s₀

/-- No delivered signature is expired or outlives the producer's current bound; the
schemas that sign no expiry deliver nothing. -/
theorem delivered_is_unexpired (D : Deployment) (set : TokenSet) (es : List Event) (w : World)
    (hclock : ∀ e ∈ es, e.Clocked fun t => 0 ≤ t.toInt)
    (hrun : World.run D (.boot set) es = some w) (q : InFlight) (hq : q ∈ w.requests) (i : ℕ)
    (r : OracleResponse) (hr : q.Delivered i r) :
    (∃ schema, q.endpoint = .pair schema ∧ schema ≠ .v4) ∧
      ∃ symbol t current E, Unexpired D q i r symbol t current E := by
  have hclosed : Assume.Closed ⟨fun t => 0 ≤ t.toInt, fun _ => True⟩ D.staticConfig :=
    ⟨fun _ _ => trivial, fun _ _ _ => trivial⟩
  obtain ⟨schema, req, slot, out, s₁, t, current, h⟩ :=
    backed_of_run hclosed trivial hclock hrun hq hr
  obtain ⟨hlt, hsecs⟩ := quoteIsLive_signs h.rechecked.unexpired
  have ht : 0 ≤ t.toInt := h.rechecked.readable
  obtain ⟨E, hE, hfloor⟩ := h.built.signs h.signs (by omega)
  obtain ⟨effective, heffective, hlive, hle⟩ := h.rechecked.bound
  obtain ⟨d, hd, hdpos, hmin⟩ := effectiveExpiry_ok heffective
  obtain ⟨hlive, hliveSecs⟩ := quoteIsLive_signs hlive
  rw [Int64.le_iff_toInt_le] at hle
  rw [hmin] at hle hlive hliveSecs
  obtain ⟨s₀, hfound, -⟩ := h.rechecked.currentLive
  refine ⟨⟨schema, h.endpoint, fun hv4 => ?_⟩, slot.pair.symbol, t, current, E, ?_⟩
  · have := h.signs
    rw [hv4] at this
    exact absurd this (by decide)
  · exact
      { item := ⟨req, slot, h.resolves, rfl⟩
        clock := h.clock
        snapshot := h.closing
        signs := h.response ▸ hE
        alive := by omega
        within := ⟨d, hd, hdpos, hlive, hliveSecs, by omega⟩
        found := ⟨s₀, hfound⟩ }

end Expiry

namespace Sample

theorem unexpired_on_base : ∃ w q r, World.run deployment (.boot bootSet) events = some w ∧
    q ∈ w.requests ∧ q.Delivered 0 r ∧
    ∃ symbol t current E, Unexpired deployment q 0 r symbol t current E := by
  obtain ⟨w, q, r, hrun, hq, hr⟩ := run_delivers
  have h := delivered_is_unexpired deployment bootSet events w events_clocked hrun q hq 0 r hr
  exact ⟨w, q, r, hrun, hq, hr, h.2⟩

end Sample

section Evictions
variable [Toml] [Alloy] [Unicode] [RainFloat] [Abi]

/-- No signed context crosses an eviction: whatever was evicted before the closing check of
the request's own snapshot, the whole context was computed from one frame after it. -/
theorem no_context_crosses_an_eviction (D : Deployment) (set : TokenSet) (es : List Event)
    (w : World) (hrun : World.run D (.boot set) es = some w) (q : InFlight)
    (hq : q ∈ w.requests) (i : ℕ) (r : OracleResponse) (hr : q.Delivered i r) :
    ∃ schema req slot snap, q.endpoint = .pair schema ∧ q.Resolves i req slot ∧
      q.Snapshotted D .request slot.pair.symbol snap ∧
      snap.generation.key = (D.chainId, slot.pair.symbol) ∧
      (∃ s₀, q.FoundLive (.own .batchFinal) snap.generation s₀) ∧
      ∀ s₀ before e since, q.FoundLive (.own .batchFinal) snap.generation s₀ →
        s₀.journal = before ++ e :: since → e.Evicts (D.chainId, slot.pair.symbol) →
        ∃ m₁ p m₂ expiry, w.server.journal = before ++ e :: (m₁ ++ .frame (.price p) :: m₂) ∧
          Accepted (ClientState.after set.symbols (before ++ e :: m₁)).assets p
            (D.chainId, slot.pair.symbol) ∧
          Builds D.chainId schema slot.pair.direction (Quote.ofPrice p) slot.inputToken
            slot.outputToken r.context expiry := by
  have hclosed : Assume.Closed ⟨fun _ => True, fun _ => True⟩ D.staticConfig :=
    ⟨fun _ _ => trivial, fun _ _ _ => trivial⟩
  obtain ⟨schema, req, slot, out, s₁, t, current, h⟩ :=
    backed_of_run hclosed trivial (fun e _ => e.clocked_true) hrun hq hr
  obtain ⟨s₀, hfound, -⟩ := h.rechecked.own
  refine ⟨schema, req, slot, out.quote, h.endpoint, h.resolves, h.snapshot, h.key,
    ⟨s₀, hfound⟩, ?_⟩
  intro s₀ before e since hfound hjournal hevicts
  obtain ⟨hsound, hpre, i', s', hp⟩ := h.genuine _ hfound
  have hlive : ClientState.live set.symbols (before ++ e :: since) out.quote.generation := by
    rw [← hjournal]
    unfold ClientState.live
    rw [← hsound.journal]
    exact (Prod.mk.inj (Option.some.inj hp)).1
  obtain ⟨rest, hrest⟩ := hpre
  rw [hjournal] at hrest
  have hlog : w.server.journal = before ++ e :: (since ++ rest) := by
    rw [← hrest]
    simp
  obtain ⟨F, context, expiry, bound, hbuilt⟩ := h.built
  have hin := hbuilt.member
  rw [hlog] at hin
  obtain ⟨m₁, p, m₂, hsince, hacc, rfl⟩ := hin.after_evict hlive (h.key ▸ hevicts)
  rw [h.key] at hacc
  exact ⟨m₁, p, m₂, expiry, hsince ▸ hlog, hacc, h.response ▸ hbuilt.signed.builds⟩

end Evictions

namespace Sample

def halt : ClientEvent := .frame (.halt ⟨"wtCOIN", 8453, true⟩)

/-- The closing check of the run's only request comes after the halt and the newer price. -/
def checkedAfterHalt (e : Entry Server Op Op.Answer) : Bool :=
  match e.op with
  | .isLive (.own .batchFinal) g => g.key = (8453, "wtCOIN") && e.state.journal =
      [.frame (.price (price 1700000060000)), halt, .frame (.price (price 1700000090000))]
  | _ => true

theorem checks_after_halt : (World.run deployment (.boot bootSet) events).all
    (fun w => w.requests.all fun q => q.task.trace.all checkedAfterHalt) = true := by
  decide +kernel

/-- The request of the run delivers a context that was built from a price after the halt. -/
theorem no_crossing_on_base : ∃ w q r, World.run deployment (.boot bootSet) events = some w ∧
    q ∈ w.requests ∧ q.Delivered 0 r ∧ ∃ before schema, ∃ slot : ResolvedSlot, ∃ m₁ p m₂ expiry,
      w.server.journal = before ++ halt :: (m₁ ++ .frame (.price p) :: m₂) ∧
      Builds 8453 schema slot.pair.direction (Quote.ofPrice p) slot.inputToken slot.outputToken
        r.context expiry := by
  obtain ⟨w, q, r, hrun, hq, hr⟩ := run_delivers
  obtain ⟨schema, req, slot, snap, -, -, -, hkey, ⟨s₀, hfound⟩, hafter⟩ :=
    no_context_crosses_an_eviction deployment bootSet events w hrun q hq 0 r hr
  have hchecks := checks_after_halt
  rw [hrun, Option.all_some, List.all_eq_true] at hchecks
  have hcheck := List.all_eq_true.mp (hchecks q hq) _ hfound
  simp only [checkedAfterHalt, Bool.and_eq_true, decide_eq_true_eq] at hcheck
  have hsymbol : (deployment.chainId, slot.pair.symbol) = ((8453 : UInt64), "wtCOIN") :=
    hkey.symm.trans hcheck.1
  have hevicts : halt.Evicts (deployment.chainId, slot.pair.symbol) := by
    rw [hsymbol]
    exact ⟨rfl, rfl⟩
  obtain ⟨m₁, p, m₂, expiry, hlog, -, hbuilds⟩ :=
    hafter s₀ [.frame (.price (price 1700000060000))] halt _ hfound hcheck.2 hevicts
  exact ⟨w, q, r, hrun, hq, hr, _, schema, slot, m₁, p, m₂, expiry, hlog, hbuilds⟩

end Sample

section Statements
variable [RainFloat]

/-- A context signed while the clock read a time from 1970 on is dated by its quote. -/
theorem SignedFrom.dates {D : Deployment} {H : Assume} {schema : PairSchema}
    {direction : PriceDirection} {x y : Address} {F : Quote} {context : List B256} {E : UInt64}
    (hclock : ∀ t, H.clock t → 0 ≤ t.toInt) (hsigns : schema.signsExpiry = true)
    (h : SignedFrom D H schema direction x y F context E) : Dates F context E := by
  obtain ⟨e, t, he, ht, hlive⟩ := h.live
  have hnow := hclock t ht
  have hlater := (quoteIsLive_signs hlive).1
  exact h.builds.dates hsigns he (by omega)

variable [Toml] [Alloy] [Unicode] [Abi]

/-- `r` states the snapshot `snap` of its request, and is dated by the frame `F`. -/
structure Faithful (D : Deployment) (a : List Symbol) (w : World) (q : InFlight) (i : ℕ)
    (r : OracleResponse) (schema : PairSchema) (slot : ResolvedSlot) (snap : QuoteSnapshot)
    (F : Quote) (E : UInt64) : Prop where
  endpoint : q.endpoint = .pair schema ∧ schema.signsExpiry = true
  item : ∃ req, q.Resolves i req slot ∧ ioTokensFor req.order req.inputIOIndex req.outputIOIndex =
    .ok (slot.inputToken, slot.outputToken)
  snapshot : q.Snapshotted D .request slot.pair.symbol snap
  builds : ∃ context bound, Builds D.chainId schema slot.pair.direction snap.quote slot.inputToken
    slot.outputToken context bound ∧ r.context.length = context.length ∧
    ∀ j, j ≠ publishTimeSlot → j ≠ expirySlot → r.context[j]? = context[j]?
  states : States D.chainId schema slot.pair.direction snap.quote slot.inputToken slot.outputToken
    r.context
  dates : Dates F r.context E
  bounded : ∃ bound, snap.quote.ExpiresAt bound ∧ E.toNat ≤ bound
  generation : InGeneration a w.server.journal snap.generation F
  live : ∃ s₀, q.FoundLive (.own .batchFinal) snap.generation s₀
  origin : F = snap.quote ∨ ∃ s₀ key stored, stored.response = r ∧
    (⟨s₀, .reuseGet key, some stored⟩ : Entry Server Op Op.Answer) ∈ q.task.trace

/-- Every delivered context states the request's own snapshot, and takes both its dates
from one frame of the same generation: the snapshot's, unless it was reused. -/
theorem delivered_states_its_snapshot (D : Deployment) (set : TokenSet) (es : List Event)
    (w : World) (hclock : ∀ e ∈ es, e.Clocked fun t => 0 ≤ t.toInt)
    (hrun : World.run D (.boot set) es = some w) (q : InFlight) (hq : q ∈ w.requests) (i : ℕ)
    (r : OracleResponse) (hr : q.Delivered i r) :
    ∃ schema slot snap F E, Faithful D set.symbols w q i r schema slot snap F E := by
  have hclosed : Assume.Closed ⟨fun t => 0 ≤ t.toInt, fun _ => True⟩ D.staticConfig :=
    ⟨fun _ _ => trivial, fun _ _ _ => trivial⟩
  obtain ⟨schema, req, slot, out, s₁, t, current, h⟩ :=
    backed_of_run hclosed trivial hclock hrun hq hr
  obtain ⟨F, context, E, bound, hbuilt⟩ := h.built
  obtain ⟨set', -, hresolve⟩ := h.resolved
  obtain ⟨s₀, hfound, -⟩ := h.rechecked.own
  obtain ⟨hlen, hslots⟩ := sameStatement_slots hbuilt.same
  have hdates : Dates F r.context E := h.response ▸ hbuilt.signed.dates (fun _ ht => ht) h.signs
  have hbound := (hbuilt.own.dates (fun _ ht => ht) h.signs).bound
  have hstates := (hbuilt.own.builds.states h.signs).congr hslots
  refine ⟨schema, slot, out.quote, F, E,
    { endpoint := ⟨h.endpoint, h.signs⟩
      item := ⟨req, h.resolves, (resolveSlot_ok hresolve).1⟩
      snapshot := h.snapshot
      builds := ⟨context, bound, hbuilt.own.builds, h.response ▸ hlen, h.response ▸ hslots⟩
      states := h.response ▸ hstates
      dates := hdates
      bounded := ⟨_, hbound, ?_⟩
      generation := hbuilt.member
      live := ⟨s₀, hfound⟩
      origin := ?_ }⟩
  · have hle := UInt64.le_iff_toNat_le.mp hbuilt.bounded
    omega
  · rcases hbuilt.origin with ⟨hF, -⟩ | ⟨-, s₂, stored, hmem, hstored⟩
    · exact .inl hF
    · exact .inr ⟨s₂, _, stored, hstored.trans h.response.symm, hmem⟩

end Statements

namespace Sample

theorem faithful_on_base : ∃ w q r, World.run deployment (.boot bootSet) events = some w ∧
    q ∈ w.requests ∧ q.Delivered 0 r ∧ ∃ schema slot snap F E,
      Faithful deployment bootSet.symbols w q 0 r schema slot snap F E := by
  obtain ⟨w, q, r, hrun, hq, hr⟩ := run_delivers
  have h := delivered_states_its_snapshot deployment bootSet events w events_clocked hrun q hq 0 r hr
  exact ⟨w, q, r, hrun, hq, hr, h⟩

end Sample

section Binding
variable [Toml] [Alloy] [Unicode] [RainFloat] [Abi]

/-- The token of the item and the settlement token, as the request names them. -/
structure Trades (req : OracleRequestTuple) (slot : ResolvedSlot) (settlement : Address) : Prop where
  input : ∃ io, req.order.validInputs[toUsize req.inputIOIndex]? = some io ∧
    io.token = slot.inputToken
  output : ∃ io, req.order.validOutputs[toUsize req.outputIOIndex]? = some io ∧
    io.token = slot.outputToken
  one : (slot.inputToken = settlement ∧ slot.outputToken = slot.pair.token) ∨
    (slot.inputToken = slot.pair.token ∧ slot.outputToken = settlement)
  other : slot.pair.token ≠ settlement

/-- `q` is priced for the token of the slot, in the settlement token. -/
def Quote.PricedFor (q : Quote) (slot : ResolvedSlot) (settlement : Address) : Prop :=
  q.base = slot.pair.token ∧ q.quote = settlement

/-- Everything a delivered item says about tokens. `F` is the frame it was signed from. -/
structure BindsToken (D : Deployment) (q : InFlight) (i : ℕ) (r : OracleResponse)
    (settlement : Address) (slot : ResolvedSlot) (s₁ : Server) (snap current : QuoteSnapshot)
    (F : Quote) : Prop where
  item : ∃ req, q.Resolves i req slot ∧ Trades req slot settlement
  input : r.context[6]? = some (leftPadding slot.inputToken)
  output : r.context[7]? = some (leftPadding slot.outputToken)
  final : OnlyTokens q.task.trace .batchFinal s₁
  settles : s₁.tokens.registry.quoteToken = settlement
  mapped : s₁.tokens.registry.tokens.lookup slot.pair.token = some slot.pair.symbol
  snapshot : q.Snapshotted D .request slot.pair.symbol snap ∧ snap.quote.PricedFor slot settlement
  signed : (∃ schema expiry, q.endpoint = .pair schema ∧ Builds D.chainId schema slot.pair.direction
    F slot.inputToken slot.outputToken r.context expiry) ∧ F.PricedFor slot settlement
  closing : q.Snapshotted D .batchFinal slot.pair.symbol current ∧
    current.quote.PricedFor slot settlement

/-- A change of the running set never lets a signature bind a token to the price of
another one. -/
theorem delivered_binds_its_token [LawfulSerde] (D : Deployment) (set : TokenSet)
    (hset : Accepts D.staticConfig set) (es : List Event) (w : World)
    (hrun : World.run D (.boot set) es = some w) (q : InFlight) (hq : q ∈ w.requests) (i : ℕ)
    (r : OracleResponse) (hr : q.Delivered i r) :
    ∃ slot s₁ snap current F,
      BindsToken D q i r set.registry.quoteToken slot s₁ snap current F := by
  have hclosed : Assume.Closed ⟨fun _ => True, Accepts D.staticConfig⟩ D.staticConfig :=
    ⟨fun _ h => h, fun _ g h => accepts_generation h g⟩
  obtain ⟨schema, req, slot, out, s₁, t, current, h⟩ :=
    backed_of_run hclosed hset (fun e _ => e.clocked_true) hrun hq hr
  have hquote : ∀ set', Accepts D.staticConfig set' →
      set'.registry.quoteToken = set.registry.quoteToken := fun _ h' => accepts_quote h' hset
  obtain ⟨set', hset', hresolve⟩ := h.resolved
  obtain ⟨htokens, hpair⟩ := resolveSlot_ok hresolve
  obtain ⟨hinput, houtput⟩ := ioTokensFor_ok htokens
  obtain ⟨hlookup, hcase⟩ := TokenRegistry.resolve_ok hpair
  have hother : slot.pair.token ≠ set.registry.quoteToken := by
    intro heq
    rw [← hquote set' hset'] at heq
    rw [heq, accepts_quote_unlisted hset'] at hlookup
    cases hlookup
  have hone : (slot.inputToken = set.registry.quoteToken ∧ slot.outputToken = slot.pair.token) ∨
      (slot.inputToken = slot.pair.token ∧ slot.outputToken = set.registry.quoteToken) := by
    rw [← hquote set' hset']
    rcases hcase with ⟨hin, hout, -⟩ | ⟨-, hout, hin, -⟩
    · exact .inl ⟨hin, hout⟩
    · exact .inr ⟨hin, hout⟩
  obtain ⟨F, context, E, bound, hbuilt⟩ := h.built
  have hstates := hbuilt.signed.builds.states h.signs
  have hpriced : ∀ {F : Quote} {context : List B256} {E : UInt64}, SignedFrom D
      ⟨fun _ => True, Accepts D.staticConfig⟩ schema slot.pair.direction slot.inputToken
      slot.outputToken F context E → F.PricedFor slot set.registry.quoteToken := by
    intro F context E hsigned
    obtain ⟨set'', hset'', hF⟩ := hsigned.settles
    rw [hquote set'' hset''] at hF
    exact ⟨hsigned.base.trans (token_of_resolveSlot hresolve).symm, hF⟩
  have hfinal := hquote s₁.tokens h.rechecked.assumed
  have hmapped := h.rechecked.mapped
  have hbase := h.rechecked.base
  rw [h.pair] at hmapped hbase
  exact ⟨slot, s₁, out.quote, current, F,
    { item := ⟨req, h.resolves, hinput, houtput, hone, hother⟩
      input := h.response ▸ hstates.input
      output := h.response ▸ hstates.output
      final := h.tokens
      settles := hfinal
      mapped := hmapped
      snapshot := ⟨h.snapshot, hpriced hbuilt.own⟩
      signed := ⟨⟨schema, E, h.endpoint, h.response ▸ hbuilt.signed.builds⟩, hpriced hbuilt.signed⟩
      closing := ⟨h.closing, hbase, h.rechecked.quote.trans hfinal⟩ }⟩

end Binding

namespace Sample

theorem binds_on_base : ∃ w q r, World.run deployment (.boot bootSet) events = some w ∧
    q ∈ w.requests ∧ q.Delivered 0 r ∧ ∃ slot s₁ snap current F,
      BindsToken deployment q 0 r bootSet.registry.quoteToken slot s₁ snap current F := by
  obtain ⟨w, q, r, hrun, hq, hr⟩ := run_delivers
  have h := delivered_binds_its_token deployment bootSet bootSet_accepted events w hrun q hq 0 r hr
  exact ⟨w, q, r, hrun, hq, hr, h⟩

end Sample

end OracleServer
