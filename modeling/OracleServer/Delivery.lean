import OracleServer.HandlerSpec

/-! What stands behind a delivered item: the reads of its request, the frame its context
was signed from, and the checks of the batch-final pass. Every result about delivered
responses is read off `Delivered`. -/
namespace OracleServer

open Interaction Interaction.Contract

abbrev ServerTrace := Trace Server Op Op.Answer

/-- The item resolved against the set that its request read. -/
structure Resolved [Alloy] (H : Assume) (req : OracleRequestTuple) (set : TokenSet)
    (slot : ResolvedSlot) (tr : ServerTrace) : Prop where
  read : ∃ s₀, (⟨s₀, .tokens .request, set⟩ : Entry Server Op Op.Answer) ∈ tr
  assumed : H.sets set
  resolved : resolveSlot set.registry req = .ok slot

/-- `snap` is what the cache held for the symbol when the snapshot was read. -/
def SnapshotRead (D : Deployment) (a : List Symbol) (point : ReadPoint) (symbol : Symbol)
    (snap : QuoteSnapshot) (tr : ServerTrace) (s : Server) : Prop :=
  ∃ s₀ symbols m, (⟨s₀, .snapshotMany point symbols, m⟩ : Entry Server Op Op.Answer) ∈ tr ∧
    AList.lookup symbol m = some snap ∧ s₀.pricing = ClientState.after a s₀.journal ∧
    ClientState.held a s₀.journal (D.chainId, symbol) = some ⟨snap.quote, snap.generation⟩ ∧
    s₀.journal <+: s.journal

/-- The batch-final pass let the slot through. -/
structure Rechecked [RainFloat] (D : Deployment) (a : List Symbol) (H : Assume) (slot : BuiltSlot)
    (set : TokenSet) (t : Int64) (current : QuoteSnapshot) (tr : ServerTrace) (s : Server) :
    Prop where
  tokens : ∃ s₀, (⟨s₀, .tokens .batchFinal, set⟩ : Entry Server Op Op.Answer) ∈ tr
  assumed : H.sets set
  clock : ∃ s₀, (⟨s₀, .nowUnixMs .batchFinal, t⟩ : Entry Server Op Op.Answer) ∈ tr
  readable : H.clock t
  mapped : set.registry.tokens.lookup slot.pair.token = some slot.pair.symbol
  own : CheckedLive D a H (.own .batchFinal) slot.quote.generation tr s
  unexpired : quoteIsLive slot.response.validityExpiryUnixMs t true = true
  snapshot : SnapshotRead D a .batchFinal slot.pair.symbol current tr s
  currentLive : CheckedLive D a H .current current.generation tr s
  base : current.quote.base = slot.pair.token
  quote : current.quote.quote = set.registry.quoteToken
  bound : ∃ effective, effectiveExpiryUnixMs current.quote = .ok effective ∧
    quoteIsLive effective t true = true ∧ slot.response.validityExpiryUnixMs ≤ effective

/-- Everything that stands behind a delivered item. -/
structure Delivered [Alloy] [RainFloat] (D : Deployment) (a : List Symbol) (H : Assume)
    (schema : PairSchema) (req : OracleRequestTuple) (set : TokenSet) (slot : ResolvedSlot)
    (out : BuiltSlot) (finalSet : TokenSet) (t : Int64) (current : QuoteSnapshot)
    (tr : ServerTrace) (s : Server) : Prop where
  resolved : Resolved H req set slot tr
  pair : out.pair = slot.pair
  snapshot : SnapshotRead D a .request slot.pair.symbol out.quote tr s
  built : Built D a H schema slot.pair slot.inputToken slot.outputToken out.quote out.response tr s
  rechecked : Rechecked D a H out finalSet t current tr s

section Stability
variable {D : Deployment} {a : List Symbol} {H : Assume} {tr tr' : ServerTrace} {s s' : Server}

theorem Resolved.later [Alloy] [RainFloat] {req : OracleRequestTuple} {set : TokenSet}
    {slot : ResolvedSlot} (h : Resolved H req set slot tr)
    (hl : (rules D a H).Later tr s tr' s') : Resolved H req set slot tr' := by
  obtain ⟨⟨s₀, hread⟩, hset, hres⟩ := h
  exact ⟨⟨s₀, hl.trace.subset hread⟩, hset, hres⟩

variable [RainFloat]

theorem SnapshotRead.later {point : ReadPoint} {symbol : Symbol} {snap : QuoteSnapshot}
    (h : SnapshotRead D a point symbol snap tr s) (hl : (rules D a H).Later tr s tr' s') :
    SnapshotRead D a point symbol snap tr' s' := by
  obtain ⟨s₀, symbols, m, hmem, hm, hpricing, hheld, hpre⟩ := h
  exact ⟨s₀, symbols, m, hl.trace.subset hmem, hm, hpricing, hheld, hpre.trans hl.rel⟩

theorem Rechecked.later {slot : BuiltSlot} {set : TokenSet} {t : Int64} {current : QuoteSnapshot}
    (h : Rechecked D a H slot set t current tr s) (hl : (rules D a H).Later tr s tr' s') :
    Rechecked D a H slot set t current tr' s' := by
  obtain ⟨s₁, htokens⟩ := h.tokens
  obtain ⟨s₂, hclock⟩ := h.clock
  exact ⟨⟨s₁, hl.trace.subset htokens⟩, h.assumed, ⟨s₂, hl.trace.subset hclock⟩, h.readable,
    h.mapped, h.own.later hl, h.unexpired, h.snapshot.later hl, h.currentLive.later hl, h.base,
    h.quote, h.bound⟩

theorem Delivered.later [Alloy] {schema : PairSchema} {req : OracleRequestTuple} {set : TokenSet}
    {slot : ResolvedSlot} {out : BuiltSlot} {finalSet : TokenSet} {t : Int64}
    {current : QuoteSnapshot}
    (h : Delivered D a H schema req set slot out finalSet t current tr s)
    (hl : (rules D a H).Later tr s tr' s') :
    Delivered D a H schema req set slot out finalSet t current tr' s' :=
  ⟨h.resolved.later hl, h.pair, h.snapshot.later hl, h.built.later hl, h.rechecked.later hl⟩

end Stability

section Reads
variable {D : Deployment} {a : List Symbol} {tr : ServerTrace} {s : Server}

theorem SnapshotRead.key {point : ReadPoint} {symbol : Symbol} {snap : QuoteSnapshot}
    (h : SnapshotRead D a point symbol snap tr s) :
    snap.generation.key = (D.chainId, symbol) := by
  obtain ⟨s₀, -, -, -, -, -, hheld, -⟩ := h
  exact ClientState.held_key hheld

theorem SnapshotRead.member {point : ReadPoint} {symbol : Symbol} {snap : QuoteSnapshot}
    (h : SnapshotRead D a point symbol snap tr s) :
    InGeneration a s.journal snap.generation snap.quote := by
  obtain ⟨s₀, -, -, -, -, -, hheld, hpre⟩ := h
  exact (InGeneration.of_held hheld).mono hpre

/-- What a snapshot found is what the journal says was cached. -/
theorem held_of_snapshot {symbols : List Symbol} {symbol : Symbol} {snap : QuoteSnapshot}
    (hs : s.pricing = ClientState.after a s.journal)
    (h : (s.pricing.cache.snapshotMany D.chainId symbols).lookup symbol = some snap) :
    ClientState.held a s.journal (D.chainId, symbol) = some ⟨snap.quote, snap.generation⟩ := by
  rw [QuoteCache.lookup_snapshotMany] at h
  split at h
  · obtain ⟨entry, hentry, rfl⟩ := Option.map_eq_some_iff.mp h
    unfold ClientState.held
    rw [← hs, hentry]
    rfl
  · cases h

variable [RainFloat] {H : Assume}

/-- The entry that a snapshot leaves in the trace. -/
theorem SnapshotRead.of_entry {tr' : ServerTrace} {s' : Server} {point : ReadPoint}
    {symbols : List Symbol} {symbol : Symbol} {snap : QuoteSnapshot} (hs : Sound D a H s)
    (h : (s.pricing.cache.snapshotMany D.chainId symbols).lookup symbol = some snap)
    (hmem : (⟨s, .snapshotMany point symbols, s.pricing.cache.snapshotMany D.chainId symbols⟩ :
      Entry Server Op Op.Answer) ∈ tr') (hpre : s.journal <+: s'.journal) :
    SnapshotRead D a point symbol snap tr' s' :=
  ⟨s, symbols, _, hmem, h, hs.journal, held_of_snapshot hs.journal h, hpre⟩

end Reads

section Resolution
variable [Alloy]

/-- The final registry check: the token still maps to the symbol. -/
theorem mapped_of_resolve {r : TokenRegistry} {token : Address} {mapping : ResolvedPair}
    (h : r.resolve token r.quoteToken = .ok mapping) :
    r.tokens.lookup token = some mapping.symbol := by
  obtain ⟨hlookup, hcase⟩ := TokenRegistry.resolve_ok h
  rcases hcase with ⟨htoken, hquote, -⟩ | ⟨-, -, htoken, -⟩
  · rw [htoken, hquote]
    exact hlookup
  · rw [htoken]
    exact hlookup

/-- A resolved slot names the token that is not the settlement token. -/
theorem token_of_resolveSlot {r : TokenRegistry} {req : OracleRequestTuple} {slot : ResolvedSlot}
    (h : resolveSlot r req = .ok slot) :
    slot.pair.token = tokenOf slot.pair.direction slot.inputToken slot.outputToken := by
  obtain ⟨-, hcase⟩ := TokenRegistry.resolve_ok (resolveSlot_ok h).2
  rcases hcase with ⟨-, htoken, hdir⟩ | ⟨-, -, htoken, hdir⟩
  · rw [hdir, ← htoken]
    rfl
  · rw [hdir, ← htoken]
    rfl

end Resolution

section Phases
variable [Alloy] [RainFloat] {D : Deployment} {a : List Symbol} {H : Assume} {tr : ServerTrace}
  {s : Server} {schema : PairSchema}

/-- One slot of the batch-final pass. `set`, `t` and `current` were read just before. -/
theorem revalidateSlot_safe {slot : BuiltSlot} {set : TokenSet} {t : Int64}
    {current : Map Symbol QuoteSnapshot} (hsigns : schema.signsExpiry = true)
    (hgen : slot.quote.generation.key.1 = D.chainId)
    (htokens : ∃ s₀, (⟨s₀, .tokens .batchFinal, set⟩ : Entry Server Op Op.Answer) ∈ tr)
    (hset : H.sets set)
    (hclock : ∃ s₀, (⟨s₀, .nowUnixMs .batchFinal, t⟩ : Entry Server Op Op.Answer) ∈ tr)
    (ht : H.clock t)
    (hcurrent : ∀ symbol snap, current.lookup symbol = some snap →
      SnapshotRead D a .batchFinal symbol snap tr s) :
    (rules D a H).SafeOk (fun r t' u => r = slot.response.response ∧
        ∃ snap, Rechecked D a H slot set t snap t' u)
      (revalidateSlot schema.tag schema.signsExpiry t current set.registry slot) tr s := by
  unfold revalidateSlot
  dsimp only
  split
  · exact unavailable_safe (fun _ _ => trivial) _ _ _ _ _
  next mapping hmapping =>
  split
  · exact unavailable_safe (fun _ _ => trivial) _ _ _ _ _
  next hsymbol =>
  have hmapped : set.registry.tokens.lookup slot.pair.token = some slot.pair.symbol := by
    rw [mapped_of_resolve hmapping, not_not.mp hsymbol]
  refine SafeOk.bind ((validateQuoteLiveness_safe _ _ _ _ hgen).mono fun _ t₁ u₁ hl₁ hown => ?_)
  refine SafeOk.bind ((validateExpiryDeadline_safe (fun _ _ => trivial) _ _ _ _ _ _).mono
    fun _ t₂ u₂ hl₂ hunexpired => ?_)
  split
  · exact unavailable_safe (fun _ _ => trivial) _ _ _ _ _
  next snap hsnap =>
  have hread := hcurrent _ _ hsnap
  have hchain : snap.generation.key.1 = D.chainId := by rw [hread.key]
  refine SafeOk.bind ((validateQuoteLiveness_safe _ _ _ _ hchain).mono
    fun _ t₃ u₃ hl₃ hlive => ?_)
  refine SafeOk.bind ((validateQuoteAddress_safe (fun _ _ => trivial) _ _ _ _ _).mono fun _ t₄ u₄ hl₄ haddr => ?_)
  refine SafeOk.bind ((validateQuoteExpiry_safe (fun _ _ => trivial) _ _ _ _ _ _).mono fun _ t₅ u₅ hl₅ hbound => ?_)
  obtain ⟨effective, heffective, hliveAt⟩ := hbound
  rw [hsigns, heffective]
  dsimp only
  split
  · exact unavailable_safe (fun _ _ => trivial) _ _ _ _ _
  next hle =>
  refine SafeOk.pure fun t₆ u₆ hl₆ => ⟨rfl, snap, ?_⟩
  have hl₃₆ := hl₄.trans (hl₅.trans hl₆)
  have hl₁₆ := hl₂.trans (hl₃.trans hl₃₆)
  have hl := hl₁.trans hl₁₆
  obtain ⟨s₁, htokens⟩ := htokens
  obtain ⟨s₂, hclock⟩ := hclock
  rw [hsigns] at hunexpired hliveAt
  exact ⟨⟨s₁, hl.trace.subset htokens⟩, hset, ⟨s₂, hl.trace.subset hclock⟩, ht, hmapped,
    hown.later hl₁₆, hunexpired, hread.later hl, hlive.later hl₃₆, haddr.1, haddr.2,
    ⟨effective, heffective, hliveAt, Int64.not_lt.mp hle⟩⟩

/-- What each phase establishes about item `i` of a request. -/
def ResolvedAt (H : Assume) (items : List OracleRequestTuple) (i : ℕ) :
    Post Server Op Op.Answer ResolvedSlot := fun slot tr _ =>
  ∃ req set, items[i]? = some req ∧ Resolved H req set slot tr

def BuiltAt (D : Deployment) (a : List Symbol) (H : Assume) (schema : PairSchema)
    (items : List OracleRequestTuple) (i : ℕ) : Post Server Op Op.Answer BuiltSlot :=
  fun out tr s => ∃ req set slot, items[i]? = some req ∧ Resolved H req set slot tr ∧
    out.pair = slot.pair ∧ SnapshotRead D a .request slot.pair.symbol out.quote tr s ∧
    Built D a H schema slot.pair slot.inputToken slot.outputToken out.quote out.response tr s

def DeliveredAt (D : Deployment) (a : List Symbol) (H : Assume) (schema : PairSchema)
    (items : List OracleRequestTuple) (i : ℕ) : Post Server Op Op.Answer OracleResponse :=
  fun response tr s => ∃ req set slot out finalSet t current, items[i]? = some req ∧
    Delivered D a H schema req set slot out finalSet t current tr s ∧
    response = out.response.response

variable {items : List OracleRequestTuple}

theorem resolvedAt_stable (i : ℕ) : Stable (rules D a H) (ResolvedAt H items i) := by
  rintro slot t u t' u' hl ⟨req, set, hreq, hres⟩
  exact ⟨req, set, hreq, hres.later hl⟩

theorem builtAt_stable (i : ℕ) : Stable (rules D a H) (BuiltAt D a H schema items i) := by
  rintro out t u t' u' hl ⟨req, set, slot, hreq, hres, hpair, hsnap, hbuilt⟩
  exact ⟨req, set, slot, hreq, hres.later hl, hpair, hsnap.later hl, hbuilt.later hl⟩

theorem deliveredAt_stable (i : ℕ) :
    Stable (rules D a H) (DeliveredAt D a H schema items i) := by
  rintro response t u t' u' hl ⟨req, set, slot, out, finalSet, clock, current, hreq, hd, heq⟩
  exact ⟨req, set, slot, out, finalSet, clock, current, hreq, hd.later hl, heq⟩

theorem resolver_safe :
    (rules D a H).SafeOk (fun resolve t u => ∀ (i : ℕ) req r, items[i]? = some req →
      resolve req = .ok r → ResolvedAt H items i r t u) (pairBound D schema).resolver tr s := by
  refine SafeOk.ask fun t u hl => ⟨trivial, fun i₁ set v _ hp => ?_⟩
  obtain ⟨hset, rfl⟩ := Prod.mk.inj (Option.some.inj hp)
  refine SafeOk.pure fun t' u' hl' i req slot hreq hslot => ?_
  have hmem : (⟨u, .tokens .request, set⟩ : Entry Server Op Op.Answer) ∈ t' :=
    hl'.trace.subset (by simp)
  exact ⟨req, set, hreq, ⟨u, hmem⟩, hset ▸ hl.inv.sets, hslot⟩

theorem builder_safe (hsigns : schema.signsExpiry = true) (slots : List ResolvedSlot) :
    (rules D a H).SafeOk (fun f t u => ∀ i r, ResolvedAt H items i r t u →
        (rules D a H).SafeOk (BuiltAt D a H schema items i) (f r) t u)
      ((pairBound D schema).builder slots) tr s := by
  refine SafeOk.ask fun t u hl => ⟨trivial, fun i₁ m v _ hp => ?_⟩
  obtain ⟨rfl, rfl⟩ := Prod.mk.inj (Option.some.inj hp)
  refine SafeOk.pure fun t' u' hl' i slot hslot => ?_
  obtain ⟨req, set, hreq, hres⟩ := hslot
  split
  · exact unavailable_safe (fun _ _ => trivial) _ _ _ _ _
  next snap hsnap =>
  have hread : SnapshotRead D a .request slot.pair.symbol snap t' u' :=
    .of_entry hl.inv hsnap (hl'.trace.subset (by simp)) hl'.rel
  have hbuild : (rules D a H).SafeOk
      (Built D a H schema slot.pair slot.inputToken slot.outputToken snap)
      (buildResponseFromQuotePairBound D slot.pair snap slot.inputToken slot.outputToken schema)
      t' u' :=
    buildResponse_safe hsigns hread.key (token_of_resolveSlot hres.resolved) hread.member
  refine SafeOk.bind (hbuild.mono fun b t₁ u₁ hl₁ hbuilt => SafeOk.pure fun t₂ u₂ hl₂ => ?_)
  have hl₁₂ := hl₁.trans hl₂
  exact ⟨req, set, slot, hreq, hres.later hl₁₂, rfl, hread.later hl₁₂, hbuilt.later hl₂⟩

theorem rechecker_safe (hsigns : schema.signsExpiry = true) (built : List BuiltSlot) :
    (rules D a H).SafeOk (fun g t u => ∀ i b, BuiltAt D a H schema items i b t u →
        (rules D a H).SafeOk (DeliveredAt D a H schema items i) (g b) t u)
      ((pairBound D schema).rechecker built) tr s := by
  refine SafeOk.ask fun t₁ u₁ hl₁ => ⟨trivial, fun i₁ m v₁ _ hp₁ => ?_⟩
  obtain ⟨rfl, rfl⟩ := Prod.mk.inj (Option.some.inj hp₁)
  refine SafeOk.ask fun t₂ u₂ hl₂ => ⟨trivial, fun i₂ set v₂ _ hp₂ => ?_⟩
  obtain ⟨hset, rfl⟩ := Prod.mk.inj (Option.some.inj hp₂)
  refine SafeOk.ask fun t₃ u₃ hl₃ => ⟨trivial, fun i₃ clock v₃ hi₃ hp₃ => ?_⟩
  obtain ⟨hclock, rfl⟩ := Prod.mk.inj (Option.some.inj hp₃)
  refine SafeOk.pure fun t₄ u₄ hl₄ i out hout => ?_
  obtain ⟨req, readSet, slot, hreq, hres, hpair, hsnap, hbuilt⟩ := hout
  have htokens : (⟨u₂, .tokens .batchFinal, set⟩ : Entry Server Op Op.Answer) ∈ t₄ :=
    hl₄.trace.subset (List.mem_append_left _ (hl₃.trace.subset (by simp)))
  have hreading : (⟨u₃, .nowUnixMs .batchFinal, clock⟩ : Entry Server Op Op.Answer) ∈ t₄ :=
    hl₄.trace.subset (by simp)
  have hcurrent : ∀ symbol snap,
      (u₁.pricing.cache.snapshotMany D.chainId (built.map fun s => s.pair.symbol)).lookup symbol =
        some snap → SnapshotRead D a .batchFinal symbol snap t₄ u₄ := by
    intro symbol snap h
    refine .of_entry hl₁.inv h (hl₄.trace.subset (List.mem_append_left _ (hl₃.trace.subset
      (List.mem_append_left _ (hl₂.trace.subset ?_))))) (hl₂.rel.trans (hl₃.rel.trans hl₄.rel))
    simp
  have hgen : out.quote.generation.key.1 = D.chainId := by rw [hsnap.key]
  have hsets : H.sets set := hset ▸ hl₂.inv.sets
  have hreadable : H.clock clock := hclock ▸ hi₃
  refine (revalidateSlot_safe hsigns hgen ⟨u₂, htokens⟩ hsets ⟨u₃, hreading⟩ hreadable
    hcurrent).mono fun response t₅ u₅ hl₅ hre => ?_
  obtain ⟨heq, snap, hrechecked⟩ := hre
  exact ⟨req, readSet, slot, out, set, clock, snap, hreq,
    ⟨hres.later hl₅, hpair, hsnap.later hl₅, hbuilt.later hl₅, hrechecked⟩, heq⟩

/-- What a request owes to whoever reads its answer. -/
def Delivers [Abi] (D : Deployment) (a : List Symbol) (H : Assume) (endpoint : Endpoint)
    (body : ByteArray) : Post Server Op Op.Answer (Except AppError ContextResponse) :=
  fun result tr s => ∀ response (i : ℕ) r, result = .ok response → response.okAt i = some r →
    ∃ schema decoded, endpoint = .pair schema ∧ schema.signsExpiry = true ∧
      decodeRequestBody body = .ok decoded ∧ DeliveredAt D a H schema decoded.items i r tr s

theorem serve_pairBound_safe {query : ContextQuery} {decoded : DecodedRequest}
    (hs : Sound D a H s) :
    (rules D a H).SafeParOk (fun response t u => ∀ i r, response.okAt i = some r →
        (Endpoint.pair schema).legacy = false ∧ DeliveredAt D a H schema decoded.items i r t u)
      (serve (pairBound D schema) (.pair schema) query decoded) tr s :=
  serve_safe (fun _ _ => trivial) hs resolvedAt_stable builtAt_stable deliveredAt_stable
    resolver_safe
    (fun hlegacy slots _ _ => builder_safe (signsExpiry_of_not_legacy hlegacy) slots)
    (fun hlegacy built _ _ => rechecker_safe (signsExpiry_of_not_legacy hlegacy) built)

omit [RainFloat] in
/-- `v1` delivers nothing signed, whatever it runs beside. -/
theorem serve_legacyV1_safe {C : Contract Server Input Op Op.Answer} {query : ContextQuery}
    {decoded : DecodedRequest} (hcount : ∀ m s, C.Pre (.count m) s)
    (htokens : ∀ s, C.Pre (.tokens .request) s) (hs : C.Inv s) :
    C.SafeParOk (fun response _ _ => ∀ i r, response.okAt i = some r →
        Endpoint.v1.legacy = false ∧ True)
      (serve legacyV1 .v1 query decoded) tr s := by
  have hstable : ∀ {α : Type}, ℕ → Stable C (fun (_ : α) _ _ => True) :=
    fun _ _ _ _ _ _ _ _ => trivial
  refine serve_safe hcount hs hstable hstable hstable ?_ ?_ ?_
  · refine SafeOk.ask fun t u _ => ⟨htokens u, fun _ _ _ _ _ => ?_⟩
    exact SafeOk.pure fun _ _ _ _ _ _ _ _ => trivial
  · intro hlegacy
    cases hlegacy
  · intro hlegacy
    cases hlegacy

/-- Every endpoint answers with items of known origin only. -/
theorem handler_safe [Abi] {endpoint : Endpoint} {query : Option String} {body : ByteArray}
    (hs : Sound D a H s) :
    (rules D a H).SafePar (Delivers D a H endpoint body) (handler D endpoint query body) tr s := by
  cases endpoint with
  | v1 =>
    refine SafePar.mono hs (postSignedContext_safe (fun _ _ => trivial) hs (fun _ _ _ _ _ _ _ h => h)
      fun decoded => serve_legacyV1_safe (fun _ _ => trivial) (fun _ => trivial) hs) fun result t u _ h response i r hresult hr => ?_
    obtain ⟨decoded, -, hnone⟩ := h response hresult
    exact absurd (hnone i r hr).1 (by decide)
  | pair schema =>
    have hstable : ∀ decoded : DecodedRequest, Stable (rules D a H) fun response t u =>
        ∀ i r, ContextResponse.okAt i response = some r → (Endpoint.pair schema).legacy = false ∧
          DeliveredAt D a H schema decoded.items i r t u := by
      intro decoded response t u t' u' hl h i r hr
      exact ⟨(h i r hr).1, deliveredAt_stable i r t u t' u' hl (h i r hr).2⟩
    refine SafePar.mono hs (postSignedContext_safe (fun _ _ => trivial) hs hstable
      fun decoded => serve_pairBound_safe hs) fun result t u _ h response i r hresult hr => ?_
    obtain ⟨decoded, hdecoded, hall⟩ := h response hresult
    obtain ⟨hlegacy, hdelivered⟩ := hall i r hr
    exact ⟨schema, decoded, rfl, signsExpiry_of_not_legacy hlegacy, hdecoded, hdelivered⟩

end Phases

end OracleServer
