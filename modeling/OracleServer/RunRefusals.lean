import OracleServer.ItemRuns
import OracleServer.Justified
import OracleServer.StandStill

/-! Every error a request answers with. An item is refused because it does not resolve,
because its schema is retired, or for a `Cause` in what the request read for all items and
what was asked for this one. -/
namespace OracleServer

open Interaction Interaction.Contract

/-- Why item `i` of a request is answered with the error. The trace is what the request
read for all of its items and what it asked for this one. -/
inductive Refused [Alloy] [RainFloat] (D : Deployment) (a : List Symbol) (endpoint : Endpoint)
    (items : List OracleRequestTuple) (i : ℕ) (tr : ServerTrace) (s : Server) : AppError → Prop
  | unresolved {req : OracleRequestTuple} {set : TokenSet} {e : AppError}
    (hreq : items[i]? = some req) (hset : ReadSet .request set tr)
    (h : resolveSlot set.registry req = .error e) : Refused D a endpoint items i tr s e
  | legacy {req : OracleRequestTuple} {set : TokenSet} {slot : ResolvedSlot}
    (hreq : items[i]? = some req) (hset : ReadSet .request set tr)
    (hslot : resolveSlot set.registry req = .ok slot) (h : endpoint.legacy = true) :
    Refused D a endpoint items i tr s legacyRefusal
  | caused {schema : PairSchema} {req : OracleRequestTuple} {set : TokenSet} {slot : ResolvedSlot}
    {e : AppError} (hendpoint : endpoint = .pair schema) (hsigns : schema.signsExpiry = true)
    (hreq : items[i]? = some req) (hset : ReadSet .request set tr)
    (hslot : resolveSlot set.registry req = .ok slot) (h : Cause D a schema slot tr s e) :
    Refused D a endpoint items i tr s e

/-- What a request owes for every error it answers with: the body does not decode; or the
trace shares out among the items, and however it does, each that ended with an error was
refused. -/
def Accounts [Alloy] [RainFloat] [Abi] (D : Deployment) (a : List Symbol) (endpoint : Endpoint)
    (body : ByteArray) (result : Except AppError ContextResponse) (tr : ServerTrace) (s : Server) :
    Prop :=
  (∃ e, decodeRequestBody body = .error e ∧ result = .error e) ∨
    ∃ decoded, decodeRequestBody body = .ok decoded ∧
      (∃ lab, endpoint.SharesOut D decoded.items tr result lab) ∧
      ∀ lab, endpoint.SharesOut D decoded.items tr result lab → ∀ i e own,
        endpoint.EndedWith D decoded.items lab i (.error e) own →
          Refused D a endpoint decoded.items i own s e

section Phases
variable [Alloy] [RainFloat] {D : Deployment} {a : List Symbol} {endpoint : Endpoint}
  {schema : PairSchema} {items : List OracleRequestTuple} {tr tr' : ServerTrace} {s s' : Server}

omit [Alloy] [RainFloat] in
/-- What a snapshot of several symbols says of one that it was asked for. -/
lemma snapshot_read {point : ReadPoint} {symbols : List Symbol} {symbol : Symbol}
    (hs : Watched a s) (hasked : symbol ∈ symbols)
    (hmem : (⟨s, .snapshotMany point symbols, s.pricing.cache.snapshotMany D.chainId symbols⟩ :
      Entry Server Op Op.Answer) ∈ tr) (hj : s.journal <+: s'.journal) :
    match (s.pricing.cache.snapshotMany D.chainId symbols).lookup symbol with
    | some snap => SnapshotRead D a point symbol snap tr s'
    | none => Uncached D a point symbol tr s' := by
  split
  · next snap hsnap =>
    exact ⟨s, symbols, _, hmem, hsnap, hs.journal, held_of_snapshot hs.journal hsnap, hj⟩
  · next hnone =>
    refine ⟨s, symbols, _, hmem, hasked, ?_, hj⟩
    rw [QuoteCache.lookup_snapshotMany, if_pos hasked, Option.map_eq_none_iff] at hnone
    unfold ClientState.held
    rw [← hs.journal]
    exact hnone

/-- What the build pass makes of the slot of an item. -/
def BuiltItem (D : Deployment) (a : List Symbol) (slot : ResolvedSlot) :
    Post Server Op Op.Answer BuiltSlot :=
  fun out tr s => out.pair = slot.pair ∧
    SnapshotRead D a .request slot.pair.symbol out.quote tr s ∧
    BuiltGood D a slot out.response tr s

omit [Alloy] [RainFloat] in
lemma BuiltItem.grow {slot : ResolvedSlot} {out : BuiltSlot} (h : BuiltItem D a slot out tr s)
    (hl : (watch D a).Later tr s tr' s') : BuiltItem D a slot out tr' s' :=
  ⟨h.1, h.2.1.grow hl.trace hl.rel, h.2.2.grow hl.trace hl.rel⟩

lemma builder_ends (hsigns : schema.signsExpiry = true) {slot : ResolvedSlot}
    {slots : List ResolvedSlot} (hslot : slot ∈ slots) :
    (watch D a).SafeEx (fun build t u =>
        (watch D a).SafeEx (BuiltItem D a slot) (Ends D a schema slot) (build slot) t u)
      (Ends D a schema slot) ((pairBound D schema).builder slots) tr s := by
  refine SafeEx.ask fun t u hl => ⟨trivial, fun i₁ m v _ hp => ?_⟩
  obtain ⟨rfl, rfl⟩ := Prod.mk.inj (Option.some.inj hp)
  refine SafeEx.pure fun t' u' hl' => ?_
  have hasked : slot.pair.symbol ∈ slots.map fun s => s.pair.symbol :=
    List.mem_map.mpr ⟨slot, hslot, rfl⟩
  have hsnapshot := snapshot_read (D := D) hl.inv hasked
    (hl'.trace.subset List.mem_concat_self) hl'.rel
  dsimp only
  split
  · next hnone =>
    rw [hnone] at hsnapshot
    exact unavailable_ends (.uncached hsnapshot)
  · next snap hsome =>
    rw [hsome] at hsnapshot
    refine SafeEx.bind ((buildResponse_ends hsnapshot hsigns).mono (fun b t₁ u₁ hl₁ hb => ?_)
      fun _ _ _ _ h => h)
    refine SafeEx.pure fun t₂ u₂ hl₂ => ⟨rfl, ?_, hb.grow hl₂.trace hl₂.rel⟩
    exact hsnapshot.grow (hl₁.trans hl₂).trace (hl₁.trans hl₂).rel

lemma rechecker_ends (hsigns : schema.signsExpiry = true) {slot : ResolvedSlot} {out : BuiltSlot}
    {built : List BuiltSlot} (hout : out ∈ built) (hbuilt : BuiltItem D a slot out tr s) :
    (watch D a).SafeEx (fun recheck t u =>
        (watch D a).SafeEx (fun _ _ _ => True) (Ends D a schema slot) (recheck out) t u)
      (Ends D a schema slot) ((pairBound D schema).rechecker built) tr s := by
  refine SafeEx.ask fun t₁ u₁ hl₁ => ⟨trivial, fun i₁ m v₁ _ hp₁ => ?_⟩
  obtain ⟨rfl, rfl⟩ := Prod.mk.inj (Option.some.inj hp₁)
  refine SafeEx.ask fun t₂ u₂ hl₂ => ⟨trivial, fun i₂ set v₂ _ hp₂ => ?_⟩
  have hl₂' := watch_asked hl₂ hp₂ trivial
  refine SafeEx.ask fun t₃ u₃ hl₃ => ⟨trivial, fun i₃ clock v₃ _ hp₃ => ?_⟩
  have hl₃' := watch_asked hl₃ hp₃ trivial
  refine SafeEx.pure fun t₄ u₄ hl₄ => ?_
  have hasked : slot.pair.symbol ∈ built.map fun s => s.pair.symbol :=
    List.mem_map.mpr ⟨out, hout, by rw [hbuilt.1]⟩
  have hl₁₄ := hl₂'.trans (hl₃'.trans hl₄)
  have hl₀₄ := (watch_asked hl₁ hp₁ trivial).trans hl₁₄
  have hcurrent := snapshot_read (D := D) hl₁.inv hasked
    (hl₁₄.trace.subset List.mem_concat_self) hl₁₄.rel
  have hreread : match AList.lookup slot.pair.symbol (u₁.pricing.cache.snapshotMany D.chainId
        (built.map fun s => s.pair.symbol)) with
      | some snap => Reread D a slot.pair.symbol out.response.validityExpiryUnixMs snap t₄ u₄
      | none => Uncached D a .batchFinal slot.pair.symbol t₄ u₄ := by
    split
    · next snap hsome =>
      exact ⟨u₁, _, _, hl₁₄.trace.subset List.mem_concat_self, hsome, hl₁.inv.journal,
        held_of_snapshot hl₁.inv.journal hsome, hl₁₄.rel, hbuilt.2.2.grow hl₀₄.trace hl₁.rel⟩
    · next hnone =>
      rw [hnone] at hcurrent
      exact hcurrent
  obtain ⟨hpair, hread, hgood⟩ := hbuilt.grow hl₀₄
  exact revalidateSlot_ends hsigns hpair hread hgood (ReadSet.asked.grow (hl₃'.trans hl₄).trace)
    (ReadClock.asked.grow hl₄.trace) hreread

/-- One item by itself: when it fails, it was refused. -/
lemma alone_ends {i : ℕ} {req : OracleRequestTuple} (hreq : items[i]? = some req)
    (slots : List ResolvedSlot × List ResolvedSlot) (built : List BuiltSlot × List BuiltSlot) :
    (watch D a).SafeEx (fun _ _ _ => True)
      (fun e tr s => Refused D a (.pair schema) items i tr s e)
      ((pairBound D schema).alone (.pair schema) slots built req) tr s := by
  refine SafeEx.bind (SafeEx.ask fun t₁ u₁ hl₁ => ⟨trivial, fun i₁ set v₁ _ hp₁ =>
    SafeEx.pure fun t₂ u₂ hl₂ => SafeEx.bind (SafeEx.ofExcept fun t₃ u₃ hl₃ => ?_)⟩)
  have hset : ReadSet .request set t₃ := (ReadSet.asked.grow hl₂.trace).grow hl₃.trace
  cases hslot : resolveSlot set.registry req with
  | error e => exact .unresolved hreq hset hslot
  | ok slot =>
  split
  · next hleg =>
    refine SafeEx.ask fun t₄ u₄ hl₄ => ⟨trivial, fun i₄ _ v₄ hi₄ hp₄ => SafeEx.throw fun t₅ u₅ hl₅ => ?_⟩
    have hl := (watch_asked hl₄ hp₄ trivial).trans hl₅
    exact .legacy hreq (hset.grow hl.trace) hslot hleg
  next hleg =>
  have hsigns : schema.signsExpiry = true := signsExpiry_of_not_legacy (by simpa using hleg)
  -- from here on every error has a cause, and the item resolved to this slot
  have hcaused : ∀ e t u, (watch D a).Later t₃ u₃ t u → Ends D a schema slot e t u →
      Refused D a (.pair schema) items i t u e :=
    fun e t u hl he => .caused rfl hsigns hreq (hset.grow hl.trace) hslot he
  refine SafeEx.mono (Q := fun _ _ _ => True) (SafeEx.bind ((builder_ends hsigns (by simp)).mono
    (fun build t₄ u₄ hl₄ hbuild => ?_) fun _ _ _ _ h => h)) (fun _ _ _ _ _ => trivial) hcaused
  refine SafeEx.bind (hbuild.mono (fun out t₅ u₅ hl₅ hout => ?_) fun _ _ _ _ h => h)
  exact SafeEx.bind ((rechecker_ends hsigns (by simp) hout).mono
    (fun recheck t₆ u₆ hl₆ hrecheck => hrecheck) fun _ _ _ _ h => h)

omit [RainFloat] in
/-- `v1` resolves an item exactly when the schemas of one do, and to the same pair. -/
lemma resolvePairForOrder_eq (registry : TokenRegistry) (req : OracleRequestTuple) :
    resolvePairForOrder registry req = (resolveSlot registry req).map ResolvedSlot.pair := by
  unfold resolvePairForOrder resolveSlot
  cases htokens : ioTokensFor req.order req.inputIOIndex req.outputIOIndex with
  | error e => rfl
  | ok tokens =>
    cases hpair : resolveTokens registry tokens.1 tokens.2 with
    | error e => simp [hpair, Except.map, bind, Except.bind]
    | ok pair => simp [hpair, Except.map, bind, Except.bind, pure, Except.pure]

lemma alone_ends_legacyV1 {i : ℕ} {req : OracleRequestTuple} (hreq : items[i]? = some req)
    (slots : List ResolvedPair × List ResolvedPair) (built : List BuiltSlot × List BuiltSlot) :
    (watch D a).SafeEx (fun _ _ _ => True) (fun e tr s => Refused D a .v1 items i tr s e)
      (legacyV1.alone .v1 slots built req) tr s := by
  refine SafeEx.bind (SafeEx.ask fun t₁ u₁ hl₁ => ⟨trivial, fun i₁ set v₁ _ hp₁ =>
    SafeEx.pure fun t₂ u₂ hl₂ => SafeEx.bind (SafeEx.ofExcept fun t₃ u₃ hl₃ => ?_)⟩)
  have hset : ReadSet .request set t₃ := (ReadSet.asked.grow hl₂.trace).grow hl₃.trace
  rw [resolvePairForOrder_eq]
  cases hslot : resolveSlot set.registry req with
  | error e => exact .unresolved hreq hset hslot
  | ok slot =>
  refine SafeEx.ask fun t₄ u₄ hl₄ => ⟨trivial, fun i₄ _ v₄ hi₄ hp₄ => SafeEx.throw fun t₅ u₅ hl₅ => ?_⟩
  have hl := (watch_asked hl₄ hp₄ trivial).trans hl₅
  exact .legacy hreq (hset.grow hl.trace) hslot rfl

/-- An item that ended with an error was refused. -/
theorem refused_of_ended {result : Except AppError ContextResponse} {lab : Labelled}
    {i : ℕ} {e : AppError} {own : ServerTrace} {s₀ : Server}
    (hchain : (watch D a).Chain s₀ tr s) (hs : Watched a s)
    (hshares : endpoint.SharesOut D items tr result lab)
    (h : endpoint.EndedWith D items lab i (.error e) own) : Refused D a endpoint items i own s e := by
  have hown : (watch D a).Chain s₀ own s := hchain.sublist (h.sublist hshares)
  cases endpoint with
  | v1 =>
    obtain ⟨-, req, slots, built, hreq, hran⟩ := h
    have hsafe : (watch D a).SafeEx (fun _ _ _ => True)
        (fun e tr s => Refused D a .v1 items i tr s e) (legacyV1.alone .v1 slots built req) [] s₀ :=
      alone_ends_legacyV1 hreq slots built
    exact Safe.ran hsafe hran hown hs
  | pair schema =>
    obtain ⟨-, req, slots, built, hreq, hran⟩ := h
    have hsafe : (watch D a).SafeEx (fun _ _ _ => True)
        (fun e tr s => Refused D a (.pair schema) items i tr s e)
        ((pairBound D schema).alone (.pair schema) slots built req) [] s₀ :=
      alone_ends hreq slots built
    exact Safe.ran hsafe hran hown hs

end Phases

section Runs
variable [Alloy] [RainFloat] [Abi] {D : Deployment} {a : List Symbol} {H : Assume} {w : World}

omit [Alloy] [Abi] in
/-- A stored expiry came from a quote, so it fits into milliseconds. -/
lemma Sound.watched {s : Server} (h : Sound D a H s) : Watched a s where
  journal := h.journal
  storable key stored hstored := by
    obtain ⟨schema, pair, x, y, q, -, -, -, -, hfrom⟩ := h.reuse key stored hstored
    obtain ⟨-, -, -, -, -, -, hexpiry, -⟩ := hfrom.builds
    obtain ⟨e, he, -⟩ := expiryFromQuote_ok hexpiry
    obtain ⟨ms, hms, -⟩ := secsToMillis_expiry hexpiry he
    simp [hms]

lemma World.Replayed.accounts (h : w.Replayed D a H) {q : InFlight} (hq : q ∈ w.requests)
    {result : Except AppError ContextResponse} (hresult : q.result = some result) :
    Accounts D a q.endpoint q.body result q.task.trace w.server := by
  obtain ⟨⟨s₀, hchain⟩, hcase⟩ := h.sharesOut hq hresult
  have hwatched : (watch D a).Chain s₀ q.task.trace w.server :=
    Chain.weaken (C := rules D a H) rfl (fun _ _ => trivial) (fun _ hs => hs.watched)
      (fun _ _ hrel => hrel) hchain
  rcases hcase with ⟨e, hdecode, hresult', -⟩ | ⟨decoded, lab, hdecode, hshares⟩
  · exact .inl ⟨e, hdecode, hresult'⟩
  · exact .inr ⟨decoded, hdecode, ⟨lab, hshares⟩, fun lab' hshares' i e own hended =>
      refused_of_ended hwatched h.safe.server.watched hshares' hended⟩

variable [Toml] [Unicode]

/-- Whatever runs beside a request, each error it answers with, of the whole request or of
one item, is accounted for by what its own item read. -/
theorem refusals_accounted {set : TokenSet} {es : List Event}
    (hrun : World.run D (.boot set) es = some w) {q : InFlight} (hq : q ∈ w.requests)
    {result : Except AppError ContextResponse} (hresult : q.result = some result) :
    Accounts D set.symbols q.endpoint q.body result q.task.trace w.server :=
  (replayed_of_run hrun).accounts hq hresult

end Runs

namespace Sample

/-- A halt reaches the cache between the snapshot of a request and its first check. -/
def haltedEvents : List Event :=
  [.frame (.price (price 1700000060000)), .arrive (.pair .v5) none (encode order)] ++
    List.replicate 2 (.move 0 .main input) ++ [.frame (.halt ⟨"wtCOIN", 8453, true⟩)] ++
    List.replicate 4 (.move 0 .main input)

def refusal : Option AppError :=
  (World.run deployment (.boot bootSet) haltedEvents).bind fun w => w.requests[0]?.bind fun q =>
    q.result.bind fun r => match r with
      | .error e => some e
      | .ok _ => none

theorem refusals_accounted_halted : ∃ w q e,
    World.run deployment (.boot bootSet) haltedEvents = some w ∧ q ∈ w.requests ∧
      e = .unavailable .noLiveQuote "No live quote for wtCOIN." ∧
      Accounts deployment bootSet.symbols q.endpoint q.body (.error e) q.task.trace w.server := by
  have hrefusal : refusal = some (.unavailable .noLiveQuote "No live quote for wtCOIN.") := by
    decide +kernel
  obtain ⟨w, hw, hr⟩ := Option.bind_eq_some_iff.mp hrefusal
  obtain ⟨q, hq, hr⟩ := Option.bind_eq_some_iff.mp hr
  obtain ⟨result, hresult, hr⟩ := Option.bind_eq_some_iff.mp hr
  have hmem := List.mem_of_getElem? hq
  cases result with
  | ok response => cases hr
  | error e => exact ⟨w, q, e, hw, hmem, Option.some.inj hr, refusals_accounted hw hmem hresult⟩

end Sample

end OracleServer
