import OracleServer.CountersMatch
import OracleServer.RunRefusals

/-! When the server answers. While the cache holds a quote that the schema can sign, the
token set stands still and the signer answers, no request is refused, whatever else runs
beside it: the contrapositive of what refusals are owed to. -/
namespace OracleServer

open Interaction Interaction.Contract

section Supplies
variable [RainFloat]

/-- A quote that meets every check of the schema, at any clock reading of `P`. -/
structure Serviceable (D : Deployment) (schema : PairSchema) (slot : ResolvedSlot)
    (settlement : Address) (P : Int64 → Prop) (q : Quote) : Prop where
  base : q.base = slot.pair.token
  quote : q.quote = settlement
  expiry : ∃ e, effectiveExpiryUnixMs q = .ok e ∧ ∀ t, P t → quoteIsLive e t true = true
  builds : ∃ context expiry, Builds D.chainId schema slot.pair.direction q slot.inputToken
    slot.outputToken context expiry

/-- From the log `l₀` up to `l` the cache holds such a quote, and the time it is good for
never goes back. -/
structure Supply (D : Deployment) (a : List Symbol) (schema : PairSchema) (slot : ResolvedSlot)
    (settlement : Address) (P : Int64 → Prop) (l₀ l : List ClientEvent) : Prop where
  held : ∀ m, l₀ <+: m → m <+: l → ∃ q g,
    ClientState.held a m (D.chainId, slot.pair.symbol) = some ⟨q, g⟩ ∧
    Serviceable D schema slot settlement P q
  onward : ∀ m m' c c' e e', l₀ <+: m → m <+: m' → m' <+: l →
    ClientState.held a m (D.chainId, slot.pair.symbol) = some c →
    ClientState.held a m' (D.chainId, slot.pair.symbol) = some c' →
    effectiveExpiryUnixMs c.quote = .ok e → effectiveExpiryUnixMs c'.quote = .ok e' → e.toInt ≤ e'.toInt

/-- Readings from 1970 on that span less than the margin of a reused signature. -/
structure Steady (D : Deployment) (P : Int64 → Prop) : Prop where
  epoch : ∀ t, P t → 0 ≤ t.toInt
  margin : D.reuseEnabled = true → ∀ t t', P t → P t' →
    t'.toInt / 1000 < t.toInt / 1000 + D.minRemainingSecs.toNat

end Supplies

/-- What an operation is answered in a calm stretch. -/
def Calm (set : TokenSet) (P : Int64 → Prop) : (o : Op) → o.Answer → Prop
  | .tokens _, answer => answer = set
  | .nowUnixMs _, t => P t
  | .signContext _, answer => ∃ signed, answer = .ok signed
  | _, _ => True

/-- No write of a reload, readings of `P` only, and a signer that answers. -/
def Event.Calm (P : Int64 → Prop) : Event → Prop
  | .move _ _ i => P i.nowUnixMs ∧ ∃ signed, i.signed = .ok signed
  | .reload => False
  | _ => True

section Item
variable [Alloy] [RainFloat] {D : Deployment} {a : List Symbol} {schema : PairSchema}
  {slot : ResolvedSlot} {set : TokenSet} {P : Int64 → Prop} {l₀ : List ClientEvent}
  {tr : ServerTrace} {s : Server}

/-- Every answer of the trace was given after `l₀`, in the calm. -/
def CalmTrace (set : TokenSet) (P : Int64 → Prop) (l₀ : List ClientEvent) (tr : ServerTrace) : Prop :=
  ∀ e ∈ tr, l₀ <+: e.state.journal ∧ Calm set P e.op e.answer

omit [Alloy] in
lemma Supply.serviceable (h : Supply D a schema slot set.registry.quoteToken P l₀ s.journal)
    (htr : CalmTrace set P l₀ tr) {point : ReadPoint} {snap : QuoteSnapshot}
    (hread : SnapshotRead D a point slot.pair.symbol snap tr s) :
    Serviceable D schema slot set.registry.quoteToken P snap.quote := by
  obtain ⟨s₀, symbols, m, hmem, -, -, hheld, hpre⟩ := hread
  obtain ⟨q, g, hheld', hserves⟩ := h.held s₀.journal (htr _ hmem).1 hpre
  obtain ⟨rfl, -⟩ := CachedQuote.mk.inj (Option.some.inj (hheld.symm.trans hheld'))
  exact hserves

omit [Alloy] in
/-- Nothing the builder vouches for lapses within the readings. -/
lemma Supply.unlapsed (h : Supply D a schema slot set.registry.quoteToken P l₀ s.journal)
    (hP : Steady D P) (htr : CalmTrace set P l₀ tr) {point : ReadPoint} {expiry t : Int64}
    (hgood : GoodUntil D a point slot.pair.symbol expiry tr s) (ht : P t) :
    quoteIsLive expiry t true = true := by
  obtain ⟨snap, own, hread, hown, hcase⟩ := hgood
  obtain ⟨e, he, hlive⟩ := (h.serviceable htr hread).expiry
  obtain rfl : own = e := Except.ok.inj (hown.symm.trans he)
  rcases hcase with rfl | ⟨-, hon, t', ⟨s', hmem⟩, hmargin⟩
  · exact hlive t ht
  · have ht' : P t' := (htr _ hmem).2
    have hspan := hP.margin hon t' t ht' ht
    simp only [quoteIsLive, Bool.not_true, Bool.false_or, Bool.and_eq_true, decide_eq_true_eq]
    exact ⟨Int64.lt_iff_toInt_lt.mpr (by omega), by omega⟩

omit [Alloy] in
lemma Supply.evicts_not (h : Supply D a schema slot set.registry.quoteToken P l₀ s.journal)
    (htr : CalmTrace set P l₀ tr) {point : ReadPoint} :
    ¬ Evicted D point slot.pair.symbol tr s := by
  rintro ⟨s₀, symbols, m, snap, s₁, check, before, e, since, hmem, -, -, hsplit, hpre, hevicts, hlast⟩
  have hsnoc : before ++ [e] <+: s.journal := by
    refine List.IsPrefix.trans ?_ hlast
    rw [hsplit]
    exact ⟨since, by simp⟩
  obtain ⟨q, g, hheld, -⟩ := h.held (before ++ [e])
    ((htr _ hmem).1.trans (hpre.trans (List.prefix_append _ _))) hsnoc
  unfold ClientState.held at hheld
  rw [ClientState.after_snoc, ClientState.lookup_step_evict hevicts] at hheld
  cases hheld

omit [RainFloat] in
/-- The token of a resolved slot keeps its symbol while the set does. -/
lemma resolve_token {registry : TokenRegistry} {req : OracleRequestTuple}
    (h : resolveSlot registry req = .ok slot) :
    ∃ mapping, registry.resolve slot.pair.token registry.quoteToken = .ok mapping ∧
      mapping.symbol = slot.pair.symbol := by
  obtain ⟨hlookup, -⟩ := TokenRegistry.resolve_ok (resolveSlot_ok h).2
  unfold TokenRegistry.resolve
  split
  · next heq =>
    rw [← heq, hlookup]
    exact ⟨_, rfl, rfl⟩
  · rw [if_pos rfl, hlookup]
    exact ⟨_, rfl, rfl⟩

omit [Alloy] in
lemma Serviceable.built {settlement : Address} {q : Quote}
    (h : Serviceable D schema slot settlement P q) (hsigns : schema.signsExpiry = true) {e : AppError} :
    ¬ Unbuilt D schema slot q e := by
  obtain ⟨context, expiry, publish, session, price, hpublish, hsession, hprice, hexpiry, hcontext⟩ :=
    h.builds
  have hsigned : signedExpiry schema q = .ok (some expiry) := by
    rw [signedExpiry, if_pos hsigns, hexpiry]
    rfl
  intro hun
  cases hun with
  | publish h => cases hpublish.symm.trans h
  | missingSession h => cases hsession.symm.trans h
  | invalidSession h => cases hsession.symm.trans h
  | price h => cases hprice.symm.trans h
  | expiry h => cases hsigned.symm.trans h
  | context hpublish' hsession' hprice' hexpiry' h =>
    obtain rfl := Except.ok.inj (hpublish.symm.trans hpublish')
    obtain rfl := Except.ok.inj (hsession.symm.trans hsession')
    obtain rfl := Except.ok.inj (hprice.symm.trans hprice')
    obtain rfl := Except.ok.inj (hsigned.symm.trans hexpiry')
    cases hcontext.symm.trans h

/-- An item that is supplied has no cause to be refused. -/
theorem Supply.no_cause (h : Supply D a schema slot set.registry.quoteToken P l₀ s.journal)
    (hP : Steady D P) (hsigns : schema.signsExpiry = true) {req : OracleRequestTuple}
    (hslot : resolveSlot set.registry req = .ok slot) (htr : CalmTrace set P l₀ tr) {e : AppError} :
    ¬ Cause D a schema slot tr s e := by
  intro hcause
  cases hcause with
  | uncached huncached =>
    obtain ⟨s₀, symbols, m, hmem, -, hnone, hpre⟩ := huncached
    obtain ⟨q, g, hheld, -⟩ := h.held s₀.journal (htr _ hmem).1 hpre
    exact nomatch hnone.symm.trans hheld
  | evicted hevicted => exact h.evicts_not htr hevicted
  | mispriced hsnap hset hne =>
    obtain ⟨s₀, hmem⟩ := hset
    obtain rfl : _ = set := (htr _ hmem).2
    exact hne ⟨(h.serviceable htr hsnap).base, (h.serviceable htr hsnap).quote⟩
  | remapped hset hne =>
    obtain ⟨s₀, hmem⟩ := hset
    obtain rfl : _ = set := (htr _ hmem).2
    obtain ⟨mapping, hmapping, hsymbol⟩ := resolve_token hslot
    exact hne mapping hmapping hsymbol
  | undated hsnap hundated =>
    obtain ⟨e, he, -⟩ := (h.serviceable htr hsnap).expiry
    obtain ⟨d, hd, hpos, -⟩ := effectiveExpiry_ok he
    exact absurd (hundated d hd) (not_le.mpr hpos)
  | elapsed hsnap hdeadline heffective hclock hdead =>
    obtain ⟨s₀, hmem⟩ := hclock
    obtain ⟨e, he, hlive⟩ := (h.serviceable htr hsnap).expiry
    obtain rfl := Except.ok.inj (heffective.symm.trans he)
    rw [hsigns, hlive _ (htr _ hmem).2] at hdead
    cases hdead
  | lapsed hgood hclock hdead =>
    obtain ⟨s₀, hmem⟩ := hclock
    rw [hsigns, h.unlapsed hP htr hgood (htr _ hmem).2] at hdead
    cases hdead
  | outlived hread hbound hlt =>
    obtain ⟨s₁, symbols, m, hmem, -, -, hheld₁, hpre₁, snap, own, hsnap, hown, hcase⟩ := hread
    have hserves := (h.serviceable htr (hsnap.grow List.prefix_rfl hpre₁)).expiry
    obtain ⟨s₀, symbols₀, m₀, hmem₀, -, -, hheld₀, hpre₀⟩ := hsnap
    have hle := h.onward _ _ _ _ _ _ (htr _ hmem₀).1 hpre₀ hpre₁ hheld₀ hheld₁ hown hbound
    rcases hcase with rfl | ⟨hexpiry, -, t, ⟨s₂, hmem₂⟩, -⟩
    · omega
    · -- the quote is live at a reading from 1970 on, so its expiry is one as well
      obtain ⟨e, he, hlive⟩ := hserves
      obtain rfl := Except.ok.inj (hown.symm.trans he)
      have hfuture := (quoteIsLive_signs (hlive t (htr _ hmem₂).2)).1
      have hepoch := hP.epoch t (htr _ hmem₂).2
      omega
  | unbuilt hsnap hunbuilt => exact (h.serviceable htr hsnap).built hsigns hunbuilt
  | preEpoch hclock hneg =>
    obtain ⟨s₀, hmem⟩ := hclock
    exact absurd (hP.epoch _ (htr _ hmem).2) (not_le.mpr hneg)
  | unsigned hsnap hbuilds hmem =>
    obtain ⟨signed, hsigned⟩ := (htr _ hmem).2
    cases hsigned

/-- Item `i` resolves against the set to a slot that is supplied from `l₀` up to `l`. -/
def Supplied (D : Deployment) (a : List Symbol) (schema : PairSchema) (set : TokenSet)
    (P : Int64 → Prop) (l₀ l : List ClientEvent) (items : List OracleRequestTuple) (i : ℕ) : Prop :=
  ∃ req slot, items[i]? = some req ∧ resolveSlot set.registry req = .ok slot ∧
    Supply D a schema slot set.registry.quoteToken P l₀ l

lemma Supplied.not_refused {items : List OracleRequestTuple} {i : ℕ}
    (h : Supplied D a schema set P l₀ s.journal items i) (hP : Steady D P)
    (hsigns : schema.signsExpiry = true) (htr : CalmTrace set P l₀ tr) {e : AppError} :
    ¬ Refused D a (.pair schema) items i tr s e := by
  obtain ⟨req, slot, hreq, hslot, hsupply⟩ := h
  intro hrefused
  cases hrefused with
  | unresolved hreq' hset h =>
    obtain ⟨s₀, hset⟩ := hset
    obtain rfl : _ = set := (htr _ hset).2
    obtain rfl := Option.some.inj (hreq.symm.trans hreq')
    exact nomatch hslot.symm.trans h
  | legacy hreq' hset hslot' h =>
    cases schema with
    | v4 => cases hsigns
    | _ => cases h
  | caused hendpoint hsigns' hreq' hset hslot' hcause =>
    obtain ⟨s₀, hset⟩ := hset
    obtain rfl : _ = set := (htr _ hset).2
    obtain rfl := Endpoint.pair.inj hendpoint
    obtain rfl := Option.some.inj (hreq.symm.trans hreq')
    obtain rfl := Except.ok.inj (hslot.symm.trans hslot')
    exact hsupply.no_cause hP hsigns hslot htr hcause

lemma Refused.lt {endpoint : Endpoint} {items : List OracleRequestTuple} {i : ℕ} {e : AppError}
    (h : Refused D a endpoint items i tr s e) : i < items.length := by
  by_contra hge
  have hnone := List.getElem?_eq_none (not_lt.mp hge)
  cases h with
  | unresolved hreq _ _ => exact nomatch hnone.symm.trans hreq
  | legacy hreq _ _ _ => exact nomatch hnone.symm.trans hreq
  | caused _ _ hreq _ _ _ => exact nomatch hnone.symm.trans hreq

end Item

section Runs
variable {D : Deployment} {set : TokenSet} {P : Int64 → Prop} {l₀ : List ClientEvent} {r : ℕ}
  {endpoint : Endpoint} {query : Option String} {body : ByteArray} {w w' : World}

/-- A calm stretch: the set still stands, and request `r`, which arrived in it, was
answered so. -/
structure World.Calm (set : TokenSet) (P : Int64 → Prop) (l₀ : List ClientEvent) (r : ℕ)
    (endpoint : Endpoint) (query : Option String) (body : ByteArray) (w : World) : Prop where
  tokens : w.server.tokens = set
  journal : l₀ <+: w.server.journal
  request : ∃ task, w.requests[r]? = some ⟨endpoint, query, body, task⟩ ∧
    CalmTrace set P l₀ task.trace

lemma calm_perform {i : Input} {o : Op} {s s' : Server} {answer : o.Answer}
    (hi : P i.nowUnixMs ∧ ∃ signed, i.signed = .ok signed)
    (h : Server.perform D i o s = some (answer, s')) : OracleServer.Calm s.tokens P o answer := by
  cases o with
  | tokens point => exact (Prod.mk.inj (Option.some.inj h)).1.symm
  | nowUnixMs phase =>
    obtain rfl : i.nowUnixMs = answer := (Prod.mk.inj (Option.some.inj h)).1
    exact hi.1
  | signContext context =>
    obtain rfl : i.signed = answer := (Prod.mk.inj (Option.some.inj h)).1
    exact hi.2
  | _ => trivial

variable [Toml] [Alloy] [Unicode] [RainFloat] [Abi]

lemma calm_step {e : Event} (he : e.Calm P) (h : w.Calm set P l₀ r endpoint query body)
    (hstep : World.step D w e = some w') : w'.Calm set P l₀ r endpoint query body := by
  obtain ⟨task, hr, htrace⟩ := h.request
  cases World.took_of_step hstep with
  | frame f =>
    exact ⟨h.tokens, h.journal.trans (List.prefix_append _ _), task, hr, htrace⟩
  | poll read hidle => exact ⟨h.tokens, h.journal, task, hr, htrace⟩
  | reload hpending => exact he.elim
  | arrive endpoint' query' body' =>
    refine ⟨h.tokens, h.journal, task, ?_, htrace⟩
    rw [List.getElem?_append_left (List.getElem?_eq_some_iff.mp hr).1, hr]
  | @move r' m i q t s hq ht =>
    have hrunning := move_running ht
    have hjournal : s.journal = w.server.journal := by rw [hrunning]
    refine ⟨by rw [hrunning]; exact h.tokens, hjournal ▸ h.journal, ?_⟩
    by_cases hrr : r' = r
    · subst hrr
      obtain rfl := Option.some.inj (hq.symm.trans hr)
      refine ⟨t, ?_, ?_⟩
      · rw [List.getElem?_set_self (List.getElem?_eq_some_iff.mp hr).1]
      · rcases task.step_trace ht with ⟨hsame, -⟩ | ⟨o, answer, hp, hsnoc⟩
        · rw [hsame]
          exact htrace
        · rw [hsnoc]
          intro e he'
          rcases List.mem_append.mp he' with he' | he'
          · exact htrace e he'
          · obtain rfl := List.mem_singleton.mp he'
            exact ⟨h.journal, h.tokens ▸ calm_perform he hp⟩
    · exact ⟨task, by rw [List.getElem?_set_ne hrr, hr], htrace⟩

/-- What the answer of a request says of the items that were supplied: an envelope holds
their signatures whatever became of the others, and a strict request of supplied items
only is answered with all of them. -/
structure Answered (envelope : Bool) (n : ℕ) (supplied : ℕ → Prop)
    (result : Except AppError ContextResponse) : Prop where
  perItem : envelope = true → ∃ response, result = .ok response ∧
    ∀ i < n, supplied i → ∃ r, response.okAt i = some r
  whole : envelope = false → (∀ i < n, supplied i) →
    ∃ responses, result = .ok (.strict responses) ∧ responses.length = n

lemma shaped_of_run {set₀ : TokenSet} {es : List Event}
    (hrun : World.run D (.boot set₀) es = some w) {q : InFlight} (hq : q ∈ w.requests)
    {result : Except AppError ContextResponse} (hresult : q.result = some result)
    {decoded : DecodedRequest} (hbody : decodeRequestBody q.body = .ok decoded) :
    Shaped ((ContextQuery.parse q.query).allowFailure && decoded.isBatch) decoded.items.length
      result := by
  unfold InFlight.result at hresult
  split at hresult
  · next result' hconfig =>
    obtain rfl := Option.some.inj hresult
    have hrecorded : Recorded q.endpoint q.query q.body result' q.growth :=
      ((tallies_run hrun).requests q hq).done hconfig
    exact (hrecorded.item hbody).1
  · cases hresult

/-- No run moves request `r` forever. -/
def World.Finishes (D : Deployment) (r : ℕ) (w : World) : Prop :=
  ¬ ∃ (ws : ℕ → World) (es : ℕ → Event), ws 0 = w ∧
    (∀ n, World.step D (ws n) (es n) = some (ws (n + 1))) ∧
    ∀ n, ∃ k ≥ n, ∃ m i, es k = .move r m i

/-- An event leaves a request as it is, or takes it one step on; its own moves do. -/
lemma config_step {e : Event} {q : InFlight} (hq : w.requests[r]? = some q)
    (hstep : World.step D w e = some w') :
    ∃ q', w'.requests[r]? = some q' ∧
      (q'.task.config = q.task.config ∨ Config.Next q'.task.config q.task.config) ∧
      ∀ m i, e = .move r m i → Config.Next q'.task.config q.task.config := by
  cases World.took_of_step hstep with
  | frame f => exact ⟨q, hq, .inl rfl, fun _ _ h => nomatch h⟩
  | poll read hidle => exact ⟨q, hq, .inl rfl, fun _ _ h => nomatch h⟩
  | reload hpending => exact ⟨q, hq, .inl rfl, fun _ _ h => nomatch h⟩
  | arrive endpoint' query' body' =>
    refine ⟨q, ?_, .inl rfl, fun _ _ h => nomatch h⟩
    rw [List.getElem?_append_left (List.getElem?_eq_some_iff.mp hq).1, hq]
  | @move r' m i q' t s hq' ht =>
    by_cases hrr : r' = r
    · subst hrr
      obtain rfl := Option.some.inj (hq.symm.trans hq')
      have hnext := Task.step_next ht
      exact ⟨_, List.getElem?_set_self (List.getElem?_eq_some_iff.mp hq).1, .inr hnext,
        fun _ _ _ => hnext⟩
    · refine ⟨q, by rw [List.getElem?_set_ne hrr, hq], .inl rfl, fun m' i' h => ?_⟩
      exact absurd (Event.move.inj h).1 hrr

/-- A request is moved only finitely often: each of its moves leaves less of it. -/
lemma finishes_of_request {q : InFlight} (hq : w.requests[r]? = some q) : w.Finishes D r := by
  rintro ⟨ws, es, rfl, hsteps, hoften⟩
  -- from any moment on, whatever is left of the request then
  have hnever : ∀ c n q, (ws n).requests[r]? = some q → q.task.config = c → False := by
    intro c
    induction c using Config.next_wellFounded.induction with
    | _ c ih =>
      intro n q hq hc
      obtain ⟨k, hk, m, i, hmove⟩ := hoften n
      -- until its next move the request stays as it is, or gets on
      have huntil : ∀ d, n + d ≤ k → ∃ q', (ws (n + d)).requests[r]? = some q' ∧ q'.task.config = c := by
        intro d
        induction d with
        | zero => exact fun _ => ⟨q, hq, hc⟩
        | succ d ihd =>
          intro hd
          obtain ⟨q', hq', hc'⟩ := ihd (by omega)
          obtain ⟨q'', hq'', hcase, -⟩ := config_step hq' (hsteps (n + d))
          rcases hcase with hsame | hnext
          · exact ⟨q'', hq'', hsame.trans hc'⟩
          · exact (ih _ (hc' ▸ hnext) (n + d + 1) q'' hq'' rfl).elim
      obtain ⟨q', hq', hc'⟩ := huntil (k - n) (by omega)
      rw [Nat.add_sub_cancel' hk] at hq'
      obtain ⟨q'', hq'', -, hnext⟩ := config_step hq' (hsteps k)
      exact ih _ (hc' ▸ hnext m i hmove) (k + 1) q'' hq'' rfl
  exact hnever _ 0 q hq rfl

/-- A request that has not been answered can move, whatever the clock and the signer say. -/
lemma goesOn_of_safe {a : List Symbol} {H : Assume} (h : w.Safe D a H) {q : InFlight}
    (hq : w.requests[r]? = some q) (hresult : q.result = none) :
    ∃ m, ∀ i, (World.step D w (.move r m i)).isSome := by
  have hanswers : (rules D a H).Answers := by
    intro i o s
    cases o <;> rfl
  rcases (h.requests q (List.mem_of_getElem? hq)).fine.progress hanswers with ⟨x, hx⟩ | ⟨m, hm⟩
  · rw [InFlight.result, hx] at hresult
    cases hresult
  · refine ⟨m, fun i => ?_⟩
    have hmoves : (q.task.step (Server.perform D) i m w.server).isSome = true := hm i w.server
    simpa [World.step, hq] using hmoves

/-- A request that arrives in a reachable state and runs in the calm, beside any others, is
answered: until it is it can move, it does not move forever, and what it is answered holds
the signature of every item that has stayed supplied. -/
theorem supplied_items_are_signed {set₀ : TokenSet} {es₀ : List Event} {w₀ : World}
    (hboot : World.run D (.boot set₀) es₀ = some w₀) {schema : PairSchema}
    (hsigns : schema.signsExpiry = true) {query : Option String} {body : ByteArray}
    {decoded : DecodedRequest} (hbody : decodeRequestBody body = .ok decoded) {es : List Event}
    (hrun : World.run D w₀ (.arrive (.pair schema) query body :: es) = some w)
    (hP : Steady D P) (hcalm : ∀ e ∈ es, e.Calm P) :
    ∃ q, w.requests[w₀.requests.length]? = some q ∧
      (∀ result, q.result = some result →
        Answered ((ContextQuery.parse query).allowFailure && decoded.isBatch) decoded.items.length
          (Supplied D set₀.symbols schema w₀.server.tokens P w₀.server.journal w.server.journal
            decoded.items) result) ∧
      (q.result = none →
        ∃ m, ∀ i, (World.step D w (.move w₀.requests.length m i)).isSome) ∧
      w.Finishes D w₀.requests.length := by
  obtain ⟨w₁, harrive, hrest⟩ := Machine.run_cons.mp hrun
  have hwhole : World.run D (.boot set₀) (es₀ ++ .arrive (.pair schema) query body :: es) = some w :=
    Machine.run_append.mpr ⟨w₀, hboot, hrun⟩
  -- the request as it arrived, and what it was answered since
  have hstart : w₁.Calm w₀.server.tokens P w₀.server.journal w₀.requests.length (.pair schema)
      query body := by
    obtain rfl := Option.some.inj harrive
    exact ⟨rfl, List.prefix_rfl, ⟨.run (handler D (.pair schema) query body), []⟩,
      List.getElem?_concat_length, fun e he => nomatch he⟩
  obtain ⟨-, -, task, hr, htrace⟩ := Machine.run_invariant
    (fun _ _ _ he h hs => calm_step he h hs) hcalm hstart hrest
  have hreplayed := replayed_of_run hwhole
  refine ⟨_, hr, fun result hresult => ?_, goesOn_of_safe hreplayed.safe hr, finishes_of_request hr⟩
  have hmem := List.mem_of_getElem? hr
  have hshape := shaped_of_run hwhole hmem hresult hbody
  rcases hreplayed.accounts hmem hresult with ⟨e, herr, -⟩ | ⟨decoded', hdecoded, ⟨lab, hshares⟩, hrefused⟩
  · exact nomatch hbody.symm.trans herr
  obtain rfl := Except.ok.inj (hbody.symm.trans hdecoded)
  -- an item that ended with an error was not supplied
  have hended : ∀ i e own, EndedWith (pairBound D schema) (.pair schema) decoded.items lab i
      (.error e) own → i < decoded.items.length ∧
        ¬ Supplied D set₀.symbols schema w₀.server.tokens P w₀.server.journal w.server.journal
          decoded.items i := by
    intro i e own h
    have hcause := hrefused lab hshares i e own h
    refine ⟨hcause.lt, fun hsupplied => hsupplied.not_refused hP hsigns (fun e' he' => ?_) hcause⟩
    exact htrace e' ((Endpoint.EndedWith.sublist hshares h).subset he')
  have hstopped := hshares.stopped
  have herrors := hshares.refused
  cases result with
  | error e =>
    refine ⟨fun henvelope => absurd (henvelope.symm.trans hshape.1) (by decide), fun _ hall => ?_⟩
    obtain ⟨i, own, hown⟩ := hstopped e rfl
    obtain ⟨hlt, hnot⟩ := hended i e own hown
    exact absurd (hall i hlt) hnot
  | ok response =>
    cases response with
    | strict responses =>
      refine ⟨fun henvelope => absurd (henvelope.symm.trans hshape.1) (by decide), fun _ _ => ?_⟩
      exact ⟨responses, rfl, hshape.2⟩
    | envelope items =>
      refine ⟨fun _ => ⟨_, rfl, fun i hi hsupplied => ?_⟩,
        fun hstrict => absurd (hstrict.symm.trans hshape.1) (by decide)⟩
      have hlt : i < items.length := hshape.2 ▸ hi
      cases hitem : items[i] with
      | ok r => exact ⟨r, by simp [ContextResponse.okAt, List.getElem?_eq_getElem hlt, hitem]⟩
      | error err =>
        obtain ⟨e, own, -, hown⟩ := herrors _ i err rfl
          (by simp [ContextResponse.errAt, List.getElem?_eq_getElem hlt, hitem])
        exact absurd hsupplied (hended i e own hown).2

end Runs

namespace Sample

def coinSlot : ResolvedSlot := ⟨usdc, coin, ⟨"wtCOIN", coin, .quoteToBase⟩⟩

/-- The sample server with one price in its cache. -/
def stocked : World :=
  { World.boot bootSet with
    server := (World.boot bootSet).server.observe (.frame (.price (price 1700000060000))) }

def asking : List Event :=
  .arrive (.pair .v5) none (encode order) :: List.replicate 21 (.move 0 .main input)

lemma stocked_serviceable : Serviceable deployment .v5 coinSlot
    stocked.server.tokens.registry.quoteToken (fun t => t = 1700000001000) (.ofPrice (price 1700000060000)) where
  base := rfl
  quote := by decide +kernel
  expiry := by
    refine ⟨1700000030000, by decide +kernel, ?_⟩
    rintro t rfl
    decide
  builds := by
    have hcontext : (buildContext 8453 .v5 (.ofPrice (price 1700000060000)) (pack 5 (-1)) 1700000000
        ⟨.rth, 1699990000, 1700010000⟩ usdc coin (some 1700000030)).toOption.isSome = true := by
      decide +kernel
    cases hbuilt : buildContext 8453 .v5 (.ofPrice (price 1700000060000)) (pack 5 (-1)) 1700000000
        ⟨.rth, 1699990000, 1700010000⟩ usdc coin (some 1700000030) with
    | error e =>
      rw [hbuilt] at hcontext
      cases hcontext
    | ok context =>
      exact ⟨context, 1700000030, 1700000000, ⟨.rth, 1699990000, 1700010000⟩, pack 5 (-1),
        by decide +kernel, by decide +kernel, by decide +kernel, by decide +kernel, hbuilt⟩

lemma stocked_supplied : Supplied deployment bootSet.symbols .v5 stocked.server.tokens
    (fun t => t = 1700000001000) stocked.server.journal stocked.server.journal [order] 0 := by
  have hheld : ClientState.held bootSet.symbols stocked.server.journal
      (deployment.chainId, coinSlot.pair.symbol) =
        some ⟨.ofPrice (price 1700000060000), ⟨(8453, "wtCOIN"), 0⟩⟩ := by decide +kernel
  have hslot : resolveSlot stocked.server.tokens.registry order = .ok coinSlot := by decide +kernel
  have hsame : ∀ m, stocked.server.journal <+: m → m <+: stocked.server.journal →
      m = stocked.server.journal := fun m hm hm' => hm'.eq_of_length_le hm.length_le
  refine ⟨order, coinSlot, rfl, hslot, fun m hm hm' => ?_, ?_⟩
  · obtain rfl := hsame m hm hm'
    exact ⟨_, _, hheld, stocked_serviceable⟩
  · intro m m' c c' e e' hm hmm hm' hc hc' he he'
    obtain rfl := hsame m' (hm.trans hmm) hm'
    obtain rfl := hsame m hm hmm
    obtain rfl := Option.some.inj (hc.symm.trans hc')
    obtain rfl := Except.ok.inj (he.symm.trans he')
    exact le_rfl

/-- The request of the run, once it has been answered. -/
def asked : Option (World × InFlight × Except AppError ContextResponse) :=
  (World.run deployment stocked asking).bind fun w => w.requests[0]?.bind fun q =>
    q.result.bind fun result =>
      if w.server.journal = stocked.server.journal then some (w, q, result) else none

theorem stocked_item_is_signed : ∃ w q responses,
    World.run deployment stocked asking = some w ∧ w.requests[0]? = some q ∧
      q.result = some (.ok (.strict responses)) ∧ responses.length = 1 := by
  have hasked : asked.isSome = true := by decide +kernel
  obtain ⟨⟨w, q, result⟩, h⟩ := Option.isSome_iff_exists.mp hasked
  obtain ⟨w', hw, h⟩ := Option.bind_eq_some_iff.mp h
  obtain ⟨q', hq, h⟩ := Option.bind_eq_some_iff.mp h
  obtain ⟨result', hresult, h⟩ := Option.bind_eq_some_iff.mp h
  split at h
  case isFalse => cases h
  case isTrue hjournal =>
    obtain ⟨rfl, rfl, rfl⟩ : w' = w ∧ q' = q ∧ result' = result := by simpa using h
    have hbody : decodeRequestBody (encode order) = .ok ⟨[order], false⟩ := by
      simp [decodeRequestBody, Abi.decodeBatch, Abi.decodeSingle]
    have hcalm : ∀ e ∈ List.replicate 21 (Event.move 0 .main input),
        e.Calm fun t => t = 1700000001000 := by
      intro e he
      obtain rfl := List.eq_of_mem_replicate he
      exact ⟨rfl, _, rfl⟩
    have hsteady : Steady deployment fun t => t = 1700000001000 := by
      refine ⟨?_, ?_⟩
      · rintro t rfl
        decide
      · rintro - t t' rfl rfl
        decide
    have hboot : World.run deployment (.boot bootSet) [.frame (.price (price 1700000060000))] =
        some stocked := rfl
    have hsupplied : ∀ i < [order].length, Supplied deployment bootSet.symbols .v5 stocked.server.tokens
        (fun t => t = 1700000001000) stocked.server.journal w'.server.journal [order] i := by
      intro i hi
      obtain rfl : i = 0 := Nat.lt_one_iff.mp hi
      rw [hjournal]
      exact stocked_supplied
    obtain ⟨q, hq', hanswered, -, -⟩ := supplied_items_are_signed hboot rfl hbody hw hsteady hcalm
    obtain rfl : q = q' := Option.some.inj (hq'.symm.trans hq)
    obtain ⟨responses, rfl, hlength⟩ := (hanswered result' hresult).whole (Bool.and_false _) hsupplied
    exact ⟨w', q, responses, hw, hq, hresult, hlength⟩

end Sample

end OracleServer
