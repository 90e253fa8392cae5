import OracleServer.BatchReuse
import OracleServer.CountersServed

/-! The counters match the wire: in every run each request that was answered has added to the
three counters what its own answer says, and the counters of the server hold the
additions of its requests and nothing else. -/
namespace OracleServer

open Interaction

/-- What a request has added to the counters so far. -/
def InFlight.growth (q : InFlight) : Growth := Trace.weight Op.growth q.task.trace

/-- Where the counters of the server stand. -/
def Server.growth (s : Server) : Growth := (s.metrics.map Metric.growth).sum

/-- The label of a request that carried `n` items and was answered with `response`. -/
structure LabelOf (n : ℕ) (response : ContextResponse) (label : String) : Prop where
  empty : n = 0 → label = "empty"
  signed : 0 < n → (∀ i < n, response.okAt i ≠ none) → label = "ok"
  mixed : (∃ i < n, response.okAt i ≠ none) → (∃ i < n, response.okAt i = none) → label = "partial"
  failed : 0 < n → (∀ i < n, response.okAt i = none) → label = "failed"

/-- The counters' account of a request that was answered with `result`. -/
structure CountersMatch [Abi] (q : InFlight) (result : Except AppError ContextResponse) : Prop where
  request : ∃ label, q.growth .contextRequest = {(q.endpoint.tag, label)} ∧
    match result with
    | .error _ => label = "error"
    | .ok response => ∃ decoded, decodeRequestBody q.body = .ok decoded ∧
        LabelOf decoded.items.length response label
  undecodable : ∀ e, decodeRequestBody q.body = .error e → q.growth .contextItem = 0
  empty : ∀ decoded, decodeRequestBody q.body = .ok decoded → decoded.items = [] →
    q.growth .contextItem = 0
  allowFailure : ∀ decoded, decodeRequestBody q.body = .ok decoded →
    ((ContextQuery.parse q.query).allowFailure && decoded.isBatch) = true →
    ∃ items, result = .ok (.envelope items) ∧ items.length = decoded.items.length ∧
      q.growth .contextItem = ↑(items.map fun item => (q.endpoint.tag, item.code))
  strict : ∀ decoded, decodeRequestBody q.body = .ok decoded →
    ((ContextQuery.parse q.query).allowFailure && decoded.isBatch) = false →
    (∃ responses, result = .ok (.strict responses) ∧ responses.length = decoded.items.length ∧
      q.growth .contextItem = Multiset.replicate decoded.items.length (q.endpoint.tag, "ok")) ∨
    ∃ e, result = .error e ∧ q.growth .contextItem = {(q.endpoint.tag, e.code)}
  refusals : ∀ schema : PairSchema, schema.signsExpiry = true → q.endpoint = .pair schema →
    q.growth .quoteRefusals =
      ↑(((verdicts result).filter (IsReason ·)).map fun code => (q.endpoint.tag, code))
  uncounted : ∀ quote err, effectiveExpiryUnixMs quote = .error err →
    err.toErrorResponse ∉ wireErrors result

section Counters
variable (tag code : String) (codes : List String)

@[simp] lemma refusal_contextRequest : refusal tag code .contextRequest = 0 := by
  unfold refusal
  split <;> rfl

@[simp] lemma refusal_contextItem : refusal tag code .contextItem = 0 := by
  unfold refusal
  split <;> rfl

@[simp] lemma refusalsOf_contextRequest : refusalsOf tag codes .contextRequest = 0 := by
  induction codes with
  | nil => rfl
  | cons code codes ih => simp [ih]

@[simp] lemma refusalsOf_contextItem : refusalsOf tag codes .contextItem = 0 := by
  induction codes with
  | nil => rfl
  | cons code codes ih => simp [ih]

lemma refusalsOf_quoteRefusals : refusalsOf tag codes .quoteRefusals =
    ↑((codes.filter (IsReason ·)).map fun code => (tag, code)) := by
  induction codes with
  | nil => rfl
  | cons code codes ih =>
    rw [refusalsOf_cons, Pi.add_apply, ih, refusal]
    by_cases h : IsReason code
    · simp [h]
    · simp [h]

lemma itemsOf_cons : itemsOf tag (code :: codes) =
    (Metric.contextItem tag code 1).growth + itemsOf tag codes := rfl

@[simp] lemma itemsOf_contextRequest : itemsOf tag codes .contextRequest = 0 := by
  induction codes with
  | nil => rfl
  | cons code codes ih =>
    rw [itemsOf_cons, Pi.add_apply, ih]
    rfl

@[simp] lemma itemsOf_quoteRefusals : itemsOf tag codes .quoteRefusals = 0 := by
  induction codes with
  | nil => rfl
  | cons code codes ih =>
    rw [itemsOf_cons, Pi.add_apply, ih]
    rfl

lemma itemsOf_contextItem :
    itemsOf tag codes .contextItem = ↑(codes.map fun code => (tag, code)) := by
  induction codes with
  | nil => rfl
  | cons code codes ih =>
    rw [itemsOf_cons, Pi.add_apply, ih, List.map_cons, ← Multiset.cons_coe]
    rfl

end Counters

section Labels
variable {items : List BatchItemResponse}

lemma okAt_envelope {i : ℕ} (h : i < items.length) :
    (ContextResponse.envelope items).okAt i = none ↔ items[i].isError = true := by
  simp only [ContextResponse.okAt, List.getElem?_eq_getElem h]
  cases items[i] with
  | ok r => simp [BatchItemResponse.isError]
  | error e => simp [BatchItemResponse.isError]

lemma envelope_failed : (∀ i < items.length, (ContextResponse.envelope items).okAt i = none) ↔
    items.countP BatchItemResponse.isError = items.length := by
  rw [List.countP_eq_length, List.forall_mem_iff_forall_getElem]
  exact forall₂_congr fun i h => okAt_envelope h

lemma envelope_signed : (∀ i < items.length, (ContextResponse.envelope items).okAt i ≠ none) ↔
    items.countP BatchItemResponse.isError = 0 := by
  rw [List.countP_eq_zero, List.forall_mem_iff_forall_getElem]
  exact forall₂_congr fun i h => not_congr (okAt_envelope h)

lemma outcome_envelope (h : 0 < items.length) : (ContextResponse.envelope items).outcome =
    if items.countP BatchItemResponse.isError = 0 then "ok"
    else if items.countP BatchItemResponse.isError = items.length then "failed" else "partial" := by
  have hne : items.isEmpty = false := by
    cases items with
    | nil => simp at h
    | cons item rest => rfl
  simp [ContextResponse.outcome, hne]

lemma labelOf_envelope :
    LabelOf items.length (.envelope items) (ContextResponse.envelope items).outcome where
  empty h := by
    rw [List.eq_nil_of_length_eq_zero h]
    rfl
  signed hpos h := by rw [outcome_envelope hpos, if_pos (envelope_signed.mp h)]
  mixed hsome hnone := by
    obtain ⟨i, hi, hsigned⟩ := hsome
    obtain ⟨j, hj, hfailed⟩ := hnone
    rw [outcome_envelope (Nat.zero_lt_of_lt hi), if_neg, if_neg]
    · exact fun h => hsigned (envelope_failed.mpr h i hi)
    · exact fun h => envelope_signed.mpr h j hj hfailed
  failed hpos h := by
    have hall := envelope_failed.mp h
    rw [outcome_envelope hpos, if_neg (by omega), if_pos hall]

lemma labelOf_strict (responses : List OracleResponse) :
    LabelOf responses.length (.strict responses) (ContextResponse.strict responses).outcome := by
  have hsigned : ∀ i < responses.length, (ContextResponse.strict responses).okAt i ≠ none := by
    intro i h
    simp [ContextResponse.okAt, h]
  have hok : 0 < responses.length → (ContextResponse.strict responses).outcome = "ok" := by
    intro h
    cases responses with
    | nil => simp at h
    | cons response rest => rfl
  refine ⟨fun h => ?_, fun hpos _ => hok hpos, fun _ h => ?_, fun hpos h => ?_⟩
  · rw [List.eq_nil_of_length_eq_zero h]
    rfl
  · obtain ⟨i, hi, hnone⟩ := h
    exact absurd hnone (hsigned i hi)
  · exact absurd (h 0 hpos) (hsigned 0 hpos)

end Labels

section Requests
variable [Abi] {q : InFlight} {result : Except AppError ContextResponse}

/-- One increment of the request counter, whatever else was counted. -/
lemma Recorded.request (h : Recorded q.endpoint q.query q.body result q.growth) :
    q.growth .contextRequest = {(q.endpoint.tag, requestOutcome result)} := by
  obtain ⟨d, hg, hd⟩ := h
  have hzero : d .contextRequest = 0 := by
    split at hd
    · rw [hd.2]
      rfl
    · obtain ⟨codes, hgrowth, -⟩ := hd.growth
      simp [hgrowth]
  rw [hg, Pi.add_apply, hzero, zero_add]
  rfl

lemma Recorded.item (h : Recorded q.endpoint q.query q.body result q.growth)
    {decoded : DecodedRequest} (hbody : decodeRequestBody q.body = .ok decoded) :
    Shaped ((ContextQuery.parse q.query).allowFailure && decoded.isBatch) decoded.items.length result ∧
      q.growth .contextItem = ↑((verdicts result).map fun code => (q.endpoint.tag, code)) := by
  obtain ⟨d, hg, hd⟩ := h
  rw [hbody] at hd
  obtain ⟨codes, hgrowth, -⟩ := hd.growth
  refine ⟨hd.shape, ?_⟩
  rw [hg, hgrowth, ← itemsOf_contextItem]
  simp [Metric.growth]

lemma Recorded.undecodable (h : Recorded q.endpoint q.query q.body result q.growth) {e : AppError}
    (hbody : decodeRequestBody q.body = .error e) :
    result = .error e ∧ q.growth .contextItem = 0 ∧ q.growth .quoteRefusals = 0 := by
  obtain ⟨d, hg, hd⟩ := h
  rw [hbody] at hd
  rw [hg, hd.2, zero_add]
  exact ⟨hd.1, rfl, rfl⟩

lemma Recorded.refusals (h : Recorded q.endpoint q.query q.body result q.growth)
    (hlegacy : q.endpoint.legacy = false) : q.growth .quoteRefusals =
      ↑(((verdicts result).filter (IsReason ·)).map fun code => (q.endpoint.tag, code)) := by
  cases hbody : decodeRequestBody q.body with
  | error e =>
    obtain ⟨d, rfl⟩ := decodeRequestBody_error hbody
    obtain ⟨rfl, -, hnone⟩ := h.undecodable hbody
    rw [hnone]
    rfl
  | ok decoded =>
    obtain ⟨d, hg, hd⟩ := h
    rw [hbody] at hd
    obtain ⟨codes, hgrowth, hcodes⟩ := hd.growth
    rw [hg, hgrowth, hcodes hlegacy, ← refusalsOf_quoteRefusals]
    simp [Metric.growth]

lemma Recorded.uncounted (h : Recorded q.endpoint q.query q.body result q.growth) {quote : Quote}
    {err : AppError} (herr : effectiveExpiryUnixMs quote = .error err) :
    err.toErrorResponse ∉ wireErrors result := by
  intro hmem
  obtain ⟨d, -, hd⟩ := h
  cases hbody : decodeRequestBody q.body with
  | error e =>
    rw [hbody] at hd
    obtain ⟨rfl, -⟩ := hd
    obtain ⟨d, rfl⟩ := decodeRequestBody_error hbody
    have hcounted : (AppError.badRequest d).Counted :=
      AppError.counted_of_code (by simp [AppError.code])
    exact hcounted quote err herr (List.mem_singleton.mp hmem).symm
  | ok decoded =>
    rw [hbody] at hd
    obtain ⟨e, he, hcounted⟩ := hd.counted _ hmem
    exact hcounted quote err herr he

lemma Recorded.countersMatch (h : Recorded q.endpoint q.query q.body result q.growth) :
    CountersMatch q result where
  request := by
    refine ⟨_, h.request, ?_⟩
    cases result with
    | error e => rfl
    | ok response =>
      cases hbody : decodeRequestBody q.body with
      | error e => cases (h.undecodable hbody).1
      | ok decoded =>
        obtain ⟨hshape, -⟩ := h.item hbody
        refine ⟨decoded, rfl, ?_⟩
        cases response with
        | strict responses =>
          rw [← hshape.2]
          exact labelOf_strict responses
        | envelope items =>
          rw [← hshape.2]
          exact labelOf_envelope
  undecodable e hbody := (h.undecodable hbody).2.1
  empty decoded hbody hempty := by
    obtain ⟨hshape, hitem⟩ := h.item hbody
    rw [hempty] at hshape
    cases result with
    | error e => exact absurd hshape.2 (lt_irrefl 0)
    | ok response =>
      cases response with
      | strict responses =>
        obtain rfl := List.eq_nil_of_length_eq_zero hshape.2
        exact hitem
      | envelope items =>
        obtain rfl := List.eq_nil_of_length_eq_zero hshape.2
        exact hitem
  allowFailure decoded hbody henvelope := by
    obtain ⟨hshape, hitem⟩ := h.item hbody
    rw [henvelope] at hshape
    cases result with
    | error e => cases hshape.1
    | ok response =>
      cases response with
      | strict responses => cases hshape.1
      | envelope items =>
        refine ⟨items, rfl, hshape.2, ?_⟩
        rw [hitem, verdicts, List.map_map]
        rfl
  strict decoded hbody hstrict := by
    obtain ⟨hshape, hitem⟩ := h.item hbody
    rw [hstrict] at hshape
    cases result with
    | error e => exact .inr ⟨e, rfl, hitem⟩
    | ok response =>
      cases response with
      | strict responses =>
        refine .inl ⟨responses, rfl, hshape.2, ?_⟩
        rw [hitem, verdicts, ← hshape.2]
        simp [Multiset.coe_replicate]
      | envelope items => cases hshape.1
  refusals schema hsigns hendpoint := by
    apply h.refusals
    rw [hendpoint]
    cases schema with
    | v4 => cases hsigns
    | _ => rfl
  uncounted quote err herr := h.uncounted herr

end Requests

lemma perform_growth {D : Deployment} {i : Input} {o : Op} {s s' : Server} {answer : o.Answer}
    (h : Server.perform D i o s = some (answer, s')) : s'.growth = s.growth + o.growth := by
  cases o with
  | count m =>
    obtain rfl := (Prod.mk.inj (Option.some.inj h)).2
    simp [Server.growth, Op.growth]
  | reuseInsert key stored =>
    have hs : (s.storeWhileLive key stored).2 = s' := (congrArg Prod.snd (Option.some.inj h))
    have hmetrics : s'.metrics = s.metrics := by
      rw [← hs]
      unfold Server.storeWhileLive
      split <;> rfl
    rw [Server.growth, hmetrics]
    exact (add_zero _).symm
  | _ =>
    obtain rfl := (Prod.mk.inj (Option.some.inj h)).2
    exact (add_zero _).symm

lemma move_growth {D : Deployment} {t t' : RequestTask} {i : Input} {m : Move} {s s' : Server}
    (h : t.step (Server.perform D) i m s = some (t', s')) : ∃ d, s'.growth = s.growth + d ∧
      Trace.weight Op.growth t'.trace = Trace.weight Op.growth t.trace + d := by
  rcases t.step_trace h with ⟨htrace, rfl⟩ | ⟨o, answer, hp, htrace⟩
  · exact ⟨0, (add_zero _).symm, by rw [htrace, add_zero]⟩
  · exact ⟨o.growth, perform_growth hp, by rw [htrace, Trace.weight_snoc]⟩

section Runs
variable [Toml] [Alloy] [Unicode] [RainFloat] [Abi] {D : Deployment}

/-- Every request in flight is on its way to record itself, and no increment is lost. -/
structure World.Tallies (w : World) : Prop where
  requests : ∀ q ∈ w.requests, q.task.Tallied Op.growth (Recorded q.endpoint q.query q.body)
  server : w.server.growth = (w.requests.map InFlight.growth).sum

lemma tallies_step {w w' : World} {e : Event} (h : w.Tallies) (hstep : World.step D w e = some w') :
    w'.Tallies := by
  cases World.took_of_step hstep with
  | frame f => exact ⟨h.requests, h.server⟩
  | poll read hidle => exact ⟨h.requests, h.server⟩
  | @reload st rest hpending => exact ⟨h.requests, h.server⟩
  | arrive endpoint query body =>
    refine ⟨fun q hq => ?_, ?_⟩
    · rcases List.mem_append.mp hq with hq | hq
      · exact h.requests q hq
      · obtain rfl := List.mem_singleton.mp hq
        exact handler_tally D endpoint query body
    · rw [List.map_append, List.sum_append, ← h.server]
      exact (add_zero _).symm
  | @move r m i q t s hq ht =>
    have hmem : q ∈ w.requests := List.mem_of_getElem? hq
    obtain ⟨d, hserver, htrace⟩ := move_growth ht
    refine ⟨fun q' hq' => ?_, ?_⟩
    · rcases List.mem_or_eq_of_mem_set hq' with hq' | rfl
      · exact h.requests q' hq'
      · exact (h.requests q hmem).step ht
    · have hgrown : InFlight.growth { q with task := t } = q.growth + d := htrace
      rw [sum_set hq hgrown, ← h.server]
      exact hserver

lemma tallies_run {set : TokenSet} {es : List Event} {w : World}
    (hrun : World.run D (.boot set) es = some w) : w.Tallies := by
  have hboot : (World.boot set).Tallies := ⟨by simp [World.boot], rfl⟩
  have hall : ∀ e ∈ es, (fun _ : Event => True) e := fun _ _ => trivial
  exact Machine.run_invariant (fun _ _ _ _ h hs => tallies_step h hs) hall hboot hrun

/-- In every run, however its requests are interleaved: the counters of the server hold what
its requests added, and what a request that was answered has added is what its answer
says. -/
theorem counters_match_wire (D : Deployment) (set : TokenSet) (es : List Event) (w : World)
    (hrun : World.run D (.boot set) es = some w) :
    w.server.growth = (w.requests.map InFlight.growth).sum ∧
      ∀ q ∈ w.requests, ∀ result, q.result = some result → CountersMatch q result := by
  have hw := tallies_run hrun
  refine ⟨hw.server, fun q hq result hresult => ?_⟩
  unfold InFlight.result at hresult
  split at hresult
  · next r hconfig =>
    obtain rfl := Option.some.inj hresult
    have hrecorded : Recorded q.endpoint q.query q.body r q.growth :=
      (hw.requests q hq).done hconfig
    exact hrecorded.countersMatch
  · cases hresult

end Runs

namespace Sample

/-- The second item of a batch is looked at a second after its quote expired. -/
def uneven : List Event :=
  [.frame (.price (price 1700000060000)), .arrive (.pair .v5) (some "allowFailure=true") twice] ++
    again 3 0 .main input ++ again 2 0 .start input ++ again 12 0 (.branch 0) input ++
    again 4 0 (.branch 1) { input with nowUnixMs := 1700000061000 } ++
    [.move 0 (.yield 1) input, .move 0 (.yield 0) input, .move 0 .finish input] ++
    again 8 0 .main input

/-- The last request of a run, if it was answered, and its answer. -/
def lastAnswer (es : List Event) : Option (World × InFlight × Except AppError ContextResponse) :=
  (@World.run _ _ _ _ twiceAbi deployment (.boot bootSet) es).bind fun w =>
    w.requests.getLast?.bind fun q => q.result.map fun result => (w, q, result)

theorem uneven_batch_is_counted : ∃ w q result,
    @World.run _ _ _ _ standardAbi deployment (.boot bootSet) uneven = some w ∧
      q ∈ w.requests ∧ q.result = some result ∧ @CountersMatch standardAbi q result ∧
      q.growth .contextRequest = {("v5", "partial")} ∧
      q.growth .contextItem = {("v5", "ok"), ("v5", "expired_quote")} ∧
      q.growth .quoteRefusals = {("v5", "expired_quote")} := by
  have hcounts : (lastAnswer uneven).any (fun a =>
      a.2.1.growth .contextRequest = {("v5", "partial")} ∧
        a.2.1.growth .contextItem = {("v5", "ok"), ("v5", "expired_quote")} ∧
        a.2.1.growth .quoteRefusals = {("v5", "expired_quote")}) = true := by
    decide +kernel
  rw [Option.any_eq_true] at hcounts
  obtain ⟨⟨w, q, result⟩, hanswer, hcounts⟩ := hcounts
  obtain ⟨w₁, hrun, hlast⟩ := Option.bind_eq_some_iff.mp hanswer
  obtain ⟨q₁, hq, hresult⟩ := Option.bind_eq_some_iff.mp hlast
  obtain ⟨result₁, hresult, heq⟩ := Option.map_eq_some_iff.mp hresult
  cases heq
  have hstandard := (run_twice (by decide +kernel)).trans hrun
  have hmatch := (@counters_match_wire _ _ _ _ standardAbi deployment bootSet uneven w hstandard).2
    q (List.mem_of_getLast? hq) result hresult
  exact ⟨w, q, result, hstandard, List.mem_of_getLast? hq, hresult, hmatch, of_decide_eq_true hcounts⟩

end Sample

end OracleServer
