import OracleServer.SingleItem
import OracleServer.WorldSafety

/-! The items of every request of every run. The trace of a request in flight is a replay
of its handler on a chain of sound states, so it shares out among the items, and each item
ended as a run of it alone ends on what it was given. -/
namespace OracleServer

open Interaction Interaction.Contract

section Handlers
variable [Alloy] [RainFloat] {D : Deployment} {tr : ServerTrace}
  {result : Except AppError ContextResponse}

omit [RainFloat] in
lemma legacyV1_onlyRead : legacyV1.OnlyRead where
  resolver tr e h := by
    obtain ⟨s, a, rest, rfl, hret⟩ := Prog.Ran.op_inv h
    cases (Prog.Ran.ret_inv hret).2
  builder slots tr e h := by cases (Prog.Ran.ret_inv h).2
  rechecker built tr e h := by cases (Prog.Ran.ret_inv h).2

lemma pairBound_onlyRead (schema : PairSchema) : (pairBound D schema).OnlyRead where
  resolver tr e h := by
    obtain ⟨s, a, rest, rfl, hret⟩ := Prog.Ran.op_inv h
    cases (Prog.Ran.ret_inv hret).2
  builder slots tr e h := by
    obtain ⟨s, a, rest, rfl, hret⟩ := Prog.Ran.op_inv h
    cases (Prog.Ran.ret_inv hret).2
  rechecker built tr e h := by
    obtain ⟨s₁, a₁, rest₁, rfl, h₁⟩ := Prog.Ran.op_inv h
    obtain ⟨s₂, a₂, rest₂, rfl, h₂⟩ := Prog.Ran.op_inv h₁
    obtain ⟨s₃, a₃, rest₃, rfl, hret⟩ := Prog.Ran.op_inv h₂
    cases (Prog.Ran.ret_inv hret).2

/-- `EndedWith`, for the phases of the endpoint. -/
def Endpoint.EndedWith (D : Deployment) (items : List OracleRequestTuple) (lab : Labelled) (i : ℕ)
    (x : Except AppError OracleResponse) (own : ServerTrace) : Endpoint → Prop
  | .v1 => OracleServer.EndedWith legacyV1 .v1 items lab i x own
  | .pair schema => OracleServer.EndedWith (pairBound D schema) (.pair schema) items lab i x own

/-- `SharesOut`, for the phases of the endpoint. -/
def Endpoint.SharesOut (D : Deployment) (items : List OracleRequestTuple) (tr : ServerTrace)
    (result : Except AppError ContextResponse) (lab : Labelled) : Endpoint → Prop
  | .v1 => OracleServer.SharesOut legacyV1 .v1 items tr result lab
  | .pair schema => OracleServer.SharesOut (pairBound D schema) (.pair schema) items tr result lab

theorem handler_sharesOut [Abi] {endpoint : Endpoint} {query : Option String} {body : ByteArray}
    (h : (handler D endpoint query body).Ran tr result) :
    (∃ e, decodeRequestBody body = .error e ∧ result = .error e ∧ OnlyCounts tr) ∨
      ∃ decoded lab, decodeRequestBody body = .ok decoded ∧
        endpoint.SharesOut D decoded.items tr result lab := by
  cases endpoint with
  | v1 => exact postSignedContext_sharesOut legacyV1_onlyRead h
  | pair schema => exact postSignedContext_sharesOut (pairBound_onlyRead schema) h

variable {endpoint : Endpoint} {items : List OracleRequestTuple} {lab : Labelled} {i : ℕ}
  {x : Except AppError OracleResponse} {own : ServerTrace}

lemma Endpoint.SharesOut.delivered {response : ContextResponse} {r : OracleResponse}
    (h : endpoint.SharesOut D items tr (.ok response) lab) (hok : response.okAt i = some r) :
    ∃ own, endpoint.EndedWith D items lab i (.ok r) own := by
  cases endpoint with
  | v1 => exact SharesOut.delivered h response i r rfl hok
  | pair schema => exact SharesOut.delivered h response i r rfl hok

/-- What an item was given is part of the trace, in its order. -/
lemma Endpoint.EndedWith.sublist (hshares : endpoint.SharesOut D items tr result lab)
    (h : endpoint.EndedWith D items lab i x own) : own.Sublist tr := by
  have hgiven : own <+: mine i lab := by
    cases endpoint with
    | v1 => exact h.1
    | pair schema => exact h.1
  have htrace : ∃ counts, tr = lab.map Prod.snd ++ counts := by
    cases endpoint with
    | v1 => exact hshares.trace.imp fun _ h => h.1
    | pair schema => exact hshares.trace.imp fun _ h => h.1
  obtain ⟨counts, rfl⟩ := htrace
  exact hgiven.sublist.trans ((mine_sublist i lab).trans (List.sublist_append_left _ _))

end Handlers

section Runs
variable [Toml] [Alloy] [Unicode] [RainFloat] [Abi] {D : Deployment} {a : List Symbol} {H : Assume}
  {w w' : World}

/-- Every request in flight is a replay of its handler so far. -/
structure World.Replayed (D : Deployment) (a : List Symbol) (H : Assume) (w : World) : Prop where
  safe : w.Safe D a H
  history : ∀ q ∈ w.requests,
    (rules D a H).History (handler D q.endpoint q.query q.body) q.task w.server

lemma replayed_step (hH : H.Closed D.staticConfig) {e : Event} (he : e.Clocked H.clock)
    (h : w.Replayed D a H) (hstep : World.step D w e = some w') : w'.Replayed D a H := by
  have hsafe := safe_step hH he h.safe hstep
  refine ⟨hsafe, ?_⟩
  cases World.took_of_step hstep with
  | frame f =>
    obtain ⟨-, hrel⟩ := h.safe.server.observe (.frame f)
    exact fun q hq => (h.history q hq).later hrel
  | poll _ _ => exact h.history
  | @reload st rest hpending =>
    obtain ⟨-, hrel⟩ : Sound D a H (w.server.reload st) ∧
        w.server.journal <+: (w.server.reload st).journal :=
      h.safe.server.reload fun set hst => h.safe.pending set (by simp [hpending, hst])
    exact fun q hq => (h.history q hq).later hrel
  | arrive endpoint query body =>
    intro q hq
    rcases List.mem_append.mp hq with hq | hq
    · exact h.history q hq
    · obtain rfl := List.mem_singleton.mp hq
      exact .start
  | @move r m i q t s hq ht =>
    have hmem : q ∈ w.requests := List.mem_of_getElem? hq
    have hfine := (h.safe.requests q hmem).fine
    obtain ⟨-, hrel, -⟩ := hfine.step he h.safe.server ht
    intro q' hq'
    rcases List.mem_or_eq_of_mem_set hq' with hq' | rfl
    · exact (h.history q' hq').later hrel
    · exact (h.history q hmem).step he h.safe.server hfine ht

theorem replayed_run (hH : H.Closed D.staticConfig) {set : TokenSet} (hset : H.sets set)
    {es : List Event} (hes : ∀ e ∈ es, e.Clocked H.clock)
    (hrun : World.run D (.boot set) es = some w) : w.Replayed D set.symbols H :=
  Machine.run_invariant (fun _ _ _ he h hs => replayed_step hH he h hs) hes
    ⟨safe_boot hset, fun _ hq => nomatch hq⟩ hrun

/-- What every run comes to, whatever is assumed of nothing. -/
theorem replayed_of_run {set : TokenSet} {es : List Event}
    (hrun : World.run D (.boot set) es = some w) :
    w.Replayed D set.symbols ⟨fun _ => True, fun _ => True⟩ :=
  replayed_run ⟨fun _ _ => trivial, fun _ _ _ => trivial⟩ trivial (fun e _ => e.clocked_true) hrun

omit [Toml] [Unicode] in
/-- An answered request shares out among its items, and what it was answered is a chain of
sound states up to now. -/
theorem World.Replayed.sharesOut (h : w.Replayed D a H) {q : InFlight} (hq : q ∈ w.requests)
    {result : Except AppError ContextResponse} (hresult : q.result = some result) :
    (∃ s₀, (rules D a H).Chain s₀ q.task.trace w.server) ∧
      ((∃ e, decodeRequestBody q.body = .error e ∧ result = .error e ∧ OnlyCounts q.task.trace) ∨
        ∃ decoded lab, decodeRequestBody q.body = .ok decoded ∧
          q.endpoint.SharesOut D decoded.items q.task.trace result lab) := by
  unfold InFlight.result at hresult
  split at hresult
  · next result' hconfig =>
    obtain rfl := Option.some.inj hresult
    exact ⟨(h.history q hq).chain, handler_sharesOut ((h.history q hq).done hconfig)⟩
  · cases hresult

end Runs

end OracleServer
