import OracleServer.Lib.Ordered
import OracleServer.WorldSafety

/-! Other chains cannot influence a deployment. Two states are alike when they agree on
the entries and tokens of the served chain; a frame of another chain moves a state to one
alike, and everything a request reads agrees in states that are alike. -/
namespace OracleServer

open Interaction Interaction.Contract

/-- A price or a halt of another chain. -/
def ServerFrame.foreign (chainId : UInt64) : ServerFrame → Bool
  | .price p => p.chainId ≠ chainId
  | .halt h => h.chainId ≠ chainId
  | _ => false

/-- The events that are left when the other chains' prices and halts are deleted. -/
def Event.keep (chainId : UInt64) : Event → Bool
  | .frame f => !f.foreign chainId
  | _ => true

namespace ClientState

theorem minted_step_price {s : ClientState} {p : PriceFrame} {k : Key}
    (h : Accepted s.assets p k) : (s.step (.frame (.price p))).cache.minted k =
      if (s.cache.entries.lookup k).isSome then s.cache.minted k else s.cache.minted k + 1 := by
  have hkey : ((Quote.ofPrice p).chainId, (Quote.ofPrice p).asset) = k := h.key
  have hin : (Quote.ofPrice p).asset ∈ s.assets := h.listed
  simp only [step, QuoteCache.applyServerFrame]
  rw [if_neg (by simp [hin])]
  unfold QuoteCache.insertQuote
  rw [hkey]
  dsimp only
  split
  · next previous hprevious =>
    rw [hprevious]
    rfl
  · next hnone =>
    rw [hnone, if_neg (by simp)]
    exact Function.update_self ..

theorem minted_step_other {s : ClientState} {e : ClientEvent} {k : Key}
    (hp : ∀ p, e = .frame (.price p) → ¬ Accepted s.assets p k) :
    (s.step e).cache.minted k = s.cache.minted k := by
  cases e with
  | publish l => rfl
  | forget l => simp only [step, QuoteCache.forget_eq_evict, QuoteCache.minted_evict]
  | frame f =>
    cases f with
    | price p =>
      simp only [step, QuoteCache.applyServerFrame]
      split
      · rfl
      · next hlisted =>
        have hin : (Quote.ofPrice p).asset ∈ s.assets := by simpa using hlisted
        have hne : k ≠ ((Quote.ofPrice p).chainId, (Quote.ofPrice p).asset) :=
          fun hk => hp p rfl ⟨hk.symm, hin⟩
        unfold QuoteCache.insertQuote
        dsimp only
        split
        · rfl
        · exact Function.update_of_ne hne _ _
    | error e =>
      simp only [step, QuoteCache.applyServerFrame]
      split
      · split
        · rw [QuoteCache.minted_evict]
        · rfl
      · rfl
    | halt h' =>
      simp only [step, QuoteCache.applyServerFrame]
      split
      · rw [QuoteCache.minted_remove]
      · rfl
    | ping ts => rfl

/-- Two clients that agree on the list, and on the entries and tokens of one chain. -/
structure AlikeOn (chainId : UInt64) (s t : ClientState) : Prop where
  assets : t.assets = s.assets
  entries : ∀ symbol, t.cache.entries.lookup (chainId, symbol) =
    s.cache.entries.lookup (chainId, symbol)
  minted : ∀ symbol, t.cache.minted (chainId, symbol) = s.cache.minted (chainId, symbol)
  left : s.cache.Wf
  right : t.cache.Wf

section Alike
variable {chainId : UInt64} {s t : ClientState}

/-- The same event keeps two clients alike. -/
theorem AlikeOn.step (h : AlikeOn chainId s t) (e : ClientEvent) :
    AlikeOn chainId (s.step e) (t.step e) := by
  have hassets : (t.step e).assets = (s.step e).assets := by
    cases e with
    | publish l => rfl
    | forget l => exact h.assets
    | frame f => exact h.assets
  refine ⟨hassets, fun symbol => ?_, fun symbol => ?_, step_wf h.left e, step_wf h.right e⟩
  · by_cases hp : ∃ p, e = .frame (.price p) ∧ Accepted s.assets p (chainId, symbol)
    · obtain ⟨p, rfl, hacc⟩ := hp
      rw [lookup_step_price hacc, lookup_step_price (h.assets ▸ hacc)]
      unfold QuoteCache.nextGeneration
      rw [h.entries, h.minted]
    · have hp' : ∀ p, e = .frame (.price p) → ¬ Accepted s.assets p (chainId, symbol) :=
        fun p hpe hacc => hp ⟨p, hpe, hacc⟩
      by_cases he : e.Evicts (chainId, symbol)
      · rw [lookup_step_evict he, lookup_step_evict he]
      · rw [lookup_step_other he hp', lookup_step_other he (h.assets ▸ hp'), h.entries]
  · by_cases hp : ∃ p, e = .frame (.price p) ∧ Accepted s.assets p (chainId, symbol)
    · obtain ⟨p, rfl, hacc⟩ := hp
      rw [minted_step_price hacc, minted_step_price (h.assets ▸ hacc), h.entries, h.minted]
    · have hp' : ∀ p, e = .frame (.price p) → ¬ Accepted s.assets p (chainId, symbol) :=
        fun p hpe hacc => hp ⟨p, hpe, hacc⟩
      rw [minted_step_other hp', minted_step_other (h.assets ▸ hp'), h.minted]

/-- A price or halt of another chain changes nothing of this one. -/
theorem AlikeOn.foreign (h : AlikeOn chainId s t) {f : ServerFrame}
    (hf : f.foreign chainId = true) : AlikeOn chainId (s.step (.frame f)) t := by
  have hp : ∀ symbol p, ClientEvent.frame f = .frame (.price p) →
      ¬ Accepted s.assets p (chainId, symbol) := by
    intro symbol p hpe hacc
    obtain rfl := ClientEvent.frame.inj hpe
    exact of_decide_eq_true hf (Prod.mk.inj hacc.key).1
  have he : ∀ symbol, ¬ (ClientEvent.frame f).Evicts (chainId, symbol) := by
    intro symbol hev
    cases f with
    | halt h' => exact of_decide_eq_true hf (Prod.mk.inj hev.2).1
    | price p => exact hev
    | error e => cases hf
    | ping ts => exact hev
  refine ⟨h.assets, fun symbol => ?_, fun symbol => ?_, step_wf h.left _, h.right⟩
  · rw [lookup_step_other (he symbol) (hp symbol), h.entries]
  · rw [minted_step_other (hp symbol), h.minted]

/-- The tokens of the chain are live in both or in neither. -/
theorem AlikeOn.live (h : AlikeOn chainId s t) {g : QuoteGeneration} (hg : g.key.1 = chainId) :
    t.cache.isLive g = s.cache.isLive g := by
  have hlookup : t.cache.entries.lookup g.key = s.cache.entries.lookup g.key := by
    obtain ⟨⟨c, symbol⟩, serial⟩ := g
    obtain rfl : c = chainId := hg
    exact h.entries symbol
  have hiff := (h.right.live_iff g).trans ((hlookup ▸ h.left.live_iff g).symm)
  exact Bool.eq_iff_iff.mpr hiff

theorem AlikeOn.snapshotMany (h : AlikeOn chainId s t) (symbols : List Symbol) :
    t.cache.snapshotMany chainId symbols = s.cache.snapshotMany chainId symbols := by
  unfold QuoteCache.snapshotMany
  simp only [h.entries]

theorem AlikeOn.newestSourceTsMs (h : AlikeOn chainId s t) :
    t.cache.newestSourceTsMs chainId = s.cache.newestSourceTsMs chainId := by
  -- a timestamp of the chain is one some symbol's entry carries
  have hmem : ∀ (c : QuoteCache) (ts : Int64),
      ts ∈ (c.entries.entries.filter fun e => e.1.1 = chainId).map
        (fun e => e.2.quote.sourceTsUnixMs) ↔
      ∃ symbol entry, c.entries.lookup (chainId, symbol) = some entry ∧
        entry.quote.sourceTsUnixMs = ts := by
    intro c ts
    simp only [List.mem_map, List.mem_filter, decide_eq_true_eq, ← Option.mem_def,
      AList.mem_lookup_iff]
    constructor
    · rintro ⟨⟨⟨chain, symbol⟩, entry⟩, ⟨hin, rfl⟩, hts⟩
      exact ⟨symbol, entry, hin, hts⟩
    · rintro ⟨symbol, entry, hin, hts⟩
      exact ⟨_, ⟨hin, rfl⟩, hts⟩
  refine max?_congr fun ts => ?_
  rw [hmem, hmem]
  simp only [h.entries]

end Alike

end ClientState

structure Server.AlikeOn (chainId : UInt64) (s t : Server) : Prop where
  client : ClientState.AlikeOn chainId s.pricing t.pricing
  tokens : t.tokens = s.tokens
  rejected : t.rejected = s.rejected
  reuse : t.reuse = s.reuse
  metrics : t.metrics = s.metrics

namespace Server.AlikeOn
variable {chainId : UInt64} {s t : Server}

theorem observe (h : s.AlikeOn chainId t) (e : ClientEvent) :
    (s.observe e).AlikeOn chainId (t.observe e) :=
  ⟨h.client.step e, h.tokens, h.rejected, h.reuse, h.metrics⟩

theorem foreign (h : s.AlikeOn chainId t) {f : ServerFrame} (hf : f.foreign chainId = true) :
    (s.observe (.frame f)).AlikeOn chainId t :=
  ⟨h.client.foreign hf, h.tokens, h.rejected, h.reuse, h.metrics⟩

theorem reload (h : s.AlikeOn chainId t) (st : ReloadStep) :
    (s.reload st).AlikeOn chainId (t.reload st) := by
  cases st with
  | replace set => exact ⟨h.client, rfl, h.rejected, h.reuse, h.metrics⟩
  | sendReplace symbols => exact h.observe (.publish symbols)
  | forget symbols => exact h.observe (.forget symbols)
  | reject g => exact ⟨h.client, h.tokens, rfl, h.reuse, h.metrics⟩
  | clearRejected => exact ⟨h.client, h.tokens, rfl, h.reuse, h.metrics⟩

/-- An operation that a request may ask gets the same answer in both. -/
theorem perform [RainFloat] {D : Deployment} {a : List Symbol} {H : Assume} {i : Input} {o : Op}
    {s' : Server} {answer : o.Answer} (h : s.AlikeOn D.chainId t) (hpre : Owes D a H o s)
    (hp : Server.perform D i o s = some (answer, s')) :
    ∃ t', Server.perform D i o t = some (answer, t') ∧ s'.AlikeOn D.chainId t' := by
  cases o with
  | isLive check g =>
    obtain ⟨rfl, rfl⟩ := Prod.mk.inj (Option.some.inj hp)
    exact ⟨t, congrArg (fun b => some (b, t)) (h.client.live hpre), h⟩
  | tokens point =>
    obtain ⟨rfl, rfl⟩ := Prod.mk.inj (Option.some.inj hp)
    exact ⟨t, congrArg (fun b => some (b, t)) h.tokens, h⟩
  | nowUnixMs phase =>
    obtain ⟨rfl, rfl⟩ := Prod.mk.inj (Option.some.inj hp)
    exact ⟨t, rfl, h⟩
  | snapshotMany point symbols =>
    obtain ⟨rfl, rfl⟩ := Prod.mk.inj (Option.some.inj hp)
    exact ⟨t, congrArg (fun b => some (b, t)) (h.client.snapshotMany symbols), h⟩
  | reuseGet key =>
    obtain ⟨rfl, rfl⟩ := Prod.mk.inj (Option.some.inj hp)
    exact ⟨t, congrArg (fun b => some (AList.lookup key b, t)) h.reuse, h⟩
  | reuseInsert key stored =>
    obtain ⟨schema, pair, x, y, q, -, -, hkey, -⟩ := hpre
    have hlive := h.client.live (show stored.generation.key.1 = D.chainId by rw [hkey])
    simp only [Server.perform, Server.storeWhileLive] at hp ⊢
    rw [hlive]
    split at hp
    · next hon =>
      obtain ⟨rfl, rfl⟩ := Prod.mk.inj (Option.some.inj hp)
      rw [if_pos hon]
      refine ⟨_, rfl, h.client, h.tokens, h.rejected, ?_, h.metrics⟩
      exact congrArg (fun m => AList.insert key stored m) h.reuse
    · next hoff =>
      obtain ⟨rfl, rfl⟩ := Prod.mk.inj (Option.some.inj hp)
      rw [if_neg hoff]
      exact ⟨t, rfl, h⟩
  | signContext context =>
    obtain ⟨rfl, rfl⟩ := Prod.mk.inj (Option.some.inj hp)
    exact ⟨t, rfl, h⟩
  | count m =>
    obtain ⟨rfl, rfl⟩ := Prod.mk.inj (Option.some.inj hp)
    refine ⟨_, rfl, h.client, h.tokens, h.rejected, h.reuse, ?_⟩
    exact congrArg (fun l => l ++ [m]) h.metrics

end Server.AlikeOn

/-- The same request, with the same text left to run and the same answers so far. -/
structure InFlight.Alike (q q' : InFlight) : Prop where
  endpoint : q'.endpoint = q.endpoint
  query : q'.query = q.query
  body : q'.body = q.body
  task : Contract.Alike q.task q'.task

/-- What a request shows: what it was asked, every exchange it had with the shared state
(reads, reuse decisions, signatures) and its response. -/
def InFlight.seen (q : InFlight) : Endpoint × Option String × ByteArray ×
    List ((o : Op) × o.Answer) × Option (Except AppError ContextResponse) :=
  (q.endpoint, q.query, q.body, q.task.trace.map Entry.exchange, q.result)

theorem InFlight.Alike.seen {q q' : InFlight} (h : q.Alike q') : q'.seen = q.seen := by
  have hresult : q'.result = q.result := by
    unfold InFlight.result
    rw [h.task.config]
  unfold InFlight.seen
  rw [h.endpoint, h.query, h.body, h.task.answers, hresult]

structure World.AlikeOn (chainId : UInt64) (w v : World) : Prop where
  server : w.server.AlikeOn chainId v.server
  reloading : v.reloading = w.reloading
  requests : List.Forall₂ InFlight.Alike w.requests v.requests

theorem World.AlikeOn.seen {chainId : UInt64} {w v : World} (h : w.AlikeOn chainId v) :
    v.requests.map InFlight.seen = w.requests.map InFlight.seen := by
  have hall := h.requests
  generalize w.requests = l at hall
  generalize v.requests = l' at hall
  induction hall with
  | nil => rfl
  | cons hhead _ ih => rw [List.map_cons, List.map_cons, hhead.seen, ih]

/-- What two runs that differ in other chains' prices and halts agree on. -/
structure SameOn (chainId : UInt64) (w w' : World) : Prop where
  latest : ∀ symbol, w'.server.pricing.cache.latest chainId symbol =
    w.server.pricing.cache.latest chainId symbol
  snapshotMany : ∀ symbols, w'.server.pricing.cache.snapshotMany chainId symbols =
    w.server.pricing.cache.snapshotMany chainId symbols
  missing : ∀ symbols, w'.server.pricing.cache.missing chainId symbols =
    w.server.pricing.cache.missing chainId symbols
  newest : w'.server.pricing.cache.newestSourceTsMs chainId =
    w.server.pricing.cache.newestSourceTsMs chainId
  requests : w'.requests.map InFlight.seen = w.requests.map InFlight.seen

theorem World.AlikeOn.same {chainId : UInt64} {w v : World} (h : w.AlikeOn chainId v) :
    SameOn chainId w v where
  latest symbol := by
    unfold QuoteCache.latest
    rw [h.server.client.entries]
  snapshotMany := h.server.client.snapshotMany
  missing symbols := by
    unfold QuoteCache.missing
    simp only [h.server.client.entries]
  newest := h.server.client.newestSourceTsMs
  requests := h.seen

/-- Nothing is assumed of the clock or of the sets. -/
def anything : Assume := ⟨fun _ => True, fun _ => True⟩

theorem forall₂_set {α β : Type*} {R : α → β → Prop} {l : List α} {l' : List β}
    (h : List.Forall₂ R l l') (r : ℕ) {x : α} {y : β} (hxy : R x y) :
    List.Forall₂ R (l.set r x) (l'.set r y) := by
  induction h generalizing r with
  | nil => exact .nil
  | cons hhead htail ih =>
    cases r with
    | zero => exact .cons hxy htail
    | succ r => exact .cons hhead (ih r)

theorem alike_boot (chainId : UInt64) (set : TokenSet) :
    (World.boot set).AlikeOn chainId (.boot set) where
  server := ⟨⟨rfl, fun _ => rfl, fun _ => rfl, QuoteCache.empty_wf, QuoteCache.empty_wf⟩,
    rfl, rfl, rfl, rfl⟩
  reloading := rfl
  requests := .nil

section Runs
variable [Toml] [Alloy] [Unicode] [RainFloat] [Abi] {D : Deployment} {a : List Symbol}
  {w w' v : World}

/-- A kept event takes two worlds that are alike to two that are alike. -/
theorem alike_step (hsafe : w.Safe D a anything) (h : w.AlikeOn D.chainId v) {e : Event}
    (hstep : World.step D w e = some w') :
    ∃ v', World.step D v e = some v' ∧ w'.AlikeOn D.chainId v' := by
  obtain ⟨vs, vp, vq⟩ := v
  obtain ⟨hserver, hpending, hrequests⟩ := h
  cases World.took_of_step hstep with
  | frame f => exact ⟨_, rfl, hserver.observe (.frame f), hpending, hrequests⟩
  | poll read hidle =>
    obtain rfl : vp = [] := hpending.trans hidle
    refine ⟨_, rfl, hserver, ?_, hrequests⟩
    dsimp only
    rw [hserver.tokens, hserver.rejected]
  | @reload st rest hrest =>
    obtain rfl : vp = st :: rest := hpending.trans hrest
    exact ⟨_, rfl, hserver.reload st, rfl, hrequests⟩
  | arrive endpoint query body =>
    refine ⟨_, rfl, hserver, hpending, List.rel_append hrequests (.cons ?_ .nil)⟩
    exact ⟨rfl, rfl, rfl, rfl, rfl⟩
  | @move r m i q t s hq ht =>
    obtain ⟨hr, rfl⟩ := List.getElem?_eq_some_iff.mp hq
    have hlen := hrequests.length_eq
    have hr' : r < vq.length := hlen ▸ hr
    have halike : InFlight.Alike w.requests[r] vq[r] := List.forall₂_iff_get.mp hrequests |>.2 r hr hr'
    have hfine := (hsafe.requests _ (List.getElem_mem hr)).fine
    have hanswers : ∀ (o : Op) (answer : o.Answer) s₁, Owes D a anything o w.server →
        Server.perform D i o w.server = some (answer, s₁) →
        ∃ u, Server.perform D i o vs = some (answer, u) ∧ s₁.AlikeOn D.chainId u :=
      fun o answer s₁ hpre hp => hserver.perform hpre hp
    obtain ⟨t', s', hstep', htask, hserver'⟩ :=
      hfine.step_alike hanswers hsafe.server hserver halike.task ht
    have hat : vq[r]? = some vq[r] := List.getElem?_eq_getElem hr'
    refine ⟨⟨s', vp, vq.set r { vq[r] with task := t' }⟩, ?_, hserver', hpending, ?_⟩
    · simp only [World.step, hat, hstep', Option.map_some]
    · refine forall₂_set hrequests r ?_
      exact ⟨halike.endpoint, halike.query, halike.body, htask⟩

/-- A foreign frame moves one of them alone, and they stay alike. -/
theorem alike_drop (h : w.AlikeOn D.chainId v) {e : Event} (he : e.keep D.chainId = false)
    (hstep : World.step D w e = some w') : w'.AlikeOn D.chainId v := by
  cases World.took_of_step hstep with
  | frame f => exact ⟨h.server.foreign (by simpa [Event.keep] using he), h.reloading, h.requests⟩
  | poll read hidle => cases he
  | reload hpending => cases he
  | arrive endpoint query body => cases he
  | move hq ht => cases he

/-- A run and the run without the foreign frames end alike. -/
theorem alike_erased {set : TokenSet} {es : List Event}
    (hrun : World.run D (.boot set) es = some w) :
    ∃ v, World.run D (.boot set) (es.filter (Event.keep D.chainId)) = some v ∧
      w.AlikeOn D.chainId v := by
  have hclosed : anything.Closed D.staticConfig := ⟨fun _ _ => trivial, fun _ _ _ => trivial⟩
  let R : World → World → Prop := fun w v => w.Safe D set.symbols anything ∧ w.AlikeOn D.chainId v
  have hkeep : ∀ w v e w', Event.Clocked (fun _ => True) e → Event.keep D.chainId e = true →
      R w v → World.step D w e = some w' → ∃ v', World.step D v e = some v' ∧ R w' v' := by
    rintro w v e w' he - ⟨hsafe, halike⟩ hstep
    obtain ⟨v', hv', halike'⟩ := alike_step hsafe halike hstep
    exact ⟨v', hv', safe_step hclosed he hsafe hstep, halike'⟩
  have hdrop : ∀ w v e w', Event.Clocked (fun _ => True) e → Event.keep D.chainId e = false →
      R w v → World.step D w e = some w' → R w' v := by
    rintro w v e w' he hk ⟨hsafe, halike⟩ hstep
    exact ⟨safe_step hclosed he hsafe hstep, alike_drop halike hk hstep⟩
  have hboot : R (.boot set) (.boot set) := ⟨safe_boot trivial, alike_boot _ set⟩
  obtain ⟨v, hv, -, halike⟩ := Machine.run_erase hkeep hdrop (fun e _ => e.clocked_true) hboot hrun
  exact ⟨v, hv, halike⟩

/-- A snapshot that was taken somewhere along the run. -/
def Taken (D : Deployment) (set : TokenSet) (es : List Event) (snapshot : QuoteSnapshot) : Prop :=
  ∃ before w symbols symbol, before <+: es ∧ World.run D (.boot set) before = some w ∧
    (w.server.pricing.cache.snapshotMany D.chainId symbols).lookup symbol = some snapshot

/-- Its token is one of the chain. -/
theorem Taken.key {set : TokenSet} {es : List Event} {snapshot : QuoteSnapshot}
    (h : Taken D set es snapshot) : snapshot.generation.key.1 = D.chainId := by
  obtain ⟨before, w, symbols, symbol, -, hrun, hlookup⟩ := h
  obtain ⟨v, -, halike⟩ := alike_erased hrun
  rw [QuoteCache.lookup_snapshotMany] at hlookup
  split at hlookup
  · obtain ⟨⟨quote, generation⟩, hentry, rfl⟩ := Option.map_eq_some_iff.mp hlookup
    exact congrArg Prod.fst (halike.server.client.left.keyed _ _ _ hentry)
  · cases hlookup

/-- Other chains' prices and halts change nothing that the served chain shows: no read of
the quote cache, no liveness of a snapshot, no answer a request got and no response. -/
theorem other_chains_change_nothing {set : TokenSet} {es es' : List Event}
    (heq : es.filter (Event.keep D.chainId) = es'.filter (Event.keep D.chainId))
    (hw : World.run D (.boot set) es = some w) (hw' : World.run D (.boot set) es' = some w') :
    SameOn D.chainId w w' ∧
      ∀ snapshot, Taken D set es snapshot ∨ Taken D set es' snapshot →
        w'.server.pricing.cache.isLive snapshot.generation =
          w.server.pricing.cache.isLive snapshot.generation := by
  obtain ⟨v, hv, halike⟩ := alike_erased hw
  obtain ⟨v', hv', halike'⟩ := alike_erased hw'
  obtain rfl : v = v' := Option.some.inj (hv.symm.trans (heq ▸ hv'))
  have hsame := halike.same
  have hsame' := halike'.same
  refine ⟨⟨fun symbol => ?_, fun symbols => ?_, fun symbols => ?_, ?_, ?_⟩, fun snapshot htaken => ?_⟩
  · exact (hsame'.latest symbol).symm.trans (hsame.latest symbol)
  · exact (hsame'.snapshotMany symbols).symm.trans (hsame.snapshotMany symbols)
  · exact (hsame'.missing symbols).symm.trans (hsame.missing symbols)
  · exact hsame'.newest.symm.trans hsame.newest
  · exact hsame'.requests.symm.trans hsame.requests
  · have hkey : snapshot.generation.key.1 = D.chainId := htaken.elim Taken.key Taken.key
    exact (halike'.server.client.live hkey).symm.trans (halike.server.client.live hkey)

end Runs

namespace Sample

/-- The same run while another chain publishes, and halts, the same symbol. -/
def crowded : List Event :=
  .frame (.price { price 1700000050000 with chainId := 1 }) :: events ++
    [.frame (.halt ⟨"wtCOIN", 1, true⟩)]

theorem crowded_runs : ∃ w w', World.run deployment (.boot bootSet) events = some w ∧
    World.run deployment (.boot bootSet) crowded = some w' ∧ SameOn deployment.chainId w w' := by
  have hfilter : events.filter (Event.keep deployment.chainId) =
      crowded.filter (Event.keep deployment.chainId) := rfl
  have hruns : (World.run deployment (.boot bootSet) events).isSome = true := by decide +kernel
  have hruns' : (World.run deployment (.boot bootSet) crowded).isSome = true := by decide +kernel
  obtain ⟨w, hw⟩ := Option.isSome_iff_exists.mp hruns
  obtain ⟨w', hw'⟩ := Option.isSome_iff_exists.mp hruns'
  exact ⟨w, w', hw, hw', (other_chains_change_nothing hfilter hw hw').1⟩

end Sample

end OracleServer
