import OracleServer.PricingClient

/-! The quote cache as a log of frames. Which entry a key holds and which tokens are
live are read off the events applied so far; the server's other proofs use the cache
only through the lemmas of this module. -/
namespace OracleServer

/-- The evictions of a key: its own halt, a stale source naming its symbol, or a `forget`
of a list with its symbol. -/
def ClientEvent.Evicts : ClientEvent → Key → Prop
  | .frame (.halt h), k => h.halted = true ∧ (h.chainId, h.asset) = k
  | .frame (.error e), k => e.code = .staleSource ∧ e.asset = some k.2
  | .forget symbols, k => k.2 ∈ symbols
  | _, _ => False

instance (e : ClientEvent) (k : Key) : Decidable (e.Evicts k) := by
  unfold ClientEvent.Evicts
  split <;> infer_instance

/-- A price frame for `k` that names a symbol of the subscribed list. -/
structure Accepted (assets : List Symbol) (p : PriceFrame) (k : Key) : Prop where
  key : (p.chainId, p.asset) = k
  listed : p.asset ∈ assets

/-- The quote has every field of the frame. -/
structure Quote.Copies (q : Quote) (p : PriceFrame) : Prop where
  asset : q.asset = p.asset
  chain : q.chainId = p.chainId
  base : q.base = p.base
  quote : q.quote = p.quote
  rate_base : q.rateBaseToQuote = p.rateBaseToQuote
  rate_quote : q.rateQuoteToBase = p.rateQuoteToBase
  expiry : q.expiryUnixMs = p.expiryUnixMs
  deadline : q.executionDeadlineUnixMs = p.executionDeadlineUnixMs
  source_ts : q.sourceTsUnixMs = p.sourceTsUnixMs
  nav : q.navRatio = p.navRatio
  underlying_base : q.underlyingRateBaseToQuote = p.underlyingRateBaseToQuote
  underlying_quote : q.underlyingRateQuoteToBase = p.underlyingRateQuoteToBase
  session : q.session = p.session

theorem Quote.ofPrice_copies (p : PriceFrame) : (Quote.ofPrice p).Copies p := by
  constructor <;> rfl

namespace QuoteCache

/-- A token is live exactly while the entry of its own key carries it. -/
structure Wf (c : QuoteCache) : Prop where
  live_iff : ∀ g, c.live g = true ↔ ∃ q, c.entries.lookup g.key = some ⟨q, g⟩
  keyed : ∀ k q g, c.entries.lookup k = some ⟨q, g⟩ → g.key = k
  minted : ∀ k q g, c.entries.lookup k = some ⟨q, g⟩ → g.serial < c.minted k

theorem empty_wf : empty.Wf := by
  constructor <;> simp [empty]

/-- The entry an insert leaves under its key: the token of the entry before it, or a
token the key never had. -/
def nextGeneration (c : QuoteCache) (k : Key) : QuoteGeneration :=
  match c.entries.lookup k with
  | some previous => previous.generation
  | none => ⟨k, c.minted k⟩

theorem lookup_insertQuote (c : QuoteCache) (q : Quote) (k : Key) :
    (c.insertQuote q).entries.lookup k =
      if k = (q.chainId, q.asset) then some ⟨q, c.nextGeneration k⟩ else c.entries.lookup k := by
  unfold insertQuote nextGeneration
  by_cases hk : k = (q.chainId, q.asset)
  · subst hk
    cases h : c.entries.lookup (q.chainId, q.asset) <;> simp [h, newGeneration]
  · cases h : c.entries.lookup (q.chainId, q.asset) <;>
      simp [h, newGeneration, hk]

theorem minted_insertQuote_le (c : QuoteCache) (q : Quote) (k : Key) :
    c.minted k ≤ (c.insertQuote q).minted k := by
  cases h : c.entries.lookup (q.chainId, q.asset) with
  | some e => simp [insertQuote, h]
  | none =>
    by_cases hk : k = (q.chainId, q.asset)
    · subst hk
      simp [insertQuote, h, newGeneration]
    · simp [insertQuote, h, newGeneration, Function.update_of_ne hk]

theorem insertQuote_wf {c : QuoteCache} (h : c.Wf) (q : Quote) : (c.insertQuote q).Wf := by
  have hlook := lookup_insertQuote c q
  have hmint := minted_insertQuote_le c q
  cases hprev : c.entries.lookup (q.chainId, q.asset) with
  | some e =>
    have hlive : (c.insertQuote q).live = c.live := by simp [insertQuote, hprev]
    have hnext : c.nextGeneration (q.chainId, q.asset) = e.generation := by
      simp [nextGeneration, hprev]
    have hkey := h.keyed _ _ _ hprev
    refine ⟨fun g => ?_, fun k q' g hg => ?_, fun k q' g hg => ?_⟩
    · rw [hlive, h.live_iff, hlook]
      by_cases hk : g.key = (q.chainId, q.asset)
      · rw [if_pos hk, hk, hprev, hnext]
        obtain ⟨eq, eg⟩ := e
        simp
      · rw [if_neg hk]
    · rw [hlook] at hg
      split at hg
      · next hk =>
        subst hk
        rw [hnext] at hg
        obtain ⟨-, rfl⟩ := CachedQuote.mk.inj (Option.some.inj hg)
        exact hkey
      · exact h.keyed k q' g hg
    · rw [hlook] at hg
      split at hg
      · next hk =>
        subst hk
        rw [hnext] at hg
        obtain ⟨-, rfl⟩ := CachedQuote.mk.inj (Option.some.inj hg)
        exact (h.minted _ _ _ hprev).trans_le (hmint _)
      · exact (h.minted k q' g hg).trans_le (hmint _)
  | none =>
    have hnext : c.nextGeneration (q.chainId, q.asset) =
        ⟨(q.chainId, q.asset), c.minted (q.chainId, q.asset)⟩ := by
      simp [nextGeneration, hprev]
    have hlive : (c.insertQuote q).live =
        Function.update c.live (c.nextGeneration (q.chainId, q.asset)) true := by
      simp [insertQuote, hprev, newGeneration, hnext]
    have hcount : (c.insertQuote q).minted (q.chainId, q.asset) =
        c.minted (q.chainId, q.asset) + 1 := by
      simp [insertQuote, hprev, newGeneration]
    refine ⟨fun g => ?_, fun k q' g hg => ?_, fun k q' g hg => ?_⟩
    · rw [hlive, hlook]
      by_cases hg : g = c.nextGeneration (q.chainId, q.asset)
      · subst hg
        simp [hnext]
      · rw [Function.update_of_ne hg, h.live_iff]
        by_cases hk : g.key = (q.chainId, q.asset)
        · rw [if_pos hk, hk, hprev]
          simp [Ne.symm hg]
        · rw [if_neg hk]
    · rw [hlook] at hg
      split at hg
      · next hk =>
        subst hk
        obtain ⟨-, rfl⟩ := CachedQuote.mk.inj (Option.some.inj hg)
        rw [hnext]
      · exact h.keyed k q' g hg
    · rw [hlook] at hg
      split at hg
      · next hk =>
        subst hk
        obtain ⟨-, rfl⟩ := CachedQuote.mk.inj (Option.some.inj hg)
        rw [hcount, hnext]
        exact Nat.lt_succ_self _
      · exact (h.minted k q' g hg).trans_le (hmint _)

/-- Removing entries and revoking exactly their tokens keeps entries and flags in step. -/
theorem Wf.drop {c c' : QuoteCache} (h : c.Wf) (gone : Key → Prop)
    (hlook : ∀ k, (¬ gone k → c'.entries.lookup k = c.entries.lookup k) ∧
      (gone k → c'.entries.lookup k = none))
    (hmint : c'.minted = c.minted)
    (hlive : ∀ g, c'.live g = true ↔ c.live g = true ∧ ¬ gone g.key) : c'.Wf := by
  have hsome : ∀ k e, c'.entries.lookup k = some e → ¬ gone k ∧ c.entries.lookup k = some e := by
    intro k e he
    by_cases hg : gone k
    · rw [(hlook k).2 hg] at he
      cases he
    · exact ⟨hg, (hlook k).1 hg ▸ he⟩
  refine ⟨fun g => ?_, fun k q g hg => h.keyed k q g (hsome k _ hg).2, fun k q g hg => ?_⟩
  · rw [hlive, h.live_iff]
    by_cases hg : gone g.key
    · simp [hg, (hlook g.key).2 hg]
    · simp [hg, (hlook g.key).1 hg]
  · rw [hmint]
    exact h.minted k q g (hsome k _ hg).2

theorem revokes_live (l : List (Sigma fun _ : Key => CachedQuote)) (c : QuoteCache)
    (g : QuoteGeneration) :
    (l.foldl (fun c e => c.revoke e.2.generation) c).live g = true ↔
      c.live g = true ∧ ∀ e ∈ l, e.2.generation ≠ g := by
  induction l generalizing c with
  | nil => simp
  | cons e l ih =>
    rw [List.foldl_cons, ih]
    by_cases hg : e.2.generation = g
    · subst hg
      simp [revoke]
    · simp [revoke, Function.update_of_ne (Ne.symm hg), hg]

theorem revokes_minted (l : List (Sigma fun _ : Key => CachedQuote)) (c : QuoteCache) :
    (l.foldl (fun c e => c.revoke e.2.generation) c).minted = c.minted := by
  induction l generalizing c with
  | nil => rfl
  | cons e l ih =>
    rw [List.foldl_cons, ih]
    rfl

theorem lookup_evict (c : QuoteCache) (symbols : List Symbol) (k : Key) :
    (c.evict symbols).2.entries.lookup k =
      if k.2 ∈ symbols then none else c.entries.lookup k := by
  simp only [evict, Map.lookup_retain]
  by_cases hk : k.2 ∈ symbols
  · simp [hk]
  · rw [if_neg hk]
    cases c.entries.lookup k <;> simp [hk]

theorem minted_evict (c : QuoteCache) (symbols : List Symbol) :
    (c.evict symbols).2.minted = c.minted := by
  simp only [evict]
  exact revokes_minted _ _

theorem live_evict {c : QuoteCache} (h : c.Wf) (symbols : List Symbol) (g : QuoteGeneration) :
    (c.evict symbols).2.live g = true ↔ c.live g = true ∧ g.key.2 ∉ symbols := by
  simp only [evict]
  rw [revokes_live]
  refine and_congr_right fun hl => ?_
  obtain ⟨q, hq⟩ := (h.live_iff g).mp hl
  have hmem : ⟨g.key, ⟨q, g⟩⟩ ∈ c.entries.entries := AList.mem_lookup_iff.mp hq
  constructor
  · intro hall hin
    exact hall ⟨g.key, ⟨q, g⟩⟩ (by simp [hmem, hin]) rfl
  · rintro hout ⟨k, ⟨q', g'⟩⟩ he rfl
    have he' := List.mem_filter.mp he
    have hk := h.keyed k q' g' (AList.mem_lookup_iff.mpr he'.1)
    subst hk
    exact hout (by simpa using he'.2)

theorem evict_wf {c : QuoteCache} (h : c.Wf) (symbols : List Symbol) :
    (c.evict symbols).2.Wf :=
  h.drop (fun k => k.2 ∈ symbols)
    (fun k => ⟨fun hk => by rw [lookup_evict, if_neg hk], fun hk => by rw [lookup_evict, if_pos hk]⟩)
    (minted_evict c symbols) (live_evict h symbols)

/-- The early return of `forget` is what evicting no symbol does. -/
theorem forget_eq_evict (c : QuoteCache) (symbols : List Symbol) :
    (c.forget symbols).2 = (c.evict symbols).2 := by
  cases symbols with
  | nil =>
    have hkept : c.entries.retain (fun _ _ => true) = c.entries :=
      AList.ext (by simp [Map.retain])
    simp [forget, evict, hkept]
  | cons s l => simp [forget]

theorem lookup_remove (c : QuoteCache) (a k : Key) :
    (c.remove a).entries.lookup k = if k = a then none else c.entries.lookup k := by
  unfold remove
  cases h : c.entries.lookup a with
  | none =>
    by_cases hk : k = a
    · subst hk
      simp [h]
    · simp [hk]
  | some e => simp [revoke, Map.lookup_erase_eq]

theorem minted_remove (c : QuoteCache) (a : Key) : (c.remove a).minted = c.minted := by
  unfold remove
  cases c.entries.lookup a <;> rfl

theorem live_remove {c : QuoteCache} (h : c.Wf) (a : Key) (g : QuoteGeneration) :
    (c.remove a).live g = true ↔ c.live g = true ∧ g.key ≠ a := by
  unfold remove
  cases ha : c.entries.lookup a with
  | none =>
    refine ⟨fun hl => ⟨hl, fun hk => ?_⟩, fun hl => hl.1⟩
    obtain ⟨q, hq⟩ := (h.live_iff g).mp hl
    rw [hk, ha] at hq
    cases hq
  | some e =>
    simp only [revoke]
    by_cases hg : g = e.generation
    · subst hg
      simp [h.keyed a e.quote e.generation ha]
    · rw [Function.update_of_ne hg]
      refine ⟨fun hl => ⟨hl, fun hk => ?_⟩, fun hl => hl.1⟩
      obtain ⟨q, hq⟩ := (h.live_iff g).mp hl
      rw [hk, ha] at hq
      exact hg (by rw [Option.some.inj hq])

theorem remove_wf {c : QuoteCache} (h : c.Wf) (a : Key) : (c.remove a).Wf :=
  h.drop (fun k => k = a)
    (fun k => ⟨fun hk => by rw [lookup_remove, if_neg hk], fun hk => by rw [lookup_remove, if_pos hk]⟩)
    (minted_remove c a) (live_remove h a)

/-- A snapshot holds, of the symbols it was asked for, those cached on the chain. -/
theorem lookup_snapshotMany (c : QuoteCache) (chainId : UInt64) (symbols : List Symbol)
    (sym : Symbol) :
    (c.snapshotMany chainId symbols).lookup sym =
      if sym ∈ symbols then (c.entries.lookup (chainId, sym)).map CachedQuote.snapshot
      else none := by
  have hfold : ∀ (l : List Symbol) (out : Map Symbol QuoteSnapshot),
      (l.foldl (fun out sym => match c.entries.lookup (chainId, sym) with
        | some entry => out.insert sym entry.snapshot
        | none => out) out).lookup sym =
      if sym ∈ l ∧ (c.entries.lookup (chainId, sym)).isSome
      then (c.entries.lookup (chainId, sym)).map CachedQuote.snapshot else out.lookup sym := by
    intro l
    induction l with
    | nil => simp
    | cons x l ih =>
      intro out
      rw [List.foldl_cons, ih]
      by_cases hx : sym = x
      · subst hx
        cases h : c.entries.lookup (chainId, sym) <;> simp
      · cases h : c.entries.lookup (chainId, x) <;> simp [hx]
  refine (hfold symbols ∅).trans ?_
  by_cases hin : sym ∈ symbols
  · cases h : c.entries.lookup (chainId, sym) <;> simp [hin]
  · simp [hin]

end QuoteCache

namespace ClientState

theorem step_wf {s : ClientState} (h : s.cache.Wf) (e : ClientEvent) : (s.step e).cache.Wf := by
  cases e with
  | publish l => exact h
  | forget l =>
    simp only [step, QuoteCache.forget_eq_evict]
    exact QuoteCache.evict_wf h l
  | frame f =>
    cases f with
    | price p =>
      simp only [step, QuoteCache.applyServerFrame]
      split
      · exact h
      · exact QuoteCache.insertQuote_wf h _
    | error e =>
      simp only [step, QuoteCache.applyServerFrame]
      split
      · split
        · exact QuoteCache.evict_wf h _
        · exact h
      · exact h
    | halt h' =>
      simp only [step, QuoteCache.applyServerFrame]
      split
      · exact QuoteCache.remove_wf h _
      · exact h
    | ping ts => exact h

theorem lookup_step_evict {s : ClientState} {e : ClientEvent} {k : Key} (h : e.Evicts k) :
    (s.step e).cache.entries.lookup k = none := by
  cases e with
  | publish l => exact h.elim
  | forget l =>
    simp only [step, QuoteCache.forget_eq_evict, QuoteCache.lookup_evict]
    exact if_pos h
  | frame f =>
    cases f with
    | price p => exact h.elim
    | error e =>
      obtain ⟨hcode, hasset⟩ := h
      simp [step, QuoteCache.applyServerFrame, hcode, hasset, QuoteCache.lookup_evict]
    | halt h' =>
      obtain ⟨hh, rfl⟩ := h
      simp [step, QuoteCache.applyServerFrame, hh, QuoteCache.lookup_remove]
    | ping ts => exact h.elim

theorem lookup_step_price {s : ClientState} {p : PriceFrame} {k : Key}
    (h : Accepted s.assets p k) :
    (s.step (.frame (.price p))).cache.entries.lookup k =
      some ⟨Quote.ofPrice p, s.cache.nextGeneration k⟩ := by
  have hkey : k = ((Quote.ofPrice p).chainId, (Quote.ofPrice p).asset) := h.key.symm
  have hin : (Quote.ofPrice p).asset ∈ s.assets := h.listed
  simp only [step, QuoteCache.applyServerFrame]
  rw [if_neg (by simp [hin]), QuoteCache.lookup_insertQuote, if_pos hkey]

/-- Everything else leaves the key's entry as it is. -/
theorem lookup_step_other {s : ClientState} {e : ClientEvent} {k : Key} (he : ¬ e.Evicts k)
    (hp : ∀ p, e = .frame (.price p) → ¬ Accepted s.assets p k) :
    (s.step e).cache.entries.lookup k = s.cache.entries.lookup k := by
  cases e with
  | publish l => rfl
  | forget l =>
    simp only [step, QuoteCache.forget_eq_evict, QuoteCache.lookup_evict]
    exact if_neg he
  | frame f =>
    cases f with
    | price p =>
      simp only [step, QuoteCache.applyServerFrame]
      split
      · rfl
      · next hin =>
        rw [QuoteCache.lookup_insertQuote, if_neg]
        intro hk
        exact hp p rfl ⟨hk.symm, by simpa [Quote.ofPrice] using hin⟩
    | error e =>
      simp only [step, QuoteCache.applyServerFrame]
      split
      · next hcode =>
        split
        · next asset hasset =>
          rw [QuoteCache.lookup_evict, if_neg]
          intro hk
          exact he ⟨hcode, by rw [hasset, List.mem_singleton.mp hk]⟩
        · rfl
      · rfl
    | halt h' =>
      simp only [step, QuoteCache.applyServerFrame]
      split
      · next hh =>
        rw [QuoteCache.lookup_remove, if_neg]
        intro hk
        exact he ⟨hh, hk.symm⟩
      · rfl
    | ping ts => rfl

theorem minted_step_le (s : ClientState) (e : ClientEvent) (k : Key) :
    s.cache.minted k ≤ (s.step e).cache.minted k := by
  cases e with
  | publish l => exact le_rfl
  | forget l =>
    simp only [step, QuoteCache.forget_eq_evict, QuoteCache.minted_evict, le_refl]
  | frame f =>
    cases f with
    | price p =>
      simp only [step, QuoteCache.applyServerFrame]
      split
      · exact le_rfl
      · exact QuoteCache.minted_insertQuote_le _ _ _
    | error e =>
      simp only [step, QuoteCache.applyServerFrame]
      split
      · split
        · rw [QuoteCache.minted_evict]
        · exact le_rfl
      · exact le_rfl
    | halt h' =>
      simp only [step, QuoteCache.applyServerFrame]
      split
      · rw [QuoteCache.minted_remove]
      · exact le_rfl
    | ping ts => exact le_rfl

section Logs
variable (a : List Symbol) (log rest : List ClientEvent)

theorem after_append : after a (log ++ rest) = rest.foldl step (after a log) := by
  simp [after, List.foldl_append]

theorem after_snoc (e : ClientEvent) : after a (log ++ [e]) = (after a log).step e := by
  simp [after, List.foldl_append]

theorem after_wf : (after a log).cache.Wf := by
  induction log using List.reverseRecOn with
  | nil => exact QuoteCache.empty_wf
  | append_singleton log e ih =>
    rw [after_snoc]
    exact step_wf ih e

end Logs

/-- What the log says is cached under `k`. -/
def held (a : List Symbol) (log : List ClientEvent) (k : Key) : Option CachedQuote :=
  (after a log).cache.entries.lookup k

def live (a : List Symbol) (log : List ClientEvent) (g : QuoteGeneration) : Prop :=
  (after a log).cache.live g = true

section Logs
variable {a : List Symbol} {log rest : List ClientEvent} {k : Key} {q : Quote}
  {g : QuoteGeneration}

theorem live_iff_held : live a log g ↔ ∃ q, held a log g.key = some ⟨q, g⟩ :=
  (after_wf a log).live_iff g

theorem held_key (h : held a log k = some ⟨q, g⟩) : g.key = k :=
  (after_wf a log).keyed k q g h

/-- Without an eviction the key keeps its token. -/
theorem held_persists (h : held a log k = some ⟨q, g⟩) (hrest : ∀ e ∈ rest, ¬ e.Evicts k) :
    ∃ q', held a (log ++ rest) k = some ⟨q', g⟩ := by
  induction rest using List.reverseRecOn with
  | nil => exact ⟨q, by simpa using h⟩
  | append_singleton rest e ih =>
    obtain ⟨q₁, h₁⟩ := ih fun e' he' => hrest e' (by simp [he'])
    rw [← List.append_assoc]
    unfold held at h₁ ⊢
    rw [after_snoc]
    have he : ¬ e.Evicts k := hrest e (by simp)
    by_cases hp : ∃ p, e = .frame (.price p) ∧ Accepted (after a (log ++ rest)).assets p k
    · obtain ⟨p, rfl, hacc⟩ := hp
      refine ⟨Quote.ofPrice p, ?_⟩
      rw [lookup_step_price hacc, QuoteCache.nextGeneration, h₁]
    · refine ⟨q₁, ?_⟩
      rw [lookup_step_other he fun p hpe hacc => hp ⟨p, hpe, hacc⟩]
      exact h₁

/-- A token that has left its key never comes back. -/
theorem dead_persists (rest : List ClientEvent)
    (hold : g.serial < (after a log).cache.minted g.key) (hdead : ¬ live a log g) :
    g.serial < (after a (log ++ rest)).cache.minted g.key ∧ ¬ live a (log ++ rest) g := by
  induction rest using List.reverseRecOn with
  | nil => simpa using ⟨hold, hdead⟩
  | append_singleton rest e ih =>
    obtain ⟨hold₁, hdead₁⟩ := ih
    rw [← List.append_assoc]
    refine ⟨?_, fun hlive => ?_⟩
    · rw [after_snoc]
      exact hold₁.trans_le (minted_step_le _ _ _)
    · obtain ⟨q, hq⟩ := live_iff_held.mp hlive
      unfold held at hq
      rw [after_snoc] at hq
      by_cases he : e.Evicts g.key
      · rw [lookup_step_evict he] at hq
        cases hq
      by_cases hp : ∃ p, e = .frame (.price p) ∧ Accepted (after a (log ++ rest)).assets p g.key
      · obtain ⟨p, rfl, hacc⟩ := hp
        rw [lookup_step_price hacc] at hq
        have hgen : (after a (log ++ rest)).cache.nextGeneration g.key = g :=
          (CachedQuote.mk.inj (Option.some.inj hq)).2
        unfold QuoteCache.nextGeneration at hgen
        split at hgen
        · next prev hprev =>
          refine hdead₁ (live_iff_held.mpr ⟨prev.quote, ?_⟩)
          rw [held, hprev, ← hgen]
        · have hserial : (after a (log ++ rest)).cache.minted g.key = g.serial :=
            congrArg QuoteGeneration.serial hgen
          omega
      · rw [lookup_step_other he fun p hpe hacc => hp ⟨p, hpe, hacc⟩] at hq
        exact hdead₁ (live_iff_held.mpr ⟨q, hq⟩)

/-- A snapshot is live as long as its key has not been evicted since. -/
theorem live_iff_no_evict (h : held a log k = some ⟨q, g⟩) :
    live a (log ++ rest) g ↔ ∀ e ∈ rest, ¬ e.Evicts k := by
  have hkey : g.key = k := held_key h
  constructor
  · intro hlive e he hev
    obtain ⟨l₁, l₂, rfl⟩ := List.append_of_mem he
    have hold : g.serial < (after a (log ++ l₁ ++ [e])).cache.minted g.key := by
      rw [hkey]
      refine ((after_wf a log).minted k q g h).trans_le ?_
      rw [List.append_assoc, after_append]
      generalize l₁ ++ [e] = l
      generalize after a log = s
      induction l generalizing s with
      | nil => exact le_rfl
      | cons e' l ih => exact (minted_step_le s e' k).trans (ih (s.step e'))
    have hdead : ¬ live a (log ++ l₁ ++ [e]) g := by
      intro hl
      obtain ⟨q', hq'⟩ := live_iff_held.mp hl
      unfold held at hq'
      rw [after_snoc, hkey, lookup_step_evict hev] at hq'
      cases hq'
    refine (dead_persists l₂ hold hdead).2 ?_
    simpa using hlive
  · intro hrest
    obtain ⟨q', hq'⟩ := held_persists h hrest
    exact live_iff_held.mpr ⟨q', hkey ▸ hq'⟩

/-- The entry of a key is its last accepted frame since its last eviction. -/
theorem held_origin (h : held a log k = some ⟨q, g⟩) :
    ∃ l₁ p l₂, log = l₁ ++ .frame (.price p) :: l₂ ∧ Accepted (after a l₁).assets p k ∧
      q = Quote.ofPrice p ∧ held a (l₁ ++ [.frame (.price p)]) k = some ⟨q, g⟩ ∧
      ∀ e ∈ l₂, ¬ e.Evicts k := by
  induction log using List.reverseRecOn with
  | nil => simp [held, after, QuoteCache.empty] at h
  | append_singleton log e ih =>
    have h' := h
    unfold held at h'
    rw [after_snoc] at h'
    by_cases he : e.Evicts k
    · rw [lookup_step_evict he] at h'
      cases h'
    by_cases hp : ∃ p, e = .frame (.price p) ∧ Accepted (after a log).assets p k
    · obtain ⟨p, rfl, hacc⟩ := hp
      rw [lookup_step_price hacc] at h'
      obtain ⟨rfl, -⟩ := CachedQuote.mk.inj (Option.some.inj h')
      exact ⟨log, p, [], rfl, hacc, rfl, h, by simp⟩
    · rw [lookup_step_other he fun p hpe hacc => hp ⟨p, hpe, hacc⟩] at h'
      obtain ⟨l₁, p, l₂, rfl, hacc, hq, hheld, hl₂⟩ := ih h'
      refine ⟨l₁, p, l₂ ++ [e], by simp, hacc, hq, hheld, ?_⟩
      intro e' he'
      rcases List.mem_append.mp he' with hm | hm
      · exact hl₂ e' hm
      · rw [List.mem_singleton.mp hm]
        exact he

/-- An accepted frame that nothing for its key follows is still the entry. -/
theorem held_of_last {l₁ l₂ : List ClientEvent} {p : PriceFrame}
    (hacc : Accepted (after a l₁).assets p k) (hev : ∀ e ∈ l₂, ¬ e.Evicts k)
    (hlast : ∀ m₁ p' m₂, l₂ = m₁ ++ .frame (.price p') :: m₂ →
      ¬ Accepted (after a (l₁ ++ .frame (.price p) :: m₁)).assets p' k) :
    ∃ g, held a (l₁ ++ .frame (.price p) :: l₂) k = some ⟨Quote.ofPrice p, g⟩ := by
  induction l₂ using List.reverseRecOn with
  | nil =>
    refine ⟨(after a l₁).cache.nextGeneration k, ?_⟩
    rw [held, after_snoc]
    exact lookup_step_price hacc
  | append_singleton l₂ e ih =>
    obtain ⟨g, hg⟩ := ih (fun e' he' => hev e' (by simp [he'])) fun m₁ p' m₂ hm =>
      hlast m₁ p' (m₂ ++ [e]) (by simp [hm])
    refine ⟨g, ?_⟩
    have hsplit : l₁ ++ .frame (.price p) :: (l₂ ++ [e]) =
        (l₁ ++ .frame (.price p) :: l₂) ++ [e] := by simp
    rw [hsplit, held, after_snoc, lookup_step_other (hev e (by simp)) fun p' hpe =>
      hlast l₂ p' [] (by rw [hpe])]
    exact hg

/-- Frames that say nothing about a key: prices of other keys, resumes and halts of
other keys, errors that are not a stale source naming its symbol, and pings. -/
def Unrelated (f : ServerFrame) (k : Key) : Prop :=
  match f with
  | .price p => (p.chainId, p.asset) ≠ k
  | .halt h => h.halted = false ∨ h.chainId ≠ k.1 ∨ h.asset ≠ k.2
  | .error e => e.code ≠ .staleSource ∨ e.asset ≠ some k.2
  | .ping _ => True

theorem Unrelated.not_evicts {f : ServerFrame} (h : Unrelated f k) :
    ¬ ClientEvent.Evicts (.frame f) k := by
  intro hev
  cases f with
  | price p => exact hev
  | error e =>
    obtain ⟨hcode, hasset⟩ := hev
    rcases h with h | h
    · exact h hcode
    · exact h hasset
  | halt h' =>
    obtain ⟨hh, rfl⟩ := hev
    rcases h with h | h | h
    · rw [hh] at h
      cases h
    · exact h rfl
    · exact h rfl
  | ping ts => exact hev

theorem Unrelated.not_accepted {f : ServerFrame} (h : Unrelated f k) {l : List Symbol}
    (p : PriceFrame) (hp : ClientEvent.frame f = .frame (.price p)) : ¬ Accepted l p k := by
  cases hp
  exact fun hacc => h hacc.key

/-- What a read of the cache hands out for `k`: asked for its symbol, the entry it holds. -/
theorem snapshot_iff_held {symbols : List Symbol} {snapshot : QuoteSnapshot} :
    ((after a log).cache.snapshotMany k.1 symbols).lookup k.2 = some snapshot ↔
      k.2 ∈ symbols ∧ held a log k = some ⟨snapshot.quote, snapshot.generation⟩ := by
  rw [QuoteCache.lookup_snapshotMany, held]
  by_cases hin : k.2 ∈ symbols
  · rw [if_pos hin]
    cases (after a log).cache.entries.lookup (k.1, k.2) with
    | none => simp
    | some e =>
      obtain ⟨q, g⟩ := e
      obtain ⟨q', g'⟩ := snapshot
      simp [CachedQuote.snapshot, hin]
  · simp [hin]

/-- The last accepted frame of `k` since its last eviction. -/
structure LastFrame (a : List Symbol) (log : List ClientEvent) (k : Key) (l₁ : List ClientEvent)
    (p : PriceFrame) (l₂ : List ClientEvent) : Prop where
  split : log = l₁ ++ .frame (.price p) :: l₂
  accepted : Accepted (after a l₁).assets p k
  kept : ∀ e ∈ l₂, ¬ e.Evicts k
  last : ∀ m₁ p' m₂, l₂ = m₁ ++ .frame (.price p') :: m₂ →
    ¬ Accepted (after a (l₁ ++ .frame (.price p) :: m₁)).assets p' k

/-- The cache and its tokens, for one key, read off the log of events. A snapshot is what
`snapshotMany` gave after the events `l₁`. -/
structure ReadsLog (a : List Symbol) (log : List ClientEvent) (k : Key) : Prop where
  entry_iff : (∃ e, held a log k = some e) ↔
    ∃ l₁ p l₂, log = l₁ ++ .frame (.price p) :: l₂ ∧
      Accepted (after a l₁).assets p k ∧ ∀ e ∈ l₂, ¬ e.Evicts k
  entry_last : ∀ l₁ p l₂, LastFrame a log k l₁ p l₂ → ∃ e, held a log k = some e ∧ e.quote.Copies p
  token_live : ∀ g, g.key = k → (live a log g ↔ ∃ q, held a log k = some ⟨q, g⟩)
  one_live : ∀ g g', g.key = k → g'.key = k → live a log g → live a log g' → g = g'
  snapshot_entry : ∀ symbols snapshot,
    ((after a log).cache.snapshotMany k.1 symbols).lookup k.2 = some snapshot ↔
      k.2 ∈ symbols ∧ held a log k = some ⟨snapshot.quote, snapshot.generation⟩
  snapshot_live : ∀ l₁ l₂ symbols snapshot, log = l₁ ++ l₂ →
    ((after a l₁).cache.snapshotMany k.1 symbols).lookup k.2 = some snapshot →
    snapshot.generation.key = k ∧ (live a log snapshot.generation ↔ ∀ e ∈ l₂, ¬ e.Evicts k)
  unrelated : ∀ f, Unrelated f k → held a (log ++ [.frame f]) k = held a log k ∧
    ∀ g, g.key = k → (live a (log ++ [.frame f]) g ↔ live a log g)

theorem cache_reads_log (a : List Symbol) (log : List ClientEvent) (k : Key) :
    ReadsLog a log k where
  entry_iff := by
    constructor
    · rintro ⟨⟨q, g⟩, h⟩
      obtain ⟨l₁, p, l₂, hlog, hacc, -, -, hev⟩ := held_origin h
      exact ⟨l₁, p, l₂, hlog, hacc, hev⟩
    · rintro ⟨l₁, p, l₂, rfl, hacc, hev⟩
      have h₁ : held a (l₁ ++ [.frame (.price p)]) k =
          some ⟨Quote.ofPrice p, (after a l₁).cache.nextGeneration k⟩ := by
        rw [held, after_snoc]
        exact lookup_step_price hacc
      obtain ⟨q', hq'⟩ := held_persists h₁ hev
      exact ⟨_, by simpa using hq'⟩
  entry_last := by
    rintro l₁ p l₂ ⟨rfl, hacc, hev, hlast⟩
    obtain ⟨g, hg⟩ := held_of_last hacc hev hlast
    exact ⟨_, hg, Quote.ofPrice_copies p⟩
  token_live := by
    rintro g rfl
    exact live_iff_held
  one_live := by
    intro g g' hg hg' hl hl'
    obtain ⟨q, hq⟩ := live_iff_held.mp hl
    obtain ⟨q', hq'⟩ := live_iff_held.mp hl'
    rw [hg] at hq
    rw [hg', hq] at hq'
    exact (CachedQuote.mk.inj (Option.some.inj hq')).2
  snapshot_entry := fun symbols snapshot => snapshot_iff_held
  snapshot_live := by
    rintro l₁ l₂ symbols snapshot rfl h
    have hheld := (snapshot_iff_held.mp h).2
    exact ⟨held_key hheld, live_iff_no_evict hheld⟩
  unrelated := by
    intro f hf
    have hheld : held a (log ++ [.frame f]) k = held a log k := by
      rw [held, after_snoc]
      exact lookup_step_other hf.not_evicts fun p hp => hf.not_accepted p hp
    refine ⟨hheld, ?_⟩
    rintro g rfl
    rw [live_iff_held, live_iff_held, hheld]

end Logs

end ClientState

namespace Sample

/-- A frame for `wtCOIN` on chain 8453, each word of it told apart by `n`. -/
def numbered (n : UInt8) : PriceFrame where
  asset := "wtCOIN"
  chainId := 8453
  base := Vector.replicate 20 1
  quote := Vector.replicate 20 2
  rateBaseToQuote := Vector.replicate 32 n
  rateQuoteToBase := Vector.replicate 32 (n + 1)
  expiryUnixMs := 1700000060000
  executionDeadlineUnixMs := some 1700000030000
  sourceTsUnixMs := 1700000000000
  navRatio := Vector.replicate 32 (n + 2)
  underlyingRateBaseToQuote := Vector.replicate 32 (n + 3)
  underlyingRateQuoteToBase := Vector.replicate 32 (n + 4)
  session := some ⟨.rth, 1699990000000, 1700010000000⟩

def halted : List ClientEvent :=
  [.frame (.price (numbered 10)), .frame (.halt ⟨"wtCOIN", 8453, true⟩)]

/-- Nothing of it is about `wtCOIN` on chain 8453. -/
def noise : List ClientEvent :=
  [.frame (.halt ⟨"wtCOIN", 1, true⟩), .frame (.error ⟨.staleSource, none⟩),
    .frame (.halt ⟨"wtCOIN", 8453, false⟩), .forget ["wtMSTR"]]

/-- The second frame, after a halt of the first, is what the key holds; the snapshot of the
first is dead and the second's is live. -/
theorem frame_after_a_halt_is_held :
    (∃ e, ClientState.held ["wtCOIN"] (halted ++ .frame (.price (numbered 20)) :: noise)
      (8453, "wtCOIN") = some e ∧ e.quote.Copies (numbered 20)) ∧
    ∃ first second, ((ClientState.after ["wtCOIN"] (halted.take 1)).cache.snapshotMany 8453
        ["wtMSTR", "wtCOIN"]).lookup "wtCOIN" = some first ∧
      ((ClientState.after ["wtCOIN"] (halted ++ [.frame (.price (numbered 20))])).cache.snapshotMany
        8453 ["wtCOIN"]).lookup "wtCOIN" = some second ∧
      ¬ ClientState.live ["wtCOIN"] (halted ++ .frame (.price (numbered 20)) :: noise)
        first.generation ∧
      ClientState.live ["wtCOIN"] (halted ++ .frame (.price (numbered 20)) :: noise)
        second.generation := by
  have hreads := ClientState.cache_reads_log ["wtCOIN"]
    (halted ++ .frame (.price (numbered 20)) :: noise) (8453, "wtCOIN")
  have hnoise : ∀ e ∈ noise, ¬ e.Evicts (8453, "wtCOIN") := by decide
  refine ⟨hreads.entry_last halted (numbered 20) noise ⟨rfl, ⟨rfl, by decide⟩, hnoise, ?_⟩, ?_⟩
  · intro m₁ p' m₂ hm
    have hmem : ClientEvent.frame (.price p') ∈ noise := by
      rw [hm]
      simp
    simp [noise] at hmem
  · have hfirst : (((ClientState.after ["wtCOIN"] (halted.take 1)).cache.snapshotMany 8453
        ["wtMSTR", "wtCOIN"]).lookup "wtCOIN").isSome = true := by decide
    have hsecond : (((ClientState.after ["wtCOIN"]
        (halted ++ [.frame (.price (numbered 20))])).cache.snapshotMany
        8453 ["wtCOIN"]).lookup "wtCOIN").isSome = true := by decide
    obtain ⟨first, hfirst⟩ := Option.isSome_iff_exists.mp hfirst
    obtain ⟨second, hsecond⟩ := Option.isSome_iff_exists.mp hsecond
    refine ⟨first, second, hfirst, hsecond, fun hlive => ?_, ?_⟩
    · have hkept := (hreads.snapshot_live (halted.take 1) _ _ first rfl hfirst).2.mp hlive
      exact hkept _ (List.mem_cons_self ..) ⟨rfl, rfl⟩
    · exact (hreads.snapshot_live (halted ++ [.frame (.price (numbered 20))]) noise _ second
        (by simp) hsecond).2.mpr hnoise

end Sample

end OracleServer
