import OracleServer.ReloadDiff
import OracleServer.WorldSafety

/-! The quote cache follows the running set. `Reloader::apply` replaces the set, publishes
the new list and only then forgets what left it, while frames are checked against the
list under the lock of the cache; `Settling` says what holds between these writes. -/
namespace OracleServer

open Interaction

/-- `s` left the set, or an address of it is no longer its own. -/
def Dropped (old new : TokenSet) (s : Symbol) : Prop :=
  (s ∈ old.symbols ∧ s ∉ new.symbols) ∨
    ∃ a, old.registry.tokens.lookup a = some s ∧ new.registry.tokens.lookup a ≠ some s

/-- Some chain has a quote for the symbol. -/
def ClientState.Caches (s : ClientState) (symbol : Symbol) : Prop :=
  ∃ chainId entry, s.cache.entries.lookup (chainId, symbol) = some entry

/-- A step caches a symbol anew only if the list of the moment has it, and what it evicts is
gone. -/
theorem ClientState.Caches.of_step {s : ClientState} {e : ClientEvent} {symbol : Symbol}
    (h : (s.step e).Caches symbol) :
    (s.Caches symbol ∨ symbol ∈ s.assets) ∧ ∀ l, e = .forget l → symbol ∉ l := by
  obtain ⟨chainId, entry, hentry⟩ := h
  refine ⟨?_, fun l he hl => ?_⟩
  · by_cases hp : ∃ p, e = .frame (.price p) ∧ Accepted s.assets p (chainId, symbol)
    · obtain ⟨p, rfl, hacc⟩ := hp
      obtain rfl : p.asset = symbol := (Prod.mk.inj hacc.key).2
      exact .inr hacc.listed
    · by_cases he : e.Evicts (chainId, symbol)
      · rw [lookup_step_evict he] at hentry
        cases hentry
      · rw [lookup_step_other he fun p hpe hacc => hp ⟨p, hpe, hacc⟩] at hentry
        exact .inl ⟨chainId, entry, hentry⟩
  · rw [lookup_step_evict (he ▸ hl : e.Evicts (chainId, symbol))] at hentry
    cases hentry

/-- What holds between the writes of a reload: `pending` are those still to come. -/
inductive Settling (running : TokenSet) (client : ClientState) : List ReloadStep → Prop
  | settled {pending : List ReloadStep}
    (hrest : ∀ st ∈ pending, st = .clearRejected ∨ ∃ g, st = .reject g)
    (hpublished : client.assets = running.symbols)
    (hcached : ∀ s, client.Caches s → s ∈ running.symbols) : Settling running client pending
  | sameRows (g : Option Int64) (hpublished : client.assets = running.symbols)
    (hcached : ∀ s, client.Caches s → s ∈ running.symbols) :
    Settling running client [.replace { running with generation := g }, .clearRejected]
  | replacing {set : TokenSet} {dropped : List Symbol} {pending : List ReloadStep}
    (hrest : ∀ st ∈ pending, st = .clearRejected)
    (hpublished : client.assets = running.symbols)
    (hcached : ∀ s, client.Caches s → s ∈ running.symbols)
    (hdropped : ∀ s ∈ running.symbols, s ∈ set.symbols ∨ s ∈ dropped) :
    Settling running client
      (.replace set :: .sendReplace set.symbols :: .forget dropped :: pending)
  | publishing {dropped : List Symbol} {pending : List ReloadStep}
    (hrest : ∀ st ∈ pending, st = .clearRejected)
    (hpublished : ∀ s ∈ client.assets, s ∈ running.symbols ∨ s ∈ dropped)
    (hcached : ∀ s, client.Caches s → s ∈ running.symbols ∨ s ∈ dropped) :
    Settling running client (.sendReplace running.symbols :: .forget dropped :: pending)
  | forgetting {dropped : List Symbol} {pending : List ReloadStep}
    (hrest : ∀ st ∈ pending, st = .clearRejected)
    (hpublished : client.assets = running.symbols)
    (hcached : ∀ s, client.Caches s → s ∈ running.symbols ∨ s ∈ dropped) :
    Settling running client (.forget dropped :: pending)

/-- After a frame the cache holds what it held or what is listed. -/
lemma ClientState.caches_frame {client : ClientState} {f : ServerFrame} {P : Symbol → Prop}
    (hcached : ∀ s, client.Caches s → P s) (hlisted : ∀ s ∈ client.assets, P s) :
    ∀ s, (client.step (.frame f)).Caches s → P s := by
  intro s hs
  rcases hs.of_step.1 with hs | hs
  · exact hcached s hs
  · exact hlisted s hs

/-- A frame between two writes keeps the stage. -/
theorem Settling.frame {running : TokenSet} {client : ClientState} {pending : List ReloadStep}
    (h : Settling running client pending) (f : ServerFrame) :
    Settling running (client.step (.frame f)) pending := by
  cases h with
  | settled hrest hpublished hcached =>
    exact .settled hrest hpublished (ClientState.caches_frame hcached fun s hs => hpublished ▸ hs)
  | sameRows g hpublished hcached =>
    exact .sameRows g hpublished (ClientState.caches_frame hcached fun s hs => hpublished ▸ hs)
  | replacing hrest hpublished hcached hdropped =>
    exact .replacing hrest hpublished (ClientState.caches_frame hcached fun s hs => hpublished ▸ hs)
      hdropped
  | publishing hrest hpublished hcached =>
    exact .publishing hrest hpublished (ClientState.caches_frame hcached hpublished)
  | forgetting hrest hpublished hcached =>
    exact .forgetting hrest hpublished
      (ClientState.caches_frame hcached fun s hs => .inl (hpublished ▸ hs))

/-- The next write takes the reload to its next stage. -/
theorem Settling.write {s : Running} {st : ReloadStep} {pending : List ReloadStep}
    (h : Settling s.tokens s.pricing (st :: pending)) :
    Settling (st.perform s).tokens (st.perform s).pricing pending := by
  generalize hall : st :: pending = all at h
  cases h with
  | settled hrest hpublished hcached =>
    subst hall
    have hrest' := fun st' hst' => hrest st' (List.mem_cons_of_mem _ hst')
    rcases hrest st (by simp) with rfl | ⟨g, rfl⟩
    · exact .settled hrest' hpublished hcached
    · exact .settled hrest' hpublished hcached
  | sameRows g hpublished hcached =>
    obtain ⟨rfl, rfl⟩ := List.cons.inj hall
    exact .settled (by simp) hpublished hcached
  | replacing hrest hpublished hcached hdropped =>
    obtain ⟨rfl, rfl⟩ := List.cons.inj hall
    exact .publishing hrest (fun t ht => hdropped t (hpublished ▸ ht))
      fun t ht => hdropped t (hcached t ht)
  | publishing hrest hpublished hcached =>
    obtain ⟨rfl, rfl⟩ := List.cons.inj hall
    exact .forgetting hrest rfl hcached
  | @forgetting dropped _ hrest hpublished hcached =>
    obtain ⟨rfl, rfl⟩ := List.cons.inj hall
    refine .settled (fun st' hst' => .inl (hrest st' hst')) hpublished fun t ht => ?_
    obtain ⟨hold, hgone⟩ := ht.of_step
    rcases hold with hold | hold
    · rcases hcached t hold with hin | hin
      · exact hin
      · exact absurd hin (hgone dropped rfl)
    · exact hpublished ▸ hold

/-- What a poll decides on is the first stage of a reload. -/
theorem Polled.settling [Toml] [Alloy] [Unicode] [LawfulSerde] {static : Table} {current : TokenSet}
    {client : ClientState} {steps : List ReloadStep} (h : Polled static current steps)
    (haccepts : Accepts static current) (hpublished : client.assets = current.symbols)
    (hcached : ∀ s, client.Caches s → s ∈ current.symbols) : Settling current client steps := by
  cases h with
  | idle => exact .settled (by simp) hpublished hcached
  | unchanged => exact .settled (by simp) hpublished hcached
  | refused g => exact .settled (by simp) hpublished hcached
  | sameRows g => exact .sameRows (some g) hpublished hcached
  | @applied bytes p running c r g hcandidate hrunning =>
    refine .replacing (by simp) hpublished hcached fun s hs => ?_
    obtain ⟨bytes₀, p₀, c₀, r₀, hc₀, -, hsymbols, hprojection⟩ := haccepts
    obtain rfl : running = p₀ := Option.some.inj (hrunning.symm.trans hprojection)
    by_cases hin : s ∈ c.symbols
    · exact .inl hin
    · refine .inr (List.mem_append_left _ ((mem_removed hc₀ hcandidate s).mpr ⟨?_, hin⟩))
      exact hsymbols ▸ hs

/-- A poll that drops a symbol forgets it. -/
theorem Polled.forgets [Toml] [Alloy] [Unicode] [LawfulSerde] [LawfulAlloy] [LawfulToml]
    {static : Table} {current new : TokenSet} {steps : List ReloadStep}
    (h : Polled static current steps) (haccepts : Accepts static current)
    (hnew : ReloadStep.replace new ∈ steps) {s : Symbol} (hs : Dropped current new s) :
    ∃ l, ReloadStep.forget l ∈ steps ∧ s ∈ l := by
  cases h with
  | idle => cases hnew
  | unchanged => simp at hnew
  | refused g => simp at hnew
  | sameRows g =>
    obtain rfl : new = { current with generation := some g } := by simpa using hnew
    rcases hs with ⟨hin, hout⟩ | ⟨a, hin, hout⟩
    · exact absurd hin hout
    · exact absurd hin hout
  | @applied bytes p running c r g hcandidate hrunning =>
    obtain rfl : new = ⟨r, c.symbols, some p, some g⟩ := by simpa using hnew
    obtain ⟨bytes₀, p₀, c₀, r₀, hc₀, hregistry, hsymbols, hprojection⟩ := haccepts
    obtain rfl : running = p₀ := Option.some.inj (hrunning.symm.trans hprojection)
    refine ⟨(TokenFile.change running p).removed ++ (TokenFile.change running p).readdressed,
      by simp, ?_⟩
    rcases hs with ⟨hin, hout⟩ | ⟨a, hin, hout⟩
    · exact List.mem_append_left _ ((mem_removed hc₀ hcandidate s).mpr ⟨hsymbols ▸ hin, hout⟩)
    · exact change_complete hc₀ hcandidate (hregistry ▸ hin) hout

section Runs
variable [Toml] [Alloy] [Unicode] [RainFloat] [Abi] {D : Deployment} {w w' : World}

theorem settling_step [LawfulSerde] (haccepts : Accepts D.staticConfig w.server.tokens)
    (h : Settling w.server.tokens w.server.pricing w.reloading) {e : Event}
    (hstep : World.step D w e = some w') :
    Settling w'.server.tokens w'.server.pricing w'.reloading := by
  cases World.took_of_step hstep with
  | frame f => exact h.frame f
  | poll read hidle =>
    rw [hidle] at h
    cases h with
    | settled _ hpublished hcached =>
      exact (polled _ _ _ _ _).settling haccepts hpublished hcached
  | reload hpending => exact (hpending ▸ h).write
  | arrive endpoint query body => exact h
  | @move r m i q t s hq ht =>
    change Settling s.toRunning.tokens s.toRunning.pricing w.reloading
    rw [move_running ht]
    exact h

/-- The journal only grows, and a pending `forget` stays pending until it is in it. -/
def Grows (w w' : World) : Prop :=
  ∃ rest, w'.server.journal = w.server.journal ++ rest ∧ ∀ l, ReloadStep.forget l ∈ w.reloading →
    ReloadStep.forget l ∈ w'.reloading ∨ ClientEvent.forget l ∈ rest

theorem grows_step {e : Event} (hstep : World.step D w e = some w') : Grows w w' := by
  cases World.took_of_step hstep with
  | frame f => exact ⟨[.frame f], rfl, fun l hl => .inl hl⟩
  | poll read hidle =>
    refine ⟨[], (List.append_nil _).symm, fun l hl => ?_⟩
    rw [hidle] at hl
    cases hl
  | @reload st pending hpending =>
    refine ⟨st.logged, Server.reload_journal _ _, fun l hl => ?_⟩
    rw [hpending] at hl
    rcases List.mem_cons.mp hl with rfl | hl
    · exact .inr (List.mem_singleton_self _)
    · exact .inl hl
  | arrive endpoint query body => exact ⟨[], (List.append_nil _).symm, fun l hl => .inl hl⟩
  | @move r m i q t s hq ht =>
    refine ⟨[], ?_, fun l hl => .inl hl⟩
    change s.toRunning.journal = w.server.journal ++ []
    rw [move_running ht, List.append_nil]

theorem grows_run {es : List Event} (hrun : World.run D w es = some w') : Grows w w' := by
  induction es generalizing w with
  | nil =>
    obtain rfl := Option.some.inj hrun
    exact ⟨[], (List.append_nil _).symm, fun l hl => .inl hl⟩
  | cons e es ih =>
    obtain ⟨u, hu, hrest⟩ := Machine.run_cons.mp hrun
    obtain ⟨rest, hlog, hl⟩ := grows_step hu
    obtain ⟨rest', hlog', hl'⟩ := ih hrest
    refine ⟨rest ++ rest', by rw [hlog', hlog, List.append_assoc], fun l hmem => ?_⟩
    rcases hl l hmem with hmem | hmem
    · exact (hl' l hmem).imp_right (List.mem_append_right _)
    · exact .inr (List.mem_append_left _ hmem)

/-- Between two writes of a reload the writes still to come stay as they are. -/
theorem reloading_kept {es : List Event} (hquiet : Event.reload ∉ es) (hpending : w.reloading ≠ [])
    (hrun : World.run D w es = some w') : w'.reloading = w.reloading := by
  induction es generalizing w with
  | nil =>
    obtain rfl := Option.some.inj hrun
    rfl
  | cons e es ih =>
    obtain ⟨u, hu, hrest⟩ := Machine.run_cons.mp hrun
    obtain ⟨he, hquiet⟩ := not_or.mp (List.mem_cons.not.mp hquiet)
    have hkept : u.reloading = w.reloading := by
      cases World.took_of_step hu with
      | poll read hidle => exact absurd hidle hpending
      | reload _ => exact absurd rfl he
      | _ => rfl
    rw [ih hquiet (hkept ▸ hpending) hrest, hkept]

/-- A snapshot of a dropped symbol, taken before the first write of the reload that dropped
it, is dead once the reload is through. -/
def DropsSnapshots (D : Deployment) (set : TokenSet) (es : List Event) (w : World) : Prop :=
  ∀ es₀ es₁ decided es₂ read w₀ w₁ new k q g, es = es₁ ++ .poll read :: (decided ++ es₂) →
    Event.reload ∉ decided → es₀ <+: es₁ ++ .poll read :: decided →
    World.run D (.boot set) es₀ = some w₀ →
    w₀.server.pricing.cache.entries.lookup k = some ⟨q, g⟩ →
    World.run D (.boot set) es₁ = some w₁ →
    ReloadStep.replace new ∈ Reload.poll D.staticConfig D.bootConfig w₁.server.tokens
      w₁.server.rejected read →
    Dropped w₁.server.tokens new k.2 → w.server.pricing.cache.isLive g = false

theorem settling_run [LawfulSerde] {set : TokenSet} (hset : Accepts D.staticConfig set)
    {es : List Event} (hrun : World.run D (.boot set) es = some w) :
    w.Safe D set.symbols ⟨fun _ => True, Accepts D.staticConfig⟩ ∧
      Settling w.server.tokens w.server.pricing w.reloading := by
  have hclosed : Assume.Closed ⟨fun _ => True, Accepts D.staticConfig⟩ D.staticConfig :=
    ⟨fun _ h => h, fun _ g h => accepts_generation h g⟩
  refine Machine.run_invariant (I := fun u : World =>
    u.Safe D set.symbols ⟨fun _ => True, Accepts D.staticConfig⟩ ∧
      Settling u.server.tokens u.server.pricing u.reloading)
    (fun u e u' he hu hstep => ?_) (fun e _ => Event.clocked_true e) ?_ hrun
  · exact ⟨safe_step hclosed he hu.1 hstep, settling_step hu.1.server.sets hu.2 hstep⟩
  · refine ⟨safe_boot hset, .settled (by simp [World.boot]) rfl fun s hs => ?_⟩
    obtain ⟨chainId, entry, hentry⟩ := hs
    cases hentry

/-- Once a reload has been carried out, the cache follows the running set. -/
theorem cache_follows_running_set [LawfulSerde] [LawfulAlloy] [LawfulToml] (D : Deployment)
    (set : TokenSet) (hset : Accepts D.staticConfig set) (es : List Event) (w : World)
    (hrun : World.run D (.boot set) es = some w)
    (hdone : ∀ st ∈ w.reloading, st = .clearRejected) :
    (∀ k entry, w.server.pricing.cache.entries.lookup k = some entry →
        k.2 ∈ w.server.tokens.symbols) ∧
      w.server.pricing.assets = w.server.tokens.symbols ∧ DropsSnapshots D set es w := by
  obtain ⟨hsafe, hsettling⟩ := settling_run hset hrun
  have hsettled : w.server.pricing.assets = w.server.tokens.symbols ∧
      ∀ s, w.server.pricing.Caches s → s ∈ w.server.tokens.symbols := by
    generalize hpending : w.reloading = pending at hsettling hdone
    cases hsettling with
    | settled _ hpublished hcached => exact ⟨hpublished, hcached⟩
    | sameRows g _ _ => cases hdone _ (List.mem_cons_self ..)
    | replacing _ _ _ _ => cases hdone _ (List.mem_cons_self ..)
    | publishing _ _ _ => cases hdone _ (List.mem_cons_self ..)
    | forgetting _ _ _ => cases hdone _ (List.mem_cons_self ..)
  refine ⟨fun k entry hentry => hsettled.2 k.2 ⟨k.1, entry, hentry⟩, hsettled.1, ?_⟩
  intro es₀ es₁ decided es₂ read w₀ w₁ new k q g hes hquiet hearly hrun₀ hheld hrun₁ hnew hdropped
  rw [hes] at hrun
  obtain ⟨w₁', hw₁', hrest⟩ := Machine.run_append.mp hrun
  obtain rfl : w₁' = w₁ := Option.some.inj (hw₁'.symm.trans hrun₁)
  obtain ⟨w₂, hpoll, hrest⟩ := Machine.run_cons.mp hrest
  obtain ⟨w₃, hrun₃, hrest⟩ := Machine.run_append.mp hrest
  have haccepts := (settling_run hset hrun₁).1.server.sets
  obtain ⟨l, hl, hin⟩ := (polled _ _ _ _ _).forgets haccepts hnew hdropped
  have hpending : ReloadStep.forget l ∈ w₂.reloading := by
    cases World.took_of_step hpoll with
    | poll read hidle => exact hl
  rw [← reloading_kept hquiet (List.ne_nil_of_mem hpending) hrun₃] at hpending
  -- the write that forgets the symbol is in the journal by now, after the snapshot
  obtain ⟨before, hbefore⟩ := hearly
  have hrun₃' : World.run D (.boot set) (es₀ ++ before) = some w₃ := by
    rw [hbefore]
    exact Machine.run_append.mpr ⟨w₁', hrun₁, Machine.run_cons.mpr ⟨w₂, hpoll, hrun₃⟩⟩
  obtain ⟨w₀', hw₀', hbefore⟩ := Machine.run_append.mp hrun₃'
  obtain rfl : w₀' = w₀ := Option.some.inj (hw₀'.symm.trans hrun₀)
  obtain ⟨rest, hlog, -⟩ := grows_run hbefore
  obtain ⟨rest', hlog', hforget⟩ := grows_run hrest
  have hmem : ClientEvent.forget l ∈ rest' := by
    rcases hforget l hpending with h | h
    · cases hdone _ h
    · exact h
  rw [(settling_run hset hrun₀).1.server.journal] at hheld
  have hdead : ¬ ClientState.live set.symbols w.server.journal g := by
    rw [hlog', hlog, List.append_assoc, ClientState.live_iff_no_evict hheld]
    intro halive
    exact halive (.forget l) (by simp [hmem]) hin
  rw [hsafe.server.journal]
  exact Bool.eq_false_iff.mpr hdead

end Runs

/-! The second copy of the sample token file moves the token; a frame for its old address
arrives between the writes of the reload. -/
namespace Sample

def reloadEvents : List Event :=
  [.frame (.price (price 1700000060000)), .poll (some (2, bytesOf 2)), .reload,
    .frame (.price (price 1700000090000)), .reload, .reload, .reload]

theorem follows_on_base : ∃ w, World.run deployment (.boot bootSet) reloadEvents = some w ∧
    (∀ st ∈ w.reloading, st = .clearRejected) ∧
    (∀ k entry, w.server.pricing.cache.entries.lookup k = some entry →
      k.2 ∈ w.server.tokens.symbols) ∧
    w.server.pricing.assets = w.server.tokens.symbols ∧
    DropsSnapshots deployment bootSet reloadEvents w := by
  have hidle : (World.run deployment (.boot bootSet) reloadEvents).any
      (fun w => w.reloading.isEmpty) = true := by
    decide +kernel
  obtain ⟨w, hrun, hempty⟩ := (Option.any_eq_true _ _).mp hidle
  have hdone : ∀ st ∈ w.reloading, st = .clearRejected := by
    rw [List.isEmpty_iff.mp hempty]
    simp
  exact ⟨w, hrun, hdone,
    cache_follows_running_set deployment bootSet bootSet_accepted reloadEvents w hrun hdone⟩

end Sample

end OracleServer
