import OracleServer.SignSafety

/-! The size of the signature cache. The map is swept when it is full and at every 256th
insert; a sweep spares what is in flight. So the map is never larger than its cap or the
signs in flight, an idle entry does not outlast 256 inserts, and a finished signature that
is still in use goes only when the map is full of live ones. -/
namespace OracleServer

namespace SignatureCache

/-- The entries of the map whose sign is in flight. -/
def inFlight (c : SignatureCache) : ℕ :=
  (c.entries.retain fun _ slot => c.isInFlight slot.entry).len

/-- What is left of the map once the idle entries are dropped. -/
def unidle (cfg : SignerConfig) (c : SignatureCache) (now : Nanos) : Map B256 Slot :=
  c.entries.retain fun _ slot => c.isLive cfg slot now

variable {cfg : SignerConfig} {c : SignatureCache} {now : Nanos} {hash : B256}

lemma isInFlight_concat (m : Map B256 Slot) (n : ℕ) (e : CacheEntry) {k : ℕ}
    (h : c.isInFlight k = true) : isInFlight ⟨m, n, c.made ++ [e]⟩ k = true := by
  obtain ⟨x, hx, hflight⟩ := (Option.any_eq_true _ _).mp h
  have hlt : k < c.made.length := (List.getElem?_eq_some_iff.mp hx).1
  unfold isInFlight
  dsimp only
  rw [List.getElem?_append_left hlt, hx]
  exact hflight

lemma swept_cases (cfg : SignerConfig) (c : SignatureCache) (now : Nanos) :
    (c.swept cfg now = c.unidle cfg now ∧ (c.unidle cfg now).len < cfg.maxEntries) ∨
      cfg.maxEntries ≤ (c.unidle cfg now).len ∧
        c.swept cfg now = (c.unidle cfg now).retain fun _ slot => c.isInFlight slot.entry := by
  unfold swept
  dsimp only
  split
  · next hfull => exact .inr ⟨hfull, rfl⟩
  · next hroom => exact .inl ⟨rfl, Nat.lt_of_not_le hroom⟩

/-- A sweep restarts the counter; without one the counter grows and there is room. -/
lemma sweepIfDue_cases (cfg : SignerConfig) (c : SignatureCache) (now : Nanos) :
    c.sweepIfDue cfg now = ⟨c.swept cfg now, 0, c.made⟩ ∨
      c.sweepIfDue cfg now = ⟨c.entries, c.insertsSinceSweep + 1, c.made⟩ ∧
        c.insertsSinceSweep + 1 < sweepEveryInserts ∧ c.entries.len < cfg.maxEntries := by
  unfold sweepIfDue
  dsimp only
  split
  · exact .inl rfl
  · next hnot =>
    push Not at hnot
    exact .inr ⟨rfl, hnot.1, hnot.2⟩

/-- A fresh insert makes an entry, after a sweep or while there is room. -/
lemma insertFresh_eq (cfg : SignerConfig) (c : SignatureCache) (now : Nanos) (hash : B256) :
    ∃ (m : Map B256 Slot) (n : ℕ),
      c.insertFresh cfg now hash = (.fresh c.made.length,
        ⟨m.insert hash ⟨now, c.made.length⟩, n, c.made ++ [⟨hash, now, .pending, .held⟩]⟩) ∧
      ((m = c.swept cfg now ∧ n = 0) ∨
        m = c.entries ∧ n = c.insertsSinceSweep + 1 ∧ n < sweepEveryInserts ∧
          c.entries.len < cfg.maxEntries) := by
  rcases sweepIfDue_cases cfg c now with heq | ⟨heq, hn, hlen⟩
  · exact ⟨c.swept cfg now, 0, by simp only [insertFresh, heq], .inl ⟨rfl, rfl⟩⟩
  · exact ⟨c.entries, c.insertsSinceSweep + 1, by simp only [insertFresh, heq],
      .inr ⟨rfl, rfl, hn, hlen⟩⟩

/-- Right after an insert the map is within its cap, or all of it is in flight. -/
lemma insertFresh_bounded (cfg : SignerConfig) (c : SignatureCache) (now : Nanos) (hash : B256) :
    (c.insertFresh cfg now hash).2.entries.len ≤
      max cfg.maxEntries (c.insertFresh cfg now hash).2.inFlight := by
  obtain ⟨m, n, heq, hcases⟩ := insertFresh_eq cfg c now hash
  have hinsert := Map.len_insert_le m hash ⟨now, c.made.length⟩
  rw [heq]
  dsimp only
  rcases hcases with ⟨rfl, -⟩ | ⟨rfl, -, -, hlen⟩
  · rcases swept_cases cfg c now with ⟨hswept, hlen⟩ | ⟨-, hswept⟩
    · rw [hswept] at hinsert ⊢
      omega
    · -- only what is in flight was kept, and the new entry is
      have hall : ∀ h slot, ((c.swept cfg now).insert hash ⟨now, c.made.length⟩).lookup h = some slot →
          isInFlight ⟨(c.swept cfg now).insert hash ⟨now, c.made.length⟩, n,
            c.made ++ [⟨hash, now, .pending, .held⟩]⟩ slot.entry = true := by
        intro h slot hslot
        rw [Map.lookup_insert_eq] at hslot
        split at hslot
        · obtain rfl := Option.some.inj hslot
          simp [isInFlight, CacheEntry.isInFlight, CacheEntry.isPending, CacheEntry.senderAlive]
        · rw [hswept, Map.lookup_retain, Option.filter_eq_some_iff] at hslot
          exact isInFlight_concat _ _ _ hslot.2
      have hlen := Map.len_retain_of_forall hall
      rw [inFlight, hlen]
      exact le_max_right _ _
  · omega

end SignatureCache

namespace SignerState

variable [Keccak] {cfg : SignerConfig} {s s' : SignerState} {c : SignatureCache} {event : SignEvent}

/-- Outside a lookup nothing is inserted, counted or used. -/
lemma Moved.shrinks (h : Moved cfg s event c) :
    (∃ context, event = .call context ∧
      c = (s.cache.lookup cfg s.now (contextHash context)).2) ∨
    (c.insertsSinceSweep = s.cache.insertsSinceSweep ∧ c.made.length = s.cache.made.length ∧
      c.entries.len ≤ s.cache.entries.len ∧
      ∀ h slot, c.entries.lookup h = some slot → s.cache.entries.lookup h = some slot) := by
  have hevict : ∀ (hash : B256) (k : ℕ),
      (s.cache.evict hash k).insertsSinceSweep = s.cache.insertsSinceSweep ∧
        (s.cache.evict hash k).entries.len ≤ s.cache.entries.len := by
    intro hash k
    unfold SignatureCache.evict
    split
    · exact ⟨rfl, Map.len_erase_le _ _⟩
    · exact ⟨rfl, le_rfl⟩
  cases h with
  | same => exact .inr ⟨rfl, rfl, le_rfl, fun _ _ h => h⟩
  | lookup context => exact .inl ⟨context, rfl, rfl⟩
  | update => exact .inr ⟨rfl, by simp [SignatureCache.update], le_rfl, fun _ _ h => h⟩
  | @failed _ k e =>
    refine .inr ⟨(hevict _ _).1, ?_, (hevict _ _).2, fun h slot hs => ?_⟩
    · simp [SignatureCache.update, SignatureCache.evict_made]
    · exact ((SignatureCache.evict_lookup h k slot).mp hs).1
  | @aborted _ hash k =>
    refine .inr ⟨(hevict _ _).1, by rw [SignatureCache.evict_made], (hevict _ _).2,
      fun h slot hs => ?_⟩
    exact ((SignatureCache.evict_lookup h k slot).mp hs).1

/-- The map grows only by an insert, which leaves it within its bound. -/
lemma step_bounded (h : s.step cfg event = some s') :
    s'.cache.entries.len ≤ s.cache.entries.len ∨
      s'.cache.entries.len ≤ max cfg.maxEntries s'.cache.inFlight := by
  rcases (moved_step h).1.shrinks with ⟨context, -, hcache⟩ | ⟨-, -, hlen, -⟩
  · rw [hcache]
    rcases SignatureCache.lookup_inserts cfg s.cache s.now (contextHash context) with
      ⟨slot, hslot, -, heq⟩ | ⟨m, -, -, heq⟩
    · rw [heq]
      exact .inl (Map.len_insert_of_lookup hslot _).le
    · rw [heq]
      exact .inr (SignatureCache.insertFresh_bounded cfg _ s.now _)
  · exact .inl hlen

lemma run_bounded {es : List SignEvent} (h : run cfg es = some s) :
    ∃ es₀ s₀, es₀ <+: es ∧ run cfg es₀ = some s₀ ∧
      s.cache.entries.len ≤ max cfg.maxEntries s₀.cache.inFlight := by
  induction es using List.reverseRecOn generalizing s with
  | nil =>
    obtain rfl := Option.some.inj h
    exact ⟨[], boot, List.prefix_rfl, rfl, Nat.zero_le _⟩
  | append_singleton es event ih =>
    obtain ⟨u, hu, hstep⟩ := Machine.run_snoc.mp h
    rcases step_bounded hstep with hle | hbound
    · obtain ⟨es₀, s₀, hprefix, hs₀, hlen⟩ := ih hu
      exact ⟨es₀, s₀, hprefix.trans (List.prefix_append _ _), hs₀, hle.trans hlen⟩
    · exact ⟨es ++ [event], s, List.prefix_rfl, h, hbound⟩

lemma run_inserts {es : List SignEvent} (h : run cfg es = some s) :
    s.cache.insertsSinceSweep < sweepEveryInserts := by
  refine Machine.run_invariant (I := fun t : SignerState =>
    t.cache.insertsSinceSweep < sweepEveryInserts) (fun u event u' (_ : True) hu hstep => ?_)
    (fun _ _ => trivial) (by decide) h
  rcases (moved_step hstep).1.shrinks with ⟨context, -, hcache⟩ | ⟨hsame, -⟩
  · rw [hcache]
    rcases SignatureCache.lookup_inserts cfg u.cache u.now (contextHash context) with
      ⟨slot, -, -, heq⟩ | ⟨m, -, -, heq⟩
    · rw [heq]
      exact hu
    · obtain ⟨m', n, hinsert, hcases⟩ := SignatureCache.insertFresh_eq cfg
        { u.cache with entries := m } u.now (contextHash context)
      rw [heq, hinsert]
      rcases hcases with ⟨-, rfl⟩ | ⟨-, -, hn, -⟩
      · exact (by decide : 0 < sweepEveryInserts)
      · exact hn
  · rw [hsame]
    exact hu

omit [Keccak] in
/-- A sign that is over is over for good. -/
lemma notInFlight_later {k : ℕ} {e : CacheEntry} (hs : s.cache.Coherent)
    (hlater : s.cache.Later s'.cache) (hk : s.cache.made[k]? = some e)
    (h : s.cache.isInFlight k = false) : s'.cache.isInFlight k = false := by
  rw [SignatureCache.isInFlight_of hk] at h
  have hgone : e.senderAlive = false := by
    by_contra halive
    have hpending := CacheEntry.pending_of_alive (hs.consistent k e hk) (by simpa using halive)
    simp [CacheEntry.isInFlight, CacheEntry.isPending, hpending, halive] at h
  obtain ⟨e', hk', -, hsame⟩ := hlater k e hk
  rw [SignatureCache.isInFlight_of hk', hsame hgone]
  exact h

/-- As long as the idle entry `k` is in its slot, every insert since there were `base`
entries has been counted. -/
structure Stale (cfg : SignerConfig) (hash : B256) (k base : ℕ) (s : SignerState) : Prop where
  made : k < s.cache.made.length
  settled : s.cache.isInFlight k = false
  counted : ∀ slot, s.cache.entries.lookup hash = some slot → slot.entry = k →
    cfg.idleTtl ≤ s.now - slot.lastUsed ∧
      s.cache.made.length ≤ base + s.cache.insertsSinceSweep

lemma Stale.step {hash : B256} {k base : ℕ} (hs : Sound cfg s) (h : Stale cfg hash k base s)
    (hstep : s.step cfg event = some s') : Stale cfg hash k base s' := by
  obtain ⟨hmoved, hnow⟩ := moved_step hstep
  have hlater := later_step hstep
  obtain ⟨e, hk⟩ : ∃ e, s.cache.made[k]? = some e := ⟨_, List.getElem?_eq_getElem h.made⟩
  have hmade : k < s'.cache.made.length := by
    obtain ⟨e', hk', -⟩ := hlater k e hk
    exact (List.getElem?_eq_some_iff.mp hk').1
  refine ⟨hmade, notInFlight_later hs.coherent hlater hk h.settled, fun slot hslot hentry => ?_⟩
  -- the entry is idle, so that no lookup uses it and any sweep drops it
  have hidle : ∀ old, s.cache.entries.lookup hash = some old → old.entry = k →
      s.cache.isLive cfg old s.now = false := by
    intro old hold hentry
    have hidle := (h.counted old hold hentry).1
    simp [SignatureCache.isLive, hentry, h.settled, hidle]
  rcases hmoved.shrinks with ⟨context, rfl, hcache⟩ | ⟨hinserts, hlength, -, hsub⟩
  · rcases SignatureCache.lookup_inserts cfg s.cache s.now (contextHash context) with
      ⟨found, hfound, hlive, heq⟩ | ⟨m, hm, -, heq⟩
    · rw [hcache, heq] at hslot ⊢
      dsimp only at hslot ⊢
      rw [Map.lookup_insert_eq] at hslot
      split at hslot
      · next hhash =>
        obtain rfl := Option.some.inj hslot
        rw [hidle found (hhash ▸ hfound) hentry] at hlive
        cases hlive
      · obtain ⟨hold, hcount⟩ := h.counted slot hslot hentry
        exact ⟨hold.trans (Nat.sub_le_sub_right hnow _), hcount⟩
    · obtain ⟨m', n, hinsert, hcases⟩ := SignatureCache.insertFresh_eq cfg
        { s.cache with entries := m } s.now (contextHash context)
      rw [hcache, heq, hinsert] at hslot ⊢
      dsimp only at hslot hcases ⊢
      rw [Map.lookup_insert_eq] at hslot
      split at hslot
      · -- the new entry is another one
        obtain rfl := Option.some.inj hslot
        have hmade := h.made
        dsimp only at hentry
        omega
      · next hother =>
        have hkept : ∀ slot, m.lookup hash = some slot → s.cache.entries.lookup hash = some slot := by
          intro slot hslot
          rcases hm with rfl | rfl
          · exact hslot
          · rwa [Map.lookup_erase_eq, if_neg hother] at hslot
        rcases hcases with ⟨rfl, -⟩ | ⟨rfl, rfl, -, -⟩
        · have hlive : s.cache.isLive cfg slot s.now = true ∧ m.lookup hash = some slot := by
            rcases SignatureCache.swept_cases cfg { s.cache with entries := m } s.now with
              ⟨hswept, -⟩ | ⟨-, hswept⟩
            · rw [hswept, SignatureCache.unidle, Map.lookup_retain, Option.filter_eq_some_iff] at hslot
              exact ⟨hslot.2, hslot.1⟩
            · rw [hswept, SignatureCache.unidle, Map.lookup_retain, Option.filter_eq_some_iff,
                Map.lookup_retain, Option.filter_eq_some_iff] at hslot
              exact ⟨hslot.1.2, hslot.1.1⟩
          rw [hidle slot (hkept slot hlive.2) hentry] at hlive
          cases hlive.1
        · obtain ⟨hold, hcount⟩ := h.counted slot (hkept slot hslot) hentry
          rw [List.length_append, List.length_singleton]
          exact ⟨hold.trans (Nat.sub_le_sub_right hnow _), by omega⟩
  · obtain ⟨hold, hcount⟩ := h.counted slot (hsub hash slot hslot) hentry
    exact ⟨hold.trans (Nat.sub_le_sub_right hnow _), by omega⟩

/-- A finished signature that is in use leaves the map only when that is full of live
entries. -/
lemma finished_removed {hash : B256} {slot : Slot} {e : CacheEntry} {signature : List UInt8}
    (hs : Sound cfg s) (hstep : s.step cfg event = some s')
    (hslot : s.cache.entries.lookup hash = some slot) (hk : s.cache.made[slot.entry]? = some e)
    (hdone : e.state = .done signature) (hused : s.now - slot.lastUsed < cfg.idleTtl)
    (hout : ∀ slot', s'.cache.entries.lookup hash = some slot' → slot'.entry ≠ slot.entry) :
    ∃ context k, event = .call context ∧
      (s.cache.lookup cfg s.now (contextHash context)).1 = .fresh k ∧
      cfg.maxEntries ≤ (s.cache.unidle cfg s.now).len := by
  have hlive : s.cache.isLive cfg slot s.now = true := by
    simp [SignatureCache.isLive, hused]
  obtain ⟨hmoved, -⟩ := moved_step hstep
  generalize s'.cache = cache at hmoved hout
  -- a pending sign is another entry than this finished one
  have hother : ∀ (k : ℕ) x, s.cache.made[k]? = some x → x.state = .pending → slot.entry ≠ k := by
    rintro k x hx hpending rfl
    obtain rfl := Option.some.inj (hk.symm.trans hx)
    rw [hdone] at hpending
    cases hpending
  cases hmoved with
  | same => exact absurd rfl (hout slot hslot)
  | update => exact absurd rfl (hout slot hslot)
  | @failed _ k x _ hx halive =>
    have hpending := CacheEntry.pending_of_alive (hs.coherent.consistent k x hx) halive
    exact absurd rfl (hout slot ((SignatureCache.evict_lookup _ _ _).mpr
      ⟨hslot, fun _ => hother k x hx hpending⟩))
  | @aborted _ _ k x hx hpending =>
    exact absurd rfl (hout slot ((SignatureCache.evict_lookup _ _ _).mpr
      ⟨hslot, fun _ => hother k x hx hpending⟩))
  | lookup context =>
    rcases SignatureCache.lookup_inserts cfg s.cache s.now (contextHash context) with
      ⟨found, hfound, -, heq⟩ | ⟨m, hm, hidle, heq⟩
    · rw [heq] at hout
      by_cases hhash : hash = contextHash context
      · obtain rfl := Option.some.inj (hslot.symm.trans (hhash ▸ hfound))
        exact absurd rfl (hout { slot with lastUsed := s.now }
          (by rw [Map.lookup_insert_eq, if_pos hhash]))
      · exact absurd rfl (hout slot (by rw [Map.lookup_insert_eq, if_neg hhash, hslot]))
    · have hhash : hash ≠ contextHash context := by
        rintro rfl
        rw [hidle slot hslot] at hlive
        cases hlive
      have hkept : m.lookup hash = some slot := by
        rcases hm with rfl | rfl
        · exact hslot
        · rw [Map.lookup_erase_eq, if_neg hhash, hslot]
      obtain ⟨m', n, hinsert, hcases⟩ := SignatureCache.insertFresh_eq cfg
        { s.cache with entries := m } s.now (contextHash context)
      rw [heq, hinsert] at hout
      refine ⟨context, s.cache.made.length, rfl, by rw [heq, hinsert], ?_⟩
      dsimp only at hout hcases
      have hdropped : m'.lookup hash ≠ some slot := by
        intro hin
        exact hout slot (by rw [Map.lookup_insert_eq, if_neg hhash, hin]) rfl
      rcases hcases with ⟨rfl, -⟩ | ⟨rfl, -⟩
      · rcases SignatureCache.swept_cases cfg { s.cache with entries := m } s.now with
          ⟨hswept, -⟩ | ⟨hfull, -⟩
        · refine absurd ?_ hdropped
          rw [hswept, SignatureCache.unidle, Map.lookup_retain, hkept, Option.filter_eq_some_iff]
          exact ⟨rfl, hlive⟩
        · refine hfull.trans ?_
          rcases hm with rfl | rfl
          · exact le_rfl
          · exact Map.len_retain_erase_le _ _ _
      · exact absurd hkept hdropped

/-- The cache stays bounded and keeps what is useful. Every inserting lookup makes one
entry, so that `made` counts them. -/
theorem cache_stays_bounded {es : List SignEvent} (h : run cfg es = some s) :
    (∀ hash k c, s.cache.lookup cfg s.now hash = (.fresh k, c) →
      c.entries.len ≤ max cfg.maxEntries c.inFlight) ∧
    (∃ es₀ s₀, es₀ <+: es ∧ run cfg es₀ = some s₀ ∧
      s.cache.entries.len ≤ max cfg.maxEntries s₀.cache.inFlight) ∧
    (∀ hash slot, s.cache.entries.lookup hash = some slot →
      s.cache.isInFlight slot.entry = false → cfg.idleTtl ≤ s.now - slot.lastUsed →
      ∀ more s', Machine.run (step cfg) s more = some s' →
        s.cache.made.length + sweepEveryInserts ≤ s'.cache.made.length →
        ∀ slot', s'.cache.entries.lookup hash = some slot' → slot'.entry ≠ slot.entry) ∧
    ∀ event s' hash slot e signature, s.step cfg event = some s' →
      s.cache.entries.lookup hash = some slot → s.cache.made[slot.entry]? = some e →
      e.state = .done signature → s.now - slot.lastUsed < cfg.idleTtl →
      (∀ slot', s'.cache.entries.lookup hash = some slot' → slot'.entry ≠ slot.entry) →
      ∃ context k, event = .call context ∧
        (s.cache.lookup cfg s.now (contextHash context)).1 = .fresh k ∧
        cfg.maxEntries ≤ (s.cache.unidle cfg s.now).len := by
  have hs := run_sound h
  refine ⟨fun hash k c hlook => ?_, run_bounded h, ?_, ?_⟩
  · rcases SignatureCache.lookup_inserts cfg s.cache s.now hash with ⟨_, _, _, heq⟩ | ⟨m, _, _, heq⟩
    · rw [heq] at hlook
      cases hlook
    · have hbounded := SignatureCache.insertFresh_bounded cfg { s.cache with entries := m } s.now hash
      rw [← heq, hlook] at hbounded
      exact hbounded
  · intro hash slot hslot hover hidle more s' hmore hinserts slot' hslot' hentry
    obtain ⟨e, hk, -⟩ := hs.coherent.mapped hash slot hslot
    have hstale : Stale cfg hash slot.entry s.cache.made.length s :=
      ⟨(List.getElem?_eq_some_iff.mp hk).1, hover, fun old hold _ => by
        obtain rfl := Option.some.inj (hslot.symm.trans hold)
        exact ⟨hidle, Nat.le_add_right _ _⟩⟩
    have hrun : run cfg (es ++ more) = some s' := Machine.run_append.mpr ⟨s, h, hmore⟩
    have hlast : Sound cfg s' ∧ Stale cfg hash slot.entry s.cache.made.length s' :=
      Machine.run_invariant (I := fun t => Sound cfg t ∧ Stale cfg hash slot.entry s.cache.made.length t)
        (fun _ _ _ (_ : True) ht hstep => ⟨ht.1.step hstep, ht.2.step ht.1 hstep⟩)
        (fun _ _ => trivial) ⟨hs, hstale⟩ hmore
    have hcounted := (hlast.2.counted slot' hslot' hentry).2
    have hcounter := run_inserts hrun
    omega
  · intro event s' hash slot e signature hstep hslot hk hdone hused hout
    exact finished_removed hs hstep hslot hk hdone hused hout

end SignerState

namespace Sample

/-- A signer that keeps one entry. -/
def tightSigner : SignerConfig := ⟨seconds 120, 1, Vector.replicate 20 1⟩

/-- One sign is finished; ten seconds later another context is to be signed. -/
def crowdedOut : List SignEvent :=
  [.call [zeroSlot], .spawn 0, .attempt 0 (.signed signature), .send 0, .tick (seconds 10)]

theorem finished_sign_is_crowded_out : ∃ s s', SignerState.run tightSigner crowdedOut = some s ∧
    s.step tightSigner (.call [zeroSlot, zeroSlot]) = some s' ∧
    s'.cache.entries.lookup (contextHash [zeroSlot]) = none ∧
    1 ≤ (s.cache.unidle tightSigner s.now).len := by
  have hrun : (SignerState.run tightSigner crowdedOut).any (fun s =>
      (s.cache.entries.lookup (contextHash [zeroSlot])).any (fun slot =>
        s.now - slot.lastUsed < tightSigner.idleTtl ∧
          s.cache.made[slot.entry]?.any fun e => e.state = .done signature) ∧
      ((s.call tightSigner [zeroSlot, zeroSlot]).cache.entries.lookup
        (contextHash [zeroSlot])).isNone) = true := by decide +kernel
  obtain ⟨s, hs, hfound⟩ := (Option.any_eq_true _ _).mp hrun
  obtain ⟨hslot, hnone⟩ := of_decide_eq_true hfound
  obtain ⟨slot, hslot, hentry⟩ := (Option.any_eq_true _ _).mp hslot
  obtain ⟨hused, hentry⟩ := of_decide_eq_true hentry
  obtain ⟨e, he, hdone⟩ := (Option.any_eq_true _ _).mp hentry
  have hgone := Option.isNone_iff_eq_none.mp hnone
  obtain ⟨-, -, -, hremoved⟩ := SignerState.cache_stays_bounded hs
  obtain ⟨-, -, -, -, hfull⟩ := hremoved (.call [zeroSlot, zeroSlot]) _ _ slot e signature rfl hslot he
    (of_decide_eq_true hdone) hused fun slot' hslot' => by
      rw [hgone] at hslot'
      cases hslot'
  exact ⟨s, _, hs, rfl, hgone, hfull⟩

end Sample

end OracleServer
