import OracleServer.Lib.BigEndian
import OracleServer.Sign

/-! What holds of the signature cache along every run: a slot names an entry of its own
hash that has not failed, an entry whose task works is in its slot, and what a call has
returned is the outcome of its entry. -/
namespace OracleServer

namespace CacheEntry

/-- The sender is where an outcome, if not a failure already, will come from. -/
def isWorking (e : CacheEntry) : Bool :=
  match e.task with
  | .held | .signing _ | .evicting _ | .sending (.done _) => true
  | _ => false

/-- No failure was sent or is about to be. -/
def isUnfailed (e : CacheEntry) : Bool :=
  match e.state, e.task with
  | .failed _, _ | _, .sending (.failed _) => false
  | _, _ => true

/-- The value changes with the send, which is the last thing a task does. -/
def isConsistent (e : CacheEntry) : Bool :=
  match e.task with
  | .held | .signing _ | .evicting _ | .dead => e.state = .pending
  | .sending state => e.state = .pending && state ≠ .pending
  | .ended => e.state ≠ .pending

/-- What a call that waits for the entry gets, once that is settled. -/
def outcome (cfg : SignerConfig) (e : CacheEntry) : Option (Except String (List UInt8 × Address)) :=
  match e.state with
  | .done signature => some (.ok (signature, cfg.address))
  | .failed message => some (.error message)
  | .pending => if e.senderAlive then none else some (.error taskAborted)

lemma isInFlight_of_working {e : CacheEntry} (hc : e.isConsistent = true)
    (hw : e.isWorking = true) : e.isInFlight = true := by
  obtain ⟨hash, started, state, task⟩ := e
  cases task <;> simp_all [isConsistent, isWorking, isInFlight, isPending, senderAlive]

lemma pending_of_alive {e : CacheEntry} (hc : e.isConsistent = true)
    (halive : e.senderAlive = true) : e.state = .pending := by
  obtain ⟨hash, started, state, task⟩ := e
  cases task <;> simp_all [isConsistent, senderAlive]

end CacheEntry

namespace SignatureCache

/-- The map and the entries agree. -/
structure Coherent (c : SignatureCache) : Prop where
  consistent : ∀ (k : ℕ) e, c.made[k]? = some e → e.isConsistent = true
  mapped : ∀ h slot, c.entries.lookup h = some slot →
    ∃ e, c.made[slot.entry]? = some e ∧ e.hash = h ∧ e.isUnfailed = true
  working : ∀ (k : ℕ) e, c.made[k]? = some e → e.isWorking = true →
    ∃ slot, c.entries.lookup e.hash = some slot ∧ slot.entry = k

lemma new_coherent : new.Coherent where
  consistent k e h := by simp [new] at h
  mapped h slot hs := by simp [new] at hs
  working k e h := by simp [new] at h

lemma isInFlight_of {c : SignatureCache} {k : ℕ} {e : CacheEntry} (hk : c.made[k]? = some e) :
    c.isInFlight k = e.isInFlight := by
  simp [isInFlight, hk]

variable {cfg : SignerConfig} {c : SignatureCache} {now : Nanos} {hash : B256}

/-- A sweep removes slots, and none whose entry is in flight. -/
lemma sweepIfDue_entries (cfg : SignerConfig) (c : SignatureCache) (now : Nanos) :
    (∀ h slot, (c.sweepIfDue cfg now).entries.lookup h = some slot →
      c.entries.lookup h = some slot) ∧
    (∀ h slot, c.entries.lookup h = some slot → c.isInFlight slot.entry = true →
      (c.sweepIfDue cfg now).entries.lookup h = some slot) ∧
    (c.sweepIfDue cfg now).made = c.made := by
  have hswept : (∀ h slot, (c.swept cfg now).lookup h = some slot →
      c.entries.lookup h = some slot) ∧
      ∀ h slot, c.entries.lookup h = some slot → c.isInFlight slot.entry = true →
        (c.swept cfg now).lookup h = some slot := by
    unfold swept
    constructor
    · intro h slot hs
      dsimp only at hs
      split at hs
      · simp only [Map.lookup_retain, Option.filter_eq_some_iff] at hs
        exact hs.1.1
      · simp only [Map.lookup_retain, Option.filter_eq_some_iff] at hs
        exact hs.1
    · intro h slot hs hflight
      dsimp only
      split <;> simp [Map.lookup_retain, hs, Option.filter, isLive, hflight]
  unfold sweepIfDue
  dsimp only
  split
  · exact ⟨hswept.1, hswept.2, rfl⟩
  · exact ⟨fun _ _ h => h, fun _ _ h _ => h, rfl⟩

lemma insertFresh_cases (cfg : SignerConfig) (c : SignatureCache) (now : Nanos) (hash : B256) :
    ∃ (entries : Map B256 Slot) (inserts : ℕ),
      (∀ h slot, entries.lookup h = some slot → c.entries.lookup h = some slot) ∧
      (∀ h slot, c.entries.lookup h = some slot → c.isInFlight slot.entry = true →
        entries.lookup h = some slot) ∧
      c.insertFresh cfg now hash = (.fresh c.made.length,
        ⟨entries.insert hash ⟨now, c.made.length⟩, inserts,
          c.made ++ [⟨hash, now, .pending, .held⟩]⟩) := by
  obtain ⟨hsub, hkeep, hmade⟩ := sweepIfDue_entries cfg c now
  refine ⟨(c.sweepIfDue cfg now).entries, (c.sweepIfDue cfg now).insertsSinceSweep, hsub, hkeep, ?_⟩
  simp only [insertFresh, hmade]

/-- An inserting lookup, once it has removed an idle entry of its own hash. -/
lemma lookup_inserts (cfg : SignerConfig) (c : SignatureCache) (now : Nanos) (hash : B256) :
    (∃ slot, c.entries.lookup hash = some slot ∧ c.isLive cfg slot now = true ∧
      c.lookup cfg now hash = (.existing slot.entry,
        { c with entries := c.entries.insert hash { slot with lastUsed := now } })) ∨
    ∃ m : Map B256 Slot, (m = c.entries ∨ m = c.entries.erase hash) ∧
      (∀ slot, c.entries.lookup hash = some slot → c.isLive cfg slot now = false) ∧
      c.lookup cfg now hash = insertFresh cfg { c with entries := m } now hash := by
  unfold lookup
  split
  · next slot hslot =>
    split
    · next hlive => exact .inl ⟨slot, hslot, hlive, rfl⟩
    · next hidle =>
      refine .inr ⟨c.entries.erase hash, .inr rfl, fun slot' hslot' => ?_, rfl⟩
      obtain rfl := Option.some.inj (hslot.symm.trans hslot')
      simpa using hidle
  · next hnone =>
    refine .inr ⟨c.entries, .inl rfl, fun slot hslot => ?_, rfl⟩
    rw [hnone] at hslot
    cases hslot

/-- Everything a lookup can do. -/
lemma lookup_cases (cfg : SignerConfig) (c : SignatureCache) (now : Nanos) (hash : B256) :
    (∃ slot, c.entries.lookup hash = some slot ∧ c.isLive cfg slot now = true ∧
      c.lookup cfg now hash = (.existing slot.entry,
        { c with entries := c.entries.insert hash { slot with lastUsed := now } })) ∨
    ∃ (entries : Map B256 Slot) (inserts : ℕ),
      (∀ slot, c.entries.lookup hash = some slot → c.isLive cfg slot now = false) ∧
      (∀ h slot, entries.lookup h = some slot → c.entries.lookup h = some slot) ∧
      (∀ h slot, c.entries.lookup h = some slot → c.isInFlight slot.entry = true → h ≠ hash →
        entries.lookup h = some slot) ∧
      c.lookup cfg now hash = (.fresh c.made.length,
        ⟨entries.insert hash ⟨now, c.made.length⟩, inserts,
          c.made ++ [⟨hash, now, .pending, .held⟩]⟩) := by
  rcases lookup_inserts cfg c now hash with hexisting | ⟨m, hm, hidle, heq⟩
  · exact .inl hexisting
  obtain ⟨entries, inserts, hsub, hkeep, hinsert⟩ := insertFresh_cases cfg
    { c with entries := m } now hash
  refine .inr ⟨entries, inserts, hidle, fun h slot hs => ?_, fun h slot hs hflight hne => ?_,
    heq.trans hinsert⟩
  · have hold := hsub h slot hs
    rcases hm with rfl | rfl
    · exact hold
    · rw [Map.lookup_erase_eq] at hold
      split at hold
      · cases hold
      · exact hold
  · refine hkeep h slot ?_ hflight
    rcases hm with rfl | rfl
    · exact hs
    · rw [Map.lookup_erase_eq, if_neg hne, hs]

lemma update_made {k : ℕ} {e e' : CacheEntry} (hk : c.made[k]? = some e) (j : ℕ) :
    (c.update k e').made[j]? = if j = k then some e' else c.made[j]? := by
  have hlt : k < c.made.length := (List.getElem?_eq_some_iff.mp hk).1
  simp only [update, List.getElem?_set]
  by_cases hj : j = k
  · simp [hj, hlt]
  · simp [hj, Ne.symm hj]

/-- One entry moves on: it does not start to work again, and fails only outside the map. -/
lemma Coherent.update (hc : c.Coherent) {k : ℕ} {e e' : CacheEntry} (hk : c.made[k]? = some e)
    (hhash : e'.hash = e.hash) (hconsistent : e'.isConsistent = true)
    (hwork : e'.isWorking = true → e.isWorking = true)
    (hfail : e.isUnfailed = true → e'.isUnfailed = true) : (c.update k e').Coherent where
  consistent j x hj := by
    rw [update_made hk] at hj
    split at hj
    · exact Option.some.inj hj ▸ hconsistent
    · exact hc.consistent j x hj
  mapped h slot hs := by
    obtain ⟨x, hx, hxh, hxu⟩ := hc.mapped h slot hs
    rw [update_made hk]
    by_cases hj : slot.entry = k
    · rw [hj, hk] at hx
      obtain rfl := Option.some.inj hx
      exact ⟨e', by simp [hj], hhash.trans hxh, hfail hxu⟩
    · exact ⟨x, by simp [hj, hx], hxh, hxu⟩
  working j x hj hx := by
    rw [update_made hk] at hj
    split at hj
    · next heq =>
      obtain rfl := Option.some.inj hj
      obtain ⟨slot, hslot, hentry⟩ := hc.working k e hk (hwork hx)
      exact ⟨slot, hhash ▸ hslot, hentry.trans heq.symm⟩
    · exact hc.working j x hj hx

lemma evict_made (k : ℕ) : (c.evict hash k).made = c.made := by
  unfold evict
  split <;> rfl

lemma evict_lookup (h : B256) (k : ℕ) (slot : Slot) :
    (c.evict hash k).entries.lookup h = some slot ↔
      c.entries.lookup h = some slot ∧ (h = hash → slot.entry ≠ k) := by
  unfold evict
  split
  · next hany =>
    obtain ⟨slot', hslot', hentry⟩ := (Option.any_eq_true _ _).mp hany
    rw [Map.lookup_erase_eq]
    split
    · next heq =>
      subst heq
      simp only [reduceCtorEq, false_iff, not_and]
      intro hs
      rw [hs] at hslot'
      obtain rfl := Option.some.inj hslot'
      simpa using hentry
    · next hne => simp [hne]
  · next hany =>
    refine ⟨fun hs => ⟨hs, ?_⟩, fun hs => hs.1⟩
    rintro rfl hentry
    exact hany (by simp [hs, hentry])

/-- An entry that no longer works leaves the map, and may then fail. -/
lemma Coherent.evict (hc : c.Coherent) {k : ℕ} {e e' : CacheEntry} (hk : c.made[k]? = some e)
    (hconsistent : e'.isConsistent = true)
    (hdone : e'.isWorking = false) : ((c.evict e.hash k).update k e').Coherent where
  consistent j x hj := by
    rw [update_made (evict_made k ▸ hk), evict_made] at hj
    split at hj
    · exact Option.some.inj hj ▸ hconsistent
    · exact hc.consistent j x hj
  mapped h slot hs := by
    obtain ⟨hs, hout⟩ := (evict_lookup h k slot).mp hs
    obtain ⟨x, hx, hxh, hxu⟩ := hc.mapped h slot hs
    have hj : slot.entry ≠ k := by
      intro hj
      rw [hj, hk] at hx
      obtain rfl := Option.some.inj hx
      exact hout hxh.symm hj
    rw [update_made (evict_made k ▸ hk), evict_made]
    exact ⟨x, by simp [hj, hx], hxh, hxu⟩
  working j x hj hx := by
    rw [update_made (evict_made k ▸ hk), evict_made] at hj
    split at hj
    · obtain rfl := Option.some.inj hj
      rw [hdone] at hx
      cases hx
    · next hne =>
      obtain ⟨slot, hslot, hentry⟩ := hc.working j x hj hx
      exact ⟨slot, (evict_lookup x.hash k slot).mpr ⟨hslot, fun _ => hentry ▸ hne⟩, hentry⟩

/-- A slot that a lookup finds live keeps its entry; a fresh entry takes the place of one
that is not in flight. -/
lemma Coherent.lookup (cfg : SignerConfig) (hc : c.Coherent) (now : Nanos) (hash : B256) :
    (c.lookup cfg now hash).2.Coherent := by
  rcases lookup_cases cfg c now hash with
    ⟨slot, hslot, -, heq⟩ | ⟨entries, inserts, hidle, hsub, hkeep, heq⟩
  · rw [heq]
    have hlook : ∀ h slot', (c.entries.insert hash { slot with lastUsed := now }).lookup h =
        some slot' → ∃ old, c.entries.lookup h = some old ∧ slot'.entry = old.entry := by
      intro h slot' hs
      rw [Map.lookup_insert_eq] at hs
      split at hs
      · next heq =>
        obtain rfl := Option.some.inj hs
        exact ⟨slot, heq ▸ hslot, rfl⟩
      · exact ⟨slot', hs, rfl⟩
    refine ⟨hc.consistent, fun h slot' hs => ?_, fun k e hk hw => ?_⟩
    · obtain ⟨old, hold, hentry⟩ := hlook h slot' hs
      rw [hentry]
      exact hc.mapped h old hold
    · obtain ⟨old, hold, hentry⟩ := hc.working k e hk hw
      dsimp only
      by_cases hh : e.hash = hash
      · rw [hh, hslot] at hold
        obtain rfl := Option.some.inj hold
        exact ⟨{ slot with lastUsed := now }, by rw [hh, Map.lookup_insert_eq, if_pos rfl], hentry⟩
      · exact ⟨old, by rw [Map.lookup_insert_eq, if_neg hh, hold], hentry⟩
  · rw [heq]
    have hmade : ∀ (k : ℕ) e, (c.made ++ [⟨hash, now, .pending, .held⟩])[k]? = some e →
        c.made[k]? = some e ∨ k = c.made.length ∧ e = ⟨hash, now, .pending, .held⟩ := by
      intro k e hk
      rcases Nat.lt_trichotomy k c.made.length with hlt | rfl | hgt
      · left
        rwa [List.getElem?_append_left hlt] at hk
      · right
        simp only [List.getElem?_concat_length, Option.some.injEq] at hk
        exact ⟨rfl, hk.symm⟩
      · have hlen : (c.made ++ [CacheEntry.mk hash now .pending .held]).length ≤ k := by
          rw [List.length_append, List.length_singleton]
          omega
        rw [List.getElem?_eq_none hlen] at hk
        cases hk
    refine ⟨fun k e hk => ?_, fun h slot hs => ?_, fun k e hk hw => ?_⟩
    · rcases hmade k e hk with hk | ⟨-, rfl⟩
      · exact hc.consistent k e hk
      · rfl
    · dsimp only at hs ⊢
      rw [Map.lookup_insert_eq] at hs
      split at hs
      · next hh =>
        obtain rfl := Option.some.inj hs
        exact ⟨_, List.getElem?_concat_length, hh.symm, rfl⟩
      · obtain ⟨e, he, hrest⟩ := hc.mapped h slot (hsub h slot hs)
        exact ⟨e, List.getElem?_append_left (List.getElem?_eq_some_iff.mp he).1 ▸ he, hrest⟩
    · dsimp only
      rcases hmade k e hk with hk | ⟨rfl, rfl⟩
      · obtain ⟨slot, hslot, hentry⟩ := hc.working k e hk hw
        have hflight : c.isInFlight slot.entry = true := by
          rw [hentry, isInFlight_of hk]
          exact CacheEntry.isInFlight_of_working (hc.consistent k e hk) hw
        have hne : e.hash ≠ hash := by
          intro hh
          have hdead := hidle slot (hh ▸ hslot)
          simp [isLive, hflight] at hdead
        exact ⟨slot, by rw [Map.lookup_insert_eq, if_neg hne]; exact hkeep _ _ hslot hflight hne,
          hentry⟩
      · exact ⟨⟨now, c.made.length⟩, by simp, rfl⟩

lemma update_self {k : ℕ} {e : CacheEntry} (hk : c.made[k]? = some e) : c.update k e = c := by
  obtain ⟨hlt, rfl⟩ := List.getElem?_eq_some_iff.mp hk
  simp [update]

/-- What a caller that looks up `hash` can be given. -/
lemma Coherent.lookup_existing (hc : c.Coherent) {now : Nanos} {k : ℕ}
    (hlook : (c.lookup cfg now hash).1 = .existing k) :
    ∃ slot e, c.entries.lookup hash = some slot ∧ slot.entry = k ∧
      c.isLive cfg slot now = true ∧ c.made[k]? = some e ∧ e.hash = hash ∧
      e.isUnfailed = true := by
  rcases lookup_cases cfg c now hash with ⟨slot, hslot, hlive, heq⟩ | ⟨_, _, -, -, -, heq⟩
  · rw [heq] at hlook
    obtain rfl := Lookup.existing.inj hlook
    obtain ⟨e, he, hhash, hunfailed⟩ := hc.mapped hash slot hslot
    exact ⟨slot, e, hslot, rfl, hlive, he, hhash, hunfailed⟩
  · rw [heq] at hlook
    cases hlook

/-- An entry whose task works is found by every lookup of its hash. -/
lemma Coherent.lookup_working (cfg : SignerConfig) (hc : c.Coherent) {k : ℕ} {e : CacheEntry}
    (hk : c.made[k]? = some e) (hw : e.isWorking = true) (now : Nanos) :
    (c.lookup cfg now e.hash).1 = .existing k := by
  obtain ⟨slot, hslot, rfl⟩ := hc.working k e hk hw
  have hflight : c.isInFlight slot.entry = true := by
    rw [isInFlight_of hk]
    exact CacheEntry.isInFlight_of_working (hc.consistent _ e hk) hw
  simp [SignatureCache.lookup, hslot, isLive, hflight]

/-- Entries stay, and one whose sender is gone never changes again. -/
def Later (c c' : SignatureCache) : Prop :=
  ∀ (k : ℕ) e, c.made[k]? = some e → ∃ e', c'.made[k]? = some e' ∧ e'.hash = e.hash ∧
    (e.senderAlive = false → e' = e)

lemma Later.refl (c : SignatureCache) : c.Later c := fun _ e hk => ⟨e, hk, rfl, fun _ => rfl⟩

lemma Later.of_made {c' : SignatureCache} (h : c'.made = c.made) : c.Later c' :=
  fun _ e hk => ⟨e, h ▸ hk, rfl, fun _ => rfl⟩

lemma Later.trans {c₁ c₂ c₃ : SignatureCache} (h : c₁.Later c₂) (h' : c₂.Later c₃) :
    c₁.Later c₃ := by
  intro k e hk
  obtain ⟨e₂, hk₂, hhash₂, hsame₂⟩ := h k e hk
  obtain ⟨e₃, hk₃, hhash₃, hsame₃⟩ := h' k e₂ hk₂
  refine ⟨e₃, hk₃, hhash₃.trans hhash₂, fun hgone => ?_⟩
  have heq : e₂ = e := hsame₂ hgone
  exact (hsame₃ (heq ▸ hgone)).trans heq

lemma later_update {k : ℕ} {e e' : CacheEntry} (hk : c.made[k]? = some e)
    (halive : e.senderAlive = true) (hhash : e'.hash = e.hash) : c.Later (c.update k e') := by
  intro j x hj
  rw [update_made hk]
  by_cases heq : j = k
  · subst heq
    rw [hk] at hj
    obtain rfl := Option.some.inj hj
    exact ⟨e', by simp, hhash, fun hgone => by simp [halive] at hgone⟩
  · exact ⟨x, by simp [heq, hj], rfl, fun _ => rfl⟩

lemma later_lookup (cfg : SignerConfig) (c : SignatureCache) (now : Nanos) (hash : B256) :
    c.Later (c.lookup cfg now hash).2 := by
  rcases lookup_cases cfg c now hash with ⟨_, _, _, heq⟩ | ⟨_, _, _, _, _, heq⟩
  · rw [heq]
    exact .of_made rfl
  · rw [heq]
    intro k e hk
    have hlt : k < c.made.length := (List.getElem?_eq_some_iff.mp hk).1
    exact ⟨e, by rw [List.getElem?_append_left hlt, hk], rfl, fun _ => rfl⟩

end SignatureCache

/-- What waits for an entry got is settled for good. -/
lemma CacheEntry.gone_of_outcome {cfg : SignerConfig} {e : CacheEntry}
    {r : Except String (List UInt8 × Address)} (hc : e.isConsistent = true)
    (h : e.outcome cfg = some r) : e.senderAlive = false := by
  obtain ⟨hash, started, state, task⟩ := e
  cases task <;> cases state <;> simp_all [isConsistent, senderAlive, outcome]

namespace SignerState

variable [Keccak] {cfg : SignerConfig} {s s' : SignerState}

/-- The cache is coherent, every signature in it came from the backend for the hash of its
entry, and a call waits for an entry of the hash of its context and returns its outcome. -/
structure Sound (cfg : SignerConfig) (s : SignerState) : Prop where
  coherent : s.cache.Coherent
  produced : ∀ (k : ℕ) e signature, s.cache.made[k]? = some e →
    (e.state = .done signature ∨ e.task = .sending (.done signature)) →
    (e.hash, signature) ∈ s.produced
  calls : ∀ c ∈ s.calls, ∃ e, s.cache.made[c.entry]? = some e ∧
    e.hash = contextHash c.context ∧ ∀ r, c.phase = .returned r → e.outcome cfg = some r

lemma boot_sound (cfg : SignerConfig) : Sound cfg boot where
  coherent := SignatureCache.new_coherent
  produced k e signature h := by simp [boot, SignatureCache.new] at h
  calls c hc := by simp [boot] at hc

/-- An entry moves on while its sender is alive, and with it perhaps the record. -/
lemma Sound.move (hs : Sound cfg s) {cache : SignatureCache} {produced : List (B256 × List UInt8)}
    {k : ℕ} {e e' : CacheEntry} (hk : s.cache.made[k]? = some e) (halive : e.senderAlive = true)
    (hhash : e'.hash = e.hash) (hcache : cache.Coherent)
    (hmade : cache.made = (s.cache.update k e').made) (hsub : s.produced ⊆ produced)
    (hnew : ∀ signature, e'.state = .done signature ∨ e'.task = .sending (.done signature) →
      (e.hash, signature) ∈ produced) :
    Sound cfg { s with cache := cache, produced := produced } where
  coherent := hcache
  produced j x signature hj hdone := by
    dsimp only at hj ⊢
    rw [hmade, SignatureCache.update_made hk] at hj
    split at hj
    · obtain rfl := Option.some.inj hj
      rw [hhash]
      exact hnew signature hdone
    · exact hsub (hs.produced j x signature hj hdone)
  calls c hc := by
    obtain ⟨x, hx, hxh, hret⟩ := hs.calls c hc
    obtain ⟨x', hx', hxh', hsame⟩ := SignatureCache.later_update hk halive hhash c.entry x hx
    refine ⟨x', by rw [hmade, hx'], hxh'.trans hxh, fun r hr => ?_⟩
    have hout := hret r hr
    rw [hsame (CacheEntry.gone_of_outcome (hs.coherent.consistent _ x hx) hout)]
    exact hout

/-- The sender moves on with nothing to send yet. -/
lemma Sound.setTask (hs : Sound cfg s) {k : ℕ} {e : CacheEntry} {task : SignTask}
    (hk : s.cache.made[k]? = some e) (halive : e.senderAlive = true)
    (hwork : e.isWorking = true ∨ task = .dead) (hsend : ∀ state, task ≠ .sending state)
    (hend : task ≠ .ended) : Sound cfg (s.setTask k e task) := by
  have hstate := CacheEntry.pending_of_alive (hs.coherent.consistent k e hk) halive
  have hhash : { e with task := task }.hash = e.hash := rfl
  refine hs.move hk halive hhash ?_ rfl (List.Subset.refl _) ?_
  · apply hs.coherent.update hk hhash
    · cases task <;> simp_all [CacheEntry.isConsistent]
    · rcases hwork with hwork | rfl
      · exact fun _ => hwork
      · simp [CacheEntry.isWorking]
    · cases task <;> simp_all [CacheEntry.isUnfailed]
  · intro signature h
    simp [hstate, hsend] at h

/-- A call moves on; if it returns, it returns the outcome of its entry. -/
lemma Sound.setPhase (hs : Sound cfg s) {j : ℕ} {c : Call} {phase : CallPhase}
    (hj : s.calls[j]? = some c)
    (hret : ∀ r, phase = .returned r →
      ∃ e, s.cache.made[c.entry]? = some e ∧ e.outcome cfg = some r) :
    Sound cfg (s.setPhase j c phase) where
  coherent := hs.coherent
  produced := hs.produced
  calls c' hc' := by
    rcases List.mem_or_eq_of_mem_set hc' with hold | rfl
    · exact hs.calls c' hold
    · obtain ⟨e, he, hhash, -⟩ := hs.calls c (List.mem_of_getElem? hj)
      refine ⟨e, he, hhash, fun r hr => ?_⟩
      obtain ⟨e', he', hout⟩ := hret r hr
      rw [he] at he'
      obtain rfl := Option.some.inj he'
      exact hout

lemma Sound.call (hs : Sound cfg s) (context : List B256) : Sound cfg (s.call cfg context) := by
  have hcoherent := hs.coherent.lookup cfg s.now (contextHash context)
  have hlater := s.cache.later_lookup cfg s.now (contextHash context)
  have hcalls : ∀ c ∈ s.calls, ∃ e,
      (s.cache.lookup cfg s.now (contextHash context)).2.made[c.entry]? = some e ∧
      e.hash = contextHash c.context ∧ ∀ r, c.phase = .returned r → e.outcome cfg = some r := by
    intro c hc
    obtain ⟨e, he, hhash, hret⟩ := hs.calls c hc
    obtain ⟨e', he', hhash', hsame⟩ := hlater c.entry e he
    refine ⟨e', he', hhash'.trans hhash, fun r hr => ?_⟩
    have hout := hret r hr
    rw [hsame (CacheEntry.gone_of_outcome (hs.coherent.consistent _ e he) hout)]
    exact hout
  rcases SignatureCache.lookup_cases cfg s.cache s.now (contextHash context) with
    ⟨slot, hslot, -, heq⟩ | ⟨entries, inserts, -, -, -, heq⟩
  · obtain ⟨e, he, hhash, -⟩ := hs.coherent.mapped _ slot hslot
    simp only [SignerState.call, heq] at hcoherent hcalls ⊢
    refine ⟨hcoherent, hs.produced, fun c hc => ?_⟩
    rcases List.mem_append.mp hc with hold | hnew
    · exact hcalls c hold
    · obtain rfl := List.mem_singleton.mp hnew
      exact ⟨e, he, hhash, fun r hr => by cases hr⟩
  · simp only [SignerState.call, heq] at hcoherent hcalls ⊢
    refine ⟨hcoherent, fun k e signature hk hdone => ?_, fun c hc => ?_⟩
    · dsimp only at hk
      rw [List.getElem?_append] at hk
      split at hk
      · exact hs.produced k e signature hk hdone
      · obtain rfl := List.mem_singleton.mp (List.mem_of_getElem? hk)
        simp at hdone
    · rcases List.mem_append.mp hc with hold | hnew
      · exact hcalls c hold
      · obtain rfl := List.mem_singleton.mp hnew
        exact ⟨_, List.getElem?_concat_length, rfl, fun r hr => by cases hr⟩

lemma Sound.spawn (hs : Sound cfg s) {j : ℕ} (h : s.spawn j = some s') : Sound cfg s' := by
  simp only [SignerState.spawn, Option.bind_eq_bind, Option.bind_eq_some_iff] at h
  obtain ⟨c, hj, e, he, h⟩ := h
  split at h
  · next htask =>
    obtain rfl := Option.some.inj h
    have hmoved : Sound cfg (s.setTask c.entry e (.signing false)) :=
      hs.setTask he (by simp [CacheEntry.senderAlive, htask])
        (.inl (by simp [CacheEntry.isWorking, htask])) (by simp) (by simp)
    exact hmoved.setPhase hj (fun r hr => by cases hr)
  · cases h

lemma Sound.attempt (hs : Sound cfg s) {k : ℕ} {outcome : Attempt}
    (h : s.attempt k outcome = some s') : Sound cfg s' := by
  simp only [SignerState.attempt, Option.bind_eq_bind, Option.bind_eq_some_iff] at h
  obtain ⟨e, he, h⟩ := h
  -- A further attempt, or the failure of the last one.
  have hmoved : ∀ retry task, e.task = .signing retry → (∀ state, task ≠ .sending state) →
      task ≠ .ended → Sound cfg (s.setTask k e task) := by
    intro retry task htask hsend hend
    apply hs.setTask he _ _ hsend hend
    · simp [CacheEntry.senderAlive, htask]
    · left
      simp [CacheEntry.isWorking, htask]
  split at h
  · next retry signature htask =>
    obtain rfl := Option.some.inj h
    have halive : e.senderAlive = true := by simp [CacheEntry.senderAlive, htask]
    have hstate := CacheEntry.pending_of_alive (hs.coherent.consistent k e he) halive
    have hhash : { e with task := .sending (.done signature) }.hash = e.hash := rfl
    refine hs.move he halive hhash ?_ rfl
      (List.subset_append_left _ _) ?_
    · apply hs.coherent.update he hhash
      · simp [CacheEntry.isConsistent, hstate]
      · intro _
        simp [CacheEntry.isWorking, htask]
      · intro _
        simp [CacheEntry.isUnfailed, hstate]
    · intro signature' hdone
      simp only [hstate, reduceCtorEq, SignTask.sending.injEq, SignState.done.injEq,
        false_or] at hdone
      simp [hdone]
  · next htask _ => exact Option.some.inj h ▸ hmoved false _ htask (by simp) (by simp)
  · next htask => exact Option.some.inj h ▸ hmoved true _ htask (by simp) (by simp)
  · next htask => exact Option.some.inj h ▸ hmoved true _ htask (by simp) (by simp)
  · cases h

lemma Sound.evict (hs : Sound cfg s) {k : ℕ} (h : s.evict k = some s') : Sound cfg s' := by
  simp only [SignerState.evict, Option.bind_eq_bind, Option.bind_eq_some_iff] at h
  obtain ⟨e, he, h⟩ := h
  split at h
  · next message htask =>
    obtain rfl := Option.some.inj h
    have halive : e.senderAlive = true := by simp [CacheEntry.senderAlive, htask]
    have hstate := CacheEntry.pending_of_alive (hs.coherent.consistent k e he) halive
    have hhash : { e with task := .sending (.failed message) }.hash = e.hash := rfl
    refine hs.move he halive hhash
      (hs.coherent.evict he ?_ ?_) ?_ (List.Subset.refl _) ?_
    · simp [CacheEntry.isConsistent, hstate]
    · simp [CacheEntry.isWorking]
    · simp [SignatureCache.update, SignatureCache.evict_made]
    · intro signature hdone
      simp [hstate] at hdone
  · cases h

lemma Sound.send (hs : Sound cfg s) {k : ℕ} (h : s.send k = some s') : Sound cfg s' := by
  simp only [SignerState.send, Option.bind_eq_bind, Option.bind_eq_some_iff] at h
  obtain ⟨e, he, h⟩ := h
  split at h
  · next state htask =>
    obtain rfl := Option.some.inj h
    have hold : e.state = .pending ∧ state ≠ .pending := by
      simpa [CacheEntry.isConsistent, htask] using hs.coherent.consistent _ e he
    have hhash : { e with state := state, task := .ended }.hash = e.hash := rfl
    refine hs.move he (by simp [CacheEntry.senderAlive, htask]) hhash ?_ rfl
      (List.Subset.refl _) ?_
    · apply hs.coherent.update he hhash
      · simp [CacheEntry.isConsistent, hold.2]
      · simp [CacheEntry.isWorking]
      · cases state <;> simp [CacheEntry.isUnfailed, hold.1, htask]
    · intro signature hdone
      simp only [reduceCtorEq, or_false] at hdone
      exact hs.produced k e signature he (.inr (by rw [htask, hdone]))
  · cases h

lemma Sound.die (hs : Sound cfg s) {k : ℕ} (h : s.die k = some s') : Sound cfg s' := by
  simp only [SignerState.die, Option.bind_eq_bind, Option.bind_eq_some_iff] at h
  obtain ⟨e, he, h⟩ := h
  have hmoved : e.senderAlive = true → Sound cfg (s.setTask k e .dead) := fun halive =>
    hs.setTask he halive (.inr rfl) (by simp) (by simp)
  split at h
  · next htask => exact Option.some.inj h ▸ hmoved (by simp [CacheEntry.senderAlive, htask])
  · next htask => exact Option.some.inj h ▸ hmoved (by simp [CacheEntry.senderAlive, htask])
  · next htask => exact Option.some.inj h ▸ hmoved (by simp [CacheEntry.senderAlive, htask])
  · cases h

lemma Sound.poll (hs : Sound cfg s) {j : ℕ} (h : s.poll cfg j = some s') : Sound cfg s' := by
  simp only [SignerState.poll, Option.bind_eq_bind, Option.bind_eq_some_iff] at h
  obtain ⟨c, hj, e, he, h⟩ := h
  split at h
  · split at h
    · next signature hstate =>
      obtain rfl := Option.some.inj h
      apply hs.setPhase hj
      intro r hr
      obtain rfl := CallPhase.returned.inj hr
      exact ⟨e, he, by simp [CacheEntry.outcome, hstate]⟩
    · next message hstate =>
      obtain rfl := Option.some.inj h
      apply hs.setPhase hj
      intro r hr
      obtain rfl := CallPhase.returned.inj hr
      exact ⟨e, he, by simp [CacheEntry.outcome, hstate]⟩
    · next hstate =>
      split at h
      · next hgone =>
        obtain rfl := Option.some.inj h
        have hworks : e.isWorking = false := by
          cases htask : e.task <;> simp_all [CacheEntry.isWorking, CacheEntry.senderAlive]
        have hcoherent := hs.coherent.evict he (hs.coherent.consistent _ e he) hworks
        have hkept : (s.cache.evict e.hash c.entry).made[c.entry]? = some e := by
          rw [SignatureCache.evict_made, he]
        rw [SignatureCache.update_self hkept] at hcoherent
        obtain ⟨e', he', hhash, -⟩ := hs.calls c (List.mem_of_getElem? hj)
        rw [he] at he'
        obtain rfl := Option.some.inj he'
        rw [hhash] at hcoherent
        have hevicted : Sound cfg
            { s with cache := s.cache.evict (contextHash c.context) c.entry } := by
          refine ⟨hcoherent, ?_, ?_⟩
          · rw [SignatureCache.evict_made]
            exact hs.produced
          · rw [SignatureCache.evict_made]
            exact hs.calls
        apply hevicted.setPhase hj
        intro r hr
        obtain rfl := CallPhase.returned.inj hr
        refine ⟨e, by rw [SignatureCache.evict_made, he], ?_⟩
        simp_all [CacheEntry.outcome]
      · split at h
        · obtain rfl := Option.some.inj h
          exact hs.setPhase hj (fun r hr => by cases hr)
        · cases h
  · cases h

lemma Sound.disconnect (hs : Sound cfg s) {j : ℕ} (h : s.disconnect j = some s') :
    Sound cfg s' := by
  simp only [SignerState.disconnect, Option.bind_eq_bind, Option.bind_eq_some_iff] at h
  obtain ⟨c, hj, h⟩ := h
  split at h
  · obtain rfl := Option.some.inj h
    exact hs.setPhase hj (fun r hr => by cases hr)
  · cases h

/-- One event keeps the signer sound. -/
theorem Sound.step (hs : Sound cfg s) {event : SignEvent} (h : s.step cfg event = some s') :
    Sound cfg s' := by
  cases event with
  | tick elapsed =>
    obtain rfl := Option.some.inj h
    exact ⟨hs.coherent, hs.produced, hs.calls⟩
  | call context =>
    obtain rfl := Option.some.inj h
    exact hs.call context
  | spawn j => exact hs.spawn h
  | attempt k outcome => exact hs.attempt h
  | evict k => exact hs.evict h
  | send k => exact hs.send h
  | die k => exact hs.die h
  | poll j => exact hs.poll h
  | disconnect j => exact hs.disconnect h

theorem run_sound {es : List SignEvent} (h : run cfg es = some s) : Sound cfg s :=
  Machine.run_invariant (fun _ _ _ (_ : True) hs hstep => hs.step hstep) (fun _ _ => trivial)
    (boot_sound cfg) h

/-- What an event can do to the cache. Only a call looks up, and what leaves the map
outside a lookup is the entry of a sign that failed or whose task died. -/
inductive Moved (cfg : SignerConfig) (s : SignerState) : SignEvent → SignatureCache → Prop
  | same (event : SignEvent) : Moved cfg s event s.cache
  | lookup (context : List B256) :
    Moved cfg s (.call context) (s.cache.lookup cfg s.now (contextHash context)).2
  | update (event : SignEvent) {k : ℕ} {e e' : CacheEntry} (hk : s.cache.made[k]? = some e)
    (halive : e.senderAlive = true) (hhash : e'.hash = e.hash) :
    Moved cfg s event (s.cache.update k e')
  | failed (event : SignEvent) {k : ℕ} {e e' : CacheEntry} (hk : s.cache.made[k]? = some e)
    (halive : e.senderAlive = true) (hhash : e'.hash = e.hash) :
    Moved cfg s event ((s.cache.evict e.hash k).update k e')
  | aborted (event : SignEvent) {hash : B256} {k : ℕ} {e : CacheEntry}
    (hk : s.cache.made[k]? = some e) (hpending : e.state = .pending) :
    Moved cfg s event (s.cache.evict hash k)

lemma moved_step {event : SignEvent} (h : s.step cfg event = some s') :
    Moved cfg s event s'.cache ∧ s.now ≤ s'.now := by
  cases event with
  | tick elapsed =>
    obtain rfl := Option.some.inj h
    exact ⟨.same _, Nat.le_add_right _ _⟩
  | call context =>
    obtain rfl := Option.some.inj h
    have hmoved : Moved cfg s (.call context) _ := .lookup context
    simp only [call]
    split
    · next heq => exact ⟨by simpa only [heq] using hmoved, le_rfl⟩
    · next heq => exact ⟨by simpa only [heq] using hmoved, le_rfl⟩
  | spawn j =>
    simp only [step, spawn, Option.bind_eq_bind, Option.bind_eq_some_iff] at h
    obtain ⟨c, -, e, he, h⟩ := h
    split at h
    · next htask =>
      obtain rfl := Option.some.inj h
      exact ⟨.update _ he (by simp [CacheEntry.senderAlive, htask]) rfl, le_rfl⟩
    · cases h
  | attempt k outcome =>
    simp only [step, attempt, Option.bind_eq_bind, Option.bind_eq_some_iff] at h
    obtain ⟨e, he, h⟩ := h
    split at h
    case h_5 => cases h
    all_goals
      next htask =>
        obtain rfl := Option.some.inj h
        exact ⟨.update _ he (by simp_all [CacheEntry.senderAlive]) rfl, le_rfl⟩
  | evict k =>
    simp only [step, evict, Option.bind_eq_bind, Option.bind_eq_some_iff] at h
    obtain ⟨e, he, h⟩ := h
    split at h
    · next htask =>
      obtain rfl := Option.some.inj h
      exact ⟨.failed _ he (by simp [CacheEntry.senderAlive, htask]) rfl, le_rfl⟩
    · cases h
  | send k =>
    simp only [step, send, Option.bind_eq_bind, Option.bind_eq_some_iff] at h
    obtain ⟨e, he, h⟩ := h
    split at h
    · next htask =>
      obtain rfl := Option.some.inj h
      exact ⟨.update _ he (by simp [CacheEntry.senderAlive, htask]) rfl, le_rfl⟩
    · cases h
  | die k =>
    simp only [step, die, Option.bind_eq_bind, Option.bind_eq_some_iff] at h
    obtain ⟨e, he, h⟩ := h
    split at h
    case h_4 => cases h
    all_goals
      next htask =>
        obtain rfl := Option.some.inj h
        exact ⟨.update _ he (by simp [CacheEntry.senderAlive, htask]) rfl, le_rfl⟩
  | poll j =>
    simp only [step, poll, Option.bind_eq_bind, Option.bind_eq_some_iff] at h
    obtain ⟨c, -, e, he, h⟩ := h
    split at h
    · split at h
      · exact Option.some.inj h ▸ ⟨.same _, le_rfl⟩
      · exact Option.some.inj h ▸ ⟨.same _, le_rfl⟩
      · next hpending =>
        split at h
        · exact Option.some.inj h ▸ ⟨.aborted _ he hpending, le_rfl⟩
        · split at h
          · exact Option.some.inj h ▸ ⟨.same _, le_rfl⟩
          · cases h
    · cases h
  | disconnect j =>
    simp only [step, disconnect, Option.bind_eq_bind, Option.bind_eq_some_iff] at h
    obtain ⟨c, -, h⟩ := h
    split at h
    · exact Option.some.inj h ▸ ⟨.same _, le_rfl⟩
    · cases h

lemma later_step {event : SignEvent} (h : s.step cfg event = some s') :
    s.cache.Later s'.cache := by
  obtain ⟨hmoved, -⟩ := moved_step h
  generalize s'.cache = cache at hmoved
  cases hmoved with
  | same => exact .refl _
  | lookup context => exact s.cache.later_lookup cfg s.now _
  | update _ hk halive hhash => exact SignatureCache.later_update hk halive hhash
  | @failed _ k e _ hk halive hhash =>
    have hkept : (s.cache.evict e.hash k).made[k]? = some e := by
      rw [SignatureCache.evict_made, hk]
    exact (SignatureCache.Later.of_made (SignatureCache.evict_made k)).trans
      (SignatureCache.later_update hkept halive hhash)
  | aborted _ _ _ => exact .of_made (SignatureCache.evict_made _)

lemma later_run {es : List SignEvent} (h : Machine.run (step cfg) s es = some s') :
    s.cache.Later s'.cache :=
  Machine.run_invariant (I := fun t => s.cache.Later t.cache)
    (fun _ _ _ (_ : True) hs hstep => hs.trans (later_step hstep)) (fun _ _ => trivial)
    (.refl _) h

/-- No two of the contexts that calls brought have one hash. -/
def CollisionFree (s : SignerState) : Prop :=
  ∀ c ∈ s.calls, ∀ c' ∈ s.calls, contextHash c.context = contextHash c'.context →
    packed c.context = packed c'.context

lemma Sound.same_hash (hs : Sound cfg s) {c c' : Call} (hc : c ∈ s.calls) (hc' : c' ∈ s.calls)
    (hentry : c.entry = c'.entry) : contextHash c.context = contextHash c'.context := by
  obtain ⟨e, he, hhash, -⟩ := hs.calls c hc
  obtain ⟨e', he', hhash', -⟩ := hs.calls c' hc'
  rw [hentry, he'] at he
  obtain rfl := Option.some.inj he
  exact hhash.symm.trans hhash'

lemma Sound.produced_of_returned (hs : Sound cfg s) {c : Call} (hc : c ∈ s.calls)
    {signature : List UInt8} {address : Address}
    (hret : c.phase = .returned (.ok (signature, address))) :
    address = cfg.address ∧ (contextHash c.context, signature) ∈ s.produced := by
  obtain ⟨e, he, hhash, hout⟩ := hs.calls c hc
  have hdone := hout _ hret
  unfold CacheEntry.outcome at hdone
  split at hdone
  · next signature' hstate =>
    simp only [Option.some.injEq, Except.ok.injEq, Prod.mk.injEq] at hdone
    obtain ⟨rfl, rfl⟩ := hdone
    exact ⟨rfl, hhash ▸ hs.produced _ e _ he (.inl hstate)⟩
  · simp at hdone
  · split at hdone <;> simp at hdone

lemma Sound.same_outcome (hs : Sound cfg s) {c c' : Call} (hc : c ∈ s.calls) (hc' : c' ∈ s.calls)
    (hentry : c.entry = c'.entry) {r r' : Except String (List UInt8 × Address)}
    (hret : c.phase = .returned r) (hret' : c'.phase = .returned r') : r = r' := by
  obtain ⟨e, he, -, hout⟩ := hs.calls c hc
  obtain ⟨e', he', -, hout'⟩ := hs.calls c' hc'
  rw [hentry, he'] at he
  obtain rfl := Option.some.inj he
  have hboth := (hout r hret).symm.trans (hout' r' hret')
  exact Option.some.inj hboth

lemma Sound.failed_not_found (hs : Sound cfg s) {k : ℕ} {e : CacheEntry} {message : String}
    (hk : s.cache.made[k]? = some e) (hfailed : e.state = .failed message) (now : Nanos)
    (hash : B256) : (s.cache.lookup cfg now hash).1 ≠ .existing k ∧
      (s.cache.lookup cfg now hash).1 ≠ .fresh k := by
  constructor
  · intro hlook
    obtain ⟨slot, e', -, -, -, he', -, hunfailed⟩ := hs.coherent.lookup_existing hlook
    rw [hk] at he'
    obtain rfl := Option.some.inj he'
    simp [CacheEntry.isUnfailed, hfailed] at hunfailed
  · intro hlook
    have hlt : k < s.cache.made.length := (List.getElem?_eq_some_iff.mp hk).1
    rcases SignatureCache.lookup_cases cfg s.cache now hash with
      ⟨_, _, _, heq⟩ | ⟨_, _, _, _, _, heq⟩
    · rw [heq] at hlook
      cases hlook
    · rw [heq] at hlook
      have hnew := Lookup.fresh.inj hlook
      omega

/-- Signing is single-flight, and a signature is for the context it is returned for. -/
theorem signing_is_single_flight {es : List SignEvent} (h : run cfg es = some s) :
    (∀ c ∈ s.calls, ∀ signature address, c.phase = .returned (.ok (signature, address)) →
      address = cfg.address ∧ (Keccak.keccak256 (packed c.context), signature) ∈ s.produced ∧
      (s.CollisionFree → ∀ c' ∈ s.calls, c'.context ≠ c.context →
        Keccak.keccak256 (packed c'.context) ≠ Keccak.keccak256 (packed c.context) ∧
        c'.entry ≠ c.entry)) ∧
    (∀ (k k' : ℕ) e e' retry retry', s.cache.made[k]? = some e → s.cache.made[k']? = some e' →
      e.task = .signing retry → e'.task = .signing retry' → e.hash = e'.hash → k = k') ∧
    (∀ (k : ℕ) e retry, s.cache.made[k]? = some e → e.task = .signing retry →
      ∀ now, (s.cache.lookup cfg now e.hash).1 = .existing k) ∧
    (∀ c ∈ s.calls, ∀ c' ∈ s.calls, ∀ r r', c.entry = c'.entry → c.phase = .returned r →
      c'.phase = .returned r' → r = r') ∧
    (∀ (k : ℕ) e message, s.cache.made[k]? = some e → e.state = .failed message →
      ∀ es' s', Machine.run (step cfg) s es' = some s' → ∀ now hash,
        (s'.cache.lookup cfg now hash).1 ≠ .existing k ∧
        (s'.cache.lookup cfg now hash).1 ≠ .fresh k) := by
  have hs := run_sound h
  have hworking : ∀ {e : CacheEntry} {retry}, e.task = .signing retry → e.isWorking = true := by
    intro e retry htask
    simp [CacheEntry.isWorking, htask]
  refine ⟨fun c hc signature address hret => ?_, fun k k' e e' retry retry' hk hk' ht ht' hh => ?_,
    fun k e retry hk ht now => hs.coherent.lookup_working cfg hk (hworking ht) now,
    fun c hc c' hc' r r' hentry hret hret' => hs.same_outcome hc hc' hentry hret hret',
    fun k e message hk hfailed es' s' hrun now hash => ?_⟩
  · obtain ⟨haddress, hproduced⟩ := hs.produced_of_returned hc hret
    refine ⟨haddress, hproduced, fun hfree c' hc' hne => ?_⟩
    have hhash : contextHash c'.context ≠ contextHash c.context := fun heq =>
      hne (packed_injective (hfree c' hc' c hc heq))
    exact ⟨hhash, fun hentry => hhash (hs.same_hash hc' hc hentry)⟩
  · -- Both are what a lookup of their hash finds.
    have hfound := hs.coherent.lookup_working cfg hk (hworking ht) 0
    have hfound' := hs.coherent.lookup_working cfg hk' (hworking ht') 0
    rw [hh, hfound'] at hfound
    exact (Lookup.existing.inj hfound).symm
  · obtain ⟨e', hk', -, hsame⟩ := later_run hrun k e hk
    have hout : e.outcome cfg = some (.error message) := by simp [CacheEntry.outcome, hfailed]
    have hgone := CacheEntry.gone_of_outcome (hs.coherent.consistent k e hk) hout
    rw [hsame hgone] at hk'
    obtain ⟨fs, hfs⟩ : ∃ fs, run cfg fs = some s' := ⟨es ++ es', Machine.run_append.mpr ⟨s, h, hrun⟩⟩
    exact (run_sound hfs).failed_not_found hk' hfailed now hash

/-- A lookup can hand out an entry whose task died only from a slot of its hash that was
used less than the time to live ago: being in flight is one of two ways to be live. -/
theorem existing_is_live_iff {es : List SignEvent} (h : run cfg es = some s) (hash : B256) :
    ((∀ k, (s.cache.lookup cfg s.now hash).1 = .existing k → ∃ e, s.cache.made[k]? = some e ∧
        (e.isInFlight = true ∨ ∃ signature, e.state = .done signature)) ∧
      ∀ (k : ℕ) e, s.cache.made[k]? = some e →
        (e.isPending = true ∧ e.senderAlive = false ∨ ∃ message, e.state = .failed message) →
        (s.cache.lookup cfg s.now hash).1 ≠ .existing k) ↔
    ¬ ∃ slot e, s.cache.entries.lookup hash = some slot ∧ s.cache.made[slot.entry]? = some e ∧
      e.isPending = true ∧ e.senderAlive = false ∧ s.now - slot.lastUsed < cfg.idleTtl := by
  have hs := run_sound h
  constructor
  · rintro ⟨hlive, -⟩ ⟨slot, e, hslot, he, hpending, hgone, hidle⟩
    have hlook : (s.cache.lookup cfg s.now hash).1 = .existing slot.entry := by
      simp [SignatureCache.lookup, hslot, SignatureCache.isLive, hidle]
    obtain ⟨e', he', hor⟩ := hlive _ hlook
    rw [he] at he'
    obtain rfl := Option.some.inj he'
    rcases hor with hflight | ⟨signature, hdone⟩
    · simp [CacheEntry.isInFlight, hgone] at hflight
    · simp [CacheEntry.isPending, hdone] at hpending
  · intro hnone
    have hlive : ∀ k, (s.cache.lookup cfg s.now hash).1 = .existing k →
        ∃ e, s.cache.made[k]? = some e ∧
          (e.isInFlight = true ∨ ∃ signature, e.state = .done signature) := by
      intro k hlook
      obtain ⟨slot, e, hslot, rfl, hlive, he, -, hunfailed⟩ := hs.coherent.lookup_existing hlook
      refine ⟨e, he, ?_⟩
      cases hstate : e.state with
      | done signature => exact .inr ⟨signature, rfl⟩
      | failed message => simp [CacheEntry.isUnfailed, hstate] at hunfailed
      | pending =>
        left
        have hpending : e.isPending = true := by simp [CacheEntry.isPending, hstate]
        rw [SignatureCache.isLive, SignatureCache.isInFlight_of he, Bool.or_eq_true,
          decide_eq_true_eq] at hlive
        rcases hlive with hflight | hidle
        · exact hflight
        · cases halive : e.senderAlive with
          | true => simp [CacheEntry.isInFlight, hpending, halive]
          | false => exact absurd ⟨slot, e, hslot, he, hpending, halive, hidle⟩ hnone
    refine ⟨hlive, fun k e hk hbad hlook => ?_⟩
    obtain ⟨e', hk', hor⟩ := hlive k hlook
    rw [hk] at hk'
    obtain rfl := Option.some.inj hk'
    rcases hbad with ⟨hpending, hgone⟩ | ⟨message, hfailed⟩
    · rcases hor with hflight | ⟨signature, hdone⟩
      · simp [CacheEntry.isInFlight, hgone] at hflight
      · simp [CacheEntry.isPending, hdone] at hpending
    · rcases hor with hflight | ⟨signature, hdone⟩
      · simp [CacheEntry.isInFlight, CacheEntry.isPending, hfailed] at hflight
      · simp [hdone] at hfailed

end SignerState

namespace Sample

/-- Slots of zeros, and the hash on one and on two of them. -/
def zeroSlot : B256 := Vector.replicate 32 0

def bytes32 (n : ℕ) : B256 := ⟨(beBytes 32 n).toArray, by simp [length_beBytes]⟩

scoped instance keccak : Keccak where
  keccak256 bytes :=
    if bytes = List.replicate 32 0 then
      bytes32 0x290decd9548b62a8d60345a988386fc84ba6bc95484008f6362f93160ef3e563
    else bytes32 0xad3228b676f7d3cd4284a5443f17f1962b36e491b30a40b2405849e597ba5fb5

def productionSigner : SignerConfig := ⟨seconds 120, 16384, Vector.replicate 20 1⟩

def signature : List UInt8 := List.replicate 64 7 ++ [27]

/-- The second call joins the sign of the first, whose retry succeeds; the sign of the
other context fails. -/
def joinedCalls : List SignEvent :=
  [.call [zeroSlot], .spawn 0, .call [zeroSlot], .call [zeroSlot, zeroSlot], .spawn 2,
    .attempt 0 .timedOut, .attempt 0 (.signed signature), .send 0, .poll 0, .tick (seconds 1),
    .poll 1, .attempt 1 (.error "throttled"), .attempt 1 (.error "throttled"), .evict 1, .send 1,
    .poll 2]

/-- What a call has returned. -/
def answerOf (c : Call) : Option (Except String (List UInt8 × Address)) :=
  match c.phase with
  | .returned result => some result
  | _ => none

lemma answerOf_eq_some {c : Call} {result : Except String (List UInt8 × Address)}
    (h : answerOf c = some result) : c.phase = .returned result := by
  unfold answerOf at h
  split at h
  · next hphase => rw [hphase, Option.some.inj h]
  · cases h

theorem joined_calls_get_their_signature : ∃ s first second third,
    SignerState.run productionSigner joinedCalls = some s ∧ s.calls = [first, second, third] ∧
      first.phase = .returned (.ok (signature, productionSigner.address)) ∧
      second.phase = .returned (.ok (signature, productionSigner.address)) ∧
      third.phase = .returned (.error "throttled") ∧
      (Keccak.keccak256 (packed [zeroSlot]), signature) ∈ s.produced := by
  have hrun : (SignerState.run productionSigner joinedCalls).any (fun s =>
      s.calls.map answerOf = [some (.ok (signature, productionSigner.address)),
        some (.ok (signature, productionSigner.address)), some (.error "throttled")] ∧
      s.calls.map Call.context = [[zeroSlot], [zeroSlot], [zeroSlot, zeroSlot]]) = true := by
    decide +kernel
  obtain ⟨s, hs, hcalls⟩ := (Option.any_eq_true _ _).mp hrun
  obtain ⟨hanswers, hcontexts⟩ := of_decide_eq_true hcalls
  obtain ⟨first, second, third, hshape⟩ : ∃ first second third, s.calls = [first, second, third] :=
    List.length_eq_three.mp (by simpa using congrArg List.length hanswers)
  simp only [hshape, List.map_cons, List.map_nil, List.cons.injEq, and_true] at hanswers hcontexts
  have hfirst := answerOf_eq_some hanswers.1
  have hproduced := ((SignerState.signing_is_single_flight hs).1 first (by simp [hshape]) _ _
    hfirst).2.1
  rw [hcontexts.1] at hproduced
  exact ⟨s, first, second, third, hs, hshape, hfirst, answerOf_eq_some hanswers.2.1,
    answerOf_eq_some hanswers.2.2, hproduced⟩

/-- The caller hangs up, and then the task panics: nobody is left to evict the entry. -/
def abandoned : List SignEvent :=
  [.call [zeroSlot], .spawn 0, .disconnect 0, .die 0, .tick (seconds 1)]

theorem dead_sign_counts_as_live : ∃ s k e, SignerState.run productionSigner abandoned = some s ∧
    (s.cache.lookup productionSigner s.now (contextHash [zeroSlot])).1 = .existing k ∧
    s.cache.made[k]? = some e ∧ e.isInFlight = false ∧ ∀ signature, e.state ≠ .done signature := by
  have hrun : (SignerState.run productionSigner abandoned).any (fun s =>
      (s.cache.lookup productionSigner s.now (contextHash [zeroSlot])).1 = .existing 0 &&
      s.cache.made[0]?.any fun e => !e.isInFlight && e.isPending) = true := by decide +kernel
  obtain ⟨s, hs, hfound⟩ := (Option.any_eq_true _ _).mp hrun
  obtain ⟨hlook, hdead⟩ := Bool.and_eq_true_iff.mp hfound
  obtain ⟨e, he, hstate⟩ := (Option.any_eq_true _ _).mp hdead
  obtain ⟨hflight, hpending⟩ := Bool.and_eq_true_iff.mp hstate
  refine ⟨s, 0, e, hs, of_decide_eq_true hlook, he, by simpa using hflight, ?_⟩
  intro signature hdone
  simp [CacheEntry.isPending, hdone] at hpending

theorem answered_sign_is_live : ∃ s, SignerState.run productionSigner joinedCalls = some s ∧
    ∀ k, (s.cache.lookup productionSigner s.now (contextHash [zeroSlot])).1 = .existing k →
      ∃ e, s.cache.made[k]? = some e ∧
        (e.isInFlight = true ∨ ∃ signature, e.state = .done signature) := by
  have hrun : (SignerState.run productionSigner joinedCalls).any (fun s =>
      (s.cache.entries.lookup (contextHash [zeroSlot])).all fun slot =>
        s.cache.made[slot.entry]?.all fun e => !e.isPending) = true := by decide +kernel
  obtain ⟨s, hs, hdone⟩ := (Option.any_eq_true _ _).mp hrun
  refine ⟨s, hs, ((SignerState.existing_is_live_iff hs _).mpr ?_).1⟩
  rintro ⟨slot, e, hslot, he, hpending, -, -⟩
  simp [hslot, he, hpending] at hdone

end Sample

end OracleServer
