import OracleServer.PricingClient
import OracleServer.Reload

/-! The reload loop over any sequence of polls. The state is what the loop shares with
the rest of the server: the running set, the pricing client, and the refused generation. -/
namespace OracleServer

/-- `journal` is the log of what has reached the pricing client; nothing reads it. -/
structure Running where
  tokens : TokenSet
  pricing : ClientState
  journal : List ClientEvent
  rejected : Option Int64

namespace Running

def invalid (s : Running) : Bool := s.rejected.isSome

def observe (s : Running) (e : ClientEvent) : Running :=
  { s with pricing := s.pricing.step e, journal := s.journal ++ [e] }

end Running

def ReloadStep.perform (s : Running) : ReloadStep → Running
  | .replace set => { s with tokens := set }
  | .sendReplace symbols => s.observe (.publish symbols)
  | .forget symbols => s.observe (.forget symbols)
  | .reject generation => { s with rejected := some generation }
  | .clearRejected => { s with rejected := none }

section SameRows
variable [Toml] [Alloy] [Unicode] {static : Table} {bytes bytes' : ByteArray}
  {p p' : Projection} {c c' : Config} {r r' : TokenRegistry}

/-- Every row of an accepted config parses. -/
theorem candidate_parses (h : TokenFile.candidate static bytes = .ok (p, c, r)) {t : TokenEntry}
    (ht : t ∈ c.tokens) : ∃ a, Alloy.fromStr t.address = .ok a := by
  obtain ⟨hvalid, -, -, -⟩ := TokenFile.candidate_ok h
  obtain ⟨a, ha, -⟩ := validate_row_address hvalid ht
  exact ⟨a, ha⟩

variable [LawfulAlloy]

/-- No two rows of an accepted config have one symbol and one address up to case. -/
theorem rows_nodup (h : TokenFile.candidate static bytes = .ok (p, c, r)) :
    (c.tokens.map fun t => toLex (t.symbol, Unicode.toLowercase t.address)).Nodup := by
  obtain ⟨hvalid, -, -, -⟩ := TokenFile.candidate_ok h
  obtain ⟨-, quote, -, -, hrows⟩ := validate_ok hvalid
  obtain ⟨addrs, hmap, hnodup, -, -, -⟩ := validateTokens_ok hrows
  have hparsed : (c.tokens.map fun t => Alloy.fromStr t.address).Nodup := by
    rw [hmap]
    exact hnodup.map fun a b hab => Except.ok.inj hab
  have hpair := List.pairwise_map.mp hparsed
  refine List.pairwise_map.mpr (hpair.imp_of_mem ?_)
  intro t t' ht ht' hne heq
  obtain ⟨a, ha⟩ := candidate_parses h ht
  obtain ⟨a', ha'⟩ := candidate_parses h ht'
  have hlower := (Prod.mk.inj (toLex.injective heq)).2
  have haa : a = a' := LawfulAlloy.case_insensitive _ _ _ _ ha ha' hlower
  exact hne (by rw [ha, ha', haa])

variable [LawfulSerde]

theorem lookup_of_rows (h : TokenFile.candidate static bytes = .ok (p, c, r))
    (h' : TokenFile.candidate static bytes' = .ok (p', c', r')) (hrows : p.rows = p'.rows)
    {a : Address} {s : Symbol} (hs : r.tokens.lookup a = some s) :
    r'.tokens.lookup a = some s := by
  obtain ⟨hvalid, hreg, -, -⟩ := TokenFile.candidate_ok h
  obtain ⟨hvalid', hreg', -, -⟩ := TokenFile.candidate_ok h'
  obtain ⟨t, ht, ha, hsym⟩ := (fromConfig_lookup hvalid hreg a s).mp hs
  have hrow := (mem_rows h _).mpr ⟨t, ht, rfl⟩
  rw [hrows] at hrow
  obtain ⟨t', ht', heq⟩ := (mem_rows h' _).mp hrow
  obtain ⟨hsym', hlower⟩ := Prod.mk.inj (toLex.injective heq)
  obtain ⟨a', ha'⟩ := candidate_parses h' ht'
  have haa : a' = a := LawfulAlloy.case_insensitive _ _ _ _ ha' ha hlower
  exact (fromConfig_lookup hvalid' hreg' a s).mpr ⟨t', ht', haa ▸ ha', hsym'.trans hsym⟩

theorem sameRows_resolve (h : TokenFile.candidate static bytes = .ok (p, c, r))
    (h' : TokenFile.candidate static bytes' = .ok (p', c', r')) (hrows : p.rows = p'.rows)
    (x y : Address) : r.resolve x y = r'.resolve x y := by
  apply TokenRegistry.resolve_congr (candidate_quote h h')
  intro a
  apply Option.ext
  intro s
  exact ⟨lookup_of_rows h h' hrows, lookup_of_rows h' h hrows.symm⟩

theorem sameRows_symbols (h : TokenFile.candidate static bytes = .ok (p, c, r))
    (h' : TokenFile.candidate static bytes' = .ok (p', c', r')) (hrows : p.rows = p'.rows) :
    c.symbols = c'.symbols := by
  have hperm : (c.tokens.map fun t => toLex (t.symbol, Unicode.toLowercase t.address)).Perm
      (c'.tokens.map fun t => toLex (t.symbol, Unicode.toLowercase t.address)) := by
    rw [List.perm_ext_iff_of_nodup (rows_nodup h) (rows_nodup h')]
    intro row
    rw [List.mem_map, List.mem_map, ← mem_rows h, ← mem_rows h', hrows]
  have hsyms : c.symbols.Perm c'.symbols := by
    have := hperm.map fun row => (ofLex row).1
    simpa [Config.symbols, List.map_map, Function.comp_def] using this
  obtain ⟨-, -, -, hsorted⟩ := TokenFile.candidate_ok h
  obtain ⟨-, -, -, hsorted'⟩ := TokenFile.candidate_ok h'
  exact sorted_eq_of_perm hsyms (symbols_sorted (candidate_rows h) hsorted)
    (symbols_sorted (candidate_rows h') hsorted')

end SameRows

section Polls
variable [Toml] [Alloy] [Unicode] (static : Table) (boot : Config) (bytesOf : Int64 → ByteArray)

/-- One poll carried through to its end. The bucket answers with the latest generation,
whose bytes are `bytesOf` it, or fails. -/
def Running.pollOnce (s : Running) (latest : Option Int64) : Running :=
  (Reload.poll static boot s.tokens s.rejected (latest.map fun g => (g, bytesOf g))).foldl
    ReloadStep.perform s

/-- `set` runs what a restart on generation `g` would run. -/
structure RestartsAs (set : TokenSet) (g : Int64) : Prop where
  generation : set.generation = some g
  built : ∃ p c r, TokenFile.candidate static (bytesOf g) = .ok (p, c, r) ∧
    (∀ x y, set.registry.resolve x y = r.resolve x y) ∧ set.symbols = c.symbols

/-- The invariant of the loop: the running set is the one a restart on its generation
would run, and a refused generation is one that a restart would refuse. -/
structure Running.Follows (s : Running) : Prop where
  accepted : Accepts static s.tokens
  restart : ∃ g, RestartsAs static bytesOf s.tokens g
  refused : ∀ g, s.rejected = some g → ∃ e, TokenFile.candidate static (bytesOf g) = .error e

variable {static boot bytesOf} {s : Running} {g : Int64}

theorem pollOnce_conditioned (h : s.rejected.or s.tokens.generation = some g) :
    s.pollOnce static boot bytesOf (some g) = s := by
  simp [Running.pollOnce, Reload.poll, h]

theorem pollOnce_copy (h : s.rejected.or s.tokens.generation ≠ some g) :
    s.pollOnce static boot bytesOf (some g) =
      (Reload.apply s.tokens (Reload.decide static boot s.tokens g (bytesOf g))).foldl
        ReloadStep.perform s := by
  simp [Running.pollOnce, Reload.poll, h]

theorem decide_running (h : s.tokens.generation = some g) (bytes : ByteArray) :
    Reload.decide static boot s.tokens g bytes = .unchanged g := by
  simp [Reload.decide, h]

theorem decide_refused {bytes : ByteArray} {e : String} (h : s.tokens.generation ≠ some g)
    (hc : TokenFile.candidate static bytes = .error e) :
    Reload.decide static boot s.tokens g bytes = .reject g e := by
  simp [Reload.decide, h, hc]

/-- A poll that finds a refused copy only remembers that it was refused. -/
theorem pollOnce_refused {e : String} (hs : s.Follows static bytesOf)
    (hc : TokenFile.candidate static (bytesOf g) = .error e) :
    s.pollOnce static boot bytesOf (some g) = { s with rejected := some g } := by
  have hgen : s.tokens.generation ≠ some g := by
    intro hgen
    obtain ⟨g', hr⟩ := hs.restart
    obtain rfl : g' = g := Option.some.inj (hr.generation.symm.trans hgen)
    obtain ⟨p, c, r, hok, -⟩ := hr.built
    rw [hc] at hok
    cases hok
  by_cases hrej : s.rejected = some g
  · rw [pollOnce_conditioned (by simp [hrej])]
    obtain ⟨tokens, pricing, journal, rejected⟩ := s
    simp only at hrej
    rw [hrej]
  · have hcond : s.rejected.or s.tokens.generation ≠ some g := by
      cases hr : s.rejected with
      | none => simpa using hgen
      | some g₁ => simpa [hr] using fun h => hrej (by rw [hr, h])
    rw [pollOnce_copy hcond, decide_refused hgen hc]
    rfl

variable [LawfulSerde]

/-- The two backstops of `decide` never fire on the server's own static config. -/
theorem decide_accepted {bytes : ByteArray} {p q : Projection} {c : Config} {r : TokenRegistry}
    {bootBytes : ByteArray} {p₀ : Projection} {r₀ : TokenRegistry}
    (hboot : TokenFile.candidate static bootBytes = .ok (p₀, boot, r₀))
    (h : s.tokens.generation ≠ some g) (hc : TokenFile.candidate static bytes = .ok (p, c, r))
    (hq : s.tokens.projection = some q) :
    Reload.decide static boot s.tokens g bytes =
      if p.sameAs q then .sameRows g
      else .apply ⟨r, c.symbols, some p, some g⟩ (TokenFile.change q p).removed
        (TokenFile.change q p).readdressed (TokenFile.change q p).describe := by
  simp [Reload.decide, h, hc, staticFieldChanged_none hboot hc, hq]

variable [LawfulAlloy]

/-- A poll that finds an accepted copy ends on it, whatever the loop ran or refused. -/
theorem pollOnce_accepted {p p₀ : Projection} {c : Config} {r r₀ : TokenRegistry}
    {bootBytes : ByteArray} (hboot : TokenFile.candidate static bootBytes = .ok (p₀, boot, r₀))
    (hs : s.Follows static bytesOf) (hc : TokenFile.candidate static (bytesOf g) = .ok (p, c, r)) :
    Accepts static (s.pollOnce static boot bytesOf (some g)).tokens ∧
      RestartsAs static bytesOf (s.pollOnce static boot bytesOf (some g)).tokens g ∧
      (s.pollOnce static boot bytesOf (some g)).rejected = none := by
  have hnot : s.rejected ≠ some g := by
    intro hrej
    obtain ⟨e, he⟩ := hs.refused g hrej
    rw [hc] at he
    cases he
  by_cases hgen : s.tokens.generation = some g
  · obtain ⟨g', hr⟩ := hs.restart
    obtain rfl : g' = g := Option.some.inj (hr.generation.symm.trans hgen)
    cases hrej : s.rejected with
    | none =>
      rw [pollOnce_conditioned (by simp [hrej, hgen])]
      exact ⟨hs.accepted, hr, hrej⟩
    | some g₁ =>
      have hcond : s.rejected.or s.tokens.generation ≠ some g' := by
        simpa [hrej] using fun h => hnot (by rw [hrej, h])
      rw [pollOnce_copy hcond, decide_running hgen]
      exact ⟨hs.accepted, hr, rfl⟩
  · have hcond : s.rejected.or s.tokens.generation ≠ some g := by
      cases hrej : s.rejected with
      | none => simpa using hgen
      | some g₁ => simpa [hrej] using fun h => hnot (by rw [hrej, h])
    obtain ⟨bytes₁, q, c₁, r₁, hc₁, hr₁, hsym₁, hq⟩ := hs.accepted
    rw [pollOnce_copy hcond, decide_accepted hboot hgen hc hq]
    by_cases hsame : p.sameAs q = true
    · rw [if_pos hsame]
      have hrows : q.rows = p.rows := by
        have := (Bool.and_eq_true _ _ ▸ hsame : _ ∧ _).1
        exact (beq_iff_eq.mp this).symm
      refine ⟨⟨bytes₁, q, c₁, r₁, hc₁, hr₁, hsym₁, hq⟩, ⟨rfl, p, c, r, hc, ?_, ?_⟩, rfl⟩
      · intro x y
        exact hr₁ ▸ sameRows_resolve hc₁ hc hrows x y
      · exact hsym₁.trans (sameRows_symbols hc₁ hc hrows)
    · rw [if_neg hsame]
      exact ⟨⟨bytesOf g, p, c, r, hc, rfl, rfl, rfl⟩, ⟨rfl, p, c, r, hc, fun _ _ => rfl, rfl⟩, rfl⟩

theorem pollOnce_follows {p₀ : Projection} {r₀ : TokenRegistry} {bootBytes : ByteArray}
    (hboot : TokenFile.candidate static bootBytes = .ok (p₀, boot, r₀))
    (hs : s.Follows static bytesOf) (latest : Option Int64) :
    (s.pollOnce static boot bytesOf latest).Follows static bytesOf := by
  cases latest with
  | none => exact hs
  | some g =>
    cases hc : TokenFile.candidate static (bytesOf g) with
    | ok built =>
      obtain ⟨p, c, r⟩ := built
      obtain ⟨hacc, hrestart, hrej⟩ := pollOnce_accepted hboot hs hc
      refine ⟨hacc, ⟨g, hrestart⟩, fun g' hg' => ?_⟩
      rw [hrej] at hg'
      cases hg'
    | error e =>
      rw [pollOnce_refused hs hc]
      refine ⟨hs.accepted, hs.restart, fun g' hg' => ?_⟩
      obtain rfl := Option.some.inj hg'
      exact ⟨e, hc⟩

theorem polls_follow {p₀ : Projection} {r₀ : TokenRegistry} {bootBytes : ByteArray}
    (hboot : TokenFile.candidate static bootBytes = .ok (p₀, boot, r₀))
    (hs : s.Follows static bytesOf) (polls : List (Option Int64)) :
    (polls.foldl (Running.pollOnce static boot bytesOf) s).Follows static bytesOf := by
  induction polls generalizing s with
  | nil => exact hs
  | cons latest polls ih => exact ih (pollOnce_follows hboot hs latest)

end Polls

section Restart
variable [Toml] [Alloy] [Unicode] (static : Table) (boot : Config) (bytesOf : Int64 → ByteArray)

/-- What one more poll does to a running instance, compared with `candidate`. -/
structure PollAgrees (s : Running) : Prop where
  fetchError : s.pollOnce static boot bytesOf none = s
  accepted : ∀ g p c r, TokenFile.candidate static (bytesOf g) = .ok (p, c, r) →
    (s.pollOnce static boot bytesOf (some g)).tokens.generation = some g ∧
    (∀ x y, (s.pollOnce static boot bytesOf (some g)).tokens.registry.resolve x y =
      r.resolve x y) ∧
    (s.pollOnce static boot bytesOf (some g)).tokens.symbols = c.symbols ∧
    (s.pollOnce static boot bytesOf (some g)).invalid = false
  refused : ∀ g e, TokenFile.candidate static (bytesOf g) = .error e →
    (s.pollOnce static boot bytesOf (some g)).tokens = s.tokens ∧
    (s.pollOnce static boot bytesOf (some g)).pricing = s.pricing ∧
    (s.pollOnce static boot bytesOf (some g)).invalid = true
  decides : ∀ g bytes, s.tokens.generation ≠ some g →
    ((∃ e, Reload.decide static boot s.tokens g bytes = .reject g e) ↔
      ∃ e, TokenFile.candidate static bytes = .error e)

theorem live_reload_agrees_with_restart [LawfulSerde] [LawfulAlloy] {g₀ : Int64}
    {p₀ : Projection} {r₀ : TokenRegistry}
    (hboot : TokenFile.candidate static (bytesOf g₀) = .ok (p₀, boot, r₀))
    (pricing : ClientState) (journal : List ClientEvent) (polls : List (Option Int64)) :
    PollAgrees static boot bytesOf (polls.foldl (Running.pollOnce static boot bytesOf)
      ⟨⟨r₀, boot.symbols, some p₀, some g₀⟩, pricing, journal, none⟩) := by
  have hfirst : Running.Follows static bytesOf
      ⟨⟨r₀, boot.symbols, some p₀, some g₀⟩, pricing, journal, none⟩ := by
    refine ⟨⟨bytesOf g₀, p₀, boot, r₀, hboot, rfl, rfl, rfl⟩,
      ⟨g₀, rfl, p₀, boot, r₀, hboot, fun _ _ => rfl, rfl⟩, ?_⟩
    intro g hg
    cases hg
  have hs := polls_follow hboot hfirst polls
  generalize polls.foldl (Running.pollOnce static boot bytesOf) _ = s at hs ⊢
  refine ⟨rfl, fun g p c r hc => ?_, fun g e hc => ?_, fun g bytes hgen => ?_⟩
  · obtain ⟨-, hr, hrej⟩ := pollOnce_accepted hboot hs hc
    obtain ⟨p', c', r', hc', hresolve, hsymbols⟩ := hr.built
    obtain ⟨rfl, rfl, rfl⟩ : p = p' ∧ c = c' ∧ r = r' := by
      rw [hc] at hc'
      simpa using Except.ok.inj hc'
    exact ⟨hr.generation, hresolve, hsymbols, by simp [Running.invalid, hrej]⟩
  · rw [pollOnce_refused hs hc]
    exact ⟨rfl, rfl, rfl⟩
  · constructor
    · rintro ⟨e, hdecide⟩
      cases hc : TokenFile.candidate static bytes with
      | error e' => exact ⟨e', rfl⟩
      | ok built =>
        obtain ⟨p, c, r⟩ := built
        obtain ⟨bytes₁, q, c₁, r₁, -, -, -, hq⟩ := hs.accepted
        rw [decide_accepted hboot hgen hc hq] at hdecide
        split at hdecide
        · cases hdecide
        · cases hdecide
    · rintro ⟨e, hc⟩
      exact ⟨e, decide_refused hgen hc⟩

end Restart

/-! A deployment on Base with one token, whose address the second copy changes and whose
third copy is empty. -/
namespace Sample

def staticConfig : Table :=
  [("pricing", .table [("consumer", .string "oracle"),
    ("ws_url", .string "ws://st0x-pricing:8080/ws")])]

def bytesOf (g : Int64) : ByteArray :=
  if g = 1 then (tokenFile oldAddress).toUTF8
  else if g = 2 then (tokenFile newAddress).toUTF8
  else ByteArray.empty

theorem candidate_accepts (g : Int64) (h : (TokenFile.candidate staticConfig (bytesOf g)).isOk = true) :
    ∃ p c r, TokenFile.candidate staticConfig (bytesOf g) = .ok (p, c, r) := by
  cases hc : TokenFile.candidate staticConfig (bytesOf g) with
  | error e =>
    rw [hc] at h
    cases h
  | ok built => exact ⟨built.1, built.2.1, built.2.2, rfl⟩

theorem live_reload_on_base : ∃ p₀ boot r₀,
    TokenFile.candidate staticConfig (bytesOf 1) = .ok (p₀, boot, r₀) ∧
      PollAgrees staticConfig boot bytesOf
        ([some 2, none, some 3, some 3, some 2].foldl (Running.pollOnce staticConfig boot bytesOf)
          ⟨⟨r₀, boot.symbols, some p₀, some 1⟩, ⟨.empty, boot.symbols⟩, [], none⟩) := by
  obtain ⟨p₀, boot, r₀, hboot⟩ := candidate_accepts 1 (by decide +kernel)
  exact ⟨p₀, boot, r₀, hboot,
    live_reload_agrees_with_restart staticConfig boot bytesOf hboot _ _ _⟩

end Sample

end OracleServer
