import OracleServer.TokenFile

/-! `tokens.rs` and the pure half of `reload.rs`: what one copy of the token file means
for the running set, and the steps that carry the decision out. -/
namespace OracleServer

structure TokenSet where
  registry : TokenRegistry
  symbols : List Symbol
  projection : Option Projection
  generation : Option Int64

inductive Decision
  | unchanged (generation : Int64)
  | sameRows (generation : Int64)
  | apply (set : TokenSet) (removed readdressed : List Symbol) (change : String)
  | reject (generation : Int64) (error : String)

/-- The writes of `Reloader::apply`, one lock or channel at a time. -/
inductive ReloadStep
  | replace (set : TokenSet)
  | sendReplace (symbols : List Symbol)
  | forget (symbols : List Symbol)
  | reject (generation : Int64)
  | clearRejected

namespace Reload

def staticFieldChanged (a b : Config) : Option String :=
  if a.chainId ≠ b.chainId then some "chain_id"
  else if !eqIgnoreAsciiCase a.quoteToken b.quoteToken then some "quote_token"
  else if a.port ≠ b.port then some "port"
  else if a.pricing.wsUrl ≠ b.pricing.wsUrl ∨ a.pricing.consumer ≠ b.pricing.consumer then
    some "pricing"
  else if a.signing.reuseMinRemainingSecs ≠ b.signing.reuseMinRemainingSecs then some "signing"
  else none

/-- `Reloader::apply`: the order of its writes. The loop is the only writer of the token
set, so `current` is still the running set when the first one happens. -/
def apply (current : TokenSet) : Decision → List ReloadStep
  | .unchanged _ => [.clearRejected]
  | .reject generation _ => [.reject generation]
  | .sameRows generation => [.replace { current with generation := some generation }, .clearRejected]
  | .apply set removed readdressed _ =>
    [.replace set, .sendReplace set.symbols, .forget (removed ++ readdressed)] ++
      if set.generation.isSome then [.clearRejected] else []

variable [Toml] [Alloy] [Unicode]

def decide (staticConfig : Table) (bootConfig : Config) (current : TokenSet)
    (generation : Int64) (bytes : ByteArray) : Decision :=
  if current.generation = some generation then .unchanged generation
  else
    match TokenFile.candidate staticConfig bytes with
    | .error e => .reject generation e
    | .ok (projection, config, registry) =>
      match staticFieldChanged bootConfig config with
      | some field => .reject generation
          s!"the token file would change {field}, which only a restart may change"
      | none =>
        match current.projection with
        | none => .reject generation "this instance does not run a token file"
        | some running =>
          if projection.sameAs running then .sameRows generation
          else
            let change := TokenFile.change running projection
            .apply ⟨registry, config.symbols, some projection, some generation⟩
              change.removed change.readdressed change.describe

/-- One turn of the loop in `Reloader::spawn`. `read` is the bucket's answer: the latest
generation and its bytes, or nothing after a fetch error; the read is conditional on the
refused generation if there is one, else on the running one. -/
def poll (staticConfig : Table) (bootConfig : Config) (current : TokenSet)
    (rejected : Option Int64) (read : Option (Int64 × ByteArray)) : List ReloadStep :=
  match read with
  | none => []
  | some (generation, bytes) =>
    if rejected.or current.generation = some generation then []
    else apply current (decide staticConfig bootConfig current generation bytes)

end Reload

section Accepted
variable [Toml] [Alloy] [Unicode]

/-- `set` is what `candidate` builds from some copy of the token file. -/
def Accepts (static : Table) (set : TokenSet) : Prop :=
  ∃ bytes p c r, TokenFile.candidate static bytes = .ok (p, c, r) ∧ set.registry = r ∧
    set.symbols = c.symbols ∧ set.projection = some p

/-- The writes that one poll may decide on. -/
inductive Polled (static : Table) (current : TokenSet) : List ReloadStep → Prop
  | idle : Polled static current []
  | unchanged : Polled static current [.clearRejected]
  | refused (g : Int64) : Polled static current [.reject g]
  | sameRows (g : Int64) : Polled static current
    [.replace { current with generation := some g }, .clearRejected]
  | applied {bytes : ByteArray} {p running : Projection} {c : Config} {r : TokenRegistry} (g : Int64)
    (hcandidate : TokenFile.candidate static bytes = .ok (p, c, r))
    (hrunning : current.projection = some running) :
    Polled static current [.replace ⟨r, c.symbols, some p, some g⟩, .sendReplace c.symbols,
      .forget ((TokenFile.change running p).removed ++ (TokenFile.change running p).readdressed),
      .clearRejected]

theorem polled (static : Table) (boot : Config) (current : TokenSet) (rejected : Option Int64)
    (read : Option (Int64 × ByteArray)) :
    Polled static current (Reload.poll static boot current rejected read) := by
  unfold Reload.poll
  split
  · exact .idle
  next g bytes =>
  split
  · exact .idle
  unfold Reload.decide
  split
  · exact .unchanged
  split
  · exact .refused g
  next p c r hcandidate =>
  split
  · exact .refused g
  split
  · exact .refused g
  next running hrunning =>
  split
  · exact .sameRows g
  · exact .applied g hcandidate hrunning

variable {static : Table} {bytes bytes' : ByteArray} {p p' : Projection} {c c' : Config}
  {r r' : TokenRegistry}

theorem accepts_generation {set : TokenSet} (h : Accepts static set) (g : Option Int64) :
    Accepts static { set with generation := g } := by
  obtain ⟨bytes, p, c, r, hc, hr, hs, hp⟩ := h
  exact ⟨bytes, p, c, r, hc, hr, hs, hp⟩

theorem accepts_quote_unlisted {set : TokenSet} (h : Accepts static set) :
    set.registry.tokens.lookup set.registry.quoteToken = none := by
  obtain ⟨bytes, p, c, r, hc, rfl, -, -⟩ := h
  obtain ⟨hvalid, hreg, -, -⟩ := TokenFile.candidate_ok hc
  exact fromConfig_quote_unlisted hvalid hreg

section Serde
variable [LawfulSerde]

theorem candidate_rows (h : TokenFile.candidate static bytes = .ok (p, c, r)) :
    p.tokens.mapM TokenEntry.ofValue = some c.tokens := by
  obtain ⟨-, -, hparsed, -⟩ := TokenFile.candidate_ok h
  exact LawfulSerde.tokens _ _ _ hparsed (Table.get_insert _ _ _)

theorem mem_rows (h : TokenFile.candidate static bytes = .ok (p, c, r))
    (row : Lex (String × String)) : row ∈ p.rows ↔
      ∃ t ∈ c.tokens, toLex (t.symbol, Unicode.toLowercase t.address) = row := by
  rw [Projection.rows, mem_btreeSet, filterMap_rowOf (candidate_rows h), List.mem_map]

theorem mem_symbols (h : TokenFile.candidate static bytes = .ok (p, c, r)) (s : Symbol) :
    s ∈ p.rows.map (fun row => (ofLex row).1) ↔ s ∈ c.symbols := by
  simp only [List.mem_map, Config.symbols]
  constructor
  · rintro ⟨row, hrow, rfl⟩
    obtain ⟨t, ht, rfl⟩ := (mem_rows h row).mp hrow
    exact ⟨t, ht, rfl⟩
  · rintro ⟨t, ht, rfl⟩
    exact ⟨_, (mem_rows h _).mpr ⟨t, ht, rfl⟩, rfl⟩

/-- Two copies accepted under one static config differ in their tokens alone. -/
theorem candidate_statics (h : TokenFile.candidate static bytes = .ok (p, c, r))
    (h' : TokenFile.candidate static bytes' = .ok (p', c', r')) :
    { c with tokens := [] } = { c' with tokens := [] } := by
  obtain ⟨-, -, hparsed, -⟩ := TokenFile.candidate_ok h
  obtain ⟨-, -, hparsed', -⟩ := TokenFile.candidate_ok h'
  exact LawfulSerde.statics _ _ _ _ _ hparsed hparsed'

theorem candidate_quote (h : TokenFile.candidate static bytes = .ok (p, c, r))
    (h' : TokenFile.candidate static bytes' = .ok (p', c', r')) :
    r.quoteToken = r'.quoteToken := by
  obtain ⟨-, -, hq, -⟩ := Config.mk.inj (candidate_statics h h')
  obtain ⟨-, hreg, -, -⟩ := TokenFile.candidate_ok h
  obtain ⟨-, hreg', -, -⟩ := TokenFile.candidate_ok h'
  have hparse := fromConfig_quote hreg
  rw [hq, fromConfig_quote hreg'] at hparse
  exact (Except.ok.inj hparse).symm

/-- The settlement token of every accepted set is the same. -/
theorem accepts_quote {set set' : TokenSet} (h : Accepts static set) (h' : Accepts static set') :
    set.registry.quoteToken = set'.registry.quoteToken := by
  obtain ⟨bytes, p, c, r, hc, rfl, -, -⟩ := h
  obtain ⟨bytes', p', c', r', hc', rfl, -, -⟩ := h'
  exact candidate_quote hc hc'

theorem staticFieldChanged_none (h : TokenFile.candidate static bytes = .ok (p, c, r))
    (h' : TokenFile.candidate static bytes' = .ok (p', c', r')) :
    Reload.staticFieldChanged c c' = none := by
  obtain ⟨hport, hchain, hquote, -, -, hpricing, hsigning⟩ :=
    Config.mk.inj (candidate_statics h h')
  simp [Reload.staticFieldChanged, hchain, hquote, hport, hpricing, hsigning, eqIgnoreAsciiCase]

end Serde

end Accepted

end OracleServer
