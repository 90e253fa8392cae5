import OracleServer.ReloadRun
import OracleServer.TokenUniverse

/-! The difference between two copies of the token file. `change` and `same_as` compare
sets of rows with case-folded addresses; a projection has one row for each symbol, so
both compare maps. -/
namespace OracleServer

section Change
variable [Toml] [Alloy] [Unicode] [LawfulSerde] {static : Table} {bytes bytes' : ByteArray}
  {p p' : Projection} {c c' : Config} {r r' : TokenRegistry}

theorem candidate_symbols_nodup [LawfulToml] (h : TokenFile.candidate static bytes = .ok (p, c, r)) :
    c.symbols.Nodup :=
  symbols_nodup (candidate_rows h) (TokenFile.candidate_nodup h)

theorem mem_removed (h : TokenFile.candidate static bytes = .ok (p, c, r))
    (h' : TokenFile.candidate static bytes' = .ok (p', c', r')) (s : Symbol) :
    s ∈ (TokenFile.change p p').removed ↔ s ∈ c.symbols ∧ s ∉ c'.symbols := by
  simp only [TokenFile.change, List.mem_filter, mem_btreeSet, decide_eq_true_eq, mem_symbols h,
    mem_symbols h']

/-- A symbol has one row. -/
theorem row_unique [LawfulToml] (h : TokenFile.candidate static bytes = .ok (p, c, r))
    {row row' : Lex (String × String)} (hrow : row ∈ p.rows) (hrow' : row' ∈ p.rows)
    (heq : (ofLex row).1 = (ofLex row').1) : row = row' := by
  obtain ⟨t, ht, rfl⟩ := (mem_rows h row).mp hrow
  obtain ⟨t', ht', rfl⟩ := (mem_rows h row').mp hrow'
  have htt : t = t' := List.inj_on_of_nodup_map (candidate_symbols_nodup h) ht ht' heq
  rw [htt]

variable [LawfulAlloy] [LawfulToml]

/-- What a reload forgets is everything that left the set or moved. -/
theorem change_complete (h : TokenFile.candidate static bytes = .ok (p, c, r))
    (h' : TokenFile.candidate static bytes' = .ok (p', c', r')) {a : Address} {s : Symbol}
    (hold : r.tokens.lookup a = some s) (hnew : r'.tokens.lookup a ≠ some s) :
    s ∈ (TokenFile.change p p').removed ++ (TokenFile.change p p').readdressed := by
  obtain ⟨hvalid, hreg, -, -⟩ := TokenFile.candidate_ok h
  obtain ⟨hvalid', hreg', -, -⟩ := TokenFile.candidate_ok h'
  obtain ⟨t, ht, ha, rfl⟩ := (fromConfig_lookup hvalid hreg a s).mp hold
  have hrow := (mem_rows h _).mpr ⟨t, ht, rfl⟩
  have hsym : t.symbol ∈ c.symbols := List.mem_map.mpr ⟨t, ht, rfl⟩
  rw [List.mem_append]
  by_cases hin : t.symbol ∈ c'.symbols
  · refine .inr ?_
    simp only [TokenFile.change, List.mem_filter, mem_btreeSet, decide_eq_true_eq]
    refine ⟨⟨(mem_symbols h _).mpr hsym, (mem_symbols h' _).mpr hin⟩, fun hfind => hnew ?_⟩
    -- the first rows of the symbol agree, and it has only one in each copy
    have hsome : (p.rows.find? fun row => (ofLex row).1 = t.symbol) =
        some (toLex (t.symbol, Unicode.toLowercase t.address)) := by
      have hex : (p.rows.find? fun row => (ofLex row).1 = t.symbol).isSome = true :=
        List.find?_isSome.mpr ⟨_, hrow, by simp⟩
      obtain ⟨row, hfound⟩ := Option.isSome_iff_exists.mp hex
      have hmem := List.mem_of_find?_eq_some hfound
      have hkey : (ofLex row).1 = t.symbol := by simpa using List.find?_some hfound
      rw [hfound, row_unique h hmem hrow hkey]
    rw [hsome] at hfind
    obtain ⟨t', ht', heq⟩ := (mem_rows h' _).mp (List.mem_of_find?_eq_some hfind.symm)
    obtain ⟨hsym', hlower⟩ := Prod.mk.inj (toLex.injective heq)
    obtain ⟨a', ha'⟩ := candidate_parses h' ht'
    have haa : a' = a := LawfulAlloy.case_insensitive _ _ _ _ ha' ha hlower
    exact (fromConfig_lookup hvalid' hreg' a t.symbol).mpr ⟨t', ht', haa ▸ ha', hsym'⟩
  · exact .inl ((mem_removed h h' _).mpr ⟨hsym, hin⟩)

end Change

section Exact
variable [Unicode]

/-- The row is one of the projection's. -/
def Projection.Holds (p : Projection) (t : TokenEntry) : Prop := t.toValue ∈ p.tokens

/-- Every row is a symbol and an address, and a symbol has one of them. -/
structure Projection.Keyed (p : Projection) : Prop where
  rows : ∃ rows : List TokenEntry, p.tokens = rows.map TokenEntry.toValue
  unique : ∀ t u, p.Holds t → p.Holds u → t.symbol = u.symbol → t = u

omit [Unicode] in
lemma TokenEntry.toValue_injective : Function.Injective TokenEntry.toValue := by
  rintro ⟨a, s⟩ ⟨b, t⟩ h
  simpa [TokenEntry.toValue] using h

omit [Unicode] in
lemma project_keyed [Toml] {f : Table} {c : UInt64} {p : Projection}
    (hf : Value.Distinct (.table f)) (h : TokenFile.project f c = .ok p) : p.Keyed := by
  obtain ⟨chain, quote, -, hsel⟩ := TokenFile.project_selected hf h
  obtain ⟨rows, htokens, hsorted, -⟩ := hsel.rows
  have hholds : ∀ t, p.Holds t → t ∈ rows := by
    intro t ht
    rw [Projection.Holds, htokens] at ht
    exact (List.mem_map_of_injective TokenEntry.toValue_injective).mp ht
  refine ⟨⟨rows, htokens⟩, fun t u ht hu heq => ?_⟩
  have hnodup : (rows.map TokenEntry.symbol).Nodup := hsorted.imp fun hlt => ne_of_lt hlt
  exact List.inj_on_of_nodup_map hnodup (hholds t ht) (hholds u hu) heq

/-- The row as `rows` keeps it. -/
def TokenEntry.folded (t : TokenEntry) : Lex (String × String) :=
  toLex (t.symbol, Unicode.toLowercase t.address)

namespace Projection
variable {p q : Projection}

lemma Keyed.mem_rows (hp : p.Keyed) {row : Lex (String × String)} :
    row ∈ p.rows ↔ ∃ t, p.Holds t ∧ t.folded = row := by
  obtain ⟨rows, htokens⟩ := hp.rows
  have hmap : p.tokens.filterMap rowOf = rows.map TokenEntry.folded := by
    rw [htokens, List.filterMap_map]
    exact congrFun (List.filterMap_eq_map (f := TokenEntry.folded)) rows
  rw [Projection.rows, mem_btreeSet, hmap, List.mem_map]
  simp only [Holds, htokens, List.mem_map_of_injective TokenEntry.toValue_injective]

lemma Keyed.mem_symbols (hp : p.Keyed) {s : Symbol} :
    s ∈ btreeSet (p.rows.map fun r => (ofLex r).1) ↔ ∃ t, p.Holds t ∧ t.symbol = s := by
  rw [mem_btreeSet, List.mem_map]
  constructor
  · rintro ⟨row, hrow, rfl⟩
    obtain ⟨t, ht, rfl⟩ := hp.mem_rows.mp hrow
    exact ⟨t, ht, rfl⟩
  · rintro ⟨t, ht, rfl⟩
    exact ⟨t.folded, hp.mem_rows.mpr ⟨t, ht, rfl⟩, rfl⟩

/-- The first row of a symbol is its only one. -/
lemma Keyed.find_row (hp : p.Keyed) {t : TokenEntry} (ht : p.Holds t) :
    p.rows.find? (fun r => (ofLex r).1 = t.symbol) = some t.folded := by
  have hin : t.folded ∈ p.rows := hp.mem_rows.mpr ⟨t, ht, rfl⟩
  have hsome : (p.rows.find? fun r => (ofLex r).1 = t.symbol).isSome = true :=
    List.find?_isSome.mpr ⟨t.folded, hin, by simp [TokenEntry.folded]⟩
  obtain ⟨row, hrow⟩ := Option.isSome_iff_exists.mp hsome
  obtain ⟨u, hu, rfl⟩ := hp.mem_rows.mp (List.mem_of_find?_eq_some hrow)
  have hkey := List.find?_some hrow
  have hsym : u.symbol = t.symbol := of_decide_eq_true hkey
  rw [hrow, hp.unique u t hu ht hsym]

end Projection

/-- What `d` has to say about two projections, row by row. -/
structure ExactDiff (live fresh : Projection) (d : Change) : Prop where
  nodup : d.added.Nodup ∧ d.removed.Nodup ∧ d.readdressed.Nodup
  disjoint : d.added.Disjoint d.removed ∧ d.added.Disjoint d.readdressed ∧
    d.removed.Disjoint d.readdressed
  added : ∀ s, s ∈ d.added ↔
    (∃ u, fresh.Holds u ∧ u.symbol = s) ∧ ¬ ∃ t, live.Holds t ∧ t.symbol = s
  removed : ∀ s, s ∈ d.removed ↔
    (∃ t, live.Holds t ∧ t.symbol = s) ∧ ¬ ∃ u, fresh.Holds u ∧ u.symbol = s
  readdressed : ∀ s, s ∈ d.readdressed ↔
    ∃ t u, live.Holds t ∧ fresh.Holds u ∧ t.symbol = s ∧ u.symbol = s ∧
      Unicode.toLowercase t.address ≠ Unicode.toLowercase u.address
  rows : fresh.rows = btreeSet
    ((live.rows.filter fun r => (ofLex r).1 ∉ d.removed ∧ (ofLex r).1 ∉ d.readdressed) ++
      fresh.rows.filter fun r => (ofLex r).1 ∈ d.added ∨ (ofLex r).1 ∈ d.readdressed)
  same : (d.added = [] ∧ d.removed = [] ∧ d.readdressed = [] ∧ d.quoteTokenChanged = false) ↔
    live.sameAs fresh = true

section Change
variable {live fresh : Projection} (hlive : live.Keyed) (hfresh : fresh.Keyed)
include hlive hfresh

lemma change_added (s : Symbol) : s ∈ (TokenFile.change live fresh).added ↔
    (∃ u, fresh.Holds u ∧ u.symbol = s) ∧ ¬ ∃ t, live.Holds t ∧ t.symbol = s := by
  simp only [TokenFile.change, List.mem_filter, decide_eq_true_eq, hlive.mem_symbols,
    hfresh.mem_symbols]

lemma change_removed (s : Symbol) : s ∈ (TokenFile.change live fresh).removed ↔
    (∃ t, live.Holds t ∧ t.symbol = s) ∧ ¬ ∃ u, fresh.Holds u ∧ u.symbol = s := by
  simp only [TokenFile.change, List.mem_filter, decide_eq_true_eq, hlive.mem_symbols,
    hfresh.mem_symbols]

lemma change_readdressed (s : Symbol) : s ∈ (TokenFile.change live fresh).readdressed ↔
    ∃ t u, live.Holds t ∧ fresh.Holds u ∧ t.symbol = s ∧ u.symbol = s ∧
      Unicode.toLowercase t.address ≠ Unicode.toLowercase u.address := by
  have hfold : ∀ {t u : TokenEntry}, t.symbol = u.symbol →
      (t.folded = u.folded ↔ Unicode.toLowercase t.address = Unicode.toLowercase u.address) := by
    intro t u hs
    simp [TokenEntry.folded, hs]
  simp only [TokenFile.change, List.mem_filter, decide_eq_true_eq, hlive.mem_symbols,
    hfresh.mem_symbols]
  constructor
  · rintro ⟨⟨⟨t, ht, rfl⟩, u, hu, hs⟩, hne⟩
    rw [hlive.find_row ht, ← hs, hfresh.find_row hu] at hne
    exact ⟨t, u, ht, hu, rfl, hs, fun heq => hne (by rw [(hfold hs.symm).mpr heq])⟩
  · rintro ⟨t, u, ht, hu, rfl, hs, hne⟩
    refine ⟨⟨⟨t, ht, rfl⟩, u, hu, hs⟩, ?_⟩
    rw [hlive.find_row ht, ← hs, hfresh.find_row hu]
    intro heq
    exact hne ((hfold hs.symm).mp (Option.some.inj heq))

/-- A row of the fresh copy is a live row that the diff leaves alone, or one it names. -/
lemma change_rows (row : Lex (String × String)) : row ∈ fresh.rows ↔
    (row ∈ live.rows ∧ (ofLex row).1 ∉ (TokenFile.change live fresh).removed ∧
        (ofLex row).1 ∉ (TokenFile.change live fresh).readdressed) ∨
      (row ∈ fresh.rows ∧ ((ofLex row).1 ∈ (TokenFile.change live fresh).added ∨
        (ofLex row).1 ∈ (TokenFile.change live fresh).readdressed)) := by
  rw [change_added hlive hfresh, change_removed hlive hfresh, change_readdressed hlive hfresh]
  constructor
  · intro hrow
    obtain ⟨u, hu, rfl⟩ := hfresh.mem_rows.mp hrow
    by_cases hin : ∃ t, live.Holds t ∧ t.symbol = u.symbol
    · obtain ⟨t, ht, hs⟩ := hin
      by_cases heq : Unicode.toLowercase t.address = Unicode.toLowercase u.address
      · refine .inl ⟨?_, fun hgone => hgone.2 ⟨u, hu, rfl⟩, ?_⟩
        · exact hlive.mem_rows.mpr ⟨t, ht, by simp [TokenEntry.folded, hs, heq]⟩
        · rintro ⟨t', u', ht', hu', hst, hsu, hne⟩
          obtain rfl := hlive.unique t' t ht' ht (hst.trans hs.symm)
          obtain rfl := hfresh.unique u' u hu' hu hsu
          exact hne heq
      · exact .inr ⟨hrow, .inr ⟨t, u, ht, hu, hs, rfl, heq⟩⟩
    · exact .inr ⟨hrow, .inl ⟨⟨u, hu, rfl⟩, hin⟩⟩
  · rintro (⟨hrow, hkept, hsame⟩ | ⟨hrow, -⟩)
    · obtain ⟨t, ht, rfl⟩ := hlive.mem_rows.mp hrow
      have hin : ∃ u, fresh.Holds u ∧ u.symbol = t.symbol := by
        by_contra hout
        exact hkept ⟨⟨t, ht, rfl⟩, hout⟩
      obtain ⟨u, hu, hs⟩ := hin
      have heq : Unicode.toLowercase t.address = Unicode.toLowercase u.address := by
        by_contra hne
        exact hsame ⟨t, u, ht, hu, rfl, hs, hne⟩
      exact hfresh.mem_rows.mpr ⟨u, hu, by simp [TokenEntry.folded, hs, heq]⟩
    · exact hrow

/-- Nothing is named when and only when the sets of rows are equal. -/
lemma change_empty : ((TokenFile.change live fresh).added = [] ∧
      (TokenFile.change live fresh).removed = [] ∧
      (TokenFile.change live fresh).readdressed = []) ↔ live.rows = fresh.rows := by
  simp only [List.eq_nil_iff_forall_not_mem]
  constructor
  · rintro ⟨hadded, hremoved, hmoved⟩
    rw [Projection.rows, Projection.rows, btreeSet_eq_iff]
    intro row
    rw [← mem_btreeSet, ← mem_btreeSet (l := fresh.tokens.filterMap rowOf)]
    change row ∈ live.rows ↔ row ∈ fresh.rows
    rw [change_rows hlive hfresh row]
    simp [hadded, hremoved, hmoved]
  · intro heq
    have hboth : ∀ s, (∃ t, live.Holds t ∧ t.symbol = s) ↔ ∃ u, fresh.Holds u ∧ u.symbol = s := by
      intro s
      rw [← hlive.mem_symbols, ← hfresh.mem_symbols, heq]
    refine ⟨fun s hs => ?_, fun s hs => ?_, fun s hs => ?_⟩
    · obtain ⟨hin, hout⟩ := (change_added hlive hfresh s).mp hs
      exact hout ((hboth s).mpr hin)
    · obtain ⟨hin, hout⟩ := (change_removed hlive hfresh s).mp hs
      exact hout ((hboth s).mp hin)
    · obtain ⟨t, u, ht, hu, hst, hsu, hne⟩ := (change_readdressed hlive hfresh s).mp hs
      have hrow : t.folded ∈ fresh.rows := heq ▸ hlive.mem_rows.mpr ⟨t, ht, rfl⟩
      obtain ⟨u', hu', hfold⟩ := hfresh.mem_rows.mp hrow
      obtain ⟨hs', hlower⟩ := Prod.mk.inj (toLex.injective hfold)
      obtain rfl := hfresh.unique u' u hu' hu (by rw [hs', hst, hsu])
      exact hne hlower.symm

lemma change_exact : ExactDiff live fresh (TokenFile.change live fresh) := by
  constructor
  case nodup =>
    exact ⟨(btreeSet_nodup _).filter _, (btreeSet_nodup _).filter _,
      ((btreeSet_nodup _).filter _).filter _⟩
  case disjoint =>
    refine ⟨fun s ha hr => ?_, fun s ha hm => ?_, fun s hr hm => ?_⟩
    · exact ((change_added hlive hfresh s).mp ha).2 ((change_removed hlive hfresh s).mp hr).1
    · obtain ⟨t, u, ht, -, hs, -⟩ := (change_readdressed hlive hfresh s).mp hm
      exact ((change_added hlive hfresh s).mp ha).2 ⟨t, ht, hs⟩
    · obtain ⟨t, u, -, hu, -, hs, -⟩ := (change_readdressed hlive hfresh s).mp hm
      exact ((change_removed hlive hfresh s).mp hr).2 ⟨u, hu, hs⟩
  case added => exact change_added hlive hfresh
  case removed => exact change_removed hlive hfresh
  case readdressed => exact change_readdressed hlive hfresh
  case rows =>
    have hself : fresh.rows = btreeSet fresh.rows := by
      rw [Projection.rows, btreeSet_eq_iff]
      intro row
      rw [mem_btreeSet]
    rw [hself, btreeSet_eq_iff]
    intro row
    rw [← hself, change_rows hlive hfresh row]
    simp [List.mem_append, List.mem_filter]
  case same =>
    rw [Projection.sameAs, Bool.and_eq_true, beq_iff_eq, ← change_empty hlive hfresh]
    simp [TokenFile.change, and_assoc]

end Change

omit [Unicode] in
lemma eqIgnoreAsciiCase_equivalence :
    Equivalence fun a b : String => eqIgnoreAsciiCase a b = true := by
  constructor
  · simp [eqIgnoreAsciiCase]
  · intro a b hab
    simp only [eqIgnoreAsciiCase, beq_iff_eq] at hab ⊢
    exact hab.symm
  · intro a b c hab hbc
    simp only [eqIgnoreAsciiCase, beq_iff_eq] at hab hbc ⊢
    exact hab.trans hbc

lemma sameAs_equivalence : Equivalence fun p q : Projection => p.sameAs q = true := by
  have hiff : ∀ p q : Projection, p.sameAs q = true ↔
      p.rows = q.rows ∧ eqIgnoreAsciiCase p.quoteToken q.quoteToken = true := by
    intro p q
    simp [Projection.sameAs]
  simp only [hiff]
  constructor
  · intro p
    exact ⟨rfl, eqIgnoreAsciiCase_equivalence.refl _⟩
  · intro p q h
    exact ⟨h.1.symm, eqIgnoreAsciiCase_equivalence.symm h.2⟩
  · intro p q r h h'
    exact ⟨h.1.trans h'.1, eqIgnoreAsciiCase_equivalence.trans h.2 h'.2⟩

variable [Toml] [Alloy]

/-- What `Reloader::apply` forgets for an accepted copy that changes the rows. -/
lemma apply_forgets {static : Table} {boot c' : Config} {current : TokenSet} {g : Int64}
    {bytes : ByteArray} {live fresh : Projection} {r' : TokenRegistry}
    (hcandidate : TokenFile.candidate static bytes = .ok (fresh, c', r'))
    (hrunning : current.projection = some live) (hg : current.generation ≠ some g)
    (hstatic : Reload.staticFieldChanged boot c' = none) (hdiff : live.sameAs fresh = false) :
    .forget ((TokenFile.change live fresh).removed ++ (TokenFile.change live fresh).readdressed) ∈
      Reload.apply current (Reload.decide static boot current g bytes) := by
  have hdiff' : fresh.sameAs live = false := by
    rw [Bool.eq_false_iff] at hdiff ⊢
    exact fun h => hdiff (sameAs_equivalence.symm h)
  simp [Reload.decide, hg, hcandidate, hstatic, hrunning, hdiff', Reload.apply]

/-- The diff is the difference of the rows, agrees with `same_as`, and names every symbol
whose address a reload changes. -/
theorem reload_diff_is_exact [LawfulSerde] [LawfulAlloy] [LawfulToml] {f g : Table} {c : UInt64}
    {live fresh : Projection} (hf : Value.Distinct (.table f)) (hg : Value.Distinct (.table g))
    (hlive : TokenFile.project f c = .ok live) (hfresh : TokenFile.project g c = .ok fresh) :
    ExactDiff live fresh (TokenFile.change live fresh) ∧
    (Equivalence fun p q : Projection => p.sameAs q = true) ∧
    ∀ static bytes bytes' boot boot' r r',
      TokenFile.candidate static bytes = .ok (live, boot, r) →
      TokenFile.candidate static bytes' = .ok (fresh, boot', r') →
      ∀ s a, r.tokens.lookup a = some s → (∀ a', r'.tokens.lookup a' = some s → a' ≠ a) →
        s ∈ (TokenFile.change live fresh).removed ++ (TokenFile.change live fresh).readdressed ∧
        ∀ current generation, current.projection = some live →
          current.generation ≠ some generation →
          .forget ((TokenFile.change live fresh).removed ++
              (TokenFile.change live fresh).readdressed) ∈
            Reload.apply current (Reload.decide static boot current generation bytes') := by
  have hexact := change_exact (project_keyed hf hlive) (project_keyed hg hfresh)
  refine ⟨hexact, sameAs_equivalence, ?_⟩
  intro static bytes bytes' boot boot' r r' h h' s a hold hnew
  have hin := change_complete h h' hold fun hsame => hnew a hsame rfl
  refine ⟨hin, fun current generation hrunning hgen => ?_⟩
  refine apply_forgets h' hrunning hgen (staticFieldChanged_none h h') ?_
  rw [Bool.eq_false_iff]
  intro hsame
  obtain ⟨-, hremoved, hmoved, -⟩ := hexact.same.mpr hsame
  rw [hremoved, hmoved] at hin
  cases hin

end Exact

namespace Sample

theorem diff_on_base : ∃ live fresh boot boot' r r',
    TokenFile.candidate staticConfig (bytesOf 1) = .ok (live, boot, r) ∧
    TokenFile.candidate staticConfig (bytesOf 2) = .ok (fresh, boot', r') ∧
    ExactDiff live fresh (TokenFile.change live fresh) := by
  obtain ⟨live, boot, r, h⟩ := candidate_accepts 1 (by decide +kernel)
  obtain ⟨fresh, boot', r', h'⟩ := candidate_accepts 2 (by decide +kernel)
  obtain ⟨f, c, hf, hc, hlive⟩ := TokenFile.candidate_project h
  obtain ⟨g, c', hg, hc', hfresh⟩ := TokenFile.candidate_project h'
  obtain rfl : c = c' := Except.ok.inj (hc.symm.trans hc')
  exact ⟨live, fresh, boot, boot', r, r', h, h', (reload_diff_is_exact hf hg hlive hfresh).1⟩

end Sample

end OracleServer
