import OracleServer.TokenFile

/-! What `project` takes from a token file, stated on the tree alone: the one chain that
says it is the asked one, and its enabled slots that list Raindex. -/
namespace OracleServer

/-- An entry of `chains` that says it is chain `c`. -/
def SaysChain (c : UInt64) (v : Value) : Prop :=
  ∃ i, v.get "chain_id" = some (.integer i) ∧ i.toInt = c.toNat

/-- A slot of `assets.equities` that no rule refuses. Nothing is asked of a disabled slot
but its `pricing`, and no address of an enabled one that is not on Raindex. -/
def SlotAccepted (v : Value) : Prop :=
  ∃ slot : Table, v = .table slot ∧
    (slot.get "pricing" = some (.string "enabled") ∨
      slot.get "pricing" = some (.string "disabled")) ∧
    (slot.get "pricing" = some (.string "enabled") →
      ∃ venues, slot.get "venues" = some (.array venues) ∧
        (.string "raindex" ∈ venues →
          ∃ address, slot.get "tokenized_equity_derivative" = some (.string address)))

/-- An enabled slot that lists Raindex, with its token address. -/
def OnRaindex (v : Value) (address : String) : Prop :=
  ∃ (slot : Table) (venues : List Value), v = .table slot ∧ slot.get "pricing" = some (.string "enabled") ∧
    slot.get "venues" = some (.array venues) ∧ .string "raindex" ∈ venues ∧
    slot.get "tokenized_equity_derivative" = some (.string address)

def equitiesOf (chain : Table) : Option Value := (chain.get "assets").bind (·.get "equities")

/-- The chain prices the slot `key` for Raindex, at `address`. -/
def Listed (chain : Table) (key address : String) : Prop :=
  ∃ slots v, equitiesOf chain = some (.table slots) ∧ (key, v) ∈ slots ∧ OnRaindex v address

/-- The rules of `project` on one chain, and the quote token it names. -/
structure ChainAccepted (chain : Table) (quote : String) : Prop where
  quote : chain.get "quote_token" = some (.string quote)
  equities : ∀ v, equitiesOf chain = some v →
    ∃ slots, v = .table slots ∧ ∀ e ∈ slots, SlotAccepted e.2
  nonempty : ∃ key address, Listed chain key address

/-- `chain` is the only chain of the file that says it is `c`, under the key `name`. -/
def OnlyChain (f : Table) (c : UInt64) (name : String) (chain : Table) : Prop :=
  ∃ chains, f.get "chains" = some (.table chains) ∧
    ∀ e, (e ∈ chains ∧ SaysChain c e.2) ↔ e = (name, .table chain)

/-- The file is one that `project` accepts for `c`. -/
structure Admitted (f : Table) (c : UInt64) (chain : Table) (quote : String) : Prop where
  schema : f.get "schema_version" = some (.integer 1)
  only : ∃ name, OnlyChain f c name chain
  accepted : ChainAccepted chain quote

def TokenEntry.toValue (t : TokenEntry) : Value :=
  .table [("address", .string t.address), ("symbol", .string t.symbol)]

/-- One row for each slot on Raindex and no other, in strict order of the symbols. -/
structure Selected (c : UInt64) (chain : Table) (quote : String) (p : Projection) : Prop where
  chainId : p.chainId = c
  quoteToken : p.quoteToken = quote
  rows : ∃ rows : List TokenEntry, p.tokens = rows.map TokenEntry.toValue ∧
    (rows.map TokenEntry.symbol).Pairwise (· < ·) ∧
    ∀ row, row ∈ rows ↔ ∃ key, row.symbol = "wt" ++ key ∧ Listed chain key row.address

@[simp] lemma asStr_iff {v : Value} {s : String} : v.asStr = some s ↔ v = .string s := by
  cases v <;> simp [Value.asStr]

@[simp] lemma asArray_iff {v : Value} {l : List Value} : v.asArray = some l ↔ v = .array l := by
  cases v <;> simp [Value.asArray]

@[simp] lemma asTable_iff {v : Value} {t : Table} : v.asTable = some t ↔ v = .table t := by
  cases v <;> simp [Value.asTable]

@[simp] lemma asInteger_iff {v : Value} {i : Int64} : v.asInteger = some i ↔ v = .integer i := by
  cases v <;> simp [Value.asInteger]

lemma bind_asStr_iff {v : Option Value} {s : String} :
    v.bind Value.asStr = some s ↔ v = some (.string s) := by
  simp [Option.bind_eq_some_iff, asStr_iff]

lemma lists_raindex_iff {venues : List Value} :
    (venues.any fun v => v.asStr = some "raindex") = true ↔ .string "raindex" ∈ venues := by
  simp [asStr_iff]

namespace TokenFile

lemma table_iff {v : Option Value} {what : String} {t : Table} :
    table v what = .ok t ↔ v = some (.table t) := by
  constructor
  · intro h
    obtain ⟨w, rfl, hw⟩ := table_ok h
    rw [asTable_iff.mp hw]
  · rintro rfl
    rfl

variable [Toml] {n s : String}

lemma checkSchemaVersion_iff {file : Table} :
    checkSchemaVersion file = .ok () ↔ file.get "schema_version" = some (.integer 1) := by
  unfold checkSchemaVersion
  split
  · next v hv =>
    rw [hv, Option.some.injEq, Value.integer.injEq]
    by_cases h : v = tokenFileSchemaVersion
    · simp [h, tokenFileSchemaVersion]
    · simp only [if_neg h, reduceCtorEq, false_iff]
      exact h
  · next other hother =>
    simp only [reduceCtorEq, false_iff]
    intro h
    exact hother 1 h

omit [Toml] in
/-- An enabled slot gives a row or nothing, or is refused. -/
lemma slotRow_iff {slot : Table} {row : Option Value} :
    slotRow n s slot = .ok row ↔
      ∃ venues, slot.get "venues" = some (.array venues) ∧
        ((.string "raindex" ∉ venues ∧ row = none) ∨
          (.string "raindex" ∈ venues ∧ ∃ address,
            slot.get "tokenized_equity_derivative" = some (.string address) ∧
            row = some (TokenEntry.toValue ⟨address, "wt" ++ s⟩))) := by
  have hvenues : ∀ venues, (slot.get "venues").bind Value.asArray = some venues ↔
      slot.get "venues" = some (.array venues) := by
    simp [Option.bind_eq_some_iff, asArray_iff]
  unfold slotRow
  split
  · next hnone =>
    simp only [reduceCtorEq, false_iff]
    rintro ⟨venues, hv, -⟩
    rw [(hvenues venues).mpr hv] at hnone
    cases hnone
  · next venues hsome =>
    rw [hvenues] at hsome
    have hone : ∀ P : List Value → Prop,
        (∃ l, slot.get "venues" = some (.array l) ∧ P l) ↔ P venues := by
      intro P
      simp [hsome]
    rw [hone]
    split
    · next hany =>
      have hin := lists_raindex_iff.mp hany
      split
      · next hmissing =>
        have : ∀ address, slot.get "tokenized_equity_derivative" ≠ some (.string address) := by
          intro address h
          rw [bind_asStr_iff.mpr h] at hmissing
          cases hmissing
        simp [hin, this]
      · next address haddress =>
        have := bind_asStr_iff.mp haddress
        simp [hin, this, TokenEntry.toValue, eq_comm]
    · next hany =>
      have hout : .string "raindex" ∉ venues := fun hin => hany (lists_raindex_iff.mpr hin)
      simp [hout, eq_comm]

lemma projectSlot_iff {v : Value} {row : Option Value} :
    projectSlot n s v = .ok row ↔
      ∃ slot : Table, v = .table slot ∧
        ((slot.get "pricing" = some (.string "disabled") ∧ row = none) ∨
          (slot.get "pricing" = some (.string "enabled") ∧
            slotRow n s slot = .ok row)) := by
  constructor
  · intro h
    obtain ⟨slot, ht, h⟩ := except_bind_ok h
    have hv : v = .table slot := Option.some.inj (table_iff.mp ht)
    refine ⟨slot, hv, ?_⟩
    unfold pricedRow at h
    split at h
    · next hp => exact .inr ⟨hp, h⟩
    · next hp => exact .inl ⟨hp, (Except.ok.inj h).symm⟩
    · cases h
  · rintro ⟨slot, rfl, ⟨hp, rfl⟩ | ⟨hp, h⟩⟩
    · change pricedRow n s slot = _
      simp [pricedRow, hp]
    · change pricedRow n s slot = _
      simp [pricedRow, hp, h]

/-- The rules on a slot are what `project` checks of it. -/
lemma slotAccepted_iff {v : Value} :
    (∃ row, projectSlot n s v = .ok row) ↔ SlotAccepted v := by
  constructor
  · rintro ⟨row, h⟩
    obtain ⟨slot, rfl, ⟨hp, -⟩ | ⟨hp, h⟩⟩ := projectSlot_iff.mp h
    · exact ⟨slot, rfl, .inr hp, fun he => by simp [hp] at he⟩
    · obtain ⟨venues, hvenues, hrow⟩ := slotRow_iff.mp h
      refine ⟨slot, rfl, .inl hp, fun _ => ⟨venues, hvenues, fun hin => ?_⟩⟩
      rcases hrow with ⟨hout, -⟩ | ⟨-, address, haddress, -⟩
      · exact absurd hin hout
      · exact ⟨address, haddress⟩
  · rintro ⟨slot, rfl, hp | hp, hrules⟩
    · obtain ⟨venues, hvenues, haddress⟩ := hrules hp
      by_cases hin : .string "raindex" ∈ venues
      · obtain ⟨address, ha⟩ := haddress hin
        exact ⟨_, projectSlot_iff.mpr ⟨slot, rfl, .inr ⟨hp, slotRow_iff.mpr
          ⟨venues, hvenues, .inr ⟨hin, address, ha, rfl⟩⟩⟩⟩⟩
      · exact ⟨_, projectSlot_iff.mpr ⟨slot, rfl, .inr ⟨hp, slotRow_iff.mpr
          ⟨venues, hvenues, .inl ⟨hin, rfl⟩⟩⟩⟩⟩
    · exact ⟨none, projectSlot_iff.mpr ⟨slot, rfl, .inl ⟨hp, rfl⟩⟩⟩

lemma projectSlot_some {v w : Value} :
    projectSlot n s v = .ok (some w) ↔
      ∃ address, OnRaindex v address ∧ w = TokenEntry.toValue ⟨address, "wt" ++ s⟩ := by
  constructor
  · intro h
    obtain ⟨slot, rfl, ⟨-, hnone⟩ | ⟨hp, h⟩⟩ := projectSlot_iff.mp h
    · cases hnone
    · obtain ⟨venues, hvenues, ⟨-, hnone⟩ | ⟨hin, address, ha, hw⟩⟩ := slotRow_iff.mp h
      · cases hnone
      · exact ⟨address, ⟨slot, venues, rfl, hp, hvenues, hin, ha⟩, Option.some.inj hw⟩
  · rintro ⟨address, ⟨slot, venues, rfl, hp, hvenues, hin, ha⟩, rfl⟩
    exact projectSlot_iff.mpr ⟨slot, rfl, .inr ⟨hp, slotRow_iff.mpr
      ⟨venues, hvenues, .inr ⟨hin, address, ha, rfl⟩⟩⟩⟩

lemma projectSlots_isOk {slots : Table} :
    (∃ rows, projectSlots n slots = .ok rows) ↔ ∀ e ∈ slots, SlotAccepted e.2 := by
  induction slots with
  | nil => simp [projectSlots]
  | cons e rest ih =>
    rw [List.forall_mem_cons, ← ih, ← slotAccepted_iff (n := n) (s := e.1)]
    constructor
    · rintro ⟨rows, h⟩
      obtain ⟨row, hrow, h⟩ := except_bind_ok h
      obtain ⟨others, hothers, -⟩ := except_bind_ok h
      exact ⟨⟨row, hrow⟩, others, hothers⟩
    · rintro ⟨⟨row, hrow⟩, others, hothers⟩
      refine ⟨row.toList ++ others, ?_⟩
      simp [projectSlots, hrow, hothers, bind, Except.bind, pure, Except.pure]

lemma projectSlots_rows {slots : Table} {vs : List Value}
    (h : projectSlots n slots = .ok vs) :
    ∃ rows : List TokenEntry, vs = rows.map TokenEntry.toValue ∧
      ∀ row, row ∈ rows ↔
        ∃ e ∈ slots, row.symbol = "wt" ++ e.1 ∧ OnRaindex e.2 row.address := by
  induction slots generalizing vs with
  | nil =>
    obtain rfl := Except.ok.inj h
    exact ⟨[], rfl, by simp⟩
  | cons e rest ih =>
    obtain ⟨row, hrow, h⟩ := except_bind_ok h
    obtain ⟨others, hothers, h⟩ := except_bind_ok h
    obtain rfl := Except.ok.inj h
    obtain ⟨rows, rfl, hmem⟩ := ih hothers
    cases row with
    | none =>
      have hout : ∀ address, ¬ OnRaindex e.2 address := by
        intro address hon
        have := projectSlot_some (n := n) (s := e.1) |>.mpr ⟨address, hon, rfl⟩
        rw [hrow] at this
        cases this
      exact ⟨rows, rfl, by simp [hmem, hout]⟩
    | some w =>
      obtain ⟨address, hon, rfl⟩ := projectSlot_some.mp hrow
      have honly : ∀ a, OnRaindex e.2 a → a = address := by
        rintro a ⟨slot, venues, ht, -, -, -, ha⟩
        obtain ⟨slot', venues', ht', -, -, -, ha'⟩ := hon
        obtain rfl : slot = slot' := by simpa using ht.symm.trans ht'
        simpa using ha.symm.trans ha'
      refine ⟨⟨address, "wt" ++ e.1⟩ :: rows, rfl, ?_⟩
      intro row
      rw [List.mem_cons, hmem, List.exists_mem_cons_iff]
      apply or_congr_left
      constructor
      · rintro rfl
        exact ⟨rfl, hon⟩
      · rintro ⟨hs, ha⟩
        cases row
        obtain rfl := honly _ ha
        simpa using hs

lemma projectEquities_isOk {chain : Table} :
    (∃ rows, projectEquities n chain = .ok rows) ↔ ∀ v, equitiesOf chain = some v →
      ∃ slots : Table, v = .table slots ∧ ∀ e ∈ slots, SlotAccepted e.2 := by
  unfold projectEquities
  rw [← equitiesOf]
  cases equitiesOf chain with
  | none => simp
  | some v =>
    have hone : ∀ P : Value → Prop, (∀ w, some v = some w → P w) ↔ P v := by simp
    rw [hone]
    constructor
    · rintro ⟨rows, h⟩
      obtain ⟨slots, ht, h⟩ := except_bind_ok h
      exact ⟨slots, Option.some.inj (table_iff.mp ht), projectSlots_isOk.mp ⟨rows, h⟩⟩
    · rintro ⟨slots, rfl, hall⟩
      exact projectSlots_isOk.mpr hall

/-- The rows a chain yields, in the order of its slots. -/
lemma projectEquities_rows {chain : Table} {vs : List Value}
    (h : projectEquities n chain = .ok vs) :
    ∃ rows : List TokenEntry, vs = rows.map TokenEntry.toValue ∧
      ∀ row, row ∈ rows ↔ ∃ key, row.symbol = "wt" ++ key ∧ Listed chain key row.address := by
  unfold projectEquities at h
  split at h
  · next hnone =>
    obtain rfl := Except.ok.inj h
    refine ⟨[], rfl, fun row => ?_⟩
    simp only [List.not_mem_nil, false_iff]
    rintro ⟨key, -, slots, v, heq, -⟩
    rw [equitiesOf, hnone] at heq
    cases heq
  · next w hsome =>
    obtain ⟨slots, ht, h⟩ := except_bind_ok h
    obtain rfl : w = .table slots := Option.some.inj (table_iff.mp ht)
    obtain ⟨rows, hvs, hmem⟩ := projectSlots_rows h
    refine ⟨rows, hvs, fun row => ?_⟩
    rw [hmem]
    constructor
    · rintro ⟨e, he, hs, hon⟩
      exact ⟨e.1, hs, slots, e.2, hsome, he, hon⟩
    · rintro ⟨key, hs, slots', v, heq, hin, hon⟩
      obtain rfl : slots = slots' := by
        rw [equitiesOf, hsome] at heq
        simpa using heq
      exact ⟨(key, v), hin, hs, hon⟩

/-- `project` on the chain it found. -/
lemma projectChain_isOk {c : UInt64} {chain : Table} :
    (∃ p, projectChain c n chain = .ok p) ↔ ∃ quote, ChainAccepted chain quote := by
  unfold projectChain
  split
  · next hnone =>
    simp only [reduceCtorEq, exists_false, false_iff]
    rintro ⟨quote, hacc⟩
    rw [bind_asStr_iff.mpr hacc.quote] at hnone
    cases hnone
  · next quote hquote =>
    rw [bind_asStr_iff] at hquote
    constructor
    · rintro ⟨p, h⟩
      obtain ⟨vs, hvs, h⟩ := except_bind_ok h
      obtain ⟨rows, rfl, hmem⟩ := projectEquities_rows hvs
      refine ⟨quote, hquote, projectEquities_isOk.mp ⟨_, hvs⟩, ?_⟩
      split at h
      · cases h
      · next hne =>
        cases rows with
        | nil => simp at hne
        | cons row rest =>
          obtain ⟨key, -, hlisted⟩ := (hmem row).mp (by simp)
          exact ⟨key, row.address, hlisted⟩
    · rintro ⟨quote', hacc⟩
      obtain ⟨vs, hvs⟩ := projectEquities_isOk (n := n) |>.mpr hacc.equities
      obtain ⟨rows, rfl, hmem⟩ := projectEquities_rows hvs
      obtain ⟨key, address, hlisted⟩ := hacc.nonempty
      have hin := (hmem ⟨address, "wt" ++ key⟩).mpr ⟨key, rfl, hlisted⟩
      have hne : rows ≠ [] := List.ne_nil_of_mem hin
      simp [hvs, hne, bind, Except.bind]

lemma projectChain_selected {c : UInt64} {chain : Table} {p : Projection}
    (hchain : Value.Distinct (.table chain)) (h : projectChain c n chain = .ok p) :
    ∃ quote, ChainAccepted chain quote ∧ Selected c chain quote p := by
  obtain ⟨quote, hacc⟩ := projectChain_isOk.mp ⟨p, h⟩
  refine ⟨quote, hacc, ?_⟩
  unfold projectChain at h
  rw [bind_asStr_iff.mpr hacc.quote] at h
  obtain ⟨vs, hvs, h⟩ := except_bind_ok h
  have hnodup := projectEquities_nodup hchain hvs
  obtain ⟨rows, rfl, hmem⟩ := projectEquities_rows hvs
  split at h
  · cases h
  obtain rfl := Except.ok.inj h
  refine ⟨rfl, rfl, rows.insertionSort (fun a b => rowSymbol a.toValue ≤ rowSymbol b.toValue),
    ?_, ?_, ?_⟩
  · exact (List.map_insertionSort (fun a b => rowSymbol a.toValue ≤ rowSymbol b.toValue)
      (fun a b => rowSymbol a ≤ rowSymbol b) TokenEntry.toValue rows
      fun _ _ _ _ => Iff.rfl).symm
  · have hperm := List.perm_insertionSort
      (fun a b : TokenEntry => rowSymbol a.toValue ≤ rowSymbol b.toValue) rows
    have hsorted := List.pairwise_insertionSort
      (fun a b : TokenEntry => rowSymbol a.toValue ≤ rowSymbol b.toValue) rows
    rw [List.map_map] at hnodup
    have hdistinct := (hperm.map (rowSymbol ∘ TokenEntry.toValue)).nodup_iff.mpr hnodup
    rw [List.Nodup, List.pairwise_map] at hdistinct
    rw [List.pairwise_map]
    refine (hsorted.and hdistinct).imp ?_
    rintro a b ⟨hle, hne⟩
    exact WithBot.coe_lt_coe.mp (lt_of_le_of_ne hle hne)
  · intro row
    rw [List.mem_insertionSort, hmem]

omit [Toml] in
lemma mem_matched {chains : Table} {c : UInt64} {e : String × Value} :
    e ∈ matched chains c ↔ e ∈ chains ∧ SaysChain c e.2 := by
  have hsays : (((e.2.get "chain_id").bind Value.asInteger).any
      fun id => u64TryFrom id.toInt = some c) = true ↔ SaysChain c e.2 := by
    simp only [SaysChain, Option.any_eq_true, decide_eq_true_eq, u64TryFrom_iff,
      Option.bind_eq_some_iff, asInteger_iff]
    constructor
    · rintro ⟨i, ⟨w, hw, rfl⟩, hi⟩
      exact ⟨i, hw, hi⟩
    · rintro ⟨i, hw, hi⟩
      exact ⟨i, ⟨_, hw, rfl⟩, hi⟩
  rw [matched, List.mem_filter, hsays]

omit [Toml] in
/-- The entries that say they are `c` are the single entry `e`. -/
lemma matched_eq_singleton {chains : Table} {c : UInt64} {e : String × Value}
    (hkeys : (chains.map Prod.fst).Nodup) :
    matched chains c = [e] ↔ ∀ e', (e' ∈ chains ∧ SaysChain c e'.2) ↔ e' = e := by
  have hnodup : (matched chains c).Nodup := (List.Nodup.of_map _ hkeys).filter _
  constructor
  · intro h e'
    rw [← mem_matched, h, List.mem_singleton]
  · intro h
    have hmem : ∀ e', e' ∈ matched chains c ↔ e' ∈ [e] := by
      intro e'
      rw [mem_matched, h, List.mem_singleton]
    exact List.perm_singleton.mp
      ((List.perm_ext_iff_of_nodup hnodup (List.nodup_singleton e)).mpr hmem)

omit [Toml] in
lemma says_table {c : UInt64} {v : Value} (h : SaysChain c v) : ∃ chain : Table, v = .table chain := by
  obtain ⟨i, hi, -⟩ := h
  obtain ⟨t, ht, -⟩ := Option.bind_eq_some_iff.mp hi
  exact ⟨t, asTable_iff.mp ht⟩

omit [Toml] in
lemma chains_nodup {f chains : Table} (hf : Value.Distinct (.table f))
    (h : f.get "chains" = some (.table chains)) : (chains.map Prod.fst).Nodup := by
  have hdistinct := hf.entry h
  cases hdistinct with
  | table _ hkeys _ => exact hkeys

/-- What is left of `project` once the file's only chain for `c` is known. -/
lemma project_only {f : Table} {c : UInt64} {name : String} {chain : Table}
    (hf : Value.Distinct (.table f)) (honly : OnlyChain f c name chain) :
    project f c = (checkSchemaVersion f).bind fun _ => projectChain c name chain := by
  obtain ⟨chains, hchains, heach⟩ := honly
  have hmatched := (matched_eq_singleton (chains_nodup hf hchains)).mpr heach
  have htable : table (f.get "chains") "chains" = .ok chains := table_iff.mpr hchains
  have hchain : table (some (.table chain)) s!"chains.{name}" = .ok chain := table_iff.mpr rfl
  simp only [project, htable, hmatched, projectMatched, hchain, bind, Except.bind]

/-- A file that `project` accepts has one chain for `c`. -/
lemma project_found {f : Table} {c : UInt64} {p : Projection} (hf : Value.Distinct (.table f))
    (h : project f c = .ok p) : ∃ name chain, OnlyChain f c name chain := by
  obtain ⟨_, _, h⟩ := except_bind_ok h
  obtain ⟨chains, hchains, h⟩ := except_bind_ok h
  rw [table_iff] at hchains
  unfold projectMatched at h
  split at h
  · cases h
  · next name v hmatched =>
    have hsays := mem_matched.mp (hmatched ▸ List.mem_singleton_self (name, v))
    obtain ⟨chain, rfl⟩ := says_table hsays.2
    exact ⟨name, chain, chains, hchains,
      (matched_eq_singleton (chains_nodup hf hchains)).mp hmatched⟩
  · cases h

lemma project_isOk {f : Table} {c : UInt64} (hf : Value.Distinct (.table f)) :
    (∃ p, project f c = .ok p) ↔ ∃ chain quote, Admitted f c chain quote := by
  constructor
  · rintro ⟨p, h⟩
    obtain ⟨name, chain, honly⟩ := project_found hf h
    rw [project_only hf honly] at h
    obtain ⟨_, hschema, h⟩ := except_bind_ok h
    obtain ⟨quote, hacc⟩ := projectChain_isOk.mp ⟨p, h⟩
    exact ⟨chain, quote, checkSchemaVersion_iff.mp hschema, ⟨name, honly⟩, hacc⟩
  · rintro ⟨chain, quote, hschema, ⟨name, honly⟩, hacc⟩
    rw [project_only hf honly, checkSchemaVersion_iff.mpr hschema]
    exact projectChain_isOk.mpr ⟨quote, hacc⟩

lemma project_selected {f : Table} {c : UInt64} {p : Projection} (hf : Value.Distinct (.table f))
    (h : project f c = .ok p) :
    ∃ chain quote, Admitted f c chain quote ∧ Selected c chain quote p := by
  obtain ⟨name, chain, honly⟩ := project_found hf h
  rw [project_only hf honly] at h
  obtain ⟨_, hschema, h⟩ := except_bind_ok h
  have hchain : Value.Distinct (.table chain) := by
    obtain ⟨chains, hchains, heach⟩ := honly
    have hdistinct := hf.entry hchains
    cases hdistinct with
    | table _ _ hall => exact hall _ ((heach (name, .table chain)).mpr rfl).1
  obtain ⟨quote, hacc, hsel⟩ := projectChain_selected hchain h
  exact ⟨chain, quote, ⟨checkSchemaVersion_iff.mp hschema, ⟨name, honly⟩, hacc⟩, hsel⟩

section Renamed
variable {m : String}

/-! The key a chain stands under is only in the texts of its errors. -/

lemma projectSlot_renamed {v : Value} {row : Option Value} (h : projectSlot n s v = .ok row) :
    projectSlot m s v = .ok row := by
  have hslot : ∀ slot, slotRow n s slot = .ok row → slotRow m s slot = .ok row := by
    intro slot h
    exact slotRow_iff.mpr (slotRow_iff.mp h)
  obtain ⟨slot, hv, hrow⟩ := projectSlot_iff.mp h
  exact projectSlot_iff.mpr ⟨slot, hv, hrow.imp_right fun hr => ⟨hr.1, hslot slot hr.2⟩⟩

lemma projectSlots_renamed {slots : Table} {vs : List Value} (h : projectSlots n slots = .ok vs) :
    projectSlots m slots = .ok vs := by
  induction slots generalizing vs with
  | nil => exact h
  | cons e rest ih =>
    obtain ⟨row, hrow, h⟩ := except_bind_ok h
    obtain ⟨others, hothers, h⟩ := except_bind_ok h
    have hrow' := projectSlot_renamed (m := m) hrow
    simp only [projectSlots, hrow', ih hothers]
    exact h

lemma projectEquities_renamed {chain : Table} {vs : List Value}
    (h : projectEquities n chain = .ok vs) : projectEquities m chain = .ok vs := by
  unfold projectEquities at h ⊢
  split at h
  · exact h
  · next w _ =>
    obtain ⟨slots, ht, h⟩ := except_bind_ok h
    have hslots : table (some w) s!"chains.{m}.assets.equities" = .ok slots :=
      table_iff.mpr (table_iff.mp ht)
    simp only [hslots]
    exact projectSlots_renamed h

lemma projectChain_renamed {c : UInt64} {chain : Table} {p : Projection}
    (h : projectChain c n chain = .ok p) : projectChain c m chain = .ok p := by
  unfold projectChain at h ⊢
  split at h
  · cases h
  · obtain ⟨vs, hvs, h⟩ := except_bind_ok h
    simp only [projectEquities_renamed (m := m) hvs]
    split at h
    · cases h
    · next hne =>
      simp only [bind, Except.bind, if_neg hne]
      exact h

end Renamed

/-- Two files with the same schema version and the same chain `c` project alike, whatever
their other chains hold; where the chain stands under the same key, errors included. -/
lemma project_local {f g : Table} {c : UInt64} {name name' : String} {chain : Table}
    (hf : Value.Distinct (.table f)) (hg : Value.Distinct (.table g))
    (hschema : f.get "schema_version" = g.get "schema_version")
    (hcf : OnlyChain f c name chain) (hcg : OnlyChain g c name' chain) :
    (∀ p, project f c = .ok p ↔ project g c = .ok p) ∧
      (name = name' → project f c = project g c) := by
  have hcheck : checkSchemaVersion f = checkSchemaVersion g := by
    unfold checkSchemaVersion
    rw [hschema]
  have hinto : ∀ {n m : String} {p}, ((checkSchemaVersion g).bind fun _ => projectChain c n chain) =
      .ok p → ((checkSchemaVersion g).bind fun _ => projectChain c m chain) = .ok p := by
    intro n m p h
    obtain ⟨u, hu, h⟩ := except_bind_ok h
    rw [hu]
    exact projectChain_renamed h
  rw [project_only hf hcf, project_only hg hcg, hcheck]
  constructor
  · intro p
    exact ⟨hinto, hinto⟩
  · rintro rfl
    rfl

/-- What `project` accepts, what it selects, and that no other chain can change either. -/
theorem project_selects_universe (f : Table) (c : UInt64) (hf : Value.Distinct (.table f)) :
    ((∃ p, project f c = .ok p) ↔ ∃ chain quote, Admitted f c chain quote) ∧
    (∀ p, project f c = .ok p →
      ∃ chain quote, Admitted f c chain quote ∧ Selected c chain quote p) ∧
    ∀ (g : Table) (name name' : String) (chain : Table), Value.Distinct (.table g) →
      f.get "schema_version" = g.get "schema_version" →
      OnlyChain f c name chain → OnlyChain g c name' chain →
        (∀ p, project f c = .ok p ↔ project g c = .ok p) ∧
          (name = name' → project f c = project g c) :=
  ⟨project_isOk hf, fun _ h => project_selected hf h,
    fun _ _ _ _ hg hschema hcf hcg => project_local hf hg hschema hcf hcg⟩

end TokenFile

namespace Sample

def baseChain : Table :=
  [("assets", .table [("equities", .table [("COIN", .table
    [("pricing", .string "enabled"), ("tokenized_equity_derivative", .string oldAddress),
      ("venues", .array [.string "raindex"])])])]),
    ("chain_id", .integer 8453), ("quote_token", .string usdcBase)]

/-- The sample file beside a chain that no rule accepts. -/
def crowdedTable : Table :=
  [("chains", .table [("arbitrum", .table [("assets", .table [("equities", .integer 7)]),
      ("chain_id", .integer 42161)]), ("base", .table baseChain)]),
    ("schema_version", .integer 1)]

theorem crowdedTable_distinct : Value.Distinct (.table crowdedTable) := by
  have hchains : (tokenTable oldAddress).get "chains" = some (.table [("base", .table baseChain)]) :=
    rfl
  have hbase := (tokenTable_distinct oldAddress).entry hchains
  have harbitrum : Value.Distinct (.table [("assets", .table [("equities", .integer 7)]),
      ("chain_id", .integer 42161)]) :=
    distinct_cons (by simp) (distinct_cons (by simp) (.integer _) distinct_nil)
      (distinct_cons (by simp) (.integer _) distinct_nil)
  exact distinct_cons (by simp) (distinct_cons (by simp) harbitrum hbase)
    (distinct_cons (by simp) (.integer _) distinct_nil)

theorem baseChain_only {f chains : Table} (hf : Value.Distinct (.table f))
    (hchains : f.get "chains" = some (.table chains))
    (hmatched : TokenFile.matched chains 8453 = [("base", .table baseChain)]) :
    OnlyChain f 8453 "base" baseChain :=
  ⟨chains, hchains, (TokenFile.matched_eq_singleton (TokenFile.chains_nodup hf hchains)).mp hmatched⟩

theorem crowded_projects : (∃ p, TokenFile.project crowdedTable 8453 = .ok p) ∧
    TokenFile.project crowdedTable 8453 = TokenFile.project (tokenTable oldAddress) 8453 := by
  have hother := tokenTable_distinct oldAddress
  obtain ⟨-, -, hlocal⟩ :=
    TokenFile.project_selects_universe crowdedTable 8453 crowdedTable_distinct
  refine ⟨⟨_, rfl⟩, (hlocal (tokenTable oldAddress) "base" "base" baseChain hother rfl ?_ ?_).2 rfl⟩
  · exact baseChain_only crowdedTable_distinct rfl rfl
  · exact baseChain_only hother rfl rfl

end Sample

end OracleServer
