import OracleServer.Lib.Ordered
import OracleServer.Lib.Result
import OracleServer.Registry
import OracleServer.Session

/-! `token_file.rs`: the token rows of one chain, taken from the bucket's TOML file and
merged into the static config. Parsing TOML and deserializing a table are the toml
crate's; errors carry the text of `format!("{e:#}")`. -/
namespace OracleServer

/-- A float is kept as its bits and a datetime as its text; no code here reads either. -/
inductive Value
  | string (s : String)
  | integer (i : Int64)
  | float (bits : UInt64)
  | boolean (b : Bool)
  | datetime (text : String)
  | array (items : List Value)
  | table (entries : List (String × Value))

/-- The entries in key order, as the crate's `BTreeMap` iterates them. -/
abbrev Table := List (String × Value)

namespace Table

def get (t : Table) (key : String) : Option Value := (t.find? fun e => e.1 = key).map Prod.snd

def containsKey (t : Table) (key : String) : Bool := (t.get key).isSome

def insert (t : Table) (key : String) (v : Value) : Table :=
  (t.filter fun e => e.1 ≠ key).orderedInsert (fun a b => a.1 ≤ b.1) (key, v)

theorem get_insert (t : Table) (key : String) (v : Value) :
    (t.insert key v).get key = some v := by
  have hfind : ∀ l : Table, (∀ e ∈ l, e.1 ≠ key) →
      (l.orderedInsert (fun a b => a.1 ≤ b.1) (key, v)).find? (fun e => e.1 = key) =
        some (key, v) := by
    intro l hl
    induction l with
    | nil => simp
    | cons e l ih =>
      by_cases hle : key ≤ e.1
      · simp [List.orderedInsert, hle]
      · have he : e.1 ≠ key := hl e (by simp)
        have hrest := ih fun e' he' => hl e' (by simp [he'])
        simp [List.orderedInsert, hle, he, hrest]
  unfold get insert
  rw [hfind _ (by simp)]
  rfl

theorem get_insert_ne (t : Table) {key k : String} (v : Value) (hk : k ≠ key) :
    (t.insert key v).get k = t.get k := by
  have hfind : ∀ l : Table, (l.orderedInsert (fun a b => a.1 ≤ b.1) (key, v)).find?
      (fun e => e.1 = k) = l.find? fun e => e.1 = k := by
    intro l
    induction l with
    | nil => simp [Ne.symm hk]
    | cons e l ih =>
      by_cases hle : key ≤ e.1
      · simp [List.orderedInsert, hle, Ne.symm hk]
      · simp only [List.orderedInsert, hle, if_false, List.find?_cons, ih]
  unfold get insert
  rw [hfind, List.find?_filter]
  congr 2
  funext e
  by_cases he : e.1 = k
  · simp [he, hk]
  · simp [he]

end Table

namespace Value

def asStr : Value → Option String
  | .string s => some s
  | _ => none

def asInteger : Value → Option Int64
  | .integer i => some i
  | _ => none

def asArray : Value → Option (List Value)
  | .array items => some items
  | _ => none

def asTable : Value → Option Table
  | .table t => some t
  | _ => none

/-- `Value::get` with a string index. -/
def get (v : Value) (key : String) : Option Value := v.asTable.bind (·.get key)

end Value

class Toml where
  /-- `Utf8Error` of bytes that are not UTF-8. -/
  utf8Error : ByteArray → String
  fromStr : String → Except String Table
  display : Value → String
  tryInto : Table → Except String Config

/-- The row type's `Deserialize`: two strings, other keys ignored. -/
def TokenEntry.ofValue (v : Value) : Option TokenEntry := do
  let address ← (← v.get "address").asStr
  let symbol ← (← v.get "symbol").asStr
  pure ⟨address, symbol⟩

/-- What a derived `Deserialize` reads: each field from its own key. -/
class LawfulSerde [Toml] : Prop where
  tokens : ∀ t rows c, Toml.tryInto t = .ok c → Table.get t "tokens" = some (.array rows) →
    rows.mapM TokenEntry.ofValue = some c.tokens
  statics : ∀ t v v' c c', Toml.tryInto (Table.insert t "tokens" v) = .ok c →
    Toml.tryInto (Table.insert t "tokens" v') = .ok c' →
    { c with tokens := [] } = { c' with tokens := [] }

/-- No table of the value, at any depth, holds a key twice. -/
inductive Value.Distinct : Value → Prop
  | string (s : String) : Distinct (.string s)
  | integer (i : Int64) : Distinct (.integer i)
  | float (bits : UInt64) : Distinct (.float bits)
  | boolean (b : Bool) : Distinct (.boolean b)
  | datetime (text : String) : Distinct (.datetime text)
  | array (items : List Value) (h : ∀ v ∈ items, Distinct v) : Distinct (.array items)
  | table (entries : Table) (hkeys : (entries.map Prod.fst).Nodup)
    (h : ∀ e ∈ entries, Distinct e.2) : Distinct (.table entries)

theorem Value.Distinct.entry {t : Table} (h : Value.Distinct (.table t)) {key : String} {v : Value}
    (hv : t.get key = some v) : v.Distinct := by
  obtain ⟨e, he, rfl⟩ := Option.map_eq_some_iff.mp hv
  cases h with
  | table _ _ hall => exact hall e (List.mem_of_find?_eq_some he)

theorem Value.Distinct.asTable {v : Value} (h : v.Distinct) {t : Table}
    (ht : v.asTable = some t) : Value.Distinct (.table t) := by
  cases v with
  | table entries =>
    obtain rfl := Option.some.inj ht
    exact h
  | _ => cases ht

/-- A TOML document defines a key once, and a table is a map. -/
class LawfulToml [Toml] : Prop where
  distinct : ∀ text t, Toml.fromStr text = .ok t → Value.Distinct (.table t)

/-- `str::eq_ignore_ascii_case`; `Char.toLower` moves ASCII letters only. -/
def eqIgnoreAsciiCase (a b : String) : Bool :=
  a.toList.map Char.toLower == b.toList.map Char.toLower

def tokenFileSchemaVersion : Int64 := 1

structure Projection where
  chainId : UInt64
  quoteToken : String
  tokens : List Value

structure Change where
  added : List Symbol
  removed : List Symbol
  readdressed : List Symbol
  quoteTokenChanged : Bool
  deriving DecidableEq

/-- `(symbol, lowercased address)` of one row. -/
def rowOf [Unicode] (t : Value) : Option (Lex (String × String)) := do
  let symbol ← (← t.get "symbol").asStr
  let address ← (← t.get "address").asStr
  pure (toLex (symbol, Unicode.toLowercase address))

namespace Projection
variable [Unicode]

def rows (p : Projection) : List (Lex (String × String)) := btreeSet (p.tokens.filterMap rowOf)

def sameAs (p other : Projection) : Bool :=
  p.rows == other.rows && eqIgnoreAsciiCase p.quoteToken other.quoteToken

end Projection

namespace TokenFile

def chainIdOf (config : Table) : Except String UInt64 :=
  match config.get "chain_id" with
  | none => .ok 8453
  | some v =>
    match v.asInteger.bind fun i => u64TryFrom i.toInt with
    | some id => .ok id
    | none => .error "chain_id must be a positive integer"

section Merge
variable [Unicode]

def merge (config : Table) (p : Projection) : Except String Table :=
  if config.containsKey "tokens" then
    .error "config reads its tokens from [registry] but also carries [[tokens]]; keep one source and delete the inline copy"
  else
    let declared := ((config.get "quote_token").bind Value.asStr).getD usdcBase
    if Unicode.toLowercase declared ≠ Unicode.toLowercase p.quoteToken then
      .error s!"token file says chain {p.chainId} settles in {p.quoteToken} but this config's quote_token is {declared}"
    else .ok (config.insert "tokens" (.array p.tokens))

theorem merge_ok {config merged : Table} {p : Projection} (h : merge config p = .ok merged) :
    merged = config.insert "tokens" (.array p.tokens) := by
  unfold merge at h
  split at h
  · cases h
  · dsimp only at h
    split at h
    · cases h
    · exact (Except.ok.inj h).symm

end Merge

variable [Toml]

def parse (bytes : ByteArray) : Except String Table :=
  match String.fromUTF8? bytes with
  | none => .error s!"token file is not UTF-8: {Toml.utf8Error bytes}"
  | some text =>
    match Toml.fromStr text with
    | .ok t => .ok t
    | .error e => .error s!"token file is not valid TOML: {e}"

def table (v : Option Value) (what : String) : Except String Table :=
  match v.bind Value.asTable with
  | some t => .ok t
  | none => .error s!"token file: {what} is missing or not a table"

/-- How a refused field is shown. -/
def shown (v : Option Value) : String :=
  match v with
  | none => "nothing"
  | some v => Toml.display v

/-- The row of an enabled slot, or nothing for one that is not on Raindex. -/
def slotRow (name sym : String) (slot : Table) : Except String (Option Value) :=
  match (slot.get "venues").bind Value.asArray with
  | none => .error s!"token file: {name} {sym} is priced but has no venues list"
  | some venues =>
    if venues.any fun v => v.asStr = some "raindex" then
      match (slot.get "tokenized_equity_derivative").bind Value.asStr with
      | none =>
        .error s!"token file: {name} {sym} is priced but has no tokenized_equity_derivative"
      | some address =>
        .ok (some (.table [("address", .string address), ("symbol", .string ("wt" ++ sym))]))
    else .ok none

def pricedRow (name sym : String) (slot : Table) : Except String (Option Value) :=
  match slot.get "pricing" with
  | some (.string "enabled") => slotRow name sym slot
  | some (.string "disabled") => .ok none
  | other =>
    .error s!"token file: {name} {sym} pricing must be \"enabled\" or \"disabled\", got {shown other}"

def projectSlot (name sym : String) (slot : Value) : Except String (Option Value) := do
  let slot ← table (some slot) s!"chains.{name}.assets.equities.{sym}"
  pricedRow name sym slot

def projectSlots (name : String) : Table → Except String (List Value)
  | [] => .ok []
  | (sym, slot) :: rest => do
    let row ← projectSlot name sym slot
    let rows ← projectSlots name rest
    pure (row.toList ++ rows)

/-- The key of `sort_by_key`. -/
def rowSymbol (t : Value) : WithBot String := (t.get "symbol").bind Value.asStr

/-- The rows of a chain's `assets.equities`; a chain without it has none. -/
def projectEquities (name : String) (chain : Table) : Except String (List Value) :=
  match (chain.get "assets").bind (·.get "equities") with
  | none => .ok []
  | some slots => do
    let slots ← table (some slots) s!"chains.{name}.assets.equities"
    projectSlots name slots

def projectChain (chainId : UInt64) (name : String) (chain : Table) : Except String Projection :=
  match (chain.get "quote_token").bind Value.asStr with
  | none => .error s!"token file: chains.{name}.quote_token missing"
  | some quoteToken => do
    let tokens ← projectEquities name chain
    if tokens.isEmpty then
      .error s!"token file: no slot on chain {name} is priced for raindex; refusing an empty universe"
    else
      .ok ⟨chainId, quoteToken, tokens.insertionSort fun a b => rowSymbol a ≤ rowSymbol b⟩

/-- The chains of the file that say they are `chainId`. -/
def matched (chains : Table) (chainId : UInt64) : Table :=
  chains.filter fun e => ((e.2.get "chain_id").bind Value.asInteger).any
    fun id => u64TryFrom id.toInt = some chainId

def projectMatched (chainId : UInt64) : Table → Except String Projection
  | [] => .error s!"token file has no chain with chain_id {chainId}"
  | [(name, chain)] => do
    let chain ← table (some chain) s!"chains.{name}"
    projectChain chainId name chain
  | _ => .error s!"token file has two chains with chain_id {chainId}"

def checkSchemaVersion (file : Table) : Except String Unit :=
  match file.get "schema_version" with
  | some (.integer v) =>
    if v = tokenFileSchemaVersion then .ok ()
    else .error s!"token file: schema_version must be {tokenFileSchemaVersion}, got {shown (some (.integer v))}"
  | other =>
    .error s!"token file: schema_version must be {tokenFileSchemaVersion}, got {shown other}"

def project (file : Table) (chainId : UInt64) : Except String Projection := do
  checkSchemaVersion file
  let chains ← table (file.get "chains") "chains"
  projectMatched chainId (matched chains chainId)

theorem project_sorted {file : Table} {chainId : UInt64} {p : Projection}
    (h : project file chainId = .ok p) :
    p.tokens.Pairwise fun a b => rowSymbol a ≤ rowSymbol b := by
  unfold project at h
  obtain ⟨_, _, h⟩ := except_bind_ok h
  obtain ⟨chains, _, h⟩ := except_bind_ok h
  unfold projectMatched at h
  split at h
  · cases h
  · next name chain _ =>
    obtain ⟨chain, _, h⟩ := except_bind_ok h
    unfold projectChain at h
    split at h
    · cases h
    · obtain ⟨tokens, _, h⟩ := except_bind_ok h
      split at h
      · cases h
      · obtain rfl := Except.ok.inj h
        exact List.pairwise_insertionSort _ _
  · cases h

omit [Toml] in
theorem table_ok {v : Option Value} {what : String} {t : Table} (h : table v what = .ok t) :
    ∃ w, v = some w ∧ w.asTable = some t := by
  unfold table at h
  split at h
  · next t' hbind =>
    obtain rfl := Except.ok.inj h
    exact Option.bind_eq_some_iff.mp hbind
  · cases h

/-- A row is named after the key of its slot. -/
theorem projectSlot_symbol {name sym : String} {slot v : Value}
    (h : projectSlot name sym slot = .ok (some v)) :
    rowSymbol v = (("wt" ++ sym : String) : WithBot String) := by
  unfold projectSlot at h
  obtain ⟨slot', -, h⟩ := except_bind_ok h
  unfold pricedRow at h
  split at h
  · unfold slotRow at h
    split at h
    · cases h
    · split at h
      · split at h
        · cases h
        · obtain rfl := Option.some.inj (Except.ok.inj h)
          rfl
      · cases Except.ok.inj h
  · cases Except.ok.inj h
  · cases h

theorem projectSlots_symbols {name : String} {slots : Table} {rows : List Value}
    (h : projectSlots name slots = .ok rows) : (rows.map rowSymbol).Sublist
      (slots.map fun e => (("wt" ++ e.1 : String) : WithBot String)) := by
  induction slots generalizing rows with
  | nil =>
    obtain rfl := Except.ok.inj h
    exact List.Sublist.slnil
  | cons slot slots ih =>
    obtain ⟨row, hrow, h⟩ := except_bind_ok h
    obtain ⟨others, hothers, h⟩ := except_bind_ok h
    obtain rfl := Except.ok.inj h
    cases row with
    | none => exact (ih hothers).cons _
    | some v =>
      rw [Option.toList_some, List.singleton_append, List.map_cons, List.map_cons,
        projectSlot_symbol hrow]
      exact (ih hothers).cons_cons _

theorem projectEquities_nodup {name : String} {chain : Table} {rows : List Value}
    (hchain : Value.Distinct (.table chain)) (h : projectEquities name chain = .ok rows) :
    (rows.map rowSymbol).Nodup := by
  unfold projectEquities at h
  split at h
  · obtain rfl := Except.ok.inj h
    exact List.nodup_nil
  · next slots hslots =>
    obtain ⟨t, ht, h⟩ := except_bind_ok h
    obtain ⟨w, hw, hslots'⟩ := table_ok ht
    obtain rfl := Option.some.inj hw
    obtain ⟨assets, hassets, hequities⟩ := Option.bind_eq_some_iff.mp hslots
    obtain ⟨entries, hentries, hget⟩ := Option.bind_eq_some_iff.mp hequities
    have hdistinct := (((hchain.entry hassets).asTable hentries).entry hget).asTable hslots'
    cases hdistinct with
    | table _ hkeys _ =>
      refine (projectSlots_symbols h).nodup ?_
      have hinj : Function.Injective fun e : String => (("wt" ++ e : String) : WithBot String) := by
        intro a b hab
        exact String.append_right_inj _ |>.mp (WithBot.coe_injective hab)
      have hmap := hkeys.map hinj
      rwa [List.map_map] at hmap

/-- The rows of a projection have distinct symbols. -/
theorem project_nodup {file : Table} {chainId : UInt64} {p : Projection}
    (hfile : Value.Distinct (.table file)) (h : project file chainId = .ok p) :
    (p.tokens.map rowSymbol).Nodup := by
  unfold project at h
  obtain ⟨_, _, h⟩ := except_bind_ok h
  obtain ⟨chains, hchains, h⟩ := except_bind_ok h
  obtain ⟨w, hw, hchains⟩ := table_ok hchains
  have hdistinct := (hfile.entry hw).asTable hchains
  unfold projectMatched at h
  split at h
  · cases h
  · next name chain hmatched =>
    obtain ⟨t, ht, h⟩ := except_bind_ok h
    have hmem : (name, chain) ∈ chains := by
      have : (name, chain) ∈ matched chains chainId := by
        rw [hmatched]
        exact List.mem_singleton_self _
      exact List.mem_of_mem_filter this
    obtain ⟨w', hw', ht⟩ := table_ok ht
    obtain rfl := Option.some.inj hw'
    have hchain : Value.Distinct (.table t) := by
      cases hdistinct with
      | table _ _ hall => exact (hall _ hmem).asTable ht
    unfold projectChain at h
    split at h
    · cases h
    · obtain ⟨tokens, htokens, h⟩ := except_bind_ok h
      split at h
      · cases h
      · obtain rfl := Except.ok.inj h
        have hperm := (List.perm_insertionSort (fun a b => rowSymbol a ≤ rowSymbol b) tokens).map
          rowSymbol
        exact hperm.nodup_iff.mpr (projectEquities_nodup hchain htokens)
  · cases h

variable [Alloy]

/-- `Config::from_table`. -/
def configFromTable (t : Table) : Except String Config :=
  if t.containsKey "registry" && !t.containsKey "tokens" then
    .error "config reads its tokens from [registry], which have not been merged in; load it through token_file::boot (or pass --registry-file to validate)"
  else
    match Toml.tryInto t with
    | .error e => .error s!"Failed to parse config: {e}"
    | .ok cfg => do
      cfg.validate
      pure cfg

theorem configFromTable_ok {t : Table} {c : Config} (h : configFromTable t = .ok c) :
    Toml.tryInto t = .ok c ∧ c.validate = .ok () := by
  unfold configFromTable at h
  split at h
  · cases h
  · split at h
    · cases h
    · next cfg hcfg =>
      obtain ⟨_, hvalid, h⟩ := except_bind_ok h
      obtain rfl := Except.ok.inj h
      exact ⟨hcfg, hvalid⟩

variable [Unicode]

/-- What boot and the reload loop both run a copy through. -/
def candidate (staticConfig : Table) (bytes : ByteArray) :
    Except String (Projection × Config × TokenRegistry) := do
  let file ← parse bytes
  let chainId ← chainIdOf staticConfig
  let projection ← project file chainId
  let merged ← merge staticConfig projection
  let config ← configFromTable merged
  let registry ← TokenRegistry.fromConfig config.tokens config.quoteToken
  pure (projection, config, registry)

def change (live fresh : Projection) : Change :=
  let a := live.rows
  let b := fresh.rows
  let sa := btreeSet (a.map fun r => (ofLex r).1)
  let sb := btreeSet (b.map fun r => (ofLex r).1)
  { added := sb.filter fun s => s ∉ sa
    removed := sa.filter fun s => s ∉ sb
    readdressed := (sa.filter fun s => s ∈ sb).filter fun s =>
      a.find? (fun r => (ofLex r).1 = s) ≠ b.find? (fun r => (ofLex r).1 = s)
    quoteTokenChanged := !eqIgnoreAsciiCase live.quoteToken fresh.quoteToken }

/-- What an accepted copy went through. -/
theorem candidate_ok {static : Table} {bytes : ByteArray} {p : Projection} {c : Config}
    {r : TokenRegistry} (h : candidate static bytes = .ok (p, c, r)) :
    c.validate = .ok () ∧ TokenRegistry.fromConfig c.tokens c.quoteToken = .ok r ∧
      Toml.tryInto (static.insert "tokens" (.array p.tokens)) = .ok c ∧
      p.tokens.Pairwise fun a b => rowSymbol a ≤ rowSymbol b := by
  unfold candidate at h
  obtain ⟨file, _, h⟩ := except_bind_ok h
  obtain ⟨id, _, h⟩ := except_bind_ok h
  obtain ⟨q, hproject, h⟩ := except_bind_ok h
  obtain ⟨merged, hmerge, h⟩ := except_bind_ok h
  obtain ⟨config, hconfig, h⟩ := except_bind_ok h
  obtain ⟨registry, hregistry, h⟩ := except_bind_ok h
  obtain ⟨rfl, rfl, rfl⟩ : q = p ∧ config = c ∧ registry = r := by simpa using Except.ok.inj h
  obtain ⟨hparsed, hvalid⟩ := configFromTable_ok hconfig
  rw [merge_ok hmerge] at hparsed
  exact ⟨hvalid, hregistry, hparsed, project_sorted hproject⟩

theorem candidate_project [LawfulToml] {static : Table} {bytes : ByteArray} {p : Projection}
    {c : Config} {r : TokenRegistry} (h : candidate static bytes = .ok (p, c, r)) :
    ∃ (file : Table) (chainId : UInt64), Value.Distinct (.table file) ∧
      chainIdOf static = .ok chainId ∧ project file chainId = .ok p := by
  unfold candidate at h
  obtain ⟨file, hfile, h⟩ := except_bind_ok h
  obtain ⟨id, hid, h⟩ := except_bind_ok h
  obtain ⟨q, hproject, h⟩ := except_bind_ok h
  obtain ⟨merged, _, h⟩ := except_bind_ok h
  obtain ⟨config, _, h⟩ := except_bind_ok h
  obtain ⟨registry, _, h⟩ := except_bind_ok h
  obtain ⟨rfl, -, -⟩ : q = p ∧ config = c ∧ registry = r := by simpa using Except.ok.inj h
  refine ⟨file, id, ?_, hid, hproject⟩
  unfold parse at hfile
  split at hfile
  · cases hfile
  · split at hfile
    · next t ht =>
      obtain rfl := Except.ok.inj hfile
      exact LawfulToml.distinct _ _ ht
    · cases hfile

theorem candidate_nodup [LawfulToml] {static : Table} {bytes : ByteArray} {p : Projection}
    {c : Config} {r : TokenRegistry} (h : candidate static bytes = .ok (p, c, r)) :
    (p.tokens.map rowSymbol).Nodup := by
  obtain ⟨file, id, hfile, -, hproject⟩ := candidate_project h
  exact project_nodup hfile hproject

end TokenFile

section Rows
variable [Unicode]

theorem ofValue_row {v : Value} {t : TokenEntry} (h : TokenEntry.ofValue v = some t) :
    TokenFile.rowSymbol v = some t.symbol ∧
      rowOf v = some (toLex (t.symbol, Unicode.toLowercase t.address)) := by
  simp only [TokenEntry.ofValue, Option.bind_eq_bind, Option.bind_eq_some_iff, Option.pure_def,
    Option.some.injEq] at h
  obtain ⟨va, hva, address, haddress, vs, hvs, symbol, hsymbol, rfl⟩ := h
  refine ⟨?_, by simp [rowOf, hva, haddress, hvs, hsymbol]⟩
  rw [TokenFile.rowSymbol, hvs, Option.bind_some, hsymbol]

/-- The rows of a projection are the rows of the config it was merged into. -/
theorem filterMap_rowOf {vs : List Value} {ts : List TokenEntry}
    (h : vs.mapM TokenEntry.ofValue = some ts) :
    vs.filterMap rowOf = ts.map fun t => toLex (t.symbol, Unicode.toLowercase t.address) := by
  induction vs generalizing ts with
  | nil =>
    obtain rfl : [] = ts := by simpa using h
    rfl
  | cons v vs ih =>
    simp only [List.mapM_cons, Option.bind_eq_bind, Option.bind_eq_some_iff, Option.pure_def,
      Option.some.injEq] at h
    obtain ⟨t, ht, ts', hts, rfl⟩ := h
    rw [List.filterMap_cons, (ofValue_row ht).2, List.map_cons, ih hts]

theorem rowSymbols_eq {vs : List Value} {ts : List TokenEntry}
    (h : vs.mapM TokenEntry.ofValue = some ts) :
    vs.map TokenFile.rowSymbol = ts.map fun t => (t.symbol : WithBot String) := by
  induction vs generalizing ts with
  | nil =>
    obtain rfl : [] = ts := by simpa using h
    rfl
  | cons v vs ih =>
    simp only [List.mapM_cons, Option.bind_eq_bind, Option.bind_eq_some_iff, Option.pure_def,
      Option.some.injEq] at h
    obtain ⟨t, ht, ts', hts, rfl⟩ := h
    rw [List.map_cons, (ofValue_row ht).1, List.map_cons, ih hts]
    rfl

theorem symbols_sorted {vs : List Value} {ts : List TokenEntry}
    (h : vs.mapM TokenEntry.ofValue = some ts)
    (hs : vs.Pairwise fun a b => TokenFile.rowSymbol a ≤ TokenFile.rowSymbol b) :
    (ts.map TokenEntry.symbol).Pairwise (· ≤ ·) := by
  have hpair : (vs.map TokenFile.rowSymbol).Pairwise (· ≤ ·) := List.pairwise_map.mpr hs
  rw [rowSymbols_eq h, List.pairwise_map] at hpair
  rw [List.pairwise_map]
  exact hpair.imp fun hab => WithBot.coe_le_coe.mp hab

theorem symbols_nodup {vs : List Value} {ts : List TokenEntry}
    (h : vs.mapM TokenEntry.ofValue = some ts) (hs : (vs.map TokenFile.rowSymbol).Nodup) :
    (ts.map TokenEntry.symbol).Nodup := by
  rw [rowSymbols_eq h] at hs
  refine List.Nodup.of_map (fun s : String => (s : WithBot String)) ?_
  rwa [List.map_map]

end Rows

/-- `Display for Change`: one line for the log. -/
def Change.describe (c : Change) : String :=
  let part (label : String) (l : List Symbol) : List String :=
    let joined := ",".intercalate l
    if l.isEmpty then [] else [s!"{label} [{joined}]"]
  let parts := part "added" c.added ++ part "removed" c.removed ++
    part "address changed" c.readdressed ++
    if c.quoteTokenChanged then ["quote token changed"] else []
  if parts.isEmpty then "no difference" else "; ".intercalate parts

/-! Two copies of a token file that price one slot on Base, at different addresses, and a
deserializer that reads the fields a copy may set. -/
namespace Sample

def tokenFile (address : String) : String :=
  "schema_version = 1\n[chains.base]\nchain_id = 8453\nquote_token = \"" ++ usdcBase ++
    "\"\n[chains.base.assets.equities.COIN]\npricing = \"enabled\"\nvenues = [\"raindex\"]\n" ++
    "tokenized_equity_derivative = \"" ++ address ++ "\"\n"

def tokenTable (address : String) : Table :=
  [("chains", .table [("base", .table
    [("assets", .table [("equities", .table [("COIN", .table
      [("pricing", .string "enabled"), ("tokenized_equity_derivative", .string address),
        ("venues", .array [.string "raindex"])])])]),
      ("chain_id", .integer 8453), ("quote_token", .string usdcBase)])]),
    ("schema_version", .integer 1)]

def oldAddress : String := "0x1111111111111111111111111111111111111111"
def newAddress : String := "0x2222222222222222222222222222222222222222"

def rowsOf : Option Value → Except String (List TokenEntry)
  | none => .ok []
  | some (.array rows) =>
    match rows.mapM TokenEntry.ofValue with
    | some tokens => .ok tokens
    | none => .error "missing field"
  | some _ => .error "invalid type"

def pricingOf (v : Option Value) : Except String PricingConfig :=
  match v.bind (·.get "ws_url"), v.bind (·.get "consumer") with
  | some (.string wsUrl), some (.string consumer) => .ok ⟨wsUrl, consumer⟩
  | _, _ => .error "missing field"

scoped instance toml : Toml where
  utf8Error _ := "invalid utf-8 sequence"
  fromStr text :=
    if text = tokenFile oldAddress then .ok (tokenTable oldAddress)
    else if text = tokenFile newAddress then .ok (tokenTable newAddress)
    else if text = "" then .ok []
    else .error "expected key"
  display _ := "value"
  tryInto t := do
    let tokens ← rowsOf (t.get "tokens")
    let pricing ← pricingOf (t.get "pricing")
    pure ⟨3000, 8453, usdcBase, tokens, none, pricing, ⟨10⟩⟩

scoped instance lawfulSerde : LawfulSerde where
  tokens t rows c h hrows := by
    obtain ⟨tokens, htokens, h⟩ := except_bind_ok h
    obtain ⟨pricing, -, h⟩ := except_bind_ok h
    obtain rfl := Except.ok.inj h
    rw [hrows] at htokens
    simp only [rowsOf] at htokens
    split at htokens
    · next tokens' ht =>
      obtain rfl := Except.ok.inj htokens
      exact ht
    · cases htokens
  statics t v v' c c' h h' := by
    obtain ⟨tokens, -, h⟩ := except_bind_ok h
    obtain ⟨pricing, hpricing, h⟩ := except_bind_ok h
    obtain rfl := Except.ok.inj h
    obtain ⟨tokens', -, h'⟩ := except_bind_ok h'
    obtain ⟨pricing', hpricing', h'⟩ := except_bind_ok h'
    obtain rfl := Except.ok.inj h'
    rw [Table.get_insert_ne _ _ (by decide)] at hpricing hpricing'
    rw [hpricing] at hpricing'
    obtain rfl := Except.ok.inj hpricing'
    rfl

theorem distinct_cons {entries : Table} {key : String} {v : Value}
    (hkey : key ∉ entries.map Prod.fst) (hv : v.Distinct) (h : Value.Distinct (.table entries)) :
    Value.Distinct (.table ((key, v) :: entries)) := by
  cases h with
  | table _ hkeys hall =>
    exact .table _ (List.nodup_cons.mpr ⟨hkey, hkeys⟩) (List.forall_mem_cons.mpr ⟨hv, hall⟩)

theorem distinct_nil : Value.Distinct (.table []) := .table [] List.nodup_nil (by simp)

theorem tokenTable_distinct (address : String) : Value.Distinct (.table (tokenTable address)) := by
  have hslot : Value.Distinct (.table [("pricing", .string "enabled"),
      ("tokenized_equity_derivative", .string address),
      ("venues", .array [.string "raindex"])]) := by
    refine distinct_cons (by simp) (.string _) (distinct_cons (by simp) (.string _)
      (distinct_cons (by simp) (.array _ ?_) distinct_nil))
    simpa using Value.Distinct.string "raindex"
  have hequities : Value.Distinct (.table [("equities", .table [("COIN", .table
      [("pricing", .string "enabled"), ("tokenized_equity_derivative", .string address),
        ("venues", .array [.string "raindex"])])])]) :=
    distinct_cons (by simp) (distinct_cons (by simp) hslot distinct_nil) distinct_nil
  have hchain : Value.Distinct (.table [("assets", .table [("equities", .table [("COIN", .table
      [("pricing", .string "enabled"), ("tokenized_equity_derivative", .string address),
        ("venues", .array [.string "raindex"])])])]), ("chain_id", .integer 8453),
      ("quote_token", .string usdcBase)]) :=
    distinct_cons (by simp) hequities (distinct_cons (by simp) (.integer _)
      (distinct_cons (by simp) (.string _) distinct_nil))
  exact distinct_cons (by simp) (distinct_cons (by simp) hchain distinct_nil)
    (distinct_cons (by simp) (.integer _) distinct_nil)

scoped instance lawfulToml : LawfulToml where
  distinct text t h := by
    change (if text = tokenFile oldAddress then Except.ok (tokenTable oldAddress)
      else if text = tokenFile newAddress then .ok (tokenTable newAddress)
      else if text = "" then .ok []
      else .error "expected key") = Except.ok t at h
    split at h
    · obtain rfl := Except.ok.inj h
      exact tokenTable_distinct _
    · split at h
      · obtain rfl := Except.ok.inj h
        exact tokenTable_distinct _
      · split at h
        · obtain rfl := Except.ok.inj h
          exact distinct_nil
        · cases h

end Sample

end OracleServer
