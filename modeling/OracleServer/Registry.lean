import OracleServer.Lib.AssocMap
import OracleServer.Lib.BigEndian
import OracleServer.Lib.Result
import OracleServer.Wire

/-! `config.rs` and `registry.rs`: the validated configuration and the map from token
addresses to pricing symbols. Parsing and printing an address is alloy's. -/
namespace OracleServer

class Alloy where
  fromStr : String → Except String Address
  display : Address → String

/-- Unicode `str::to_lowercase`. -/
class Unicode where
  toLowercase : String → String

/-- Two spellings of an address that differ only in case name one address. -/
class LawfulAlloy [Alloy] [Unicode] : Prop where
  case_insensitive : ∀ s t a b, Alloy.fromStr s = .ok a → Alloy.fromStr t = .ok b →
    Unicode.toLowercase s = Unicode.toLowercase t → a = b

structure TokenEntry where
  address : String
  symbol : String
  deriving DecidableEq

structure RegistrySource where
  url : String
  refreshSecs : UInt64
  deriving DecidableEq

structure PricingConfig where
  wsUrl : String
  consumer : String
  deriving DecidableEq

structure SigningConfig where
  reuseMinRemainingSecs : UInt64
  deriving DecidableEq

structure Config where
  port : UInt16
  chainId : UInt64
  quoteToken : String
  tokens : List TokenEntry
  registry : Option RegistrySource
  pricing : PricingConfig
  signing : SigningConfig
  deriving DecidableEq

/-- USDC on Base, the quote token of a config that names none. -/
def usdcBase : String := "0x833589fCD6eDb6E08f4c7C32D4f71b54bdA02913"

/-- The bottom 2^16 addresses. -/
def isPlaceholderAddress (addr : Address) : Bool := (addr.toList.take 18).all (· == 0)

/-- `char::is_whitespace`: the Unicode `White_Space` property. -/
def isWhitespace (c : Char) : Bool :=
  let n := c.toNat
  (9 ≤ n && n ≤ 13) || n = 32 || n = 0x85 || n = 0xA0 || n = 0x1680 ||
    (0x2000 ≤ n && n ≤ 0x200A) || n = 0x2028 || n = 0x2029 || n = 0x202F || n = 0x205F ||
    n = 0x3000

/-- `s.trim().is_empty()`. -/
def isBlank (s : String) : Bool := s.toList.all isWhitespace

namespace Config
variable [Alloy]

/-- The loop of `validate_inner` over the token rows; `seen` are the addresses so far. -/
def validateTokens (quote : Address) : List Address → List TokenEntry → Except String Unit
  | _, [] => .ok ()
  | seen, t :: rest =>
    match Alloy.fromStr t.address with
    | .error e => .error s!"Invalid token address {t.address.quote}: {e}"
    | .ok addr =>
      if isBlank t.symbol then .error s!"Empty symbol for token {t.address}"
      else if isPlaceholderAddress addr then
        .error s!"Placeholder address {t.address} for {t.symbol} — replace it with the token's deployed address before releasing this config"
      else if addr = quote then
        .error s!"Token {t.address} ({t.symbol}) is the quote token — the quote side is implicit and must not be listed as a tStock"
      else if addr ∈ seen then
        .error s!"Duplicate token address {t.address} in config.toml — each address must appear at most once"
      else validateTokens quote (addr :: seen) rest

/-- The checks on the settlement token, which name it when they pass. -/
def validateQuote (c : Config) : Except String Address :=
  match Alloy.fromStr c.quoteToken with
  | .error e => .error s!"Invalid quote_token {c.quoteToken.quote}: {e}"
  | .ok quote =>
    if isPlaceholderAddress quote then
      .error s!"Placeholder quote_token {c.quoteToken} — fill in the chain's settlement stable before releasing this config"
    else .ok quote

def validatePricing (c : Config) : Except String Unit :=
  if isBlank c.pricing.wsUrl then .error "pricing.ws_url must be set"
  else if isBlank c.pricing.consumer then .error "pricing.consumer must be set"
  else .ok ()

def validateInner (c : Config) (requireTokens : Bool) : Except String Unit :=
  if requireTokens && c.tokens.isEmpty then .error "config.toml has no [[tokens]] entries"
  else do
    let quote ← c.validateQuote
    validateTokens quote [] c.tokens
    c.validatePricing

def validate (c : Config) : Except String Unit := c.validateInner true

def symbols (c : Config) : List Symbol := c.tokens.map TokenEntry.symbol

end Config

structure TokenRegistry where
  tokens : Map Address Symbol
  quoteToken : Address

inductive PriceDirection
  | quoteToBase
  | baseToQuote
  deriving DecidableEq, Repr

def PriceDirection.asStr : PriceDirection → String
  | .quoteToBase => "quote_to_base"
  | .baseToQuote => "base_to_quote"

structure ResolvedPair where
  symbol : Symbol
  token : Address
  direction : PriceDirection
  deriving DecidableEq

namespace TokenRegistry
variable [Alloy]

/-- The loop of `TokenRegistry::new`: a later row overwrites an earlier one. -/
def insertAll : Map Address Symbol → List (String × String) → Except String (Map Address Symbol)
  | m, [] => .ok m
  | m, (addrStr, symbol) :: rest =>
    match Alloy.fromStr addrStr with
    | .error e => .error s!"Invalid token address '{addrStr}': {e}"
    | .ok addr => insertAll (m.insert addr symbol) rest

def new (entries : List (String × String)) (quoteToken : String) :
    Except String TokenRegistry := do
  let quote ← (Alloy.fromStr quoteToken).mapError fun e => s!"Invalid quote token address: {e}"
  let tokens ← insertAll ∅ entries
  pure ⟨tokens, quote⟩

def fromConfig (entries : List TokenEntry) (quoteToken : String) : Except String TokenRegistry :=
  new (entries.map fun t => (t.address, t.symbol)) quoteToken

def resolve (r : TokenRegistry) (inputToken outputToken : Address) :
    Except String ResolvedPair :=
  if inputToken = r.quoteToken then
    match r.tokens.lookup outputToken with
    | some symbol => .ok ⟨symbol, outputToken, .quoteToBase⟩
    | none => .error s!"Unknown tStock token: {Alloy.display outputToken} (not in registry)"
  else if outputToken = r.quoteToken then
    match r.tokens.lookup inputToken with
    | some symbol => .ok ⟨symbol, inputToken, .baseToQuote⟩
    | none => .error s!"Unknown tStock token: {Alloy.display inputToken} (not in registry)"
  else .error s!"Neither token is the quote token ({Alloy.display r.quoteToken}). Got input={Alloy.display inputToken}, output={Alloy.display outputToken}"

theorem resolve_ok {r : TokenRegistry} {x y : Address} {pair : ResolvedPair}
    (h : r.resolve x y = .ok pair) :
    r.tokens.lookup pair.token = some pair.symbol ∧
      ((x = r.quoteToken ∧ y = pair.token ∧ pair.direction = .quoteToBase) ∨
        (x ≠ r.quoteToken ∧ y = r.quoteToken ∧ x = pair.token ∧
          pair.direction = .baseToQuote)) := by
  unfold resolve at h
  split at h
  · next hx =>
    split at h
    · next symbol hs =>
      obtain rfl := Except.ok.inj h
      exact ⟨hs, .inl ⟨hx, rfl, rfl⟩⟩
    · cases h
  · next hx =>
    split at h
    · next hy =>
      split at h
      · next symbol hs =>
        obtain rfl := Except.ok.inj h
        exact ⟨hs, .inr ⟨hx, hy, rfl, rfl⟩⟩
      · cases h
    · cases h

/-- Resolution reads the map only through its lookups. -/
theorem resolve_congr {r r' : TokenRegistry} (hq : r.quoteToken = r'.quoteToken)
    (ht : ∀ a, r.tokens.lookup a = r'.tokens.lookup a) (x y : Address) :
    r.resolve x y = r'.resolve x y := by
  simp only [resolve, hq, ht]

end TokenRegistry

section Validated
variable [Alloy]

theorem validateTokens_ok {quote : Address} {seen : List Address} {rows : List TokenEntry}
    (h : Config.validateTokens quote seen rows = .ok ()) :
    ∃ addrs : List Address, rows.map (fun t => Alloy.fromStr t.address) = addrs.map .ok ∧
      addrs.Nodup ∧ quote ∉ addrs ∧ (∀ a ∈ addrs, a ∉ seen ∧ isPlaceholderAddress a = false) ∧
      ∀ t ∈ rows, isBlank t.symbol = false := by
  induction rows generalizing seen with
  | nil => exact ⟨[], rfl, List.nodup_nil, by simp, by simp, by simp⟩
  | cons t rest ih =>
    unfold Config.validateTokens at h
    split at h
    · cases h
    next addr haddr =>
    split at h
    · cases h
    next hblank =>
    split at h
    · cases h
    next hplace =>
    split at h
    · cases h
    next hquote =>
    split at h
    · cases h
    next hseen =>
    obtain ⟨addrs, hmap, hnodup, hnot, hall, hsym⟩ := ih h
    refine ⟨addr :: addrs, by simp [haddr, hmap], ?_, ?_, ?_, ?_⟩
    · refine List.nodup_cons.mpr ⟨fun hin => ?_, hnodup⟩
      exact (hall addr hin).1 (by simp)
    · simp [hnot, Ne.symm hquote]
    · intro a ha
      rcases List.mem_cons.mp ha with rfl | ha
      · exact ⟨hseen, by simpa using hplace⟩
      · exact ⟨fun hs => (hall a ha).1 (by simp [hs]), (hall a ha).2⟩
    · intro t' ht'
      rcases List.mem_cons.mp ht' with rfl | ht'
      · simpa using hblank
      · exact hsym t' ht'

theorem validate_ok {c : Config} (h : c.validate = .ok ()) :
    c.tokens ≠ [] ∧ ∃ quote, Alloy.fromStr c.quoteToken = .ok quote ∧
      isPlaceholderAddress quote = false ∧ Config.validateTokens quote [] c.tokens = .ok () := by
  unfold Config.validate Config.validateInner at h
  split at h
  · cases h
  next hsome =>
  obtain ⟨quote, hq, h⟩ := except_bind_ok h
  obtain ⟨_, hv, _⟩ := except_bind_ok h
  unfold Config.validateQuote at hq
  split at hq
  · cases hq
  next quote' hparse =>
  split at hq
  · cases hq
  next hplace =>
  obtain rfl := Except.ok.inj hq
  exact ⟨fun hnil => hsome (by simp [hnil]), quote', hparse, by simpa using hplace, hv⟩

/-- Inserting rows with pairwise different addresses loses none of them. -/
theorem insertAll_lookup {m m' : Map Address Symbol} {rows : List (String × String)}
    {addrs : List Address} (hmap : rows.map (fun t => Alloy.fromStr t.1) = addrs.map .ok)
    (hnodup : addrs.Nodup) (h : TokenRegistry.insertAll m rows = .ok m') (a : Address) :
    m'.lookup a =
      match ((addrs.zip (rows.map Prod.snd)).lookup a) with
      | some symbol => some symbol
      | none => m.lookup a := by
  induction rows generalizing m addrs with
  | nil =>
    obtain rfl := Except.ok.inj h
    cases addrs with
    | nil => rfl
    | cons b bs => simp at hmap
  | cons t rest ih =>
    obtain ⟨addrStr, symbol⟩ := t
    cases addrs with
    | nil => simp at hmap
    | cons b bs =>
      obtain ⟨hb, hrest⟩ := List.cons.inj hmap
      simp only [TokenRegistry.insertAll, hb] at h
      obtain ⟨hbnot, hnodup'⟩ := List.nodup_cons.mp hnodup
      rw [ih hrest hnodup' h]
      simp only [List.map_cons, List.zip_cons_cons, List.lookup_cons]
      by_cases hab : a = b
      · subst hab
        have hnone : (bs.zip (rest.map Prod.snd)).lookup a = none := by
          rw [List.lookup_eq_none_iff]
          intro p hp
          have : p.1 ∈ bs := (List.of_mem_zip hp).1
          rw [bne_iff_ne]
          rintro rfl
          exact hbnot this
        simp [hnone]
      · have hbeq : (a == b) = false := by simpa using hab
        simp [hbeq, hab]

/-- A row of an accepted config is a pair of its registry, and there are no other pairs. -/
theorem fromConfig_lookup {c : Config} {r : TokenRegistry} (hv : c.validate = .ok ())
    (h : TokenRegistry.fromConfig c.tokens c.quoteToken = .ok r) (a : Address) (s : Symbol) :
    r.tokens.lookup a = some s ↔
      ∃ t ∈ c.tokens, Alloy.fromStr t.address = .ok a ∧ t.symbol = s := by
  obtain ⟨-, quote, -, -, hvt⟩ := validate_ok hv
  obtain ⟨addrs, hmap, hnodup, -, -, -⟩ := validateTokens_ok hvt
  unfold TokenRegistry.fromConfig TokenRegistry.new at h
  obtain ⟨q, -, h⟩ := except_bind_ok h
  obtain ⟨m, hm, h⟩ := except_bind_ok h
  obtain rfl := Except.ok.inj h
  have hrows : (c.tokens.map fun t => (t.address, t.symbol)).map (fun t => Alloy.fromStr t.1) =
      addrs.map .ok := by
    rw [← hmap]
    simp
  rw [insertAll_lookup hrows hnodup hm]
  have hsnd : (c.tokens.map fun t => (t.address, t.symbol)).map Prod.snd =
      c.tokens.map TokenEntry.symbol := by simp
  rw [hsnd]
  clear hm hrows hsnd h hv hvt
  generalize c.tokens = rows at hmap ⊢
  induction rows generalizing addrs with
  | nil =>
    cases addrs with
    | nil => simp
    | cons b bs => simp at hmap
  | cons t rest ih =>
    cases addrs with
    | nil => simp at hmap
    | cons b bs =>
      obtain ⟨hb, hrest⟩ := List.cons.inj hmap
      obtain ⟨hbnot, hnodup'⟩ := List.nodup_cons.mp hnodup
      have ih' := ih bs hnodup' hrest
      simp only [List.map_cons, List.zip_cons_cons, List.lookup_cons]
      by_cases hab : a = b
      · subst hab
        simp only [beq_self_eq_true, Option.some.injEq, List.mem_cons]
        constructor
        · rintro rfl
          exact ⟨t, .inl rfl, hb, rfl⟩
        · rintro ⟨t', rfl | ht', ha, rfl⟩
          · rfl
          · have hin : Except.ok a ∈ bs.map (Except.ok (ε := String)) := by
              rw [← hrest]
              exact List.mem_map.mpr ⟨t', ht', ha⟩
            obtain ⟨b', hb', heq⟩ := List.mem_map.mp hin
            rw [Except.ok.inj heq] at hb'
            exact absurd hb' hbnot
      · have hbeq : (a == b) = false := by simpa using hab
        simp only [hbeq, ih']
        constructor
        · rintro ⟨t', ht', ha, hs⟩
          exact ⟨t', by simp [ht'], ha, hs⟩
        · rintro ⟨t', ht', ha, hs⟩
          rcases List.mem_cons.mp ht' with rfl | ht'
          · have hba : Except.ok b = Except.ok (ε := String) a := hb.symm.trans ha
            exact absurd (Except.ok.inj hba).symm hab
          · exact ⟨t', ht', ha, hs⟩

theorem fromConfig_quote {c : Config} {r : TokenRegistry}
    (h : TokenRegistry.fromConfig c.tokens c.quoteToken = .ok r) :
    Alloy.fromStr c.quoteToken = .ok r.quoteToken := by
  unfold TokenRegistry.fromConfig TokenRegistry.new at h
  obtain ⟨q, hq, h⟩ := except_bind_ok h
  obtain ⟨m, -, h⟩ := except_bind_ok h
  obtain rfl := Except.ok.inj h
  exact except_mapError_ok hq

/-- The quote token of an accepted config is not one of its tokens. -/
theorem fromConfig_quote_unlisted {c : Config} {r : TokenRegistry} (hv : c.validate = .ok ())
    (h : TokenRegistry.fromConfig c.tokens c.quoteToken = .ok r) :
    r.tokens.lookup r.quoteToken = none := by
  cases hl : r.tokens.lookup r.quoteToken with
  | none => rfl
  | some s =>
    obtain ⟨t, ht, ha, -⟩ := (fromConfig_lookup hv h _ _).mp hl
    obtain ⟨-, quote, hq, -, hvt⟩ := validate_ok hv
    obtain ⟨addrs, hmap, -, hnot, -, -⟩ := validateTokens_ok hvt
    have hquote : quote = r.quoteToken := by
      have := fromConfig_quote h
      rw [hq] at this
      exact Except.ok.inj this
    have hin : Except.ok r.quoteToken ∈ addrs.map (Except.ok (ε := String)) := by
      rw [← hmap]
      exact List.mem_map.mpr ⟨t, ht, ha⟩
    obtain ⟨b, hb, heq⟩ := List.mem_map.mp hin
    rw [Except.ok.inj heq, ← hquote] at hb
    exact absurd hb hnot

omit [Alloy] in
/-- A placeholder address is a number below 2^16. -/
lemma isPlaceholderAddress_iff (a : Address) :
    isPlaceholderAddress a = true ↔ beNat a.toList < 2 ^ 16 := by
  have hlen : a.toList.length = 20 := by simp
  have hpow : (2 : ℕ) ^ 16 = 256 ^ 2 := by norm_num
  rw [hpow, beNat_lt_pow_iff, hlen]
  simp [isPlaceholderAddress]

/-- Rows that parse build a registry. -/
lemma insertAll_isOk {rows : List (String × String)} {addrs : List Address}
    (hmap : rows.map (fun t => Alloy.fromStr t.1) = addrs.map .ok) (m : Map Address Symbol) :
    ∃ m', TokenRegistry.insertAll m rows = .ok m' := by
  induction rows generalizing m addrs with
  | nil => exact ⟨m, rfl⟩
  | cons t rest ih =>
    obtain ⟨addrStr, symbol⟩ := t
    cases addrs with
    | nil => simp at hmap
    | cons b bs =>
      obtain ⟨hb, hrest⟩ := List.cons.inj hmap
      simp only [TokenRegistry.insertAll, hb]
      exact ih hrest _

lemma fromConfig_isOk {c : Config} (hv : c.validate = .ok ()) :
    ∃ r, TokenRegistry.fromConfig c.tokens c.quoteToken = .ok r := by
  obtain ⟨-, quote, hquote, -, hvt⟩ := validate_ok hv
  obtain ⟨addrs, hmap, -⟩ := validateTokens_ok hvt
  have hrows : (c.tokens.map fun t => (t.address, t.symbol)).map (fun t => Alloy.fromStr t.1) =
      addrs.map .ok := by
    rw [← hmap]
    simp
  obtain ⟨m, hm⟩ := insertAll_isOk hrows ∅
  refine ⟨⟨m, quote⟩, ?_⟩
  simp [TokenRegistry.fromConfig, TokenRegistry.new, hquote, hm, bind, Except.bind,
    Except.mapError, pure, Except.pure]

/-- Two rows of an accepted config at one address are one row. -/
lemma validate_row_unique {c : Config} (hv : c.validate = .ok ()) {i j : ℕ} {t u : TokenEntry}
    {a : Address} (ht : c.tokens[i]? = some t) (hu : c.tokens[j]? = some u)
    (hta : Alloy.fromStr t.address = .ok a) (hua : Alloy.fromStr u.address = .ok a) : i = j := by
  obtain ⟨-, quote, -, -, hvt⟩ := validate_ok hv
  obtain ⟨addrs, hmap, hnodup, -⟩ := validateTokens_ok hvt
  have hat : ∀ {k : ℕ} {v : TokenEntry}, c.tokens[k]? = some v →
      Alloy.fromStr v.address = .ok a → addrs[k]? = some a := by
    intro k v hk hv
    have hget := congrArg (fun l => l[k]?) hmap
    simp only [List.getElem?_map, hk, Option.map_some, hv] at hget
    obtain ⟨b, hb, hab⟩ := Option.map_eq_some_iff.mp hget.symm
    rw [hb, Except.ok.inj hab]
  have hi := hat ht hta
  have hj := hat hu hua
  obtain ⟨hlt, -⟩ := List.getElem?_eq_some_iff.mp hi
  exact (List.getElem?_inj hlt hnodup).mp (hi.trans hj.symm)

lemma validate_row_address {c : Config} (hv : c.validate = .ok ()) {t : TokenEntry}
    (ht : t ∈ c.tokens) : ∃ a, Alloy.fromStr t.address = .ok a ∧
      isPlaceholderAddress a = false := by
  obtain ⟨-, quote, -, -, hvt⟩ := validate_ok hv
  obtain ⟨addrs, hmap, -, -, hall, -⟩ := validateTokens_ok hvt
  have hin : Alloy.fromStr t.address ∈ addrs.map (Except.ok (ε := String)) := by
    rw [← hmap]
    exact List.mem_map.mpr ⟨t, ht, rfl⟩
  obtain ⟨a, ha, heq⟩ := List.mem_map.mp hin
  exact ⟨a, heq.symm, (hall a ha).2⟩

/-- One of `x` and `y` is the quote token and the other, which is not, is `a`. -/
def NonQuote (quote x y a : Address) : Prop :=
  (x = quote ∧ y ≠ quote ∧ a = y) ∨ (x ≠ quote ∧ y = quote ∧ a = x)

namespace TokenRegistry

lemma resolve_quote_first {r : TokenRegistry} {a : Address} {s : Symbol}
    (h : r.tokens.lookup a = some s) :
    r.resolve r.quoteToken a = .ok ⟨s, a, .quoteToBase⟩ := by
  simp [resolve, h]

lemma resolve_quote_second {r : TokenRegistry} {a : Address} {s : Symbol}
    (h : r.tokens.lookup a = some s) (hne : a ≠ r.quoteToken) :
    r.resolve a r.quoteToken = .ok ⟨s, a, .baseToQuote⟩ := by
  simp [resolve, h, hne]

end TokenRegistry

/-- What the registry of an accepted config answers, from its rows. -/
structure ResolvesRows (c : Config) (r : TokenRegistry) : Prop where
  quote : Alloy.fromStr c.quoteToken = .ok r.quoteToken
  succeeds : ∀ x y, (∃ pair, r.resolve x y = .ok pair) ↔
    ∃ a, NonQuote r.quoteToken x y a ∧ ∃ t ∈ c.tokens, Alloy.fromStr t.address = .ok a
  answer : ∀ x y pair, r.resolve x y = .ok pair →
    NonQuote r.quoteToken x y pair.token ∧ (pair.direction = .quoteToBase ↔ x = r.quoteToken) ∧
      ∃ (i : ℕ) (t : TokenEntry), c.tokens[i]? = some t ∧
        Alloy.fromStr t.address = .ok pair.token ∧ pair.symbol = t.symbol ∧
        ∀ (j : ℕ) (u : TokenEntry), c.tokens[j]? = some u →
          Alloy.fromStr u.address = .ok pair.token → j = i
  keeps : ∀ t ∈ c.tokens, ∃ a, Alloy.fromStr t.address = .ok a ∧
    r.resolve r.quoteToken a = .ok ⟨t.symbol, a, .quoteToBase⟩ ∧
    r.resolve a r.quoteToken = .ok ⟨t.symbol, a, .baseToQuote⟩
  quote_quote : ∀ pair, r.resolve r.quoteToken r.quoteToken ≠ .ok pair
  deployed : 2 ^ 16 ≤ beNat r.quoteToken.toList ∧
    ∀ x y pair, r.resolve x y = .ok pair → 2 ^ 16 ≤ beNat pair.token.toList

theorem accepted_registry_resolves_rows {c : Config} (hv : c.validate = .ok ()) :
    ∃ r, TokenRegistry.fromConfig c.tokens c.quoteToken = .ok r ∧ ResolvesRows c r := by
  obtain ⟨r, hr⟩ := fromConfig_isOk hv
  have hlookup := fromConfig_lookup hv hr
  have hunlisted := fromConfig_quote_unlisted hv hr
  have hdeployed : ∀ a, isPlaceholderAddress a = false → 2 ^ 16 ≤ beNat a.toList := by
    intro a ha
    by_contra hlt
    rw [(isPlaceholderAddress_iff a).mpr (not_le.mp hlt)] at ha
    cases ha
  have hnonquote : ∀ {x y pair}, r.resolve x y = .ok pair →
      NonQuote r.quoteToken x y pair.token ∧ (pair.direction = .quoteToBase ↔ x = r.quoteToken) ∧
        ∃ t ∈ c.tokens, Alloy.fromStr t.address = .ok pair.token ∧ t.symbol = pair.symbol := by
    intro x y pair h
    obtain ⟨hsome, hsides⟩ := TokenRegistry.resolve_ok h
    have hne : pair.token ≠ r.quoteToken := by
      intro heq
      rw [heq, hunlisted] at hsome
      cases hsome
    have hrow := (hlookup _ _).mp hsome
    rcases hsides with ⟨hx, hy, hd⟩ | ⟨hx, hy, htoken, hd⟩
    · exact ⟨.inl ⟨hx, hy ▸ hne, hy.symm⟩, by simp [hx, hd], hrow⟩
    · exact ⟨.inr ⟨hx, hy, htoken.symm⟩, by simp [hx, hd], hrow⟩
  have hkeeps : ∀ t ∈ c.tokens, ∃ a, Alloy.fromStr t.address = .ok a ∧
      r.tokens.lookup a = some t.symbol ∧ a ≠ r.quoteToken := by
    intro t ht
    obtain ⟨a, ha, -⟩ := validate_row_address hv ht
    have hsome := (hlookup a t.symbol).mpr ⟨t, ht, ha, rfl⟩
    refine ⟨a, ha, hsome, ?_⟩
    rintro rfl
    rw [hunlisted] at hsome
    cases hsome
  refine ⟨r, hr, ?_⟩
  constructor
  case quote => exact fromConfig_quote hr
  case succeeds =>
    intro x y
    constructor
    · rintro ⟨pair, h⟩
      obtain ⟨hsides, -, t, ht, ha, -⟩ := hnonquote h
      exact ⟨pair.token, hsides, t, ht, ha⟩
    · rintro ⟨a, hsides, t, ht, ha⟩
      have hsome := (hlookup a t.symbol).mpr ⟨t, ht, ha, rfl⟩
      rcases hsides with ⟨rfl, -, rfl⟩ | ⟨hx, rfl, rfl⟩
      · exact ⟨_, TokenRegistry.resolve_quote_first hsome⟩
      · exact ⟨_, TokenRegistry.resolve_quote_second hsome hx⟩
  case answer =>
    intro x y pair h
    obtain ⟨hsides, hd, t, ht, ha, hs⟩ := hnonquote h
    obtain ⟨i, hi⟩ := List.mem_iff_getElem?.mp ht
    exact ⟨hsides, hd, i, t, hi, ha, hs.symm, fun j u hu hua =>
      validate_row_unique hv hu hi hua ha⟩
  case keeps =>
    intro t ht
    obtain ⟨a, ha, hsome, hne⟩ := hkeeps t ht
    exact ⟨a, ha, TokenRegistry.resolve_quote_first hsome,
      TokenRegistry.resolve_quote_second hsome hne⟩
  case quote_quote =>
    intro pair h
    obtain ⟨hsides, -⟩ := hnonquote h
    rcases hsides with ⟨-, hne, -⟩ | ⟨hne, -⟩ <;> exact hne rfl
  case deployed =>
    constructor
    · obtain ⟨-, quote, hquote, hplace, -⟩ := validate_ok hv
      rw [fromConfig_quote hr] at hquote
      obtain rfl := Except.ok.inj hquote
      exact hdeployed _ hplace
    · intro x y pair h
      obtain ⟨-, -, t, ht, ha, -⟩ := hnonquote h
      obtain ⟨a, ha', hplace⟩ := validate_row_address hv ht
      rw [ha] at ha'
      obtain rfl := Except.ok.inj ha'
      exact hdeployed _ hplace

end Validated

/-! Hexadecimal addresses as the deployed configs spell them, and a config on Base with
two tokens, the first one in mixed case. -/
namespace Sample

def hexDigit (c : Char) : Option UInt8 :=
  if '0' ≤ c ∧ c ≤ '9' then some (c.toNat - 48).toUInt8
  else if 'a' ≤ c ∧ c ≤ 'f' then some (c.toNat - 87).toUInt8
  else none

def hexBytes : List Char → Option (List UInt8)
  | [] => some []
  | hi :: lo :: rest => do
    let h ← hexDigit hi
    let l ← hexDigit lo
    let bytes ← hexBytes rest
    pure ((16 * h + l) :: bytes)
  | [_] => none

def parseAddress (digits : List Char) : Except String Address :=
  let body := match digits with
    | '0' :: 'x' :: rest => rest
    | _ => digits
  match hexBytes body with
  | none => .error "invalid character"
  | some bytes =>
    if h : bytes.toArray.size = 20 then .ok ⟨bytes.toArray, h⟩ else .error "invalid string length"

def hexOf (b : UInt8) : List Char := [Nat.digitChar (b.toNat / 16), Nat.digitChar (b.toNat % 16)]

scoped instance alloy : Alloy where
  fromStr s := parseAddress (s.toList.map Char.toLower)
  display a := "0x" ++ String.ofList (a.toList.flatMap hexOf)

scoped instance unicode : Unicode where
  toLowercase s := String.ofList (s.toList.map Char.toLower)

scoped instance lawfulAlloy : LawfulAlloy where
  case_insensitive s t a b hs ht hlower := by
    have hchars : s.toList.map Char.toLower = t.toList.map Char.toLower := by
      simpa [Unicode.toLowercase] using congrArg String.toList hlower
    have hsame : Alloy.fromStr s = Alloy.fromStr t := congrArg parseAddress hchars
    rw [hs, ht] at hsame
    exact Except.ok.inj hsame

def twoTokens : Config where
  port := 3000
  chainId := 8453
  quoteToken := usdcBase
  tokens := [⟨"0xAAAAaaaaAAAAaaaaAAAAaaaaAAAAaaaaAAAAaaaa", "wtCOIN"⟩,
    ⟨"0x1111111111111111111111111111111111111111", "wtTSLA"⟩]
  registry := none
  pricing := ⟨"ws://st0x-pricing:8080/ws", "oracle"⟩
  signing := ⟨10⟩

theorem two_tokens_resolve :
    ∃ r, TokenRegistry.fromConfig twoTokens.tokens twoTokens.quoteToken = .ok r ∧
      ResolvesRows twoTokens r :=
  accepted_registry_resolves_rows (by decide +kernel)

end Sample

end OracleServer
