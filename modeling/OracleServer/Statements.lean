import OracleServer.Lib.BigEndian
import OracleServer.Reuse
import OracleServer.Session
import OracleServer.Sign
import OracleServer.WorldSafety

/-! A signed context as a statement: the schema and the arguments its builder was given.
The bytes that are hashed tell two statements apart, and what reuse compares tells them
apart up to publish time and expiry. -/
namespace OracleServer

/-- The arguments all the builders share. -/
structure Terms where
  price : B256
  publish : UInt64
  tag : SessionTag
  start : UInt64
  stop : UInt64
  input : Address
  output : Address
  deriving DecidableEq

inductive Statement
  | v4 (terms : Terms)
  | v5 (terms : Terms) (expiry : UInt64)
  | v6 (terms : Terms) (expiry : UInt64) (navRatio : B256)
  | v7 (terms : Terms) (expiry chainId : UInt64)
  deriving DecidableEq

/-- What is assumed of the float crate: two `u64` whose decimal texts parse to one float
are equal, and so are two 256-bit ratios that pack to one. -/
class LawfulRainFloat [RainFloat] : Prop where
  parse_inj : ∀ {n m : UInt64} {b : B256}, RainFloat.parse (toString n) = .ok b →
    RainFloat.parse (toString m) = .ok b → n = m
  fixed_inj : ∀ {n m : ℕ} {b : B256}, n < 2 ^ 256 → m < 2 ^ 256 →
    RainFloat.fromFixedDecimal n navRatioDecimals = .ok b →
    RainFloat.fromFixedDecimal m navRatioDecimals = .ok b → n = m

namespace Statement

def terms : Statement → Terms
  | .v4 t | .v5 t _ | .v6 t _ _ | .v7 t _ _ => t

def version : Statement → UInt64
  | .v4 _ => schemaVersionV4
  | .v5 _ _ => schemaVersionV5
  | .v6 _ _ _ => schemaVersionV6
  | .v7 _ _ _ => schemaVersionV7

/-- The same statement at another time. -/
def retime (publish expiry : UInt64) : Statement → Statement
  | .v4 t => .v4 { t with publish := publish }
  | .v5 t _ => .v5 { t with publish := publish } expiry
  | .v6 t _ nav => .v6 { t with publish := publish } expiry nav
  | .v7 t _ chain => .v7 { t with publish := publish } expiry chain

variable [RainFloat]

def build : Statement → Except String (List B256)
  | .v4 t => buildContextV4 t.price t.publish (tagBytes32V3 t.tag) t.start t.stop t.input t.output
  | .v5 t expiry => buildContextV5 t.price t.publish (tagBytes32V3 t.tag) t.start t.stop
      t.input t.output expiry
  | .v6 t expiry nav => buildContextV6 t.price t.publish (tagBytes32V3 t.tag) t.start t.stop
      t.input t.output expiry nav
  | .v7 t expiry chain => buildContextV7 t.price t.publish (tagBytes32V3 t.tag) t.start t.stop
      t.input t.output expiry chain

/-- The slots after the eighth. -/
def Tail : Statement → List B256 → Prop
  | .v4 _, l => l = []
  | .v5 _ expiry, l => ∃ x, l = [x] ∧ Encodes x expiry
  | .v6 _ expiry nav, l => ∃ x slot, l = [x, slot] ∧ Encodes x expiry ∧
      RainFloat.fromFixedDecimal (fromBeBytes nav) navRatioDecimals = .ok slot
  | .v7 _ expiry chain, l => ∃ x slot, l = [x, slot] ∧ Encodes x expiry ∧ Encodes slot chain

/-- What the builders put into the slots. -/
lemma build_slots {a : Statement} {ctx : List B256} (h : a.build = .ok ctx) :
    ∃ v p s e tail, ctx = [v, a.terms.price, p, tagBytes32V3 a.terms.tag, s, e,
        leftPadding a.terms.input, leftPadding a.terms.output] ++ tail ∧
      Encodes v a.version ∧ Encodes p a.terms.publish ∧ Encodes s a.terms.start ∧
      Encodes e a.terms.stop ∧ a.Tail tail := by
  cases a with
  | v4 t =>
    obtain ⟨v, p, s, e, rfl, hv, hp, hs, he⟩ := buildPairBoundContext_ok h
    exact ⟨v, p, s, e, [], rfl, hv, hp, hs, he, rfl⟩
  | v5 t expiry =>
    obtain ⟨v, p, s, e, x, rfl, hv, hp, hs, he, hx⟩ := buildExpiryBoundContext_ok h
    exact ⟨v, p, s, e, [x], rfl, hv, hp, hs, he, x, rfl, hx⟩
  | v6 t expiry nav =>
    obtain ⟨ctx₉, slot, h₉, rfl, hslot⟩ := buildContextV6_ok h
    obtain ⟨v, p, s, e, x, rfl, hv, hp, hs, he, hx⟩ := buildExpiryBoundContext_ok h₉
    exact ⟨v, p, s, e, [x, slot], rfl, hv, hp, hs, he, x, slot, rfl, hx, hslot⟩
  | v7 t expiry chain =>
    obtain ⟨ctx₉, slot, h₉, rfl, hslot⟩ := buildContextV7_ok h
    obtain ⟨v, p, s, e, x, rfl, hv, hp, hs, he, hx⟩ := buildExpiryBoundContext_ok h₉
    exact ⟨v, p, s, e, [x, slot], rfl, hv, hp, hs, he, x, slot, rfl, hx, hslot⟩

end Statement

lemma leftPadding_injective : Function.Injective leftPadding := by
  intro a b h
  have hlist := congrArg Vector.toList h
  simp only [leftPadding, Vector.toList_append] at hlist
  exact Vector.toList_inj.mp (List.append_cancel_left hlist)

lemma tagBytes32V3_injective : Function.Injective tagBytes32V3 := by
  have hdistinct : ∀ a b : SessionTag, a ≠ b → (tagBytes32V3 a).toList ≠ (tagBytes32V3 b).toList := by
    intro a b
    cases a <;> cases b <;> decide
  intro a b h
  by_contra hne
  exact hdistinct a b hne (congrArg Vector.toList h)

lemma fromBeBytes_injective : Function.Injective fromBeBytes := by
  intro a b h
  exact Vector.toList_inj.mp (beNat_inj (by simp) h)

lemma fromBeBytes_lt (b : B256) : fromBeBytes b < 2 ^ 256 := by
  have hlt := beNat_lt b.toList
  simpa [fromBeBytes, beNat] using hlt

namespace Statement

variable [RainFloat] [LawfulRainFloat]

lemma encodes_inj {slot : B256} {n m : UInt64} (hn : Encodes slot n) (hm : Encodes slot m) :
    n = m := LawfulRainFloat.parse_inj hn hm

/-- The slots reuse compares determine everything but publish time and expiry. -/
lemma retimed_of_slots {a b : Statement} {ca cb : List B256} (ha : a.build = .ok ca)
    (hb : b.build = .ok cb)
    (hslots : ∀ i, i ≠ publishTimeSlot → i ≠ expirySlot → ca[i]? = cb[i]?) :
    ∃ publish expiry, b = a.retime publish expiry := by
  obtain ⟨v, p, s, e, tail, rfl, hv, -, hs, he, htail⟩ := build_slots ha
  obtain ⟨v', p', s', e', tail', rfl, hv', -, hs', he', htail'⟩ := build_slots hb
  obtain rfl : v = v' := by simpa using hslots 0 (by decide) (by decide)
  have hprice : a.terms.price = b.terms.price := by simpa using hslots 1 (by decide) (by decide)
  have htag : tagBytes32V3 a.terms.tag = tagBytes32V3 b.terms.tag := by
    simpa using hslots 3 (by decide) (by decide)
  obtain rfl : s = s' := by simpa using hslots 4 (by decide) (by decide)
  obtain rfl : e = e' := by simpa using hslots 5 (by decide) (by decide)
  have hinput : leftPadding a.terms.input = leftPadding b.terms.input := by
    simpa using hslots 6 (by decide) (by decide)
  have houtput : leftPadding a.terms.output = leftPadding b.terms.output := by
    simpa using hslots 7 (by decide) (by decide)
  have hlast : tail[1]? = tail'[1]? := by simpa using hslots 9 (by decide) (by decide)
  have hversion : a.version = b.version := encodes_inj hv hv'
  have hterms : b.terms = { a.terms with publish := b.terms.publish } := by
    have htagEq := tagBytes32V3_injective htag
    have hstart := encodes_inj hs hs'
    have hstop := encodes_inj he he'
    have hinputEq := leftPadding_injective hinput
    have houtputEq := leftPadding_injective houtput
    cases hta : a.terms
    cases htb : b.terms
    simp_all
  cases a with
  | v4 t =>
    cases b with
    | v4 t' => exact ⟨t'.publish, 0, congrArg v4 hterms⟩
    | _ => simp [version, schemaVersionV4, schemaVersionV5, schemaVersionV6, schemaVersionV7] at hversion
  | v5 t expiry =>
    cases b with
    | v5 t' expiry' => exact ⟨t'.publish, expiry', congrArg (v5 · expiry') hterms⟩
    | _ => simp [version, schemaVersionV4, schemaVersionV5, schemaVersionV6, schemaVersionV7] at hversion
  | v6 t expiry nav =>
    cases b with
    | v6 t' expiry' nav' =>
      obtain ⟨x, slot, rfl, -, hnav⟩ := htail
      obtain ⟨x', slot', rfl, -, hnav'⟩ := htail'
      obtain rfl : slot = slot' := by simpa using hlast
      have hratio := LawfulRainFloat.fixed_inj (fromBeBytes_lt nav) (fromBeBytes_lt nav') hnav hnav'
      obtain rfl := fromBeBytes_injective hratio
      exact ⟨t'.publish, expiry', congrArg (v6 · expiry' nav) hterms⟩
    | _ => simp [version, schemaVersionV4, schemaVersionV5, schemaVersionV6, schemaVersionV7] at hversion
  | v7 t expiry chain =>
    cases b with
    | v7 t' expiry' chain' =>
      obtain ⟨x, slot, rfl, -, hchain⟩ := htail
      obtain ⟨x', slot', rfl, -, hchain'⟩ := htail'
      obtain rfl : slot = slot' := by simpa using hlast
      obtain rfl := encodes_inj hchain hchain'
      exact ⟨t'.publish, expiry', congrArg (v7 · expiry' chain) hterms⟩
    | _ => simp [version, schemaVersionV4, schemaVersionV5, schemaVersionV6, schemaVersionV7] at hversion

/-- The slots reuse leaves out hold the two times. -/
lemma times_of_context {a : Statement} {publish expiry : UInt64} {ctx : List B256}
    (ha : a.build = .ok ctx) (hb : (a.retime publish expiry).build = .ok ctx) :
    a.retime publish expiry = a := by
  obtain ⟨v, p, s, e, tail, rfl, -, hp, -, -, htail⟩ := build_slots ha
  obtain ⟨v', p', s', e', tail', heq, -, hp', -, -, htail'⟩ := build_slots hb
  simp only [List.cons_append, List.nil_append, List.cons.injEq] at heq
  obtain ⟨-, -, rfl, -, -, -, -, -, rfl⟩ := heq
  have hpublish := encodes_inj hp hp'
  cases a with
  | v4 t =>
    obtain rfl : t.publish = publish := hpublish
    rfl
  | v5 t x =>
    obtain rfl : t.publish = publish := hpublish
    obtain ⟨slot, rfl, hx⟩ := htail
    obtain ⟨slot', heq, hx'⟩ := htail'
    obtain rfl := List.head_eq_of_cons_eq heq
    obtain rfl := encodes_inj hx hx'
    rfl
  | v6 t x nav =>
    obtain rfl : t.publish = publish := hpublish
    obtain ⟨slot, last, rfl, hx, -⟩ := htail
    obtain ⟨slot', last', heq, hx', -⟩ := htail'
    obtain rfl := List.head_eq_of_cons_eq heq
    obtain rfl := encodes_inj hx hx'
    rfl
  | v7 t x chain =>
    obtain rfl : t.publish = publish := hpublish
    obtain ⟨slot, last, rfl, hx, -⟩ := htail
    obtain ⟨slot', last', heq, hx', -⟩ := htail'
    obtain rfl := List.head_eq_of_cons_eq heq
    obtain rfl := encodes_inj hx hx'
    rfl

/-- Equal bytes were signed for one statement, and contexts that reuse takes for the same
state the same but for publish time and expiry. -/
theorem signed_bytes_determine {a b : Statement} {ca cb : List B256} (ha : a.build = .ok ca)
    (hb : b.build = .ok cb) : (packed ca = packed cb → a = b) ∧
      (sameStatement ca cb = true → ∃ publish expiry, b = a.retime publish expiry) := by
  constructor
  · intro hpacked
    obtain rfl := packed_injective hpacked
    obtain ⟨publish, expiry, rfl⟩ := retimed_of_slots ha hb (fun _ _ _ => rfl)
    exact (times_of_context ha hb).symm
  · intro hsame
    exact retimed_of_slots ha hb (sameStatement_slots hsame).2

end Statement

namespace Sample

lemma word_mod {n m : ℕ} (h : word n = word m) : n % 2 ^ 256 = m % 2 ^ 256 := by
  have hbyte : ∀ k < 32, n / 256 ^ k % 256 = m / 256 ^ k % 256 := by
    intro k hk
    have hget := congrArg (fun w : B256 => w.get ⟨31 - k, by omega⟩) h
    simp only [word, Vector.get_ofFn, show 31 - (31 - k) = k by omega] at hget
    have hnat := congrArg UInt8.toNat hget
    simpa using hnat
  have hpow : ∀ k ≤ 32, n % 256 ^ k = m % 256 ^ k := by
    intro k
    induction k with
    | zero => simp [Nat.mod_one]
    | succ k ih =>
      intro hk
      rw [Nat.mod_pow_succ, Nat.mod_pow_succ, ih (by omega), hbyte k (by omega)]
  exact hpow 32 le_rfl

lemma decimal_toString (n : UInt64) : decimal (toString n).toList = some n.toNat := by
  have htext : (toString n).toList = Nat.toDigits 10 n.toNat := Nat.toList_repr
  have hdigits : (Nat.toDigits 10 n.toNat).all Char.isDigit = true := by
    rw [List.all_eq_true]
    intro c hc
    exact Nat.isDigit_of_mem_toDigits (by norm_num) le_rfl hc
  rw [htext, decimal, if_pos ⟨Nat.toDigits_ne_nil, hdigits⟩]
  have hvalue := Nat.ofDigitChars_ten_toDigits (n := n.toNat)
  rw [Nat.ofDigitChars_eq_foldl] at hvalue
  exact congrArg some hvalue

scoped instance lawfulFloat : LawfulRainFloat where
  parse_inj {n m b} hn hm := by
    simp only [RainFloat.parse, decimal_toString] at hn hm
    have hword := (Except.ok.inj hn).trans (Except.ok.inj hm).symm
    have hmod := word_mod hword
    have hlt := n.toNat_lt
    have hlt' := m.toNat_lt
    apply UInt64.toNat_inj.mp
    simp at hmod
    omega
  fixed_inj {n m b} hlt hlt' hn hm := by
    have hword := (Except.ok.inj hn).trans (Except.ok.inj hm).symm
    have hmod := word_mod hword
    omega

/-- A session of one trading day, signed for the sample pair. -/
def openTerms : Terms := ⟨pack 2 0, 1700000030, .rth, 1699972200, 1699995600, usdc, coin⟩

theorem later_signature_is_retimed :
    ∃ ca cb, (Statement.v7 openTerms 1700000090 8453).build = .ok ca ∧
      (Statement.v7 { openTerms with publish := 1700000040 } 1700000100 8453).build = .ok cb ∧
      packed ca ≠ packed cb ∧ ∃ publish expiry,
        Statement.v7 { openTerms with publish := 1700000040 } 1700000100 8453 =
          (Statement.v7 openTerms 1700000090 8453).retime publish expiry := by
  have hboth : ((Statement.v7 openTerms 1700000090 8453).build.toOption.any fun ca =>
      (Statement.v7 { openTerms with publish := 1700000040 } 1700000100 8453).build.toOption.any
        fun cb => sameStatement ca cb) = true := by decide +kernel
  obtain ⟨ca, hca, hrest⟩ := (Option.any_eq_true _ _).mp hboth
  obtain ⟨cb, hcb, hsame⟩ := (Option.any_eq_true _ _).mp hrest
  have hok : ∀ {x : Except String (List B256)} {c}, x.toOption = some c → x = .ok c := by
    intro x c h
    cases x <;> simp_all [Except.toOption]
  obtain ⟨hbytes, hstatement⟩ := Statement.signed_bytes_determine (hok hca) (hok hcb)
  refine ⟨ca, cb, hok hca, hok hcb, fun h => ?_, hstatement hsame⟩
  exact absurd (hbytes h) (by decide)

end Sample

end OracleServer
