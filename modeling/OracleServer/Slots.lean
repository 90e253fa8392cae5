import OracleServer.Provenance

/-! The slots of a signed context, as numbers and addresses: what each says about the
quote it was built from. -/
namespace OracleServer

section Times

theorem effectiveExpiry_ok {q : Quote} {e : Int64} (h : effectiveExpiryUnixMs q = .ok e) :
    ∃ d, q.executionDeadlineUnixMs = some d ∧ 0 < d.toInt ∧
      e.toInt = min q.expiryUnixMs.toInt d.toInt := by
  unfold effectiveExpiryUnixMs at h
  split at h
  · next d hd =>
    obtain ⟨hdeadline, hpos⟩ := Option.filter_eq_some_iff.mp hd
    have hpos' : 0 < d.toInt := by simpa [Int64.lt_iff_toInt_lt] using hpos
    obtain rfl := Except.ok.inj h
    refine ⟨d, hdeadline, hpos', ?_⟩
    split
    · next hle =>
      rw [Int64.le_iff_toInt_le] at hle
      omega
    · next hle =>
      rw [Int64.le_iff_toInt_le] at hle
      omega
  · cases h

theorem expiryFromQuote_ok {q : Quote} {n : UInt64} (h : expiryFromQuote q = .ok n) :
    ∃ e, effectiveExpiryUnixMs q = .ok e ∧ (n.toNat : ℤ) = e.toInt.tdiv 1000 := by
  unfold expiryFromQuote at h
  obtain ⟨e, he, h⟩ := except_bind_ok h
  split at h
  · next s hs =>
    obtain rfl := Except.ok.inj h
    exact ⟨e, he, u64TryFrom_some hs⟩
  · cases h

theorem quoteIsLive_signs {e t : Int64} (h : quoteIsLive e t true = true) :
    t.toInt < e.toInt ∧ t.toInt / 1000 < e.toInt / 1000 := by
  simp only [quoteIsLive, Bool.not_true, Bool.false_or, Bool.and_eq_true, decide_eq_true_eq] at h
  exact ⟨Int64.lt_iff_toInt_lt.mp h.1, h.2⟩

/-- Truncation is a floor from zero on. -/
theorem publishTime_floor {q : Quote} {n : UInt64} (h : publishTimeFromQuote q = .ok n)
    (hq : 0 ≤ q.sourceTsUnixMs.toInt) : (n.toNat : ℤ) = q.sourceTsUnixMs.toInt / 1000 := by
  unfold publishTimeFromQuote at h
  split at h
  · next s hs =>
    obtain rfl := Except.ok.inj h
    rw [u64TryFrom_some hs, Int.tdiv_eq_ediv_of_nonneg hq]
  · cases h

theorem secsToMillis_some {secs : UInt64} {ms : Int64} (h : secsToMillis secs = some ms) :
    ms.toInt = secs.toNat * 1000 := by
  unfold secsToMillis at h
  split at h
  · next hlt =>
    obtain rfl := Option.some.inj h
    exact Int64.toInt_ofInt_of_le (by omega) (by omega)
  · cases h

end Times

def PairSchema.version : PairSchema → UInt64
  | .v4 => schemaVersionV4
  | .v5 => schemaVersionV5
  | .v6 => schemaVersionV6
  | .v7 => schemaVersionV7

/-- The rate of the taker's direction: the vault's, or the underlying's for `v7`. -/
def Quote.rate (q : Quote) (schema : PairSchema) : PriceDirection → B256
  | .quoteToBase => if schema = .v7 then q.underlyingRateQuoteToBase else q.rateQuoteToBase
  | .baseToQuote => if schema = .v7 then q.underlyingRateBaseToQuote else q.rateBaseToQuote

/-- The whole-second expiry a quote allows: the earlier of its expiry and its deadline. -/
def Quote.ExpiresAt (q : Quote) (secs : ℤ) : Prop :=
  ∃ d, q.executionDeadlineUnixMs = some d ∧ 0 < d.toInt ∧
    secs = min q.expiryUnixMs.toInt d.toInt / 1000

section Slots
variable [RainFloat]

/-- What the last slot says, for the schemas that have one. -/
def NinthSlot (chainId : UInt64) (q : Quote) (slot : Option B256) : PairSchema → Prop
  | .v6 => ∃ nav, slot = some nav ∧
      RainFloat.fromFixedDecimal (fromBeBytes q.navRatio) navRatioDecimals = .ok nav
  | .v7 => ∃ chain, slot = some chain ∧ Encodes chain chainId
  | _ => slot = none

/-- The slots that state the quote: all but the publish time and the expiry. -/
structure States (chainId : UInt64) (schema : PairSchema) (direction : PriceDirection) (q : Quote)
    (x y : Address) (context : List B256) : Prop where
  version : ∃ slot, context[0]? = some slot ∧ Encodes slot schema.version
  price : ∃ slot, context[1]? = some slot ∧ RainFloat.inv (q.rate schema direction) = .ok slot
  session : ∃ session start stop slot slot', q.session = some session ∧
    context[3]? = some (tagBytes32V3 session.tag) ∧
    context[4]? = some slot ∧ Encodes slot start ∧
    (start.toNat : ℤ) = session.startUnixMs.toInt / 1000 ∧
    context[5]? = some slot' ∧ Encodes slot' stop ∧
    (stop.toNat : ℤ) = session.endUnixMs.toInt / 1000
  input : context[6]? = some (leftPadding x)
  output : context[7]? = some (leftPadding y)
  ninth : NinthSlot chainId q context[9]? schema

/-- The two slots that date it. -/
structure Dates (q : Quote) (context : List B256) (expiry : UInt64) : Prop where
  publish : ∃ slot secs, context[2]? = some slot ∧ Encodes slot secs ∧
    (secs.toNat : ℤ) = q.sourceTsUnixMs.toInt / 1000
  signed : ∃ slot, context[8]? = some slot ∧ Encodes slot expiry
  bound : q.ExpiresAt expiry.toNat

theorem States.congr {chainId : UInt64} {schema : PairSchema} {direction : PriceDirection}
    {q : Quote} {x y : Address} {l l' : List B256} (h : States chainId schema direction q x y l)
    (heq : ∀ i, i ≠ publishTimeSlot → i ≠ expirySlot → l'[i]? = l[i]?) :
    States chainId schema direction q x y l' := by
  have h₀ := heq 0 (by decide) (by decide)
  have h₁ := heq 1 (by decide) (by decide)
  have h₃ := heq 3 (by decide) (by decide)
  have h₄ := heq 4 (by decide) (by decide)
  have h₅ := heq 5 (by decide) (by decide)
  have h₆ := heq 6 (by decide) (by decide)
  have h₇ := heq 7 (by decide) (by decide)
  have h₉ := heq 9 (by decide) (by decide)
  exact ⟨h₀ ▸ h.version, h₁ ▸ h.price, by rw [h₃, h₄, h₅]; exact h.session, h₆ ▸ h.input,
    h₇ ▸ h.output, h₉ ▸ h.ninth⟩

theorem pickRateBytes_ok {q : Quote} {schema : PairSchema} {direction : PriceDirection} {p : B256}
    (hschema : schema ≠ .v7) (h : pickRateBytes q direction = .ok p) :
    RainFloat.inv (q.rate schema direction) = .ok p := by
  unfold pickRateBytes at h
  unfold Quote.rate
  cases direction with
  | quoteToBase =>
    dsimp only at h ⊢
    rw [if_neg hschema]
    split at h
    · next inverted hinv => rw [hinv, Except.ok.inj h]
    · cases h
  | baseToQuote =>
    dsimp only at h ⊢
    rw [if_neg hschema]
    split at h
    · next inverted hinv => rw [hinv, Except.ok.inj h]
    · cases h

theorem pickUnderlyingRateBytes_ok {q : Quote} {direction : PriceDirection} {p : B256}
    (h : pickUnderlyingRateBytes q direction = .ok p) :
    RainFloat.inv (q.rate .v7 direction) = .ok p := by
  unfold pickUnderlyingRateBytes at h
  unfold Quote.rate
  cases direction with
  | quoteToBase =>
    dsimp only at h ⊢
    rw [if_pos rfl]
    split at h
    · cases h
    · cases h
    · split at h
      · next inverted hinv => rw [hinv, Except.ok.inj h]
      · cases h
  | baseToQuote =>
    dsimp only at h ⊢
    rw [if_pos rfl]
    split at h
    · cases h
    · cases h
    · split at h
      · next inverted hinv => rw [hinv, Except.ok.inj h]
      · cases h

/-- The price slot inverts the rate of the direction. -/
theorem priceBytes_ok {schema : PairSchema} {q : Quote} {direction : PriceDirection} {p : B256}
    (h : priceBytes schema q direction = .ok p) :
    RainFloat.inv (q.rate schema direction) = .ok p := by
  replace h := except_mapError_ok h
  split at h
  · next hv7 =>
    obtain rfl : schema = .v7 := of_decide_eq_true hv7
    exact pickUnderlyingRateBytes_ok h
  · next hv7 => exact pickRateBytes_ok (fun heq => hv7 (decide_eq_true heq)) h

/-- The nine slots that every schema with an expiry shares. -/
structure NineSlots (schema : PairSchema) (price : B256) (publish : UInt64) (session : SignedSession)
    (x y : Address) (expiry : UInt64) (context : List B256) : Prop where
  version : ∃ slot, context[0]? = some slot ∧ Encodes slot schema.version
  price : context[1]? = some price
  publish : ∃ slot, context[2]? = some slot ∧ Encodes slot publish
  tag : context[3]? = some (tagBytes32V3 session.tag)
  start : ∃ slot, context[4]? = some slot ∧ Encodes slot session.start
  stop : ∃ slot, context[5]? = some slot ∧ Encodes slot session.stop
  input : context[6]? = some (leftPadding x)
  output : context[7]? = some (leftPadding y)
  expiry : ∃ slot, context[8]? = some slot ∧ Encodes slot expiry

theorem buildContext_ok {chainId : UInt64} {schema : PairSchema} {q : Quote} {price : B256}
    {publish : UInt64} {session : SignedSession} {x y : Address} {expiry : UInt64}
    {context : List B256} (hsigns : schema.signsExpiry = true)
    (h : buildContext chainId schema q price publish session x y (some expiry) = .ok context) :
    NineSlots schema price publish session x y expiry context ∧
      NinthSlot chainId q context[9]? schema := by
  replace h := except_mapError_ok h
  cases schema with
  | v4 => exact absurd hsigns (by decide)
  | v5 =>
    obtain ⟨v, p, s, e, z, rfl, hv, hp, hs, he, hz⟩ := buildExpiryBoundContext_ok h
    exact ⟨⟨⟨v, rfl, hv⟩, rfl, ⟨p, rfl, hp⟩, rfl, ⟨s, rfl, hs⟩, ⟨e, rfl, he⟩, rfl, rfl,
      ⟨z, rfl, hz⟩⟩, rfl⟩
  | v6 =>
    obtain ⟨ctx₉, slot, h₉, rfl, hslot⟩ := buildContextV6_ok h
    obtain ⟨v, p, s, e, z, rfl, hv, hp, hs, he, hz⟩ := buildExpiryBoundContext_ok h₉
    exact ⟨⟨⟨v, rfl, hv⟩, rfl, ⟨p, rfl, hp⟩, rfl, ⟨s, rfl, hs⟩, ⟨e, rfl, he⟩, rfl, rfl,
      ⟨z, rfl, hz⟩⟩, ⟨slot, rfl, hslot⟩⟩
  | v7 =>
    obtain ⟨ctx₉, slot, h₉, rfl, hslot⟩ := buildContextV7_ok h
    obtain ⟨v, p, s, e, z, rfl, hv, hp, hs, he, hz⟩ := buildExpiryBoundContext_ok h₉
    exact ⟨⟨⟨v, rfl, hv⟩, rfl, ⟨p, rfl, hp⟩, rfl, ⟨s, rfl, hs⟩, ⟨e, rfl, he⟩, rfl, rfl,
      ⟨z, rfl, hz⟩⟩, ⟨slot, rfl, hslot⟩⟩

variable {chainId : UInt64} {schema : PairSchema} {direction : PriceDirection} {q : Quote}
  {x y : Address} {context : List B256} {expiry : UInt64}

/-- A context states the quote it was built from. -/
theorem Builds.states (hsigns : schema.signsExpiry = true)
    (h : Builds chainId schema direction q x y context expiry) :
    States chainId schema direction q x y context := by
  obtain ⟨publish, signed, price, -, hsession, hprice, -, hcontext⟩ := h
  obtain ⟨hnine, hninth⟩ := buildContext_ok hsigns hcontext
  obtain ⟨session, hq, htag, hstart, hstop, -, -⟩ := SignedSession.fromQuote_ok hsession
  obtain ⟨slot, hslot, henc⟩ := hnine.start
  obtain ⟨slot', hslot', henc'⟩ := hnine.stop
  exact ⟨hnine.version, ⟨price, hnine.price, priceBytes_ok hprice⟩,
    ⟨session, signed.start, signed.stop, slot, slot', hq, htag ▸ hnine.tag, hslot, henc, hstart,
      hslot', henc', hstop⟩, hnine.input, hnine.output, hninth⟩

/-- The expiry it signs is the floor of the quote's own. -/
theorem Builds.floor (h : Builds chainId schema direction q x y context expiry) {e : Int64}
    (he : effectiveExpiryUnixMs q = .ok e) (hpos : 0 ≤ e.toInt) :
    (expiry.toNat : ℤ) = e.toInt / 1000 := by
  obtain ⟨-, -, -, -, -, -, hexpiry, -⟩ := h
  obtain ⟨e', he', hsecs⟩ := expiryFromQuote_ok hexpiry
  obtain rfl : e = e' := Except.ok.inj (he ▸ he')
  rw [hsecs, Int.tdiv_eq_ediv_of_nonneg hpos]

/-- A context is dated by the quote it was built from, if that was live at a time from
1970 on. -/
theorem Builds.dates (hsigns : schema.signsExpiry = true)
    (h : Builds chainId schema direction q x y context expiry) {e : Int64}
    (he : effectiveExpiryUnixMs q = .ok e) (hpos : 0 ≤ e.toInt) : Dates q context expiry := by
  have hfloor := h.floor he hpos
  obtain ⟨publish, signed, price, hpublish, hsession, hprice, -, hcontext⟩ := h
  obtain ⟨hnine, -⟩ := buildContext_ok hsigns hcontext
  obtain ⟨slot, hslot, henc⟩ := hnine.publish
  obtain ⟨d, hd, hdpos, hmin⟩ := effectiveExpiry_ok he
  have hpub := publishTime_floor hpublish (SignedSession.fromQuote_nonneg hsession)
  exact ⟨⟨slot, publish, hslot, henc, hpub⟩, hnine.expiry, ⟨d, hd, hdpos, hmin ▸ hfloor⟩⟩

end Slots

end OracleServer
