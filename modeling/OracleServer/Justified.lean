import OracleServer.Causes
import OracleServer.Slots

/-! Every end of the response builder: what it returns is good until a time its quotes
allow, and what it throws has a cause. One lemma per function of `Builder`, in its order;
then the batch-final check. -/
namespace OracleServer

open Interaction Interaction.Contract

/-- The errors of an item, each with its cause. -/
def Ends [Alloy] [RainFloat] (D : Deployment) (a : List Symbol) (schema : PairSchema)
    (slot : ResolvedSlot) : Post Server Op Op.Answer AppError :=
  fun e tr s => Cause D a schema slot tr s e

/-- What the batch-final check needs to know of a built response. -/
def BuiltGood (D : Deployment) (a : List Symbol) (slot : ResolvedSlot) :
    Post Server Op Op.Answer BuiltResponse :=
  fun b tr s => GoodUntil D a .request slot.pair.symbol b.validityExpiryUnixMs tr s

/-- What a lookup offers fits under the expiry it is asked for, with the margin ahead. -/
def Offerable (D : Deployment) (expiry : UInt64) (previous : ReusedResponse) (tr : ServerTrace) :
    Prop :=
  ∃ ms t, secsToMillis previous.expiryUnixSecs = some ms ∧ previous.expiryUnixSecs ≤ expiry ∧
    D.reuseEnabled = true ∧ ReadClock .preSign t tr ∧ t.toInt / 1000 + D.minRemainingSecs.toNat ≤ ms.toInt / 1000

lemma watch_asked {D : Deployment} {a : List Symbol} {tr t : ServerTrace} {s u v : Server}
    {i : Input} {o : Op} {x : o.Answer} (hl : (watch D a).Later tr s t u)
    (hp : (watch D a).perform i o u = some (x, v)) (ho : Storable o) :
    (watch D a).Later tr s (t ++ [⟨u, o, x⟩]) v :=
  hl.trans (.ask trivial hl.inv ho hp)

section Values

lemma undated_of_error {q : Quote} {e : AppError} (h : effectiveExpiryUnixMs q = .error e) {d : Int64}
    (hd : q.executionDeadlineUnixMs = some d) : d.toInt ≤ 0 := by
  by_contra hpos
  unfold effectiveExpiryUnixMs at h
  have hfilter : q.executionDeadlineUnixMs.filter (fun d => d > 0) = some d := by
    rw [Option.filter_eq_some_iff]
    exact ⟨hd, by simpa [Int64.lt_iff_toInt_lt] using hpos⟩
  rw [hfilter] at h
  cases h

/-- The seconds of an expiry fit into milliseconds again, and lie at or before it. -/
lemma secsToMillis_expiry {q : Quote} {n : UInt64} {e : Int64}
    (hn : expiryFromQuote q = .ok n) (he : effectiveExpiryUnixMs q = .ok e) :
    ∃ ms, secsToMillis n = some ms ∧ ms.toInt ≤ max e.toInt 0 := by
  obtain ⟨e', he', hsecs⟩ := expiryFromQuote_ok hn
  obtain rfl : e = e' := Except.ok.inj (he ▸ he')
  have hrange := e.toInt_lt
  have hmul : (n.toNat : ℤ) * 1000 ≤ max e.toInt 0 := by
    rcases Int.lt_or_le e.toInt 0 with hneg | hnonneg
    · have htdiv : e.toInt.tdiv 1000 ≤ 0 := by
        rw [← Int.neg_neg e.toInt, Int.neg_tdiv]
        have := Int.tdiv_nonneg (a := -e.toInt) (b := 1000) (by omega) (by omega)
        omega
      omega
    · rw [Int.tdiv_eq_ediv_of_nonneg hnonneg] at hsecs
      omega
  have hlt : n.toNat * 1000 < 2 ^ 63 := by omega
  have hms : secsToMillis n = some (Int64.ofInt (n.toNat * 1000)) := by
    rw [secsToMillis, if_pos hlt]
  refine ⟨_, hms, ?_⟩
  rw [secsToMillis_some hms]
  omega

end Values

section Builder
variable [Alloy] [RainFloat] {D : Deployment} {a : List Symbol} {schema : PairSchema}
  {slot : ResolvedSlot} {α : Type} {tr : ServerTrace} {s : Server}

lemma unavailable_ends {Q : Post Server Op Op.Answer α} {reason : UnavailableReason}
    {endpoint : String} {symbol : Symbol} {phase : RefusalPhase} {detail : String}
    (h : Cause D a schema slot tr s (.unavailable reason detail)) :
    (watch D a).SafeEx Q (Ends D a schema slot)
      (unavailable reason endpoint symbol phase detail) tr s := by
  refine SafeEx.ask fun t u hl => ⟨trivial, fun i _ v hi hp => SafeEx.throw fun t' u' hl' => ?_⟩
  have hcount := watch_asked hl hp trivial
  exact h.grow (hcount.trans hl').trace (hcount.trans hl').rel

lemma validateQuoteLiveness_ends {point : ReadPoint} {snap : QuoteSnapshot} {check : LiveCheck}
    {endpoint : String} {phase : RefusalPhase}
    (hread : SnapshotRead D a point slot.pair.symbol snap tr s) :
    (watch D a).SafeEx (fun _ _ _ => True) (Ends D a schema slot)
      (validateQuoteLiveness check snap.generation endpoint slot.pair.symbol phase) tr s := by
  refine SafeEx.ask fun t u hl => ⟨trivial, fun i live v hi hp => ?_⟩
  obtain ⟨hlive, rfl⟩ := Prod.mk.inj (Option.some.inj hp)
  cases live with
  | true => exact SafeEx.pure fun _ _ _ => trivial
  | false =>
    exact unavailable_ends (.evicted (.of_dead (hread.grow hl.trace hl.rel) hl.inv hlive
      List.mem_concat_self (List.prefix_append _ _)))

lemma validateQuoteAddress_ends {point point' : ReadPoint} {snap : QuoteSnapshot} {set : TokenSet}
    {endpoint : String} {phase : RefusalPhase}
    (hread : SnapshotRead D a point slot.pair.symbol snap tr s) (hset : ReadSet point' set tr) :
    (watch D a).SafeEx (fun _ _ _ => True) (Ends D a schema slot)
      (validateQuoteAddress snap.quote slot.pair set.registry.quoteToken endpoint phase) tr s := by
  unfold validateQuoteAddress
  split
  · exact SafeEx.pure fun _ _ _ => trivial
  · next hne =>
    refine SafeEx.ask fun t u hl => ⟨trivial, fun i _ v hi hp => unavailable_ends ?_⟩
    have hl' := watch_asked hl hp trivial
    exact .mispriced (hread.grow hl'.trace hl'.rel) (hset.grow hl'.trace) hne

lemma validateExpiryDeadline_ends {point : ReadPoint} {expiry t : Int64} {endpoint : String}
    {phase : RefusalPhase} (hgood : GoodUntil D a point slot.pair.symbol expiry tr s)
    {phase' : RefusalPhase} (hclock : ReadClock phase' t tr) :
    (watch D a).SafeEx (fun _ _ _ => True) (Ends D a schema slot)
      (validateExpiryDeadline expiry t endpoint slot.pair.symbol schema.signsExpiry phase) tr s := by
  unfold validateExpiryDeadline
  split
  · exact SafeEx.pure fun _ _ _ => trivial
  · next hdead => exact unavailable_ends (.lapsed hgood hclock (Bool.not_eq_true _ ▸ hdead))

lemma validateQuoteExpiry_ends {point : ReadPoint} {snap : QuoteSnapshot} {t : Int64}
    {endpoint : String} {phase phase' : RefusalPhase}
    (hread : SnapshotRead D a point slot.pair.symbol snap tr s) (hclock : ReadClock phase' t tr) :
    (watch D a).SafeEx (fun _ _ _ => ∃ e, effectiveExpiryUnixMs snap.quote = .ok e)
      (Ends D a schema slot)
      (validateQuoteExpiry snap.quote t endpoint slot.pair.symbol schema.signsExpiry phase) tr s := by
  unfold validateQuoteExpiry
  split
  · next e he =>
    exact unavailable_ends (.undated hread fun d hd => undated_of_error he hd)
  · next e he =>
    split
    · next hdeadline =>
      exact unavailable_ends (.elapsed hread hdeadline.1 he hclock (by simpa using hdeadline.2))
    · have hgood : GoodUntil D a point slot.pair.symbol e tr s := ⟨snap, e, hread, he, .inl rfl⟩
      exact (validateExpiryDeadline_ends hgood hclock).mono (fun _ _ _ _ _ => ⟨e, he⟩)
        fun _ _ _ _ h => h

variable {snap : QuoteSnapshot} {expiry : UInt64} {context : List B256}

omit [Alloy] [RainFloat] in
lemma reuseLookup_ends {E : Post Server Op Op.Answer AppError} {key : ReuseKey} {t : Int64}
    {now : UInt64} (hclock : ReadClock .preSign t tr) (hnow : u64TryFrom (t.toInt / 1000) = some now) :
    (watch D a).SafeEx (fun r tr' _ => ∀ previous, r = some previous → Offerable D expiry previous tr')
      E (reuseLookup D key context expiry now snap.generation) tr s := by
  have hnone : ∀ {t u}, (watch D a).SafeEx (fun r tr' _ => ∀ previous,
      r = some previous → Offerable D expiry previous tr') E (pure none) t u := by
    intro t u
    refine SafeEx.pure fun _ _ _ previous hp => ?_
    cases hp
  unfold reuseLookup
  split
  · exact hnone
  next hon =>
  refine SafeEx.ask fun t₁ u₁ hl₁ => ⟨trivial, fun i₁ found v₁ _ hp₁ => ?_⟩
  obtain ⟨hfound, rfl⟩ := Prod.mk.inj (Option.some.inj hp₁)
  cases found with
  | none => exact hnone
  | some stored =>
    obtain ⟨ms, hms⟩ := Option.ne_none_iff_exists'.mp (hl₁.inv.storable key stored hfound)
    dsimp only
    split
    · exact hnone
    refine SafeEx.ask fun t₂ u₂ hl₂ => ⟨trivial, fun i₂ live v₂ _ hp₂ => ?_⟩
    cases live with
    | false => exact hnone
    | true =>
      refine SafeEx.pure fun t₃ u₃ hl₃ previous hprevious => ?_
      obtain ⟨rfl, -, hle, hmargin⟩ := reusable_some hprevious
      refine ⟨ms, t, hms, hle, by simpa using hon, hclock.grow ?_, ?_⟩
      · exact hl₁.trace.trans ((List.prefix_append _ _).trans (hl₂.trace.trans
          ((List.prefix_append _ _).trans hl₃.trace)))
      · have hnow' := u64TryFrom_some hnow
        have hval := secsToMillis_some hms
        rw [UInt64.le_iff_toNat_le] at hmargin
        unfold saturatingAdd at hmargin
        have hrange := ms.toInt_lt
        split at hmargin
        · next hsum =>
          rw [UInt64.toNat_add, Nat.mod_eq_of_lt hsum] at hmargin
          omega
        · have : (UInt64.ofNat (2 ^ 64 - 1)).toNat = 2 ^ 64 - 1 := by decide
          omega

lemma returnReused_ends {previous : ReusedResponse} {ms : Int64}
    (hread : SnapshotRead D a .request slot.pair.symbol snap tr s)
    (hms : secsToMillis previous.expiryUnixSecs = some ms)
    (hgood : GoodUntil D a .request slot.pair.symbol ms tr s) (hsigns : schema.signsExpiry = true) :
    (watch D a).SafeEx (BuiltGood D a slot) (Ends D a schema slot)
      (returnReused slot.pair snap schema previous) tr s := by
  refine SafeEx.ask fun t u hl => ⟨trivial, fun i now v hi hp => ?_⟩
  have hl' := watch_asked hl hp trivial
  refine SafeEx.bind ((validateQuoteLiveness_ends (hread.grow hl'.trace hl'.rel)).mono
    (fun _ t₁ u₁ hl₁ _ => ?_) fun _ _ _ _ h => h)
  rw [hms]
  have hgood₁ := hgood.grow (hl'.trans hl₁).trace (hl'.trans hl₁).rel
  refine SafeEx.bind ((hsigns ▸ validateExpiryDeadline_ends hgood₁ (ReadClock.asked.grow hl₁.trace)).mono
    (fun _ t₂ u₂ hl₂ _ => ?_) fun _ _ _ _ h => h)
  refine SafeEx.ask fun t₃ u₃ hl₃ => ⟨trivial, fun i₃ _ v₃ hi₃ hp₃ => SafeEx.pure fun t₄ u₄ hl₄ => ?_⟩
  have hl₂₄ := hl₂.trans ((watch_asked hl₃ hp₃ trivial).trans hl₄)
  exact hgood₁.grow hl₂₄.trace hl₂₄.rel

/-- The two checks around a signature, and the store that follows. -/
lemma signFresh_ends {bound : UInt64}
    (hread : SnapshotRead D a .request slot.pair.symbol snap tr s)
    (hbuilds : Builds D.chainId schema slot.pair.direction snap.quote slot.inputToken
      slot.outputToken context bound) (hbound : secsToMillis bound ≠ none) :
    (watch D a).SafeEx (BuiltGood D a slot) (Ends D a schema slot)
      (signFresh D slot.pair snap slot.inputToken slot.outputToken schema context (some bound))
      tr s := by
  refine SafeEx.bind ((validateQuoteLiveness_ends hread).mono (fun _ t₁ u₁ hl₁ _ => ?_)
    fun _ _ _ _ h => h)
  refine SafeEx.ask fun t₂ u₂ hl₂ => ⟨trivial, fun i₂ before v₂ hi₂ hp₂ => ?_⟩
  have hl₁₂ := hl₁.trans (watch_asked hl₂ hp₂ trivial)
  refine SafeEx.bind ((validateQuoteExpiry_ends (hread.grow hl₁₂.trace hl₁₂.rel)
    .asked).mono (fun _ t₃ u₃ hl₃ _ => ?_) fun _ _ _ _ h => h)
  refine SafeEx.ask fun t₄ u₄ hl₄ => ⟨trivial, fun i₄ signed v₄ hi₄ hp₄ => ?_⟩
  have hl₁₄ := hl₁₂.trans (hl₃.trans (watch_asked hl₄ hp₄ trivial))
  cases signed with
  | error e =>
    exact SafeEx.throw fun t u hl => .unsigned (hread.grow (hl₁₄.trans hl).trace (hl₁₄.trans hl).rel)
      hbuilds (hl.trace.subset List.mem_concat_self)
  | ok signed =>
    obtain ⟨signature, signer⟩ := signed
    refine SafeEx.ask fun t₅ u₅ hl₅ => ⟨trivial, fun i₅ after v₅ hi₅ hp₅ => ?_⟩
    have hl₁₅ := hl₁₄.trans (watch_asked hl₅ hp₅ trivial)
    refine SafeEx.bind ((validateQuoteLiveness_ends (hread.grow hl₁₅.trace hl₁₅.rel)).mono
      (fun _ t₆ u₆ hl₆ _ => ?_) fun _ _ _ _ h => h)
    have hread₆ := hread.grow (hl₁₅.trans hl₆).trace (hl₁₅.trans hl₆).rel
    refine SafeEx.bind ((validateQuoteExpiry_ends hread₆
      (ReadClock.asked.grow hl₆.trace)).mono (fun _ t₇ u₇ hl₇ hlive => ?_) fun _ _ _ _ h => h)
    obtain ⟨own, hown⟩ := hlive
    have hread₇ := hread₆.grow hl₇.trace hl₇.rel
    have hrest : ∀ t u, (watch D a).Later t₇ u₇ t u →
        (watch D a).SafeEx (BuiltGood D a slot) (Ends D a schema slot) (do
          let validity ← Act.ofExcept (effectiveExpiryUnixMs snap.quote)
          pure ⟨⟨signer, context, signature⟩, validity⟩) t u := by
      intro t u hl
      refine SafeEx.bind (SafeEx.ofExcept fun t' u' hl' => ?_)
      rw [hown]
      exact SafeEx.pure fun t'' u'' hl'' =>
        ⟨snap, own, hread₇.grow (hl.trans (hl'.trans hl'')).trace (hl.trans (hl'.trans hl'')).rel, hown,
          .inl rfl⟩
    unfold reuseStore
    dsimp only
    split
    · exact SafeEx.bind (SafeEx.pure fun t u hl => hrest t u hl)
    · refine SafeEx.bind (SafeEx.ask fun t₈ u₈ hl₈ => ⟨hbound, fun i₈ _ v₈ hi₈ hp₈ => ?_⟩)
      have hl₈' := watch_asked hl₈ hp₈ hbound
      exact SafeEx.pure fun t u hl => hrest t u (hl₈'.trans hl)

/-- Without an earlier signature there is a fresh one. -/
lemma reuseOrSign_ends {bound : UInt64}
    (hread : SnapshotRead D a .request slot.pair.symbol snap tr s)
    (hsigns : schema.signsExpiry = true)
    (hbuilds : Builds D.chainId schema slot.pair.direction snap.quote slot.inputToken
      slot.outputToken context bound) :
    (watch D a).SafeEx (BuiltGood D a slot) (Ends D a schema slot)
      (reuseOrSign D slot.pair snap slot.inputToken slot.outputToken schema context (some bound))
      tr s := by
  obtain ⟨-, -, -, -, -, -, hn, -⟩ := id hbuilds
  obtain ⟨own, hown, -⟩ := expiryFromQuote_ok hn
  obtain ⟨ms, hms, hms'⟩ := secsToMillis_expiry hn hown
  have hstorable : secsToMillis bound ≠ none := by simp [hms]
  refine SafeEx.bind ((validateQuoteLiveness_ends hread).mono (fun _ t₁ u₁ hl₁ _ => ?_)
    fun _ _ _ _ h => h)
  refine SafeEx.ask fun t₂ u₂ hl₂ => ⟨trivial, fun i₂ now v₂ hi₂ hp₂ => ?_⟩
  have hl₁₂ := hl₁.trans (watch_asked hl₂ hp₂ trivial)
  split
  · next hnow =>
    refine SafeEx.throw fun t u hl => .preEpoch (ReadClock.asked.grow hl.trace) ?_
    have hrange := Int64.toInt_lt now
    unfold u64TryFrom at hnow
    split at hnow
    · cases hnow
    · omega
  · next secs hnow =>
    refine SafeEx.bind ((reuseLookup_ends .asked hnow).mono (fun found t₃ u₃ hl₃ hfound => ?_)
      fun _ _ _ _ h => h)
    have hl₁₃ := hl₁₂.trans hl₃
    cases found with
    | none => exact signFresh_ends (hread.grow hl₁₃.trace hl₁₃.rel) hbuilds hstorable
    | some previous =>
      obtain ⟨ms', t, hms'', hle, hon, hread', hmargin⟩ := hfound previous rfl
      have hread₃ := hread.grow hl₁₃.trace hl₁₃.rel
      refine returnReused_ends hread₃ hms'' ⟨snap, own, hread₃, hown, .inr ⟨?_, hon, t, hread', hmargin⟩⟩
        hsigns
      rw [UInt64.le_iff_toNat_le] at hle
      have hval := secsToMillis_some hms
      have hval' := secsToMillis_some hms''
      omega

/-- What is signed is computed from the quote, or the quote says why not. -/
lemma contextFromQuote_ends (hread : SnapshotRead D a .request slot.pair.symbol snap tr s)
    (hsigns : schema.signsExpiry = true) :
    (watch D a).SafeEx (fun r _ _ => ∃ bound, r.2 = some bound ∧
        Builds D.chainId schema slot.pair.direction snap.quote slot.inputToken slot.outputToken
          r.1 bound)
      (Ends D a schema slot)
      (contextFromQuote D slot.pair snap slot.inputToken slot.outputToken schema) tr s := by
  have hends : ∀ {e : AppError} {t u}, Unbuilt D schema slot snap.quote e →
      (watch D a).Later tr s t u → Cause D a schema slot t u e :=
    fun he hl => .unbuilt (hread.grow hl.trace hl.rel) he
  refine SafeEx.bind (SafeEx.ofExcept fun t₁ u₁ hl₁ => ?_)
  cases hpublish : publishTimeFromQuote snap.quote with
  | error e => exact hends (.publish hpublish) hl₁
  | ok publish =>
  refine SafeEx.bind (SafeEx.mono (Q := fun session _ _ =>
    SignedSession.fromQuote snap.quote = .ok session) (E := Ends D a schema slot) ?_
    (fun session t₂ u₂ hl₂ hsession => ?_) fun _ _ _ _ h => h)
  · unfold sessionFromQuote
    split
    · next session hsession => exact SafeEx.pure fun _ _ _ => hsession
    · next refusal hrefusal =>
      cases refusal with
      | missing => exact unavailable_ends (hends (.missingSession hrefusal) hl₁)
      | invalid why => exact unavailable_ends (hends (.invalidSession hrefusal) hl₁)
  have hl₁₂ := hl₁.trans hl₂
  refine SafeEx.bind (SafeEx.ofExcept fun t₃ u₃ hl₃ => ?_)
  cases hprice : priceBytes schema snap.quote slot.pair.direction with
  | error e => exact hends (.price hprice) (hl₁₂.trans hl₃)
  | ok price =>
  refine SafeEx.bind (SafeEx.ofExcept fun t₄ u₄ hl₄ => ?_)
  cases hexpiry : signedExpiry schema snap.quote with
  | error e => exact hends (.expiry hexpiry) (hl₁₂.trans (hl₃.trans hl₄))
  | ok expiry =>
  refine SafeEx.bind (SafeEx.ofExcept fun t₅ u₅ hl₅ => ?_)
  cases hcontext : buildContext D.chainId schema snap.quote price publish session slot.inputToken
      slot.outputToken expiry with
  | error e =>
    exact hends (.context hpublish hsession hprice hexpiry hcontext)
      (hl₁₂.trans (hl₃.trans (hl₄.trans hl₅)))
  | ok context =>
    rw [signedExpiry, if_pos hsigns] at hexpiry
    obtain ⟨bound, hbound, rfl⟩ := except_map_ok hexpiry
    exact SafeEx.pure fun _ _ _ =>
      ⟨bound, rfl, publish, session, price, hpublish, hsession, hprice, hbound, hcontext⟩

theorem buildResponse_ends (hread : SnapshotRead D a .request slot.pair.symbol snap tr s)
    (hsigns : schema.signsExpiry = true) :
    (watch D a).SafeEx (BuiltGood D a slot) (Ends D a schema slot)
      (buildResponseFromQuotePairBound D slot.pair snap slot.inputToken slot.outputToken schema)
      tr s := by
  refine SafeEx.bind ((validateQuoteLiveness_ends hread).mono (fun _ t₁ u₁ hl₁ _ => ?_)
    fun _ _ _ _ h => h)
  refine SafeEx.ask fun t₂ u₂ hl₂ => ⟨trivial, fun i₂ set v₂ hi₂ hp₂ => ?_⟩
  have hl₁₂ := hl₁.trans (watch_asked hl₂ hp₂ trivial)
  refine SafeEx.bind ((validateQuoteAddress_ends (hread.grow hl₁₂.trace hl₁₂.rel)
    .asked).mono (fun _ t₃ u₃ hl₃ _ => ?_)
    fun _ _ _ _ h => h)
  refine SafeEx.ask fun t₄ u₄ hl₄ => ⟨trivial, fun i₄ now v₄ hi₄ hp₄ => ?_⟩
  have hl₁₄ := hl₁₂.trans (hl₃.trans (watch_asked hl₄ hp₄ trivial))
  refine SafeEx.bind ((validateQuoteExpiry_ends (hread.grow hl₁₄.trace hl₁₄.rel)
    .asked).mono (fun _ t₅ u₅ hl₅ _ => ?_)
    fun _ _ _ _ h => h)
  have hl₁₅ := hl₁₄.trans hl₅
  refine SafeEx.bind ((contextFromQuote_ends (hread.grow hl₁₅.trace hl₁₅.rel) hsigns).mono
    (fun signed t₆ u₆ hl₆ hsigned => ?_) fun _ _ _ _ h => h)
  have hl₁₆ := hl₁₅.trans hl₆
  obtain ⟨bound, hbound, hbuilds⟩ := hsigned
  rw [hbound]
  exact reuseOrSign_ends (hread.grow hl₁₆.trace hl₁₆.rel) hsigns hbuilds

/-- The batch-final check of one built slot. `set`, `t` and `current` were read just
before. -/
theorem revalidateSlot_ends {built : BuiltSlot} {set : TokenSet} {t : Int64}
    {current : Map Symbol QuoteSnapshot} (hsigns : schema.signsExpiry = true)
    (hpair : built.pair = slot.pair)
    (hread : SnapshotRead D a .request slot.pair.symbol built.quote tr s)
    (hgood : BuiltGood D a slot built.response tr s) (hset : ReadSet .batchFinal set tr)
    (hclock : ReadClock .batchFinal t tr)
    (hcurrent : match current.lookup slot.pair.symbol with
      | some snap => Reread D a slot.pair.symbol built.response.validityExpiryUnixMs snap tr s
      | none => Uncached D a .batchFinal slot.pair.symbol tr s) :
    (watch D a).SafeEx (fun _ _ _ => True) (Ends D a schema slot)
      (revalidateSlot schema.tag schema.signsExpiry t current set.registry built) tr s := by
  unfold revalidateSlot
  rw [hpair]
  dsimp only
  split
  · next e he =>
    exact unavailable_ends (.remapped hset fun mapping hmapping => nomatch he.symm.trans hmapping)
  next mapping hmapping =>
  split
  · next hne =>
    refine unavailable_ends (.remapped hset fun mapping' hmapping' => ?_)
    obtain rfl := Except.ok.inj (hmapping.symm.trans hmapping')
    exact hne
  refine SafeEx.bind ((validateQuoteLiveness_ends hread).mono (fun _ t₁ u₁ hl₁ _ => ?_)
    fun _ _ _ _ h => h)
  refine SafeEx.bind ((validateExpiryDeadline_ends (hgood.grow hl₁.trace hl₁.rel)
    (hclock.grow hl₁.trace)).mono (fun _ t₂ u₂ hl₂ _ => ?_) fun _ _ _ _ h => h)
  have hl₁₂ := hl₁.trans hl₂
  split
  · next hnone =>
    rw [hnone] at hcurrent
    exact unavailable_ends (.uncached (hcurrent.grow hl₁₂.trace hl₁₂.rel))
  next snap hsome =>
  rw [hsome] at hcurrent
  have hsnap := hcurrent.snapshot
  refine SafeEx.bind ((validateQuoteLiveness_ends (hsnap.grow hl₁₂.trace hl₁₂.rel)).mono (fun _ t₃ u₃ hl₃ _ => ?_)
    fun _ _ _ _ h => h)
  have hl₁₃ := hl₁₂.trans hl₃
  refine SafeEx.bind ((validateQuoteAddress_ends (hsnap.grow hl₁₃.trace hl₁₃.rel)
    (hset.grow hl₁₃.trace)).mono (fun _ t₄ u₄ hl₄ _ => ?_) fun _ _ _ _ h => h)
  have hl₁₄ := hl₁₃.trans hl₄
  refine SafeEx.bind ((validateQuoteExpiry_ends (hsnap.grow hl₁₄.trace hl₁₄.rel)
    (hclock.grow hl₁₄.trace)).mono (fun _ t₅ u₅ hl₅ hlive => ?_) fun _ _ _ _ h => h)
  obtain ⟨bound, hbound⟩ := hlive
  have hl₁₅ := hl₁₄.trans hl₅
  rw [hsigns, hbound]
  dsimp only
  split
  · next hgt =>
    exact unavailable_ends (.outlived (hcurrent.grow hl₁₅.trace hl₁₅.rel) hbound
      (Int64.lt_iff_toInt_lt.mp hgt))
  · exact SafeEx.pure fun _ _ _ => trivial

end Builder

end OracleServer
