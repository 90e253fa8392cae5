import OracleServer.Provenance

/-! What the response builder guarantees about a response it returns, whatever happens
between its operations. One lemma per function of `Builder`, in its order. -/
namespace OracleServer

open Interaction Interaction.Contract

variable {D : Deployment} {a : List Symbol} {H : Assume} {α : Type}
  {tr tr' : Trace Server Op Op.Answer} {s s' : Server}

section Counters
variable {C : Contract Server Input Op Op.Answer} (hcount : ∀ m s, C.Pre (.count m) s)
include hcount

theorem unavailable_safe {Q : Post Server Op Op.Answer α} (reason : UnavailableReason)
    (endpoint : String) (symbol : Symbol) (phase : RefusalPhase) (detail : String) :
    C.SafeOk Q (unavailable reason endpoint symbol phase detail) tr s :=
  SafeOk.ask fun _ u _ => ⟨hcount _ u, fun _ _ _ _ _ => SafeOk.throw⟩

theorem sessionRefused_safe {Q : Post Server Op Op.Answer α} (endpoint : String)
    (symbol : Symbol) (refusal : SessionRefusal) :
    C.SafeOk Q (sessionRefused endpoint symbol refusal) tr s := by
  cases refusal with
  | missing => exact unavailable_safe hcount _ _ _ _ _
  | invalid why => exact unavailable_safe hcount _ _ _ _ _

theorem validateQuoteAddress_safe (q : Quote) (pair : ResolvedPair) (settlement : Address)
    (endpoint : String) (phase : RefusalPhase) :
    C.SafeOk (fun _ _ _ => q.base = pair.token ∧ q.quote = settlement)
      (validateQuoteAddress q pair settlement endpoint phase) tr s := by
  unfold validateQuoteAddress
  split
  · next h => exact SafeOk.pure fun _ _ _ => h
  · exact SafeOk.ask fun _ _ _ => ⟨hcount _ _, fun _ _ _ _ _ => unavailable_safe hcount _ _ _ _ _⟩

theorem validateExpiryDeadline_safe (expiry t : Int64) (endpoint : String) (symbol : Symbol)
    (signs : Bool) (phase : RefusalPhase) :
    C.SafeOk (fun _ _ _ => quoteIsLive expiry t signs = true)
      (validateExpiryDeadline expiry t endpoint symbol signs phase) tr s := by
  unfold validateExpiryDeadline
  split
  · next h => exact SafeOk.pure fun _ _ _ => h
  · exact unavailable_safe hcount _ _ _ _ _

theorem validateQuoteExpiry_safe (q : Quote) (t : Int64) (endpoint : String) (symbol : Symbol)
    (signs : Bool) (phase : RefusalPhase) :
    C.SafeOk (fun _ _ _ => ∃ effective, effectiveExpiryUnixMs q = .ok effective ∧
        quoteIsLive effective t signs = true)
      (validateQuoteExpiry q t endpoint symbol signs phase) tr s := by
  unfold validateQuoteExpiry
  split
  · exact unavailable_safe hcount _ _ _ _ _
  · next effective heff =>
    split
    · exact unavailable_safe hcount _ _ _ _ _
    · exact (validateExpiryDeadline_safe hcount _ _ _ _ _ _).mono fun _ _ _ _ h => ⟨effective, heff, h⟩

end Counters

section Checks
variable [RainFloat]

/-- The trace holds a check that found `g` live. -/
def CheckedLive (D : Deployment) (a : List Symbol) (H : Assume) (check : LiveCheck)
    (g : QuoteGeneration) (tr : Trace Server Op Op.Answer) (s : Server) : Prop :=
  ∃ s₀, (⟨s₀, .isLive check g, true⟩ : Entry Server Op Op.Answer) ∈ tr ∧ Sound D a H s₀ ∧
    s₀.journal <+: s.journal ∧ ClientState.live a s₀.journal g

theorem CheckedLive.later {check : LiveCheck} {g : QuoteGeneration}
    (h : CheckedLive D a H check g tr s) (hl : (rules D a H).Later tr s tr' s') :
    CheckedLive D a H check g tr' s' := by
  obtain ⟨s₀, hmem, hsound, hpre, hlive⟩ := h
  exact ⟨s₀, hl.trace.subset hmem, hsound, hpre.trans hl.rel, hlive⟩

theorem validateQuoteLiveness_safe (check : LiveCheck) {g : QuoteGeneration} (endpoint : String)
    (symbol : Symbol) (phase : RefusalPhase) (hg : g.key.1 = D.chainId) :
    (rules D a H).SafeOk (fun _ => CheckedLive D a H check g)
      (validateQuoteLiveness check g endpoint symbol phase) tr s := by
  refine SafeOk.ask fun t u hl => ⟨hg, fun i b v _ hp => ?_⟩
  obtain ⟨hb, rfl⟩ := Prod.mk.inj (Option.some.inj hp)
  cases b with
  | false => exact unavailable_safe (fun _ _ => trivial) _ _ _ _ _
  | true =>
    refine SafeOk.pure fun t' v' hl' => ?_
    refine ⟨u, hl'.trace.subset (by simp), hl.inv, hl'.rel, ?_⟩
    unfold ClientState.live
    rw [← hl.inv.journal]
    exact hb

end Checks

/-- A key names its schema, direction and tokens. -/
theorem reuseKey_inj {pair pair' : ResolvedPair} {x y x' y' : Address}
    {schema schema' : PairSchema}
    (h : reuseKey pair x y schema = reuseKey pair' x' y' schema') :
    schema = schema' ∧ pair.direction = pair'.direction ∧ x = x' ∧ y = y' := by
  obtain ⟨htag, -, hdir, hx, hy⟩ := ReuseKey.mk.inj h
  exact ⟨PairSchema.tag_injective htag, PriceDirection.asStr_injective hdir, hx, hy⟩

section Responses
variable [RainFloat]

/-- Where a built response comes from. `q` is the frame its context was signed from, and
`context`, `bound` are what the builder computes from the request's own snapshot. -/
structure BuiltFrom (D : Deployment) (a : List Symbol) (H : Assume) (schema : PairSchema)
    (pair : ResolvedPair) (x y : Address) (snap : QuoteSnapshot) (b : BuiltResponse)
    (tr : Trace Server Op Op.Answer) (s : Server) (q : Quote) (context : List B256)
    (expiry bound : UInt64) : Prop where
  signed : SignedFrom D H schema pair.direction x y q b.response.context expiry
  member : InGeneration a s.journal snap.generation q
  own : SignedFrom D H schema pair.direction x y snap.quote context bound
  same : sameStatement b.response.context context = true
  bounded : expiry ≤ bound
  origin : (q = snap.quote ∧ effectiveExpiryUnixMs snap.quote = .ok b.validityExpiryUnixMs) ∨
    (secsToMillis expiry = some b.validityExpiryUnixMs ∧ ∃ s₀ stored,
      (⟨s₀, .reuseGet (reuseKey pair x y schema), some stored⟩ : Entry Server Op Op.Answer) ∈ tr ∧
      stored.response = b.response)

def Built (D : Deployment) (a : List Symbol) (H : Assume) (schema : PairSchema)
    (pair : ResolvedPair) (x y : Address) (snap : QuoteSnapshot) (b : BuiltResponse)
    (tr : Trace Server Op Op.Answer) (s : Server) : Prop :=
  ∃ q context expiry bound, BuiltFrom D a H schema pair x y snap b tr s q context expiry bound

variable {schema : PairSchema} {pair : ResolvedPair} {x y : Address} {snap : QuoteSnapshot}

theorem Built.later {b : BuiltResponse} (h : Built D a H schema pair x y snap b tr s)
    (hl : (rules D a H).Later tr s tr' s') : Built D a H schema pair x y snap b tr' s' := by
  obtain ⟨q, context, expiry, bound, h⟩ := h
  refine ⟨q, context, expiry, bound, h.signed, h.member.mono hl.rel, h.own, h.same, h.bounded, ?_⟩
  rcases h.origin with hfresh | ⟨hsecs, s₀, stored, hmem, hstored⟩
  · exact .inl hfresh
  · exact .inr ⟨hsecs, s₀, stored, hl.trace.subset hmem, hstored⟩

/-- The stored response a lookup hands back. -/
def Offered (D : Deployment) (a : List Symbol) (H : Assume) (key : ReuseKey)
    (g : QuoteGeneration) (context : List B256) (expiry : UInt64) (r : ReusedResponse)
    (tr : Trace Server Op Op.Answer) (s : Server) : Prop :=
  ∃ s₀ stored, (⟨s₀, .reuseGet key, some stored⟩ : Entry Server Op Op.Answer) ∈ tr ∧
    r = ⟨stored.expiryUnixSecs, stored.response⟩ ∧ Provenance D a H s.journal key stored ∧
    stored.generation = g ∧ sameStatement stored.response.context context = true ∧
    stored.expiryUnixSecs ≤ expiry

theorem Offered.later {key : ReuseKey} {g : QuoteGeneration} {context : List B256}
    {expiry : UInt64} {r : ReusedResponse} (h : Offered D a H key g context expiry r tr s)
    (hl : (rules D a H).Later tr s tr' s') : Offered D a H key g context expiry r tr' s' := by
  obtain ⟨s₀, stored, hmem, hr, hprov, hrest⟩ := h
  exact ⟨s₀, stored, hl.trace.subset hmem, hr, hprov.mono hl.rel, hrest⟩

theorem reuseLookup_safe {key : ReuseKey} {context : List B256} {expiry now : UInt64}
    {g : QuoteGeneration} (hg : g.key.1 = D.chainId) :
    (rules D a H).SafeOk (fun r t u => ∀ previous, r = some previous →
        Offered D a H key g context expiry previous t u)
      (reuseLookup D key context expiry now g) tr s := by
  have hnone : ∀ {t u}, (rules D a H).SafeOk (ε := AppError) (fun r t u => ∀ previous,
      r = some previous → Offered D a H key g context expiry previous t u) (pure none) t u := by
    intro t u
    refine SafeOk.pure fun _ _ _ previous hp => ?_
    cases hp
  unfold reuseLookup
  split
  · exact hnone
  refine SafeOk.ask fun t u hl => ⟨trivial, fun i found v _ hp => ?_⟩
  obtain ⟨hfound, rfl⟩ := Prod.mk.inj (Option.some.inj hp)
  cases found with
  | none => exact hnone
  | some stored =>
    dsimp only
    split
    · exact hnone
    next hsame =>
    have hgen : stored.generation = g := not_not.mp hsame
    have hprov : Provenance D a H u.journal key stored := hl.inv.reuse key stored hfound
    refine SafeOk.ask fun t' u' hl' => ⟨hgen ▸ hg, fun i' live v' _ hp' => ?_⟩
    obtain ⟨-, rfl⟩ := Prod.mk.inj (Option.some.inj hp')
    cases live with
    | false => exact hnone
    | true =>
      refine SafeOk.pure fun t'' u'' hl'' previous hprev => ?_
      obtain ⟨hr, hstmt, hle, -⟩ := reusable_some hprev
      refine ⟨u, stored, hl''.trace.subset ?_, hr, hprov.mono (hl'.rel.trans hl''.rel), hgen,
        hstmt, hle⟩
      simp [hl'.trace.subset (List.mem_append_right _ (List.mem_singleton_self _))]

theorem reuseStore_safe {key : ReuseKey} {expiry : UInt64} {response : OracleResponse}
    {g : QuoteGeneration} (h : ∀ t u, (rules D a H).Later tr s t u →
      Provenance D a H u.journal key ⟨expiry, response, g⟩) :
    (rules D a H).SafeOk (fun _ _ _ => True) (reuseStore D key (some expiry) response g) tr s := by
  unfold reuseStore
  dsimp only
  split
  · exact SafeOk.pure fun _ _ _ => trivial
  · exact SafeOk.ask fun t u hl => ⟨h t u hl, fun _ _ _ _ _ => SafeOk.pure fun _ _ _ => trivial⟩

theorem returnReused_safe {context : List B256} {bound : UInt64} {previous : ReusedResponse}
    (hg : snap.generation.key.1 = D.chainId)
    (hown : SignedFrom D H schema pair.direction x y snap.quote context bound)
    (hoffer : Offered D a H (reuseKey pair x y schema) snap.generation context bound previous tr s) :
    (rules D a H).SafeOk (Built D a H schema pair x y snap)
      (returnReused pair snap schema previous) tr s := by
  refine SafeOk.ask fun t u hl => ⟨trivial, fun i now v _ hp => ?_⟩
  obtain ⟨-, rfl⟩ := Prod.mk.inj (Option.some.inj hp)
  replace hoffer := hoffer.later (hl.trans ⟨List.prefix_append _ [⟨u, _, now⟩], List.prefix_rfl, hl.inv⟩)
  refine SafeOk.bind ((validateQuoteLiveness_safe _ _ _ _ hg).mono fun _ t₁ u₁ hl₁ _ => ?_)
  replace hoffer := hoffer.later hl₁
  split
  · exact SafeOk.throw
  next expiryMs hms =>
  refine SafeOk.bind ((validateExpiryDeadline_safe (fun _ _ => trivial) _ _ _ _ _ _).mono fun _ t₂ u₂ hl₂ _ => ?_)
  replace hoffer := hoffer.later hl₂
  refine SafeOk.ask fun t₃ u₃ hl₃ => ⟨trivial, fun i' _ v' hi' hp' => ?_⟩
  have hcount : (rules D a H).Later t₃ u₃ (t₃ ++ [⟨u₃, .count .signatureReuse, ()⟩]) v' :=
    Later.ask hi' hl₃.inv trivial hp'
  replace hoffer := hoffer.later (hl₃.trans hcount)
  refine SafeOk.pure fun t₄ u₄ hl₄ => ?_
  obtain ⟨s₀, stored, hmem, hprev, hprov, hgen, hsame, hle⟩ := hoffer.later hl₄
  obtain ⟨schema', pair', x', y', q, hkey, -, -, hin, hfrom⟩ := hprov
  obtain ⟨rfl, hdir, rfl, rfl⟩ := reuseKey_inj hkey
  subst hprev
  exact ⟨q, context, stored.expiryUnixSecs, bound, hdir ▸ hfrom, hgen ▸ hin, hown, hsame, hle,
    .inr ⟨hms, s₀, stored, hmem, rfl⟩⟩

/-- A fresh response is signed from the snapshot itself, and stored as such. -/
theorem signFresh_safe {context : List B256} {bound : UInt64}
    (hsigns : schema.signsExpiry = true)
    (hg : snap.generation.key = (D.chainId, pair.symbol))
    (hin : InGeneration a s.journal snap.generation snap.quote)
    (hown : SignedFrom D H schema pair.direction x y snap.quote context bound) :
    (rules D a H).SafeOk (Built D a H schema pair x y snap)
      (signFresh D pair snap x y schema context (some bound)) tr s := by
  have hchain : snap.generation.key.1 = D.chainId := by rw [hg]
  refine SafeOk.bind ((validateQuoteLiveness_safe _ _ _ _ hchain).mono fun _ t₁ u₁ hl₁ _ => ?_)
  refine SafeOk.ask fun t₂ u₂ hl₂ => ⟨trivial, fun i₂ before v₂ _ hp₂ => ?_⟩
  obtain ⟨-, rfl⟩ := Prod.mk.inj (Option.some.inj hp₂)
  refine SafeOk.bind ((validateQuoteExpiry_safe (fun _ _ => trivial) _ _ _ _ _ _).mono fun _ t₃ u₃ hl₃ _ => ?_)
  refine SafeOk.ask fun t₄ u₄ hl₄ => ⟨trivial, fun i₄ signed v₄ _ hp₄ => ?_⟩
  obtain ⟨-, rfl⟩ := Prod.mk.inj (Option.some.inj hp₄)
  cases signed with
  | error e => exact SafeOk.throw
  | ok signed =>
    obtain ⟨signature, signer⟩ := signed
    refine SafeOk.ask fun t₅ u₅ hl₅ => ⟨trivial, fun i₅ after v₅ _ hp₅ => ?_⟩
    obtain ⟨-, rfl⟩ := Prod.mk.inj (Option.some.inj hp₅)
    refine SafeOk.bind ((validateQuoteLiveness_safe _ _ _ _ hchain).mono fun _ t₆ u₆ hl₆ _ => ?_)
    refine SafeOk.bind ((validateQuoteExpiry_safe (fun _ _ => trivial) _ _ _ _ _ _).mono fun _ t₇ u₇ hl₇ _ => ?_)
    have hin₇ : InGeneration a u₇.journal snap.generation snap.quote :=
      hin.mono (hl₁.rel.trans (hl₂.rel.trans (hl₃.rel.trans (hl₄.rel.trans (hl₅.rel.trans
        (hl₆.rel.trans hl₇.rel))))))
    have hbuilt : ∀ t u, u₇.journal <+: u.journal → ∀ validity,
        effectiveExpiryUnixMs snap.quote = .ok validity →
        Built D a H schema pair x y snap ⟨⟨signer, context, signature⟩, validity⟩ t u := by
      intro t u hpre validity hv
      exact ⟨snap.quote, context, bound, bound, hown, hin₇.mono hpre, hown,
        sameStatement_refl context, UInt64.le_refl _, .inl ⟨rfl, hv⟩⟩
    refine SafeOk.bind (SafeOk.mono (reuseStore_safe fun t u hl => ?_) fun _ t₈ u₈ hl₈ _ => ?_)
    · exact ⟨schema, pair, x, y, snap.quote, rfl, hsigns, hg, hin₇.mono hl.rel, hown⟩
    · refine SafeOk.bind (SafeOk.ofExcept fun validity t₉ u₉ hv hl₉ => ?_)
      exact SafeOk.pure fun t u hl =>
        hbuilt t u (hl₈.rel.trans (hl₉.rel.trans hl.rel)) validity hv

theorem reuseOrSign_safe {context : List B256} {bound : UInt64}
    (hsigns : schema.signsExpiry = true)
    (hg : snap.generation.key = (D.chainId, pair.symbol))
    (hin : InGeneration a s.journal snap.generation snap.quote)
    (hown : SignedFrom D H schema pair.direction x y snap.quote context bound) :
    (rules D a H).SafeOk (Built D a H schema pair x y snap)
      (reuseOrSign D pair snap x y schema context (some bound)) tr s := by
  have hchain : snap.generation.key.1 = D.chainId := by rw [hg]
  refine SafeOk.bind ((validateQuoteLiveness_safe _ _ _ _ hchain).mono fun _ t₁ u₁ hl₁ _ => ?_)
  refine SafeOk.ask fun t₂ u₂ hl₂ => ⟨trivial, fun i₂ now v₂ _ hp₂ => ?_⟩
  obtain ⟨-, rfl⟩ := Prod.mk.inj (Option.some.inj hp₂)
  split
  · exact SafeOk.throw
  · refine SafeOk.bind ((reuseLookup_safe hchain).mono fun found t₃ u₃ hl₃ hfound => ?_)
    cases found with
    | some previous => exact returnReused_safe hchain hown (hfound previous rfl)
    | none =>
      have hpre : s.journal <+: u₃.journal := hl₁.rel.trans (hl₂.rel.trans hl₃.rel)
      exact signFresh_safe hsigns hg (hin.mono hpre) hown

/-- The context is computed from the quote alone. -/
theorem contextFromQuote_safe {C : Contract Server Input Op Op.Answer}
    (hcount : ∀ m s, C.Pre (.count m) s) (hsigns : schema.signsExpiry = true) :
    C.SafeOk (fun r _ _ => ∃ expiry, r.2 = some expiry ∧
        Builds D.chainId schema pair.direction snap.quote x y r.1 expiry)
      (contextFromQuote D pair snap x y schema) tr s := by
  refine SafeOk.bind (SafeOk.ofExcept fun publishTime _ _ hpublish _ => ?_)
  refine SafeOk.bind (SafeOk.mono (Q := fun session _ _ =>
    SignedSession.fromQuote snap.quote = .ok session) ?_ fun session _ _ _ hsession => ?_)
  · unfold sessionFromQuote
    split
    · next session hsession => exact SafeOk.pure fun _ _ _ => hsession
    · exact sessionRefused_safe hcount _ _ _
  refine SafeOk.bind (SafeOk.ofExcept fun price _ _ hprice _ => ?_)
  refine SafeOk.bind (SafeOk.ofExcept fun expiry _ _ hexpiry _ => ?_)
  rw [signedExpiry, if_pos hsigns] at hexpiry
  obtain ⟨e, he, rfl⟩ := except_map_ok hexpiry
  refine SafeOk.bind (SafeOk.ofExcept fun context _ _ hcontext _ => ?_)
  exact SafeOk.pure fun _ _ _ =>
    ⟨e, rfl, publishTime, session, price, hpublish, hsession, hprice, he, hcontext⟩

/-- The builder: whatever it returns, signed now or earlier, comes from one frame of the
snapshot's generation and says what the snapshot says. -/
theorem buildResponse_safe (hsigns : schema.signsExpiry = true)
    (hg : snap.generation.key = (D.chainId, pair.symbol))
    (htoken : pair.token = tokenOf pair.direction x y)
    (hin : InGeneration a s.journal snap.generation snap.quote) :
    (rules D a H).SafeOk (Built D a H schema pair x y snap)
      (buildResponseFromQuotePairBound D pair snap x y schema) tr s := by
  have hchain : snap.generation.key.1 = D.chainId := by rw [hg]
  refine SafeOk.bind ((validateQuoteLiveness_safe _ _ _ _ hchain).mono fun _ t₁ u₁ hl₁ _ => ?_)
  refine SafeOk.ask fun t₂ u₂ hl₂ => ⟨trivial, fun i₂ set v₂ _ hp₂ => ?_⟩
  obtain ⟨hset, rfl⟩ := Prod.mk.inj (Option.some.inj hp₂)
  have hsets : H.sets set := hset ▸ hl₂.inv.sets
  refine SafeOk.bind ((validateQuoteAddress_safe (fun _ _ => trivial) _ _ _ _ _).mono fun _ t₃ u₃ hl₃ haddr => ?_)
  refine SafeOk.ask fun t₄ u₄ hl₄ => ⟨trivial, fun i₄ now v₄ hi₄ hp₄ => ?_⟩
  obtain ⟨hnow, rfl⟩ := Prod.mk.inj (Option.some.inj hp₄)
  have hclock : H.clock now := hnow ▸ hi₄
  refine SafeOk.bind ((validateQuoteExpiry_safe (fun _ _ => trivial) _ _ _ _ _ _).mono fun _ t₅ u₅ hl₅ hlive => ?_)
  obtain ⟨effective, heffective, hlive⟩ := hlive
  refine SafeOk.bind ((contextFromQuote_safe (fun _ _ => trivial) hsigns).mono fun signed t₆ u₆ hl₆ hsigned => ?_)
  obtain ⟨bound, hbound, hbuilds⟩ := hsigned
  have hown : SignedFrom D H schema pair.direction x y snap.quote signed.1 bound :=
    ⟨hbuilds, haddr.1.trans htoken, ⟨set, hsets, haddr.2⟩,
      ⟨effective, now, heffective, hclock, hsigns ▸ hlive⟩⟩
  have hpre : s.journal <+: u₆.journal :=
    hl₁.rel.trans (hl₂.rel.trans (hl₃.rel.trans (hl₄.rel.trans (hl₅.rel.trans hl₆.rel))))
  rw [hbound]
  exact reuseOrSign_safe hsigns hg (hin.mono hpre) hown

end Responses

end OracleServer
