import OracleServer.Lib.Replay
import OracleServer.Provenance

/-! What the recorded answers of a builder that returned say of the response it returned.
One lemma per function of `Builder`, in its order. -/
namespace OracleServer

open Interaction

variable {D : Deployment} {α : Type} {tr : Trace Server Op Op.Answer}

section Checks

lemma unavailable_ran {reason : UnavailableReason} {endpoint : String} {symbol : Symbol}
    {phase : RefusalPhase} {detail : String} {a : α} :
    ¬ (unavailable reason endpoint symbol phase detail : Act α).run.Ran tr (.ok a) := by
  intro h
  obtain ⟨s, u, rest, rfl, hthrow⟩ := Prog.Ran.askEx_inv h
  cases (Prog.Ran.ret_inv hthrow).2

lemma validateQuoteLiveness_ran {check : LiveCheck} {g : QuoteGeneration} {endpoint : String}
    {symbol : Symbol} {phase : RefusalPhase} {u : Unit}
    (h : (validateQuoteLiveness check g endpoint symbol phase).run.Ran tr (.ok u)) :
    ∃ s, tr = [⟨s, .isLive check g, true⟩] := by
  obtain ⟨s, live, rest, rfl, hrest⟩ := Prog.Ran.askEx_inv h
  cases live with
  | false => exact absurd hrest unavailable_ran
  | true =>
    obtain ⟨rfl, -⟩ := Prog.Ran.ret_inv hrest
    exact ⟨s, rfl⟩

lemma validateQuoteAddress_ran {q : Quote} {pair : ResolvedPair} {settlement : Address}
    {endpoint : String} {phase : RefusalPhase} {u : Unit}
    (h : (validateQuoteAddress q pair settlement endpoint phase).run.Ran tr (.ok u)) : tr = [] := by
  unfold validateQuoteAddress at h
  split at h
  · exact (Prog.Ran.ret_inv h).1
  · obtain ⟨s, c, rest, rfl, hrest⟩ := Prog.Ran.askEx_inv h
    exact absurd hrest unavailable_ran

lemma validateExpiryDeadline_ran {expiry t : Int64} {endpoint : String} {symbol : Symbol}
    {signs : Bool} {phase : RefusalPhase} {u : Unit}
    (h : (validateExpiryDeadline expiry t endpoint symbol signs phase).run.Ran tr (.ok u)) :
    tr = [] ∧ quoteIsLive expiry t signs = true := by
  unfold validateExpiryDeadline at h
  split at h
  · next hlive => exact ⟨(Prog.Ran.ret_inv h).1, hlive⟩
  · exact absurd h unavailable_ran

lemma validateQuoteExpiry_ran {q : Quote} {t : Int64} {endpoint : String} {symbol : Symbol}
    {signs : Bool} {phase : RefusalPhase} {u : Unit}
    (h : (validateQuoteExpiry q t endpoint symbol signs phase).run.Ran tr (.ok u)) :
    tr = [] ∧ ∃ effective, effectiveExpiryUnixMs q = .ok effective ∧
      quoteIsLive effective t signs = true := by
  unfold validateQuoteExpiry at h
  split at h
  · exact absurd h unavailable_ran
  · next effective heffective =>
    split at h
    · exact absurd h unavailable_ran
    · obtain ⟨htr, hlive⟩ := validateExpiryDeadline_ran h
      exact ⟨htr, effective, heffective, hlive⟩

end Checks

/-- Every check of `ReuseCache::lookup` passes for `stored`, its liveness apart. -/
def MayReuse (D : Deployment) (g : QuoteGeneration) (context : List B256)
    (expiry nowSecs : UInt64) (stored : Stored) : Prop :=
  stored.generation = g ∧
    (stored.reusable context expiry nowSecs D.minRemainingSecs).isSome = true

instance (D : Deployment) (g : QuoteGeneration) (context : List B256) (expiry nowSecs : UInt64)
    (stored : Stored) : Decidable (MayReuse D g context expiry nowSecs stored) :=
  inferInstanceAs (Decidable (_ ∧ _))

section Build
variable {pair : ResolvedPair} {snap : QuoteSnapshot} {x y : Address} {schema : PairSchema}
  {context : List B256} {expiry n : UInt64} {b : BuiltResponse}

/-- A lookup that is made hands back what it may, unless it found the token dead. -/
lemma reuseLookup_ran {key : ReuseKey} {g : QuoteGeneration} {r : Option ReusedResponse}
    (h : (reuseLookup D key context expiry n g).run.Ran tr (.ok r)) :
    D.reuseEnabled = false ∧ r = none ∧ tr = [] ∨
      D.reuseEnabled = true ∧ ∃ s found rest, tr = ⟨s, .reuseGet key, found⟩ :: rest ∧
        match r with
        | some previous => ∃ stored, found = some stored ∧ MayReuse D g context expiry n stored ∧
          previous.response = stored.response
        | none => ∀ stored, found = some stored → MayReuse D g context expiry n stored →
          ∃ s', rest = [⟨s', .isLive .stored g, false⟩] := by
  unfold reuseLookup at h
  split at h
  · next hoff =>
    obtain ⟨rfl, hr⟩ := Prog.Ran.ret_inv h
    exact .inl ⟨by simpa using hoff, (Except.ok.inj hr).symm, rfl⟩
  next hon =>
  refine .inr ⟨by simpa using hon, ?_⟩
  obtain ⟨s, found, rest, rfl, hrest⟩ := Prog.Ran.askEx_inv h
  refine ⟨s, found, rest, rfl, ?_⟩
  cases found with
  | none =>
    obtain ⟨-, hr⟩ := Prog.Ran.ret_inv hrest
    obtain rfl := Except.ok.inj hr
    exact fun stored hfound => nomatch hfound
  | some stored =>
    dsimp only at hrest
    split at hrest
    · next hother =>
      obtain ⟨-, hr⟩ := Prog.Ran.ret_inv hrest
      obtain rfl := Except.ok.inj hr
      intro stored' hfound hmay
      obtain rfl := Option.some.inj hfound
      exact absurd hmay.1 hother
    next hsame =>
    have hgen : stored.generation = g := not_not.mp hsame
    obtain ⟨s', live, rest', rfl, hret⟩ := Prog.Ran.askEx_inv hrest
    cases live with
    | false =>
      obtain ⟨rfl, hr⟩ := Prog.Ran.ret_inv hret
      obtain rfl := Except.ok.inj hr
      exact fun _ _ _ => ⟨s', by rw [hgen]⟩
    | true =>
      obtain ⟨rfl, hr⟩ := Prog.Ran.ret_inv hret
      have hreusable : stored.reusable context expiry n D.minRemainingSecs = r := Except.ok.inj hr
      cases r with
      | none =>
        intro stored' hfound hmay
        obtain rfl := Option.some.inj hfound
        rw [MayReuse, hreusable] at hmay
        exact absurd hmay.2 Bool.false_ne_true
      | some previous =>
        obtain ⟨rfl, -⟩ := reusable_some hreusable
        exact ⟨stored, rfl, ⟨hgen, by rw [hreusable]; rfl⟩, rfl⟩

lemma returnReused_ran {previous : ReusedResponse}
    (h : (returnReused pair snap schema previous).run.Ran tr (.ok b)) :
    b.response = previous.response := by
  obtain ⟨s, now, rest, rfl, h₁⟩ := Prog.Ran.askEx_inv h
  obtain ⟨_, t₁, t₂, rfl, -, h₂⟩ := Prog.Ran.bindOk_inv h₁
  split at h₂
  · cases (Prog.Ran.ret_inv h₂).2
  obtain ⟨_, t₃, t₄, rfl, -, h₃⟩ := Prog.Ran.bindOk_inv h₂
  obtain ⟨s', c, rest', rfl, hret⟩ := Prog.Ran.askEx_inv h₃
  obtain ⟨-, hb⟩ := Prog.Ran.ret_inv hret
  obtain rfl := Except.ok.inj hb
  rfl

lemma signFresh_ran {bound : Option UInt64}
    (h : (signFresh D pair snap x y schema context bound).run.Ran tr (.ok b)) :
    b.response.context = context ∧
      ∃ s rest, tr = ⟨s, .isLive (.own .preSign) snap.generation, true⟩ :: rest := by
  obtain ⟨_, t₁, t₂, rfl, hlive, h₁⟩ := Prog.Ran.bindOk_inv h
  obtain ⟨s, rfl⟩ := validateQuoteLiveness_ran hlive
  refine ⟨?_, s, t₂, rfl⟩
  obtain ⟨s₂, before, rest₂, rfl, h₂⟩ := Prog.Ran.askEx_inv h₁
  obtain ⟨_, t₃, t₄, rfl, -, h₃⟩ := Prog.Ran.bindOk_inv h₂
  obtain ⟨s₄, signed, rest₄, rfl, h₄⟩ := Prog.Ran.askEx_inv h₃
  cases signed with
  | error e => cases (Prog.Ran.ret_inv h₄).2
  | ok signed =>
    obtain ⟨s₅, after, rest₅, rfl, h₅⟩ := Prog.Ran.askEx_inv h₄
    obtain ⟨_, t₆, t₇, rfl, -, h₆⟩ := Prog.Ran.bindOk_inv h₅
    obtain ⟨_, t₈, t₉, rfl, -, h₇⟩ := Prog.Ran.bindOk_inv h₆
    obtain ⟨_, u₁, u₂, rfl, -, h₈⟩ := Prog.Ran.bindOk_inv h₇
    obtain ⟨validity, u₃, u₄, rfl, -, hret⟩ := Prog.Ran.bindOk_inv h₈
    obtain ⟨-, hb⟩ := Prog.Ran.ret_inv hret
    obtain rfl := Except.ok.inj hb
    rfl

/-- How a response was come by: fresh with reuse off; or from the entry that the lookup
found, if it may be handed back; or fresh, when it may not or its token was dead. -/
def HandedOut (D : Deployment) (key : ReuseKey) (g : QuoteGeneration) (context : List B256)
    (expiry n : UInt64) (response : OracleResponse) (tr : Trace Server Op Op.Answer) : Prop :=
  D.reuseEnabled = false ∧ response.context = context ∨
    D.reuseEnabled = true ∧ ∃ s found rest, tr = ⟨s, .reuseGet key, found⟩ :: rest ∧
      ((∃ stored, found = some stored ∧ MayReuse D g context expiry n stored ∧
          response = stored.response) ∨
        response.context = context ∧ ∀ stored, found = some stored →
          MayReuse D g context expiry n stored → ∃ s₁ s₂ rest', rest =
            ⟨s₁, .isLive .stored g, false⟩ :: ⟨s₂, .isLive (.own .preSign) g, true⟩ :: rest')

lemma reuseOrSign_ran
    (h : (reuseOrSign D pair snap x y schema context (some expiry)).run.Ran tr (.ok b)) :
    ∃ s₁ s₂ now n rest, tr = ⟨s₁, .isLive (.own .preSign) snap.generation, true⟩ ::
        ⟨s₂, .nowUnixMs .preSign, now⟩ :: rest ∧ u64TryFrom (now.toInt / 1000) = some n ∧
      HandedOut D (reuseKey pair x y schema) snap.generation context expiry n b.response rest := by
  obtain ⟨_, t₁, t₂, rfl, hlive, h₁⟩ := Prog.Ran.bindOk_inv h
  obtain ⟨s₁, rfl⟩ := validateQuoteLiveness_ran hlive
  obtain ⟨s₂, now, rest, rfl, h₂⟩ := Prog.Ran.askEx_inv h₁
  split at h₂
  · cases (Prog.Ran.ret_inv h₂).2
  next n hn =>
  refine ⟨s₁, s₂, now, n, rest, rfl, hn, ?_⟩
  obtain ⟨found, t₃, t₄, rfl, hlookup, h₃⟩ := Prog.Ran.bindOk_inv h₂
  rcases reuseLookup_ran hlookup with ⟨hoff, rfl, rfl⟩ | ⟨hon, s, stored?, rest, rfl, hfound⟩
  · exact .inl ⟨hoff, (signFresh_ran h₃).1⟩
  refine .inr ⟨hon, s, stored?, rest ++ t₄, rfl, ?_⟩
  cases found with
  | some previous =>
    obtain ⟨stored, rfl, hmay, hresponse⟩ := hfound
    exact .inl ⟨stored, rfl, hmay, (returnReused_ran h₃).trans hresponse⟩
  | none =>
    obtain ⟨hcontext, s₅, rest₅, rfl⟩ := signFresh_ran h₃
    refine .inr ⟨hcontext, fun stored hstored hmay => ?_⟩
    obtain ⟨s₄, rfl⟩ := hfound stored hstored hmay
    exact ⟨s₄, s₅, rest₅, rfl⟩

variable [RainFloat]

/-- The context is computed from the quote alone. -/
lemma contextFromQuote_ran {signed : List B256 × Option UInt64} (hsigns : schema.signsExpiry = true)
    (h : (contextFromQuote D pair snap x y schema).run.Ran tr (.ok signed)) :
    tr = [] ∧ ∃ expiry, signed.2 = some expiry ∧
      Builds D.chainId schema pair.direction snap.quote x y signed.1 expiry := by
  obtain ⟨publish, t₁, t₂, rfl, h₁, hrest₁⟩ := Prog.Ran.bindOk_inv h
  obtain ⟨rfl, hpublish⟩ := Prog.Ran.ret_inv h₁
  obtain ⟨session, t₃, t₄, rfl, h₂, hrest₂⟩ := Prog.Ran.bindOk_inv hrest₁
  unfold sessionFromQuote at h₂
  split at h₂
  case h_2 refusal _ =>
    cases refusal with
    | missing => exact absurd h₂ unavailable_ran
    | invalid why => exact absurd h₂ unavailable_ran
  case h_1 session' hsession =>
  obtain ⟨rfl, hsame⟩ := Prog.Ran.ret_inv h₂
  obtain rfl := Except.ok.inj hsame
  obtain ⟨price, t₅, t₆, rfl, h₃, hrest₃⟩ := Prog.Ran.bindOk_inv hrest₂
  obtain ⟨rfl, hprice⟩ := Prog.Ran.ret_inv h₃
  obtain ⟨bound, t₇, t₈, rfl, h₄, hrest₄⟩ := Prog.Ran.bindOk_inv hrest₃
  obtain ⟨rfl, hbound⟩ := Prog.Ran.ret_inv h₄
  obtain ⟨context, t₉, t₁₀, rfl, h₅, hret⟩ := Prog.Ran.bindOk_inv hrest₄
  obtain ⟨rfl, hcontext⟩ := Prog.Ran.ret_inv h₅
  obtain ⟨rfl, hsigned⟩ := Prog.Ran.ret_inv hret
  obtain rfl := Except.ok.inj hsigned
  rw [signedExpiry, if_pos hsigns] at hbound
  obtain ⟨expiry, hexpiry, rfl⟩ := except_map_ok hbound
  exact ⟨rfl, expiry, rfl, publish, session', price, hpublish, hsession, hprice, hexpiry, hcontext⟩

variable (D pair snap x y schema) in
/-- The build up to its context: the checks of admission, and then what the quote alone says. -/
def admittedContext : Act (List B256 × Option UInt64) := do
  validateQuoteLiveness (.own .admission) snap.generation schema.tag pair.symbol .admission
  let set ← Act.ask (.tokens .admission)
  validateQuoteAddress snap.quote pair set.registry.quoteToken schema.tag .admission
  let now ← Act.ask (.nowUnixMs .admission)
  validateQuoteExpiry snap.quote now schema.tag pair.symbol schema.signsExpiry .admission
  contextFromQuote D pair snap x y schema

/-- From there on the build only looks for a signature of that context. -/
theorem buildResponse_eq : buildResponseFromQuotePairBound D pair snap x y schema =
    admittedContext D pair snap x y schema >>= fun signed =>
      reuseOrSign D pair snap x y schema signed.1 signed.2 := by
  simp only [admittedContext, bindEx_assoc]
  rfl

lemma admittedContext_ran {signed : List B256 × Option UInt64} (hsigns : schema.signsExpiry = true)
    (h : (admittedContext D pair snap x y schema).run.Ran tr (.ok signed)) :
    ∃ s₁ s₂ set s₃ now effective expiry,
      tr = [⟨s₁, .isLive (.own .admission) snap.generation, true⟩, ⟨s₂, .tokens .admission, set⟩,
        ⟨s₃, .nowUnixMs .admission, now⟩] ∧
      effectiveExpiryUnixMs snap.quote = .ok effective ∧ quoteIsLive effective now true = true ∧
      signed.2 = some expiry ∧
      Builds D.chainId schema pair.direction snap.quote x y signed.1 expiry := by
  obtain ⟨_, t₁, t₂, rfl, hlive, h₁⟩ := Prog.Ran.bindOk_inv h
  obtain ⟨s₁, rfl⟩ := validateQuoteLiveness_ran hlive
  obtain ⟨s₂, set, rest₂, rfl, h₂⟩ := Prog.Ran.askEx_inv h₁
  obtain ⟨_, t₃, t₄, rfl, haddress, h₃⟩ := Prog.Ran.bindOk_inv h₂
  obtain rfl := validateQuoteAddress_ran haddress
  obtain ⟨s₃, now, rest₃, rfl, h₄⟩ := Prog.Ran.askEx_inv h₃
  obtain ⟨_, t₅, t₆, rfl, hadmitted, hcontext⟩ := Prog.Ran.bindOk_inv h₄
  obtain ⟨rfl, effective, heffective, hlive⟩ := validateQuoteExpiry_ran hadmitted
  obtain ⟨rfl, expiry, hbound, hbuilds⟩ := contextFromQuote_ran hsigns hcontext
  exact ⟨s₁, s₂, set, s₃, now, effective, expiry, rfl, heffective, hsigns ▸ hlive, hbound, hbuilds⟩

/-- A build that returned: the checks of admission, the context of the quote, and then the
reuse or the signature. -/
lemma buildResponse_ran (hsigns : schema.signsExpiry = true)
    (h : (buildResponseFromQuotePairBound D pair snap x y schema).run.Ran tr (.ok b)) :
    ∃ s₁ s₂ set s₃ now rest context expiry,
      tr = ⟨s₁, .isLive (.own .admission) snap.generation, true⟩ :: ⟨s₂, .tokens .admission, set⟩ ::
        ⟨s₃, .nowUnixMs .admission, now⟩ :: rest ∧
      Builds D.chainId schema pair.direction snap.quote x y context expiry ∧
      (reuseOrSign D pair snap x y schema context (some expiry)).run.Ran rest (.ok b) := by
  rw [buildResponse_eq] at h
  obtain ⟨⟨context, bound⟩, t₁, t₂, rfl, hcontext, hreuse⟩ := Prog.Ran.bindOk_inv h
  obtain ⟨s₁, s₂, set, s₃, now, _, expiry, rfl, -, -, hbound, hbuilds⟩ :=
    admittedContext_ran hsigns hcontext
  obtain rfl : bound = some expiry := hbound
  exact ⟨s₁, s₂, set, s₃, now, t₂, context, expiry, rfl, hbuilds, hreuse⟩

end Build

end OracleServer
