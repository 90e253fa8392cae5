import OracleServer.BuilderRuns
import OracleServer.Slots
import OracleServer.WorldSafety

/-! The times a context signs. `publish_time` and the expiry truncate while the session
bounds and the liveness check floor; from 1970 on these agree, and the checks around a
signature are what keeps every time there. -/
namespace OracleServer

open Interaction Interaction.Contract

/-- The session holds the instant: its start inclusive, its end exclusive while open and
inclusive when closed. -/
def QuoteSession.Contains (session : QuoteSession) (ts : Int64) : Prop :=
  session.startUnixMs.toInt ≤ ts.toInt ∧
    (session.tag = .closed → ts.toInt ≤ session.endUnixMs.toInt) ∧
    (session.tag ≠ .closed → ts.toInt < session.endUnixMs.toInt)

lemma ordered_iff {session : QuoteSession} {ts : Int64} :
    SignedSession.ordered session ts = true ↔ session.Contains ts := by
  obtain ⟨tag, start, stop⟩ := session
  cases tag <;> simp [SignedSession.ordered, QuoteSession.Contains, Int64.le_iff_toInt_le,
    Int64.lt_iff_toInt_lt]

section Conversions

/-- Truncation and flooring agree on what a clock reading from 1970 on is before. -/
lemma quoteIsLive_pos {e now : Int64} (hnow : 0 ≤ now.toInt) (h : quoteIsLive e now true = true) :
    0 < e.toInt := by
  obtain ⟨hlt, -⟩ := quoteIsLive_signs h
  omega

lemma expiryFromQuote_isOk {q : Quote} {e : Int64} (he : effectiveExpiryUnixMs q = .ok e)
    (hpos : 0 ≤ e.toInt) : ∃ n, expiryFromQuote q = .ok n ∧ (n.toNat : ℤ) = e.toInt / 1000 := by
  have hlt : e.toInt < 2 ^ 63 := e.toInt_lt
  have hsome : u64TryFrom (e.toInt.tdiv 1000) =
      some (UInt64.ofNat (e.toInt.tdiv 1000).toNat) := by
    rw [Int.tdiv_eq_ediv_of_nonneg hpos]
    exact if_pos ⟨by omega, by omega⟩
  have hval := u64TryFrom_some hsome
  rw [Int.tdiv_eq_ediv_of_nonneg hpos] at hval
  refine ⟨_, ?_, hval⟩
  rw [Int.tdiv_eq_ediv_of_nonneg hpos] at hsome
  unfold expiryFromQuote
  simp only [he, bind, Except.bind, Int.tdiv_eq_ediv_of_nonneg hpos, hsome]

lemma secsToMillis_isSome {n : UInt64} {e : Int64} (h : (n.toNat : ℤ) ≤ e.toInt / 1000) :
    ∃ ms, secsToMillis n = some ms ∧ ms.toInt = 1000 * n.toNat := by
  have hlt : e.toInt < 2 ^ 63 := e.toInt_lt
  have hsome : secsToMillis n = some (Int64.ofInt (n.toNat * 1000)) := if_pos (by omega)
  have hval := secsToMillis_some hsome
  exact ⟨_, hsome, by omega⟩

lemma saturatingAdd_toNat (a b : UInt64) :
    (saturatingAdd a b).toNat = min (a.toNat + b.toNat) (2 ^ 64 - 1) := by
  unfold saturatingAdd
  split
  · next h =>
    rw [UInt64.toNat_add, Nat.mod_eq_of_lt h]
    omega
  · next h =>
    have hmax : (UInt64.ofNat (2 ^ 64 - 1)).toNat = 2 ^ 64 - 1 := by decide
    omega

/-- An expiry in milliseconds is far below the point where the margin saturates. -/
lemma lt_saturatingAdd {n now margin : UInt64} (h : n.toNat < 2 ^ 63) :
    n < saturatingAdd now margin ↔ n.toNat < now.toNat + margin.toNat := by
  rw [UInt64.lt_iff_toNat_lt, saturatingAdd_toNat]
  omega

end Conversions

section Times
variable [RainFloat]

/-- The four times of `q` are what the slots of the context say, floored to seconds. -/
structure SignsTimes (q : Quote) (context : List B256) (session : QuoteSession)
    (deadline : Int64) (publish start stop expiry : UInt64) : Prop where
  priced : q.session = some session
  contains : session.Contains q.sourceTsUnixMs
  bound : q.executionDeadlineUnixMs = some deadline
  nonneg : 0 ≤ q.sourceTsUnixMs.toInt ∧ 0 ≤ session.startUnixMs.toInt ∧
    0 ≤ session.endUnixMs.toInt ∧ 0 ≤ min q.expiryUnixMs.toInt deadline.toInt
  slots : ∃ s₂ s₄ s₅ s₈, context[2]? = some s₂ ∧ Encodes s₂ publish ∧
    context[4]? = some s₄ ∧ Encodes s₄ start ∧ context[5]? = some s₅ ∧ Encodes s₅ stop ∧
    context[8]? = some s₈ ∧ Encodes s₈ expiry
  floors : (publish.toNat : ℤ) = q.sourceTsUnixMs.toInt / 1000 ∧
    (start.toNat : ℤ) = session.startUnixMs.toInt / 1000 ∧
    (stop.toNat : ℤ) = session.endUnixMs.toInt / 1000 ∧
    (expiry.toNat : ℤ) = min q.expiryUnixMs.toInt deadline.toInt / 1000
  window : start ≤ publish ∧ publish ≤ stop

def SignsExactTimes (q : Quote) (context : List B256) : Prop :=
  ∃ session deadline publish start stop expiry,
    SignsTimes q context session deadline publish start stop expiry

lemma Builds.signsExactTimes {chainId : UInt64} {schema : PairSchema} {direction : PriceDirection}
    {q : Quote} {x y : Address} {context : List B256} {expiry : UInt64} {e now : Int64}
    (hsigns : schema.signsExpiry = true) (h : Builds chainId schema direction q x y context expiry)
    (he : effectiveExpiryUnixMs q = .ok e) (hnow : 0 ≤ now.toInt)
    (hlive : quoteIsLive e now true = true) : SignsExactTimes q context := by
  have hpos := quoteIsLive_pos hnow hlive
  have hfloor := h.floor he hpos.le
  obtain ⟨deadline, hdeadline, hdpos, hmin⟩ := effectiveExpiry_ok he
  obtain ⟨publish, signed, price, hpublish, hsession, -, -, hcontext⟩ := h
  obtain ⟨hnine, -⟩ := buildContext_ok hsigns hcontext
  obtain ⟨session, hq, -, hstart, hstop, hle, hordered⟩ := SignedSession.fromQuote_ok hsession
  have hcontains := ordered_iff.mp hordered
  have hsource := SignedSession.fromQuote_nonneg hsession
  have hpub := publishTime_floor hpublish hsource
  have hend : q.sourceTsUnixMs.toInt ≤ session.endUnixMs.toInt := by
    by_cases htag : session.tag = .closed
    · exact hcontains.2.1 htag
    · exact (hcontains.2.2 htag).le
  obtain ⟨s₂, hs₂, he₂⟩ := hnine.publish
  obtain ⟨s₄, hs₄, he₄⟩ := hnine.start
  obtain ⟨s₅, hs₅, he₅⟩ := hnine.stop
  obtain ⟨s₈, hs₈, he₈⟩ := hnine.expiry
  refine ⟨session, deadline, publish, signed.start, signed.stop, expiry, ?_⟩
  constructor
  case priced => exact hq
  case contains => exact hcontains
  case bound => exact hdeadline
  case nonneg => omega
  case slots => exact ⟨s₂, s₄, s₅, s₈, hs₂, he₂, hs₄, he₄, hs₅, he₅, hs₈, he₈⟩
  case floors => exact ⟨hpub, hstart, hstop, hmin ▸ hfloor⟩
  case window =>
    rw [UInt64.le_iff_toNat_le, UInt64.le_iff_toNat_le]
    omega

/-- An operation that the builder asks only once it has a context. -/
def Op.AfterContext : Op → Prop
  | .isLive (.own phase) _ => phase ≠ .admission
  | .isLive _ _ | .reuseGet _ | .reuseInsert _ _ | .signContext _ => True
  | .nowUnixMs phase => phase ≠ .admission
  | .tokens _ | .snapshotMany _ _ | .count _ => False

/-- Every reading of the clock is from 1970 on. -/
def ReadsFrom1970 (tr : Trace Server Op Op.Answer) : Prop :=
  ∀ s phase now, (⟨s, .nowUnixMs phase, now⟩ : Entry Server Op Op.Answer) ∈ tr → 0 ≤ now.toInt

section Builder
variable {D : Deployment} {pair : ResolvedPair} {snap : QuoteSnapshot} {x y : Address}
  {schema : PairSchema} {tr after : Trace Server Op Op.Answer} {s : Server}
  {left : Prog Op Op.Answer (Except AppError BuiltResponse)}

/-- The build once it has its context: that one is looked for in the cache and signed, and
what is returned carries it, or is a stored response of the same statement. -/
structure CarriesContext (D : Deployment) (pair : ResolvedPair) (snap : QuoteSnapshot)
    (x y : Address) (schema : PairSchema) (context : List B256) (expiry : UInt64)
    (after : Trace Server Op Op.Answer)
    (left : Prog Op Op.Answer (Except AppError BuiltResponse)) : Prop where
  floors : SignsExactTimes snap.quote context
  onward : (reuseOrSign D pair snap x y schema context (some expiry)).run.Steps after left
  signs : ∀ e ∈ after, ∀ c, e.op = .signContext c → c = context
  returns : ∀ b, left = .ret (.ok b) → b.response.context = context ∨
    ∃ s stored, (⟨s, .reuseGet (reuseKey pair x y schema), some stored⟩ : Entry Server Op Op.Answer)
      ∈ after ∧ b.response = stored.response ∧ sameStatement stored.response.context context = true

lemma admittedContext_before : UsesOk (fun o => ¬ o.AfterContext)
    (admittedContext D pair snap x y schema) := by
  have hcount : ∀ m, ¬ (Op.count m).AfterContext := fun _ h => h
  have hlive : ¬ (Op.isLive (.own .admission) snap.generation).AfterContext := fun h => h rfl
  have hclock : ¬ (Op.nowUnixMs .admission).AfterContext := fun h => h rfl
  have htokens : ¬ (Op.tokens .admission).AfterContext := fun h => h
  refine UsesOk.bind (validateQuoteLiveness_keeps hcount hlive _ _ _) fun _ => ?_
  refine UsesOk.bind (UsesOk.ask htokens) fun set => ?_
  refine UsesOk.bind (validateQuoteAddress_keeps hcount _ _ _ _ _) fun _ => ?_
  refine UsesOk.bind (UsesOk.ask hclock) fun now => ?_
  refine UsesOk.bind (validateQuoteExpiry_keeps hcount _ _ _ _ _ _) fun _ => ?_
  exact contextFromQuote_asks hcount

/-- A build that gets as far as its context has the exact times of its quote in it. -/
lemma admittedContext_floors {signed : List B256 × Option UInt64}
    (hsigns : schema.signsExpiry = true) (hreads : ReadsFrom1970 tr)
    (h : (admittedContext D pair snap x y schema).run.Ran tr (.ok signed)) :
    SignsExactTimes snap.quote signed.1 := by
  obtain ⟨s₁, s₂, set, s₃, now, effective, expiry, rfl, heffective, hlive, -, hbuilds⟩ :=
    admittedContext_ran hsigns h
  exact hbuilds.signsExactTimes hsigns heffective (hreads s₃ .admission now (by simp)) hlive

omit [RainFloat] in
lemma reuseOrSign_returns {context : List B256} {expiry : UInt64} {b : BuiltResponse}
    (h : (reuseOrSign D pair snap x y schema context (some expiry)).run.Ran after (.ok b)) :
    b.response.context = context ∨ ∃ s stored,
      (⟨s, .reuseGet (reuseKey pair x y schema), some stored⟩ : Entry Server Op Op.Answer) ∈ after ∧
        b.response = stored.response ∧ sameStatement stored.response.context context = true := by
  obtain ⟨s₁, s₂, now, n, rest, rfl, -, hhanded⟩ := reuseOrSign_ran h
  rcases hhanded with ⟨-, hcontext⟩ | ⟨-, s₃, found, rest', rfl, hcase⟩
  · exact .inl hcontext
  rcases hcase with ⟨stored, rfl, hmay, hstored⟩ | ⟨hcontext, -⟩
  · obtain ⟨previous, hreusable⟩ := Option.isSome_iff_exists.mp hmay.2
    exact .inr ⟨s₃, stored, by simp, hstored, (reusable_some hreusable).2.1⟩
  · exact .inl hcontext

/-- A build has not come to its context, or goes on with it. -/
lemma buildResponse_carries (hsigns : schema.signsExpiry = true) (hreads : ReadsFrom1970 tr)
    (h : (buildResponseFromQuotePairBound D pair snap x y schema).run.Steps tr left) :
    ((∀ e ∈ tr, ¬ e.op.AfterContext) ∧ ∀ b, left ≠ .ret (.ok b)) ∨
      ∃ before after context expiry, tr = before ++ after ∧
        (admittedContext D pair snap x y schema).run.Ran before (.ok (context, some expiry)) ∧
        CarriesContext D pair snap x y schema context expiry after left := by
  rw [buildResponse_eq] at h
  rcases Prog.Steps.bindOk_inv h with ⟨⟨p, hp⟩, hleft⟩ | ⟨⟨context, bound⟩, t₁, t₂, rfl, hran, hsteps⟩
  · exact .inl ⟨admittedContext_before.steps hp, hleft⟩
  have hreads₁ : ReadsFrom1970 t₁ := fun s phase now he =>
    hreads s phase now (List.mem_append_left _ he)
  have hfloors := admittedContext_floors hsigns hreads₁ hran
  obtain ⟨_, _, _, _, _, _, expiry, -, -, -, hbound, -⟩ := admittedContext_ran hsigns hran
  obtain rfl : bound = some expiry := hbound
  refine .inr ⟨t₁, t₂, context, expiry, rfl, hran, hfloors, hsteps, ?_, ?_⟩
  · intro e he c hc
    have hsigned := (reuseOrSign_asks (some expiry)).steps hsteps e he
    rw [hc] at hsigned
    exact hsigned
  · rintro b rfl
    exact reuseOrSign_returns hsteps

/-- What the reuse path computes for a quote that was admitted at a reading from 1970 on. -/
structure ConversionsFit (q : Quote) : Prop where
  expiry : ∃ e, expiryFromQuote q = .ok e ∧
    ∀ (stored : Stored) (context : List B256) (nowSecs margin : UInt64),
      (stored.expiryUnixSecs ≤ e →
        (stored.expiryUnixSecs < saturatingAdd nowSecs margin ↔
          stored.expiryUnixSecs.toNat < nowSecs.toNat + margin.toNat)) ∧
      ∀ r, stored.reusable context e nowSecs margin = some r →
        ∃ ms, secsToMillis r.expiryUnixSecs = some ms ∧ ms.toInt = 1000 * r.expiryUnixSecs.toNat

omit [RainFloat] in
lemma conversionsFit {q : Quote} {effective now : Int64} (hnow : 0 ≤ now.toInt)
    (he : effectiveExpiryUnixMs q = .ok effective) (hlive : quoteIsLive effective now true = true) :
    ConversionsFit q := by
  have hpos := quoteIsLive_pos hnow hlive
  have hmax : effective.toInt < 2 ^ 63 := effective.toInt_lt
  obtain ⟨e, hexpiry, hfloor⟩ := expiryFromQuote_isOk he hpos.le
  refine ⟨e, hexpiry, fun stored context nowSecs margin => ⟨fun hle => ?_, fun r hr => ?_⟩⟩
  · rw [UInt64.le_iff_toNat_le] at hle
    exact lt_saturatingAdd (by omega)
  · obtain ⟨rfl, -, hle, -⟩ := reusable_some hr
    rw [UInt64.le_iff_toNat_le] at hle
    exact secsToMillis_isSome (e := effective) (by dsimp only; omega)

end Builder

/-- In every run of the builder whose clock reads at or after 1970: the context that it
builds, which is the one compared with the cache, signed and returned, states the floors of
the quote's own times, which are ordered and not negative; no conversion on the way fails
for an admitted quote; and a quote whose session does not hold it is never signed. So every
context that a run of the server delivers states the times of an accepted frame. -/
theorem signed_times_are_floors [Toml] [Alloy] [Unicode] [Abi] (D : Deployment)
    (pair : ResolvedPair) (snap : QuoteSnapshot) (x y : Address) (schema : PairSchema)
    (hsigns : schema.signsExpiry = true) :
    (∀ (tr : Trace Server Op Op.Answer) context bound, ReadsFrom1970 tr →
      (admittedContext D pair snap x y schema).run.Ran tr (.ok (context, bound)) →
      SignsExactTimes snap.quote context) ∧
    (∀ (tr : Trace Server Op Op.Answer) left, ReadsFrom1970 tr →
      (buildResponseFromQuotePairBound D pair snap x y schema).run.Steps tr left →
      (((∀ e ∈ tr, ¬ e.op.AfterContext) ∧ ∀ b, left ≠ .ret (.ok b)) ∨
        ∃ before after context expiry, tr = before ++ after ∧
          (admittedContext D pair snap x y schema).run.Ran before (.ok (context, some expiry)) ∧
          CarriesContext D pair snap x y schema context expiry after left) ∧
      ((∀ session, snap.quote.session = some session →
          ¬ session.Contains snap.quote.sourceTsUnixMs) →
        ∀ e ∈ tr, ∀ context, e.op ≠ .signContext context)) ∧
    (∀ effective now, 0 ≤ now.toInt → effectiveExpiryUnixMs snap.quote = .ok effective →
      quoteIsLive effective now true = true → ConversionsFit snap.quote) ∧
    ∀ set es w, (∀ e ∈ es, e.Clocked fun t => 0 ≤ t.toInt) →
      World.run D (.boot set) es = some w → ∀ q ∈ w.requests, ∀ i r, q.Delivered i r →
        ∃ g quote, InGeneration set.symbols w.server.journal g quote ∧
          SignsExactTimes quote r.context := by
  refine ⟨fun tr context bound hreads h => admittedContext_floors hsigns hreads h,
    fun tr left hreads h => ?_, fun _ _ => conversionsFit, ?_⟩
  · have hcarries := buildResponse_carries hsigns hreads h
    refine ⟨hcarries, fun hout e he context hop => ?_⟩
    rcases hcarries with ⟨hbefore, -⟩ | ⟨_, _, _, _, _, _, hcarries⟩
    · exact hbefore e he (hop ▸ trivial)
    · obtain ⟨session, _, _, _, _, _, htimes⟩ := hcarries.floors
      exact hout session htimes.priced htimes.contains
  · intro set es w hclock hrun q hq i r hr
    obtain ⟨-, -, _, _, -, hsigns', -, _, _, slot, out, _, _, _, -, hd, rfl⟩ :=
      delivered_of_run (H := ⟨fun t => 0 ≤ t.toInt, fun _ => True⟩)
        ⟨fun _ _ => trivial, fun _ _ _ => trivial⟩ trivial hclock hrun hq hr
    obtain ⟨quote, _, _, _, hbuilt⟩ := hd.built
    obtain ⟨effective, now, heffective, hnow, hlive⟩ := hbuilt.signed.live
    exact ⟨_, quote, hbuilt.member, hbuilt.signed.builds.signsExactTimes hsigns' heffective hnow hlive⟩

end Times

namespace Sample

/-- The price and its token, as a request finds them. -/
def quoted : QuoteSnapshot := ⟨Quote.ofPrice (price 1700000060000), ⟨(8453, "wtCOIN"), 0⟩⟩

/-- What the server answers once it has that price. -/
def reply (o : Op) : Option o.Answer :=
  (Server.perform deployment input o
    ((World.boot bootSet).server.observe (.frame (.price (price 1700000060000))))).map Prod.fst

theorem signed_price_has_its_times : ∃ (tr : Trace Server Op Op.Answer) (b : BuiltResponse),
    (buildResponseFromQuotePairBound deployment ⟨"wtCOIN", coin, .quoteToBase⟩ quoted usdc coin
      .v5).run.Ran tr (.ok b) ∧
    SignsExactTimes quoted.quote b.response.context ∧ ConversionsFit quoted.quote := by
  have hsome : ((buildResponseFromQuotePairBound deployment ⟨"wtCOIN", coin, .quoteToBase⟩ quoted
      usdc coin .v5).run.evalWith reply).any (·.isOk) = true := by decide +kernel
  rw [Option.any_eq_true] at hsome
  obtain ⟨result, heval, hok⟩ := hsome
  cases result with
  | error e => cases hok
  | ok b =>
    obtain ⟨tr, hran, hreplies⟩ := Prog.ran_of_evalWith (World.boot bootSet).server heval
    obtain ⟨-, hbuild, hfit, -⟩ := signed_times_are_floors deployment ⟨"wtCOIN", coin, .quoteToBase⟩
      quoted usdc coin .v5 rfl
    have hreads : ReadsFrom1970 tr := by
      intro s phase now he
      obtain rfl : input.nowUnixMs = now := Option.some.inj (hreplies _ he)
      decide
    obtain ⟨⟨-, hleft⟩ | ⟨before, after, context, expiry, rfl, -, hcarries⟩, -⟩ :=
      hbuild tr _ hreads hran
    · exact absurd rfl (hleft b)
    refine ⟨_, b, hran, ?_, hfit 1700000030000 1700000001000 (by decide) rfl (by decide)⟩
    rcases hcarries.returns b rfl with hcontext | ⟨s, stored, hstored, -⟩
    · rw [hcontext]
      exact hcarries.floors
    · -- nothing is stored yet
      cases hreplies _ (List.mem_append_right _ hstored)

end Sample

end OracleServer
