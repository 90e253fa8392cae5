import OracleServer.Delivery
import OracleServer.Lib.Verdict

/-! What a refusal is owed to. `Cause` lists, with their texts, the errors an item that
resolved may end with, each beside what the request's own reads must then have shown.
`watch` is the contract under which the builder is followed to all of its ends. -/
namespace OracleServer

open Interaction Interaction.Contract

section Watching
variable {D : Deployment} {a : List Symbol}

/-- The quote cache is its journal's, and every stored expiry fits into milliseconds. -/
structure Watched (a : List Symbol) (s : Server) : Prop where
  journal : s.pricing = ClientState.after a s.journal
  storable : ∀ key stored, s.reuse.lookup key = some stored →
    secsToMillis stored.expiryUnixSecs ≠ none

def Storable : Op → Prop
  | .reuseInsert _ stored => secsToMillis stored.expiryUnixSecs ≠ none
  | _ => True

lemma Watched.perform {i : Input} {o : Op} {s s' : Server} {answer : o.Answer}
    (hs : Watched a s) (hpre : Storable o) (h : Server.perform D i o s = some (answer, s')) :
    Watched a s' ∧ s.journal <+: s'.journal := by
  rcases Server.perform_cases h with rfl | ⟨m, rfl⟩ | ⟨key, stored, rfl, -, rfl⟩
  · exact ⟨hs, List.prefix_rfl⟩
  · exact ⟨⟨hs.journal, hs.storable⟩, List.prefix_rfl⟩
  · refine ⟨⟨hs.journal, fun k st hk => ?_⟩, List.prefix_rfl⟩
    rw [Map.lookup_insert_eq] at hk
    split at hk
    · obtain rfl := Option.some.inj hk
      exact hpre
    · exact hs.storable k st hk

/-- The contract of a request whose refusals are followed. -/
def watch (D : Deployment) (a : List Symbol) : Contract Server Input Op Op.Answer where
  perform := Server.perform D
  Admissible _ := True
  Inv := Watched a
  Rel s s' := s.journal <+: s'.journal
  Pre o _ := Storable o
  refl := Server.journal_refl
  trans := @Server.journal_trans
  sound _ hs hpre h := hs.perform hpre h

end Watching

section Reads
variable {D : Deployment} {a : List Symbol} {tr tr' : ServerTrace} {s s' : Server}

def ReadClock (phase : RefusalPhase) (t : Int64) (tr : ServerTrace) : Prop :=
  ∃ s₀, (⟨s₀, .nowUnixMs phase, t⟩ : Entry Server Op Op.Answer) ∈ tr

def ReadSet (point : ReadPoint) (set : TokenSet) (tr : ServerTrace) : Prop :=
  ∃ s₀, (⟨s₀, .tokens point, set⟩ : Entry Server Op Op.Answer) ∈ tr

/-- The snapshot of the phase held no quote of the symbol. -/
def Uncached (D : Deployment) (a : List Symbol) (point : ReadPoint) (symbol : Symbol)
    (tr : ServerTrace) (s : Server) : Prop :=
  ∃ s₀ symbols m, (⟨s₀, .snapshotMany point symbols, m⟩ : Entry Server Op Op.Answer) ∈ tr ∧
    symbol ∈ symbols ∧ ClientState.held a s₀.journal (D.chainId, symbol) = none ∧
    s₀.journal <+: s.journal

/-- Between the snapshot that held the quote and the check of its token, an event evicted
the key. -/
def Evicted (D : Deployment) (point : ReadPoint) (symbol : Symbol) (tr : ServerTrace)
    (s : Server) : Prop :=
  ∃ s₀ symbols m snap s₁ check before e since,
    (⟨s₀, .snapshotMany point symbols, m⟩ : Entry Server Op Op.Answer) ∈ tr ∧
    AList.lookup symbol m = some snap ∧
    (⟨s₁, .isLive check snap.generation, false⟩ : Entry Server Op Op.Answer) ∈ tr ∧
    s₁.journal = before ++ e :: since ∧ s₀.journal <+: before ∧
    ClientEvent.Evicts e (D.chainId, symbol) ∧ s₁.journal <+: s.journal

/-- The time up to which the builder vouches for what it returns: the expiry of the quote
it read, or that of an earlier signature with the margin still ahead. -/
def GoodUntil (D : Deployment) (a : List Symbol) (point : ReadPoint) (symbol : Symbol)
    (expiry : Int64) (tr : ServerTrace) (s : Server) : Prop :=
  ∃ snap own, SnapshotRead D a point symbol snap tr s ∧
    effectiveExpiryUnixMs snap.quote = .ok own ∧
    (expiry = own ∨ expiry.toInt ≤ max own.toInt 0 ∧ D.reuseEnabled = true ∧ ∃ t, ReadClock .preSign t tr ∧
      t.toInt / 1000 + D.minRemainingSecs.toNat ≤ expiry.toInt / 1000)

/-- The batch-final snapshot found `snap`, when `expiry` had already been vouched for. -/
def Reread (D : Deployment) (a : List Symbol) (symbol : Symbol) (expiry : Int64)
    (snap : QuoteSnapshot) (tr : ServerTrace) (s : Server) : Prop :=
  ∃ s₁ symbols m, (⟨s₁, .snapshotMany .batchFinal symbols, m⟩ : Entry Server Op Op.Answer) ∈ tr ∧
    AList.lookup symbol m = some snap ∧ s₁.pricing = ClientState.after a s₁.journal ∧
    ClientState.held a s₁.journal (D.chainId, symbol) = some ⟨snap.quote, snap.generation⟩ ∧
    s₁.journal <+: s.journal ∧ GoodUntil D a .request symbol expiry tr s₁

lemma ReadClock.asked {phase : RefusalPhase} {t : Int64} :
    ReadClock phase t (tr ++ [⟨s, .nowUnixMs phase, t⟩]) :=
  ⟨s, List.mem_concat_self⟩

lemma ReadSet.asked {point : ReadPoint} {set : TokenSet} :
    ReadSet point set (tr ++ [⟨s, .tokens point, set⟩]) :=
  ⟨s, List.mem_concat_self⟩

lemma ReadClock.grow {phase : RefusalPhase} {t : Int64} (h : ReadClock phase t tr)
    (htr : tr <+: tr') : ReadClock phase t tr' := by
  obtain ⟨s₀, hmem⟩ := h
  exact ⟨s₀, htr.subset hmem⟩

lemma ReadSet.grow {point : ReadPoint} {set : TokenSet} (h : ReadSet point set tr)
    (htr : tr <+: tr') : ReadSet point set tr' := by
  obtain ⟨s₀, hmem⟩ := h
  exact ⟨s₀, htr.subset hmem⟩

lemma SnapshotRead.grow {point : ReadPoint} {symbol : Symbol} {snap : QuoteSnapshot}
    (h : SnapshotRead D a point symbol snap tr s) (htr : tr <+: tr')
    (hj : s.journal <+: s'.journal) : SnapshotRead D a point symbol snap tr' s' := by
  obtain ⟨s₀, symbols, m, hmem, hm, hpricing, hheld, hpre⟩ := h
  exact ⟨s₀, symbols, m, htr.subset hmem, hm, hpricing, hheld, hpre.trans hj⟩

lemma Uncached.grow {point : ReadPoint} {symbol : Symbol} (h : Uncached D a point symbol tr s)
    (htr : tr <+: tr') (hj : s.journal <+: s'.journal) : Uncached D a point symbol tr' s' := by
  obtain ⟨s₀, symbols, m, hmem, hasked, hnone, hpre⟩ := h
  exact ⟨s₀, symbols, m, htr.subset hmem, hasked, hnone, hpre.trans hj⟩

lemma Evicted.grow {point : ReadPoint} {symbol : Symbol} (h : Evicted D point symbol tr s)
    (htr : tr <+: tr') (hj : s.journal <+: s'.journal) : Evicted D point symbol tr' s' := by
  obtain ⟨s₀, symbols, m, snap, s₁, check, before, e, since, hmem, hm, hdead, hsplit, hpre, he,
    hlast⟩ := h
  exact ⟨s₀, symbols, m, snap, s₁, check, before, e, since, htr.subset hmem, hm, htr.subset hdead,
    hsplit, hpre, he, hlast.trans hj⟩

lemma GoodUntil.grow {point : ReadPoint} {symbol : Symbol} {expiry : Int64}
    (h : GoodUntil D a point symbol expiry tr s) (htr : tr <+: tr')
    (hj : s.journal <+: s'.journal) : GoodUntil D a point symbol expiry tr' s' := by
  obtain ⟨snap, own, hread, hown, hcase⟩ := h
  refine ⟨snap, own, hread.grow htr hj, hown, hcase.imp id fun ⟨hle, hon, t, hclock, hmargin⟩ => ?_⟩
  exact ⟨hle, hon, t, hclock.grow htr, hmargin⟩

lemma Reread.grow {symbol : Symbol} {expiry : Int64} {snap : QuoteSnapshot}
    (h : Reread D a symbol expiry snap tr s) (htr : tr <+: tr') (hj : s.journal <+: s'.journal) :
    Reread D a symbol expiry snap tr' s' := by
  obtain ⟨s₁, symbols, m, hmem, hm, hpricing, hheld, hpre, hgood⟩ := h
  exact ⟨s₁, symbols, m, htr.subset hmem, hm, hpricing, hheld, hpre.trans hj,
    hgood.grow htr List.prefix_rfl⟩

lemma Reread.snapshot {symbol : Symbol} {expiry : Int64} {snap : QuoteSnapshot}
    (h : Reread D a symbol expiry snap tr s) : SnapshotRead D a .batchFinal symbol snap tr s := by
  obtain ⟨s₁, symbols, m, hmem, hm, hpricing, hheld, hpre, -⟩ := h
  exact ⟨s₁, symbols, m, hmem, hm, hpricing, hheld, hpre⟩

/-- A token found dead was read live, so an eviction came in between. -/
theorem Evicted.of_dead {point : ReadPoint} {symbol : Symbol} {snap : QuoteSnapshot}
    {check : LiveCheck} (hread : SnapshotRead D a point symbol snap tr s) (hs : Watched a s)
    (hdead : s.pricing.cache.isLive snap.generation = false)
    (hmem : (⟨s, .isLive check snap.generation, false⟩ : Entry Server Op Op.Answer) ∈ tr') (htr : tr <+: tr') :
    Evicted D point symbol tr' s := by
  obtain ⟨s₀, symbols, m, hsnap, hm, -, hheld, since, hsince⟩ := hread
  have hgone : ¬ ClientState.live a (s₀.journal ++ since) snap.generation := by
    rw [hsince]
    unfold ClientState.live
    rw [← hs.journal]
    exact fun h => Bool.false_ne_true (hdead.symm.trans h)
  rw [ClientState.live_iff_no_evict hheld] at hgone
  push Not at hgone
  obtain ⟨e, he, hevicts⟩ := hgone
  obtain ⟨between, after, rfl⟩ := List.append_of_mem he
  exact ⟨s₀, symbols, m, snap, s, check, s₀.journal ++ between, e, after, htr.subset hsnap, hm, hmem,
    by rw [← hsince, List.append_assoc], List.prefix_append _ _, hevicts, List.prefix_rfl⟩

end Reads

/-- A quote of which the schema's context cannot be built, and the error that says so. -/
inductive Unbuilt [RainFloat] (D : Deployment) (schema : PairSchema) (slot : ResolvedSlot)
    (q : Quote) : AppError → Prop
  | publish {e : AppError} (h : publishTimeFromQuote q = .error e) : Unbuilt D schema slot q e
  | missingSession (h : SignedSession.fromQuote q = .error .missing) :
    Unbuilt D schema slot q (.unavailable .missingSession
      s!"The pricing quote for {slot.pair.symbol} carries no market session.")
  | invalidSession {why : String} (h : SignedSession.fromQuote q = .error (.invalid why)) :
    Unbuilt D schema slot q (.unavailable .invalidSession
      s!"The pricing quote for {slot.pair.symbol} carries an invalid market session: {why}.")
  | price {e : AppError} (h : priceBytes schema q slot.pair.direction = .error e) :
    Unbuilt D schema slot q e
  | expiry {e : AppError} (h : signedExpiry schema q = .error e) : Unbuilt D schema slot q e
  | context {publish : UInt64} {session : SignedSession} {price : B256} {expiry : Option UInt64}
    {e : AppError} (hpublish : publishTimeFromQuote q = .ok publish)
    (hsession : SignedSession.fromQuote q = .ok session)
    (hprice : priceBytes schema q slot.pair.direction = .ok price)
    (hexpiry : signedExpiry schema q = .ok expiry)
    (h : buildContext D.chainId schema q price publish session slot.inputToken slot.outputToken
      expiry = .error e) : Unbuilt D schema slot q e

/-- Why an item that resolved to `slot` is refused with the error. -/
inductive Cause [Alloy] [RainFloat] (D : Deployment) (a : List Symbol) (schema : PairSchema)
    (slot : ResolvedSlot) (tr : ServerTrace) (s : Server) : AppError → Prop
  | uncached {point : ReadPoint} (h : Uncached D a point slot.pair.symbol tr s) :
    Cause D a schema slot tr s (.unavailable .noLiveQuote s!"No live quote for {slot.pair.symbol}.")
  | evicted {point : ReadPoint} (h : Evicted D point slot.pair.symbol tr s) :
    Cause D a schema slot tr s (.unavailable .noLiveQuote s!"No live quote for {slot.pair.symbol}.")
  | mispriced {point : ReadPoint} {snap : QuoteSnapshot} {point' : ReadPoint} {set : TokenSet}
    (hsnap : SnapshotRead D a point slot.pair.symbol snap tr s) (hset : ReadSet point' set tr)
    (h : ¬ (snap.quote.base = slot.pair.token ∧ snap.quote.quote = set.registry.quoteToken)) :
    Cause D a schema slot tr s (.unavailable .noLiveQuote s!"No live quote for {slot.pair.symbol}.")
  | remapped {set : TokenSet} (hset : ReadSet .batchFinal set tr)
    (h : ∀ mapping, set.registry.resolve slot.pair.token set.registry.quoteToken = .ok mapping →
      mapping.symbol ≠ slot.pair.symbol) :
    Cause D a schema slot tr s (.unavailable .noLiveQuote s!"No live quote for {slot.pair.symbol}.")
  | undated {point : ReadPoint} {snap : QuoteSnapshot}
    (hsnap : SnapshotRead D a point slot.pair.symbol snap tr s)
    (h : ∀ d, snap.quote.executionDeadlineUnixMs = some d → d.toInt ≤ 0) :
    Cause D a schema slot tr s (.unavailable .expiredQuote
      s!"Execution deadline for {slot.pair.symbol} is missing or invalid.")
  | elapsed {point : ReadPoint} {snap : QuoteSnapshot} {deadline t : Int64} {phase : RefusalPhase}
    (hsnap : SnapshotRead D a point slot.pair.symbol snap tr s)
    (hdeadline : snap.quote.executionDeadlineUnixMs = some deadline)
    (heffective : effectiveExpiryUnixMs snap.quote = .ok deadline) (hclock : ReadClock phase t tr)
    (h : quoteIsLive deadline t schema.signsExpiry = false) :
    Cause D a schema slot tr s (.unavailable .expiredQuote
      s!"Execution deadline for {slot.pair.symbol} elapsed at {deadline} (checked at {t}).")
  | lapsed {point : ReadPoint} {expiry t : Int64} {phase : RefusalPhase}
    (hgood : GoodUntil D a point slot.pair.symbol expiry tr s) (hclock : ReadClock phase t tr)
    (h : quoteIsLive expiry t schema.signsExpiry = false) :
    Cause D a schema slot tr s (.unavailable .expiredQuote
      s!"Quote for {slot.pair.symbol} expired at {expiry} (checked at {t}).")
  | outlived {expiry bound : Int64} {snap : QuoteSnapshot}
    (hread : Reread D a slot.pair.symbol expiry snap tr s)
    (hbound : effectiveExpiryUnixMs snap.quote = .ok bound) (h : bound.toInt < expiry.toInt) :
    Cause D a schema slot tr s (.unavailable .expiredQuote
      "Signed expiry exceeds the current execution bound.")
  | unbuilt {snap : QuoteSnapshot} {e : AppError}
    (hsnap : SnapshotRead D a .request slot.pair.symbol snap tr s)
    (h : Unbuilt D schema slot snap.quote e) : Cause D a schema slot tr s e
  | preEpoch {t : Int64} (hclock : ReadClock .preSign t tr) (h : t.toInt < 0) :
    Cause D a schema slot tr s (.internal "system clock before 1970")
  | unsigned {snap : QuoteSnapshot} {s₀ : Server} {context : List B256} {expiry : UInt64}
    {e : String} (hsnap : SnapshotRead D a .request slot.pair.symbol snap tr s)
    (hbuilds : Builds D.chainId schema slot.pair.direction snap.quote slot.inputToken
      slot.outputToken context expiry)
    (h : (⟨s₀, .signContext context, .error e⟩ : Entry Server Op Op.Answer) ∈ tr) :
    Cause D a schema slot tr s (.internal e)

section Stability
variable [Alloy] [RainFloat] {D : Deployment} {a : List Symbol} {schema : PairSchema}
  {slot : ResolvedSlot} {tr tr' : ServerTrace} {s s' : Server} {e : AppError}

theorem Cause.grow (h : Cause D a schema slot tr s e) (htr : tr <+: tr')
    (hj : s.journal <+: s'.journal) : Cause D a schema slot tr' s' e := by
  cases h with
  | uncached h => exact .uncached (h.grow htr hj)
  | evicted h => exact .evicted (h.grow htr hj)
  | mispriced hsnap hset h => exact .mispriced (hsnap.grow htr hj) (hset.grow htr) h
  | remapped hset h => exact .remapped (hset.grow htr) h
  | undated hsnap h => exact .undated (hsnap.grow htr hj) h
  | elapsed hsnap hdeadline heffective hclock h =>
    exact .elapsed (hsnap.grow htr hj) hdeadline heffective (hclock.grow htr) h
  | lapsed hgood hclock h => exact .lapsed (hgood.grow htr hj) (hclock.grow htr) h
  | outlived hread hbound h => exact .outlived (hread.grow htr hj) hbound h
  | unbuilt hsnap h => exact .unbuilt (hsnap.grow htr hj) h
  | preEpoch hclock h => exact .preEpoch (hclock.grow htr) h
  | unsigned hsnap hbuilds h => exact .unsigned (hsnap.grow htr hj) hbuilds (htr.subset h)

end Stability

end OracleServer
