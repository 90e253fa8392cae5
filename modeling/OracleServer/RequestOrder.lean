import OracleServer.HandlerSpec
import OracleServer.Lib.Protocol

/-! The order of a request's reads. The token set is read once before the first
snapshot; the closing pass reads the cache, the token set and the clock once each, in
this order, after the last signature. -/
namespace OracleServer

open Interaction

/-- How far a request has come. -/
inductive Stage
  | start
  | resolved
  | building
  | snapshotted
  | registered
  | closing
  deriving DecidableEq, Repr

namespace Stage

def next : Stage → Op → Option Stage
  | stage, .count _ => some stage
  | .start, .tokens .request => some .resolved
  | .resolved, .snapshotMany .request _ => some .building
  | .building, .snapshotMany .batchFinal _ => some .snapshotted
  | .building, .nowUnixMs .batchFinal => none
  | .building, .nowUnixMs _ => some .building
  | .building, .tokens .admission => some .building
  | .building, .isLive _ _ => some .building
  | .building, .reuseGet _ => some .building
  | .building, .reuseInsert _ _ => some .building
  | .building, .signContext _ => some .building
  | .snapshotted, .tokens .batchFinal => some .registered
  | .registered, .nowUnixMs .batchFinal => some .closing
  | .closing, .isLive _ _ => some .closing
  | _, _ => none

def rank : Stage → ℕ
  | .start => 0
  | .resolved => 1
  | .building => 2
  | .snapshotted => 3
  | .registered => 4
  | .closing => 5

/-- An operation that keeps the stage. -/
def Keeps (stage : Stage) (o : Op) : Prop := stage.next o = some stage

theorem rank_le (m : Stage) (o : Op) (m' : Stage) (h : m.next o = some m') :
    m.rank ≤ m'.rank := by
  unfold next at h
  split at h
  · rw [Option.some.inj h]
  all_goals first
    | exact Option.some.inj h ▸ (by decide)
    | cases h

theorem keeps_count (stage : Stage) (m : Metric) : stage.Keeps (.count m) := by
  cases stage <;> rfl

end Stage

section Counters
variable {P : Op → Prop} {α R B : Type} (hcount : ∀ m, P (.count m))

theorem andThen_keeps {f : R → Act B} (hf : ∀ r, UsesOk P (f r))
    (slot : Except AppError R) : UsesOk P (andThen f slot) := by
  cases slot with
  | error e => exact UsesOk.pure _
  | ok r => exact Prog.Uses.bind (hf r) fun _ => trivial

include hcount

theorem count_keeps (m : Metric) : UsesOk P (Act.count m) :=
  UsesOk.ask (hcount m)

theorem unavailable_keeps (reason : UnavailableReason) (endpoint : String) (symbol : Symbol)
    (phase : RefusalPhase) (detail : String) :
    UsesOk P (unavailable (α := α) reason endpoint symbol phase detail) :=
  UsesOk.bind (count_keeps hcount _) fun _ => UsesOk.throw _

theorem recordItemOutcome_keeps (endpoint outcome : String) (n : ℕ) :
    UsesOk P (recordItemOutcome endpoint outcome n) := by
  unfold recordItemOutcome
  split
  · exact UsesOk.pure _
  · exact count_keeps hcount _

theorem strictAbort_keeps (endpoint : String) (err : AppError) :
    UsesOk P (strictAbort (α := α) endpoint err) :=
  UsesOk.bind (recordItemOutcome_keeps hcount _ _ _) fun _ => UsesOk.throw _

theorem abortUnresolved_keeps (endpoint : String) (envelope : Bool)
    (resolved : List (Except AppError R)) :
    UsesOk P (abortUnresolved endpoint envelope resolved) := by
  unfold abortUnresolved
  split
  · exact UsesOk.pure _
  · split
    · exact strictAbort_keeps hcount _ _
    · exact UsesOk.pure _

theorem refuseLegacy_keeps (endpoint : String) (symbolOf : R → Symbol)
    (resolved : List (Except AppError R)) :
    UsesOk P (refuseLegacy endpoint symbolOf resolved) := by
  induction resolved with
  | nil => exact UsesOk.pure _
  | cons slot rest ih =>
    refine UsesOk.bind (andThen_keeps (fun _ => unavailable_keeps hcount _ _ _ _ _) slot)
      fun _ => ?_
    exact UsesOk.bind ih fun _ => UsesOk.pure _

theorem finishStrict_keeps (endpoint : String) (items : List (Except AppError OracleResponse)) :
    UsesOk P (finishStrict endpoint items) := by
  induction items with
  | nil => exact UsesOk.pure _
  | cons item rest ih =>
    cases item with
    | error err => exact strictAbort_keeps hcount _ _
    | ok response => exact UsesOk.bind ih fun _ => UsesOk.pure _

theorem finishEnvelope_keeps (endpoint : String)
    (items : List (Except AppError OracleResponse)) :
    UsesOk P (finishEnvelope endpoint items) := by
  induction items with
  | nil => exact UsesOk.pure _
  | cons item rest ih =>
    refine UsesOk.bind (recordItemOutcome_keeps hcount _ _ _) fun _ => ?_
    exact UsesOk.bind ih fun _ => UsesOk.pure _

theorem finish_keeps (endpoint : String) (items : List (Except AppError OracleResponse))
    (envelope : Bool) : UsesOk P (finish endpoint items envelope) := by
  unfold finish
  cases envelope with
  | false =>
    refine UsesOk.bind (finishStrict_keeps hcount _ _) fun _ => ?_
    exact UsesOk.bind (recordItemOutcome_keeps hcount _ _ _) fun _ => UsesOk.pure _
  | true => exact UsesOk.bind (finishEnvelope_keeps hcount _ _) fun _ => UsesOk.pure _

theorem validateQuoteLiveness_keeps {check : LiveCheck} {g : QuoteGeneration}
    (hlive : P (.isLive check g)) (endpoint : String) (symbol : Symbol)
    (phase : RefusalPhase) :
    UsesOk P (validateQuoteLiveness check g endpoint symbol phase) := by
  refine UsesOk.bind (UsesOk.ask hlive) fun live => ?_
  split
  · exact UsesOk.pure _
  · exact unavailable_keeps hcount _ _ _ _ _

theorem validateQuoteAddress_keeps (q : Quote) (pair : ResolvedPair) (settlement : Address)
    (endpoint : String) (phase : RefusalPhase) :
    UsesOk P (validateQuoteAddress q pair settlement endpoint phase) := by
  unfold validateQuoteAddress
  split
  · exact UsesOk.pure _
  · exact UsesOk.bind (count_keeps hcount _) fun _ => unavailable_keeps hcount _ _ _ _ _

theorem validateExpiryDeadline_keeps (expiry t : Int64) (endpoint : String) (symbol : Symbol)
    (signs : Bool) (phase : RefusalPhase) :
    UsesOk P (validateExpiryDeadline expiry t endpoint symbol signs phase) := by
  unfold validateExpiryDeadline
  split
  · exact UsesOk.pure _
  · exact unavailable_keeps hcount _ _ _ _ _

theorem validateQuoteExpiry_keeps (q : Quote) (t : Int64) (endpoint : String) (symbol : Symbol)
    (signs : Bool) (phase : RefusalPhase) :
    UsesOk P (validateQuoteExpiry q t endpoint symbol signs phase) := by
  unfold validateQuoteExpiry
  split
  · exact unavailable_keeps hcount _ _ _ _ _
  · split
    · exact unavailable_keeps hcount _ _ _ _ _
    · exact validateExpiryDeadline_keeps hcount _ _ _ _ _ _

end Counters

/-- What the builder may ask once it has the context to sign. -/
def Op.Signs (context : List B256) : Op → Prop
  | .signContext c => c = context
  | .nowUnixMs phase => phase ≠ .batchFinal
  | .isLive _ _ | .reuseGet _ | .reuseInsert _ _ | .count _ => True
  | .tokens _ | .snapshotMany _ _ => False

theorem Op.Signs.building {context : List B256} {o : Op} (h : o.Signs context) :
    Stage.building.Keeps o := by
  cases o with
  | nowUnixMs phase =>
    cases phase with
    | batchFinal => exact absurd rfl h
    | _ => rfl
  | tokens point => exact h.elim
  | snapshotMany point symbols => exact h.elim
  | _ => rfl

section Building
variable {D : Deployment} {pair : ResolvedPair} {snap : QuoteSnapshot} {x y : Address}
  {schema : PairSchema} {context : List B256}

theorem signs_count (m : Metric) : (Op.count m).Signs context := trivial

theorem reuseLookup_asks (key : ReuseKey) (expiry now : UInt64) (g : QuoteGeneration) :
    UsesOk (Op.Signs context) (reuseLookup D key context expiry now g) := by
  unfold reuseLookup
  split
  · exact UsesOk.pure _
  refine UsesOk.bind (UsesOk.ask trivial) fun found => ?_
  cases found with
  | none => exact UsesOk.pure _
  | some stored =>
    dsimp only
    split
    · exact UsesOk.pure _
    refine UsesOk.bind (UsesOk.ask trivial) fun live => ?_
    split
    · exact UsesOk.pure _
    · exact UsesOk.pure _

theorem reuseStore_asks (key : ReuseKey) (expiry : Option UInt64) (response : OracleResponse)
    (g : QuoteGeneration) : UsesOk (Op.Signs context) (reuseStore D key expiry response g) := by
  unfold reuseStore
  split
  · exact UsesOk.pure _
  · split
    · exact UsesOk.pure _
    · exact UsesOk.bind (UsesOk.ask trivial) fun _ => UsesOk.pure _

theorem liveness_asks (check : LiveCheck) (g : QuoteGeneration) (endpoint : String)
    (symbol : Symbol) (phase : RefusalPhase) :
    UsesOk (Op.Signs context) (validateQuoteLiveness check g endpoint symbol phase) :=
  validateQuoteLiveness_keeps signs_count trivial _ _ _

theorem returnReused_asks (previous : ReusedResponse) :
    UsesOk (Op.Signs context) (returnReused pair snap schema previous) := by
  refine UsesOk.bind (UsesOk.ask (fun h => nomatch h)) fun now => ?_
  refine UsesOk.bind (liveness_asks _ _ _ _ _) fun _ => ?_
  split
  · exact UsesOk.throw _
  refine UsesOk.bind (validateExpiryDeadline_keeps signs_count _ _ _ _ _ _) fun _ => ?_
  exact UsesOk.bind (count_keeps signs_count _) fun _ => UsesOk.pure _

theorem signFresh_asks (expiry : Option UInt64) :
    UsesOk (Op.Signs context) (signFresh D pair snap x y schema context expiry) := by
  refine UsesOk.bind (liveness_asks _ _ _ _ _) fun _ => ?_
  refine UsesOk.bind (UsesOk.ask (fun h => nomatch h)) fun before => ?_
  refine UsesOk.bind (validateQuoteExpiry_keeps signs_count _ _ _ _ _ _) fun _ => ?_
  refine UsesOk.bind (UsesOk.ask rfl) fun signed => ?_
  split
  · exact UsesOk.throw _
  refine UsesOk.bind (UsesOk.ask (fun h => nomatch h)) fun after => ?_
  refine UsesOk.bind (liveness_asks _ _ _ _ _) fun _ => ?_
  refine UsesOk.bind (validateQuoteExpiry_keeps signs_count _ _ _ _ _ _) fun _ => ?_
  refine UsesOk.bind (reuseStore_asks _ _ _ _) fun _ => ?_
  exact UsesOk.bind (UsesOk.ofExcept _) fun _ => UsesOk.pure _

/-- Only the context it is given is ever signed. -/
theorem reuseOrSign_asks (expiry : Option UInt64) :
    UsesOk (Op.Signs context) (reuseOrSign D pair snap x y schema context expiry) := by
  unfold reuseOrSign
  split
  · exact signFresh_asks _
  refine UsesOk.bind (liveness_asks _ _ _ _ _) fun _ => ?_
  refine UsesOk.bind (UsesOk.ask (fun h => nomatch h)) fun now => ?_
  split
  · exact UsesOk.throw _
  refine UsesOk.bind (reuseLookup_asks _ _ _ _) fun found => ?_
  split
  · exact returnReused_asks _
  · exact signFresh_asks _

theorem sessionFromQuote_asks {P : Op → Prop} (hcount : ∀ m, P (.count m)) :
    UsesOk P (sessionFromQuote pair snap schema) := by
  unfold sessionFromQuote
  split
  · exact UsesOk.pure _
  next refusal _ =>
    cases refusal with
    | missing => exact unavailable_keeps hcount _ _ _ _ _
    | invalid why => exact unavailable_keeps hcount _ _ _ _ _

variable [RainFloat]

theorem contextFromQuote_asks {P : Op → Prop} (hcount : ∀ m, P (.count m)) :
    UsesOk P (contextFromQuote D pair snap x y schema) := by
  refine UsesOk.bind (UsesOk.ofExcept _) fun publishTime => ?_
  refine UsesOk.bind (sessionFromQuote_asks hcount) fun session => ?_
  refine UsesOk.bind (UsesOk.ofExcept _) fun price => ?_
  refine UsesOk.bind (UsesOk.ofExcept _) fun expiry => ?_
  exact UsesOk.bind (UsesOk.ofExcept _) fun _ => UsesOk.pure _

theorem buildResponse_keeps :
    UsesOk Stage.building.Keeps (buildResponseFromQuotePairBound D pair snap x y schema) := by
  have hcount := Stage.building.keeps_count
  refine UsesOk.bind (validateQuoteLiveness_keeps hcount rfl _ _ _) fun _ => ?_
  refine UsesOk.bind (UsesOk.ask rfl) fun set => ?_
  refine UsesOk.bind (validateQuoteAddress_keeps hcount _ _ _ _ _) fun _ => ?_
  refine UsesOk.bind (UsesOk.ask rfl) fun now => ?_
  refine UsesOk.bind (validateQuoteExpiry_keeps hcount _ _ _ _ _ _) fun _ => ?_
  refine UsesOk.bind (contextFromQuote_asks hcount) fun signed => ?_
  exact Prog.Uses.mono (reuseOrSign_asks signed.2) fun _ ho => ho.building

end Building

theorem revalidateSlot_keeps [Alloy] (endpoint : String) (signs : Bool) (t : Int64)
    (current : Map Symbol QuoteSnapshot) (registry : TokenRegistry) (slot : BuiltSlot) :
    UsesOk Stage.closing.Keeps (revalidateSlot endpoint signs t current registry slot) := by
  have hcount := Stage.closing.keeps_count
  unfold revalidateSlot
  dsimp only
  split
  · exact unavailable_keeps hcount _ _ _ _ _
  split
  · exact unavailable_keeps hcount _ _ _ _ _
  refine UsesOk.bind (validateQuoteLiveness_keeps hcount rfl _ _ _) fun _ => ?_
  refine UsesOk.bind (validateExpiryDeadline_keeps hcount _ _ _ _ _ _) fun _ => ?_
  split
  · exact unavailable_keeps hcount _ _ _ _ _
  refine UsesOk.bind (validateQuoteLiveness_keeps hcount rfl _ _ _) fun _ => ?_
  refine UsesOk.bind (validateQuoteAddress_keeps hcount _ _ _ _ _) fun _ => ?_
  refine UsesOk.bind (validateQuoteExpiry_keeps hcount _ _ _ _ _ _) fun _ => ?_
  split
  · exact UsesOk.throw _
  · split
    · exact unavailable_keeps hcount _ _ _ _ _
    · exact UsesOk.pure _
  · exact UsesOk.pure _

section Pipeline
variable {R B : Type} {stage : Stage}

theorem buildInOrder_keeps {P : Op → Prop} {f : R → Act B} (hf : ∀ r, UsesOk P (f r))
    (slots : List (Except AppError R)) : UsesOk P (buildInOrder f slots) := by
  induction slots with
  | nil => exact UsesOk.pure _
  | cons slot rest ih =>
    refine UsesOk.bind (UsesOk.ofExcept _) fun r => UsesOk.bind (hf r) fun _ => ?_
    exact UsesOk.bind ih fun _ => UsesOk.pure _

theorem revalidateBatch_keeps {P : Op → Prop} {g : B → Act OracleResponse}
    (hg : ∀ b, UsesOk P (g b)) (envelope : Bool) (built : List (Except AppError B)) :
    UsesOk P (revalidateBatch g envelope built) := by
  induction built with
  | nil => exact UsesOk.pure _
  | cons slot rest ih =>
    refine UsesOk.bind (andThen_keeps hg slot) fun item => ?_
    split
    · exact UsesOk.throw _
    · exact UsesOk.bind ih fun _ => UsesOk.pure _

/-- Both modes build without leaving the stage, the branches included. -/
theorem buildSlots_obeys {f : R → Act B} {Q : List (Except AppError B) → Stage → Prop}
    (hf : ∀ r, UsesOk stage.Keeps (f r)) (hQ : ∀ built, Q built stage)
    (slots : List (Except AppError R)) (envelope : Bool) :
    ObeysOk Stage.next Q stage (buildSlots slots envelope f) := by
  unfold buildSlots
  cases envelope with
  | false => exact ObeysOk.act (buildInOrder_keeps hf slots) hQ
  | true =>
    refine ⟨fun b hb => ?_, fun ys => ?_⟩
    · obtain ⟨slot, -, rfl⟩ := List.mem_map.mp hb
      cases slot with
      | error e => exact trivial
      | ok r => exact hf r
    · change Par.Obeys _ _ stage (placed slots.length ys).run
      unfold placed
      split
      · exact fun built _ => hQ built
      · intro built hb
        cases hb

theorem orAbort_obeys {α : Type} {Q : α → Stage → Prop} {endpoint : String} {x : Handle B α}
    (h : ObeysOk Stage.next Q stage x) : ObeysOk Stage.next Q stage (orAbort endpoint x) :=
  ObeysOk.tryCatch h fun _ n => ⟨n, n.keeps_count _, fun _ _ ha => nomatch ha⟩

/-- Where the two later phases take a request that is not refused. -/
structure InOrder (P : Phases R B) : Prop where
  builder : ∀ rs, ObeysOk (β := Except AppError B) Stage.next
    (fun f n => n = .building ∧ ∀ r, UsesOk Stage.building.Keeps (f r)) .resolved
    (Handle.act (P.builder rs))
  rechecker : ∀ bs, ObeysOk (β := Except AppError B) Stage.next
    (fun g n => n = .closing ∧ ∀ b, UsesOk Stage.closing.Keeps (g b)) .building
    (Handle.act (P.rechecker bs))

theorem buildAndRecheck_obeys {P : Phases R B} (hP : InOrder P) (endpoint : String)
    (envelope : Bool) (resolved : List (Except AppError R)) :
    ObeysOk Stage.next (fun _ _ => True) .resolved
      (buildAndRecheck P endpoint envelope resolved) := by
  refine ObeysOk.bind (Par.Obeys.mono (hP.builder _) fun r n hr f hf => ?_)
  obtain ⟨rfl, hkeeps⟩ := hr f hf
  refine ObeysOk.bind (orAbort_obeys (buildSlots_obeys hkeeps (fun built => ?_) _ _))
  refine ObeysOk.bind (Par.Obeys.mono (hP.rechecker _) fun r n hr g hg => ?_)
  obtain ⟨rfl, hkeeps⟩ := hr g hg
  refine ObeysOk.bind (orAbort_obeys (ObeysOk.act (revalidateBatch_keeps hkeeps _ _) fun items => ?_))
  exact ObeysOk.act (finish_keeps (Stage.keeps_count _) _ _ _) fun _ => trivial

/-- Resolving reads the token set, once. -/
def ResolvesFirst (P : Phases R B) : Prop :=
  ObeysOk (β := Except AppError B) Stage.next (fun _ n => n = .resolved) .start
    (Handle.act P.resolver)

theorem serve_obeys {P : Phases R B} {endpoint : Endpoint} (hresolver : ResolvesFirst P)
    (hP : endpoint.legacy = false → InOrder P) (query : ContextQuery) (decoded : DecodedRequest) :
    ObeysOk Stage.next (fun _ _ => True) .start (serve P endpoint query decoded) := by
  unfold serve
  dsimp only
  split
  · exact ObeysOk.act (finish_keeps (Stage.keeps_count _) _ _ _) fun _ => trivial
  refine ObeysOk.bind (Par.Obeys.mono hresolver fun r n hr resolve hres => ?_)
  obtain rfl := hr resolve hres
  refine ObeysOk.bind (ObeysOk.act (abortUnresolved_keeps (Stage.keeps_count _) _ _ _) fun _ => ?_)
  split
  · refine ObeysOk.bind (ObeysOk.act (refuseLegacy_keeps (Stage.keeps_count _) _ _ _) fun items => ?_)
    exact ObeysOk.act (finish_keeps (Stage.keeps_count _) _ _ _) fun _ => trivial
  · next hlegacy => exact buildAndRecheck_obeys (hP (by simpa using hlegacy)) _ _ _

theorem postSignedContext_obeys [Abi] {P : Phases R B} {endpoint : Endpoint}
    (hresolver : ResolvesFirst P) (hP : endpoint.legacy = false → InOrder P)
    (query : Option String) (body : ByteArray) :
    (postSignedContext P endpoint query body).Obeys Stage.next (fun _ _ => True) .start := by
  have hbody : ObeysOk Stage.next (fun _ _ => True) .start
      (serveBody P endpoint (ContextQuery.parse query) body) := by
    unfold serveBody
    split
    · exact fun _ _ => trivial
    · exact serve_obeys hresolver hP _ _
  refine Par.Obeys.bind (Par.Obeys.mono hbody fun result n _ => ?_)
  exact ⟨n, n.keeps_count _, fun _ => trivial⟩

end Pipeline

section Requests
variable [Alloy]

theorem legacyV1_resolvesFirst : ResolvesFirst legacyV1 := ⟨.resolved, rfl, fun _ _ _ => rfl⟩

variable [RainFloat] {D : Deployment}

theorem pairBound_resolvesFirst (schema : PairSchema) : ResolvesFirst (pairBound D schema) :=
  ⟨.resolved, rfl, fun _ _ _ => rfl⟩

theorem pairBound_inOrder (schema : PairSchema) : InOrder (pairBound D schema) where
  builder rs := by
    refine ⟨.building, rfl, fun snapshot f hf => ⟨rfl, fun slot => ?_⟩⟩
    obtain rfl := Except.ok.inj hf
    dsimp only
    split
    · exact unavailable_keeps (Stage.keeps_count _) _ _ _ _ _
    · exact UsesOk.bind buildResponse_keeps fun _ => UsesOk.pure _
  rechecker bs := by
    refine ⟨.snapshotted, rfl, fun current => ⟨.registered, rfl, fun set => ⟨.closing, rfl,
      fun t g hg => ⟨rfl, fun slot => ?_⟩⟩⟩⟩
    obtain rfl := Except.ok.inj hg
    exact revalidateSlot_keeps _ _ _ _ _ _

theorem handler_obeys [Abi] (endpoint : Endpoint) (query : Option String) (body : ByteArray) :
    (handler D endpoint query body).Obeys Stage.next (fun _ _ => True) .start := by
  cases endpoint with
  | v1 => exact postSignedContext_obeys legacyV1_resolvesFirst (fun h => absurd h (by decide)) _ _
  | pair schema =>
    exact postSignedContext_obeys (pairBound_resolvesFirst schema)
      (fun _ => pairBound_inOrder schema) _ _

end Requests

section Reads
variable {tr : Trace Server Op Op.Answer}

/-- The answers of a request, read in the order of the stages. -/
def Ordered (tr : Trace Server Op Op.Answer) : Prop :=
  ∃ stage, Machine.run Stage.next .start (tr.map Entry.op) = some stage

/-- `t` is the only batch-final reading of the clock, and no signature came after it. -/
def ClosingClock (tr : Trace Server Op Op.Answer) (t : Int64) : Prop :=
  ∃ pre s₀ post, tr = pre ++ ⟨s₀, .nowUnixMs .batchFinal, t⟩ :: post ∧
    (∀ e ∈ pre ++ post, e.op ≠ .nowUnixMs .batchFinal) ∧
    ∀ e ∈ post, ∀ context, e.op ≠ .signContext context

/-- `m` is what the only snapshot at `point` found, in the state `s₀`. -/
def OnlySnapshot (tr : Trace Server Op Op.Answer) (point : ReadPoint) (s₀ : Server)
    (m : Map Symbol QuoteSnapshot) : Prop :=
  ∃ pre symbols post, tr = pre ++ ⟨s₀, .snapshotMany point symbols, m⟩ :: post ∧
    ∀ e ∈ pre ++ post, ∀ symbols', e.op ≠ .snapshotMany point symbols'

/-- The only read of the token set at `point` happened in the state `s₀`. -/
def OnlyTokens (tr : Trace Server Op Op.Answer) (point : ReadPoint) (s₀ : Server) : Prop :=
  ∃ pre post, tr = pre ++ ⟨s₀, .tokens point, s₀.tokens⟩ :: post ∧
    ∀ e ∈ pre ++ post, e.op ≠ .tokens point

/-- Any read at the point is the one that it says. -/
lemma OnlySnapshot.found {point : ReadPoint} {s₀ s₁ : Server} {m m' : Map Symbol QuoteSnapshot}
    {symbols : List Symbol} (h : OnlySnapshot tr point s₀ m)
    (hmem : (⟨s₁, .snapshotMany point symbols, m'⟩ : Entry Server Op Op.Answer) ∈ tr) : m' = m := by
  obtain ⟨pre, symbols₀, post, rfl, honly⟩ := h
  rcases List.mem_append.mp hmem with hpre | hpost
  · exact absurd rfl (honly _ (List.mem_append_left _ hpre) symbols)
  · rcases List.mem_cons.mp hpost with heq | hpost
    · cases heq
      rfl
    · exact absurd rfl (honly _ (List.mem_append_right _ hpost) symbols)

lemma OnlyTokens.found {point : ReadPoint} {s₀ s₁ : Server} {set : TokenSet}
    (h : OnlyTokens tr point s₀)
    (hmem : (⟨s₁, .tokens point, set⟩ : Entry Server Op Op.Answer) ∈ tr) : set = s₀.tokens := by
  obtain ⟨pre, post, rfl, honly⟩ := h
  rcases List.mem_append.mp hmem with hpre | hpost
  · exact absurd rfl (honly _ (List.mem_append_left _ hpre))
  · rcases List.mem_cons.mp hpost with heq | hpost
    · cases heq
      rfl
    · exact absurd rfl (honly _ (List.mem_append_right _ hpost))

namespace Ordered

theorem closingClock (h : Ordered tr) {t : Int64}
    (ht : ∃ s₀, (⟨s₀, .nowUnixMs .batchFinal, t⟩ : Entry Server Op Op.Answer) ∈ tr) :
    ClosingClock tr t := by
  obtain ⟨stage, hrun⟩ := h
  obtain ⟨s₀, hmem⟩ := ht
  have hcross : ∀ (n : Stage) o (n' : Stage), o = Op.nowUnixMs .batchFinal →
      n.next o = some n' → n.rank < Stage.closing.rank ∧ Stage.closing.rank ≤ n'.rank := by
    rintro n o n' rfl hn
    cases n <;> cases hn
    decide
  obtain ⟨pre, post, rfl, honly, hafter⟩ :=
    trace_once (P := (· = Op.nowUnixMs .batchFinal)) Stage.rank_le hrun hmem rfl hcross
  refine ⟨pre, s₀, post, rfl, honly, fun e he context heq => ?_⟩
  obtain ⟨n, n', hn, hle⟩ := hafter e he
  rw [heq] at hn
  cases n <;> cases hn
  exact absurd hle (by decide)

theorem onlySnapshot (h : Ordered tr) {point : ReadPoint} {s₀ : Server} {symbols : List Symbol}
    {m : Map Symbol QuoteSnapshot} (hpoint : point = .request ∨ point = .batchFinal)
    (hmem : (⟨s₀, .snapshotMany point symbols, m⟩ : Entry Server Op Op.Answer) ∈ tr) :
    OnlySnapshot tr point s₀ m := by
  obtain ⟨stage, hrun⟩ := h
  have hcross : ∃ c, ∀ (n : Stage) o (n' : Stage), (∃ l, o = Op.snapshotMany point l) →
      n.next o = some n' → n.rank < c ∧ c ≤ n'.rank := by
    rcases hpoint with rfl | rfl
    · refine ⟨Stage.building.rank, ?_⟩
      rintro n o n' ⟨l, rfl⟩ hn
      cases n <;> cases hn
      decide
    · refine ⟨Stage.snapshotted.rank, ?_⟩
      rintro n o n' ⟨l, rfl⟩ hn
      cases n <;> cases hn
      decide
  obtain ⟨c, hcross⟩ := hcross
  obtain ⟨pre, post, rfl, honly, -⟩ :=
    trace_once (P := fun o => ∃ l, o = Op.snapshotMany point l) Stage.rank_le hrun hmem
      ⟨symbols, rfl⟩ hcross
  exact ⟨pre, symbols, post, rfl, fun e he l heq => honly e he ⟨l, heq⟩⟩

theorem onlyTokens (h : Ordered tr) {point : ReadPoint} {s₀ : Server}
    (hpoint : point = .request ∨ point = .batchFinal)
    (hmem : (⟨s₀, .tokens point, s₀.tokens⟩ : Entry Server Op Op.Answer) ∈ tr) :
    OnlyTokens tr point s₀ := by
  obtain ⟨stage, hrun⟩ := h
  have hcross : ∃ c, ∀ (n : Stage) o (n' : Stage), o = Op.tokens point →
      n.next o = some n' → n.rank < c ∧ c ≤ n'.rank := by
    rcases hpoint with rfl | rfl
    · refine ⟨Stage.resolved.rank, ?_⟩
      rintro n o n' rfl hn
      cases n <;> cases hn
      decide
    · refine ⟨Stage.registered.rank, ?_⟩
      rintro n o n' rfl hn
      cases n <;> cases hn
      decide
  obtain ⟨c, hcross⟩ := hcross
  obtain ⟨pre, post, rfl, honly, -⟩ :=
    trace_once (P := (· = Op.tokens point)) Stage.rank_le hrun hmem rfl hcross
  exact ⟨pre, post, rfl, honly⟩

end Ordered

end Reads

end OracleServer
