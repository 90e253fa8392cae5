import OracleServer.Handler
import OracleServer.Lib.Tally

/-! The counters of the `/context` endpoints. An operation weighs the increments it makes, so
the weight of a request's trace is what the request has added to the counters. A build or
a re-check of one item adds the refusal that belongs to its error, and nothing else. -/
namespace OracleServer

open Interaction

/-- `oracle_context_request_total`, `oracle_context_item_total`, `oracle_quote_refusals_total`. -/
inductive Counter
  | contextRequest
  | contextItem
  | quoteRefusals
  deriving DecidableEq, Repr

/-- Increments of the counters, each under its endpoint and its outcome or reason. -/
abbrev Growth := Counter → Multiset (String × String)

def Metric.growth : Metric → Growth
  | .contextRequest endpoint outcome => Pi.single .contextRequest {(endpoint, outcome)}
  | .contextItem endpoint outcome count =>
    Pi.single .contextItem (Multiset.replicate count (endpoint, outcome))
  | .quoteRefusal reason endpoint _ _ => Pi.single .quoteRefusals {(endpoint, reason)}
  | .quoteAddressMismatch _ => 0
  | .signatureReuse => 0

def Op.growth : Op → Growth
  | .count m => m.growth
  | _ => 0

def BatchItemResponse.code : BatchItemResponse → String
  | .ok _ => "ok"
  | .error e => e.error

/-- The codes a response carries: one per item, or that of the error in their place. -/
def verdicts : Except AppError ContextResponse → List String
  | .ok (.strict responses) => responses.map fun _ => "ok"
  | .ok (.envelope items) => items.map BatchItemResponse.code
  | .error e => [e.code]

instance : Fintype UnavailableReason where
  elems := {.noLiveQuote, .expiredQuote, .legacySchema, .missingSession, .invalidSession}
  complete reason := by cases reason <;> decide

/-- The code of an `Unavailable` error. -/
def IsReason (code : String) : Prop := ∃ reason : UnavailableReason, reason.code = code

instance (code : String) : Decidable (IsReason code) :=
  inferInstanceAs (Decidable (∃ reason : UnavailableReason, reason.code = code))

/-- The refusal that belongs to a code. -/
def refusal (endpoint code : String) : Growth :=
  if IsReason code then Pi.single .quoteRefusals {(endpoint, code)} else 0

@[simp] lemma refusal_reason (endpoint : String) (reason : UnavailableReason) :
    refusal endpoint reason.code = Pi.single .quoteRefusals {(endpoint, reason.code)} :=
  if_pos ⟨reason, rfl⟩

@[simp] lemma refusal_ok (endpoint : String) : refusal endpoint "ok" = 0 := if_neg (by decide)

@[simp] lemma refusal_internal (endpoint message : String) :
    refusal endpoint (AppError.internal message).code = 0 :=
  if_neg (show ¬ IsReason "internal_error" by decide)

@[simp] lemma refusal_badRequest (endpoint detail : String) :
    refusal endpoint (AppError.badRequest detail).code = 0 :=
  if_neg (show ¬ IsReason "bad_request" by decide)

/-- Not the error that `effectiveExpiryUnixMs` builds without counting it. -/
def AppError.Counted (e : AppError) : Prop :=
  ∀ quote err, effectiveExpiryUnixMs quote = .error err → e.toErrorResponse ≠ err.toErrorResponse

def missingDeadline : String := "Execution deadline is missing or invalid."

lemma effectiveExpiryUnixMs_error {quote : Quote} {err : AppError}
    (h : effectiveExpiryUnixMs quote = .error err) :
    err = .unavailable .expiredQuote missingDeadline := by
  unfold effectiveExpiryUnixMs at h
  split at h
  · cases h
  · exact (Except.error.inj h).symm

lemma AppError.counted_of_code {e : AppError} (h : e.code ≠ "expired_quote") : e.Counted := by
  intro quote err herr heq
  obtain rfl := effectiveExpiryUnixMs_error herr
  exact h (congrArg ErrorResponse.error heq)

lemma AppError.counted_of_detail {reason : UnavailableReason} {detail : String}
    (h : detail ≠ missingDeadline) : (AppError.unavailable reason detail).Counted := by
  intro quote err herr heq
  obtain rfl := effectiveExpiryUnixMs_error herr
  exact h (congrArg ErrorResponse.detail heq)

lemma append_ne {p rest t : String} (h : ¬ p.toList <+: t.toList) : p ++ rest ≠ t := by
  intro heq
  apply h
  rw [← heq, String.toList_append]
  exact List.prefix_append _ _

section Refusals
variable {α : Type} {tag : String} {Q : α → Prop}

/-- A part of a request that counts nothing when it returns, and when it fails exactly the
refusal that belongs to its error. -/
abbrev Refuses (tag : String) (Q : α → Prop) (x : Act α) : Prop :=
  Charges Op.growth (fun e => refusal tag e.code) AppError.Counted Q x

lemma ask_refuses {o : Op} (h : o.growth = 0) : Refuses tag (fun _ => True) (Act.ask o) :=
  Charges.ask h

lemma internal_refuses (message : String) : Refuses tag Q (throw (.internal message)) :=
  Charges.throw (refusal_internal tag message) (AppError.counted_of_code (by simp [AppError.code]))

lemma ofExcept_refuses {x : Except AppError α}
    (herror : ∀ e, x = .error e → ∃ message, e = .internal message)
    (hok : ∀ a, x = .ok a → Q a) : Refuses tag Q (Act.ofExcept x) := by
  apply Charges.ofExcept hok
  intro e he
  obtain ⟨message, rfl⟩ := herror e he
  exact ⟨refusal_internal tag message, AppError.counted_of_code (by simp [AppError.code])⟩

lemma unavailable_refuses (reason : UnavailableReason) (symbol : Symbol) (phase : RefusalPhase)
    {detail : String} (h : reason = .expiredQuote → detail ≠ missingDeadline) :
    Refuses tag Q (unavailable reason tag symbol phase detail) := by
  have hweight : (Op.count (.quoteRefusal reason.code tag symbol phase.label)).growth =
      refusal tag (AppError.unavailable reason detail).code := (refusal_reason tag reason).symm
  have hcounted : (AppError.unavailable reason detail).Counted := by
    by_cases hreason : reason = .expiredQuote
    · exact AppError.counted_of_detail (h hreason)
    · apply AppError.counted_of_code
      cases reason <;> simp [AppError.code, UnavailableReason.code] at hreason ⊢
  exact Charges.raise (c := fun e => refusal tag e.code) hweight hcounted

lemma noLiveQuoteAt_refuses (symbol : Symbol) (phase : RefusalPhase) :
    Refuses tag Q (noLiveQuoteAt tag symbol phase) :=
  unavailable_refuses _ _ _ fun h => nomatch h

lemma sessionRefused_refuses (symbol : Symbol) (refused : SessionRefusal) :
    Refuses tag Q (sessionRefused tag symbol refused) := by
  cases refused with
  | missing => exact unavailable_refuses _ _ _ fun h => nomatch h
  | invalid why => exact unavailable_refuses _ _ _ fun h => nomatch h

lemma validateQuoteLiveness_refuses (check : LiveCheck) (generation : QuoteGeneration)
    (symbol : Symbol) (phase : RefusalPhase) :
    Refuses tag (fun _ => True) (validateQuoteLiveness check generation tag symbol phase) := by
  apply Charges.bind (ask_refuses rfl)
  intro live _
  cases live with
  | true => exact Charges.pure trivial
  | false => exact noLiveQuoteAt_refuses symbol phase

lemma validateQuoteAddress_refuses (quote : Quote) (pair : ResolvedPair) (settlement : Address)
    (phase : RefusalPhase) :
    Refuses tag (fun _ => True) (validateQuoteAddress quote pair settlement tag phase) := by
  unfold validateQuoteAddress
  split
  · exact Charges.pure trivial
  · apply Charges.bind (ask_refuses rfl)
    exact fun _ _ => noLiveQuoteAt_refuses pair.symbol phase

lemma validateExpiryDeadline_refuses (expiry checkedAt : Int64) (symbol : Symbol)
    (signsExpiry : Bool) (phase : RefusalPhase) :
    Refuses tag (fun _ => True)
      (validateExpiryDeadline expiry checkedAt tag symbol signsExpiry phase) := by
  unfold validateExpiryDeadline
  split
  · exact Charges.pure trivial
  · apply unavailable_refuses
    intro _
    simp only [String.append_assoc]
    exact append_ne (by decide)

/-- A quote without a usable deadline is refused here, by an error that is counted. -/
lemma validateQuoteExpiry_refuses (quote : Quote) (checkedAt : Int64) (symbol : Symbol)
    (signsExpiry : Bool) (phase : RefusalPhase) :
    Refuses tag (fun _ => ∃ effective, effectiveExpiryUnixMs quote = .ok effective)
      (validateQuoteExpiry quote checkedAt tag symbol signsExpiry phase) := by
  unfold validateQuoteExpiry
  split
  · apply unavailable_refuses
    intro _
    simp only [String.append_assoc]
    exact append_ne (by decide)
  · next effective heffective =>
    split
    · apply unavailable_refuses
      intro _
      simp only [String.append_assoc]
      exact append_ne (by decide)
    · apply (validateExpiryDeadline_refuses _ _ _ _ _).mono
      exact fun _ _ => ⟨effective, heffective⟩

end Refusals

section Build
variable {D : Deployment} {pair : ResolvedPair} {quote : QuoteSnapshot} {x y : Address}
  {schema : PairSchema} {effective : Int64}

lemma reuseLookup_refuses {tag : String} (key : ReuseKey) (context : List B256)
    (expiry now : UInt64) (generation : QuoteGeneration) :
    Refuses tag (fun _ => True) (reuseLookup D key context expiry now generation) := by
  unfold reuseLookup
  split
  · exact Charges.pure trivial
  apply Charges.bind (ask_refuses rfl)
  intro found _
  cases found with
  | none => exact Charges.pure trivial
  | some stored =>
    dsimp only
    split
    · exact Charges.pure trivial
    apply Charges.bind (ask_refuses rfl)
    intro live _
    cases live with
    | false => exact Charges.pure trivial
    | true => exact Charges.pure trivial

lemma reuseStore_refuses {tag : String} (key : ReuseKey) (expiry : Option UInt64)
    (response : OracleResponse) (generation : QuoteGeneration) :
    Refuses tag (fun _ => True) (reuseStore D key expiry response generation) := by
  cases expiry with
  | none => exact Charges.pure trivial
  | some expiry =>
    unfold reuseStore
    dsimp only
    split
    · exact Charges.pure trivial
    · exact Charges.bind (ask_refuses rfl) fun _ _ => Charges.pure trivial

lemma returnReused_refuses (previous : ReusedResponse) :
    Refuses schema.tag (fun _ => True) (returnReused pair quote schema previous) := by
  apply Charges.bind (ask_refuses rfl)
  intro validatedAt _
  apply Charges.bind (validateQuoteLiveness_refuses _ _ _ _)
  intro _ _
  split
  · exact internal_refuses _
  · apply Charges.bind (validateExpiryDeadline_refuses _ _ _ _ _)
    intro _ _
    exact Charges.bind (ask_refuses rfl) fun _ _ => Charges.pure trivial

/-- The deadline was checked before the signature, so reading it again cannot fail. -/
lemma signFresh_refuses (heffective : effectiveExpiryUnixMs quote.quote = .ok effective)
    (context : List B256) (expiry : Option UInt64) :
    Refuses schema.tag (fun _ => True) (signFresh D pair quote x y schema context expiry) := by
  apply Charges.bind (validateQuoteLiveness_refuses _ _ _ _)
  intro _ _
  apply Charges.bind (ask_refuses rfl)
  intro beforeSign _
  apply Charges.bind (validateQuoteExpiry_refuses _ _ _ _ _)
  intro _ _
  apply Charges.bind (ask_refuses rfl)
  intro signed _
  cases signed with
  | error e => exact internal_refuses e
  | ok signed =>
    obtain ⟨signature, signer⟩ := signed
    apply Charges.bind (ask_refuses rfl)
    intro validatedAt _
    apply Charges.bind (validateQuoteLiveness_refuses _ _ _ _)
    intro _ _
    apply Charges.bind (validateQuoteExpiry_refuses _ _ _ _ _)
    intro _ _
    apply Charges.bind (reuseStore_refuses _ _ _ _)
    intro _ _
    rw [heffective]
    exact Charges.pure trivial

lemma reuseOrSign_refuses (heffective : effectiveExpiryUnixMs quote.quote = .ok effective)
    (context : List B256) (expiry : Option UInt64) :
    Refuses schema.tag (fun _ => True) (reuseOrSign D pair quote x y schema context expiry) := by
  cases expiry with
  | none => exact signFresh_refuses heffective context none
  | some e =>
    apply Charges.bind (validateQuoteLiveness_refuses _ _ _ _)
    intro _ _
    apply Charges.bind (ask_refuses rfl)
    intro now _
    split
    · exact internal_refuses _
    · apply Charges.bind (reuseLookup_refuses _ _ _ _ _)
      intro found _
      cases found with
      | some previous => exact returnReused_refuses previous
      | none => exact signFresh_refuses heffective context (some e)

lemma sessionFromQuote_refuses :
    Refuses schema.tag (fun _ => True) (sessionFromQuote pair quote schema) := by
  unfold sessionFromQuote
  split
  · exact Charges.pure trivial
  · exact sessionRefused_refuses _ _

lemma signedExpiry_error (heffective : effectiveExpiryUnixMs quote.quote = .ok effective)
    {e : AppError} (h : signedExpiry schema quote.quote = .error e) :
    ∃ message, e = .internal message := by
  unfold signedExpiry expiryFromQuote at h
  rw [heffective] at h
  split at h
  · simp only [Except.bind, bind] at h
    split at h
    · cases h
    · exact ⟨_, (Except.error.inj h).symm⟩
  · cases h

variable [RainFloat]

lemma contextFromQuote_refuses (heffective : effectiveExpiryUnixMs quote.quote = .ok effective) :
    Refuses schema.tag (fun _ => True) (contextFromQuote D pair quote x y schema) := by
  have hpublish : ∀ e, publishTimeFromQuote quote.quote = .error e →
      ∃ message, e = .internal message := by
    intro e h
    unfold publishTimeFromQuote at h
    split at h
    · cases h
    · exact ⟨_, (Except.error.inj h).symm⟩
  apply Charges.bind (ofExcept_refuses hpublish fun _ _ => trivial)
  intro publishTime _
  apply Charges.bind sessionFromQuote_refuses
  intro session _
  apply Charges.bind (ofExcept_refuses (fun e => except_mapError_error) fun _ _ => trivial)
  intro price _
  apply Charges.bind (ofExcept_refuses (fun e => signedExpiry_error heffective) fun _ _ => trivial)
  intro expiry _
  apply Charges.bind (ofExcept_refuses (fun e => except_mapError_error) fun _ _ => trivial)
  intro context _
  exact Charges.pure trivial

theorem buildResponse_refuses :
    Refuses schema.tag (fun _ => True) (buildResponseFromQuotePairBound D pair quote x y schema) := by
  apply Charges.bind (validateQuoteLiveness_refuses _ _ _ _)
  intro _ _
  apply Charges.bind (ask_refuses rfl)
  intro set _
  apply Charges.bind (validateQuoteAddress_refuses _ _ _ _)
  intro _ _
  apply Charges.bind (ask_refuses rfl)
  intro now _
  apply Charges.bind (validateQuoteExpiry_refuses _ _ _ _ _)
  intro _ hexpiry
  obtain ⟨effective, heffective⟩ := hexpiry
  apply Charges.bind (contextFromQuote_refuses heffective)
  intro signed _
  exact reuseOrSign_refuses heffective signed.1 signed.2

end Build

/-- The current quote's deadline is checked before it is compared with. -/
theorem revalidateSlot_refuses [Alloy] {tag : String} (signsExpiry : Bool) (validatedAt : Int64)
    (current : Map Symbol QuoteSnapshot) (registry : TokenRegistry) (slot : BuiltSlot) :
    Refuses tag (fun _ => True)
      (revalidateSlot tag signsExpiry validatedAt current registry slot) := by
  unfold revalidateSlot
  split
  · exact noLiveQuoteAt_refuses _ _
  dsimp only
  split
  · exact noLiveQuoteAt_refuses _ _
  apply Charges.bind (validateQuoteLiveness_refuses _ _ _ _)
  intro _ _
  apply Charges.bind (validateExpiryDeadline_refuses _ _ _ _ _)
  intro _ _
  split
  · exact noLiveQuoteAt_refuses _ _
  next currentQuote _ =>
  apply Charges.bind (validateQuoteLiveness_refuses _ _ _ _)
  intro _ _
  apply Charges.bind (validateQuoteAddress_refuses _ _ _ _)
  intro _ _
  apply Charges.bind (validateQuoteExpiry_refuses _ _ _ _ _)
  intro _ hexpiry
  obtain ⟨effective, heffective⟩ := hexpiry
  rw [heffective]
  cases signsExpiry with
  | false => exact Charges.pure trivial
  | true =>
    dsimp only
    split
    · exact unavailable_refuses _ _ _ fun _ => by decide
    · exact Charges.pure trivial

end OracleServer
