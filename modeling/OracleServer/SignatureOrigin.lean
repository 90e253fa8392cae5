import OracleServer.Lib.Compose
import OracleServer.WorldSafety

/-! Where a delivered signature comes from. A response enters the reuse map and the wire
only as it left the signer, so in every run each signature that is delivered was once the
answer to signing the very context it is delivered with. -/
namespace OracleServer

open Interaction Interaction.Contract

/-- `G` holds of the context of the response and what it was signed with. -/
def OracleResponse.Vouched (G : List B256 → List UInt8 × Address → Prop) (r : OracleResponse) :
    Prop :=
  G r.context (r.signature, r.signer)

/-- The input answers a sign, if it is one, as `G` allows. -/
def Honest (G : List B256 → List UInt8 × Address → Prop) (i : Input) : Op → Prop
  | .signContext context => ∀ signed, i.signed = .ok signed → G context signed
  | _ => True

structure Reusable (G : List B256 → List UInt8 × Address → Prop) (s : Server) : Prop where
  stored : ∀ key stored, s.reuse.lookup key = some stored → stored.response.Vouched G

def Stores (G : List B256 → List UInt8 × Address → Prop) : Op → Prop
  | .reuseInsert _ stored => stored.response.Vouched G
  | _ => True

open Classical in
/-- The accesses of a server whose signer is honest. -/
noncomputable def honestly (D : Deployment) (G : List B256 → List UInt8 × Address → Prop)
    (i : Input) (o : Op) (s : Server) : Option (o.Answer × Server) :=
  if Honest G i o then Server.perform D i o s else none

section Contract
variable {D : Deployment} {G : List B256 → List UInt8 × Address → Prop}

lemma honestly_some {i : Input} {o : Op} {s s' : Server} {answer : o.Answer} :
    honestly D G i o s = some (answer, s') ↔
      Honest G i o ∧ Server.perform D i o s = some (answer, s') := by
  unfold honestly
  split
  · next h => simp [h]
  · next h => simp [h]

lemma Reusable.perform {i : Input} {o : Op} {s s' : Server} {answer : o.Answer}
    (hs : Reusable G s) (hpre : Stores G o) (h : Server.perform D i o s = some (answer, s')) :
    Reusable G s' := by
  rcases Server.perform_cases h with rfl | ⟨m, rfl⟩ | ⟨key, stored, rfl, -, rfl⟩
  · exact hs
  · exact ⟨hs.stored⟩
  · refine ⟨fun k st hk => ?_⟩
    rw [Map.lookup_insert_eq] at hk
    split at hk
    · obtain rfl := Option.some.inj hk
      exact hpre
    · exact hs.stored k st hk

/-- The contract of a request beside an honest signer. -/
noncomputable def vouching (D : Deployment) (G : List B256 → List UInt8 × Address → Prop) :
    Contract Server Input Op Op.Answer where
  perform := honestly D G
  Admissible _ := True
  Inv := Reusable G
  Rel _ _ := True
  Pre o _ := Stores G o
  refl _ := trivial
  trans _ _ := trivial
  sound _ hs hpre h := ⟨hs.perform hpre (honestly_some.mp h).2, trivial⟩

end Contract

section Builder
variable {D : Deployment} {G : List B256 → List UInt8 × Address → Prop} {pair : ResolvedPair}
  {snap : QuoteSnapshot} {x y : Address} {schema : PairSchema} {tr : ServerTrace} {s : Server}

lemma count_vouches (m : Metric) (s : Server) : (vouching D G).Pre (.count m) s := trivial

lemma liveness_vouches {check : LiveCheck} {g : QuoteGeneration} {endpoint : String}
    {symbol : Symbol} {phase : RefusalPhase} : (vouching D G).SafeOk (fun _ _ _ => True)
      (validateQuoteLiveness check g endpoint symbol phase) tr s := by
  refine SafeOk.ask fun t u _ => ⟨trivial, fun i live v _ _ => ?_⟩
  cases live with
  | true => exact SafeOk.pure fun _ _ _ => trivial
  | false => exact unavailable_safe count_vouches _ _ _ _ _

lemma reuseLookup_vouches {key : ReuseKey} {context : List B256} {expiry now : UInt64}
    {g : QuoteGeneration} :
    (vouching D G).SafeOk (fun r _ _ => ∀ previous, r = some previous → previous.response.Vouched G)
      (reuseLookup D key context expiry now g) tr s := by
  have hnone : ∀ {t u}, (vouching D G).SafeOk (ε := AppError) (fun (r : Option ReusedResponse) _ _ =>
      ∀ previous, r = some previous → previous.response.Vouched G) (pure none) t u := by
    intro t u
    refine SafeOk.pure fun _ _ _ previous hp => ?_
    cases hp
  unfold reuseLookup
  split
  · exact hnone
  refine SafeOk.ask fun t u hl => ⟨trivial, fun i found v _ hp => ?_⟩
  obtain ⟨hfound, -⟩ := Prod.mk.inj (Option.some.inj (honestly_some.mp hp).2)
  cases found with
  | none => exact hnone
  | some stored =>
    dsimp only
    split
    · exact hnone
    refine SafeOk.ask fun t' u' _ => ⟨trivial, fun i' live v' _ _ => ?_⟩
    cases live with
    | false => exact hnone
    | true =>
      refine SafeOk.pure fun _ _ _ previous hprevious => ?_
      obtain ⟨rfl, -⟩ := reusable_some hprevious
      exact hl.inv.stored key stored hfound

lemma returnReused_vouches {previous : ReusedResponse} (h : previous.response.Vouched G) :
    (vouching D G).SafeOk (fun b _ _ => b.response.Vouched G)
      (returnReused pair snap schema previous) tr s := by
  refine SafeOk.ask fun t u _ => ⟨trivial, fun i now v _ _ => ?_⟩
  refine SafeOk.bind (liveness_vouches.mono fun _ t₁ u₁ _ _ => ?_)
  split
  · exact SafeOk.throw
  · refine SafeOk.bind ((validateExpiryDeadline_safe count_vouches _ _ _ _ _ _).mono
      fun _ t₂ u₂ _ _ => ?_)
    exact SafeOk.ask fun t₃ u₃ _ => ⟨trivial, fun _ _ _ _ _ => SafeOk.pure fun _ _ _ => h⟩

/-- A fresh response holds what the signer answered, and is stored with it. -/
lemma signFresh_vouches {context : List B256} {expiry : Option UInt64} :
    (vouching D G).SafeOk (fun b _ _ => b.response.Vouched G)
      (signFresh D pair snap x y schema context expiry) tr s := by
  refine SafeOk.bind (liveness_vouches.mono fun _ t₁ u₁ _ _ => ?_)
  refine SafeOk.ask fun t₂ u₂ _ => ⟨trivial, fun i₂ before v₂ _ _ => ?_⟩
  refine SafeOk.bind ((validateQuoteExpiry_safe count_vouches _ _ _ _ _ _).mono
    fun _ t₃ u₃ _ _ => ?_)
  refine SafeOk.ask fun t₄ u₄ _ => ⟨trivial, fun i₄ signed v₄ _ hp₄ => ?_⟩
  obtain ⟨hhonest, hp₄⟩ := honestly_some.mp hp₄
  obtain ⟨hsigned, -⟩ := Prod.mk.inj (Option.some.inj hp₄)
  cases signed with
  | error e => exact SafeOk.throw
  | ok signed =>
    obtain ⟨signature, signer⟩ := signed
    have hvouched : G context (signature, signer) := hhonest _ hsigned
    refine SafeOk.ask fun t₅ u₅ _ => ⟨trivial, fun i₅ after v₅ _ _ => ?_⟩
    refine SafeOk.bind (liveness_vouches.mono fun _ t₆ u₆ _ _ => ?_)
    refine SafeOk.bind ((validateQuoteExpiry_safe count_vouches _ _ _ _ _ _).mono
      fun _ t₇ u₇ _ _ => ?_)
    refine SafeOk.bind (SafeOk.mono (Q := fun _ _ _ => True) ?_ fun _ t₈ u₈ _ _ => ?_)
    · unfold reuseStore
      cases expiry with
      | none => exact SafeOk.pure fun _ _ _ => trivial
      | some expiry =>
        dsimp only
        split
        · exact SafeOk.pure fun _ _ _ => trivial
        · exact SafeOk.ask fun t u _ =>
            ⟨hvouched, fun _ _ _ _ _ => SafeOk.pure fun _ _ _ => trivial⟩
    · refine SafeOk.bind (SafeOk.ofExcept fun validity t₉ u₉ _ _ => ?_)
      exact SafeOk.pure fun _ _ _ => hvouched

variable [RainFloat]

lemma buildResponse_vouches (hsigns : schema.signsExpiry = true) :
    (vouching D G).SafeOk (fun b _ _ => b.response.Vouched G)
      (buildResponseFromQuotePairBound D pair snap x y schema) tr s := by
  refine SafeOk.bind (liveness_vouches.mono fun _ t₁ u₁ _ _ => ?_)
  refine SafeOk.ask fun t₂ u₂ _ => ⟨trivial, fun i₂ set v₂ _ _ => ?_⟩
  refine SafeOk.bind ((validateQuoteAddress_safe count_vouches _ _ _ _ _).mono fun _ t₃ u₃ _ _ => ?_)
  refine SafeOk.ask fun t₄ u₄ _ => ⟨trivial, fun i₄ now v₄ _ _ => ?_⟩
  refine SafeOk.bind ((validateQuoteExpiry_safe count_vouches _ _ _ _ _ _).mono
    fun _ t₅ u₅ _ _ => ?_)
  refine SafeOk.bind ((contextFromQuote_safe count_vouches hsigns).mono
    fun signed t₆ u₆ _ hsigned => ?_)
  obtain ⟨expiry, hexpiry, -⟩ := hsigned
  rw [hexpiry]
  refine SafeOk.bind (liveness_vouches.mono fun _ t₇ u₇ _ _ => ?_)
  refine SafeOk.ask fun t₈ u₈ _ => ⟨trivial, fun i₈ now' v₈ _ _ => ?_⟩
  split
  · exact SafeOk.throw
  · refine SafeOk.bind (reuseLookup_vouches.mono fun found t₉ u₉ _ hfound => ?_)
    cases found with
    | some previous => exact returnReused_vouches (hfound previous rfl)
    | none => exact signFresh_vouches

end Builder

section Handler
variable [Alloy] [RainFloat] {D : Deployment} {G : List B256 → List UInt8 × Address → Prop}
  {schema : PairSchema} {tr : ServerTrace} {s : Server}

omit [RainFloat] in
/-- The batch-final check hands the response on unchanged. -/
lemma revalidateSlot_vouches {slot : BuiltSlot} {endpoint : String} {signs : Bool} {t : Int64}
    {current : Map Symbol QuoteSnapshot} {registry : TokenRegistry}
    (h : slot.response.response.Vouched G) :
    (vouching D G).SafeOk (fun r _ _ => r.Vouched G)
      (revalidateSlot endpoint signs t current registry slot) tr s := by
  have hrefuse : ∀ {α : Type} {Q : Post Server Op Op.Answer α} {reason symbol phase detail t u},
      (vouching D G).SafeOk Q (unavailable reason endpoint symbol phase detail) t u :=
    fun {_ _ _ _ _ _ _ _} => unavailable_safe count_vouches _ _ _ _ _
  unfold revalidateSlot
  dsimp only
  split
  · exact hrefuse
  split
  · exact hrefuse
  refine SafeOk.bind (liveness_vouches.mono fun _ t₁ u₁ _ _ => ?_)
  refine SafeOk.bind ((validateExpiryDeadline_safe count_vouches _ _ _ _ _ _).mono
    fun _ t₂ u₂ _ _ => ?_)
  split
  · exact hrefuse
  refine SafeOk.bind (liveness_vouches.mono fun _ t₃ u₃ _ _ => ?_)
  refine SafeOk.bind ((validateQuoteAddress_safe count_vouches _ _ _ _ _).mono fun _ t₄ u₄ _ _ => ?_)
  refine SafeOk.bind ((validateQuoteExpiry_safe count_vouches _ _ _ _ _ _).mono
    fun _ t₅ u₅ _ _ => ?_)
  split
  · exact SafeOk.throw
  · split
    · exact hrefuse
    · exact SafeOk.pure fun _ _ _ => h
  · exact SafeOk.pure fun _ _ _ => h

/-- What a request owes for the signatures of its answer. -/
def Vouches (G : List B256 → List UInt8 × Address → Prop) :
    Post Server Op Op.Answer (Except AppError ContextResponse) :=
  fun result _ _ => ∀ response (i : ℕ) r, result = .ok response → response.okAt i = some r →
    r.Vouched G

theorem handler_vouches [Abi] {endpoint : Endpoint} {query : Option String} {body : ByteArray}
    (hs : Reusable G s) :
    (vouching D G).SafePar (Vouches G) (handler D endpoint query body) tr s := by
  have hresolved : ℕ → Stable (vouching D G) (fun (_ : ResolvedSlot) _ _ => True) :=
    fun _ _ _ _ _ _ _ h => h
  have hbuilt : ℕ → Stable (vouching D G) (fun (b : BuiltSlot) _ _ =>
    b.response.response.Vouched G) := fun _ _ _ _ _ _ _ h => h
  have hdelivered : ℕ → Stable (vouching D G) (fun (r : OracleResponse) _ _ => r.Vouched G) :=
    fun _ _ _ _ _ _ _ h => h
  have hQ : ∀ _ : DecodedRequest, Stable (vouching D G) (fun response _ _ => ∀ i r,
      ContextResponse.okAt i response = some r → r.Vouched G) := fun _ _ _ _ _ _ _ h => h
  cases endpoint with
  | v1 =>
    refine SafePar.mono hs (postSignedContext_safe count_vouches hs hQ fun decoded => ?_)
      fun result t u _ h response i r hresult hr => ?_
    · refine SafePar.mono hs (serve_legacyV1_safe count_vouches (fun _ => trivial) hs)
        fun result t u _ h response hresponse i r hr => ?_
      exact absurd (h response hresponse i r hr).1 (by decide)
    · obtain ⟨decoded, -, hall⟩ := h response hresult
      exact hall i r hr
  | pair schema =>
    refine SafePar.mono hs (postSignedContext_safe count_vouches hs hQ fun decoded => ?_)
      fun result t u _ h response i r hresult hr => ?_
    · refine SafePar.mono hs (serve_safe count_vouches hs hresolved hbuilt hdelivered ?_ (fun hleg rs t u => ?_) fun hleg bs t u => ?_)
        fun result t u _ h response hresponse i r hr => (h response hresponse i r hr).2
      · exact SafeOk.ask fun t u _ =>
          ⟨trivial, fun _ _ _ _ _ => SafeOk.pure fun _ _ _ _ _ _ _ _ => trivial⟩
      · refine SafeOk.ask fun t u _ => ⟨trivial, fun _ m _ _ _ => SafeOk.pure fun _ _ _ i slot _ => ?_⟩
        split
        · exact unavailable_safe count_vouches _ _ _ _ _
        · exact SafeOk.bind ((buildResponse_vouches (signsExpiry_of_not_legacy hleg)).mono
            fun b _ _ _ hb => SafeOk.pure fun _ _ _ => hb)
      · refine SafeOk.ask fun t u _ => ⟨trivial, fun _ m _ _ _ => ?_⟩
        refine SafeOk.ask fun t u _ => ⟨trivial, fun _ set _ _ _ => ?_⟩
        refine SafeOk.ask fun t u _ => ⟨trivial, fun _ now _ _ _ => ?_⟩
        exact SafeOk.pure fun _ _ _ _ b hb => revalidateSlot_vouches hb
    · obtain ⟨decoded, -, hall⟩ := h response hresult
      exact hall i r hr

end Handler

section Runs
variable [RainFloat] [Alloy] [Abi] {D : Deployment} {G : List B256 → List UInt8 × Address → Prop}
  {w w' : World}

/-- The request was answered `signed` when it asked for a signature of the context. -/
def InFlight.WasSigned (q : InFlight) (context : List B256) (signed : List UInt8 × Address) : Prop :=
  ∃ s₀, (⟨s₀, .signContext context, .ok signed⟩ : Entry Server Op Op.Answer) ∈ q.task.trace

def World.Signed (w : World) (context : List B256) (signed : List UInt8 × Address) : Prop :=
  ∃ q ∈ w.requests, q.WasSigned context signed

structure World.Vouched (D : Deployment) (G : List B256 → List UInt8 × Address → Prop) (w : World) :
    Prop where
  server : Reusable G w.server
  requests : ∀ q ∈ w.requests, (vouching D G).Fine (Vouches G) q.task w.server

variable [Toml] [Unicode]

/-- What was signed stays recorded. -/
lemma signed_step {e : Event} (hstep : World.step D w e = some w') (context : List B256)
    (signed : List UInt8 × Address) (h : w.Signed context signed) : w'.Signed context signed := by
  obtain ⟨q, hq, s₀, hmem⟩ := h
  cases World.took_of_step hstep with
  | frame f => exact ⟨q, hq, s₀, hmem⟩
  | poll read hidle => exact ⟨q, hq, s₀, hmem⟩
  | reload hpending => exact ⟨q, hq, s₀, hmem⟩
  | arrive endpoint query body => exact ⟨q, List.mem_append_left _ hq, s₀, hmem⟩
  | @move r m i q' t s hq' ht =>
    obtain ⟨r', hr'⟩ := List.mem_iff_getElem?.mp hq
    by_cases hrr : r = r'
    · subst hrr
      obtain rfl := Option.some.inj (hq'.symm.trans hr')
      have hlt := (List.getElem?_eq_some_iff.mp hq').1
      refine ⟨{ q' with task := t }, List.mem_of_getElem? (List.getElem?_set_self hlt), s₀, ?_⟩
      rcases q'.task.step_trace ht with ⟨hsame, -⟩ | ⟨o, answer, -, hsnoc⟩
      · exact hsame ▸ hmem
      · exact hsnoc ▸ List.mem_append_left _ hmem
    · exact ⟨q, List.mem_of_getElem? (by rw [List.getElem?_set_ne hrr, hr']), s₀, hmem⟩

lemma vouched_step {e : Event} (h : w.Vouched D G) (hstep : World.step D w e = some w')
    (hG : ∀ context signed, w'.Signed context signed → G context signed) : w'.Vouched D G := by
  have hpast : ∀ {s : Server}, Reusable G s → ∀ q ∈ w.requests,
      (vouching D G).Fine (Vouches G) q.task s := fun hs q hq => (h.requests q hq).later trivial hs
  cases World.took_of_step hstep with
  | frame f => exact ⟨⟨h.server.stored⟩, hpast ⟨h.server.stored⟩⟩
  | poll read hidle => exact ⟨h.server, h.requests⟩
  | @reload st rest hpending =>
    have hs : Reusable G (w.server.reload st) := by
      refine ⟨fun key stored hk => h.server.stored key stored ?_⟩
      cases st <;> exact hk
    exact ⟨hs, hpast hs⟩
  | arrive endpoint query body =>
    refine ⟨h.server, fun q hq => ?_⟩
    rcases List.mem_append.mp hq with hq | hq
    · exact h.requests q hq
    · obtain rfl := List.mem_singleton.mp hq
      exact handler_vouches h.server
  | @move r m i q t s hq ht =>
    have hlt := (List.getElem?_eq_some_iff.mp hq).1
    -- the sign that this move records, if it is one, is one of those `G` holds of
    have hhonest : q.task.step (vouching D G).perform i m w.server = some (t, s) := by
      refine q.task.step_congr ht fun o answer hp htrace => honestly_some.mpr ⟨?_, hp⟩
      cases o with
      | signContext context =>
        intro signed hsigned
        obtain rfl : i.signed = answer := (Prod.mk.inj (Option.some.inj hp)).1
        refine hG context signed ⟨{ q with task := t },
          List.mem_of_getElem? (List.getElem?_set_self hlt), w.server, ?_⟩
        rw [htrace, hsigned]
        exact List.mem_concat_self
      | _ => trivial
    obtain ⟨hs, -, hfine⟩ := (h.requests q (List.mem_of_getElem? hq)).step trivial h.server hhonest
    refine ⟨hs, fun q' hq' => ?_⟩
    rcases List.mem_or_eq_of_mem_set hq' with hq' | rfl
    · exact hpast hs q' hq'
    · exact hfine

/-- In every run, each signature that is delivered was the answer to signing the context
it is delivered with, in this request or in an earlier one. -/
theorem delivered_was_signed {set : TokenSet} {es : List Event}
    (hrun : World.run D (.boot set) es = some w) {q : InFlight} (hq : q ∈ w.requests) {i : ℕ}
    {r : OracleResponse} (hr : q.Delivered i r) : w.Signed r.context (r.signature, r.signer) := by
  have hboot : (World.boot set).Vouched D w.Signed :=
    ⟨⟨fun k st hk => by simp [World.boot] at hk⟩, fun q hq => nomatch hq⟩
  have hvouched : w.Vouched D w.Signed := Machine.run_toward
    (R := fun w w' : World => ∀ context signed, w.Signed context signed → w'.Signed context signed)
    (fun _ _ _ h => h) (fun h h' context signed hw => h' _ _ (h _ _ hw))
    (fun _ _ _ hstep => signed_step hstep) (fun _ _ _ hG h hstep => vouched_step h hstep hG) hboot hrun
  obtain ⟨response, hresult, hok⟩ := hr
  unfold InFlight.result at hresult
  split at hresult
  · next result hconfig =>
    obtain rfl := Option.some.inj hresult
    exact (hvouched.requests q hq).done hvouched.server hconfig response i r rfl hok
  · cases hresult

end Runs

end OracleServer
