import OracleServer.Counters
import OracleServer.HandlerSpec

/-! What serving a request adds to the counters, from its response: the item counter gets the
codes the response carries, and on the endpoints that sign the refusal counter gets those
among them that are reasons. One lemma per function of `Handler`, in its order. -/
namespace OracleServer

open Interaction

/-- The increments of the item counter for these codes. -/
def itemsOf (tag : String) (codes : List String) : Growth :=
  (codes.map fun code => (Metric.contextItem tag code 1).growth).sum

/-- The refusals that belong to these codes. -/
def refusalsOf (tag : String) (codes : List String) : Growth := (codes.map (refusal tag)).sum

/-- The code of a slot, while its value may still be on the way to a response. -/
def slotCode {α : Type} : Except AppError α → String
  | .ok _ => "ok"
  | .error e => e.code

section Codes
variable {α : Type} (tag : String)

lemma itemsOf_replicate (n : ℕ) (code : String) :
    itemsOf tag (List.replicate n code) = (Metric.contextItem tag code n).growth := by
  induction n with
  | zero => simp [itemsOf, Metric.growth]
  | succ n ih =>
    unfold itemsOf at ih ⊢
    rw [List.replicate_succ, List.map_cons, List.sum_cons, ih]
    simp only [Metric.growth]
    rw [← Pi.single_add, add_comm n 1, Multiset.replicate_add]

@[simp] lemma refusalsOf_nil : refusalsOf tag [] = 0 := rfl

@[simp] lemma refusalsOf_cons (code : String) (codes : List String) :
    refusalsOf tag (code :: codes) = refusal tag code + refusalsOf tag codes := rfl

lemma refusalsOf_ok (vs : List α) : refusalsOf tag (vs.map fun _ => "ok") = 0 := by
  induction vs with
  | nil => rfl
  | cons v vs ih => rw [List.map_cons, refusalsOf_cons, ih, refusal_ok, add_zero]

/-- Slots that failed only with errors that refuse no quote. -/
lemma refusalsOf_free {slots : List (Except AppError α)}
    (h : ∀ e, .error e ∈ slots → refusal tag e.code = 0) :
    refusalsOf tag (slots.map slotCode) = 0 := by
  induction slots with
  | nil => rfl
  | cons slot rest ih =>
    have hslot : refusal tag (slotCode slot) = 0 := by
      cases slot with
      | ok v => exact refusal_ok tag
      | error e => exact h e (by simp)
    rw [List.map_cons, refusalsOf_cons, hslot, ih fun e he => h e (by simp [he]), add_zero]

lemma refusalsOf_slots (vs : List α) :
    refusalsOf tag ((vs.map Except.ok).map slotCode) = 0 :=
  refusalsOf_free tag (by simp)

lemma code_ofResult (item : Except AppError OracleResponse) :
    (BatchItemResponse.ofResult item).code = slotCode item := by
  cases item with
  | ok r => rfl
  | error e => rfl

end Codes

section Pipeline
variable {R B : Type} {tag : String} {g : Growth}

lemma recordItemOutcome_totals (code : String) (n : ℕ) :
    (recordItemOutcome tag code n).run.Totals Op.growth
      (fun r g' => r = .ok () ∧ g' = g + itemsOf tag (List.replicate n code)) g := by
  rw [itemsOf_replicate]
  unfold recordItemOutcome
  split
  · next hzero =>
    subst hzero
    exact ⟨trivial, rfl, by simp [Metric.growth]⟩
  · exact ⟨trivial, fun _ => ⟨trivial, rfl, rfl⟩⟩

lemma strictAbort_totals {α : Type} (err : AppError) :
    (strictAbort tag err : Act α).run.Totals Op.growth
      (fun r g' => r = .error err ∧ g' = g + itemsOf tag [err.code]) g := by
  apply (recordItemOutcome_totals err.code 1).andThen
  · intro _ g' h
    exact ⟨trivial, rfl, h.2⟩
  · intro e g' h
    cases h.1

/-- A strict request goes on only with every item resolved. -/
lemma abortUnresolved_totals (envelope : Bool) (resolved : List (Except AppError R)) :
    (abortUnresolved tag envelope resolved).run.Totals Op.growth (fun r g' => match r with
      | .ok _ => g' = g ∧ (envelope = false → ∃ vs : List R, resolved = vs.map .ok)
      | .error e => envelope = false ∧ .error e ∈ resolved ∧ g' = g + itemsOf tag [e.code]) g := by
  unfold abortUnresolved
  split
  · next henvelope => exact ⟨trivial, rfl, by simp [henvelope]⟩
  next hstrict =>
  split
  · next err hfirst =>
    apply (strictAbort_totals err).mono fun _ _ => trivial
    rintro r g' ⟨rfl, hg⟩
    obtain ⟨slot, hslot, heq⟩ := List.exists_of_findSome?_eq_some hfirst
    cases slot with
    | ok v => cases heq
    | error e =>
      obtain rfl := Option.some.inj heq
      exact ⟨by simpa using hstrict, hslot, hg⟩
  · next hnone =>
    refine ⟨trivial, rfl, fun _ => ⟨oks resolved, ?_⟩⟩
    clear hstrict
    induction resolved with
    | nil => rfl
    | cons slot rest ih =>
      rw [List.findSome?_cons] at hnone
      cases slot with
      | error e => cases hnone
      | ok v =>
        have hrest : rest = (oks rest).map .ok := ih hnone
        exact congrArg (Except.ok v :: ·) hrest

/-- The strict loop fails as the slot does that it fails on. -/
lemma buildInOrder_refuses {f : R → Act B} (hf : ∀ v, Refuses tag (fun _ => True) (f v))
    (vs : List R) :
    Refuses tag (fun built => ∃ bs : List B, built = bs.map .ok ∧ bs.length = vs.length)
      (buildInOrder f (vs.map .ok)) := by
  induction vs with
  | nil => exact Charges.pure ⟨[], rfl, rfl⟩
  | cons v vs ih =>
    apply Charges.bind (Charges.pure (Q := fun u => u = v) rfl)
    rintro u rfl
    apply Charges.bind (hf u)
    intro b _
    apply Charges.bind ih
    rintro others ⟨bs, rfl, hlen⟩
    exact Charges.pure ⟨b :: bs, rfl, by simp [hlen]⟩

/-- A pass over `n` slots, entered with `g` on the counters: what was refused so far is what its
slots say, or it stopped at one error in a strict request. -/
def Passed {α : Type} (tag : String) (envelope : Bool) (n : ℕ) (g : Growth) :
    Except AppError (List (Except AppError α)) → Growth → Prop
  | .ok slots, g' => slots.length = n ∧ g' = g + refusalsOf tag (slots.map slotCode) ∧
      (envelope = false → ∃ vs : List α, slots = vs.map .ok) ∧ ∀ e, .error e ∈ slots → e.Counted
  | .error e, g' => envelope = false ∧ g' = g + refusal tag e.code ∧ e.Counted

lemma buildSlots_tally {f : R → Act B} (hf : ∀ v, Refuses tag (fun _ => True) (f v))
    {slots : List (Except AppError R)} {envelope : Bool}
    (hstrict : envelope = false → ∃ vs : List R, slots = vs.map .ok)
    (hslots : ∀ e, .error e ∈ slots → refusal tag e.code = 0 ∧ e.Counted) :
    (buildSlots slots envelope f).run.Tally Op.growth
      (Passed tag envelope slots.length g) g := by
  unfold buildSlots
  cases envelope with
  | false =>
    obtain ⟨vs, rfl⟩ := hstrict rfl
    apply Par.Tally.lift
    apply (buildInOrder_refuses hf vs g).mono fun _ _ => trivial
    intro r g' hr
    cases r with
    | error e => exact ⟨rfl, hr⟩
    | ok built =>
      obtain ⟨rfl, bs, rfl, hlen⟩ := hr
      refine ⟨by simp [hlen], ?_, fun _ => ⟨bs, rfl⟩, by simp⟩
      rw [refusalsOf_slots, add_zero]
  | true =>
    -- each branch spends the refusal of its own result
    refine ⟨fun _ r d => d = refusal tag (slotCode r) ∧ ∀ e, r = .error e → e.Counted,
      fun j p hj => ?_, fun ys h hperm hys => ?_⟩
    · obtain ⟨slot, hslot, rfl⟩ := List.getElem?_map .. ▸ hj |> Option.map_eq_some_iff.mp
      cases slot with
      | error e =>
        obtain ⟨hfree, hcounted⟩ := hslots e (List.mem_of_getElem? hslot)
        refine ⟨trivial, hfree.symm, ?_⟩
        rintro e' h
        obtain rfl := Except.error.inj h
        exact hcounted
      | ok v =>
        apply (hf v 0).mono fun _ _ => trivial
        intro r d hr
        cases r with
        | ok b => exact ⟨by rw [hr.1]; exact (refusal_ok tag).symm, by simp⟩
        | error e =>
          refine ⟨by rw [hr.1, zero_add]; rfl, ?_⟩
          rintro e' h
          obtain rfl := Except.error.inj h
          exact hr.2
    · rw [List.length_map] at hperm ⊢
      obtain ⟨built, hplace, hlen, hget⟩ := place_perm hperm
      change Par.Tally Op.growth _ _ (placed slots.length ys).run
      rw [placed_run hplace]
      have hspent : ∀ (j : ℕ) r, built[j]? = some r → h j = refusal tag (slotCode r) :=
        fun j r hj => (hys j r ((hget j r).mp hj)).1
      refine ⟨hlen, ?_, by simp, fun e he => ?_⟩
      · rw [← hlen, sum_places hspent, refusalsOf, List.map_map]
        rfl
      · obtain ⟨j, hj⟩ := List.getElem?_of_mem he
        exact (hys j _ ((hget j _).mp hj)).2 e rfl

lemma andThen_totals {α β : Type} {f : α → Act β} (hf : ∀ a, Refuses tag (fun _ => True) (f a))
    {slot : Except AppError α} (hslot : ∀ e, slot = .error e → e.Counted) :
    (andThen f slot).run.Totals Op.growth (fun r g' => ∃ item, r = .ok item ∧
      g' = g + refusal tag (slotCode item) ∧ ∀ e, item = .error e → e.Counted)
      (g + refusal tag (slotCode slot)) := by
  cases slot with
  | error e =>
    refine ⟨trivial, .error e, rfl, rfl, ?_⟩
    intro e' h
    obtain rfl := Except.error.inj h
    exact hslot e rfl
  | ok a =>
    apply Prog.Tally.bind
    rw [slotCode, refusal_ok, add_zero]
    apply (hf a g).mono fun _ _ => trivial
    intro item g' hitem
    cases item with
    | ok b => exact ⟨trivial, .ok b, rfl, by rw [hitem.1, slotCode, refusal_ok, add_zero], by simp⟩
    | error e =>
      refine ⟨trivial, .error e, rfl, hitem.1, ?_⟩
      intro e' h
      obtain rfl := Except.error.inj h
      exact hitem.2

/-- The batch-final pass adds the refusals of the slots that it fails to those it found. -/
lemma revalidateBatch_totals {recheckOne : B → Act OracleResponse}
    (hrecheck : ∀ b, Refuses tag (fun _ => True) (recheckOne b)) {envelope : Bool}
    {built : List (Except AppError B)}
    (hstrict : envelope = false → ∃ vs : List B, built = vs.map .ok)
    (hcounted : ∀ e, .error e ∈ built → e.Counted) :
    (revalidateBatch recheckOne envelope built).run.Totals Op.growth
      (Passed tag envelope built.length g) (g + refusalsOf tag (built.map slotCode)) := by
  induction built generalizing g with
  | nil => exact ⟨trivial, rfl, rfl, fun _ => ⟨[], rfl⟩, by simp⟩
  | cons slot rest ih =>
    have hrest : envelope = false → ∃ vs : List B, rest = vs.map .ok := by
      intro h
      obtain ⟨vs, hvs⟩ := hstrict h
      cases vs with
      | nil => cases hvs
      | cons v vs => exact ⟨vs, (List.cons.inj hvs).2⟩
    have hslot : ∀ e, slot = .error e → e.Counted := fun e h => hcounted e (by simp [h])
    have hstart : g + refusalsOf tag ((slot :: rest).map slotCode) =
        g + refusalsOf tag (rest.map slotCode) + refusal tag (slotCode slot) := by
      rw [List.map_cons, refusalsOf_cons]
      abel
    rw [hstart]
    apply (andThen_totals hrecheck hslot).andThen
    · rintro item g' ⟨_, hok, rfl, hitem⟩
      obtain rfl := Except.ok.inj hok
      have hkeep : (envelope = false → ∃ r, item = .ok r) →
          (do
            let items ← revalidateBatch recheckOne envelope rest
            pure (item :: items) : Act _).run.Totals Op.growth
            (Passed tag envelope (slot :: rest).length g)
            (g + refusalsOf tag (rest.map slotCode) + refusal tag (slotCode item)) := by
        intro hsigned
        rw [add_right_comm]
        apply (ih hrest fun e he => hcounted e (by simp [he])).andThen
        · rintro items g' ⟨hlen, rfl, hoks, hcounts⟩
          refine ⟨trivial, by simp [hlen], ?_, fun h => ?_, fun e he => ?_⟩
          · rw [List.map_cons, refusalsOf_cons, add_assoc]
          · obtain ⟨r, rfl⟩ := hsigned h
            obtain ⟨rs, rfl⟩ := hoks h
            exact ⟨r :: rs, rfl⟩
          · rcases List.mem_cons.mp he with heq | he
            · exact hitem e heq.symm
            · exact hcounts e he
        · rintro e g' ⟨henvelope, rfl, hcounts⟩
          obtain ⟨r, rfl⟩ := hsigned henvelope
          exact ⟨henvelope, by rw [slotCode, refusal_ok, add_zero], hcounts⟩
      cases envelope with
      | true => exact hkeep (by simp)
      | false =>
        cases item with
        | ok r => exact hkeep fun _ => ⟨r, rfl⟩
        | error err =>
          obtain ⟨vs, rfl⟩ := hrest rfl
          refine ⟨trivial, rfl, ?_, hitem err rfl⟩
          rw [refusalsOf_slots, add_zero]
          rfl
    · rintro e g' ⟨item, herror, -⟩
      cases herror

/-- How `finish` answers the items it is given. -/
inductive Finished (items : List (Except AppError OracleResponse)) :
    Bool → Except AppError ContextResponse → Prop
  | strict {responses : List OracleResponse} (h : items = responses.map .ok) :
    Finished items false (.ok (.strict responses))
  | envelope : Finished items true (.ok (.envelope (items.map BatchItemResponse.ofResult)))
  | aborted {e : AppError} (h : .error e ∈ items) : Finished items false (.error e)

lemma finishStrict_totals (items : List (Except AppError OracleResponse)) :
    (finishStrict tag items).run.Totals Op.growth (fun r g' => match r with
      | .ok responses => g' = g ∧ items = responses.map .ok
      | .error e => g' = g + itemsOf tag [e.code] ∧ .error e ∈ items) g := by
  induction items with
  | nil => exact ⟨trivial, rfl, rfl⟩
  | cons item rest ih =>
    cases item with
    | error err =>
      apply (strictAbort_totals err).mono fun _ _ => trivial
      rintro r g' ⟨rfl, hg⟩
      exact ⟨hg, List.mem_cons_self⟩
    | ok response =>
      apply ih.andThen
      · rintro responses g' ⟨rfl, rfl⟩
        exact ⟨trivial, rfl, rfl⟩
      · rintro e g' ⟨hg, he⟩
        exact ⟨hg, List.mem_cons_of_mem _ he⟩

lemma finishEnvelope_totals (items : List (Except AppError OracleResponse)) :
    (finishEnvelope tag items).run.Totals Op.growth (fun r g' =>
      r = .ok (items.map BatchItemResponse.ofResult) ∧
        g' = g + itemsOf tag (items.map slotCode)) g := by
  induction items generalizing g with
  | nil => exact ⟨trivial, rfl, (add_zero g).symm⟩
  | cons item rest ih =>
    apply (recordItemOutcome_totals (itemOutcome item) 1).andThen
    · rintro _ g' ⟨-, rfl⟩
      apply ih.andThen
      · rintro out g' ⟨hout, rfl⟩
        obtain rfl := Except.ok.inj hout
        have hcode : itemOutcome item = slotCode item := by cases item <;> rfl
        refine ⟨trivial, rfl, ?_⟩
        rw [hcode, List.map_cons, add_assoc]
        simp [itemsOf]
      · rintro e g' ⟨hout, -⟩
        cases hout
    · rintro e g' ⟨herror, -⟩
      cases herror

lemma finish_totals (items : List (Except AppError OracleResponse)) (envelope : Bool) :
    (finish tag items envelope).run.Totals Op.growth (fun r g' =>
      Finished items envelope r ∧ g' = g + itemsOf tag (verdicts r)) g := by
  unfold finish
  cases envelope with
  | false =>
    apply (finishStrict_totals items).andThen
    · rintro responses g' ⟨rfl, rfl⟩
      apply (recordItemOutcome_totals "ok" responses.length).andThen
      · rintro _ g' ⟨-, rfl⟩
        refine ⟨trivial, .strict rfl, ?_⟩
        rw [verdicts, List.map_const']
      · rintro e g' ⟨herror, -⟩
        cases herror
    · rintro e g' ⟨hg, he⟩
      exact ⟨.aborted he, hg⟩
  | true =>
    apply (finishEnvelope_totals items).andThen
    · rintro out g' ⟨hout, rfl⟩
      obtain rfl := Except.ok.inj hout
      refine ⟨trivial, .envelope, ?_⟩
      simp only [verdicts, List.map_map, Function.comp_def, code_ofResult]
    · rintro e g' ⟨hout, -⟩
      cases hout

/-- Refusing every item of a legacy endpoint is a pass that none of them survives. -/
lemma refuseLegacy_eq (symbolOf : R → Symbol) (resolved : List (Except AppError R)) :
    refuseLegacy tag symbolOf resolved =
      revalidateBatch (fun r => legacySignatureUnavailable tag (symbolOf r)) true resolved := by
  induction resolved with
  | nil => rfl
  | cons slot rest ih =>
    unfold refuseLegacy revalidateBatch
    rw [ih]

end Pipeline

/-- The errors a response carries. -/
def wireErrors : Except AppError ContextResponse → List ErrorResponse
  | .ok (.strict _) => []
  | .ok (.envelope items) => items.filterMap fun item => match item with
    | .ok _ => none
    | .error e => some e
  | .error e => [e.toErrorResponse]

/-- A request over `n` items answers in the shape of its mode; only a strict one fails. -/
def Shaped (envelope : Bool) (n : ℕ) : Except AppError ContextResponse → Prop
  | .ok (.strict responses) => envelope = false ∧ responses.length = n
  | .ok (.envelope items) => envelope = true ∧ items.length = n
  | .error _ => envelope = false ∧ 0 < n

/-- A request over `n` items that was entered with `g` on the counters has been served. -/
structure Served (endpoint : Endpoint) (envelope : Bool) (n : ℕ) (g : Growth)
    (r : Except AppError ContextResponse) (g' : Growth) : Prop where
  shape : Shaped envelope n r
  counted : ∀ x ∈ wireErrors r, ∃ e : AppError, e.toErrorResponse = x ∧ e.Counted
  growth : ∃ codes, g' = g + refusalsOf endpoint.tag codes + itemsOf endpoint.tag (verdicts r) ∧
    (endpoint.legacy = false →
      refusalsOf endpoint.tag codes = refusalsOf endpoint.tag (verdicts r))

section Serving
variable {R B : Type} {endpoint : Endpoint} {envelope : Bool} {n : ℕ} {g : Growth}

lemma Served.aborted {e : AppError} (henvelope : envelope = false) (hn : 0 < n) (he : e.Counted) :
    Served endpoint envelope n g (.error e)
      (g + refusal endpoint.tag e.code + itemsOf endpoint.tag [e.code]) where
  shape := ⟨henvelope, hn⟩
  counted x hx := by
    obtain rfl := List.mem_singleton.mp hx
    exact ⟨e, rfl, he⟩
  growth := ⟨[e.code], by simp [verdicts], fun _ => rfl⟩

/-- On the endpoints that sign, a strict request reaches `finish` only with every item signed. -/
lemma finish_served {items : List (Except AppError OracleResponse)} (hn : items.length = n)
    (hstrict : endpoint.legacy = false → envelope = false →
      ∃ vs : List OracleResponse, items = vs.map .ok)
    (hcounted : ∀ e, .error e ∈ items → e.Counted) :
    (finish endpoint.tag items envelope).run.Totals Op.growth (Served endpoint envelope n g)
      (g + refusalsOf endpoint.tag (items.map slotCode)) := by
  apply (finish_totals items envelope).mono fun _ _ => trivial
  rintro r g' ⟨hfinished, rfl⟩
  cases hfinished with
  | @strict responses h =>
    subst h
    refine ⟨⟨rfl, by simpa using hn⟩, by simp [wireErrors], _, rfl, fun _ => ?_⟩
    rw [refusalsOf_slots, verdicts, refusalsOf_ok]
  | envelope =>
    refine ⟨⟨rfl, by simpa using hn⟩, fun x hx => ?_, _, rfl, fun _ => ?_⟩
    · obtain ⟨out, hout, heq⟩ := List.mem_filterMap.mp hx
      obtain ⟨item, hitem, rfl⟩ := List.mem_map.mp hout
      cases item with
      | ok r => cases heq
      | error e => exact ⟨e, Option.some.inj heq, hcounted e hitem⟩
    · simp only [verdicts, List.map_map, Function.comp_def, code_ofResult]
  | @aborted e h =>
    refine ⟨⟨rfl, ?_⟩, fun x hx => ?_, _, rfl, fun hlegacy => ?_⟩
    · rw [← hn]
      exact List.length_pos_of_mem h
    · obtain rfl := List.mem_singleton.mp hx
      exact ⟨e, rfl, hcounted e h⟩
    · obtain ⟨vs, rfl⟩ := hstrict hlegacy rfl
      simp at h

/-- Reads that count nothing and do not fail. -/
abbrev Reads {α : Type} (Q : α → Prop) (x : Act α) : Prop :=
  Charges Op.growth (fun _ => 0) (fun _ => False) Q x

lemma ask_reads {o : Op} (h : o.growth = 0) : Reads (fun _ => True) (Act.ask o) := Charges.ask h

lemma Reads.tally {α β : Type} {Q : α → Prop} {x : Act α} {f : α → Handle B β}
    {P : Except AppError β → Growth → Prop} (hx : Reads Q x)
    (hf : ∀ a, Q a → (f a).run.Tally Op.growth P g) :
    (Handle.act x >>= f).run.Tally Op.growth P g := by
  apply (Par.Tally.lift (hx g)).andThen
  · rintro a g' ⟨rfl, ha⟩
    exact hf a ha
  · exact fun e g' h => h.2.elim

/-- What the phases of an endpoint count: a failed resolution nothing, a failed build or
re-check the refusal of its error. -/
structure Phases.Counts (P : Phases R B) (endpoint : Endpoint) : Prop where
  resolver : Reads (fun resolve => ∀ req e, resolve req = .error e → ∃ d, e = .badRequest d) P.resolver
  builder : endpoint.legacy = false → ∀ rs,
    Reads (fun f => ∀ v, Refuses endpoint.tag (fun _ => True) (f v)) (P.builder rs)
  rechecker : endpoint.legacy = false → ∀ bs,
    Reads (fun f => ∀ b, Refuses endpoint.tag (fun _ => True) (f b)) (P.rechecker bs)

/-- An error that stops a pass is counted once on its way out. -/
lemma orAbort_tally {α : Type} {x : Handle B (List (Except AppError α))} {g₀ : Growth}
    (hn : 0 < n) (h : x.run.Tally Op.growth (Passed endpoint.tag envelope n g) g₀) :
    (orAbort endpoint.tag x).run.Tally Op.growth (fun r g' => match r with
      | .ok slots => Passed endpoint.tag envelope n g (.ok slots) g'
      | .error e => Served endpoint envelope n g (.error e) g') g₀ := by
  apply h.tryCatch
  · exact fun _ _ hslots => hslots
  · rintro e g' ⟨henvelope, rfl, he⟩
    apply Par.Tally.lift
    apply (strictAbort_totals e).mono fun _ _ => trivial
    rintro r g' ⟨rfl, rfl⟩
    exact .aborted henvelope hn he

lemma buildAndRecheck_tally {P : Phases R B} (hP : P.Counts endpoint)
    (hlegacy : endpoint.legacy = false) {resolved : List (Except AppError R)}
    (hne : 0 < resolved.length) (hstrict : envelope = false → ∃ vs : List R, resolved = vs.map .ok)
    (hresolved : ∀ e, .error e ∈ resolved → refusal endpoint.tag e.code = 0 ∧ e.Counted) :
    (buildAndRecheck P endpoint.tag envelope resolved).run.Tally Op.growth
      (Served endpoint envelope resolved.length g) g := by
  apply (hP.builder hlegacy _).tally
  intro buildOne hbuild
  apply (orAbort_tally hne (buildSlots_tally hbuild hstrict hresolved)).andThen
  · rintro built g' ⟨hlen, rfl, hsigned, hcounted⟩
    rw [← hlen] at hne ⊢
    apply (hP.rechecker hlegacy _).tally
    intro recheckOne hrecheck
    apply (orAbort_tally hne (Par.Tally.lift (revalidateBatch_totals hrecheck hsigned hcounted))).andThen
    · rintro items g' ⟨hlen', rfl, hsigned', hcounted'⟩
      exact Par.Tally.lift (finish_served hlen' (fun _ => hsigned') hcounted')
    · exact fun e g' h => h
  · exact fun e g' h => h

theorem serve_tally {P : Phases R B} (hP : P.Counts endpoint) (query : ContextQuery)
    (decoded : DecodedRequest) :
    (serve P endpoint query decoded).run.Tally Op.growth
      (Served endpoint (query.allowFailure && decoded.isBatch) decoded.items.length g) g := by
  unfold serve
  dsimp only
  split
  · next hempty =>
    rw [List.isEmpty_iff.mp hempty]
    have hnone : (finish endpoint.tag [] (query.allowFailure && decoded.isBatch)).run.Totals
        Op.growth (Served endpoint (query.allowFailure && decoded.isBatch) 0 g)
        (g + refusalsOf endpoint.tag []) :=
      finish_served rfl (fun _ _ => ⟨[], rfl⟩) (by simp)
    rw [refusalsOf_nil, add_zero] at hnone
    exact Par.Tally.lift hnone
  next hempty =>
  have hne : 0 < decoded.items.length := List.length_pos_iff.mpr (by simpa using hempty)
  apply hP.resolver.tally
  intro resolve hresolve
  -- a failed resolution is a bad request, which refuses no quote
  have hresolved : ∀ e, .error e ∈ decoded.items.map resolve →
      refusal endpoint.tag e.code = 0 ∧ e.Counted := by
    intro e he
    obtain ⟨req, -, hreq⟩ := List.mem_map.mp he
    obtain ⟨d, rfl⟩ := hresolve req e hreq
    exact ⟨refusal_badRequest _ d, AppError.counted_of_code (by simp [AppError.code])⟩
  have hlen : (decoded.items.map resolve).length = decoded.items.length := List.length_map _
  apply (Par.Tally.lift (abortUnresolved_totals _ _)).andThen
  · rintro _ g ⟨rfl, hstrict⟩
    rw [← hlen] at hne ⊢
    split
    · next hlegacy =>
      have hrefuse : ∀ r, Refuses endpoint.tag (fun _ => True)
          (legacySignatureUnavailable endpoint.tag (P.symbolOf r) : Act OracleResponse) :=
        fun r => unavailable_refuses _ _ _ (by simp)
      have hlenient : true = false → ∃ vs : List R, decoded.items.map resolve = vs.map .ok := by
        simp
      have hpass := revalidateBatch_totals (g := g) hrefuse hlenient fun e he => (hresolved e he).2
      rw [refusalsOf_free _ fun e he => (hresolved e he).1, add_zero, ← refuseLegacy_eq] at hpass
      apply (Par.Tally.lift hpass).andThen
      · rintro items g' ⟨hlen', rfl, -, hcounted⟩
        exact Par.Tally.lift (finish_served hlen' (fun h => by simp [h] at hlegacy) hcounted)
      · rintro e g' ⟨h, -⟩
        cases h
    · next hlegacy => exact buildAndRecheck_tally hP (by simpa using hlegacy) hne hstrict hresolved
  · rintro e g' ⟨henvelope, he, rfl⟩
    obtain ⟨hfree, hcounted⟩ := hresolved e he
    have habort : Served endpoint _ decoded.items.length g (.error e)
        (g + refusal endpoint.tag e.code + itemsOf endpoint.tag [e.code]) :=
      .aborted henvelope hne hcounted
    rwa [hfree, add_zero] at habort

lemma decodeRequestBody_error [Abi] {body : ByteArray} {e : AppError}
    (h : decodeRequestBody body = .error e) : ∃ d, e = .badRequest d := by
  unfold decodeRequestBody at h
  split at h
  · cases h
  split at h
  · cases h
  · exact ⟨_, (Except.error.inj h).symm⟩

/-- The growth `g` of the counters over a whole request: what serving it added, and then one
request under the label of its result. -/
def Recorded [Abi] (endpoint : Endpoint) (query : Option String) (body : ByteArray)
    (r : Except AppError ContextResponse) (g : Growth) : Prop :=
  ∃ d, g = d + (Metric.contextRequest endpoint.tag (requestOutcome r)).growth ∧
    match decodeRequestBody body with
    | .error e => r = .error e ∧ d = 0
    | .ok decoded => Served endpoint ((ContextQuery.parse query).allowFailure && decoded.isBatch)
        decoded.items.length 0 r d

theorem postSignedContext_tally [Abi] {P : Phases R B} (hP : P.Counts endpoint)
    (query : Option String) (body : ByteArray) :
    (postSignedContext P endpoint query body).Tally Op.growth (Recorded endpoint query body) 0 := by
  have hserved : (serveBody P endpoint (ContextQuery.parse query) body).run.Tally Op.growth
      (fun r d => match decodeRequestBody body with
        | .error e => r = .error e ∧ d = 0
        | .ok decoded => Served endpoint
            ((ContextQuery.parse query).allowFailure && decoded.isBatch) decoded.items.length 0 r d)
      0 := by
    unfold serveBody
    cases decodeRequestBody body with
    | error e => exact ⟨rfl, rfl⟩
    | ok decoded => exact serve_tally hP _ decoded
  apply Par.Tally.bind
  apply hserved.mono
  exact fun r d hr _ => ⟨d, rfl, hr⟩

end Serving

lemma ioTokensFor_error {order : OrderV4} {i j : U256} {e : AppError}
    (h : ioTokensFor order i j = .error e) : ∃ d, e = .badRequest d := by
  unfold ioTokensFor at h
  dsimp only at h
  split at h
  · exact ⟨_, (Except.error.inj h).symm⟩
  split at h
  · exact ⟨_, (Except.error.inj h).symm⟩
  · cases h

section Server
variable [Alloy]

lemma resolvePairForOrder_error {registry : TokenRegistry} {req : OracleRequestTuple}
    {e : AppError} (h : resolvePairForOrder registry req = .error e) : ∃ d, e = .badRequest d := by
  rcases except_bind_error h with h | ⟨tokens, -, h⟩
  · exact ioTokensFor_error h
  · exact except_mapError_error h

lemma resolveSlot_error {registry : TokenRegistry} {req : OracleRequestTuple} {e : AppError}
    (h : resolveSlot registry req = .error e) : ∃ d, e = .badRequest d := by
  rcases except_bind_error h with h | ⟨tokens, -, h⟩
  · exact ioTokensFor_error h
  rcases except_bind_error h with h | ⟨pair, -, h⟩
  · exact except_mapError_error h
  · cases h

/-- `v1` never reaches its builder. -/
lemma legacyV1_counts : legacyV1.Counts .v1 where
  resolver := Charges.bind (ask_reads rfl) fun _ _ =>
    Charges.pure fun _ _ h => resolvePairForOrder_error h
  builder h := by cases h
  rechecker h := by cases h

variable [RainFloat]

lemma pairBound_counts (D : Deployment) (schema : PairSchema) :
    (pairBound D schema).Counts (.pair schema) where
  resolver := Charges.bind (ask_reads rfl) fun _ _ =>
    Charges.pure fun _ _ h => resolveSlot_error h
  builder _ rs := by
    apply Charges.bind (ask_reads rfl)
    intro snapshot _
    apply Charges.pure
    intro slot
    dsimp only
    split
    · exact noLiveQuoteAt_refuses _ _
    · exact Charges.bind buildResponse_refuses fun _ _ => Charges.pure trivial
  rechecker _ bs := by
    apply Charges.bind (ask_reads rfl)
    intro current _
    apply Charges.bind (ask_reads rfl)
    intro set _
    apply Charges.bind (ask_reads rfl)
    intro validatedAt _
    exact Charges.pure fun slot => revalidateSlot_refuses _ _ _ _ slot

/-- Whatever arrives, a request records itself once, and its items as it answers them. -/
theorem handler_tally [Abi] (D : Deployment) (endpoint : Endpoint) (query : Option String)
    (body : ByteArray) :
    (handler D endpoint query body).Tally Op.growth (Recorded endpoint query body) 0 := by
  cases endpoint with
  | v1 => exact postSignedContext_tally legacyV1_counts query body
  | pair schema => exact postSignedContext_tally (pairBound_counts D schema) query body

end Server

end OracleServer
