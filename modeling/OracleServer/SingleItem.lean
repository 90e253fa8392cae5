import OracleServer.ItemModes
import OracleServer.Lib.Replay

/-! A request, item by item. What a request reads once it reads for all of its items; every
other operation it asks for one of them, until it answers. So its trace shares out among
the items, and what an item ended with is what a run of that item alone ends with, on the
request's reads and on the item's own operations. -/
namespace OracleServer

open Interaction Interaction.Contract

/-- The error at position `i` of an envelope. -/
def ContextResponse.errAt (i : ℕ) : ContextResponse → Option ErrorResponse
  | .strict _ => none
  | .envelope items =>
    match items[i]? with
    | some (.error e) => some e
    | _ => none

/-- One item by itself: before each phase what the request reads, then the item's own part.
`slots` and `built` are the items before and after it, which the snapshots also ask for. -/
def Phases.alone {R B : Type} (P : Phases R B) (endpoint : Endpoint) (slots : List R × List R)
    (built : List B × List B) (req : OracleRequestTuple) : Act OracleResponse := do
  let resolve ← P.resolver
  let r ← Act.ofExcept (resolve req)
  if endpoint.legacy then legacySignatureUnavailable endpoint.tag (P.symbolOf r)
  else do
    let buildOne ← P.builder (slots.1 ++ r :: slots.2)
    let b ← buildOne r
    let recheckOne ← P.rechecker (built.1 ++ b :: built.2)
    recheckOne b

/-- The reads before each phase do not fail. -/
structure Phases.OnlyRead {R B : Type} (P : Phases R B) : Prop where
  resolver : ∀ (tr : Trace Server Op Op.Answer) e, ¬ P.resolver.run.Ran tr (.error e)
  builder : ∀ slots (tr : Trace Server Op Op.Answer) e, ¬ (P.builder slots).run.Ran tr (.error e)
  rechecker : ∀ built (tr : Trace Server Op Op.Answer) e,
    ¬ (P.rechecker built).run.Ran tr (.error e)

/-- The entries of a request, each with the item it was asked for. Those that the request
asked for all items have none. -/
abbrev Labelled := List (Option ℕ × Entry Server Op Op.Answer)

/-- What the request read for all of its items, and what it asked for item `i`. -/
def mine (i : ℕ) (lab : Labelled) : Trace Server Op Op.Answer :=
  (lab.filter fun e => e.1 = none ∨ e.1 = some i).map Prod.snd

/-- Nothing but counters. -/
def OnlyCounts (tr : Trace Server Op Op.Answer) : Prop :=
  ∀ e ∈ tr, ∃ m, e.op = .count m

section Items
variable {R B : Type}

/-- Item `i` ended with `x`: a run of it alone, on what the labels give it, ends so. -/
def EndedWith (P : Phases R B) (endpoint : Endpoint) (items : List OracleRequestTuple)
    (lab : Labelled) (i : ℕ) (x : Except AppError OracleResponse)
    (mine' : Trace Server Op Op.Answer) : Prop :=
  mine' <+: mine i lab ∧ ∃ req slots built, items[i]? = some req ∧
    (P.alone endpoint slots built req).run.Ran mine' x

/-- The trace of a request shares out among its items: each item that is answered ended by
itself with what the answer says of it, and an error of the whole request is one item's. -/
structure SharesOut (P : Phases R B) (endpoint : Endpoint) (items : List OracleRequestTuple)
    (tr : Trace Server Op Op.Answer) (result : Except AppError ContextResponse)
    (lab : Labelled) : Prop where
  trace : ∃ counts, tr = lab.map Prod.snd ++ counts ∧ OnlyCounts counts
  delivered : ∀ response i r, result = .ok response → response.okAt i = some r →
    ∃ own, EndedWith P endpoint items lab i (.ok r) own
  refused : ∀ response i err, result = .ok response → response.errAt i = some err →
    ∃ e own, err = e.toErrorResponse ∧ EndedWith P endpoint items lab i (.error e) own
  stopped : ∀ e, result = .error e → ∃ i own, EndedWith P endpoint items lab i (.error e) own

/-- What became of the slots of one phase, whose operations are shared out in `woven`. -/
def Worked {α β : Type} (f : α → Act β) (slots : List (Except AppError α))
    (woven : List (ℕ × Entry Server Op Op.Answer)) :
    Except AppError (List (Except AppError β)) → Prop
  | .ok out => ∀ (i : ℕ) x, out[i]? = some x →
    ∃ slot, slots[i]? = some slot ∧ (Act.ofExcept slot >>= f).run.Ran (own i woven) x
  | .error e => ∃ (i : ℕ) (slot : _), slots[i]? = some slot ∧
    (Act.ofExcept slot >>= f).run.Ran (own i woven) (.error e)

end Items

section Passes
variable {α β : Type} {f : α → Act β} {slot : Except AppError α} {rest : List (Except AppError α)}
  {tr t : Trace Server Op Op.Answer} {woven : List (ℕ × Entry Server Op Op.Answer)}

lemma Worked.cons {x : Except AppError β} {out : List (Except AppError β)}
    (h : (Act.ofExcept slot >>= f).run.Ran t x) (hs : Worked f rest woven (.ok out)) :
    Worked f (slot :: rest) (stack t woven) (.ok (x :: out)) := by
  intro i y hy
  cases i with
  | zero =>
    obtain rfl : x = y := by simpa using hy
    exact ⟨slot, rfl, by rwa [own_stack_zero]⟩
  | succ i =>
    obtain ⟨z, hz, hran⟩ := hs i y (by simpa using hy)
    exact ⟨z, by simpa using hz, by rwa [own_stack_succ]⟩

lemma Worked.head {e : AppError} (h : (Act.ofExcept slot >>= f).run.Ran t (.error e)) :
    Worked f (slot :: rest) (stack t []) (.error e) :=
  ⟨0, slot, rfl, by rwa [own_stack_zero]⟩

lemma Worked.tail {e : AppError} (hs : Worked f rest woven (.error e)) :
    Worked f (slot :: rest) (stack t woven) (.error e) := by
  obtain ⟨i, y, hy, hran⟩ := hs
  exact ⟨i + 1, y, by simpa using hy, by rwa [own_stack_succ]⟩

/-- One slot, its error kept as a value. -/
lemma andThen_ran {y : Except AppError (Except AppError β)} (h : (andThen f slot).run.Ran tr y) :
    ∃ x, y = .ok x ∧ (Act.ofExcept slot >>= f).run.Ran tr x := by
  cases slot with
  | error e =>
    obtain ⟨rfl, rfl⟩ := Prog.Ran.ret_inv h
    exact ⟨.error e, rfl, .done _⟩
  | ok v =>
    obtain ⟨x, t₁, t₂, rfl, hx, hret⟩ := Prog.Ran.bind_inv h
    obtain ⟨rfl, rfl⟩ := Prog.Ran.ret_inv hret
    exact ⟨x, rfl, by rw [List.append_nil]; exact hx⟩

lemma buildInOrder_ran {slots : List (Except AppError α)}
    {y : Except AppError (List (Except AppError β))} (h : (buildInOrder f slots).run.Ran tr y) :
    ∃ woven, tr = woven.map Prod.snd ∧ Worked f slots woven y := by
  induction slots generalizing tr y with
  | nil =>
    obtain ⟨rfl, rfl⟩ := Prog.Ran.ret_inv h
    exact ⟨[], rfl, fun i slot hi => nomatch hi⟩
  | cons slot rest ih =>
    cases slot with
    | error e =>
      obtain ⟨rfl, rfl⟩ := Prog.Ran.ret_inv h
      exact ⟨[], rfl, Worked.head (t := []) (.done _)⟩
    | ok v =>
      change (do
        let b ← f v
        let others ← buildInOrder f rest
        pure (.ok b :: others) : Act (List (Except AppError β))).run.Ran tr y at h
      rcases Prog.Ran.bindEx_inv h with ⟨b, t₁, t₂, rfl, hb, hrest⟩ | ⟨e, he, rfl⟩
      · rcases Prog.Ran.bindEx_inv hrest with ⟨others, t₃, t₄, rfl, hothers, hret⟩ | ⟨e, he, rfl⟩
        · obtain ⟨rfl, rfl⟩ := Prog.Ran.ret_inv hret
          obtain ⟨woven, rfl, hworked⟩ := ih hothers
          exact ⟨stack t₁ woven, by rw [stack_snd, List.append_nil], .cons hb hworked⟩
        · obtain ⟨woven, rfl, hworked⟩ := ih he
          exact ⟨stack t₁ woven, (stack_snd _ _).symm, hworked.tail⟩
      · exact ⟨stack tr [], by rw [stack_snd, List.map_nil, List.append_nil], .head he⟩

lemma revalidateBatch_ran {f : α → Act OracleResponse} {envelope : Bool}
    {built : List (Except AppError α)} {y : Except AppError (List (Except AppError OracleResponse))}
    (h : (revalidateBatch f envelope built).run.Ran tr y) :
    ∃ woven, tr = woven.map Prod.snd ∧ Worked f built woven y := by
  induction built generalizing tr y with
  | nil =>
    obtain ⟨rfl, rfl⟩ := Prog.Ran.ret_inv h
    exact ⟨[], rfl, fun i slot hi => nomatch hi⟩
  | cons slot rest ih =>
    have hkeep : ∀ {t₁ t₂ x}, (Act.ofExcept slot >>= f).run.Ran t₁ x →
        (do let items ← revalidateBatch f envelope rest; pure (x :: items) :
          Act (List (Except AppError OracleResponse))).run.Ran t₂ y →
        ∃ woven, t₁ ++ t₂ = woven.map Prod.snd ∧ Worked f (slot :: rest) woven y := by
      intro t₁ t₂ x hx hrest
      rcases Prog.Ran.bindEx_inv hrest with ⟨items, t₃, t₄, rfl, hitems, hret⟩ | ⟨e, he, rfl⟩
      · obtain ⟨rfl, rfl⟩ := Prog.Ran.ret_inv hret
        obtain ⟨woven, rfl, hworked⟩ := ih hitems
        exact ⟨stack t₁ woven, by rw [stack_snd, List.append_nil], .cons hx hworked⟩
      · obtain ⟨woven, rfl, hworked⟩ := ih he
        exact ⟨stack t₁ woven, (stack_snd _ _).symm, hworked.tail⟩
    rcases Prog.Ran.bindEx_inv h with ⟨item, t₁, t₂, rfl, hitem, hrest⟩ | ⟨e, he, -⟩
    · obtain ⟨x, hx, hran⟩ := andThen_ran hitem
      obtain rfl := Except.ok.inj hx
      cases envelope with
      | true => exact hkeep hran hrest
      | false =>
        cases item with
        | ok r => exact hkeep hran hrest
        | error e =>
          obtain ⟨rfl, rfl⟩ := Prog.Ran.ret_inv hrest
          exact ⟨stack t₁ [], by rw [stack_snd, List.map_nil], .head hran⟩
    · obtain ⟨x, hx, -⟩ := andThen_ran he
      cases hx

lemma refuseLegacy_ran {endpoint : String} {symbolOf : α → Symbol}
    {resolved : List (Except AppError α)} {y : Except AppError (List (Except AppError OracleResponse))}
    (h : (refuseLegacy endpoint symbolOf resolved).run.Ran tr y) :
    ∃ woven, tr = woven.map Prod.snd ∧
      Worked (fun r => legacySignatureUnavailable endpoint (symbolOf r)) resolved woven y := by
  induction resolved generalizing tr y with
  | nil =>
    obtain ⟨rfl, rfl⟩ := Prog.Ran.ret_inv h
    exact ⟨[], rfl, fun i slot hi => nomatch hi⟩
  | cons slot rest ih =>
    rcases Prog.Ran.bindEx_inv h with ⟨item, t₁, t₂, rfl, hitem, hrest⟩ | ⟨e, he, -⟩
    · obtain ⟨x, hx, hran⟩ := andThen_ran hitem
      obtain rfl := Except.ok.inj hx
      rcases Prog.Ran.bindEx_inv hrest with ⟨items, t₃, t₄, rfl, hitems, hret⟩ | ⟨e, he, rfl⟩
      · obtain ⟨rfl, rfl⟩ := Prog.Ran.ret_inv hret
        obtain ⟨woven, rfl, hworked⟩ := ih hitems
        exact ⟨stack t₁ woven, by rw [stack_snd, List.append_nil], .cons hran hworked⟩
      · obtain ⟨woven, rfl, hworked⟩ := ih he
        exact ⟨stack t₁ woven, (stack_snd _ _).symm, hworked.tail⟩
    · obtain ⟨x, hx, -⟩ := andThen_ran he
      cases hx

/-- The strict loop, or the stream of the envelope. -/
lemma buildSlots_ran {slots : List (Except AppError α)} {envelope : Bool}
    {y : Except AppError (List (Except AppError β))} (h : (buildSlots slots envelope f).run.Ran tr y) :
    ∃ woven, tr = woven.map Prod.snd ∧ Worked f slots woven y := by
  unfold buildSlots at h
  cases envelope with
  | false => exact buildInOrder_ran (Par.Ran.toPar_inv h)
  | true =>
    obtain ⟨woven, ys, rest, rfl, hweaves, hplaced⟩ := h
    have hperm := hweaves.perm
    rw [List.length_map] at hperm
    obtain ⟨built, hplace, hlen, hget⟩ := place_perm hperm
    change (placed slots.length ys).run.Ran rest y at hplaced
    rw [placed_run hplace] at hplaced
    obtain ⟨rfl, rfl⟩ : rest = [] ∧ Except.ok built = y := hplaced
    refine ⟨woven, List.append_nil _, fun i x hx => ?_⟩
    have hlt : i < slots.length := hlen ▸ (List.getElem?_eq_some_iff.mp hx).1
    obtain ⟨x', hx', hran⟩ := hweaves.branch i _
      (by rw [List.getElem?_map, List.getElem?_eq_getElem hlt]; rfl)
    obtain rfl := Option.some.inj (hx.symm.trans ((hget i x').mpr hx'))
    refine ⟨slots[i], List.getElem?_eq_getElem hlt, ?_⟩
    cases hslot : slots[i] with
    | error e =>
      rw [hslot] at hran
      exact hran
    | ok v =>
      rw [hslot] at hran
      exact hran

end Passes

section Answers
variable {α : Type} {tr t t' : Trace Server Op Op.Answer} {endpoint : String}

lemma OnlyCounts.nil : OnlyCounts [] := fun _ he => nomatch he

lemma OnlyCounts.append (h : OnlyCounts t) (h' : OnlyCounts t') : OnlyCounts (t ++ t') := by
  intro e he
  rcases List.mem_append.mp he with he | he
  · exact h e he
  · exact h' e he

lemma recordItemOutcome_ran {outcome : String} {n : ℕ} {y : Except AppError Unit}
    (h : (recordItemOutcome endpoint outcome n).run.Ran tr y) : OnlyCounts tr ∧ y = .ok () := by
  unfold recordItemOutcome at h
  split at h
  · obtain ⟨rfl, rfl⟩ := Prog.Ran.ret_inv h
    exact ⟨.nil, rfl⟩
  · obtain ⟨s, a, rest, rfl, hret⟩ := Prog.Ran.op_inv h
    obtain ⟨rfl, rfl⟩ := Prog.Ran.ret_inv hret
    refine ⟨fun e he => ?_, rfl⟩
    obtain rfl := List.mem_singleton.mp he
    exact ⟨_, rfl⟩

lemma strictAbort_ran {err : AppError} {y : Except AppError α}
    (h : (strictAbort endpoint err : Act α).run.Ran tr y) : OnlyCounts tr ∧ y = .error err := by
  rcases Prog.Ran.bindEx_inv h with ⟨_, t₁, t₂, rfl, hcount, hret⟩ | ⟨e, he, -⟩
  · obtain ⟨rfl, rfl⟩ := Prog.Ran.ret_inv hret
    exact ⟨(recordItemOutcome_ran hcount).1.append .nil, rfl⟩
  · cases (recordItemOutcome_ran he).2

lemma abortUnresolved_ran {envelope : Bool} {resolved : List (Except AppError α)}
    {y : Except AppError Unit} (h : (abortUnresolved endpoint envelope resolved).run.Ran tr y) :
    tr = [] ∧ y = .ok () ∨
      ∃ (i : ℕ) (e : AppError), resolved[i]? = some (.error e) ∧ OnlyCounts tr ∧ y = .error e := by
  unfold abortUnresolved at h
  split at h
  · obtain ⟨rfl, rfl⟩ := Prog.Ran.ret_inv h
    exact .inl ⟨rfl, rfl⟩
  split at h
  · next err herr =>
    obtain ⟨slot, hslot, heq⟩ := List.exists_of_findSome?_eq_some herr
    obtain ⟨i, hi⟩ := List.mem_iff_getElem?.mp hslot
    cases slot with
    | ok r => cases heq
    | error e =>
      obtain rfl := Option.some.inj heq
      exact .inr ⟨i, e, hi, strictAbort_ran h⟩
  · obtain ⟨rfl, rfl⟩ := Prog.Ran.ret_inv h
    exact .inl ⟨rfl, rfl⟩

/-- The answer says of each item what the item ended with. -/
def MadeOf (items : List (Except AppError OracleResponse)) : Except AppError ContextResponse → Prop
  | .ok response => (∀ (i : ℕ) r, response.okAt i = some r → items[i]? = some (.ok r)) ∧
    ∀ (i : ℕ) err, response.errAt i = some err →
      ∃ e, items[i]? = some (.error e) ∧ err = e.toErrorResponse
  | .error e => ∃ i : ℕ, items[i]? = some (.error e)

lemma finishStrict_ran {items : List (Except AppError OracleResponse)}
    {y : Except AppError (List OracleResponse)} (h : (finishStrict endpoint items).run.Ran tr y) :
    OnlyCounts tr ∧ match y with
      | .ok rs => items = rs.map .ok
      | .error e => ∃ i : ℕ, items[i]? = some (.error e) := by
  induction items generalizing tr y with
  | nil =>
    obtain ⟨rfl, rfl⟩ := Prog.Ran.ret_inv h
    exact ⟨.nil, rfl⟩
  | cons item rest ih =>
    cases item with
    | error err =>
      obtain ⟨hcounts, rfl⟩ := strictAbort_ran h
      exact ⟨hcounts, 0, rfl⟩
    | ok response =>
      rcases Prog.Ran.bindEx_inv h with ⟨rs, t₁, t₂, rfl, hrs, hret⟩ | ⟨e, he, rfl⟩
      · obtain ⟨rfl, rfl⟩ := Prog.Ran.ret_inv hret
        obtain ⟨hcounts, hall⟩ := ih hrs
        exact ⟨hcounts.append .nil, congrArg (.ok response :: ·) hall⟩
      · obtain ⟨hcounts, i, hi⟩ := ih he
        exact ⟨hcounts, i + 1, by simpa using hi⟩

lemma finishEnvelope_ran {items : List (Except AppError OracleResponse)}
    {y : Except AppError (List BatchItemResponse)}
    (h : (finishEnvelope endpoint items).run.Ran tr y) :
    OnlyCounts tr ∧ y = .ok (items.map BatchItemResponse.ofResult) := by
  induction items generalizing tr y with
  | nil =>
    obtain ⟨rfl, rfl⟩ := Prog.Ran.ret_inv h
    exact ⟨.nil, rfl⟩
  | cons item rest ih =>
    rcases Prog.Ran.bindEx_inv h with ⟨_, t₁, t₂, rfl, hcount, hrest⟩ | ⟨e, he, -⟩
    · rcases Prog.Ran.bindEx_inv hrest with ⟨out, t₃, t₄, rfl, hout, hret⟩ | ⟨e, he, -⟩
      · obtain ⟨rfl, rfl⟩ := Prog.Ran.ret_inv hret
        obtain ⟨hcounts, hok⟩ := ih hout
        obtain rfl := Except.ok.inj hok
        exact ⟨(recordItemOutcome_ran hcount).1.append (hcounts.append .nil), rfl⟩
      · cases (ih he).2
    · cases (recordItemOutcome_ran he).2

lemma finish_ran {items : List (Except AppError OracleResponse)} {envelope : Bool}
    {y : Except AppError ContextResponse} (h : (finish endpoint items envelope).run.Ran tr y) :
    OnlyCounts tr ∧ MadeOf items y := by
  unfold finish at h
  cases envelope with
  | false =>
    rcases Prog.Ran.bindEx_inv h with ⟨rs, t₁, t₂, rfl, hrs, hrest⟩ | ⟨e, he, rfl⟩
    · obtain ⟨hcounts, hall⟩ := finishStrict_ran hrs
      rcases Prog.Ran.bindEx_inv hrest with ⟨_, t₃, t₄, rfl, hcount, hret⟩ | ⟨e, he, -⟩
      · obtain ⟨rfl, rfl⟩ := Prog.Ran.ret_inv hret
        refine ⟨hcounts.append ((recordItemOutcome_ran hcount).1.append .nil), fun i r hr => ?_,
          fun i err herr => nomatch herr⟩
        have hget : rs[i]? = some r := hr
        rw [hall, List.getElem?_map, hget, Option.map_some]
      · cases (recordItemOutcome_ran he).2
    · exact finishStrict_ran he
  | true =>
    rcases Prog.Ran.bindEx_inv h with ⟨out, t₁, t₂, rfl, hout, hret⟩ | ⟨e, he, -⟩
    · obtain ⟨hcounts, hok⟩ := finishEnvelope_ran hout
      obtain rfl := Except.ok.inj hok
      obtain ⟨rfl, rfl⟩ := Prog.Ran.ret_inv hret
      refine ⟨hcounts.append .nil, fun i r hr => ?_, fun i err herr => ?_⟩
      · cases hitem : items[i]? with
        | none => simp [ContextResponse.okAt, hitem] at hr
        | some item =>
          cases item with
          | error e => simp [ContextResponse.okAt, hitem, BatchItemResponse.ofResult] at hr
          | ok r' => simpa [ContextResponse.okAt, hitem, BatchItemResponse.ofResult] using hr
      · cases hitem : items[i]? with
        | none => simp [ContextResponse.errAt, hitem] at herr
        | some item =>
          cases item with
          | ok r => simp [ContextResponse.errAt, hitem, BatchItemResponse.ofResult] at herr
          | error e =>
            refine ⟨e, rfl, ?_⟩
            have heq : e.toErrorResponse = err := by
              simpa [ContextResponse.errAt, hitem, BatchItemResponse.ofResult] using herr
            exact heq.symm
    · cases (finishEnvelope_ran he).2

end Answers

section Alone
variable {R B : Type} {P : Phases R B} {endpoint : Endpoint} {slots : List R × List R}
  {built : List B × List B} {req : OracleRequestTuple} {resolve : OracleRequestTuple → Except AppError R}
  {r : R} {build : R → Act B} {b : B} {recheck : B → Act OracleResponse}
  {t₀ t₁ t₂ t₃ t₄ : Trace Server Op Op.Answer} {x : Except AppError OracleResponse} {e : AppError}

lemma alone_unresolved (h₀ : P.resolver.run.Ran t₀ (.ok resolve)) (hr : resolve req = .error e) :
    (P.alone endpoint slots built req).run.Ran t₀ (.error e) := by
  have hrest : (P.alone endpoint slots built req).run.Ran (t₀ ++ []) (.error e) := by
    refine Prog.Ran.bindOk h₀ (Prog.Ran.bindError ?_)
    rw [hr]
    exact .done _
  rwa [List.append_nil] at hrest

/-- After resolution, what is left of the item. -/
lemma alone_resolved (h₀ : P.resolver.run.Ran t₀ (.ok resolve)) (hr : resolve req = .ok r)
    (h : (if endpoint.legacy then legacySignatureUnavailable endpoint.tag (P.symbolOf r)
      else do
        let buildOne ← P.builder (slots.1 ++ r :: slots.2)
        let b ← buildOne r
        let recheckOne ← P.rechecker (built.1 ++ b :: built.2)
        recheckOne b : Act OracleResponse).run.Ran t₁ x) :
    (P.alone endpoint slots built req).run.Ran (t₀ ++ t₁) x := by
  have hres : (Act.ofExcept (resolve req)).run.Ran ([] : Trace Server Op Op.Answer) (.ok r) := by
    rw [hr]
    exact .done _
  exact Prog.Ran.bindOk h₀ (Prog.Ran.bindOk hres h)

lemma alone_unbuilt (h₀ : P.resolver.run.Ran t₀ (.ok resolve)) (hr : resolve req = .ok r)
    (hleg : ¬ endpoint.legacy = true)
    (h₁ : (P.builder (slots.1 ++ r :: slots.2)).run.Ran t₁ (.ok build))
    (h₂ : (build r).run.Ran t₂ (.error e)) :
    (P.alone endpoint slots built req).run.Ran (t₀ ++ (t₁ ++ t₂)) (.error e) := by
  refine alone_resolved h₀ hr ?_
  rw [if_neg hleg]
  exact Prog.Ran.bindOk h₁ (Prog.Ran.bindError h₂)

lemma alone_rechecked (h₀ : P.resolver.run.Ran t₀ (.ok resolve)) (hr : resolve req = .ok r)
    (hleg : ¬ endpoint.legacy = true)
    (h₁ : (P.builder (slots.1 ++ r :: slots.2)).run.Ran t₁ (.ok build))
    (h₂ : (build r).run.Ran t₂ (.ok b))
    (h₃ : (P.rechecker (built.1 ++ b :: built.2)).run.Ran t₃ (.ok recheck))
    (h₄ : (recheck b).run.Ran t₄ x) :
    (P.alone endpoint slots built req).run.Ran (t₀ ++ (t₁ ++ (t₂ ++ (t₃ ++ t₄)))) x := by
  refine alone_resolved h₀ hr ?_
  rw [if_neg hleg]
  exact Prog.Ran.bindOk h₁ (Prog.Ran.bindOk h₂ (Prog.Ran.bindOk h₃ h₄))

end Alone

section Sharing

/-- The entries of a read for all items. -/
def forAll (tr : Trace Server Op Op.Answer) : Labelled := tr.map (Prod.mk none)

/-- The entries of a pass over the items. -/
def forEach (woven : List (ℕ × Entry Server Op Op.Answer)) : Labelled :=
  woven.map fun e => (some e.1, e.2)

@[simp] lemma forAll_snd (tr : Trace Server Op Op.Answer) : (forAll tr).map Prod.snd = tr := by
  simp [forAll, Function.comp_def]

@[simp] lemma forEach_snd (woven : List (ℕ × Entry Server Op Op.Answer)) :
    (forEach woven).map Prod.snd = woven.map Prod.snd := by
  simp [forEach, Function.comp_def]

@[simp] lemma mine_append (i : ℕ) (l l' : Labelled) : mine i (l ++ l') = mine i l ++ mine i l' := by
  simp [mine]

@[simp] lemma mine_forAll (i : ℕ) (tr : Trace Server Op Op.Answer) : mine i (forAll tr) = tr := by
  simp [mine, forAll, List.filter_map, Function.comp_def]

@[simp] lemma mine_forEach (i : ℕ) (woven : List (ℕ × Entry Server Op Op.Answer)) :
    mine i (forEach woven) = own i woven := by
  simp [mine, forEach, own, List.filter_map, Function.comp_def]

/-- What an item is given is part of the request's trace. -/
lemma mine_sublist (i : ℕ) (lab : Labelled) : (mine i lab).Sublist (lab.map Prod.snd) :=
  List.filter_sublist.map _

variable {R B : Type} {P : Phases R B} {endpoint : Endpoint} {items : List OracleRequestTuple}
  {lab : Labelled} {counts tr : Trace Server Op Op.Answer}
  {result : Except AppError ContextResponse}

lemma SharesOut.of_items {out : List (Except AppError OracleResponse)}
    (h : ∀ (i : ℕ) x, out[i]? = some x → ∃ own, EndedWith P endpoint items lab i x own)
    (hcounts : OnlyCounts counts) (hfinish : MadeOf out result) :
    SharesOut P endpoint items (lab.map Prod.snd ++ counts) result lab where
  trace := ⟨counts, rfl, hcounts⟩
  delivered response i r hresult hr := by
    subst hresult
    exact h i _ (hfinish.1 i r hr)
  refused response i err hresult herr := by
    subst hresult
    obtain ⟨e, he, rfl⟩ := hfinish.2 i err herr
    obtain ⟨own, hown⟩ := h i _ he
    exact ⟨e, own, rfl, hown⟩
  stopped e hresult := by
    subst hresult
    obtain ⟨i, hi⟩ := hfinish
    exact ⟨i, h i _ hi⟩

lemma SharesOut.of_error {i : ℕ} {e : AppError} {own : Trace Server Op Op.Answer}
    (h : EndedWith P endpoint items lab i (.error e) own) (hcounts : OnlyCounts counts) :
    SharesOut P endpoint items (lab.map Prod.snd ++ counts) (.error e) lab where
  trace := ⟨counts, rfl, hcounts⟩
  delivered response i r hresult := nomatch hresult
  refused response i err hresult := nomatch hresult
  stopped e' hresult := by
    obtain rfl := Except.error.inj hresult
    exact ⟨i, own, h⟩

/-- Counters at the end are no item's. -/
lemma SharesOut.count (h : SharesOut P endpoint items tr result lab) (hcounts : OnlyCounts counts) :
    SharesOut P endpoint items (tr ++ counts) result lab where
  trace := by
    obtain ⟨counts', rfl, h'⟩ := h.trace
    exact ⟨counts' ++ counts, List.append_assoc _ _ _, h'.append hcounts⟩
  delivered := h.delivered
  refused := h.refused
  stopped := h.stopped

/-- `orAbort` adds counters to what fails. -/
lemma orAbort_ran {α : Type} {tag : String} {x : Handle B α} {y : Except AppError α}
    (h : (orAbort tag x).run.Ran tr y) :
    (∃ a, y = .ok a ∧ x.run.Ran tr (.ok a)) ∨
      ∃ e t t', tr = t ++ t' ∧ y = .error e ∧ x.run.Ran t (.error e) ∧ OnlyCounts t' := by
  obtain ⟨z, t₁, t₂, rfl, hx, hrest⟩ := Par.Ran.bind_inv h
  cases z with
  | ok a =>
    obtain ⟨rfl, rfl⟩ : t₂ = [] ∧ Except.ok a = y := hrest
    exact .inl ⟨a, rfl, by rwa [List.append_nil]⟩
  | error e =>
    obtain ⟨hcounts, rfl⟩ := strictAbort_ran (Par.Ran.toPar_inv hrest)
    exact .inr ⟨e, t₁, t₂, rfl, rfl, hx, hcounts⟩

/-- The item that stands at position `i` of a list, between the others. -/
lemma oks_split {α : Type} {l : List (Except AppError α)} {i : ℕ} {a : α}
    (h : l[i]? = some (.ok a)) : ∃ others : List α × List α, others.1 ++ a :: others.2 = oks l := by
  obtain ⟨l₁, l₂, hsplit⟩ := List.append_of_mem (mem_oks.mpr (List.mem_of_getElem? h))
  exact ⟨(l₁, l₂), hsplit.symm⟩

/-- The build pass and the batch-final pass, after what resolution read. -/
lemma buildAndRecheck_sharesOut (hP : P.OnlyRead) (hleg : ¬ endpoint.legacy = true)
    {envelope : Bool} {resolve : OracleRequestTuple → Except AppError R}
    {t₀ : Trace Server Op Op.Answer} (h₀ : P.resolver.run.Ran t₀ (.ok resolve))
    (h : (buildAndRecheck P endpoint.tag envelope (items.map resolve)).run.Ran tr result) :
    ∃ lab, SharesOut P endpoint items (t₀ ++ tr) result lab := by
  rcases Par.Ran.bindEx_inv h with ⟨build, t₁, t₂, rfl, h₁, hbuilds⟩ | ⟨e, he, -⟩
  case inr => exact absurd (Par.Ran.toPar_inv he) (hP.builder _ _ _)
  replace h₁ := Par.Ran.toPar_inv h₁
  -- what a slot of the build pass says of its item
  have hslot : ∀ {i slot} {woven : List (ℕ × Entry Server Op Op.Answer)} {x : Except AppError B},
      (items.map resolve)[i]? = some slot →
      (Act.ofExcept slot >>= build).run.Ran (own i woven) x →
      ∃ req, items[i]? = some req ∧ ((∃ e, resolve req = .error e ∧ x = .error e) ∨
        ∃ (r : R) (others : List R × List R), resolve req = .ok r ∧ P.builder (others.1 ++ r :: others.2) =
          P.builder (oks (items.map resolve)) ∧ (build r).run.Ran (own i woven) x) := by
    intro i slot woven x hi hran
    have hi' := hi
    rw [List.getElem?_map] at hi
    obtain ⟨req, hreq, rfl⟩ := Option.map_eq_some_iff.mp hi
    refine ⟨req, hreq, ?_⟩
    cases hr : resolve req with
    | error e =>
      rw [hr] at hran
      obtain ⟨-, rfl⟩ := Prog.Ran.ret_inv hran
      exact .inl ⟨e, rfl, rfl⟩
    | ok r =>
      rw [hr] at hran hi'
      obtain ⟨others, hothers⟩ := oks_split hi'
      exact .inr ⟨r, others, rfl, by rw [hothers], hran⟩
  rcases Par.Ran.bindEx_inv hbuilds with ⟨built, t₃, t₄, rfl, h₂, hrechecks⟩ | ⟨e, he, rfl⟩
  case inr =>
    rcases orAbort_ran he with ⟨a, ha, -⟩ | ⟨e', t₃, t₄, rfl, heq, hbuild, hcounts⟩
    · cases ha
    obtain rfl := Except.error.inj heq
    obtain ⟨woven, rfl, i, slot, hi, hran⟩ := buildSlots_ran hbuild
    obtain ⟨req, hreq, hcase⟩ := hslot hi hran
    have hended : ∃ own', EndedWith P endpoint items (forAll t₀ ++ forAll t₁ ++ forEach woven) i
        (.error e) own' := by
      rcases hcase with ⟨e', hr, heq⟩ | ⟨r, others, hr, hothers, hran⟩
      · obtain rfl := Except.error.inj heq
        exact ⟨t₀, ⟨t₁ ++ own i woven, by simp⟩, req, ([], []), ([], []), hreq, alone_unresolved h₀ hr⟩
      · exact ⟨t₀ ++ (t₁ ++ own i woven), by simp, req, others, ([], []), hreq,
          alone_unbuilt h₀ hr hleg (hothers ▸ h₁) hran⟩
    obtain ⟨own', hended⟩ := hended
    have hshares := SharesOut.of_error hended hcounts
    exact ⟨_, by simpa using hshares⟩
  rcases orAbort_ran h₂ with ⟨a, ha, hbuild⟩ | ⟨e', -, -, -, heq, -⟩
  case inr => cases heq
  obtain rfl := Except.ok.inj ha
  obtain ⟨woven, rfl, hworked⟩ := buildSlots_ran hbuild
  rcases Par.Ran.bindEx_inv hrechecks with ⟨recheck, t₅, t₆, rfl, h₃, hanswers⟩ | ⟨e, he, -⟩
  case inr => exact absurd (Par.Ran.toPar_inv he) (hP.rechecker _ _ _)
  replace h₃ := Par.Ran.toPar_inv h₃
  -- what a slot of the last pass says of its item
  have hitem : ∀ {i : ℕ} {slot x} {woven' : List (ℕ × Entry Server Op Op.Answer)},
      built[i]? = some slot → (Act.ofExcept slot >>= recheck).run.Ran (own i woven') x →
      ∃ own', EndedWith P endpoint items
        (forAll t₀ ++ forAll t₁ ++ forEach woven ++ forAll t₅ ++ forEach woven') i x own' := by
    intro i slot x woven' hi hran
    obtain ⟨slot₀, hi₀, hran₀⟩ := hworked i slot hi
    obtain ⟨req, hreq, hcase⟩ := hslot hi₀ hran₀
    rcases hcase with ⟨e, hr, rfl⟩ | ⟨r, others, hr, hothers, hran₀⟩
    · obtain ⟨-, rfl⟩ := Prog.Ran.ret_inv hran
      exact ⟨t₀, ⟨t₁ ++ (own i woven ++ (t₅ ++ own i woven')), by simp⟩, req, ([], []), ([], []), hreq,
        alone_unresolved h₀ hr⟩
    cases slot with
    | error e =>
      obtain ⟨-, rfl⟩ := Prog.Ran.ret_inv hran
      exact ⟨t₀ ++ (t₁ ++ own i woven), ⟨t₅ ++ own i woven', by simp⟩, req, others, ([], []), hreq,
        alone_unbuilt h₀ hr hleg (hothers ▸ h₁) hran₀⟩
    | ok b =>
      obtain ⟨others', hothers'⟩ := oks_split hi
      exact ⟨t₀ ++ (t₁ ++ (own i woven ++ (t₅ ++ own i woven'))), by simp, req, others, others', hreq,
        alone_rechecked h₀ hr hleg (hothers ▸ h₁) hran₀ (hothers' ▸ h₃) hran⟩
  rcases Par.Ran.bindEx_inv hanswers with ⟨out, t₇, t₈, rfl, h₄, hfinish⟩ | ⟨e, he, rfl⟩
  case inr =>
    rcases orAbort_ran he with ⟨a, ha, -⟩ | ⟨e', t₇, t₈, rfl, heq, hrecheck, hcounts⟩
    · cases ha
    obtain rfl := Except.error.inj heq
    obtain ⟨woven', rfl, i, slot, hi, hran⟩ := revalidateBatch_ran (Par.Ran.toPar_inv hrecheck)
    obtain ⟨own', hended⟩ := hitem hi hran
    have hshares := SharesOut.of_error hended hcounts
    exact ⟨_, by simpa using hshares⟩
  rcases orAbort_ran h₄ with ⟨a, ha, hrecheck⟩ | ⟨e', -, -, -, heq, -⟩
  case inr => cases heq
  obtain rfl := Except.ok.inj ha
  obtain ⟨woven', rfl, hworked'⟩ := revalidateBatch_ran (Par.Ran.toPar_inv hrecheck)
  obtain ⟨hcounts, hmade⟩ := finish_ran (Par.Ran.toPar_inv hfinish)
  have hitems : ∀ (i : ℕ) x, out[i]? = some x → ∃ own', EndedWith P endpoint items
      (forAll t₀ ++ forAll t₁ ++ forEach woven ++ forAll t₅ ++ forEach woven') i x own' := by
    intro i x hx
    obtain ⟨slot, hi, hran⟩ := hworked' i x hx
    exact hitem hi hran
  have hshares := SharesOut.of_items hitems hcounts hmade
  exact ⟨_, by simpa using hshares⟩

theorem serve_sharesOut (hP : P.OnlyRead) {query : ContextQuery} {decoded : DecodedRequest}
    (h : (serve P endpoint query decoded).run.Ran tr result) :
    ∃ lab, SharesOut P endpoint decoded.items tr result lab := by
  unfold serve at h
  dsimp only at h
  split at h
  · obtain ⟨hcounts, hmade⟩ := finish_ran (Par.Ran.toPar_inv h)
    have hitems : ∀ (i : ℕ) x, ([] : List (Except AppError OracleResponse))[i]? = some x →
        ∃ own', EndedWith P endpoint decoded.items [] i x own' := fun i x hx => nomatch hx
    exact ⟨[], SharesOut.of_items hitems hcounts hmade⟩
  rcases Par.Ran.bindEx_inv h with ⟨resolve, t₀, t₁, rfl, h₀, h₁⟩ | ⟨e, he, -⟩
  case inr => exact absurd (Par.Ran.toPar_inv he) (hP.resolver _ _)
  replace h₀ := Par.Ran.toPar_inv h₀
  rcases Par.Ran.bindEx_inv h₁ with ⟨_, t₂, t₃, rfl, habort, h₂⟩ | ⟨e, he, rfl⟩
  case inr =>
    rcases abortUnresolved_ran (Par.Ran.toPar_inv he) with ⟨-, heq⟩ | ⟨i, e', hi, hcounts, heq⟩
    · cases heq
    obtain rfl := Except.error.inj heq
    rw [List.getElem?_map] at hi
    obtain ⟨req, hreq, hr⟩ := Option.map_eq_some_iff.mp hi
    have hended : EndedWith P endpoint decoded.items (forAll t₀) i (.error e) t₀ :=
      ⟨by simp, req, ([], []), ([], []), hreq, alone_unresolved h₀ hr⟩
    have hshares := SharesOut.of_error hended hcounts
    exact ⟨_, by simpa using hshares⟩
  rcases abortUnresolved_ran (Par.Ran.toPar_inv habort) with ⟨rfl, -⟩ | ⟨i, e', hi, hcounts, heq⟩
  case inr => cases heq
  by_cases hleg : endpoint.legacy = true
  case neg =>
    rw [if_neg hleg] at h₂
    exact buildAndRecheck_sharesOut hP hleg h₀ h₂
  rw [if_pos hleg] at h₂
  -- every item that resolved is refused
  have hitem : ∀ {i : ℕ} {slot x} {woven : List (ℕ × Entry Server Op Op.Answer)},
      (decoded.items.map resolve)[i]? = some slot →
      (Act.ofExcept slot >>= fun r => legacySignatureUnavailable endpoint.tag (P.symbolOf r)).run.Ran
        (own i woven) x →
      ∃ own', EndedWith P endpoint decoded.items (forAll t₀ ++ forEach woven) i x own' := by
    intro i slot x woven hi hran
    rw [List.getElem?_map] at hi
    obtain ⟨req, hreq, rfl⟩ := Option.map_eq_some_iff.mp hi
    cases hr : resolve req with
    | error e =>
      rw [hr] at hran
      obtain ⟨-, rfl⟩ := Prog.Ran.ret_inv hran
      exact ⟨t₀, ⟨own i woven, by simp⟩, req, ([], []), ([], []), hreq, alone_unresolved h₀ hr⟩
    | ok r =>
      rw [hr] at hran
      exact ⟨t₀ ++ own i woven, by simp, req, ([], []), ([], []), hreq,
        alone_resolved h₀ hr (by rw [if_pos hleg]; exact hran)⟩
  rcases Par.Ran.bindEx_inv h₂ with ⟨out, t₄, t₅, rfl, hrefuse, hfinish⟩ | ⟨e, he, rfl⟩
  case inr =>
    obtain ⟨woven, rfl, i, slot, hi, hran⟩ := refuseLegacy_ran (Par.Ran.toPar_inv he)
    obtain ⟨own', hended⟩ := hitem hi hran
    have hshares := SharesOut.of_error hended .nil
    exact ⟨_, by simpa using hshares⟩
  obtain ⟨woven, rfl, hworked⟩ := refuseLegacy_ran (Par.Ran.toPar_inv hrefuse)
  obtain ⟨hcounts, hmade⟩ := finish_ran (Par.Ran.toPar_inv hfinish)
  have hitems : ∀ (i : ℕ) x, out[i]? = some x →
      ∃ own', EndedWith P endpoint decoded.items (forAll t₀ ++ forEach woven) i x own' := by
    intro i x hx
    obtain ⟨slot, hi, hran⟩ := hworked i x hx
    exact hitem hi hran
  have hshares := SharesOut.of_items hitems hcounts hmade
  exact ⟨_, by simpa using hshares⟩

/-- The outer handler adds a counter to what it serves. -/
theorem postSignedContext_sharesOut [Abi] (hP : P.OnlyRead) {query : Option String}
    {body : ByteArray} (h : (postSignedContext P endpoint query body).Ran tr result) :
    (∃ e, decodeRequestBody body = .error e ∧ result = .error e ∧ OnlyCounts tr) ∨
      ∃ decoded lab, decodeRequestBody body = .ok decoded ∧
        SharesOut P endpoint decoded.items tr result lab := by
  obtain ⟨result', t₁, t₂, rfl, hbody, hrest⟩ := Par.Ran.bind_inv h
  obtain ⟨_, t₃, t₄, rfl, hcount, rfl, rfl⟩ := Par.Ran.bind_inv hrest
  have hcounts : OnlyCounts (t₃ ++ []) := by
    obtain ⟨s, a, rest, rfl, hret⟩ := Prog.Ran.op_inv (Par.Ran.toPar_inv hcount)
    obtain ⟨rfl, -⟩ := Prog.Ran.ret_inv hret
    intro e he
    obtain rfl := List.mem_singleton.mp he
    exact ⟨_, rfl⟩
  unfold serveBody at hbody
  split at hbody
  · next e he =>
    obtain ⟨rfl, rfl⟩ : t₁ = [] ∧ Except.error e = result' := hbody
    exact .inl ⟨e, he, rfl, hcounts⟩
  · next decoded hdecoded =>
    obtain ⟨lab, hshares⟩ := serve_sharesOut hP hbody
    exact .inr ⟨decoded, lab, hdecoded, hshares.count hcounts⟩

end Sharing

end OracleServer
