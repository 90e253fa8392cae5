import OracleServer.HandlerSpec
import OracleServer.Lib.Completion

/-! The two modes of a batch. When each item's three phases have outcomes of their own, the
envelope answers every item by itself, and the strict mode answers with all the responses
or with the error of the first item that fails in the first phase in which any does. -/
namespace OracleServer

open Interaction Interaction.Contract

/-- What each phase makes of an item. -/
structure Outcomes (R B : Type) where
  resolve : OracleRequestTuple → Except AppError R
  build : R → Except AppError B
  recheck : B → Except AppError OracleResponse

inductive Phase
  | resolution
  | build
  | final
  deriving DecidableEq, Repr

def Phase.rank : Phase → ℕ
  | .resolution => 0
  | .build => 1
  | .final => 2

lemma mem_oks {α : Type} {slots : List (Except AppError α)} {a : α} :
    a ∈ oks slots ↔ .ok a ∈ slots := by
  unfold oks
  rw [List.mem_filterMap]
  constructor
  · rintro ⟨slot, hslot, ha⟩
    cases slot with
    | error e => cases ha
    | ok b =>
      obtain rfl := Option.some.inj ha
      exact hslot
  · intro ha
    exact ⟨_, ha, rfl⟩

/-- How the legacy endpoints build an item. -/
def legacyRefusal : AppError :=
  .unavailable .legacySchema
    "Legacy schema has no verified settlement expiry bound; migrate to v5, v6, or v7."

namespace Outcomes
variable {R B : Type} (o : Outcomes R B)

/-- The outcomes on one endpoint. -/
def on (endpoint : Endpoint) : Outcomes R B :=
  if endpoint.legacy then { o with build := fun _ => .error legacyRefusal } else o

/-- The response of an item whose phases all succeed, or the error of the first that fails. -/
def outcome (req : OracleRequestTuple) : Except AppError OracleResponse := do
  let resolved ← o.resolve req
  let built ← o.build resolved
  o.recheck built

/-- The phase in which an item fails, and its error there. -/
def failure (req : OracleRequestTuple) : Option (Phase × AppError) :=
  match o.resolve req with
  | .error e => some (.resolution, e)
  | .ok resolved =>
    match o.build resolved with
    | .error e => some (.build, e)
    | .ok built =>
      match o.recheck built with
      | .error e => some (.final, e)
      | .ok _ => none

/-- Item `i` fails with `e` in the earliest phase in which any item fails, and no item
before it fails in that phase. -/
def FirstFailure (items : List OracleRequestTuple) (i : ℕ) (e : AppError) : Prop :=
  ∃ phase req, items[i]? = some req ∧ o.failure req = some (phase, e) ∧
    ∀ (j : ℕ) req' phase' e', items[j]? = some req' → o.failure req' = some (phase', e') →
      phase.rank < phase'.rank ∨ phase = phase' ∧ i ≤ j

/-- The strict answer to a batch. -/
structure StrictAnswer (items : List OracleRequestTuple) (result : Except AppError ContextResponse) :
    Prop where
  ok_iff : ∀ rs, result = .ok (.strict rs) ↔ items.map o.outcome = rs.map .ok
  error_iff : ∀ e, result = .error e ↔ ∃ i, o.FirstFailure items i e
  strict : ∀ out, result ≠ .ok (.envelope out)

/-- Phase by phase over the whole batch. -/
def phases (items : List OracleRequestTuple) : Except AppError (List OracleResponse) := do
  let resolved ← items.mapM o.resolve
  let built ← resolved.mapM o.build
  built.mapM o.recheck

variable {o} {items : List OracleRequestTuple}

theorem failure_cases {req : OracleRequestTuple} {phase : Phase} {e : AppError}
    (h : o.failure req = some (phase, e)) :
    (phase = .resolution ∧ o.resolve req = .error e) ∨
      (phase = .build ∧ ∃ a, o.resolve req = .ok a ∧ o.build a = .error e) ∨
      (phase = .final ∧ ∃ a b, o.resolve req = .ok a ∧ o.build a = .ok b ∧
        o.recheck b = .error e) := by
  unfold failure at h
  split at h
  · next e' he =>
    obtain ⟨rfl, rfl⟩ := Prod.mk.inj (Option.some.inj h)
    exact .inl ⟨rfl, he⟩
  next a ha =>
  split at h
  · next e' he =>
    obtain ⟨rfl, rfl⟩ := Prod.mk.inj (Option.some.inj h)
    exact .inr (.inl ⟨rfl, a, ha, he⟩)
  next b hb =>
  split at h
  · next e' he =>
    obtain ⟨rfl, rfl⟩ := Prod.mk.inj (Option.some.inj h)
    exact .inr (.inr ⟨rfl, a, b, ha, hb, he⟩)
  · cases h

/-- An item that fails has the error of its failure as its outcome. -/
theorem outcome_of_failure {req : OracleRequestTuple} {phase : Phase} {e : AppError}
    (h : o.failure req = some (phase, e)) : o.outcome req = .error e := by
  rcases failure_cases h with ⟨-, he⟩ | ⟨-, a, ha, he⟩ | ⟨-, a, b, ha, hb, he⟩
  · simp only [outcome, he, bind, Except.bind]
  · simp only [outcome, ha, he, bind, Except.bind]
  · simp only [outcome, ha, hb, he, bind, Except.bind]

theorem FirstFailure.unique {i j : ℕ} {e e' : AppError} (h : o.FirstFailure items i e)
    (h' : o.FirstFailure items j e') : e = e' := by
  obtain ⟨phase, req, hi, hfail, hleast⟩ := h
  obtain ⟨phase', req', hj, hfail', hleast'⟩ := h'
  have h₁ := hleast j req' phase' e' hj hfail'
  have h₂ := hleast' i req phase e hi hfail
  have hij : i = j := by
    rcases h₁ with h₁ | ⟨rfl, h₁⟩
    · rcases h₂ with h₂ | ⟨rfl, -⟩
      · omega
      · exact absurd h₁ (Nat.lt_irrefl _)
    · rcases h₂ with h₂ | ⟨-, h₂⟩
      · exact absurd h₂ (Nat.lt_irrefl _)
      · omega
  subst hij
  obtain rfl : req = req' := Option.some.inj (hi.symm.trans hj)
  exact (Prod.mk.inj (Option.some.inj (hfail.symm.trans hfail'))).2

theorem outcome_eq (req : OracleRequestTuple) :
    (o.resolve req >>= o.build) >>= o.recheck = o.outcome req := by
  unfold outcome
  cases o.resolve req <;> rfl

theorem phases_ok_iff {rs : List OracleResponse} :
    o.phases items = .ok rs ↔ items.map o.outcome = rs.map .ok := by
  have hassoc : o.phases items =
      ((items.mapM o.resolve >>= fun as => as.mapM o.build) >>= fun bs => bs.mapM o.recheck) := by
    unfold phases
    cases items.mapM o.resolve <;> rfl
  have hpasses : ∀ bs, (items.mapM o.resolve >>= fun as => as.mapM o.build) = .ok bs ↔
      items.mapM (fun req => o.resolve req >>= o.build) = .ok bs := fun bs => mapM_passes_ok
  have hboth : o.phases items = .ok rs ↔
      (items.mapM (fun req => o.resolve req >>= o.build) >>= fun bs => bs.mapM o.recheck) = .ok rs := by
    rw [hassoc]
    constructor
    · intro h
      obtain ⟨bs, hbs, h⟩ := except_bind_ok h
      rw [(hpasses bs).mp hbs]
      exact h
    · intro h
      obtain ⟨bs, hbs, h⟩ := except_bind_ok h
      rw [(hpasses bs).mpr hbs]
      exact h
  rw [hboth, mapM_passes_ok, mapM_ok_iff]
  simp only [outcome_eq]

theorem phases_of_resolved {rs : List R} (h : items.mapM o.resolve = .ok rs) :
    o.phases items = items.mapM (fun req => o.resolve req >>= o.build) >>=
      fun bs => bs.mapM o.recheck := by
  unfold phases
  rw [h, mapM_after_ok h]
  rfl

theorem phases_of_built {rs : List R} {bs : List B} (h : items.mapM o.resolve = .ok rs)
    (hbs : items.mapM (fun req => o.resolve req >>= o.build) = .ok bs) :
    o.phases items = items.mapM fun req => (o.resolve req >>= o.build) >>= o.recheck := by
  rw [phases_of_resolved h, mapM_after_ok hbs, hbs]
  rfl

/-- A failing pass over the batch fails with the first failure. -/
theorem firstFailure_of_phases {e : AppError} (h : o.phases items = .error e) :
    ∃ i, o.FirstFailure items i e := by
  unfold phases at h
  cases hresolved : items.mapM o.resolve with
  | error e' =>
    rw [hresolved] at h
    obtain rfl := Except.error.inj h
    obtain ⟨i, req, hi, hreq, hbefore⟩ := mapM_error hresolved
    refine ⟨i, .resolution, req, hi, by simp [failure, hreq], fun j req' phase' e' hj hfail => ?_⟩
    rcases failure_cases hfail with ⟨rfl, he⟩ | ⟨rfl, -⟩ | ⟨rfl, -⟩
    · refine .inr ⟨rfl, not_lt.mp fun hlt => ?_⟩
      obtain ⟨a, ha⟩ := hbefore j hlt req' hj
      exact nomatch ha.symm.trans he
    · exact .inl (by decide)
    · exact .inl (by decide)
  | ok resolved =>
    rw [hresolved] at h
    replace h : (resolved.mapM o.build >>= fun built => built.mapM o.recheck) = .error e := h
    cases hbuilt : resolved.mapM o.build with
    | error e' =>
      rw [hbuilt] at h
      obtain rfl := Except.error.inj h
      obtain ⟨i, a, hi, ha, hbefore⟩ := mapM_error hbuilt
      obtain ⟨req, hreq, hresolve⟩ := mapM_ok_right hresolved hi
      refine ⟨i, .build, req, hreq, by simp [failure, hresolve, ha],
        fun j req' phase' e' hj hfail => ?_⟩
      obtain ⟨a', ha', hresolve'⟩ := mapM_ok_left hresolved hj
      rcases failure_cases hfail with ⟨rfl, he⟩ | ⟨rfl, a₁, ha₁, he⟩ | ⟨rfl, -⟩
      · exact nomatch hresolve'.symm.trans he
      · refine .inr ⟨rfl, not_lt.mp fun hlt => ?_⟩
        obtain rfl := Except.ok.inj (hresolve'.symm.trans ha₁)
        obtain ⟨b, hb⟩ := hbefore j hlt a' ha'
        exact nomatch hb.symm.trans he
      · exact .inl (by decide)
    | ok built =>
      rw [hbuilt] at h
      obtain ⟨i, b, hi, hb, hbefore⟩ := mapM_error h
      obtain ⟨a, ha, hbuild⟩ := mapM_ok_right hbuilt hi
      obtain ⟨req, hreq, hresolve⟩ := mapM_ok_right hresolved ha
      refine ⟨i, .final, req, hreq, by simp [failure, hresolve, hbuild, hb],
        fun j req' phase' e' hj hfail => ?_⟩
      obtain ⟨a', ha', hresolve'⟩ := mapM_ok_left hresolved hj
      obtain ⟨b', hb', hbuild'⟩ := mapM_ok_left hbuilt ha'
      rcases failure_cases hfail with ⟨rfl, he⟩ | ⟨rfl, a₁, ha₁, he⟩ | ⟨rfl, a₁, b₁, ha₁, hb₁, he⟩
      · exact nomatch hresolve'.symm.trans he
      · obtain rfl := Except.ok.inj (hresolve'.symm.trans ha₁)
        exact nomatch hbuild'.symm.trans he
      · refine .inr ⟨rfl, not_lt.mp fun hlt => ?_⟩
        obtain rfl := Except.ok.inj (hresolve'.symm.trans ha₁)
        obtain rfl := Except.ok.inj (hbuild'.symm.trans hb₁)
        obtain ⟨r, hr⟩ := hbefore j hlt b' hb'
        exact nomatch hr.symm.trans he

theorem strictAnswer (o : Outcomes R B) (items : List OracleRequestTuple) :
    o.StrictAnswer items ((o.phases items).map .strict) where
  ok_iff rs := by
    rw [← phases_ok_iff]
    cases o.phases items <;> simp [Except.map]
  error_iff e := by
    constructor
    · intro h
      cases hp : o.phases items with
      | ok rs => rw [hp] at h; cases h
      | error e' =>
        rw [hp] at h
        obtain rfl := Except.error.inj h
        exact firstFailure_of_phases hp
    · rintro ⟨i, hfirst⟩
      cases hp : o.phases items with
      | ok rs =>
        -- an item that fails has no response
        obtain ⟨phase, req, hi, hfail, -⟩ := hfirst
        have hget := congrArg (fun m => m[i]?) (phases_ok_iff.mp hp)
        simp only [List.getElem?_map, hi, Option.map_some, outcome_of_failure hfail] at hget
        cases hr : rs[i]? <;> simp [hr] at hget
      | error e' =>
        obtain ⟨j, hfirst'⟩ := firstFailure_of_phases hp
        rw [hfirst.unique hfirst']
        rfl
  strict out := by
    cases o.phases items <;> simp [Except.map]

end Outcomes

/-- What the rest of the world may do between two operations of a request: which clock
readings and signatures it is given, which states it sees, and how they may change. -/
structure Environment (D : Deployment) where
  Admissible : Input → Prop
  Inv : Server → Prop
  Rel : Server → Server → Prop
  refl : ∀ s, Rel s s
  trans : ∀ {a b c}, Rel a b → Rel b c → Rel a c
  keeps : ∀ {i o s a s'}, Admissible i → Inv s → Server.perform D i o s = some (a, s') →
    Inv s' ∧ Rel s s'

namespace Environment
variable {D : Deployment}

def contract (E : Environment D) : Contract Server Input Op Op.Answer where
  perform := Server.perform D
  Admissible := E.Admissible
  Inv := E.Inv
  Rel := E.Rel
  Pre _ _ := True
  refl := E.refl
  trans := E.trans
  sound hi hs _ hp := E.keeps hi hs hp

theorem answers (E : Environment D) : E.contract.Answers := by
  intro i o s
  cases o <;> rfl

end Environment

/-- In the environment, each phase of each item of the batch has the outcome `o` gives it. -/
structure Fixed {D : Deployment} (E : Environment D) {R B : Type} (P : Phases R B)
    (endpoint : Endpoint) (o : Outcomes R B) (items : List OracleRequestTuple) : Prop where
  resolver : E.contract.Always (fun x => ∃ resolve, x = .ok resolve ∧
    ∀ req ∈ items, resolve req = o.resolve req) P.resolver.run
  builder : endpoint.legacy = false →
    E.contract.Always (fun x => ∃ build, x = .ok build ∧ ∀ req ∈ items, ∀ r,
      o.resolve req = .ok r → E.contract.Always (· = o.build r) (build r).run)
      (P.builder (oks (items.map o.resolve))).run
  rechecker : endpoint.legacy = false →
    E.contract.Always (fun x => ∃ recheck, x = .ok recheck ∧ ∀ req ∈ items, ∀ r b,
      o.resolve req = .ok r → o.build r = .ok b →
        E.contract.Always (· = o.recheck b) (recheck b).run)
      (P.rechecker (oks (items.map fun req => o.resolve req >>= o.build))).run

section Pipeline
variable {C : Contract Server Input Op Op.Answer} {R B : Type}

theorem count_always (hcount : ∀ m s, C.Pre (.count m) s) {Q : Except AppError Unit → Prop}
    (hQ : Q (.ok ())) (m : Metric) : C.Always Q (Act.count m).run :=
  fun _ _ _ _ _ => ⟨hcount _ _, fun _ _ _ _ _ _ _ _ => hQ⟩

/-- What is computed from a program's result alone. -/
theorem Always.pureMap {α β : Type} {p : Act α} {x : Except AppError α} {g : α → β}
    (h : C.Always (· = x) p.run) : C.Always (· = x.map g) (p >>= fun a => pure (g a)).run := by
  refine Always.andThen h (fun a ha => ?_) (fun e he => ?_)
  · rw [← ha]
    exact Always.ret rfl
  · rw [← he]
    rfl

theorem buildInOrder_always {f : R → Act B} {build : R → Except AppError B}
    {slots : List (Except AppError R)} (h : ∀ r, .ok r ∈ slots → C.Always (· = build r) (f r).run) :
    C.Always (· = (slots.mapM (· >>= build)).map (List.map .ok)) (buildInOrder f slots).run := by
  induction slots with
  | nil => exact Always.ret rfl
  | cons slot rest ih =>
    have hrest := ih fun r hr => h r (List.mem_cons_of_mem _ hr)
    cases slot with
    | error e =>
      rw [mapM_cons_error (f := (· >>= build)) (e := e) rfl]
      exact Always.ret rfl
    | ok r =>
      have hbuild : C.Always (· = build r) (f r).run := h r (by simp)
      have hloop : C.Always
          (· = ((Except.ok r :: rest).mapM (· >>= build)).map (List.map Except.ok))
          (do
            let built ← f r
            let others ← buildInOrder f rest
            pure ((.ok built : Except AppError B) :: others)).run := by
        refine Always.andThen hbuild (fun b hb => ?_) (fun e he => ?_)
        · rw [mapM_cons_ok (f := (· >>= build)) (b := b) hb.symm, except_map_map]
          refine (Always.pureMap hrest).mono fun out hout => ?_
          rw [hout, except_map_map]
          rfl
        · rw [mapM_cons_error (f := (· >>= build)) (e := e) he.symm]
          rfl
      exact hloop

theorem andThen_always {α β : Type} {f : α → Act β} {g : α → Except AppError β}
    {slot : Except AppError α} (h : ∀ a, slot = .ok a → C.Always (· = g a) (f a).run) :
    C.Always (· = .ok (slot >>= g)) (andThen f slot).run := by
  cases slot with
  | error e => exact Always.ret rfl
  | ok a =>
    refine Always.bind (h a rfl) fun item hitem => Always.ret ?_
    rw [hitem]
    rfl

/-- One phase over all slots: each by itself, or all of them until the first error. -/
def pass {α β : Type} (envelope : Bool) (slots : List (Except AppError α))
    (g : α → Except AppError β) : Except AppError (List (Except AppError β)) :=
  if envelope then .ok (slots.map (· >>= g)) else (slots.mapM (· >>= g)).map (List.map .ok)

theorem pass_ok {α β : Type} {envelope : Bool} {slots : List (Except AppError α)}
    {g : α → Except AppError β} {out : List (Except AppError β)} (h : pass envelope slots g = .ok out) :
    out = slots.map (· >>= g) := by
  cases envelope with
  | true => exact (Except.ok.inj h).symm
  | false =>
    obtain ⟨bs, hbs, rfl⟩ := except_map_ok h
    exact (mapM_ok_iff.mp hbs).symm

/-- A pass that fails stopped at an error. -/
theorem pass_error {α β : Type} {envelope : Bool} {slots : List (Except AppError α)}
    {g : α → Except AppError β} {e : AppError} (h : pass envelope slots g = .error e) :
    envelope = false ∧ slots.mapM (· >>= g) = .error e := by
  cases envelope with
  | true => cases h
  | false =>
    refine ⟨rfl, ?_⟩
    unfold pass at h
    cases hm : slots.mapM (· >>= g) with
    | ok bs => simp [hm, Except.map] at h
    | error e' => simpa [hm, Except.map] using h

theorem revalidateBatch_always {g : B → Act OracleResponse} {recheck : B → Except AppError OracleResponse}
    {built : List (Except AppError B)}
    (h : ∀ b, .ok b ∈ built → C.Always (· = recheck b) (g b).run) (envelope : Bool) :
    C.Always (· = pass envelope built recheck) (revalidateBatch g envelope built).run := by
  unfold pass
  induction built with
  | nil => cases envelope <;> exact Always.ret rfl
  | cons slot rest ih =>
    have hrest := ih fun b hb => h b (List.mem_cons_of_mem _ hb)
    have hslot : C.Always (· = .ok (slot >>= recheck)) (andThen g slot).run :=
      andThen_always fun b hb => h b (by simp [hb])
    refine Always.andThen hslot (fun item hitem => ?_) (fun e he => nomatch he)
    obtain rfl := Except.ok.inj hitem
    cases envelope with
    | true => exact Always.pureMap hrest
    | false =>
      cases hr : slot >>= recheck with
      | error e =>
        rw [if_neg (by decide), mapM_cons_error (f := (· >>= recheck)) (e := e) hr]
        exact Always.ret rfl
      | ok r =>
        rw [if_neg (by decide), mapM_cons_ok (f := (· >>= recheck)) (b := r) hr, except_map_map]
        refine (Always.pureMap hrest).mono fun out hout => ?_
        rw [hout, if_neg (by decide), except_map_map]
        rfl

/-- The window puts every result back in its place. -/
theorem buildSlots_always {f : R → Act B} {build : R → Except AppError B}
    {slots : List (Except AppError R)} (h : ∀ r, .ok r ∈ slots → C.Always (· = build r) (f r).run)
    (envelope : Bool) :
    C.AlwaysPar (· = pass envelope slots build) (buildSlots slots envelope f).run := by
  unfold buildSlots
  cases envelope with
  | false => exact AlwaysPar.lift (buildInOrder_always h)
  | true =>
    refine AlwaysPar.unordered (T := fun j r => (slots[j]?).map (· >>= build) = some r) (by decide)
      (fun j b hj => ?_) (fun ys hperm hys => ?_)
    · obtain ⟨slot, hslot, rfl⟩ := List.getElem?_map .. ▸ hj |> Option.map_eq_some_iff.mp
      rw [hslot]
      cases slot with
      | error e => exact Always.ret rfl
      | ok r =>
        refine (h r (List.mem_of_getElem? hslot)).mono fun x hx => ?_
        rw [hx]
        rfl
    · rw [List.length_map] at hperm
      have hplace : place slots.length ys = some (slots.map (· >>= build)) := by
        refine place_map hperm fun j r slot hr hslot => ?_
        have hresult := hys j r hr
        rw [hslot] at hresult
        exact (Option.some.inj hresult).symm
      change C.AlwaysPar _ (placed slots.length ys).run
      rw [placed_run hplace]
      exact AlwaysPar.ret rfl

variable (hcount : ∀ m s, C.Pre (.count m) s)
include hcount

theorem recordItemOutcome_always (endpoint outcome : String) (n : ℕ) :
    C.Always (· = .ok ()) (recordItemOutcome endpoint outcome n).run := by
  unfold recordItemOutcome
  split
  · exact Always.ret rfl
  · exact count_always hcount rfl _

theorem strictAbort_always {α : Type} (endpoint : String) (err : AppError) :
    C.Always (· = (.error err : Except AppError α)) (strictAbort endpoint err).run :=
  Always.andThen (recordItemOutcome_always hcount _ _ _) (fun _ _ => Always.ret rfl)
    (fun _ he => nomatch he)

theorem abortUnresolved_always (endpoint : String) (envelope : Bool)
    (resolved : List (Except AppError R)) :
    C.Always (· = if envelope then .ok () else (resolved.mapM id).map fun _ => ())
      (abortUnresolved endpoint envelope resolved).run := by
  cases envelope with
  | true => exact Always.ret rfl
  | false =>
    -- the search stops at the error at which the pass stops
    induction resolved with
    | nil => exact Always.ret rfl
    | cons slot rest ih =>
      cases slot with
      | error e => exact strictAbort_always hcount _ _
      | ok r =>
        have hskip : abortUnresolved endpoint false (.ok r :: rest) =
            abortUnresolved endpoint false rest := rfl
        rw [hskip, mapM_cons_ok (f := id) (b := r) rfl, except_map_map]
        exact ih

theorem finish_always (endpoint : String) (items : List (Except AppError OracleResponse))
    (envelope : Bool) :
    C.Always (· = if envelope then .ok (.envelope (items.map BatchItemResponse.ofResult))
      else (items.mapM id).map .strict) (finish endpoint items envelope).run := by
  unfold finish
  cases envelope with
  | false =>
    have hstrict : C.Always (· = items.mapM id) (finishStrict endpoint items).run := by
      induction items with
      | nil => exact Always.ret rfl
      | cons item rest ih =>
        cases item with
        | error err => exact strictAbort_always hcount _ _
        | ok response =>
          rw [mapM_cons_ok (f := id) (b := response) rfl]
          exact Always.pureMap ih
    refine Always.andThen hstrict (fun responses hresponses => ?_) (fun e he => ?_)
    · rw [← hresponses]
      exact Always.andThen (recordItemOutcome_always hcount _ _ _) (fun _ _ => Always.ret rfl)
        (fun _ he => nomatch he)
    · rw [← he]
      rfl
  | true =>
    have henvelope : C.Always (· = .ok (items.map BatchItemResponse.ofResult))
        (finishEnvelope endpoint items).run := by
      induction items with
      | nil => exact Always.ret rfl
      | cons item rest ih =>
        exact Always.andThen (recordItemOutcome_always hcount _ _ _)
          (fun _ _ => Always.pureMap ih) (fun _ he => nomatch he)
    exact Always.pureMap henvelope

theorem refuseLegacy_always (endpoint : String) (symbolOf : R → Symbol)
    (resolved : List (Except AppError R)) :
    C.Always (· = .ok (resolved.map (· >>= fun _ => .error legacyRefusal)))
      (refuseLegacy endpoint symbolOf resolved).run := by
  induction resolved with
  | nil => exact Always.ret rfl
  | cons slot rest ih =>
    have hrefuse : ∀ r, C.Always (· = (.error legacyRefusal : Except AppError OracleResponse))
        (legacySignatureUnavailable endpoint (symbolOf r)).run := by
      intro r
      unfold legacySignatureUnavailable unavailable
      exact Always.andThen (S := (· = .ok ())) (count_always hcount rfl _)
        (fun _ _ => Always.ret rfl) (fun _ he => nomatch he)
    have hslot : C.Always (· = .ok (slot >>= fun _ => .error legacyRefusal))
        (andThen (fun r => legacySignatureUnavailable endpoint (symbolOf r)) slot).run :=
      andThen_always fun r _ => hrefuse r
    refine Always.andThen hslot (fun item hitem => ?_) (fun e he => nomatch he)
    obtain rfl := Except.ok.inj hitem
    exact Always.pureMap ih

theorem orAbort_always {α : Type} (endpoint : String) {x : Handle B α} {r : Except AppError α}
    (h : C.AlwaysPar (· = r) x.run) : C.AlwaysPar (· = r) (orAbort endpoint x).run := by
  refine AlwaysPar.tryCatch h (fun a ha => ha) (fun e he => ?_)
  rw [← he]
  exact AlwaysPar.lift (strictAbort_always hcount _ _)

/-- The answer the outcomes of the items give, in either mode. -/
def Outcomes.answer (o : Outcomes R B) (envelope : Bool) (items : List OracleRequestTuple) :
    Except AppError ContextResponse :=
  if envelope then .ok (.envelope (items.map fun req => .ofResult (o.outcome req)))
  else (o.phases items).map .strict

end Pipeline

section Serve
variable {D : Deployment} {E : Environment D} {R B : Type} {P : Phases R B} {endpoint : Endpoint}
  {o : Outcomes R B} {items : List OracleRequestTuple}

theorem legacy_always (hlegacy : endpoint.legacy = true) (hne : items ≠ []) (envelope : Bool)
    (hresolved : envelope = false → ∃ rs, items.mapM o.resolve = .ok rs) :
    E.contract.AlwaysPar (· = (o.on endpoint).answer envelope items) (do
      let slots ← Handle.act (refuseLegacy endpoint.tag P.symbolOf (items.map o.resolve))
      Handle.act (finish endpoint.tag slots envelope) : Handle B ContextResponse).run := by
  have hcount : ∀ m s, E.contract.Pre (.count m) s := fun _ _ => trivial
  have hon : o.on endpoint = { o with build := fun _ => .error legacyRefusal } := if_pos hlegacy
  refine AlwaysPar.andThen (AlwaysPar.lift (refuseLegacy_always hcount _ _ _))
    (fun slots hslots => ?_) (fun e he => nomatch he)
  obtain rfl := Except.ok.inj hslots
  refine AlwaysPar.lift ((finish_always hcount _ _ _).mono fun x hx => ?_)
  rw [hx, hon]
  unfold Outcomes.answer
  cases envelope with
  | true =>
    rw [if_pos rfl, if_pos rfl, List.map_map, List.map_map]
    refine congrArg (fun l => Except.ok (ContextResponse.envelope l)) ?_
    refine List.map_congr_left fun req _ => congrArg BatchItemResponse.ofResult ?_
    unfold Outcomes.outcome
    cases o.resolve req <;> rfl
  | false =>
    obtain ⟨rs, hrs⟩ := hresolved rfl
    have hrefuse : ((items.map o.resolve).map fun slot => slot >>= fun _ =>
        (.error legacyRefusal : Except AppError OracleResponse)).mapM id =
        rs.mapM fun _ => .error legacyRefusal := by
      rw [List.map_map, List.mapM_map]
      exact mapM_after_ok hrs
    rw [if_neg (by decide), if_neg (by decide), hrefuse]
    unfold Outcomes.phases
    rw [hrs]
    cases rs with
    | nil =>
      have hnil := mapM_ok_iff.mp hrs
      exact absurd (List.map_eq_nil_iff.mp hnil) hne
    | cons r rs => rfl

/-- Answering with the rechecked slots is the answer of the outcomes. -/
theorem finish_answer {envelope : Bool} {slots : List (Except AppError OracleResponse)}
    (h : pass envelope (items.map fun req => o.resolve req >>= o.build) o.recheck = .ok slots) :
    (if envelope then .ok (.envelope (slots.map BatchItemResponse.ofResult))
      else (slots.mapM id).map ContextResponse.strict) = o.answer envelope items := by
  have hslots : slots = items.map o.outcome := by
    rw [pass_ok h, List.map_map]
    exact List.map_congr_left fun req _ => Outcomes.outcome_eq req
  unfold Outcomes.answer
  cases envelope with
  | true =>
    rw [hslots, List.map_map]
    rfl
  | false =>
    obtain ⟨rs, -, hrs⟩ := except_map_ok h
    have hphases : o.phases items = .ok rs := Outcomes.phases_ok_iff.mpr (hslots ▸ hrs.symm)
    have hid : slots.mapM id = .ok rs := mapM_ok_iff.mpr (by rw [← hrs, List.map_id])
    rw [hphases, hid]
    rfl

theorem buildAndRecheck_always (hlegacy : endpoint.legacy = false) (hfixed : Fixed E P endpoint o items)
    (envelope : Bool) (hresolved : envelope = false → ∃ rs, items.mapM o.resolve = .ok rs) :
    E.contract.AlwaysPar (· = o.answer envelope items)
      (buildAndRecheck P endpoint.tag envelope (items.map o.resolve)).run := by
  have hcount : ∀ m s, E.contract.Pre (.count m) s := fun _ _ => trivial
  refine AlwaysPar.andThen (AlwaysPar.lift (hfixed.builder hlegacy)) ?_ (fun e he => ?_)
  · rintro build ⟨build', hbuild', hbuild⟩
    obtain rfl := Except.ok.inj hbuild'
    have hslots : ∀ r, .ok r ∈ items.map o.resolve →
        E.contract.Always (· = o.build r) (build r).run := by
      intro r hr
      obtain ⟨req, hreq, hresolve⟩ := List.mem_map.mp hr
      exact hbuild req hreq r hresolve
    refine AlwaysPar.andThen (orAbort_always hcount _ (buildSlots_always hslots envelope)) ?_ ?_
    · intro built hbuilt
      have hstrict : envelope = false →
          ∃ bs, items.mapM (fun req => o.resolve req >>= o.build) = .ok bs := by
        rintro rfl
        obtain ⟨bs, hbs, -⟩ := except_map_ok hbuilt.symm
        rw [List.mapM_map] at hbs
        exact ⟨bs, hbs⟩
      obtain rfl := pass_ok hbuilt.symm
      rw [List.map_map]
      refine AlwaysPar.andThen (AlwaysPar.lift (hfixed.rechecker hlegacy)) ?_ ?_
      · rintro recheck ⟨recheck', hrecheck', hrecheck⟩
        obtain rfl := Except.ok.inj hrecheck'
        have hfinal : ∀ b, .ok b ∈ items.map (fun req => o.resolve req >>= o.build) →
            E.contract.Always (· = o.recheck b) (recheck b).run := by
          intro b hb
          obtain ⟨req, hreq, hbuilt⟩ := List.mem_map.mp hb
          obtain ⟨r, hresolve, hbuild⟩ := except_bind_ok hbuilt
          exact hrecheck req hreq r b hresolve hbuild
        refine AlwaysPar.andThen (orAbort_always hcount _
          (AlwaysPar.lift (revalidateBatch_always hfinal envelope))) ?_ ?_
        · intro slots hslots
          refine AlwaysPar.lift ((finish_always hcount _ _ _).mono fun x hx => ?_)
          rw [hx]
          exact finish_answer hslots.symm
        · intro e he
          obtain ⟨rfl, hfail⟩ := pass_error he.symm
          obtain ⟨rs, hrs⟩ := hresolved rfl
          obtain ⟨bs, hbs⟩ := hstrict rfl
          have hphases : o.phases items = .error e := by
            rw [Outcomes.phases_of_built hrs hbs, ← hfail, List.mapM_map]
            rfl
          unfold Outcomes.answer
          rw [hphases]
          rfl
      · rintro e ⟨recheck, he, -⟩
        cases he
    · intro e he
      obtain ⟨rfl, hfail⟩ := pass_error he.symm
      obtain ⟨rs, hrs⟩ := hresolved rfl
      have hphases : o.phases items = .error e := by
        rw [List.mapM_map] at hfail
        rw [Outcomes.phases_of_resolved hrs]
        change (items.mapM ((· >>= o.build) ∘ o.resolve) >>= _) = _
        rw [hfail]
        rfl
      unfold Outcomes.answer
      rw [hphases]
      rfl
  · obtain ⟨build, he, -⟩ := he
    cases he

theorem serve_always (hfixed : Fixed E P endpoint o items) (query : ContextQuery) (isBatch : Bool) :
    E.contract.AlwaysPar (· = (o.on endpoint).answer (query.allowFailure && isBatch) items)
      (serve P endpoint query ⟨items, isBatch⟩).run := by
  have hcount : ∀ m s, E.contract.Pre (.count m) s := fun _ _ => trivial
  unfold serve
  dsimp only
  generalize (query.allowFailure && isBatch) = envelope
  split
  · next hempty =>
    obtain rfl := List.isEmpty_iff.mp hempty
    refine AlwaysPar.lift ((finish_always hcount _ _ _).mono fun x hx => ?_)
    rw [hx]
    cases envelope <;> rfl
  next hne =>
  replace hne : items ≠ [] := fun h => hne (by rw [h]; rfl)
  have hsame : (o.on endpoint).resolve = o.resolve := by
    unfold Outcomes.on
    split <;> rfl
  refine AlwaysPar.andThen (AlwaysPar.lift hfixed.resolver) ?_ ?_
  · rintro resolve ⟨resolve', hresolve', hagree⟩
    obtain rfl := Except.ok.inj hresolve'
    have hmap : items.map resolve = items.map o.resolve := List.map_congr_left hagree
    rw [hmap]
    refine AlwaysPar.andThen (AlwaysPar.lift (abortUnresolved_always hcount _ _ _)) ?_ ?_
    · intro _ hresolved
      have hall : envelope = false → ∃ rs, items.mapM o.resolve = .ok rs := by
        rintro rfl
        obtain ⟨rs, hrs, -⟩ := except_map_ok hresolved.symm
        rw [List.mapM_map] at hrs
        exact ⟨rs, hrs⟩
      split
      · next hlegacy => exact legacy_always hlegacy hne envelope hall
      · next hlegacy =>
        have hon : o.on endpoint = o := if_neg hlegacy
        rw [hon]
        exact buildAndRecheck_always (by simpa using hlegacy) hfixed envelope hall
    · intro e he
      cases envelope with
      | true => cases he
      | false =>
        have hfail : items.mapM o.resolve = .error e := by
          rw [if_neg (by decide), List.mapM_map] at he
          change _ = (items.mapM o.resolve).map _ at he
          cases hm : items.mapM o.resolve with
          | ok rs => rw [hm] at he; cases he
          | error e' =>
            rw [hm] at he
            obtain rfl := Except.error.inj he
            rfl
        unfold Outcomes.answer Outcomes.phases
        rw [hsame, hfail]
        rfl
  · rintro e ⟨resolve, he, -⟩
    cases he

/-- The whole handler: a body that decodes is answered so, whatever the query string. -/
theorem postSignedContext_returns [Abi] (hfixed : Fixed E P endpoint o items) {s : Server}
    (hs : E.Inv s) (query : Option String) {body : ByteArray} {isBatch : Bool}
    (hbody : decodeRequestBody body = .ok ⟨items, isBatch⟩) :
    E.contract.Returns (postSignedContext P endpoint query body) s
      (· = (o.on endpoint).answer ((ContextQuery.parse query).allowFailure && isBatch) items) := by
  have hserve : E.contract.AlwaysPar
      (· = (o.on endpoint).answer ((ContextQuery.parse query).allowFailure && isBatch) items)
      (serveBody P endpoint (ContextQuery.parse query) body).run := by
    unfold serveBody
    rw [hbody]
    exact serve_always hfixed _ _
  refine SafePar.returns E.answers hs (AlwaysPar.bind hserve (fun result hresult => ?_) [] s hs)
  refine AlwaysPar.bind (S := fun _ => True) (AlwaysPar.lift ?_) fun _ _ => AlwaysPar.ret hresult
  exact fun _ _ _ _ _ => ⟨trivial, fun _ _ _ _ _ _ _ _ => trivial⟩

/-- The two modes agree item by item. With the flag a batch is answered with every item's
own outcome in its place. Without it, and for a single tuple whatever the flag, the answer
is the strict one. -/
theorem modes_agree [Abi] (hfixed : Fixed E P endpoint o items) {s : Server} (hs : E.Inv s) :
    (∀ body query, decodeRequestBody body = .ok ⟨items, true⟩ →
      (ContextQuery.parse query).allowFailure = true →
      E.contract.Returns (postSignedContext P endpoint query body) s
        (· = .ok (.envelope (items.map fun req => .ofResult ((o.on endpoint).outcome req))))) ∧
    ∃ result, (o.on endpoint).StrictAnswer items result ∧
      (∀ body query, decodeRequestBody body = .ok ⟨items, true⟩ →
        (ContextQuery.parse query).allowFailure = false →
        E.contract.Returns (postSignedContext P endpoint query body) s (· = result)) ∧
      ∀ body query, decodeRequestBody body = .ok ⟨items, false⟩ →
        E.contract.Returns (postSignedContext P endpoint query body) s (· = result) := by
  refine ⟨fun body query hbody hflag => ?_, _, (o.on endpoint).strictAnswer items,
    fun body query hbody hflag => ?_, fun body query hbody => ?_⟩
  · have hreturns := postSignedContext_returns hfixed hs query hbody
    rw [hflag] at hreturns
    exact hreturns
  · have hreturns := postSignedContext_returns hfixed hs query hbody
    rw [hflag] at hreturns
    exact hreturns
  · have hreturns := postSignedContext_returns hfixed hs query hbody
    rw [Bool.and_false] at hreturns
    exact hreturns

end Serve

end OracleServer
