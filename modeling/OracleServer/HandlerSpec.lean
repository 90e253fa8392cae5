import OracleServer.BuilderSpec

/-! What the handlers deliver. The pipeline is first followed for any phases: if each
phase establishes its own fact about item `i` from the fact of the phase before, then
every delivered item `i` has the last one. The server's phases are then supplied. -/
namespace OracleServer

open Interaction Interaction.Contract

section Place
variable {α : Type}

/-- Every completion stands in its own place, and no other place is touched. -/
theorem foldl_set_spec (completed : List (ℕ × α)) (built : List (Option α))
    (hnodup : (completed.map Prod.fst).Nodup) :
    (∀ j r, (j, r) ∈ completed → j < built.length →
        (completed.foldl (fun built c => built.set c.1 (some c.2)) built)[j]? = some (some r)) ∧
      ∀ j, j ∉ completed.map Prod.fst →
        (completed.foldl (fun built c => built.set c.1 (some c.2)) built)[j]? = built[j]? := by
  induction completed generalizing built with
  | nil => simp
  | cons c rest ih =>
    obtain ⟨hc, hrest⟩ := List.nodup_cons.mp hnodup
    obtain ⟨ih₁, ih₂⟩ := ih (built.set c.1 (some c.2)) hrest
    rw [List.foldl_cons]
    refine ⟨fun j r hjr hlt => ?_, fun j hj => ?_⟩
    · rcases List.mem_cons.mp hjr with rfl | hjr
      · rw [ih₂ _ hc, List.getElem?_set_self hlt]
      · exact ih₁ j r hjr (by simpa using hlt)
    · have hne : c.1 ≠ j := fun h => hj (by simp [h])
      rw [ih₂ j fun h => hj (List.mem_cons_of_mem _ h), List.getElem?_set_ne hne]

theorem mapM_id_of_filled {l : List (Option α)} (h : ∀ o ∈ l, o ≠ none) :
    ∃ built, l.mapM id = some built ∧ l = built.map some := by
  induction l with
  | nil => exact ⟨[], rfl, rfl⟩
  | cons o l ih =>
    obtain ⟨built, hb, hl⟩ := ih fun o' ho' => h o' (by simp [ho'])
    obtain ⟨r, rfl⟩ := Option.ne_none_iff_exists'.mp (h o (by simp))
    exact ⟨r :: built, by simp [hb], by simp [← hl]⟩

/-- Completions of all indices, in any order, go back where they belong. -/
theorem place_perm {n : ℕ} {completed : List (ℕ × α)}
    (hperm : (completed.map Prod.fst).Perm (List.range n)) :
    ∃ built, place n completed = some built ∧ built.length = n ∧
      ∀ j r, built[j]? = some r ↔ (j, r) ∈ completed := by
  have hnodup : (completed.map Prod.fst).Nodup := hperm.nodup_iff.mpr List.nodup_range
  obtain ⟨hin, -⟩ := foldl_set_spec completed (List.replicate n none) hnodup
  have hlen : (completed.foldl (fun built c => built.set c.1 (some c.2))
      (List.replicate n none)).length = n := by
    have : ∀ (l : List (ℕ × α)) (b : List (Option α)),
        (l.foldl (fun built c => built.set c.1 (some c.2)) b).length = b.length := by
      intro l
      induction l with
      | nil => simp
      | cons c l ih => simp [ih]
    rw [this, List.length_replicate]
  -- every index below `n` has a completion
  have hall : ∀ j < n, ∃ r, (j, r) ∈ completed := by
    intro j hj
    have hmem : j ∈ completed.map Prod.fst := hperm.mem_iff.mpr (List.mem_range.mpr hj)
    obtain ⟨⟨_, r⟩, hr, rfl⟩ := List.mem_map.mp hmem
    exact ⟨r, hr⟩
  have hfilled : ∀ o ∈ completed.foldl (fun built c => built.set c.1 (some c.2))
      (List.replicate n none), o ≠ none := by
    intro o ho
    obtain ⟨j, hj, rfl⟩ := List.mem_iff_getElem.mp ho
    obtain ⟨r, hr⟩ := hall j (by omega)
    have hget := hin j r hr (by simp; omega)
    rw [List.getElem?_eq_getElem hj] at hget
    rw [Option.some.inj hget]
    simp
  obtain ⟨built, hplace, hbuilt⟩ := mapM_id_of_filled hfilled
  have hblen : built.length = n := by rw [← hlen, hbuilt, List.length_map]
  refine ⟨built, hplace, hblen, fun j r => ?_⟩
  constructor
  · intro hj
    have hlt : j < n := by
      rw [← hblen]
      exact (List.getElem?_eq_some_iff.mp hj).1
    obtain ⟨r', hr'⟩ := hall j hlt
    have hget := hin j r' hr' (by simpa using hlt)
    rw [hbuilt, List.getElem?_map, hj] at hget
    obtain rfl : r = r' := by simpa using hget
    exact hr'
  · intro hjr
    have hlt : j < n := List.mem_range.mp (hperm.mem_iff.mp (List.mem_map.mpr ⟨_, hjr, rfl⟩))
    have hget := hin j r hjr (by simpa using hlt)
    rw [hbuilt, List.getElem?_map] at hget
    obtain ⟨r', hr', heq⟩ := Option.map_eq_some_iff.mp hget
    rw [hr', Option.some.inj heq]

/-- When each completion is what `f` makes of its own slot, so is the placed list. -/
theorem place_map {β : Type} {slots : List β} {f : β → α} {completed : List (ℕ × α)}
    (hperm : (completed.map Prod.fst).Perm (List.range slots.length))
    (hf : ∀ (j : ℕ) r slot, (j, r) ∈ completed → slots[j]? = some slot → r = f slot) :
    place slots.length completed = some (slots.map f) := by
  obtain ⟨built, hplace, hlen, hget⟩ := place_perm hperm
  have hbuilt : built = slots.map f := by
    apply List.ext_getElem (by simpa using hlen)
    intro j hj hj'
    have hmem := (hget j built[j]).mp (List.getElem?_eq_getElem hj)
    have hlt : j < slots.length := by simpa using hj'
    rw [List.getElem_map]
    exact hf j _ _ hmem (List.getElem?_eq_getElem hlt)
  rw [hplace, hbuilt]

end Place

/-- What is left of an envelope pass once its branches have completed. -/
def placed {B : Type} (n : ℕ) (completed : List (ℕ × Except AppError B)) :
    Handle B (List (Except AppError B)) :=
  match place n completed with
  | some built => pure built
  | none => throw (.internal "every index is produced exactly once")

lemma placed_run {B : Type} {n : ℕ} {completed : List (ℕ × Except AppError B)}
    {built : List (Except AppError B)} (h : place n completed = some built) :
    (placed n completed).run = .ret (.ok built) := by
  unfold placed
  rw [h]
  rfl

/-- The signed response at position `i`, if the item there was delivered as such. -/
def ContextResponse.okAt (i : ℕ) : ContextResponse → Option OracleResponse
  | .strict items => items[i]?
  | .envelope items =>
    match items[i]? with
    | some (.ok r) => some r
    | _ => none

section Pipeline
variable {C : Contract Server Input Op Op.Answer} {R B : Type}
  {tr : Trace Server Op Op.Answer} {s : Server}

/-- A fact that survives whatever happens later. -/
def Stable (C : Contract Server Input Op Op.Answer) {α : Type} (P : Post Server Op Op.Answer α) :
    Prop :=
  ∀ x t u t' u', C.Later t u t' u' → P x t u → P x t' u'

theorem buildInOrder_safe {f : R → Act B} {slots : List (Except AppError R)}
    {P : ℕ → Post Server Op Op.Answer B} (hP : ∀ i, Stable C (P i))
    (h : ∀ i r, slots[i]? = some (.ok r) → C.SafeOk (P i) (f r) tr s) :
    C.SafeOk (fun built t u => ∀ i b, built[i]? = some (.ok b) → P i b t u)
      (buildInOrder f slots) tr s := by
  induction slots generalizing P tr s with
  | nil => exact SafeOk.pure fun _ _ _ i b hi => by simp at hi
  | cons slot rest ih =>
    refine SafeOk.bind (SafeOk.ofExcept fun value t u hvalue hl => ?_)
    subst hvalue
    refine SafeOk.bind (((h 0 value rfl).later hl).mono fun b t₁ u₁ hl₁ hb => ?_)
    have hnext : ∀ (i : ℕ) r, rest[i]? = some (.ok r) → C.SafeOk (P (i + 1)) (f r) t₁ u₁ :=
      fun i r hi => (h (i + 1) r hi).later (hl.trans hl₁)
    have hrest := ih (P := fun i => P (i + 1)) (fun i => hP (i + 1)) hnext
    refine SafeOk.bind (hrest.mono fun others t₂ u₂ hl₂ hothers => ?_)
    refine SafeOk.pure fun t₃ u₃ hl₃ i b' hi => ?_
    cases i with
    | zero =>
      obtain rfl : b = b' := by simpa using hi
      exact hP 0 b _ _ _ _ (hl₂.trans hl₃) hb
    | succ i => exact hP (i + 1) b' _ _ _ _ hl₃ (hothers i b' (by simpa using hi))

/-- Both build modes put the fact of item `i` at position `i`. -/
theorem buildSlots_safe {f : R → Act B} {slots : List (Except AppError R)} (envelope : Bool)
    {P : ℕ → Post Server Op Op.Answer B} (hP : ∀ i, Stable C (P i))
    (h : ∀ i r, slots[i]? = some (.ok r) → C.SafeOk (P i) (f r) tr s) :
    C.SafeParOk (fun built t u => ∀ i b, built[i]? = some (.ok b) → P i b t u)
      (buildSlots slots envelope f) tr s := by
  unfold buildSlots
  cases envelope with
  | false => exact SafeParOk.act (buildInOrder_safe hP h)
  | true =>
    refine ⟨by decide, fun j r t u => ∀ b, r = .ok b → P j b t u, fun j b hj => ?_, fun ys t u hl hperm hys => ?_⟩
    · obtain ⟨slot, hslot, rfl⟩ := List.getElem?_map .. ▸ hj |> Option.map_eq_some_iff.mp
      cases slot with
      | error e =>
        intro t u _ b hb
        cases hb
      | ok value => exact h j value hslot
    · rw [List.length_map] at hperm
      obtain ⟨built, hplace, -, hget⟩ := place_perm hperm
      change C.SafePar _ (placed slots.length ys).run t u
      rw [placed_run hplace]
      intro t' u' hl' b hb i x hi
      obtain rfl := Except.ok.inj hb
      exact hP i x _ _ _ _ hl' (hys i (.ok x) ((hget i (.ok x)).mp hi) x rfl)

theorem andThen_safe {α β : Type} {f : α → Act β} {slot : Except AppError α}
    {P : Post Server Op Op.Answer β} (h : ∀ x, slot = .ok x → C.SafeOk P (f x) tr s) :
    C.SafeOk (fun item t u => ∀ r, item = .ok r → P r t u) (andThen f slot) tr s := by
  cases slot with
  | error e =>
    refine SafeOk.pure fun _ _ _ r hr => ?_
    cases hr
  | ok x =>
    refine Safe.bind (Safe.mono (Safe.always (h x rfl)) fun item t u hl hitem => ?_)
    intro t' u' hl' r hr b hb
    obtain rfl := Except.ok.inj hr
    exact hitem t' u' hl' b hb

theorem revalidateBatch_safe {g : B → Act OracleResponse} (envelope : Bool)
    {built : List (Except AppError B)} {P : ℕ → Post Server Op Op.Answer OracleResponse}
    (hP : ∀ i, Stable C (P i))
    (h : ∀ i b, built[i]? = some (.ok b) → C.SafeOk (P i) (g b) tr s) :
    C.SafeOk (fun items t u => ∀ i r, items[i]? = some (.ok r) → P i r t u)
      (revalidateBatch g envelope built) tr s := by
  induction built generalizing P tr s with
  | nil => exact SafeOk.pure fun _ _ _ i r hi => by simp at hi
  | cons slot rest ih =>
    have hslot : C.SafeOk (fun item t u => ∀ r, item = .ok r → P 0 r t u) (andThen g slot) tr s :=
      andThen_safe fun b hb => h 0 b (by simp [hb])
    refine SafeOk.bind (hslot.mono fun item t u hl hitem => ?_)
    have hkeep : C.SafeOk (fun items t u => ∀ i r, items[i]? = some (.ok r) → P i r t u)
        (do let items ← revalidateBatch g envelope rest; pure (item :: items)) t u := by
      have hnext : ∀ (i : ℕ) b, rest[i]? = some (.ok b) → C.SafeOk (P (i + 1)) (g b) t u :=
        fun i b hi => (h (i + 1) b hi).later hl
      have hrest := ih (P := fun i => P (i + 1)) (fun i => hP (i + 1)) hnext
      refine SafeOk.bind (hrest.mono fun items t₁ u₁ hl₁ hitems => ?_)
      refine SafeOk.pure fun t₂ u₂ hl₂ i r hi => ?_
      cases i with
      | zero =>
        have hr : item = .ok r := by simpa using hi
        exact hP 0 r _ _ _ _ (hl₁.trans hl₂) (hitem r hr)
      | succ i => exact hP (i + 1) r _ _ _ _ hl₂ (hitems i r (by simpa using hi))
    cases envelope with
    | true => exact hkeep
    | false =>
      cases item with
      | error err => exact SafeOk.throw
      | ok r => exact hkeep

variable (hcount : ∀ m s, C.Pre (.count m) s)
include hcount

theorem recordItemOutcome_safe (endpoint outcome : String) (n : ℕ) :
    C.SafeOk (fun _ _ _ => True) (recordItemOutcome endpoint outcome n) tr s := by
  unfold recordItemOutcome
  split
  · exact SafeOk.pure fun _ _ _ => trivial
  · exact fun t u _ => ⟨hcount _ _, fun _ _ _ _ _ _ _ _ _ _ => trivial⟩

theorem strictAbort_safe {α : Type} {Q : Post Server Op Op.Answer α} (endpoint : String)
    (err : AppError) : C.SafeOk Q (strictAbort endpoint err) tr s :=
  SafeOk.bind ((recordItemOutcome_safe hcount _ _ _).mono fun _ _ _ _ _ => SafeOk.throw)

theorem abortUnresolved_safe (endpoint : String) (envelope : Bool)
    (resolved : List (Except AppError R)) :
    C.SafeOk (fun _ _ _ => True) (abortUnresolved endpoint envelope resolved) tr s := by
  unfold abortUnresolved
  split
  · exact SafeOk.pure fun _ _ _ => trivial
  · split
    · exact strictAbort_safe hcount _ _
    · exact SafeOk.pure fun _ _ _ => trivial

theorem finish_safe (endpoint : String) (items : List (Except AppError OracleResponse))
    (envelope : Bool) :
    C.SafeOk (fun response _ _ => ∀ i r, response.okAt i = some r → items[i]? = some (.ok r))
      (finish endpoint items envelope) tr s := by
  unfold finish
  cases envelope with
  | false =>
    have hstrict : ∀ t u, C.SafeOk (fun responses _ _ => items = responses.map Except.ok)
        (finishStrict endpoint items) t u := by
      induction items with
      | nil => exact fun t u => SafeOk.pure fun _ _ _ => rfl
      | cons item rest ih =>
        intro t u
        cases item with
        | error err => exact strictAbort_safe hcount _ _
        | ok response =>
          refine SafeOk.bind ((ih t u).mono fun responses _ _ _ hr => ?_)
          exact SafeOk.pure fun _ _ _ => by rw [hr, List.map_cons]
    refine SafeOk.bind ((hstrict tr s).mono fun responses t u _ hr => ?_)
    refine SafeOk.bind ((recordItemOutcome_safe hcount _ _ _).mono fun _ _ _ _ _ => ?_)
    refine SafeOk.pure fun _ _ _ i r hi => ?_
    have hget : responses[i]? = some r := hi
    rw [hr, List.getElem?_map, hget]
    rfl
  | true =>
    have henvelope : ∀ t u, C.SafeOk (fun out _ _ => out = items.map BatchItemResponse.ofResult)
        (finishEnvelope endpoint items) t u := by
      induction items with
      | nil => exact fun t u => SafeOk.pure fun _ _ _ => rfl
      | cons item rest ih =>
        intro t u
        refine SafeOk.bind ((recordItemOutcome_safe hcount _ _ _).mono fun _ t₁ u₁ _ _ => ?_)
        refine SafeOk.bind ((ih t₁ u₁).mono fun out _ _ _ hout => ?_)
        exact SafeOk.pure fun _ _ _ => by rw [hout, List.map_cons]
    refine SafeOk.bind ((henvelope tr s).mono fun out t u _ hout => ?_)
    refine SafeOk.pure fun _ _ _ i r hi => ?_
    subst hout
    simp only [ContextResponse.okAt, List.getElem?_map] at hi
    cases hitem : items[i]? with
    | none => simp [hitem] at hi
    | some item =>
      cases item with
      | error e => simp [hitem, BatchItemResponse.ofResult] at hi
      | ok r' =>
        have hrr : r' = r := by simpa [hitem, BatchItemResponse.ofResult] using hi
        rw [hrr]

theorem refuseLegacy_safe (endpoint : String) (symbolOf : R → Symbol)
    (resolved : List (Except AppError R)) :
    C.SafeOk (fun (items : List (Except AppError OracleResponse)) _ _ =>
        ∀ (i : ℕ) r, items[i]? ≠ some (.ok r))
      (refuseLegacy endpoint symbolOf resolved) tr s := by
  induction resolved generalizing tr s with
  | nil => exact SafeOk.pure fun _ _ _ i r hi => by simp at hi
  | cons slot rest ih =>
    have hslot : C.SafeOk (fun (item : Except AppError OracleResponse) _ _ =>
        ∀ r, item = .ok r → False)
        (andThen (fun r => legacySignatureUnavailable endpoint (symbolOf r)) slot) tr s :=
      andThen_safe (P := fun _ _ _ => False) fun x _ =>
        SafeOk.ask fun t u _ => ⟨hcount _ _, fun _ _ _ _ _ => SafeOk.throw⟩
    refine SafeOk.bind (hslot.mono fun item t u _ hitem => ?_)
    refine SafeOk.bind (ih.mono fun items _ _ _ hitems => ?_)
    refine SafeOk.pure fun _ _ _ i r hi => ?_
    cases i with
    | zero => exact hitem r (by simpa using hi)
    | succ i => exact hitems i r (by simpa using hi)

theorem orAbort_safe {α : Type} {Q : Post Server Op Op.Answer α} (endpoint : String)
    {x : Handle B α} (hs : C.Inv s) (h : C.SafeParOk Q x tr s) :
    C.SafeParOk Q (orAbort endpoint x) tr s :=
  SafeParOk.tryCatch hs h fun _ _ _ _ => SafeParOk.act (strictAbort_safe hcount _ _)

/-- The pipeline rule. `PR`, `PB` and `PO` are the facts that resolving, building and
re-checking establish about item `i`. -/
theorem serve_safe {P : Phases R B} {endpoint : Endpoint} {query : ContextQuery}
    {decoded : DecodedRequest} {PR : ℕ → Post Server Op Op.Answer R}
    {PB : ℕ → Post Server Op Op.Answer B} {PO : ℕ → Post Server Op Op.Answer OracleResponse}
    (hs : C.Inv s) (hPR : ∀ i, Stable C (PR i)) (hPB : ∀ i, Stable C (PB i))
    (hPO : ∀ i, Stable C (PO i))
    (hresolve : C.SafeOk (fun resolve t u => ∀ (i : ℕ) req r, decoded.items[i]? = some req →
      resolve req = .ok r → PR i r t u) P.resolver tr s)
    (hbuild : endpoint.legacy = false → ∀ rs t u,
      C.SafeOk (fun f t u => ∀ i r, PR i r t u → C.SafeOk (PB i) (f r) t u) (P.builder rs) t u)
    (hrecheck : endpoint.legacy = false → ∀ bs t u,
      C.SafeOk (fun g t u => ∀ i b, PB i b t u → C.SafeOk (PO i) (g b) t u) (P.rechecker bs) t u) :
    C.SafeParOk (fun response t u => ∀ i r, response.okAt i = some r →
        endpoint.legacy = false ∧ PO i r t u)
      (serve P endpoint query decoded) tr s := by
  unfold serve
  dsimp only
  split
  · refine SafeParOk.act ((finish_safe hcount _ _ _).mono fun response _ _ _ h i r hi => ?_)
    have := h i r hi
    simp at this
  refine SafeParOk.bind hs (SafeParOk.act (hresolve.mono fun resolve t₁ u₁ hl₁ hres => ?_))
  refine SafeParOk.bind hl₁.inv (SafeParOk.act ((abortUnresolved_safe hcount _ _ _).mono
    fun _ t₂ u₂ hl₂ _ => ?_))
  split
  · -- the legacy endpoints deliver no signed item
    refine SafeParOk.bind hl₂.inv (SafeParOk.act ((refuseLegacy_safe hcount _ _ _).mono
      fun items t₃ u₃ hl₃ hitems => ?_))
    refine SafeParOk.act ((finish_safe hcount _ _ _).mono fun response _ _ _ h i r hi => ?_)
    exact absurd (h i r hi) (hitems i r)
  next hlegacy =>
  replace hlegacy : endpoint.legacy = false := by simpa using hlegacy
  refine SafeParOk.bind hl₂.inv (SafeParOk.act ((hbuild hlegacy _ t₂ u₂).mono fun f t₃ u₃ hl₃ hf => ?_))
  have hslots : ∀ (i : ℕ) r, (decoded.items.map resolve)[i]? = some (.ok r) →
      C.SafeOk (PB i) (f r) t₃ u₃ := by
    intro i r hi
    rw [List.getElem?_map] at hi
    obtain ⟨req, hreq, hr⟩ := Option.map_eq_some_iff.mp hi
    exact hf i r (hPR i r _ _ _ _ (hl₂.trans hl₃) (hres i req r hreq hr))
  refine SafeParOk.bind hl₃.inv (orAbort_safe hcount _ hl₃.inv ?_)
  refine SafePar.mono hl₃.inv (buildSlots_safe _ hPB hslots) fun result t₄ u₄ hl₄ hbuilt built hb => ?_
  replace hbuilt := hbuilt built hb
  refine SafeParOk.bind hl₄.inv (SafeParOk.act ((hrecheck hlegacy _ t₄ u₄).mono fun g t₅ u₅ hl₅ hg => ?_))
  have hfinal : ∀ (i : ℕ) b, built[i]? = some (.ok b) → C.SafeOk (PO i) (g b) t₅ u₅ :=
    fun i b hi => hg i b (hPB i b _ _ _ _ hl₅ (hbuilt i b hi))
  refine SafeParOk.bind hl₅.inv (orAbort_safe hcount _ hl₅.inv (SafeParOk.act ?_))
  refine (revalidateBatch_safe _ hPO hfinal).mono fun items t₆ u₆ hl₆ hitems => ?_
  refine SafeParOk.act ((finish_safe hcount _ _ _).mono fun response t₇ u₇ hl₇ h i r hi => ?_)
  exact ⟨hlegacy, hPO i r _ _ _ _ hl₇ (hitems i r (h i r hi))⟩

/-- The outer handler adds a counter to what it serves. -/
theorem postSignedContext_safe [Abi] {P : Phases R B} {endpoint : Endpoint}
    {query : Option String} {body : ByteArray}
    {Q : DecodedRequest → Post Server Op Op.Answer ContextResponse} (hs : C.Inv s)
    (hQ : ∀ decoded, Stable C (Q decoded))
    (h : ∀ decoded, C.SafeParOk (Q decoded)
      (serve P endpoint (ContextQuery.parse query) decoded) tr s) :
    C.SafePar (fun result t u => ∀ response, result = .ok response →
        ∃ decoded, decodeRequestBody body = .ok decoded ∧ Q decoded response t u)
      (postSignedContext P endpoint query body) tr s := by
  have hbody : C.SafeParOk (fun response t u => ∃ decoded,
      decodeRequestBody body = .ok decoded ∧ Q decoded response t u)
      (serveBody P endpoint (ContextQuery.parse query) body) tr s := by
    unfold serveBody
    split
    · exact fun t u _ _ hr => nomatch hr
    next decoded hdecoded =>
    refine SafePar.mono hs (h decoded) fun r t u _ hr response hresponse => ?_
    exact ⟨decoded, hdecoded, hr response hresponse⟩
  refine SafePar.bind hs (SafePar.mono hs hbody fun result t u _ hr => ?_)
  refine fun t₁ u₁ hl₁ => ⟨hcount _ _, fun i _ v hi hp => ?_⟩
  have hask : C.Later t₁ u₁
      (t₁ ++ [⟨u₁, .count (.contextRequest endpoint.tag (requestOutcome result)), ()⟩]) v :=
    Later.ask hi hl₁.inv (hcount _ _) hp
  refine fun t₂ u₂ hl₂ response hresponse => ?_
  obtain ⟨decoded, hdecoded, hq⟩ := hr response hresponse
  exact ⟨decoded, hdecoded, hQ decoded _ _ _ _ _ (hl₁.trans (hask.trans hl₂)) hq⟩

end Pipeline

end OracleServer
