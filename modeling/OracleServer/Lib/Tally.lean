import OracleServer.Lib.Completion
import OracleServer.Lib.Protocol

/-! What a task has spent. Every operation weighs something in a commutative monoid; the
weight of a trace is the sum over the branches of a stream of what each has spent, in
whatever order they ran, so bounds on one branch add up to bounds on the task. -/
namespace OracleServer.Interaction

variable {σ ι O : Type} {A : O → Type} {α β γ : Type} {G : Type} [AddCommMonoid G] {w : O → G}

/-- Having spent `g`, the program stays within `K` and returns `a` with a total `Q` allows. -/
def Prog.Tally (w : O → G) (K : G → Prop) (Q : α → G → Prop) : G → Prog O A α → Prop
  | g, .ret a => K g ∧ Q a g
  | g, .op o k => K g ∧ ∀ a, (k a).Tally w K Q (g + w o)

/-- The weight of the answers so far. -/
def Trace.weight (w : O → G) (tr : Trace σ O A) : G := (tr.map fun e => w e.op).sum

theorem Trace.weight_snoc (tr : Trace σ O A) (e : Entry σ O A) :
    Trace.weight w (tr ++ [e]) = Trace.weight w tr + w e.op := by
  simp [Trace.weight]

/-- A sum over the places of a list is a sum over its elements. -/
theorem sum_places {l : List α} {h : ℕ → G} {f : α → G}
    (hf : ∀ (j : ℕ) a, l[j]? = some a → h j = f a) :
    ∑ j ∈ Finset.range l.length, h j = (l.map f).sum := by
  induction l generalizing h with
  | nil => simp
  | cons a l ih =>
    have htail : ∀ (j : ℕ) b, l[j]? = some b → h (j + 1) = f b := fun j b hj => hf (j + 1) b hj
    rw [List.length_cons, Finset.sum_range_succ', ih htail, hf 0 a rfl, List.map_cons,
      List.sum_cons, add_comm]

/-- An element that grows by `d` in its place. -/
theorem sum_set {l : List α} {f : α → G} {j : ℕ} {a b : α} {d : G} (hj : l[j]? = some a)
    (hb : f b = f a + d) : ((l.set j b).map f).sum = (l.map f).sum + d := by
  induction l generalizing j with
  | nil => simp at hj
  | cons x l ih =>
    cases j with
    | zero =>
      obtain rfl : x = a := by simpa using hj
      rw [List.set_cons_zero, List.map_cons, List.map_cons, List.sum_cons, List.sum_cons, hb,
        add_right_comm]
    | succ j =>
      have hrest := ih (j := j) (by simpa using hj)
      rw [List.set_cons_succ, List.map_cons, List.map_cons, List.sum_cons, List.sum_cons, hrest,
        add_assoc]

section Programs
variable {K : G → Prop} {Q Q' : α → G → Prop} {g : G}

theorem Prog.Tally.within {p : Prog O A α} (h : p.Tally w K Q g) : K g := by
  cases p with
  | ret a => exact h.1
  | op o k => exact h.1

theorem Prog.Tally.mono {K' : G → Prop} {p : Prog O A α} (h : p.Tally w K Q g)
    (hK : ∀ g, K g → K' g) (hQ : ∀ a g, Q a g → Q' a g) : p.Tally w K' Q' g := by
  induction p generalizing g with
  | ret a => exact ⟨hK g h.1, hQ a g h.2⟩
  | op o k ih => exact ⟨hK g h.1, fun a => ih a (h.2 a)⟩

theorem Prog.Tally.bind {p : Prog O A γ} {f : γ → Prog O A α}
    (h : p.Tally w K (fun c g => (f c).Tally w K Q g) g) : (p.bind f).Tally w K Q g := by
  induction p generalizing g with
  | ret c => exact h.2
  | op o k ih => exact ⟨h.1, fun a => ih a (h.2 a)⟩

/-- Operations that weigh nothing. -/
theorem Prog.Tally.of_uses {p : Prog O A α} (h : p.Uses fun o => w o = 0) (hK : K g)
    (hQ : ∀ a, Q a g) : p.Tally w K Q g := by
  induction p generalizing g with
  | ret a => exact ⟨hK, hQ a⟩
  | op o k ih =>
    refine ⟨hK, fun a => ?_⟩
    rw [h.1, add_zero]
    exact ih a (h.2 a) hK hQ

end Programs

/-- A stream in the middle of its run: `g` was spent before it, and branch `j` has spent `h j`. -/
structure Spent (w : O → G) (K : ℕ → G → Prop) (Q : ℕ → β → G → Prop) (g : G)
    (bs : List (Branch O A β)) (ys : List (ℕ × β)) (tr : Trace σ O A) (h : ℕ → G) : Prop where
  yields : Yields bs ys
  total : Trace.weight w tr = g + ∑ j ∈ Finset.range bs.length, h j
  queued : ∀ (j : ℕ) p, bs[j]? = some (.queued p) → h j = 0 ∧ p.Tally w (K j) (Q j) 0
  active : ∀ (j : ℕ) p, bs[j]? = some (.active p) → p.Tally w (K j) (Q j) (h j)
  yielded : ∀ j r, (j, r) ∈ ys → Q j r (h j)

section Streams
variable {K : ℕ → G → Prop} {Q : ℕ → β → G → Prop} {g : G} {bs : List (Branch O A β)} {ys : List (ℕ × β)}
  {tr : Trace σ O A} {h : ℕ → G} {j : ℕ}

theorem Spent.fresh {ps : List (Prog O A β)} (hps : ∀ (j : ℕ) p, ps[j]? = some p → p.Tally w (K j) (Q j) 0)
    (htr : Trace.weight w tr = g) : Spent w K Q g (ps.map .queued) [] tr fun _ => 0 where
  yields := Yields.fresh ps
  total := by simp [htr]
  queued j p hj := by
    have hp : ps[j]? = some p := by simpa using hj
    exact ⟨rfl, hps j p hp⟩
  active j p hj := by simp at hj
  yielded j r hr := by cases hr

theorem Spent.start {p : Prog O A β} (hs : Spent w K Q g bs ys tr h) (hj : bs[j]? = some (.queued p)) :
    Spent w K Q g (bs.set j (.active p)) ys tr h where
  yields := hs.yields.set_active hj (by simp [Branch.prog?])
  total := by simpa using hs.total
  queued n q hn := by
    rw [List.getElem?_set] at hn
    split at hn
    · split at hn <;> simp at hn
    · exact hs.queued n q hn
  active n q hn := by
    rw [List.getElem?_set] at hn
    split at hn
    · next heq =>
      subst heq
      split at hn
      · obtain rfl : p = q := by simpa using hn
        obtain ⟨hzero, htally⟩ := hs.queued j p hj
        rw [hzero]
        exact htally
      · cases hn
    · exact hs.active n q hn
  yielded := hs.yielded

theorem Spent.ask {o : O} {f : A o → Prog O A β} (hs : Spent w K Q g bs ys tr h)
    (hj : bs[j]? = some (.active (.op o f))) (e : Entry σ O A) (he : e.op = o) (a : A o) :
    Spent w K Q g (bs.set j (.active (f a))) ys (tr ++ [e]) (Function.update h j (h j + w o)) where
  yields := hs.yields.set_active hj (by simp [Branch.prog?])
  total := by
    have hlt : j ∈ Finset.range bs.length := by
      rw [Finset.mem_range]
      exact (List.getElem?_eq_some_iff.mp hj).1
    rw [Trace.weight_snoc, hs.total, List.length_set, Finset.sum_update_of_mem hlt, he,
      ← Finset.add_sum_erase _ _ hlt, ← Finset.sdiff_singleton_eq_erase]
    abel
  queued n q hn := by
    rw [List.getElem?_set] at hn
    split at hn
    · split at hn <;> simp at hn
    · next hne =>
      rw [Function.update_of_ne (Ne.symm hne)]
      exact hs.queued n q hn
  active n q hn := by
    rw [List.getElem?_set] at hn
    split at hn
    · next heq =>
      subst heq
      split at hn
      · obtain rfl : f a = q := by simpa using hn
        rw [Function.update_self]
        exact (hs.active j _ hj).2 a
      · cases hn
    · next hne =>
      rw [Function.update_of_ne (Ne.symm hne)]
      exact hs.active n q hn
  yielded n r hr := by
    have hne : n ≠ j := by
      rintro rfl
      have hdone := (hs.yields.done_iff n).mp (List.mem_map.mpr ⟨_, hr, rfl⟩)
      simp [hj] at hdone
    rw [Function.update_of_ne hne]
    exact hs.yielded n r hr

theorem Spent.yield {r : β} (hs : Spent w K Q g bs ys tr h) (hj : bs[j]? = some (.active (.ret r))) :
    Spent w K Q g (bs.set j .done) (ys ++ [(j, r)]) tr h where
  yields := hs.yields.push hj r
  total := by simpa using hs.total
  queued n q hn := by
    rw [List.getElem?_set] at hn
    split at hn
    · split at hn <;> simp at hn
    · exact hs.queued n q hn
  active n q hn := by
    rw [List.getElem?_set] at hn
    split at hn
    · split at hn <;> simp at hn
    · exact hs.active n q hn
  yielded n x hx := by
    rcases List.mem_append.mp hx with hx | hx
    · exact hs.yielded n x hx
    · obtain ⟨rfl, rfl⟩ : n = j ∧ x = r := by simpa using hx
      exact (hs.active n _ hj).2

/-- A branch that is done spent a total that its result allows. -/
theorem Spent.done (hs : Spent w K Q g bs ys tr h) (hj : bs[j]? = some .done) :
    ∃ r, (j, r) ∈ ys ∧ Q j r (h j) := by
  obtain ⟨⟨n, r⟩, hr, rfl⟩ := List.mem_map.mp ((hs.yields.done_iff j).mpr hj)
  exact ⟨r, hr, hs.yielded n r hr⟩

end Streams

/-- `Prog.Tally` without a bound on the way. -/
abbrev Prog.Totals (w : O → G) (Q : α → G → Prop) (g : G) (p : Prog O A α) : Prop :=
  p.Tally w (fun _ => True) Q g

/-- Having spent `g`, the program returns `a` with a total `Q` allows, whatever each branch of a
stream spends and in whatever order they complete. -/
def Par.Tally (w : O → G) (Q : α → G → Prop) : G → Par O A β α → Prop
  | g, .ret a => Q a g
  | g, .op o k => ∀ a, (k a).Tally w Q (g + w o)
  | g, .unordered _ bs k => ∃ P : ℕ → β → G → Prop,
      (∀ (j : ℕ) p, bs[j]? = some p → p.Totals w (P j) 0) ∧
      ∀ (ys : List (ℕ × β)) (h : ℕ → G), (ys.map Prod.fst).Perm (List.range bs.length) →
        (∀ j r, (j, r) ∈ ys → P j r (h j)) →
        (k ys).Tally w Q (g + ∑ j ∈ Finset.range bs.length, h j)

section Threads
variable {Q Q' : α → G → Prop} {g : G}

theorem Par.Tally.mono {p : Par O A β α} (h : p.Tally w Q g) (hQ : ∀ a g, Q a g → Q' a g) :
    p.Tally w Q' g := by
  induction p generalizing g with
  | ret a => exact hQ a g h
  | op o k ih => exact fun a => ih a (h a)
  | unordered n bs k ih =>
    obtain ⟨P, hbs, hk⟩ := h
    exact ⟨P, hbs, fun ys f hperm hys => ih ys (hk ys f hperm hys)⟩

theorem Par.Tally.bind {p : Par O A β γ} {f : γ → Par O A β α}
    (h : p.Tally w (fun c g => (f c).Tally w Q g) g) : (p.bind f).Tally w Q g := by
  induction p generalizing g with
  | ret c => exact h
  | op o k ih => exact fun a => ih a (h a)
  | unordered n bs k ih =>
    obtain ⟨P, hbs, hk⟩ := h
    exact ⟨P, hbs, fun ys f hperm hys => ih ys (hk ys f hperm hys)⟩

theorem Par.Tally.lift {p : Prog O A α} (h : p.Totals w Q g) : (p.toPar (β := β)).Tally w Q g := by
  induction p generalizing g with
  | ret a => exact h.2
  | op o k ih => exact fun a => ih a (h.2 a)

end Threads

section Fallible
variable {ε : Type} {P : Except ε γ → G → Prop} {Q : Except ε α → G → Prop} {g : G}

theorem Prog.Totals.andThen {x : ExceptT ε (Prog O A) γ} {f : γ → ExceptT ε (Prog O A) α}
    (h : x.run.Totals w P g) (hok : ∀ c g, P (.ok c) g → (f c).run.Totals w Q g)
    (herror : ∀ e g, P (.error e) g → Q (.error e) g) : (x >>= f).run.Totals w Q g := by
  apply Prog.Tally.bind
  apply h.mono fun _ _ => trivial
  intro r g hr
  cases r with
  | ok c => exact hok c g hr
  | error e => exact ⟨trivial, herror e g hr⟩

theorem Par.Tally.andThen {x : ExceptT ε (Par O A β) γ} {f : γ → ExceptT ε (Par O A β) α}
    (h : x.run.Tally w P g) (hok : ∀ c g, P (.ok c) g → (f c).run.Tally w Q g)
    (herror : ∀ e g, P (.error e) g → Q (.error e) g) : (x >>= f).run.Tally w Q g := by
  apply Par.Tally.bind
  apply h.mono
  intro r g hr
  cases r with
  | ok c => exact hok c g hr
  | error e => exact herror e g hr

theorem Par.Tally.tryCatch {R : Except ε α → G → Prop} {x : ExceptT ε (Par O A β) α}
    {f : ε → ExceptT ε (Par O A β) α} (h : x.run.Tally w R g)
    (hok : ∀ a g, R (.ok a) g → Q (.ok a) g)
    (hcatch : ∀ e g, R (.error e) g → (f e).run.Tally w Q g) :
    (tryCatchThe ε x f).run.Tally w Q g := by
  apply Par.Tally.bind
  apply h.mono
  intro r g hr
  cases r with
  | ok a => exact hok a g hr
  | error e => exact hcatch e g hr

/-- A program that spends nothing when it returns, and `c e` when it fails with an error `e`. -/
def Charges (w : O → G) (c : ε → G) (E : ε → Prop) (Q : α → Prop) (x : ExceptT ε (Prog O A) α) :
    Prop :=
  ∀ g, x.run.Totals w (fun r g' => match r with
    | .ok a => g' = g ∧ Q a
    | .error e => g' = g + c e ∧ E e) g

end Fallible

section Charging
variable {ε : Type} {c : ε → G} {E : ε → Prop} {P : γ → Prop} {Q Q' : α → Prop}

theorem Charges.pure {a : α} (h : Q a) : Charges w c E Q (Pure.pure a : ExceptT ε (Prog O A) α) :=
  fun _ => ⟨trivial, rfl, h⟩

theorem Charges.ofExcept {x : Except ε α} (hok : ∀ a, x = .ok a → Q a)
    (herror : ∀ e, x = .error e → c e = 0 ∧ E e) :
    Charges (A := A) w c E Q (ExceptT.mk (.ret x)) := by
  intro g
  cases x with
  | ok a => exact ⟨trivial, rfl, hok a rfl⟩
  | error e =>
    obtain ⟨hfree, he⟩ := herror e rfl
    exact ⟨trivial, by rw [hfree, add_zero], he⟩

theorem Charges.throw {e : ε} (hfree : c e = 0) (he : E e) :
    Charges w c E Q (throwThe ε e : ExceptT ε (Prog O A) α) :=
  fun _ => ⟨trivial, by rw [hfree, add_zero], he⟩

theorem Charges.ask {o : O} (h : w o = 0) :
    Charges w c E (fun _ => True) (ExceptT.lift (Prog.ask o) : ExceptT ε (Prog O A) (A o)) :=
  fun g => ⟨trivial, fun _ => ⟨trivial, by rw [h, add_zero], trivial⟩⟩

/-- The operation that pays for an error, and then the error. -/
theorem Charges.raise {o : O} {e : ε} (h : w o = c e) (he : E e) :
    Charges w c E Q (ExceptT.lift (Prog.ask o) >>= fun _ => throwThe ε e :
      ExceptT ε (Prog O A) α) :=
  fun g => ⟨trivial, fun _ => ⟨trivial, by rw [h], he⟩⟩

theorem Charges.mono {x : ExceptT ε (Prog O A) α} (h : Charges w c E Q x)
    (hQ : ∀ a, Q a → Q' a) : Charges w c E Q' x := by
  intro g
  apply (h g).mono fun _ _ => trivial
  intro r g' hr
  cases r with
  | ok a => exact ⟨hr.1, hQ a hr.2⟩
  | error e => exact hr

theorem Charges.bind {x : ExceptT ε (Prog O A) γ} {f : γ → ExceptT ε (Prog O A) α}
    (h : Charges w c E P x) (hf : ∀ a, P a → Charges w c E Q (f a)) :
    Charges w c E Q (x >>= f) := by
  intro g
  apply (h g).andThen
  · intro a g' hr
    obtain ⟨rfl, ha⟩ := hr
    exact hf a ha g'
  · exact fun e g' hr => hr

end Charging

/-- A task in the middle of its run: what is left of it keeps to `Q`, counted from what the
trace weighs. -/
def Task.Tallied (w : O → G) (Q : α → G → Prop) (t : Task σ O A β α) : Prop :=
  match t.config with
  | .run p => p.Tally w Q (Trace.weight w t.trace)
  | .streaming _ bs ys k => ∃ P g h, Spent w (fun _ _ => True) P g bs ys t.trace h ∧
      ∀ (zs : List (ℕ × β)) (h' : ℕ → G), (zs.map Prod.fst).Perm (List.range bs.length) →
        (∀ j r, (j, r) ∈ zs → P j r (h' j)) →
        (k zs).Tally w Q (g + ∑ j ∈ Finset.range bs.length, h' j)

section Tasks
variable {Q : α → G → Prop} {t t' : Task σ O A β α}

theorem Task.Tallied.done {a : α} (h : t.Tallied w Q) (ht : t.config = .run (.ret a)) :
    Q a (Trace.weight w t.trace) := by
  unfold Task.Tallied at h
  rw [ht] at h
  exact h

theorem Task.Tallied.step {perform : ι → (o : O) → σ → Option (A o × σ)} {i : ι} {m : Move}
    {s s' : σ} (h : t.Tallied w Q) (hstep : t.step perform i m s = some (t', s')) :
    t'.Tallied w Q := by
  obtain ⟨c, tr⟩ := t
  cases c with
  | run p =>
    cases p with
    | ret a => cases m <;> simp [Task.step] at hstep
    | op o k =>
      cases m <;> simp only [Task.step, reduceCtorEq] at hstep
      obtain ⟨⟨a, u⟩, -, heq⟩ := Option.map_eq_some_iff.mp hstep
      obtain ⟨rfl, rfl⟩ := Prod.mk.inj heq
      change (k a).Tally w Q (Trace.weight w (tr ++ [⟨s, o, a⟩]))
      rw [Trace.weight_snoc]
      exact h a
    | unordered n bs k =>
      cases m <;> simp only [Task.step, reduceCtorEq, Option.some.injEq] at hstep
      obtain ⟨rfl, rfl⟩ := Prod.mk.inj hstep
      obtain ⟨P, hbs, hk⟩ := h
      refine ⟨P, _, _, Spent.fresh hbs rfl, fun zs f hperm hzs => ?_⟩
      rw [List.length_map] at hperm ⊢
      exact hk zs f hperm hzs
  | streaming n bs ys k =>
    obtain ⟨P, g, f, hspent, hk⟩ := h
    cases m with
    | main => simp [Task.step] at hstep
    | start =>
      simp only [Task.step] at hstep
      split at hstep
      case isFalse => cases hstep
      case isTrue =>
        obtain ⟨bs', hst, heq⟩ := Option.map_eq_some_iff.mp hstep
        obtain ⟨rfl, rfl⟩ := Prod.mk.inj heq
        obtain ⟨j, p, hj, rfl⟩ := startNext_some hst
        exact ⟨P, g, f, hspent.start hj, by simpa using hk⟩
    | branch j =>
      simp only [Task.step] at hstep
      split at hstep
      case h_2 => cases hstep
      case h_1 o b hj =>
        obtain ⟨⟨a, u⟩, -, heq⟩ := Option.map_eq_some_iff.mp hstep
        obtain ⟨rfl, rfl⟩ := Prod.mk.inj heq
        exact ⟨P, g, _, hspent.ask hj _ rfl a, by simpa using hk⟩
    | yield j =>
      simp only [Task.step] at hstep
      split at hstep
      case h_2 => cases hstep
      case h_1 r hj =>
        obtain ⟨rfl, rfl⟩ := Prod.mk.inj (Option.some.inj hstep)
        exact ⟨P, g, f, hspent.yield hj, by simpa using hk⟩
    | finish =>
      simp only [Task.step] at hstep
      split at hstep
      case isFalse => cases hstep
      case isTrue hall =>
        obtain ⟨rfl, rfl⟩ := Prod.mk.inj (Option.some.inj hstep)
        have hrest := hk ys f (hspent.yields.perm hall) hspent.yielded
        rw [← hspent.total] at hrest
        exact hrest

end Tasks

end OracleServer.Interaction
