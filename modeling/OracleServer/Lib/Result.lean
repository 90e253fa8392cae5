import Mathlib

/-! Inversion of fallible computations, one at a time and over a list. -/
namespace OracleServer

theorem except_bind_ok {ε α β : Type} {x : Except ε α} {f : α → Except ε β} {b : β}
    (h : (x >>= f) = .ok b) : ∃ a, x = .ok a ∧ f a = .ok b := by
  cases x with
  | error e => cases h
  | ok a => exact ⟨a, rfl, h⟩

theorem except_bind_error {ε α β : Type} {x : Except ε α} {f : α → Except ε β} {e : ε}
    (h : (x >>= f) = .error e) : x = .error e ∨ ∃ a, x = .ok a ∧ f a = .error e := by
  cases x with
  | error e' => exact .inl (congrArg Except.error (Except.error.inj h))
  | ok a => exact .inr ⟨a, rfl, h⟩

theorem except_map_ok {ε α β : Type} {x : Except ε α} {f : α → β} {b : β}
    (h : x.map f = .ok b) : ∃ a, x = .ok a ∧ f a = b := by
  cases x with
  | error e => cases h
  | ok a => exact ⟨a, rfl, Except.ok.inj h⟩

theorem except_map_map {ε α β γ : Type} {x : Except ε α} {f : α → β} {g : β → γ} :
    (x.map f).map g = x.map fun a => g (f a) := by
  cases x <;> rfl

theorem except_mapError_ok {ε ε' α : Type} {x : Except ε α} {f : ε → ε'} {a : α}
    (h : x.mapError f = .ok a) : x = .ok a := by
  cases x with
  | error e => cases h
  | ok b => rw [Except.ok.inj h]

theorem except_mapError_error {ε ε' α : Type} {x : Except ε α} {f : ε → ε'} {e : ε'}
    (h : x.mapError f = .error e) : ∃ e₀, e = f e₀ := by
  cases x with
  | error e₀ => exact ⟨e₀, (Except.error.inj h).symm⟩
  | ok a => cases h

section MapM
variable {ε α β : Type} {f : α → Except ε β} {l : List α}

theorem mapM_cons_ok {a : α} {b : β} (h : f a = .ok b) :
    (a :: l).mapM f = (l.mapM f).map (b :: ·) := by
  rw [List.mapM_cons, h]
  cases l.mapM f <;> rfl

theorem mapM_cons_error {a : α} {e : ε} (h : f a = .error e) : (a :: l).mapM f = .error e := by
  rw [List.mapM_cons, h]
  rfl

theorem mapM_ok_iff {bs : List β} : l.mapM f = .ok bs ↔ l.map f = bs.map .ok := by
  induction l generalizing bs with
  | nil => cases bs <;> simp [pure, Except.pure]
  | cons a l ih =>
    cases ha : f a with
    | error e => cases bs <;> simp [mapM_cons_error ha, ha]
    | ok b =>
      rw [mapM_cons_ok ha, List.map_cons, ha]
      constructor
      · intro h
        obtain ⟨bs', hbs', rfl⟩ := except_map_ok h
        rw [ih.mp hbs', List.map_cons]
      · intro h
        cases bs with
        | nil => cases h
        | cons b' bs =>
          obtain ⟨hb, hrest⟩ := List.cons.inj h
          obtain rfl := Except.ok.inj hb
          rw [ih.mpr hrest]
          rfl

theorem mapM_ok_get {bs : List β} (h : l.mapM f = .ok bs) (i : ℕ) :
    (l[i]?).map f = (bs[i]?).map .ok := by
  have hget := congrArg (fun m => m[i]?) (mapM_ok_iff.mp h)
  simpa only [List.getElem?_map] using hget

theorem mapM_ok_left {bs : List β} (h : l.mapM f = .ok bs) {i : ℕ} {a : α} (ha : l[i]? = some a) :
    ∃ b, bs[i]? = some b ∧ f a = .ok b := by
  have hget := mapM_ok_get h i
  rw [ha] at hget
  obtain ⟨b, hb, hfb⟩ := Option.map_eq_some_iff.mp hget.symm
  exact ⟨b, hb, hfb.symm⟩

theorem mapM_ok_right {bs : List β} (h : l.mapM f = .ok bs) {i : ℕ} {b : β} (hb : bs[i]? = some b) :
    ∃ a, l[i]? = some a ∧ f a = .ok b := by
  have hget := mapM_ok_get h i
  rw [hb] at hget
  exact Option.map_eq_some_iff.mp hget

/-- After a pass that succeeds, the next one may read its results. -/
theorem mapM_after_ok {γ : Type} {g : β → Except ε γ} {bs : List β} (h : l.mapM f = .ok bs) :
    l.mapM (fun a => f a >>= g) = bs.mapM g := by
  have hcomp : (l.map f).mapM (· >>= g) = l.mapM (fun a => f a >>= g) := List.mapM_map
  rw [← hcomp, mapM_ok_iff.mp h, List.mapM_map]
  rfl

/-- Two passes succeed exactly when one pass of both does. -/
theorem mapM_passes_ok {γ : Type} {g : β → Except ε γ} {out : List γ} :
    (l.mapM f >>= fun bs => bs.mapM g) = .ok out ↔ l.mapM (fun a => f a >>= g) = .ok out := by
  induction l generalizing out with
  | nil => rfl
  | cons a l ih =>
    cases ha : f a with
    | error e =>
      have hboth : (f a >>= g) = .error e := by rw [ha]; rfl
      rw [mapM_cons_error ha, mapM_cons_error (f := fun a => f a >>= g) hboth]
      rfl
    | ok b =>
      have hboth : (f a >>= g) = g b := by rw [ha]; rfl
      rw [mapM_cons_ok ha]
      cases hb : g b with
      | error e =>
        rw [mapM_cons_error (f := fun a => f a >>= g) (hboth.trans hb)]
        cases hl : l.mapM f with
        | error e' => simp [Except.map, bind, Except.bind]
        | ok bs =>
          change ((b :: bs).mapM g = _) ↔ _
          rw [mapM_cons_error hb]
      | ok c =>
        rw [mapM_cons_ok (f := fun a => f a >>= g) (hboth.trans hb)]
        have hcons : ((l.mapM f).map (b :: ·) >>= fun bs => bs.mapM g) =
            (l.mapM f >>= fun bs => bs.mapM g).map (c :: ·) := by
          cases l.mapM f with
          | error e' => rfl
          | ok bs => exact mapM_cons_ok hb
        rw [hcons]
        constructor
        · intro h
          obtain ⟨out', hout', rfl⟩ := except_map_ok h
          rw [ih.mp hout']
          rfl
        · intro h
          obtain ⟨out', hout', rfl⟩ := except_map_ok h
          rw [ih.mpr hout']
          rfl

/-- The error of a list is that of its first element that fails. -/
theorem mapM_error {e : ε} (h : l.mapM f = .error e) :
    ∃ (i : ℕ) (a : α), l[i]? = some a ∧ f a = .error e ∧
      ∀ j < i, ∀ a', l[j]? = some a' → ∃ b, f a' = .ok b := by
  induction l with
  | nil => cases h
  | cons a l ih =>
    cases ha : f a with
    | error e' =>
      rw [mapM_cons_error ha] at h
      obtain rfl := Except.error.inj h
      exact ⟨0, a, rfl, ha, fun j hj => absurd hj (Nat.not_lt_zero j)⟩
    | ok b =>
      rw [mapM_cons_ok ha] at h
      have hl : l.mapM f = .error e := by
        cases hm : l.mapM f with
        | ok bs => rw [hm] at h; cases h
        | error e' => rw [hm] at h; exact h
      obtain ⟨i, x, hi, hx, hbefore⟩ := ih hl
      refine ⟨i + 1, x, hi, hx, fun j hj a' hj' => ?_⟩
      cases j with
      | zero =>
        obtain rfl : a = a' := by simpa using hj'
        exact ⟨b, ha⟩
      | succ j => exact hbefore j (by omega) a' hj'

theorem mapM_error_iff {e : ε} : l.mapM f = .error e ↔
    ∃ (i : ℕ) (a : α), l[i]? = some a ∧ f a = .error e ∧
      ∀ j < i, ∀ a', l[j]? = some a' → ∃ b, f a' = .ok b := by
  refine ⟨mapM_error, ?_⟩
  rintro ⟨i, a, hi, ha, hbefore⟩
  cases hm : l.mapM f with
  | ok bs =>
    obtain ⟨b, -, hb⟩ := mapM_ok_left hm hi
    exact nomatch ha.symm.trans hb
  | error e' =>
    obtain ⟨j, a', hj, ha', hbefore'⟩ := mapM_error hm
    rcases Nat.lt_trichotomy i j with hlt | rfl | hlt
    · obtain ⟨b, hb⟩ := hbefore' i hlt a hi
      exact nomatch ha.symm.trans hb
    · obtain rfl := Option.some.inj (hi.symm.trans hj)
      exact congrArg Except.error (Except.error.inj (ha'.symm.trans ha))
    · obtain ⟨b, hb⟩ := hbefore j hlt a' hj
      exact nomatch ha'.symm.trans hb

end MapM

end OracleServer
