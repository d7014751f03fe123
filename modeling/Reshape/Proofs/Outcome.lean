import Mathlib.Data.List.Forall2

namespace Reshape

variable {α β ε : Type} {E : ε → Prop} {Q R : α → Prop} {S : β → Prop}

theorem map_eq_ok_iff {x : Except ε α} {f : α → β} {b : β} :
    x.map f = .ok b ↔ ∃ a, x = .ok a ∧ b = f a := by
  cases x with
  | ok a => simp [Except.map, eq_comm]
  | error e => simp [Except.map]

theorem map_eq_error_iff {x : Except ε α} {f : α → β} {e : ε} :
    f <$> x = .error e ↔ x = .error e := by
  cases x with
  | error first => simp [Functor.map, Except.map]
  | ok a => simp [Functor.map, Except.map]

theorem bind_eq_ok_iff {x : Except ε α} {next : α → Except ε β} {b : β} :
    x >>= next = .ok b ↔ ∃ a, x = .ok a ∧ next a = .ok b := by
  cases x with
  | error first => simp [bind, Except.bind]
  | ok a => simp [bind, Except.bind]

theorem bind_eq_error_iff {x : Except ε α} {next : α → Except ε β} {e : ε} :
    x >>= next = .error e ↔ x = .error e ∨ ∃ a, x = .ok a ∧ next a = .error e := by
  cases x with
  | error first => simp [bind, Except.bind]
  | ok a => simp [bind, Except.bind]

theorem mapM_eq_ok_iff {xs : List α} {f : α → Except ε β} {ys : List β} :
    xs.mapM f = .ok ys ↔ List.Forall₂ (fun a b => f a = .ok b) xs ys := by
  induction xs generalizing ys with
  | nil =>
      rw [List.mapM_nil, List.forall₂_nil_left_iff]
      exact ⟨fun h => (Except.ok.inj h).symm, fun h => congrArg Except.ok h.symm⟩
  | cons a xs ih =>
      rw [List.mapM_cons, List.forall₂_cons_left_iff]
      constructor
      · intro h
        obtain ⟨b, hb, hrest⟩ := bind_eq_ok_iff.mp h
        obtain ⟨bs, hbs, ⟨⟩⟩ := bind_eq_ok_iff.mp hrest
        exact ⟨b, bs, hb, ih.mp hbs, rfl⟩
      · rintro ⟨b, bs, hb, hbs, rfl⟩
        rw [hb, ih.mpr hbs]
        rfl

/-- The first failure is the one that is reported, and nothing behind it matters. -/
theorem mapM_eq_error_iff {xs : List α} {f : α → Except ε β} {e : ε} :
    xs.mapM f = .error e ↔
      ∃ before a after, xs = before ++ a :: after ∧
        (∀ c ∈ before, ∃ b, f c = .ok b) ∧ f a = .error e := by
  constructor
  · intro h
    induction xs with
    | nil => cases h
    | cons a xs ih =>
        rw [List.mapM_cons] at h
        rcases bind_eq_error_iff.mp h with ha | ⟨b, ha, hrest⟩
        · exact ⟨[], a, xs, rfl, List.forall_mem_nil _, ha⟩
        · obtain hrest | ⟨_, _, ⟨⟩⟩ := bind_eq_error_iff.mp hrest
          obtain ⟨before, c, after, rfl, hbefore, hc⟩ := ih hrest
          exact ⟨a :: before, c, after, rfl, List.forall_mem_cons.mpr ⟨⟨b, ha⟩, hbefore⟩, hc⟩
  · rintro ⟨before, a, after, rfl, hbefore, ha⟩
    induction before with
    | nil =>
        rw [List.nil_append, List.mapM_cons, ha]
        rfl
    | cons c before ih =>
        obtain ⟨⟨b, hb⟩, hbefore⟩ := List.forall_mem_cons.mp hbefore
        rw [List.cons_append, List.mapM_cons, hb]
        exact bind_eq_error_iff.mpr (.inr ⟨b, rfl, bind_eq_error_iff.mpr (.inl (ih hbefore))⟩)

theorem toOption_map (x : Except ε α) (f : α → β) : (x.map f).toOption = x.toOption.map f := by
  cases x <;> rfl

theorem toOption_bind (x : Except ε α) (next : α → Except ε β) :
    (x >>= next).toOption = x.toOption.bind fun a => (next a).toOption := by
  cases x <;> rfl

/-- The computation ends in a result or in an error that has the property stated for it. -/
inductive Ends (E : ε → Prop) (Q : α → Prop) : Except ε α → Prop
  | ok {a : α} (ha : Q a) : Ends E Q (.ok a)
  | error {e : ε} (he : E e) : Ends E Q (.error e)

namespace Ends

variable {x : Except ε α}

theorem of_eq_ok (hx : Ends E Q x) {a : α} (h : x = .ok a) : Q a := by
  subst h
  cases hx
  assumption

theorem of_eq_error (hx : Ends E Q x) {e : ε} (h : x = .error e) : E e := by
  subst h
  cases hx
  assumption

theorem anyhow (x : Except ε α) : Ends (fun _ => True) (fun _ => True) x := by
  cases x with
  | ok a => exact .ok trivial
  | error e => exact .error trivial

theorem imp (hx : Ends E Q x) (himp : ∀ a, Q a → R a) : Ends E R x := by
  cases hx with
  | ok ha => exact .ok (himp _ ha)
  | error he => exact .error he

theorem imp_error {F : ε → Prop} (hx : Ends E Q x) (himp : ∀ e, E e → F e) : Ends F Q x := by
  cases hx with
  | ok ha => exact .ok ha
  | error he => exact .error (himp _ he)

theorem map (hx : Ends E Q x) {f : α → β} (hf : ∀ a, Q a → S (f a)) : Ends E S (f <$> x) := by
  cases hx with
  | ok ha => exact .ok (hf _ ha)
  | error he => exact .error he

theorem bind (hx : Ends E Q x) {next : α → Except ε β} (hnext : ∀ a, Q a → Ends E S (next a)) :
    Ends E S (x >>= next) := by
  cases hx with
  | ok ha => exact hnext _ ha
  | error he => exact .error he

/-- Computations with the same result, if any, end alike if there is one fault only that they can
have. -/
theorem eq_of_toOption_eq {y : Except ε α} (hx : Ends E Q x) (hy : Ends E R y)
    (hE : ∀ e f, E e → E f → e = f) (h : x.toOption = y.toOption) : x = y := by
  cases hx with
  | @ok a ha =>
      cases hy with
      | ok hb => exact congrArg Except.ok (Option.some.inj h)
      | error hf => cases h
  | @error e he =>
      cases hy with
      | ok hb => cases h
      | @error f hf => exact congrArg Except.error (hE e f he hf)

theorem mapM {xs : List α} {f : α → Except ε β} (hf : ∀ a ∈ xs, Ends E S (f a)) :
    Ends E (fun ys => ∀ y ∈ ys, S y) (xs.mapM f) := by
  induction xs with
  | nil =>
      rw [List.mapM_nil]
      exact .ok nofun
  | cons a xs ih =>
      rw [List.mapM_cons]
      obtain ⟨ha, hxs⟩ := List.forall_mem_cons.mp hf
      refine ha.bind fun b hb => (ih hxs).bind fun ys hys => .ok ?_
      exact List.forall_mem_cons.mpr ⟨hb, hys⟩

end Ends

/-- Two computations fail for the same reason, or both have results, and these are related. -/
inductive Alike {α β ε : Type} (R : α → β → Prop) : Except ε α → Except ε β → Prop
  | ok {a : α} {b : β} (h : R a b) : Alike R (.ok a) (.ok b)
  | error (e : ε) : Alike R (.error e) (.error e)

theorem Alike.map {α β γ δ ε : Type} {R : α → β → Prop} {S : γ → δ → Prop} {x : Except ε α}
    {y : Except ε β} (h : Alike R x y) {f : α → γ} {g : β → δ}
    (hfg : ∀ a b, R a b → S (f a) (g b)) : Alike S (x.map f) (y.map g) := by
  cases h with
  | ok h => exact .ok (hfg _ _ h)
  | error e => exact .error e

theorem Alike.imp {α β ε : Type} {R S : α → β → Prop} {x : Except ε α} {y : Except ε β}
    (h : Alike R x y) (himp : ∀ a b, R a b → S a b) : Alike S x y := by
  cases h with
  | ok h => exact .ok (himp _ _ h)
  | error e => exact .error e

theorem Alike.exists_eq {α β ε : Type} {R : α → β → Prop} {x : Except ε α} {y : Except ε β}
    (h : Alike R x y) : (∃ e, x = .error e ∧ y = .error e) ∨
      ∃ a b, x = .ok a ∧ y = .ok b ∧ R a b := by
  cases h with
  | ok h => exact .inr ⟨_, _, rfl, rfl, h⟩
  | error e => exact .inl ⟨e, rfl, rfl⟩

theorem Alike.exists_ok_iff {α β ε : Type} {R : α → β → Prop} {x : Except ε α} {y : Except ε β}
    (h : Alike R x y) : (∃ a, x = .ok a) ↔ ∃ b, y = .ok b := by
  cases h <;> simp

end Reshape
