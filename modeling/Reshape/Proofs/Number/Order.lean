import Mathlib.Data.Int.Order.Basic
import Mathlib.Tactic.Linarith
import Reshape.Number.Order
import Reshape.Proofs.Double.Nearest

namespace Reshape

open Std

/-- How the outcomes of `a` against `b` and `b` against `c` make the one of `a` against `c` where
an order is transitive: the first that is strict decides. -/
def Composes (first second whole : Ordering) : Prop :=
  first.isLE → second.isLE → whole = first.then second

theorem composes_of_transCmp {α : Type} {cmp : α → α → Ordering} [TransCmp cmp] (a b c : α) :
    Composes (cmp a b) (cmp b c) (cmp a c) := by
  intro hfirst hsecond
  cases hab : cmp a b with
  | gt => rw [hab] at hfirst; cases hfirst
  | lt =>
      cases hbc : cmp b c with
      | gt => rw [hbc] at hsecond; cases hsecond
      | lt => exact TransCmp.lt_trans hab hbc
      | eq => exact TransCmp.lt_of_lt_of_eq hab hbc
  | eq =>
      cases hbc : cmp b c with
      | gt => rw [hbc] at hsecond; cases hsecond
      | lt => exact TransCmp.lt_of_eq_of_lt hab hbc
      | eq => exact TransCmp.eq_trans hab hbc

namespace Double

theorem compare_swap (x y : Double) : y.compare x = (x.compare y).swap :=
  OrientedOrd.eq_swap

theorem ordinal_ofRank? {negative : Bool} {rank : Nat} {x : Double}
    (h : ofRank? negative rank = some x) :
    x.ordinal = if negative then -(rank : Int) else rank := by
  rw [ofRank?] at h
  split at h
  · cases h
    rfl
  · cases h

theorem ordinal_le_of_le {i j : Int} (hij : i ≤ j) {x y : Double} (hx : ofInt? i = some x)
    (hy : ofInt? j = some y) : x.ordinal ≤ y.ordinal := by
  have hmono : ∀ {m n : Nat}, m ≤ n → nearestRank (m * unit) 1 ≤ nearestRank (n * unit) 1 :=
    fun hmn => nearestRank_mono Nat.one_pos (Nat.mul_le_mul_right _ hmn)
  rw [ordinal_ofRank? hx, ordinal_ofRank? hy]
  simp only [decide_eq_true_eq]
  by_cases hi : i < 0
  · rw [if_pos hi]
    by_cases hj : j < 0
    · rw [if_pos hj]
      have hranks := hmono (m := j.natAbs) (n := i.natAbs) (by omega)
      omega
    · rw [if_neg hj]
      omega
  · rw [if_neg hi, if_neg (by omega)]
    have hranks := hmono (m := i.natAbs) (n := j.natAbs) (by omega)
    omega

end Double

namespace Number

theorem compare?_swap (m n : Number) : compare? n m = (compare? m n).map Ordering.swap := by
  cases m with
  | int i =>
      cases n with
      | int j => exact congrArg some OrientedOrd.eq_swap
      | float y =>
          rw [compare?, compare?, Option.map_map]
          exact congrArg (Option.map · _) (funext fun x => x.compare_swap y)
  | float x =>
      cases n with
      | int j =>
          rw [compare?, compare?, Option.map_map]
          exact congrArg (Option.map · _) (funext fun y => x.compare_swap y)
      | float y => exact congrArg some (x.compare_swap y)

/-- No two integers fall together with one binary64 number. -/
def Separated (P : Number → Prop) : Prop :=
  ∀ (i j : Int) (x : Double), P (int i) → P (int j) → P (float x) →
    compare? (int i) (float x) = some .eq → compare? (int j) (float x) = some .eq → i = j

/-- The place of a number among the binary64 numbers. -/
def ordinal? (n : Number) : Option Int :=
  n.double?.map Double.ordinal

theorem compare?_eq_of_float {m n : Number} (h : ∃ x, m = float x ∨ n = float x) {o : Ordering}
    (hcompare : compare? m n = some o) :
    ∃ a b, m.ordinal? = some a ∧ n.ordinal? = some b ∧ Ord.compare a b = o := by
  obtain ⟨x, rfl | rfl⟩ := h
  · cases n with
    | int j =>
        obtain ⟨y, hy, ho⟩ := Option.map_eq_some_iff.mp hcompare
        exact ⟨x.ordinal, y.ordinal, rfl, by simp [ordinal?, double?, hy], ho⟩
    | float y => exact ⟨x.ordinal, y.ordinal, rfl, rfl, Option.some.inj hcompare⟩
  · cases m with
    | int i =>
        obtain ⟨y, hy, ho⟩ := Option.map_eq_some_iff.mp hcompare
        exact ⟨y.ordinal, x.ordinal, by simp [ordinal?, double?, hy], rfl, ho⟩
    | float y => exact ⟨y.ordinal, x.ordinal, rfl, rfl, Option.some.inj hcompare⟩

theorem ordinal?_mono {i j : Int} (hij : i ≤ j) {a b : Int} (ha : (int i).ordinal? = some a)
    (hb : (int j).ordinal? = some b) : a ≤ b := by
  obtain ⟨x, hx, rfl⟩ := Option.map_eq_some_iff.mp ha
  obtain ⟨y, hy, rfl⟩ := Option.map_eq_some_iff.mp hb
  exact Double.ordinal_le_of_le hij hx hy

theorem compare?_eq_eq_of_ordinal? {i : Int} {x : Double} (h : (int i).ordinal? = some x.ordinal) :
    compare? (int i) (float x) = some .eq := by
  obtain ⟨y, hy, hordinal⟩ := Option.map_eq_some_iff.mp h
  rw [double?] at hy
  rw [compare?, hy, Option.map_some, Double.compare, hordinal]
  exact congrArg some ReflOrd.compare_self

theorem lt_of_separated {P : Number → Prop} (hP : Separated P) {i j : Int} {x : Double}
    (hi : P (int i)) (hj : P (int j)) (hx : P (float x)) {a b : Int}
    (ha : (int i).ordinal? = some a) (hb : (int j).ordinal? = some b) (hij : i < j) :
    (b ≤ x.ordinal → a < x.ordinal) ∧ (x.ordinal ≤ a → x.ordinal < b) := by
  have hmono : a ≤ b := ordinal?_mono hij.le ha hb
  have hapart : ¬ (a = x.ordinal ∧ b = x.ordinal) := by
    rintro ⟨rfl, rfl⟩
    have := hP i j x hi hj hx (compare?_eq_eq_of_ordinal? ha) (compare?_eq_eq_of_ordinal? hb)
    omega
  constructor <;> intro _ <;> omega

section Mixed

variable {P : Number → Prop} (hP : Separated P) {i j : Int} {x : Double} (hi : P (int i))
  (hj : P (int j)) (hx : P (float x)) {first second whole : Ordering}

include hP hi hj hx

theorem composes_int_int_float (hfirst : compare? (int i) (int j) = some first)
    (hsecond : compare? (int j) (float x) = some second)
    (hwhole : compare? (int i) (float x) = some whole) : Composes first second whole := by
  intro hle hnext
  obtain rfl := Option.some.inj hfirst
  rcases (Int.isLE_compare.mp hle).lt_or_eq with hlt | rfl
  · obtain ⟨b, c, hb, ⟨⟩, rfl⟩ := compare?_eq_of_float ⟨x, .inr rfl⟩ hsecond
    obtain ⟨a, c, ha, ⟨⟩, rfl⟩ := compare?_eq_of_float ⟨x, .inr rfl⟩ hwhole
    have hbelow := (lt_of_separated hP hi hj hx ha hb hlt).1 (Int.isLE_compare.mp hnext)
    rw [Int.compare_eq_lt.mpr hlt]
    exact Int.compare_eq_lt.mpr hbelow
  · rw [show compare i i = .eq from ReflOrd.compare_self]
    exact Option.some.inj (hwhole.symm.trans hsecond)

theorem composes_float_int_int (hfirst : compare? (float x) (int i) = some first)
    (hsecond : compare? (int i) (int j) = some second)
    (hwhole : compare? (float x) (int j) = some whole) : Composes first second whole := by
  intro hle hnext
  obtain rfl := Option.some.inj hsecond
  rcases (Int.isLE_compare.mp hnext).lt_or_eq with hlt | rfl
  · obtain ⟨c, a, ⟨⟩, ha, rfl⟩ := compare?_eq_of_float ⟨x, .inl rfl⟩ hfirst
    obtain ⟨c, b, ⟨⟩, hb, rfl⟩ := compare?_eq_of_float ⟨x, .inl rfl⟩ hwhole
    have habove := (lt_of_separated hP hi hj hx ha hb hlt).2 (Int.isLE_compare.mp hle)
    rw [Int.compare_eq_lt.mpr hlt, Int.compare_eq_lt.mpr habove]
    cases hfirst : Ord.compare x.ordinal a with
    | gt => rw [hfirst] at hle; cases hle
    | _ => rfl
  · rw [show compare i i = .eq from ReflOrd.compare_self, Ordering.then_eq]
    exact Option.some.inj (hwhole.symm.trans hfirst)

theorem composes_int_float_int (hfirst : compare? (int i) (float x) = some first)
    (hsecond : compare? (float x) (int j) = some second)
    (hwhole : compare? (int i) (int j) = some whole) : Composes first second whole := by
  obtain ⟨a, c, ha, ⟨⟩, rfl⟩ := compare?_eq_of_float ⟨x, .inr rfl⟩ hfirst
  obtain ⟨c, b, ⟨⟩, hb, rfl⟩ := compare?_eq_of_float ⟨x, .inl rfl⟩ hsecond
  obtain rfl := Option.some.inj hwhole
  intro hle hnext
  rcases Int.lt_trichotomy i j with hlt | rfl | hgt
  · rw [Int.compare_eq_lt.mpr hlt]
    rcases (Int.isLE_compare.mp hle).lt_or_eq with ha' | rfl
    · rw [Int.compare_eq_lt.mpr ha']
      rfl
    · have habove := (lt_of_separated hP hi hj hx ha hb hlt).2 (Int.le_refl _)
      rw [Int.compare_eq_lt.mpr habove, show compare x.ordinal x.ordinal = .eq from
        ReflOrd.compare_self]
      rfl
  · obtain rfl := Option.some.inj (ha.symm.trans hb)
    obtain rfl := Int.le_antisymm (Int.isLE_compare.mp hle) (Int.isLE_compare.mp hnext)
    rw [show compare i i = .eq from ReflOrd.compare_self,
      show compare x.ordinal x.ordinal = .eq from ReflOrd.compare_self]
    rfl
  · have hbelow := (lt_of_separated hP hj hi hx hb ha hgt).1 (Int.isLE_compare.mp hle)
    have := Int.isLE_compare.mp hnext
    omega

end Mixed

theorem composes_compare? {P : Number → Prop} (hP : Separated P) {k m n : Number} (hk : P k)
    (hm : P m) (hn : P n) {first second whole : Ordering} (hfirst : compare? k m = some first)
    (hsecond : compare? m n = some second) (hwhole : compare? k n = some whole) :
    Composes first second whole := by
  have hrounded : (∃ x, k = float x ∨ m = float x) → (∃ x, m = float x ∨ n = float x) →
      (∃ x, k = float x ∨ n = float x) → Composes first second whole := by
    intro hkm hmn hkn
    obtain ⟨a, b, ha, hb, rfl⟩ := compare?_eq_of_float hkm hfirst
    obtain ⟨b', c, hb', hc, rfl⟩ := compare?_eq_of_float hmn hsecond
    obtain ⟨a', c', ha', hc', rfl⟩ := compare?_eq_of_float hkn hwhole
    obtain rfl := Option.some.inj (hb.symm.trans hb')
    obtain rfl := Option.some.inj (ha.symm.trans ha')
    obtain rfl := Option.some.inj (hc.symm.trans hc')
    exact composes_of_transCmp a b c
  cases k with
  | float x =>
      cases m with
      | float y => exact hrounded ⟨x, .inl rfl⟩ ⟨y, .inl rfl⟩ ⟨x, .inl rfl⟩
      | int i =>
          cases n with
          | float y => exact hrounded ⟨x, .inl rfl⟩ ⟨y, .inr rfl⟩ ⟨x, .inl rfl⟩
          | int j => exact composes_float_int_int hP hm hn hk hfirst hsecond hwhole
  | int i =>
      cases m with
      | float x =>
          cases n with
          | float y => exact hrounded ⟨x, .inr rfl⟩ ⟨x, .inl rfl⟩ ⟨y, .inr rfl⟩
          | int j => exact composes_int_float_int hP hk hn hm hfirst hsecond hwhole
      | int j =>
          cases n with
          | float x => exact composes_int_int_float hP hk hm hn hfirst hsecond hwhole
          | int l =>
              cases hfirst
              cases hsecond
              cases hwhole
              exact composes_of_transCmp i j l

end Number

end Reshape
