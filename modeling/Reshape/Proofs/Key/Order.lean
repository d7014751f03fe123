import Reshape.Key.Order

namespace Reshape.Key

open Std

instance : OrientedCmp Segment.compare where
  eq_swap := by
    rintro (k | i) (l | j)
    · exact OrientedOrd.eq_swap
    · rfl
    · rfl
    · exact OrientedOrd.eq_swap

instance : TransCmp Segment.compare where
  isLE_trans := by
    rintro (k | i) (l | j) (n | h) hfirst hnext
    · exact TransOrd.isLE_trans hfirst hnext
    · cases hnext
    · cases hfirst
    · cases hfirst
    · rfl
    · cases hnext
    · rfl
    · exact TransOrd.isLE_trans hfirst hnext

instance : LawfulEqCmp Segment.compare where
  compare_self := by
    rintro (k | i)
    · exact ReflOrd.compare_self
    · exact ReflOrd.compare_self
  eq_of_compare := by
    rintro (k | i) (l | j) h
    · rw [LawfulEqOrd.eq_of_compare (α := String) h]
    · cases h
    · cases h
    · rw [LawfulEqOrd.eq_of_compare (α := Int) h]

/-- Keys are ordered like words over segments. -/
theorem compare_eq_compareLex : compare = List.compareLex Segment.compare := by
  funext key other
  induction key generalizing other with
  | nil => cases other <;> rfl
  | cons s key ih =>
      cases other with
      | nil => rfl
      | cons t other =>
          rw [compare, List.compareLex_cons_cons, ih]
          cases s.compare t <;> rfl

instance : TransCmp compare :=
  compare_eq_compareLex ▸ inferInstance

instance : LawfulEqCmp compare :=
  compare_eq_compareLex ▸ inferInstance

theorem compare_swap (key other : Key) : key.compare other = (other.compare key).swap :=
  OrientedCmp.eq_swap

theorem compare_self (key : Key) : key.compare key = .eq :=
  ReflCmp.compare_self

theorem compare_cons (s : Segment) (key other : Key) :
    compare (s :: key) (s :: other) = key.compare other := by
  rw [compare, show s.compare s = .eq from ReflCmp.compare_self]

theorem compare_append (key : Key) {more : Key} (hmore : more ≠ []) :
    key.compare (key ++ more) = .lt := by
  induction key with
  | nil =>
      obtain ⟨s, rest, rfl⟩ := List.exists_cons_of_ne_nil hmore
      rfl
  | cons s key ih => rw [List.cons_append, compare_cons, ih]

theorem compare_cons_of_ne {s t : Segment} (hst : s ≠ t) (key other : Key) :
    compare (s :: key) (t :: other) = s.compare t := by
  rw [compare]
  split
  · rename_i heq
    exact absurd (LawfulEqCmp.eq_of_compare heq) hst
  · rfl

end Reshape.Key
