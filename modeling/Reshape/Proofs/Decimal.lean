import Mathlib.Tactic.Ring
import Reshape.Decimal
import Reshape.Power
import Reshape.Proofs.Text.Ascii

namespace Reshape.Decimal

open Reshape.Text

theorem isAsciiDigit_digitChar {d : Nat} (hd : d < 10) :
    isAsciiDigit (digitChar d) = true := by
  rw [isAsciiDigit_iff, toNat_digitChar hd]
  omega

theorem isAsciiDigit_of_mem_digits (n : Nat) : ∀ c ∈ digits n, isAsciiDigit c = true := by
  fun_induction digits n with
  | case1 n hn =>
      intro c hc
      rw [List.mem_singleton.mp hc]
      exact isAsciiDigit_digitChar hn
  | case2 n hn ih =>
      intro c hc
      rcases List.mem_append.mp hc with hc | hc
      · exact ih c hc
      · rw [List.mem_singleton.mp hc]
        exact isAsciiDigit_digitChar (Nat.mod_lt _ (by decide))

theorem head?_digits_ne_zero {n : Nat} (hn : 0 < n) : ∀ c ∈ (digits n).head?, c ≠ '0' := by
  fun_induction digits n with
  | case1 n hlt =>
      rintro _ ⟨⟩ heq
      have hvalue := toNat_digitChar hlt
      rw [heq, show '0'.toNat = 48 from rfl] at hvalue
      omega
  | case2 n hge ih =>
      obtain ⟨d, ds, hds⟩ := List.exists_cons_of_ne_nil (digits_ne_nil (n / 10))
      intro c hc
      rw [hds] at hc ih
      exact ih (by omega) c hc

theorem length_digits_le_iff {n k : Nat} (hk : 0 < k) :
    (digits n).length ≤ k ↔ n < tenTo k := by
  obtain ⟨k, rfl⟩ := Nat.exists_eq_succ_of_ne_zero hk.ne'
  fun_induction digits n generalizing k with
  | case1 n hn =>
      have hpos := tenTo_pos k
      rw [Nat.succ_eq_add_one, tenTo_succ, List.length_singleton]
      omega
  | case2 n hge ih =>
      rw [Nat.succ_eq_add_one, tenTo_succ, List.length_append, List.length_singleton]
      cases k with
      | zero =>
          have hne := List.length_pos_iff.mpr (digits_ne_nil (n / 10))
          rw [tenTo_zero]
          omega
      | succ k =>
          have hrest := ih k (Nat.succ_pos k)
          rw [Nat.succ_eq_add_one] at hrest
          omega

theorem isShort_iff (i : Int) : isShort i = true ↔ (digits i.natAbs).length ≤ digitLimit := by
  rw [isShort, decide_eq_true_eq, length_digits_le_iff (by decide)]

theorem foldl_extend (start : Nat) (ds : List Char) :
    ds.foldl extend start = start * tenTo ds.length + value ds := by
  induction ds generalizing start with
  | nil => simp [value, tenTo_zero]
  | cons c ds ih =>
      have hvalue : value (c :: ds) = extend 0 c * tenTo ds.length + value ds := ih (extend 0 c)
      rw [List.foldl_cons, ih, hvalue, extend, extend, List.length_cons, tenTo_succ]
      ring

theorem value_append (cs ds : List Char) :
    value (cs ++ ds) = value cs * tenTo ds.length + value ds := by
  rw [value, List.foldl_append, foldl_extend]
  rfl

theorem value_zeros (n : Nat) : value (List.replicate n '0') = 0 := by
  induction n with
  | zero => rfl
  | succ n ih => rwa [List.replicate_succ, value, List.foldl_cons]

theorem value_zeros_append (n : Nat) (ds : List Char) :
    value (List.replicate n '0' ++ ds) = value ds := by
  rw [value_append, value_zeros, Nat.zero_mul, Nat.zero_add]

theorem value_append_zeros (ds : List Char) (n : Nat) :
    value (ds ++ List.replicate n '0') = value ds * tenTo n := by
  rw [value_append, value_zeros, List.length_replicate, Nat.add_zero]

end Reshape.Decimal
