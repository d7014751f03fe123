import Reshape.Double.Text
import Reshape.Proofs.Decimal
import Reshape.Proofs.Double.Shortest
import Reshape.Proofs.Number.Numeral

namespace Reshape.Double

open Decimal (value)
open Number (IsDigits IsWhole Numeral)

/-! ### Digits without zeros at their end -/

theorem exists_zeros (cs : List Char) :
    ∃ zeros, cs = withoutTrailingZeros cs ++ List.replicate zeros '0' := by
  refine ⟨(cs.reverse.takeWhile (· == '0')).length, ?_⟩
  have hzeros : cs.reverse.takeWhile (· == '0') =
      List.replicate (cs.reverse.takeWhile (· == '0')).length '0' := by
    refine List.eq_replicate_iff.mpr ⟨rfl, fun c hc => ?_⟩
    exact beq_iff_eq.mp (List.all_eq_true.mp List.all_takeWhile c hc)
  have hsplit : cs.reverse.takeWhile (· == '0') ++ cs.reverse.dropWhile (· == '0') = cs.reverse :=
    List.takeWhile_append_dropWhile
  calc cs
    _ = cs.reverse.reverse := (List.reverse_reverse cs).symm
    _ = withoutTrailingZeros cs ++ (cs.reverse.takeWhile (· == '0')).reverse := by
        rw [← hsplit, List.reverse_append, hsplit, withoutTrailingZeros]
    _ = _ := by
        rw [hzeros, List.reverse_replicate, List.length_replicate]

/-- Digits that begin a numeral: there is one, and the first is not zero. -/
structure IsLeading (digits : List Char) : Prop where
  ne_nil : digits ≠ []
  isDigits : IsDigits digits
  head : ∀ c ∈ digits.head?, c ≠ '0'

theorem exists_leading {n : Nat} (hn : 0 < n) :
    ∃ zeros, IsLeading (withoutTrailingZeros (Decimal.digits n)) ∧
      value (withoutTrailingZeros (Decimal.digits n)) * tenTo zeros = n ∧
      (withoutTrailingZeros (Decimal.digits n)).length + zeros = (Decimal.digits n).length := by
  obtain ⟨zeros, hzeros⟩ := exists_zeros (Decimal.digits n)
  generalize withoutTrailingZeros (Decimal.digits n) = digits at *
  have hvalue : value digits * tenTo zeros = n := by
    rw [← Decimal.value_append_zeros, ← hzeros, Decimal.value_digits]
  have hne : digits ≠ [] := by
    rintro rfl
    rw [show value [] = 0 from rfl, Nat.zero_mul] at hvalue
    omega
  refine ⟨zeros, ⟨hne, ?_, ?_⟩, hvalue, ?_⟩
  · intro c hc
    refine Decimal.isAsciiDigit_of_mem_digits n c ?_
    rw [hzeros]
    exact List.mem_append_left _ hc
  · intro c hc
    obtain ⟨d, ds, rfl⟩ := List.exists_cons_of_ne_nil hne
    refine Decimal.head?_digits_ne_zero hn c ?_
    rw [hzeros]
    exact hc
  · rw [hzeros, List.length_append, List.length_replicate]

/-! ### The positional form -/

theorem isDigits_zeros (n : Nat) : IsDigits (List.replicate n '0') := by
  intro c hc
  rw [List.eq_of_mem_replicate hc]
  decide

theorem IsLeading.isWhole_append {digits : List Char} (h : IsLeading digits) {more : List Char}
    (hmore : IsDigits more) : IsWhole (digits ++ more) := by
  obtain ⟨d, ds, rfl⟩ := List.exists_cons_of_ne_nil h.ne_nil
  obtain ⟨hd, hds⟩ := List.forall_mem_cons.mp h.isDigits
  exact .digits hd (h.head d rfl) (List.forall_mem_append.mpr ⟨hds, hmore⟩)

theorem IsLeading.isWhole_take {digits : List Char} (h : IsLeading digits) {n : Nat}
    (hn : 0 < n) : IsWhole (digits.take n) := by
  obtain ⟨d, ds, rfl⟩ := List.exists_cons_of_ne_nil h.ne_nil
  obtain ⟨m, rfl⟩ := Nat.exists_eq_succ_of_ne_zero hn.ne'
  obtain ⟨hd, hds⟩ := List.forall_mem_cons.mp h.isDigits
  exact .digits hd (h.head d rfl) fun c hc => hds c (List.mem_of_mem_take hc)

theorem roundsTo_split {digits : List Char} {exponent : Int} {rank : Nat} (n : Nat)
    (hrounds : RoundsTo (value digits) exponent rank) :
    RoundsTo (value (digits.take n ++ digits.drop n)) exponent rank := by
  rwa [List.take_append_drop]

theorem exists_positional {digits : List Char} (h : IsLeading digits) {pointAt : Int} {rank : Nat}
    (hrounds : RoundsTo (value digits) (pointAt - digits.length) rank) :
    ∃ whole fraction, positional digits pointAt = whole ++ '.' :: fraction ∧ IsWhole whole ∧
      fraction ≠ [] ∧ IsDigits fraction ∧
      RoundsTo (value (whole ++ fraction)) (-fraction.length) rank := by
  unfold positional
  split
  · rename_i hpoint
    refine ⟨['0'], List.replicate (-pointAt).toNat '0' ++ digits, rfl, .zero, ?_, ?_, ?_⟩
    · simp [h.ne_nil]
    · exact List.forall_mem_append.mpr ⟨isDigits_zeros _, h.isDigits⟩
    · have hvalue : value (['0'] ++ (List.replicate (-pointAt).toNat '0' ++ digits)) =
          value digits :=
        Decimal.value_zeros_append _ digits
      rw [hvalue, List.length_append, List.length_replicate]
      convert hrounds using 1
      omega
  · rename_i hpoint
    dsimp only
    by_cases hshort : digits.length ≤ pointAt.toNat
    · rw [List.take_of_length_le hshort, List.drop_of_length_le hshort]
      refine ⟨digits ++ List.replicate (pointAt.toNat - digits.length) '0', ['0'], rfl,
        h.isWhole_append (isDigits_zeros _), nofun, isDigits_zeros 1, ?_⟩
      have hpad := hrounds.pad (pointAt.toNat - digits.length + 1)
      rw [← Decimal.value_append_zeros, List.replicate_succ', ← List.append_assoc] at hpad
      convert hpad using 1
      simp only [List.length_singleton]
      omega
    · have hfraction : digits.drop pointAt.toNat ≠ [] := by
        rw [ne_eq, List.drop_eq_nil_iff]
        exact hshort
      have hzeros : pointAt.toNat - digits.length = 0 := by omega
      refine ⟨digits.take pointAt.toNat, digits.drop pointAt.toNat, ?_,
        h.isWhole_take (by omega), hfraction, ?_, ?_⟩
      · simp [hzeros, hfraction]
      · intro c hc
        exact h.isDigits c (List.mem_of_mem_drop hc)
      · have hsplit := roundsTo_split pointAt.toNat hrounds
        convert hsplit using 1
        rw [List.length_drop]
        omega

/-! ### The scientific form -/

/-- The exponent as the parts of a numeral have it. -/
def powerOf (exponent : Int) : Bool × List Char :=
  let power := Decimal.digits exponent.natAbs
  (decide (exponent < 0), List.replicate (2 - power.length) '0' ++ power)

theorem isDigits_powerOf (exponent : Int) :
    (powerOf exponent).2 ≠ [] ∧ IsDigits (powerOf exponent).2 := by
  constructor
  · exact List.append_ne_nil_of_right_ne_nil _ (Decimal.digits_ne_nil _)
  · exact List.forall_mem_append.mpr
      ⟨isDigits_zeros _, Decimal.isAsciiDigit_of_mem_digits exponent.natAbs⟩

theorem powerValue_powerOf (exponent : Int) :
    Numeral.powerValue (some (powerOf exponent)) = exponent := by
  rw [powerOf, Numeral.powerValue, Decimal.value_zeros_append, Decimal.value_digits,
    Numeral.signed_natAbs]

theorem scientific_eq (digits : List Char) (exponent : Int) :
    scientific digits exponent = digits.take 1 ++
      (Numeral.fractionChars (digits.drop 1) ++
        Numeral.powerChars (some (powerOf exponent))) := by
  rw [scientific, Numeral.fractionChars, Numeral.powerChars, powerOf]
  simp

/-! ### Numbers -/

theorem exists_magnitude_numeral (negative : Bool) {rank : Nat} (hrank : 0 < rank) :
    ∃ numeral : Numeral, numeral.negative = negative ∧ numeral.IsWritten ∧
      numeral.chars = Numeral.minusChars negative ++ magnitudeChars rank ∧
      (numeral.fraction ≠ [] ∨ numeral.power ≠ none) ∧
      RoundsTo numeral.digits numeral.exponent rank := by
  have hshortest := roundsTo_shortest rank
  obtain ⟨zeros, hleading, hvalue, hlength⟩ := exists_leading (hshortest.digits_pos hrank)
  rw [magnitudeChars, if_neg hrank.ne']
  dsimp only
  generalize withoutTrailingZeros (Decimal.digits (shortest rank).digits) = digits at *
  have hrounds : RoundsTo (value digits)
      ((shortest rank).exponent + (Decimal.digits (shortest rank).digits).length -
        digits.length) rank := by
    rw [← hvalue] at hshortest
    convert hshortest.strip using 1
    omega
  generalize (shortest rank).exponent + (Decimal.digits (shortest rank).digits).length =
    pointAt at *
  split
  · obtain ⟨whole, fraction, hchars, hwhole, hne, hfraction, hnumeral⟩ :=
      exists_positional hleading hrounds
    have hpower : ∀ sign ds, (none : Option (Bool × List Char)) = some (sign, ds) →
        ds ≠ [] ∧ IsDigits ds := by
      rintro _ _ ⟨⟩
    have hwritten : Numeral.IsWritten ⟨negative, whole, fraction, none⟩ :=
      ⟨hwhole, hfraction, hpower⟩
    refine ⟨⟨negative, whole, fraction, none⟩, rfl, hwritten, ?_, .inl hne, ?_⟩
    · rw [hchars, Numeral.chars, Numeral.fractionChars, Numeral.powerChars]
      simp [hne]
    · rw [Numeral.digits, Numeral.exponent, Numeral.powerValue, zero_sub]
      exact hnumeral
  · refine ⟨⟨negative, digits.take 1, digits.drop 1, some (powerOf (pointAt - 1))⟩, rfl,
      ⟨hleading.isWhole_take one_pos, ?_, ?_⟩, ?_, .inr (Option.some_ne_none _), ?_⟩
    · intro c hc
      exact hleading.isDigits c (List.mem_of_mem_drop hc)
    · rintro _ _ ⟨⟩
      exact isDigits_powerOf _
    · rw [scientific_eq, Numeral.chars]
    · have hsplit := roundsTo_split 1 hrounds
      have hpos := List.length_pos_iff.mpr hleading.ne_nil
      rw [Numeral.digits, Numeral.exponent, powerValue_powerOf]
      convert hsplit using 1
      rw [List.length_drop]
      omega

/-- The text of a number is a numeral, and the number is read from it. -/
theorem exists_numeral (x : Double) :
    ∃ numeral : Numeral, numeral.IsWritten ∧ numeral.chars = x.chars ∧
      (numeral.fraction ≠ [] ∨ numeral.power ≠ none) ∧
      ofDecimal? numeral.negative numeral.digits numeral.exponent = some x := by
  obtain ⟨negative, rank, hfinite⟩ := x
  have hchars : chars ⟨negative, rank, hfinite⟩ =
      Numeral.minusChars negative ++ magnitudeChars rank := by
    cases negative <;> rfl
  rcases Nat.eq_zero_or_pos rank with rfl | hrank
  · refine ⟨⟨negative, ['0'], ['0'], none⟩, ⟨.zero, isDigits_zeros 1, nofun⟩, ?_, .inl nofun, rfl⟩
    rw [hchars]
    rfl
  · obtain ⟨numeral, rfl, hwritten, hsame, hreal, hrounds⟩ :=
      exists_magnitude_numeral negative hrank
    exact ⟨numeral, hwritten, hsame.trans hchars.symm, hreal,
      ofDecimal?_of_roundsTo _ hrounds hrank hfinite⟩

end Reshape.Double
