import Reshape.Double.Shortest
import Reshape.Proofs.Double.Nearest

namespace Reshape.Double

open Decimal (Scaled)

theorem IsNearest.congr {numerator denominator numerator' denominator' rank : Nat}
    (h : IsNearest numerator denominator rank) (hdenominator : 0 < denominator)
    (hdenominator' : 0 < denominator') (heq : numerator * denominator' = numerator' * denominator) :
    IsNearest numerator' denominator' rank := by
  have h' := isNearest_nearestRank numerator' hdenominator'
  rwa [← h.eq h' hdenominator hdenominator' heq] at h'

/-! ### Decimals -/

/-- The decimal `digits * 10 ^ exponent` rounds to the magnitude of a rank. -/
def RoundsTo (digits : Nat) (exponent : Int) (rank : Nat) : Prop :=
  IsNearest (digits * tenTo exponent.toNat * unit) (tenTo (-exponent).toNat) rank

theorem RoundsTo.pad {digits : Nat} {exponent : Int} {rank : Nat}
    (h : RoundsTo digits exponent rank) (zeros : Nat) :
    RoundsTo (digits * tenTo zeros) (exponent - zeros) rank := by
  refine IsNearest.congr h (tenTo_pos _) (tenTo_pos _) ?_
  have hpowers : tenTo exponent.toNat * tenTo (-(exponent - zeros)).toNat =
      tenTo zeros * tenTo (exponent - zeros).toNat * tenTo (-exponent).toNat := by
    rw [← tenTo_add, ← tenTo_add, ← tenTo_add]
    congr 1
    omega
  calc digits * tenTo exponent.toNat * unit * tenTo (-(exponent - zeros)).toNat
    _ = digits * unit * (tenTo exponent.toNat * tenTo (-(exponent - zeros)).toNat) := by ring
    _ = digits * unit *
        (tenTo zeros * tenTo (exponent - zeros).toNat * tenTo (-exponent).toNat) := by rw [hpowers]
    _ = digits * tenTo zeros * tenTo (exponent - zeros).toNat * unit * tenTo (-exponent).toNat := by
        ring

theorem RoundsTo.strip {digits : Nat} {exponent : Int} {rank zeros : Nat}
    (h : RoundsTo (digits * tenTo zeros) exponent rank) :
    RoundsTo digits (exponent + zeros) rank := by
  refine IsNearest.congr h (tenTo_pos _) (tenTo_pos _) ?_
  have hpowers : tenTo zeros * tenTo exponent.toNat * tenTo (-(exponent + zeros)).toNat =
      tenTo (exponent + zeros).toNat * tenTo (-exponent).toNat := by
    rw [← tenTo_add, ← tenTo_add, ← tenTo_add]
    congr 1
    omega
  calc digits * tenTo zeros * tenTo exponent.toNat * unit * tenTo (-(exponent + zeros)).toNat
    _ = digits * unit *
        (tenTo zeros * tenTo exponent.toNat * tenTo (-(exponent + zeros)).toNat) := by ring
    _ = digits * unit * (tenTo (exponent + zeros).toNat * tenTo (-exponent).toNat) := by
        rw [hpowers]
    _ = digits * tenTo (exponent + zeros).toNat * unit * tenTo (-exponent).toNat := by ring

theorem unitsOfRank_pos {rank : Nat} (hrank : 0 < rank) : 0 < unitsOfRank rank := by
  rw [← unitsOfRank_zero]
  exact unitsOfRank_strictMono hrank

theorem lowerMidpoint_pos {rank : Nat} (hrank : 0 < rank) : 0 < lowerMidpoint rank :=
  Nat.add_pos_right _ (unitsOfRank_pos hrank)

theorem RoundsTo.digits_pos {digits : Nat} {exponent : Int} {rank : Nat}
    (h : RoundsTo digits exponent rank) (hrank : 0 < rank) : 0 < digits := by
  rcases Nat.eq_zero_or_pos digits with rfl | hpos
  · have hmidpoint := Nat.mul_pos (lowerMidpoint_pos hrank) (tenTo_pos (-exponent).toNat)
    have hlower := IsNearest.lower h
    rw [Nat.zero_mul, Nat.zero_mul, Nat.mul_zero] at hlower
    omega
  · exact hpos

/-! ### The guards of reading -/

theorem unitsOfRank_magnitudes : unitsOfRank magnitudes = twoTo 2098 := by
  have hshifted := unitsOfRank_shifted 2046 (twoTo 52) (by decide) (.inr (Nat.le_refl _))
  calc unitsOfRank magnitudes
    _ = unitsOfRank (2046 * twoTo 52 + twoTo 52) := by rw [magnitudes, ← Nat.succ_mul]
    _ = twoTo 52 * twoTo 2046 := hshifted.1
    _ = twoTo 2098 := (twoTo_add 52 2046).symm

theorem RoundsTo.exponent_le {digits : Nat} {exponent : Int} {rank : Nat}
    (h : RoundsTo digits exponent rank) (hrank : 0 < rank) (hfinite : rank < magnitudes) :
    exponent ≤ 400 := by
  by_contra hlarge
  have hdenominator : (-exponent).toNat = 0 := by omega
  have hupper := IsNearest.upper h
  rw [hdenominator] at hupper
  have hnext : unitsOfRank (rank + 1) ≤ twoTo 2098 := by
    rw [← unitsOfRank_magnitudes]
    exact unitsOfRank_strictMono.monotone hfinite
  have hhere : unitsOfRank rank < unitsOfRank (rank + 1) :=
    unitsOfRank_strictMono (Nat.lt_succ_self rank)
  have hmidpoint : upperMidpoint rank * tenTo 0 ≤ 2 * twoTo 2098 := by
    rw [upperMidpoint, tenTo_zero]
    omega
  have hpower : tenTo 401 ≤ tenTo exponent.toNat := tenTo_le_tenTo (by omega)
  have hvalue : tenTo 401 * unit ≤ digits * tenTo exponent.toNat * unit := by
    refine Nat.mul_le_mul_right unit (hpower.trans ?_)
    exact Nat.le_mul_of_pos_left _ (h.digits_pos hrank)
  have hbound : twoTo 2098 < tenTo 401 * unit := by decide +kernel
  generalize tenTo 401 * unit = bound at *
  omega

theorem RoundsTo.le_exponent {digits : Nat} {exponent : Int} {rank : Nat}
    (h : RoundsTo digits exponent rank) (hrank : 0 < rank) :
    -400 ≤ exponent + (digits.log2 / 3 + 1 : Nat) := by
  by_contra hsmall
  have hdigits : digits < tenTo (digits.log2 / 3 + 1) := by
    calc digits
      _ < 2 ^ (digits.log2 + 1) := Nat.lt_log2_self
      _ ≤ 2 ^ (3 * (digits.log2 / 3 + 1)) := Nat.pow_le_pow_right (by decide) (by omega)
      _ = 8 ^ (digits.log2 / 3 + 1) := by rw [Nat.pow_mul]
      _ ≤ 10 ^ (digits.log2 / 3 + 1) := Nat.pow_le_pow_left (by decide) _
  generalize digits.log2 / 3 + 1 = places at *
  have hnumerator : exponent.toNat = 0 := by omega
  have hlower := IsNearest.lower h
  rw [hnumerator] at hlower
  have hpower : tenTo places * tenTo 401 ≤ tenTo (-exponent).toNat := by
    rw [← tenTo_add]
    exact tenTo_le_tenTo (by omega)
  have hmidpoint : tenTo (-exponent).toNat ≤ lowerMidpoint rank * tenTo (-exponent).toNat :=
    Nat.le_mul_of_pos_left _ (lowerMidpoint_pos hrank)
  have hvalue : digits * tenTo 0 * unit < tenTo places * unit := by
    rw [tenTo_zero, Nat.mul_one]
    exact Nat.mul_lt_mul_of_pos_right hdigits (twoTo_pos 1074)
  have hbound : tenTo places * (2 * unit) ≤ tenTo places * tenTo 401 :=
    Nat.mul_le_mul_left _ (by decide +kernel)
  rw [Nat.mul_left_comm] at hbound
  omega

theorem ofDecimal?_of_roundsTo (negative : Bool) {digits : Nat} {exponent : Int} {rank : Nat}
    (h : RoundsTo digits exponent rank) (hrank : 0 < rank) (hfinite : rank < magnitudes) :
    ofDecimal? negative digits exponent = some ⟨negative, rank, hfinite⟩ := by
  have hdigits := (h.digits_pos hrank).ne'
  have hupper := h.exponent_le hrank hfinite
  have hlower := h.le_exponent hrank
  have hnearest := isNearest_nearestRank (digits * tenTo exponent.toNat * unit)
    (tenTo_pos (-exponent).toNat)
  have heq := h.eq hnearest (tenTo_pos _) (tenTo_pos _) rfl
  rw [ofDecimal?, if_neg hdigits, if_neg (by omega), if_neg (by omega), ← heq, ofRank?,
    dif_pos hfinite]

/-! ### The shortest decimal -/

theorem readsBack_eq_true_iff {rank : Nat} {d : Scaled} :
    readsBack rank d = true ↔ RoundsTo d.digits d.exponent rank := by
  have htwice : 2 * d.digits * tenTo d.exponent.toNat * unit =
      2 * (d.digits * tenTo d.exponent.toNat * unit) := by
    ring
  have hlow : (unitsOfRank (rank - 1) + unitsOfRank rank) * tenTo (-d.exponent).toNat =
      lowerMidpoint rank * tenTo (-d.exponent).toNat := rfl
  have hhigh : (unitsOfRank rank + unitsOfRank (rank + 1)) * tenTo (-d.exponent).toNat =
      upperMidpoint rank * tenTo (-d.exponent).toNat := rfl
  rw [readsBack, htwice, hlow, hhigh]
  split
  · rename_i heven
    rw [Bool.and_eq_true, decide_eq_true_eq, decide_eq_true_eq]
    constructor
    · rintro ⟨hlower, hupper⟩
      exact ⟨by omega, by omega⟩
    · rintro ⟨hlower, hupper⟩
      exact ⟨by omega, by omega⟩
  · rename_i hodd
    rw [Bool.and_eq_true, decide_eq_true_eq, decide_eq_true_eq]
    constructor
    · rintro ⟨hlower, hupper⟩
      exact ⟨.inl hlower, .inl hupper⟩
    · rintro ⟨hlower, hupper⟩
      exact ⟨by omega, by omega⟩

theorem readsBack_of_choose? {rank : Nat} {below above d : Scaled} {side : Ordering}
    (h : choose? rank below above side = some d) : readsBack rank d = true := by
  unfold choose? at h
  split at h
  · cases h
  · rename_i hbelow habove
    cases h
    exact hbelow
  · rename_i hbelow habove
    cases h
    exact habove
  · rename_i hbelow habove
    split at h
    · cases h
      exact hbelow
    · cases h
      exact habove
    · split at h <;> cases h
      · exact hbelow
      · exact habove

theorem roundsTo_exact (rank : Nat) :
    RoundsTo (unitsOfRank rank * (tenTo 1074 / twoTo 1074)) (-1074) rank := by
  have hpower : tenTo 1074 / twoTo 1074 * unit = tenTo 1074 := by decide +kernel
  have hvalue : unitsOfRank rank * (tenTo 1074 / twoTo 1074) * tenTo (-1074 : Int).toNat * unit =
      unitsOfRank rank * tenTo 1074 := by
    rw [show tenTo (-1074 : Int).toNat = 1 from rfl, Nat.mul_one, Nat.mul_assoc, hpower]
  rw [RoundsTo, hvalue]
  refine isNearest_of_floor (tenTo_pos _) (Nat.le_refl _) (.inl ?_)
  calc 2 * (unitsOfRank rank * tenTo 1074)
    _ = 2 * unitsOfRank rank * tenTo 1074 := (Nat.mul_assoc _ _ _).symm
    _ < upperMidpoint rank * tenTo 1074 :=
        Nat.mul_lt_mul_of_pos_right (lt_upperMidpoint rank) (tenTo_pos _)

theorem roundsTo_shortest (rank : Nat) :
    RoundsTo (shortest rank).digits (shortest rank).exponent rank := by
  rw [shortest]
  split
  · rename_i d hfound
    obtain ⟨n, -, hgrid⟩ := List.exists_of_findSome?_eq_some hfound
    rw [nearestOnGrid?] at hgrid
    exact readsBack_eq_true_iff.mp (readsBack_of_choose? hgrid)
  · exact roundsTo_exact rank

end Reshape.Double
