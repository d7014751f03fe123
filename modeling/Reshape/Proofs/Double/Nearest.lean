import Mathlib.Order.Monotone.Basic
import Mathlib.Tactic.Linarith
import Mathlib.Tactic.Ring
import Reshape.Double.Round

/-!
Rounding to the nearest number of the format, by the midpoints between neighbours. Main
statements: `isNearest_nearestRank`, that the rank found lies between the midpoints to its
neighbours, and `IsNearest.le`, that greater quotients have no smaller ranks, so that the rank
is the only one.
-/

namespace Reshape.Double

/-- The distance from a magnitude to the next one. -/
def gap (rank : Nat) : Nat :=
  twoTo (rank / twoTo 52 - 1)

theorem gap_pos (rank : Nat) : 0 < gap rank :=
  twoTo_pos _

theorem twoTo_succ (n : Nat) : twoTo (n + 1) = 2 * twoTo n := by
  rw [twoTo, twoTo, Nat.mul_comm]
  rfl

theorem twoTo_add (m n : Nat) : twoTo (m + n) = twoTo m * twoTo n :=
  Nat.pow_add 2 m n

theorem unitsOfRank_shifted (shift significand : Nat) (hupper : significand < 2 * twoTo 52)
    (hlower : shift = 0 ∨ twoTo 52 ≤ significand) :
    unitsOfRank (shift * twoTo 52 + significand) = significand * twoTo shift ∧
      gap (shift * twoTo 52 + significand) = twoTo shift := by
  have hpos := twoTo_pos 52
  unfold unitsOfRank gap
  generalize twoTo 52 = base at *
  by_cases hsmall : significand < base
  · obtain rfl : shift = 0 := hlower.resolve_right (by omega)
    rw [Nat.zero_mul, Nat.zero_add, if_pos hsmall, Nat.div_eq_of_lt hsmall]
    exact ⟨(Nat.mul_one _).symm, rfl⟩
  · obtain ⟨fraction, rfl⟩ := Nat.exists_eq_add_of_le (Nat.not_lt.mp hsmall)
    have hrank : shift * base + (base + fraction) = fraction + base * (shift + 1) := by ring
    have hfraction : fraction < base := by omega
    have hmod : (fraction + base * (shift + 1)) % base = fraction := by
      rw [Nat.add_mul_mod_self_left, Nat.mod_eq_of_lt hfraction]
    have hdiv : (fraction + base * (shift + 1)) / base = shift + 1 := by
      rw [Nat.add_mul_div_left _ _ hpos, Nat.div_eq_of_lt hfraction, Nat.zero_add]
    have hlarge : ¬ fraction + base * (shift + 1) < base := by
      rw [← hrank]
      omega
    rw [hrank, if_neg hlarge, hmod, hdiv]
    exact ⟨rfl, rfl⟩

theorem unitsOfRank_succ (rank : Nat) : unitsOfRank (rank + 1) = unitsOfRank rank + gap rank := by
  have hpos := twoTo_pos 52
  have hsplit := Nat.div_add_mod rank (twoTo 52)
  have hlt := Nat.mod_lt rank hpos
  by_cases hsmall : rank < twoTo 52
  · have hhere := unitsOfRank_shifted 0 rank (by omega) (.inl rfl)
    have hnext := unitsOfRank_shifted 0 (rank + 1) (by omega) (.inl rfl)
    simp only [Nat.zero_mul, Nat.zero_add] at hhere hnext
    rw [hhere.1, hhere.2, hnext.1]
    ring
  · obtain ⟨shift, hshift⟩ : ∃ shift, rank / twoTo 52 = shift + 1 :=
      Nat.exists_eq_succ_of_ne_zero (Nat.div_pos (Nat.not_lt.mp hsmall) hpos).ne'
    rw [hshift] at hsplit
    have hrank : rank = shift * twoTo 52 + (twoTo 52 + rank % twoTo 52) := by
      rw [← hsplit, Nat.mul_add_mod, Nat.mod_mod]
      ring
    have hhere := unitsOfRank_shifted shift (twoTo 52 + rank % twoTo 52)
      (by omega) (.inr (by omega))
    rw [← hrank] at hhere
    rw [hhere.1, hhere.2]
    -- The last significand of its distance is followed by the first one of the next.
    by_cases hlast : rank % twoTo 52 + 1 = twoTo 52
    · have hnext := unitsOfRank_shifted (shift + 1) (twoTo 52) (by omega)
        (.inr (Nat.le_refl _))
      have hrankNext : rank + 1 = (shift + 1) * twoTo 52 + twoTo 52 := by
        rw [hrank, Nat.succ_mul]
        omega
      rw [hrankNext, hnext.1, twoTo_succ shift, ← Nat.succ_mul]
      have htwice : twoTo 52 + rank % twoTo 52 + 1 = 2 * twoTo 52 := by omega
      rw [Nat.succ_eq_add_one, htwice]
      ring
    · have hnext := unitsOfRank_shifted shift (twoTo 52 + rank % twoTo 52 + 1)
        (by omega) (.inr (by omega))
      have hrankNext : rank + 1 = shift * twoTo 52 + (twoTo 52 + rank % twoTo 52 + 1) := by omega
      rw [hrankNext, hnext.1]
      ring

theorem unitsOfRank_strictMono : StrictMono unitsOfRank := by
  refine strictMono_nat_of_lt_succ fun rank => ?_
  rw [unitsOfRank_succ]
  exact Nat.lt_add_of_pos_right (gap_pos rank)

@[simp]
theorem unitsOfRank_zero : unitsOfRank 0 = 0 := by
  rw [unitsOfRank, if_pos (twoTo_pos 52)]

/-- Twice the midpoint between a magnitude and the one before it. -/
def lowerMidpoint (rank : Nat) : Nat :=
  unitsOfRank (rank - 1) + unitsOfRank rank

/-- Twice the midpoint between a magnitude and the one after it. -/
def upperMidpoint (rank : Nat) : Nat :=
  unitsOfRank rank + unitsOfRank (rank + 1)

theorem lowerMidpoint_lt {rank : Nat} (hrank : 0 < rank) :
    lowerMidpoint rank < 2 * unitsOfRank rank := by
  have hlt : unitsOfRank (rank - 1) < unitsOfRank rank := unitsOfRank_strictMono (by omega)
  rw [lowerMidpoint]
  omega

theorem lt_upperMidpoint (rank : Nat) : 2 * unitsOfRank rank < upperMidpoint rank := by
  have hlt : unitsOfRank rank < unitsOfRank (rank + 1) := unitsOfRank_strictMono (by omega)
  rw [upperMidpoint]
  omega

theorem upperMidpoint_le_lowerMidpoint {rank other : Nat} (h : rank < other) :
    upperMidpoint rank ≤ lowerMidpoint other := by
  have hhere : unitsOfRank rank ≤ unitsOfRank (other - 1) :=
    unitsOfRank_strictMono.monotone (by omega)
  have hnext : unitsOfRank (rank + 1) ≤ unitsOfRank other :=
    unitsOfRank_strictMono.monotone (by omega)
  exact Nat.add_le_add hhere hnext

/-- A quotient lies between the midpoints from a rank to its neighbours. A midpoint itself
belongs to the even one of its two ranks. -/
structure IsNearest (numerator denominator rank : Nat) : Prop where
  lower : lowerMidpoint rank * denominator < 2 * numerator ∨
    lowerMidpoint rank * denominator = 2 * numerator ∧ rank % 2 = 0
  upper : 2 * numerator < upperMidpoint rank * denominator ∨
    2 * numerator = upperMidpoint rank * denominator ∧ rank % 2 = 0

variable {numerator denominator : Nat}

theorem isNearest_of_floor {rank : Nat} (hdenominator : 0 < denominator)
    (hfloor : unitsOfRank rank * denominator ≤ numerator)
    (hbelow : 2 * numerator < upperMidpoint rank * denominator ∨
      2 * numerator = upperMidpoint rank * denominator ∧ rank % 2 = 0) :
    IsNearest numerator denominator rank := by
  refine ⟨?_, hbelow⟩
  rcases Nat.eq_zero_or_pos rank with rfl | hrank
  · rcases Nat.eq_zero_or_pos numerator with rfl | hnumerator
    · exact .inr ⟨by simp [lowerMidpoint], rfl⟩
    · exact .inl (by simpa [lowerMidpoint] using hnumerator)
  · left
    calc lowerMidpoint rank * denominator
        < 2 * unitsOfRank rank * denominator :=
          Nat.mul_lt_mul_of_pos_right (lowerMidpoint_lt hrank) hdenominator
      _ = 2 * (unitsOfRank rank * denominator) := Nat.mul_assoc _ _ _
      _ ≤ 2 * numerator := Nat.mul_le_mul_left 2 hfloor

theorem isNearest_succ {rank : Nat}
    (hceiling : numerator < unitsOfRank (rank + 1) * denominator)
    (habove : upperMidpoint rank * denominator < 2 * numerator ∨
      upperMidpoint rank * denominator = 2 * numerator ∧ (rank + 1) % 2 = 0) :
    IsNearest numerator denominator (rank + 1) := by
  refine ⟨habove, .inl ?_⟩
  calc 2 * numerator
      < 2 * (unitsOfRank (rank + 1) * denominator) := Nat.mul_lt_mul_of_pos_left hceiling two_pos
    _ = 2 * unitsOfRank (rank + 1) * denominator := (Nat.mul_assoc _ _ _).symm
    _ ≤ upperMidpoint (rank + 1) * denominator :=
        Nat.mul_le_mul_right _ (lt_upperMidpoint (rank + 1)).le

theorem significand_bounds (quotient : Nat) :
    quotient / twoTo (quotient.log2 - 52) < 2 * twoTo 52 ∧
      (quotient.log2 - 52 = 0 ∨ twoTo 52 ≤ quotient / twoTo (quotient.log2 - 52)) := by
  rw [← twoTo_succ]
  constructor
  · rw [Nat.div_lt_iff_lt_mul (twoTo_pos _), ← twoTo_add]
    calc quotient < twoTo (quotient.log2 + 1) := Nat.lt_log2_self
      _ ≤ twoTo (52 + 1 + (quotient.log2 - 52)) :=
          Nat.pow_le_pow_right (by decide) (by omega)
  · rcases Nat.eq_zero_or_pos (quotient.log2 - 52) with hzero | hpos
    · exact .inl hzero
    · right
      rw [Nat.le_div_iff_mul_le (twoTo_pos _), ← twoTo_add]
      have hne : quotient ≠ 0 := by
        rintro rfl
        simp at hpos
      calc twoTo (52 + (quotient.log2 - 52)) = twoTo quotient.log2 := by
            rw [Nat.add_sub_cancel' (by omega)]
        _ ≤ quotient := Nat.log2_self_le hne

theorem isNearest_nearestRank (numerator : Nat) (hdenominator : 0 < denominator) :
    IsNearest numerator denominator (nearestRank numerator denominator) := by
  obtain ⟨hupper, hlower⟩ := significand_bounds (numerator / denominator)
  rw [nearestRank]
  generalize (numerator / denominator).log2 - 52 = shift at *
  have hstep : 0 < denominator * twoTo shift := Nat.mul_pos hdenominator (twoTo_pos _)
  rw [Nat.div_div_eq_div_mul] at hupper hlower
  have hsplit := Nat.div_add_mod numerator (denominator * twoTo shift)
  have hlt := Nat.mod_lt numerator hstep
  obtain ⟨hhere, hgap⟩ := unitsOfRank_shifted _ _ hupper hlower
  generalize numerator / (denominator * twoTo shift) = significand at *
  generalize numerator % (denominator * twoTo shift) = excess at *
  generalize shift * twoTo 52 + significand = rank at *
  have hscale : unitsOfRank rank * denominator = denominator * twoTo shift * significand := by
    rw [hhere]
    ring
  have hnext : unitsOfRank (rank + 1) * denominator =
      denominator * twoTo shift * significand + denominator * twoTo shift := by
    rw [unitsOfRank_succ, hgap, Nat.add_mul, hscale, Nat.mul_comm (twoTo shift)]
  have hmiddle : upperMidpoint rank * denominator =
      2 * (denominator * twoTo shift * significand) + denominator * twoTo shift := by
    rw [upperMidpoint, Nat.add_mul, hscale, hnext]
    omega
  generalize denominator * twoTo shift * significand = floor at *
  generalize denominator * twoTo shift = step at *
  have hfloor : unitsOfRank rank * denominator ≤ numerator := by omega
  have hceiling : numerator < unitsOfRank (rank + 1) * denominator := by omega
  split
  · exact isNearest_of_floor hdenominator hfloor (.inl (by omega))
  · split
    · exact isNearest_succ hceiling (.inl (by omega))
    · split
      · rename_i heven
        exact isNearest_of_floor hdenominator hfloor (.inr ⟨by omega, heven⟩)
      · exact isNearest_succ hceiling (.inr ⟨by omega, by omega⟩)

/-- A greater quotient has no smaller rank. -/
theorem IsNearest.le {numerator' denominator' rank rank' : Nat}
    (h : IsNearest numerator denominator rank) (h' : IsNearest numerator' denominator' rank')
    (hdenominator : 0 < denominator) (hdenominator' : 0 < denominator')
    (hle : numerator * denominator' ≤ numerator' * denominator) : rank ≤ rank' := by
  by_contra hlt
  rw [not_le] at hlt
  -- The midpoint above the smaller rank is not above the one below the greater rank, so that
  -- both quotients are this midpoint, which belongs to one rank only.
  have hmidpoints := upperMidpoint_le_lowerMidpoint hlt
  have hscaled : upperMidpoint rank' * denominator' * denominator ≤
      lowerMidpoint rank * denominator * denominator' := by
    rw [Nat.mul_assoc, Nat.mul_assoc, Nat.mul_comm denominator']
    exact Nat.mul_le_mul_right _ hmidpoints
  have hlowerLe : lowerMidpoint rank * denominator ≤ 2 * numerator := by
    rcases h.lower with h | ⟨h, -⟩ <;> omega
  have hupperLe : 2 * numerator' ≤ upperMidpoint rank' * denominator' := by
    rcases h'.upper with h | ⟨h, -⟩ <;> omega
  have hlower := Nat.mul_le_mul_right denominator' hlowerLe
  have hupper := Nat.mul_le_mul_right denominator hupperLe
  have heven : rank % 2 = 0 := by
    refine (h.lower.resolve_left fun hstrict => ?_).2
    have := Nat.mul_lt_mul_of_pos_right hstrict hdenominator'
    nlinarith
  have heven' : rank' % 2 = 0 := by
    refine (h'.upper.resolve_left fun hstrict => ?_).2
    have := Nat.mul_lt_mul_of_pos_right hstrict hdenominator
    nlinarith
  have hbetween : rank' + 1 < rank := by omega
  have hgap : unitsOfRank rank' < unitsOfRank (rank - 1) := unitsOfRank_strictMono (by omega)
  have hnext : unitsOfRank (rank' + 1) < unitsOfRank rank := unitsOfRank_strictMono hbetween
  have hstrict : upperMidpoint rank' < lowerMidpoint rank := by
    rw [upperMidpoint, lowerMidpoint]
    omega
  have hproduct := Nat.mul_lt_mul_of_pos_right hstrict (Nat.mul_pos hdenominator hdenominator')
  nlinarith

theorem IsNearest.eq {numerator' denominator' rank rank' : Nat}
    (h : IsNearest numerator denominator rank) (h' : IsNearest numerator' denominator' rank')
    (hdenominator : 0 < denominator) (hdenominator' : 0 < denominator')
    (heq : numerator * denominator' = numerator' * denominator) : rank = rank' :=
  Nat.le_antisymm (h.le h' hdenominator hdenominator' heq.le)
    (h'.le h hdenominator' hdenominator heq.ge)

theorem nearestRank_mono {numerator numerator' : Nat} (hdenominator : 0 < denominator)
    (hle : numerator ≤ numerator') :
    nearestRank numerator denominator ≤ nearestRank numerator' denominator :=
  (isNearest_nearestRank numerator hdenominator).le (isNearest_nearestRank numerator' hdenominator)
    hdenominator hdenominator (Nat.mul_le_mul_right _ hle)

end Reshape.Double
