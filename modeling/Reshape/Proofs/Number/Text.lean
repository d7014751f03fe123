import Reshape.Proofs.Double.Text

namespace Reshape.Number

theorem isWhole_digits (n : Nat) : IsWhole (Decimal.digits n) := by
  rcases Nat.eq_zero_or_pos n with rfl | hn
  · rw [show Decimal.digits 0 = ['0'] by rw [Decimal.digits]; rfl]
    exact .zero
  · have hne := Decimal.digits_ne_nil n
    have hdigits := Decimal.isAsciiDigit_of_mem_digits n
    have hhead := Decimal.head?_digits_ne_zero hn
    obtain ⟨d, ds, hds⟩ := List.exists_cons_of_ne_nil hne
    rw [hds] at hdigits hhead ⊢
    obtain ⟨hd, hrest⟩ := List.forall_mem_cons.mp hdigits
    exact .digits hd (hhead d rfl) hrest

/-- The text of every number is a numeral from which it is read, if it is short. -/
theorem exists_numeral (n : Number) :
    ∃ numeral : Numeral, numeral.IsWritten ∧ numeral.chars = n.chars ∧
      (n.isShort = true → read (String.ofList numeral.chars) = .ok n) := by
  cases n with
  | int i =>
      have hwritten : Numeral.IsWritten ⟨decide (i < 0), Decimal.digits i.natAbs, [], none⟩ :=
        ⟨isWhole_digits _, nofun, nofun⟩
      refine ⟨_, hwritten, ?_, fun hshort => ?_⟩
      · rw [Numeral.chars, chars, Decimal.signedDigits, Numeral.minusChars]
        by_cases hnegative : i < 0 <;> simp [hnegative, Numeral.fractionChars, Numeral.powerChars]
      · have hlength := (Decimal.isShort_iff i).mp hshort
        rw [Numeral.read_int hwritten rfl rfl, if_neg (Nat.not_lt.mpr hlength), Numeral.digits,
          List.append_nil, Decimal.value_digits, Numeral.signed_natAbs]
  | float x =>
      obtain ⟨numeral, hwritten, hchars, hreal, hx⟩ := x.exists_numeral
      exact ⟨numeral, hwritten, hchars, fun _ => Numeral.read_real hwritten hreal hx⟩

theorem read_chars {n : Number} (hn : n.isShort = true) : read (String.ofList n.chars) = .ok n := by
  obtain ⟨numeral, -, hchars, hread⟩ := n.exists_numeral
  rw [← hchars]
  exact hread hn

theorem isLiteral_chars (n : Number) : IsLiteral n.chars := by
  obtain ⟨numeral, hwritten, hchars, -⟩ := n.exists_numeral
  rw [← hchars]
  exact Numeral.isLiteral_chars hwritten

theorem isPlain_chars (n : Number) : ∀ c ∈ n.chars, Numeral.IsPlain c := by
  obtain ⟨numeral, hwritten, hchars, -⟩ := n.exists_numeral
  rw [← hchars]
  exact Numeral.isPlain_chars hwritten

end Reshape.Number
