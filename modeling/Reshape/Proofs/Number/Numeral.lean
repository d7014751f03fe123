import Reshape.Proofs.Number.Literal

namespace Reshape.Number

open Reshape.Text

/-! ### Digits -/

theorem digitValue?_of_isAsciiDigit {c : Char} (hc : isAsciiDigit c = true) :
    digitValue? c = some (c.toNat - 48) := by
  obtain ⟨hlower, hupper⟩ := isAsciiDigit_iff.mp hc
  have hfind : zeros.find? (fun z => z ≤ c.toNat && c.toNat < z + 10) = some 48 := by
    rw [zeros, List.find?_cons_of_pos]
    simp only [Bool.and_eq_true, decide_eq_true_eq]
    omega
  rw [digitValue?, hfind, Option.map_some]

/-- A numeral cannot go on with such a character. -/
def IsStop (rest : List Char) : Prop :=
  ∀ c ∈ rest.head?, digitValue? c = none ∧ c ≠ '_'

theorem isStop_nil : IsStop [] :=
  nofun

theorem isStop_cons {c : Char} (hdigit : digitValue? c = none) (hunderscore : c ≠ '_')
    (rest : List Char) : IsStop (c :: rest) := by
  rintro _ ⟨⟩
  exact ⟨hdigit, hunderscore⟩

def digitValues (ds : List Char) : List Nat :=
  ds.map fun c => c.toNat - 48

theorem moreDigits_of_isStop {rest : List Char} (hrest : IsStop rest) :
    moreDigits rest = ([], rest) := by
  cases rest with
  | nil => rfl
  | cons c rest =>
      obtain ⟨hdigit, hunderscore⟩ := hrest c rfl
      cases rest with
      | nil => simp [moreDigits, hdigit]
      | cons c' rest => simp [moreDigits, hdigit, hunderscore]

theorem moreDigits_append {ds rest : List Char} (hds : IsDigits ds) (hrest : IsStop rest) :
    moreDigits (ds ++ rest) = (digitValues ds, rest) := by
  induction ds with
  | nil => exact moreDigits_of_isStop hrest
  | cons d ds ih =>
      obtain ⟨hd, hds⟩ := List.forall_mem_cons.mp hds
      have hvalue := digitValue?_of_isAsciiDigit hd
      have hmore := ih hds
      rw [List.cons_append]
      cases htail : ds ++ rest with
      | nil =>
          obtain ⟨rfl, rfl⟩ := List.append_eq_nil_iff.mp htail
          simp [moreDigits, hvalue, digitValues]
      | cons c tail =>
          rw [htail] at hmore
          simp only [moreDigits, hvalue, hmore, digitValues, List.map_cons]

theorem takeDigits_append {ds rest : List Char} (hne : ds ≠ []) (hds : IsDigits ds)
    (hrest : IsStop rest) : takeDigits (ds ++ rest) = (digitValues ds, rest) := by
  obtain ⟨d, ds, rfl⟩ := List.exists_cons_of_ne_nil hne
  obtain ⟨hd, hds⟩ := List.forall_mem_cons.mp hds
  rw [List.cons_append, takeDigits, digitValue?_of_isAsciiDigit hd]
  simp only [moreDigits_append hds hrest, digitValues, List.map_cons]

theorem ofDigits_digitValues (ds : List Char) : ofDigits (digitValues ds) = Decimal.value ds := by
  rw [ofDigits, digitValues, List.foldl_map]
  rfl

/-! ### Numerals -/

/-- The parts of a written number. The power is the sign and the digits of an exponent. -/
structure Numeral where
  negative : Bool
  whole : List Char
  fraction : List Char
  power : Option (Bool × List Char)

namespace Numeral

def minusChars (negative : Bool) : List Char :=
  if negative then ['-'] else []

def fractionChars (fraction : List Char) : List Char :=
  if fraction.isEmpty then [] else '.' :: fraction

def powerChars : Option (Bool × List Char) → List Char
  | none => []
  | some (negative, ds) => 'e' :: (if negative then '-' else '+') :: ds

def chars (numeral : Numeral) : List Char :=
  minusChars numeral.negative ++
    (numeral.whole ++ (fractionChars numeral.fraction ++ powerChars numeral.power))

structure IsWritten (numeral : Numeral) : Prop where
  whole : IsWhole numeral.whole
  fraction : IsDigits numeral.fraction
  power : ∀ negative ds, numeral.power = some (negative, ds) → ds ≠ [] ∧ IsDigits ds

/-- The number that the digits make without the point. -/
def digits (numeral : Numeral) : Nat :=
  Decimal.value (numeral.whole ++ numeral.fraction)

def signed (negative : Bool) (n : Nat) : Int :=
  if negative then -n else n

theorem signed_natAbs (i : Int) : signed (decide (i < 0)) i.natAbs = i := by
  by_cases hnegative : i < 0
  · rw [signed, if_pos (decide_eq_true hnegative)]
    omega
  · rw [signed, if_neg (by simpa using hnegative)]
    omega

def powerValue : Option (Bool × List Char) → Int
  | none => 0
  | some (negative, ds) => signed negative (Decimal.value ds)

/-- The exponent that belongs to the digits without the point. -/
def exponent (numeral : Numeral) : Int :=
  powerValue numeral.power - numeral.fraction.length

variable {numeral : Numeral}

theorem isDigits_of_isWhole {whole : List Char} (h : IsWhole whole) :
    whole ≠ [] ∧ IsDigits whole := by
  cases h with
  | zero => exact ⟨nofun, List.forall_mem_singleton.mpr (by decide)⟩
  | digits hc _ hds => exact ⟨nofun, List.forall_mem_cons.mpr ⟨hc, hds⟩⟩

theorem isLiteral_chars (h : numeral.IsWritten) : IsLiteral numeral.chars := by
  have hminus : IsMinus (minusChars numeral.negative) := by
    rw [minusChars]
    split
    · exact .minus
    · exact .none
  have hfraction : IsFraction (fractionChars numeral.fraction) := by
    rw [fractionChars]
    split
    · exact .none
    · rename_i hne
      exact .digits (by simpa using hne) h.fraction
  have hpower : IsPower (powerChars numeral.power) := by
    cases hcase : numeral.power with
    | none => exact .none
    | some power =>
        obtain ⟨negative, ds⟩ := power
        obtain ⟨hne, hds⟩ := h.power negative ds hcase
        cases negative with
        | false => exact .digits (.inl rfl) .plus hne hds
        | true => exact .digits (.inl rfl) .minus hne hds
  rw [chars, ← List.append_assoc, ← List.append_assoc]
  exact .mk hminus h.whole hfraction hpower

/-! ### Reading -/

/-- The characters of numerals. -/
def IsPlain (c : Char) : Prop :=
  32 < c.toNat ∧ c.toNat < 127

theorem isPlain_of_isDigits {ds : List Char} (hds : IsDigits ds) : ∀ c ∈ ds, IsPlain c := by
  intro c hc
  have hbounds := isAsciiDigit_iff.mp (hds c hc)
  exact ⟨by omega, by omega⟩

theorem isPlain_chars (h : numeral.IsWritten) : ∀ c ∈ numeral.chars, IsPlain c := by
  have hminus : ∀ c ∈ minusChars numeral.negative, IsPlain c := by
    rw [minusChars]
    split
    · exact List.forall_mem_singleton.mpr ⟨by decide, by decide⟩
    · exact List.forall_mem_nil _
  have hfraction : ∀ c ∈ fractionChars numeral.fraction, IsPlain c := by
    rw [fractionChars]
    split
    · exact List.forall_mem_nil _
    · exact List.forall_mem_cons.mpr ⟨⟨by decide, by decide⟩, isPlain_of_isDigits h.fraction⟩
  have hpower : ∀ c ∈ powerChars numeral.power, IsPlain c := by
    cases hcase : numeral.power with
    | none => exact List.forall_mem_nil _
    | some power =>
        obtain ⟨negative, ds⟩ := power
        have hds := isPlain_of_isDigits (h.power negative ds hcase).2
        refine List.forall_mem_cons.mpr ⟨⟨by decide, by decide⟩, List.forall_mem_cons.mpr ⟨?_, hds⟩⟩
        cases negative <;> exact ⟨by decide, by decide⟩
  have hwhole := isPlain_of_isDigits (isDigits_of_isWhole h.whole).2
  exact List.forall_mem_append.mpr ⟨hminus, List.forall_mem_append.mpr
    ⟨hwhole, List.forall_mem_append.mpr ⟨hfraction, hpower⟩⟩⟩

theorem trim_chars (h : numeral.IsWritten) : trim numeral.chars = numeral.chars := by
  have hblank : ∀ c ∈ numeral.chars, isBlank c = false := by
    intro c hc
    obtain ⟨hlower, hupper⟩ := isPlain_chars h c hc
    exact isBlank_eq_false hlower hupper
  exact trim_eq_self (fun c hc => hblank c (List.mem_of_mem_head? hc))
    fun c hc => hblank c (List.mem_of_mem_getLast? hc)

theorem trimNumeral_chars (h : numeral.IsWritten) :
    trimNumeral numeral.chars = numeral.chars := by
  have hblank : ∀ c ∈ numeral.chars, isNumeralBlank c = false := by
    intro c hc
    obtain ⟨hlower, hupper⟩ := isPlain_chars h c hc
    rw [isNumeralBlank, isBlank_eq_false hlower hupper, Bool.false_and]
  exact dropWhile_both_eq_self (fun c hc => hblank c (List.mem_of_mem_head? hc))
    fun c hc => hblank c (List.mem_of_mem_getLast? hc)

theorem takeSign_append (negative : Bool) {whole : List Char} (hwhole : IsWhole whole)
    (rest : List Char) :
    takeSign (minusChars negative ++ (whole ++ rest)) = (negative, whole ++ rest) := by
  cases negative with
  | true => rfl
  | false =>
      obtain ⟨c, ds, rfl, hc⟩ := head?_of_isWhole hwhole
      have hplus : c ≠ '+' := by
        rintro rfl
        exact absurd hc (by decide)
      have hminus : c ≠ '-' := by
        rintro rfl
        exact absurd hc (by decide)
      show takeSign (c :: (ds ++ rest)) = _
      unfold takeSign
      split
      · rename_i hcons
        exact absurd (List.cons.inj hcons).1 hminus
      · rename_i hcons
        exact absurd (List.cons.inj hcons).1 hplus
      · rfl

theorem isStop_powerChars (power : Option (Bool × List Char)) : IsStop (powerChars power) := by
  cases power with
  | none => exact isStop_nil
  | some power => exact isStop_cons (by decide) (by decide) _

theorem isStop_fractionChars (fraction : List Char) (power : Option (Bool × List Char)) :
    IsStop (fractionChars fraction ++ powerChars power) := by
  rw [fractionChars]
  split
  · exact isStop_powerChars power
  · exact isStop_cons (by decide) (by decide) _

theorem takeFraction_append {fraction : List Char} (hfraction : IsDigits fraction)
    (power : Option (Bool × List Char)) :
    takeFraction (fractionChars fraction ++ powerChars power) =
      (digitValues fraction, powerChars power) := by
  rw [fractionChars]
  split
  · rename_i hempty
    rw [List.isEmpty_iff.mp hempty]
    cases power <;> rfl
  · rename_i hne
    exact takeDigits_append (by simpa using hne) hfraction (isStop_powerChars power)

theorem readExponent?_powerChars {power : Option (Bool × List Char)}
    (hpower : ∀ negative ds, power = some (negative, ds) → ds ≠ [] ∧ IsDigits ds) :
    readExponent? (powerChars power) = some (powerValue power) := by
  cases power with
  | none => rfl
  | some power =>
      obtain ⟨negative, ds⟩ := power
      obtain ⟨hne, hds⟩ := hpower negative ds rfl
      have hsign : takeSign ((if negative then '-' else '+') :: ds) = (negative, ds) := by
        cases negative <;> rfl
      have hdigits := takeDigits_append hne hds isStop_nil
      rw [List.append_nil] at hdigits
      obtain ⟨d, tail, htail⟩ : ∃ d tail, digitValues ds = d :: tail :=
        List.exists_cons_of_ne_nil (by simpa [digitValues] using hne)
      have hvalue := ofDigits_digitValues ds
      rw [htail] at hdigits hvalue
      simp only [powerChars, readExponent?, hsign, hdigits, hvalue, powerValue, signed]
      rfl

theorem any_isMark_of_isDigits {ds : List Char} (hds : IsDigits ds) :
    ds.any (fun c => c == '.' || c == 'e' || c == 'E') = false := by
  rw [List.any_eq_false]
  intro c hc hmark
  have hdigit := hds c hc
  simp only [Bool.or_eq_true, beq_iff_eq] at hmark
  rcases hmark with (rfl | rfl) | rfl <;> exact absurd hdigit (by decide)

theorem isRealNumeral_chars (h : numeral.IsWritten) :
    isRealNumeral numeral.chars = (!numeral.fraction.isEmpty || numeral.power.isSome) := by
  obtain ⟨hne, hwhole⟩ := isDigits_of_isWhole h.whole
  have hempty : numeral.chars.isEmpty = false := by simp [chars, hne]
  have hminus : (minusChars numeral.negative).any
      (fun c => c == '.' || c == 'e' || c == 'E') = false := by
    cases numeral.negative <;> rfl
  have hfraction : (fractionChars numeral.fraction).any
      (fun c => c == '.' || c == 'e' || c == 'E') = !numeral.fraction.isEmpty := by
    rw [fractionChars]
    cases numeral.fraction <;> rfl
  have hpower : (powerChars numeral.power).any
      (fun c => c == '.' || c == 'e' || c == 'E') = numeral.power.isSome := by
    cases numeral.power <;> rfl
  rw [isRealNumeral, hempty, chars, List.any_append, List.any_append, List.any_append, hminus,
    any_isMark_of_isDigits hwhole, hfraction, hpower]
  rfl

theorem readInt_chars (h : numeral.IsWritten) (hfraction : numeral.fraction = [])
    (hpower : numeral.power = none) :
    readInt numeral.chars =
      if Decimal.digitLimit < numeral.whole.length then .error (.tooLong numeral.whole.length)
      else .ok (signed numeral.negative numeral.digits) := by
  obtain ⟨hne, hwhole⟩ := isDigits_of_isWhole h.whole
  have hchars : numeral.chars = minusChars numeral.negative ++ (numeral.whole ++ []) := by
    rw [chars, hfraction, hpower]
    rfl
  have hdigits := takeDigits_append hne hwhole isStop_nil
  obtain ⟨d, tail, htail⟩ : ∃ d tail, digitValues numeral.whole = d :: tail :=
    List.exists_cons_of_ne_nil (by simpa [digitValues] using hne)
  have hvalue : ofDigits (d :: tail) = numeral.digits := by
    rw [← htail, ofDigits_digitValues, digits, hfraction, List.append_nil]
  have hlength : (d :: tail).length = numeral.whole.length := by
    rw [← htail, digitValues, List.length_map]
  rw [htail] at hdigits
  rw [readInt, trimNumeral_chars h, hchars, takeSign_append _ h.whole]
  simp only [hdigits, hvalue, hlength, signed]
  rfl

theorem map_lowerAscii_ne {whole rest : List Char} (hwhole : IsWhole whole) {c : Char}
    {word : List Char} (hc : 57 < c.toNat) :
    ((whole ++ rest).map lowerAscii == c :: word) = false := by
  obtain ⟨d, ds, rfl, hd⟩ := head?_of_isWhole hwhole
  have hbounds := isAsciiDigit_iff.mp hd
  have hlower : lowerAscii d = d := by
    have hnot : ¬ ('A' ≤ d) := by
      rw [le_iff_toNat_le, show 'A'.toNat = 65 from rfl]
      omega
    simp [lowerAscii, hnot]
  rw [beq_eq_false_iff_ne, List.cons_append, List.map_cons, hlower]
  intro heq
  rw [(List.cons.inj heq).1] at hbounds
  omega

theorem readReal?_chars (h : numeral.IsWritten) {x : Double}
    (hx : Double.ofDecimal? numeral.negative numeral.digits numeral.exponent = some x) :
    readReal? numeral.chars = some (.finite x) := by
  obtain ⟨hne, hwhole⟩ := isDigits_of_isWhole h.whole
  have hdigits := takeDigits_append hne hwhole
    (isStop_fractionChars numeral.fraction numeral.power)
  have hword : ∀ c word, 57 < c.toNat →
      ((numeral.whole ++ (fractionChars numeral.fraction ++ powerChars numeral.power)).map
        lowerAscii == c :: word) = false := fun c word => map_lowerAscii_ne h.whole
  have hinf := hword 'i' "nf".toList (by decide)
  have hinfinity := hword 'i' "nfinity".toList (by decide)
  have hnan := hword 'n' "an".toList (by decide)
  have hsome : (digitValues numeral.whole).isEmpty = false := by simp [digitValues, hne]
  have hvalue : ofDigits (digitValues numeral.whole ++ digitValues numeral.fraction) =
      numeral.digits := by
    rw [digitValues, digitValues, ← List.map_append, ← digitValues, ofDigits_digitValues, digits]
  have hlength : (digitValues numeral.fraction).length = numeral.fraction.length :=
    List.length_map _
  rw [readReal?, trimNumeral_chars h, chars, takeSign_append _ h.whole]
  dsimp only
  rw [show "inf".toList = 'i' :: "nf".toList from rfl,
    show "infinity".toList = 'i' :: "nfinity".toList from rfl,
    show "nan".toList = 'n' :: "an".toList from rfl, hinf, hinfinity, hnan, hdigits]
  dsimp only
  rw [takeFraction_append h.fraction, hsome]
  dsimp only
  rw [readExponent?_powerChars h.power, hvalue, hlength]
  dsimp only
  rw [← exponent, hx]
  rfl

theorem read_int (h : numeral.IsWritten) (hfraction : numeral.fraction = [])
    (hpower : numeral.power = none) :
    read (String.ofList numeral.chars) =
      if Decimal.digitLimit < numeral.whole.length then .error (.tooLong numeral.whole.length)
      else .ok (.int (signed numeral.negative numeral.digits)) := by
  have hreal : isRealNumeral numeral.chars = false := by
    rw [isRealNumeral_chars h, hfraction, hpower]
    rfl
  rw [read, String.toList_ofList, trim_chars h]
  simp only [hreal, readInt_chars h hfraction hpower, Bool.false_eq_true, if_false]
  by_cases hlength : Decimal.digitLimit < numeral.whole.length
  · rw [if_pos hlength, if_pos hlength]
    rfl
  · rw [if_neg hlength, if_neg hlength]

theorem read_real (h : numeral.IsWritten) (hreal : numeral.fraction ≠ [] ∨ numeral.power ≠ none)
    {x : Double}
    (hx : Double.ofDecimal? numeral.negative numeral.digits numeral.exponent = some x) :
    read (String.ofList numeral.chars) = .ok (.float x) := by
  have hmark : isRealNumeral numeral.chars = true := by
    rw [isRealNumeral_chars h, Bool.or_eq_true]
    rcases hreal with hfraction | hpower
    · exact .inl (by simpa using hfraction)
    · exact .inr (Option.isSome_iff_ne_none.mpr hpower)
  rw [read, String.toList_ofList, trim_chars h]
  simp only [hmark, readReal?_chars h hx]
  rfl

end Numeral

end Reshape.Number
