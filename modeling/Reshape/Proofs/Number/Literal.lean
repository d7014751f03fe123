import Reshape.Number.Literal
import Reshape.Proofs.Text.Ascii

namespace Reshape.Number

open Reshape.Text

def IsDigits (cs : List Char) : Prop :=
  ∀ c ∈ cs, isAsciiDigit c = true

inductive IsMinus : List Char → Prop
  | none : IsMinus []
  | minus : IsMinus ['-']

/-- An integer part has no leading zero. -/
inductive IsWhole : List Char → Prop
  | zero : IsWhole ['0']
  | digits {c : Char} {ds : List Char} (hc : isAsciiDigit c = true) (hzero : c ≠ '0')
      (hds : IsDigits ds) : IsWhole (c :: ds)

inductive IsFraction : List Char → Prop
  | none : IsFraction []
  | digits {ds : List Char} (hne : ds ≠ []) (hds : IsDigits ds) : IsFraction ('.' :: ds)

inductive IsSign : List Char → Prop
  | none : IsSign []
  | plus : IsSign ['+']
  | minus : IsSign ['-']

inductive IsPower : List Char → Prop
  | none : IsPower []
  | digits {c : Char} {sign ds : List Char} (hc : c = 'e' ∨ c = 'E') (hsign : IsSign sign)
      (hne : ds ≠ []) (hds : IsDigits ds) : IsPower (c :: (sign ++ ds))

inductive IsLiteral : List Char → Prop
  | mk {minus whole fraction power : List Char} (hminus : IsMinus minus) (hwhole : IsWhole whole)
      (hfraction : IsFraction fraction) (hpower : IsPower power) :
      IsLiteral (minus ++ whole ++ fraction ++ power)

/-- Whether a number cannot go on with a character. -/
def isOutside (c : Char) : Bool :=
  !isAsciiDigit c && c != '.' && c != 'e' && c != 'E'

/-- A text that does not go on like a number. -/
def Ends (rest : List Char) : Prop :=
  ∀ c ∈ rest.head?, isOutside c = true

section Take

theorem takeRun_append {ds rest : List Char} (hds : IsDigits ds)
    (hrest : ∀ c ∈ rest.head?, isAsciiDigit c = false) :
    takeRun isAsciiDigit (ds ++ rest) = (ds, rest) := by
  rw [takeRun, takeWhile_append hds hrest, dropWhile_append hds hrest]

theorem isDigits_takeRun (cs : List Char) : IsDigits (takeRun isAsciiDigit cs).1 :=
  fun _ hc => List.all_eq_true.mp List.all_takeWhile _ hc

theorem head?_of_isWhole {whole : List Char} (h : IsWhole whole) :
    ∃ c ds, whole = c :: ds ∧ isAsciiDigit c = true := by
  cases h with
  | zero => exact ⟨'0', [], rfl, by decide⟩
  | digits hc => exact ⟨_, _, rfl, hc⟩

theorem takeMinus_append {minus whole : List Char} (hminus : IsMinus minus)
    (hwhole : IsWhole whole) (rest : List Char) :
    takeMinus (minus ++ (whole ++ rest)) = (minus, whole ++ rest) := by
  obtain ⟨c, ds, rfl, hc⟩ := head?_of_isWhole hwhole
  cases hminus with
  | minus => rfl
  | none =>
      have hne : c ≠ '-' := by
        rintro rfl
        exact absurd hc (by decide)
      rw [List.nil_append, List.cons_append, takeMinus]
      simp [hne]

theorem takeWhole_append {whole rest : List Char} (hwhole : IsWhole whole)
    (hrest : ∀ c ∈ rest.head?, isAsciiDigit c = false) :
    takeWhole (whole ++ rest) = some (whole, rest) := by
  cases hwhole with
  | zero => rfl
  | digits hc hzero hds =>
      rw [List.cons_append, takeWhole, if_neg (by simpa using hzero), if_pos hc,
        takeRun_append hds hrest]

theorem takePointDigits_append {fraction rest : List Char} (hfraction : IsFraction fraction)
    (hrest : ∀ c ∈ rest.head?, isAsciiDigit c = false)
    (hpoint : fraction = [] → ∀ c ∈ rest.head?, c ≠ '.') :
    takePointDigits (fraction ++ rest) = (fraction, rest) := by
  cases hfraction with
  | none =>
      cases rest with
      | nil => rfl
      | cons c rest =>
          have hc : c ≠ '.' := hpoint rfl c rfl
          rw [List.nil_append, takePointDigits]
          simp [hc]
  | digits hne hds =>
      rw [List.cons_append, takePointDigits, takeRun_append hds hrest]
      simp [hne]

theorem takeSignChars_append {sign ds : List Char} (hsign : IsSign sign) (hne : ds ≠ [])
    (hds : IsDigits ds) (rest : List Char) :
    takeSignChars (sign ++ (ds ++ rest)) = (sign, ds ++ rest) := by
  cases hsign with
  | plus => rfl
  | minus => rfl
  | none =>
      obtain ⟨d, ds, rfl⟩ := List.exists_cons_of_ne_nil hne
      have hd := hds d List.mem_cons_self
      have hplus : d ≠ '+' := by
        rintro rfl
        exact absurd hd (by decide)
      have hminus : d ≠ '-' := by
        rintro rfl
        exact absurd hd (by decide)
      rw [List.nil_append, List.cons_append, takeSignChars]
      · intro tail htail
        exact hplus (List.cons.inj htail).1
      · intro tail htail
        exact hminus (List.cons.inj htail).1

theorem takePower_append {power rest : List Char} (hpower : IsPower power) (hrest : Ends rest) :
    takePower (power ++ rest) = (power, rest) := by
  cases hpower with
  | none =>
      cases rest with
      | nil => rfl
      | cons c rest =>
          have hc : isOutside c = true := hrest c rfl
          simp only [isOutside, Bool.and_eq_true, bne_iff_ne] at hc
          rw [List.nil_append, takePower]
          simp [hc.1.2, hc.2]
  | @digits c sign ds hc hsign hne hds =>
      have hdigit : ∀ c ∈ rest.head?, isAsciiDigit c = false := by
        intro d hd
        have hout := hrest d hd
        simp only [isOutside, Bool.and_eq_true, Bool.not_eq_true'] at hout
        exact hout.1.1.1
      have hmark : (c == 'e' || c == 'E') = true := by simpa using hc
      rw [List.cons_append, List.append_assoc, takePower]
      simp only [takeSignChars_append hsign hne hds, takeRun_append hds hdigit, hmark]
      simp [hne]

theorem takeLiteral?_append {text rest : List Char} (htext : IsLiteral text) (hrest : Ends rest) :
    takeLiteral? (text ++ rest) = some (text, rest) := by
  obtain ⟨hminus, hwhole, hfraction, hpower⟩ := htext
  rename_i minus whole fraction power
  -- Neither what follows the fraction nor what follows the whole goes on with a digit.
  have hout : ∀ c, isOutside c = true → isAsciiDigit c = false ∧ c ≠ '.' := by
    intro c hc
    simp only [isOutside, Bool.and_eq_true, Bool.not_eq_true', bne_iff_ne] at hc
    exact ⟨hc.1.1.1, hc.1.1.2⟩
  have hpowerHead : ∀ c ∈ (power ++ rest).head?, isAsciiDigit c = false ∧ c ≠ '.' := by
    cases hpower with
    | none => exact fun c hc => hout c (hrest c hc)
    | digits hc =>
        intro d hd
        cases hd
        rcases hc with rfl | rfl <;> decide
  have hfractionHead : ∀ c ∈ (fraction ++ (power ++ rest)).head?, isAsciiDigit c = false := by
    cases hfraction with
    | none => exact fun c hc => (hpowerHead c hc).1
    | digits =>
        intro d hd
        cases hd
        decide
  have hmoved : minus ++ whole ++ fraction ++ power ++ rest =
      minus ++ (whole ++ (fraction ++ (power ++ rest))) := by simp
  rw [hmoved, takeLiteral?, takeMinus_append hminus hwhole]
  simp only [takeWhole_append hwhole hfractionHead, takePower_append hpower hrest,
    takePointDigits_append hfraction (fun c hc => (hpowerHead c hc).1)
      fun _ c hc => (hpowerHead c hc).2]

end Take

section Taken

theorem isMinus_takeMinus (cs : List Char) : IsMinus (takeMinus cs).1 := by
  unfold takeMinus
  split
  · exact .minus
  · exact .none

theorem isWhole_of_takeWhole {cs whole rest : List Char} (h : takeWhole cs = some (whole, rest)) :
    IsWhole whole := by
  cases cs with
  | nil => cases h
  | cons c cs =>
      rw [takeWhole] at h
      split at h
      · cases h
        exact .zero
      · rename_i hzero
        split at h
        · rename_i hc
          cases h
          exact .digits hc (by simpa using hzero) (isDigits_takeRun cs)
        · cases h

theorem isFraction_takePointDigits (cs : List Char) : IsFraction (takePointDigits cs).1 := by
  unfold takePointDigits
  split
  · rename_i rest
    dsimp only
    split
    · exact .none
    · rename_i hne
      exact .digits (by simpa using hne) (isDigits_takeRun rest)
  · exact .none

theorem isSign_takeSignChars (cs : List Char) : IsSign (takeSignChars cs).1 := by
  unfold takeSignChars
  split
  · exact .plus
  · exact .minus
  · exact .none

theorem isPower_takePower (cs : List Char) : IsPower (takePower cs).1 := by
  cases cs with
  | nil => exact .none
  | cons c rest =>
      simp only [takePower]
      split
      · rename_i h
        simp only [Bool.and_eq_true, Bool.or_eq_true, beq_iff_eq, Bool.not_eq_true',
          List.isEmpty_eq_false_iff] at h
        exact .digits h.1 (isSign_takeSignChars rest) h.2 (isDigits_takeRun _)
      · exact .none

theorem isLiteral_of_takeLiteral? {cs text rest : List Char}
    (h : takeLiteral? cs = some (text, rest)) : IsLiteral text := by
  rw [takeLiteral?] at h
  dsimp only at h
  split at h
  · cases h
  · rename_i whole after hwhole
    cases h
    exact .mk (isMinus_takeMinus cs) (isWhole_of_takeWhole hwhole)
      (isFraction_takePointDigits after) (isPower_takePower _)

end Taken

end Reshape.Number
