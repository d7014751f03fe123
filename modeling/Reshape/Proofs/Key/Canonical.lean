import Mathlib.Data.List.Induction
import Reshape.Proofs.Key.RoundTrip

namespace Reshape.Key

open Reshape.Grammar Reshape.Text

theorem value_lt_tenTo {digits : List Char} (h : ∀ c ∈ digits, isAsciiDigit c = true) :
    Decimal.value digits < tenTo digits.length := by
  induction digits using List.reverseRecOn with
  | nil => exact Nat.one_pos
  | append_singleton digits c ih =>
      obtain ⟨hdigits, hlast⟩ := List.forall_mem_append.mp h
      have hlt := ih hdigits
      have hc := isAsciiDigit_iff.mp (hlast c (List.mem_singleton_self c))
      rw [Decimal.value_append, List.length_append, List.length_singleton, tenTo_succ,
        tenTo_succ, tenTo_zero,
        show Decimal.value [c] = c.toNat - 48 by simp [Decimal.value, Decimal.extend]]
      omega

theorem IsBracketed.index_bounds {inner : List Char} {part : Part} (h : IsBracketed inner part)
    (hshort : part.IsShort) :
    ∀ i, part.value = .index i → 0 ≤ i ∧ Decimal.isShort i = true := by
  cases h with
  | index hne hdigits =>
      rintro i ⟨⟩
      refine ⟨Int.natCast_nonneg _, ?_⟩
      rw [Decimal.isShort, decide_eq_true_eq, Int.natAbs_natCast]
      exact Nat.lt_of_lt_of_le (value_lt_tenTo hdigits) (tenTo_le_tenTo hshort)
  | quoted => rintro i ⟨⟩

theorem Follows.index_bounds {cs : List Char} {part : Part} (h : Follows cs part)
    (hshort : part.IsShort) :
    ∀ i, part.value = .index i → 0 ≤ i ∧ Decimal.isShort i = true := by
  cases h with
  | dotted => exact nofun
  | bracketed hinner => exact hinner.index_bounds hshort

theorem Begins.index_bounds {cs : List Char} {part : Part} (h : Begins cs part)
    (hshort : part.IsShort) :
    ∀ i, part.value = .index i → 0 ≤ i ∧ Decimal.isShort i = true := by
  cases h with
  | bare => exact nofun
  | bracketed hinner => exact hinner.index_bounds hshort

theorem Continues.index_bounds {cs : List Char} {parts : List Part} (h : Continues cs parts)
    (hshort : ∀ part ∈ parts, part.IsShort) :
    ∀ i, Segment.index i ∈ parts.map Part.value → 0 ≤ i ∧ Decimal.isShort i = true := by
  induction h with
  | nil => exact nofun
  | cons hfirst _ ih =>
      obtain ⟨hpart, hparts⟩ := List.forall_mem_cons.mp hshort
      intro i hi
      rcases List.mem_cons.mp hi with hi | hi
      · exact hfirst.index_bounds hpart i hi.symm
      · exact ih hparts i hi

theorem IsSpelling.index_bounds {cs : List Char} {parts : List Part} (h : IsSpelling cs parts)
    (hshort : ∀ part ∈ parts, part.IsShort) :
    ∀ i, Segment.index i ∈ parts.map Part.value → 0 ≤ i ∧ Decimal.isShort i = true := by
  cases h with
  | mk hfirst hrest =>
      obtain ⟨hpart, hparts⟩ := List.forall_mem_cons.mp hshort
      intro i hi
      rcases List.mem_cons.mp hi with hi | hi
      · exact hfirst.index_bounds hpart i hi.symm
      · exact hrest.index_bounds hparts i hi

theorem IsSpelling.ne_nil {cs : List Char} {parts : List Part} (h : IsSpelling cs parts) :
    parts ≠ [] := by
  cases h
  exact List.cons_ne_nil _ _

/-- Only keys that are written without signs are read, and they can be written. -/
theorem of_read_eq_ok {text : String} {key : Key} (h : read text = .ok key) :
    key ≠ [] ∧ CountsForward key ∧ key.all Segment.isShort = true := by
  obtain ⟨parts, hspelling, hshort, rfl⟩ := read_eq_ok_iff.mp h
  have hindex := hspelling.index_bounds hshort
  refine ⟨by simpa using hspelling.ne_nil, fun i hi => (hindex i hi).1,
    List.all_eq_true.mpr fun segment hsegment => ?_⟩
  cases segment with
  | ident name => rfl
  | index i => exact (hindex i hsegment).2

/-- A key that is not empty and has no negative index is written and read back, unless an index
has too many digits, and then it is not written. So different keys have different texts, and a
text that is read has the same key as the text of its key. -/
theorem read_text_canonical :
    (∀ key : Key, key ≠ [] → CountsForward key → key.all Segment.isShort = true →
      ∃ text, key.text = .ok text ∧ read text = .ok key) ∧
    (∀ key : Key, key.all Segment.isShort = false → key.text = .error .integerTooLong) ∧
    (∀ (key other : Key) (text : String), key ≠ [] → CountsForward key → other ≠ [] →
      CountsForward other → key.text = .ok text → other.text = .ok text → key = other) ∧
    ∀ (text : String) (key : Key), read text = .ok key →
      ∃ text', key.text = .ok text' ∧ read text' = read text := by
  have hback : ∀ key : Key, key ≠ [] → CountsForward key → key.all Segment.isShort = true →
      ∃ text, key.text = .ok text ∧ read text = .ok key := fun key hne hforward hshort =>
    ⟨key.spelling, text_eq_ok_iff.mpr ⟨hshort, rfl⟩, read_spelling hne hforward hshort⟩
  refine ⟨hback, fun key hlong => ?_, ?_, ?_⟩
  · rw [Key.text, hlong]
    rfl
  · intro key other text hkey hforward hother hotherForward htext hotherText
    obtain ⟨hshort, rfl⟩ := text_eq_ok_iff.mp htext
    obtain ⟨hotherShort, heq⟩ := text_eq_ok_iff.mp hotherText
    have hread := read_spelling hkey hforward hshort
    rw [← heq, read_spelling hother hotherForward hotherShort] at hread
    exact (Except.ok.inj hread).symm
  · intro text key hread
    obtain ⟨hne, hforward, hshort⟩ := of_read_eq_ok hread
    rw [hread]
    exact hback key hne hforward hshort

/-- A key whose names need quotes, and escapes in them. -/
def escapedKey : Key :=
  [.ident "", .ident "a\"]\\\n.", .index 10]

theorem read_text_escapedKey :
    ∃ text, escapedKey.text = .ok text ∧ read text = .ok escapedKey := by
  have hne : escapedKey ≠ [] := nofun
  have hforward : CountsForward escapedKey := by
    intro i hi
    simp only [escapedKey, List.mem_cons, reduceCtorEq, Segment.index.injEq, List.not_mem_nil,
      or_false, false_or] at hi
    omega
  have hten : Decimal.isShort 10 = true := by
    rw [Decimal.isShort, decide_eq_true_eq]
    exact Nat.lt_of_lt_of_le (by decide : (10 : Int).natAbs < tenTo 2) (tenTo_le_tenTo (by decide))
  exact read_text_canonical.1 escapedKey hne hforward (by simp [escapedKey, Segment.isShort, hten])

theorem not_text_longIndex :
    ¬ ∀ key : Key, key ≠ [] → CountsForward key →
      ∃ text, key.text = .ok text ∧ read text = .ok key := by
  intro h
  have hforward : CountsForward [.index (tenTo Decimal.digitLimit)] := by
    intro i hi
    obtain rfl := Segment.index.inj (List.mem_singleton.mp hi)
    exact Int.natCast_nonneg _
  obtain ⟨text, htext, -⟩ := h _ (List.cons_ne_nil _ _) hforward
  obtain ⟨hshort, -⟩ := text_eq_ok_iff.mp htext
  rw [List.all_cons, Segment.isShort, Decimal.isShort, Int.natAbs_natCast, Bool.and_eq_true,
    decide_eq_true_eq] at hshort
  exact Nat.lt_irrefl _ hshort.1

end Reshape.Key
