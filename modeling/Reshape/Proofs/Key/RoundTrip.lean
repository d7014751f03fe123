import Reshape.Proofs.Key.Reading

namespace Reshape.Key

open Reshape.Grammar Reshape.Text

/-- No index of the key counts from the end. -/
def CountsForward (key : Key) : Prop :=
  ∀ i, Segment.index i ∈ key → 0 ≤ i

/-- The part that a segment is written as. -/
def Segment.part : Segment → Part
  | ident key => .ident key
  | index i => .index (Decimal.signedDigits i)

theorem signedDigits_natCast (n : Nat) : Decimal.signedDigits n = Decimal.digits n := by
  simp [Decimal.signedDigits]

theorem Segment.value_part {segment : Segment} (h : ∀ i, segment = .index i → 0 ≤ i) :
    segment.part.value = segment := by
  cases segment with
  | ident name => rfl
  | index i =>
      obtain ⟨n, rfl⟩ := Int.eq_ofNat_of_zero_le (h i rfl)
      rw [part, Part.value, signedDigits_natCast, Decimal.value_digits]

theorem Segment.isShort_part_iff {segment : Segment} (h : ∀ i, segment = .index i → 0 ≤ i) :
    segment.part.IsShort ↔ segment.isShort = true := by
  cases segment with
  | ident name => exact iff_of_true trivial rfl
  | index i =>
      obtain ⟨n, rfl⟩ := Int.eq_ofNat_of_zero_le (h i rfl)
      rw [part, Part.IsShort, isShort, signedDigits_natCast, Decimal.isShort_iff,
        Int.natAbs_natCast]

theorem CountsForward.map_value_part {key : Key} (h : CountsForward key) :
    (key.map Segment.part).map Part.value = key := by
  rw [List.map_map]
  refine (List.map_congr_left fun segment hsegment => ?_).trans (List.map_id key)
  exact Segment.value_part fun i hi => h i (hi ▸ hsegment)

theorem CountsForward.ident_cons {key : Key} (h : CountsForward key) (name : String) :
    CountsForward (.ident name :: key) := by
  intro i hi
  rcases List.mem_cons.mp hi with hi | hi
  · cases hi
  · exact h i hi

theorem CountsForward.isShort_parts_iff {key : Key} (h : CountsForward key) :
    (∀ part ∈ key.map Segment.part, part.IsShort) ↔ key.all Segment.isShort = true := by
  rw [List.forall_mem_map, List.all_eq_true]
  exact forall₂_congr fun segment hsegment =>
    Segment.isShort_part_iff fun i hi => h i (hi ▸ hsegment)

theorem isIdentChar_of_bare {c : Char} (hc : (c == '_' || isAsciiAlphanumeric c) = true) :
    isIdentChar c = true := by
  rw [Bool.or_eq_true, beq_iff_eq, isAsciiAlphanumeric_iff] at hc
  have hrange : c.toNat = 95 ∨ (97 ≤ c.toNat ∧ c.toNat ≤ 122) ∨ (65 ≤ c.toNat ∧ c.toNat ≤ 90) ∨
      (48 ≤ c.toNat ∧ c.toNat ≤ 57) := by
    rcases hc with rfl | hc
    · exact .inl rfl
    · exact .inr hc
  have hne : ∀ d : Char, (d.toNat ≤ 46 ∨ d.toNat = 91 ∨ d.toNat = 93) → c ≠ d := by
    rintro d hd rfl
    omega
  rw [isIdentChar, isBlank_eq_false (by omega) (by omega)]
  simp [hne '.' (by decide), hne '[' (by decide), hne ']' (by decide), hne '"' (by decide),
    hne '\'' (by decide)]

theorem flatMap_escapeChar (cs : List Char) : cs.flatMap escapeChar = escapeChars '"' cs := by
  rw [escapeChars]
  congr 1
  funext c
  rw [escapeChar]
  simp [or_comm]

theorem isBareIdent_of_isBare {name : String} (h : isBare name = true) :
    IsBareIdent name.toList := by
  obtain ⟨hne, hall⟩ := by simpa [isBare] using h
  exact isBareIdent_iff.mpr
    ⟨by simpa using hne, fun c hc => isIdentChar_of_bare (by simpa using hall c hc)⟩

theorem isBracketed_quoted (name : String) :
    IsBracketed ('"' :: (name.toList.flatMap escapeChar ++ ['"'])) (.ident name) := by
  have hescaped := escaped_unescapeChars (quotable_escapeChars '"' name.toList)
  rw [unescapeChars_escapeChars] at hescaped
  have hquoted := IsBracketed.quoted (.inl rfl) hescaped
  rwa [← flatMap_escapeChar, String.ofList_toList] at hquoted

theorem isBracketed_index (n : Nat) : IsBracketed (Decimal.digits n) (.index (Decimal.digits n)) :=
  .index (Decimal.digits_ne_nil n) (Decimal.isAsciiDigit_of_mem_digits n)

theorem isBare_or_exists_isBracketed {segment : Segment}
    (hindex : ∀ i, segment = .index i → 0 ≤ i) :
    (∃ name, segment = .ident name ∧ isBare name = true) ∨
      ∃ inner, IsBracketed inner segment.part ∧ segment.chars = '[' :: (inner ++ [']']) ∧
        segment.firstChars = segment.chars := by
  cases segment with
  | ident name =>
      cases hbare : isBare name with
      | true => exact .inl ⟨name, rfl, hbare⟩
      | false =>
          refine .inr ⟨_, isBracketed_quoted name, ?_, ?_⟩
          · simp [Segment.chars, hbare]
          · simp [Segment.firstChars, hbare]
  | index i =>
      obtain ⟨n, rfl⟩ := Int.eq_ofNat_of_zero_le (hindex i rfl)
      refine .inr ⟨Decimal.digits n, ?_, ?_, rfl⟩
      · rw [Segment.part, signedDigits_natCast]
        exact isBracketed_index n
      · rw [Segment.chars, signedDigits_natCast]
        rfl

theorem follows_chars {segment : Segment} (hindex : ∀ i, segment = .index i → 0 ≤ i) :
    Follows segment.chars segment.part := by
  rcases isBare_or_exists_isBracketed hindex with
    ⟨name, rfl, hbare⟩ | ⟨inner, hinner, hchars, -⟩
  · have hdotted := Follows.dotted (isBareIdent_of_isBare hbare)
    rw [String.ofList_toList] at hdotted
    rwa [Segment.chars, if_pos hbare]
  · rw [hchars]
    exact .bracketed hinner

theorem begins_firstChars {segment : Segment} (hindex : ∀ i, segment = .index i → 0 ≤ i) :
    Begins segment.firstChars segment.part := by
  rcases isBare_or_exists_isBracketed hindex with
    ⟨name, rfl, hbare⟩ | ⟨inner, hinner, hchars, hfirst⟩
  · have hbegins := Begins.bare (isBareIdent_of_isBare hbare)
    rw [String.ofList_toList] at hbegins
    rwa [Segment.firstChars, if_pos hbare]
  · rw [hfirst, hchars]
    exact .bracketed hinner

theorem continues_chars {key : Key} (hkey : CountsForward key) :
    Continues (key.flatMap Segment.chars) (key.map Segment.part) := by
  induction key with
  | nil => exact .nil
  | cons segment key ih =>
      rw [List.flatMap_cons]
      exact .cons (follows_chars fun i hi => hkey i (hi ▸ List.mem_cons_self))
        (ih fun i hi => hkey i (List.mem_cons_of_mem _ hi))

section Spelling

variable {key : Key} (hne : key ≠ []) (hkey : CountsForward key)

include hne hkey

theorem isSpelling_spelling : IsSpelling key.spelling.toList (key.map Segment.part) := by
  obtain ⟨first, rest, rfl⟩ := List.exists_cons_of_ne_nil hne
  rw [spelling, String.toList_ofList, chars]
  exact .mk (begins_firstChars fun i hi => hkey i (hi ▸ List.mem_cons_self))
    (continues_chars fun i hi => hkey i (List.mem_cons_of_mem _ hi))

/-- A key that is not empty is parsed back, if its indices do not count from the end. -/
theorem parse_spelling : parse key.spelling = .ok (key.map Segment.part) :=
  parse_of_isSpelling (isSpelling_spelling hne hkey)

theorem read_spelling (hshort : key.all Segment.isShort = true) :
    read key.spelling = .ok key :=
  read_eq_ok_iff.mpr ⟨_, isSpelling_spelling hne hkey, hkey.isShort_parts_iff.mpr hshort,
    hkey.map_value_part⟩

end Spelling

/-- A text is parsed as a key, and is read as this key if its indices are short enough. -/
def Spells (text : String) (key : Key) : Prop :=
  parse text = .ok (key.map Segment.part) ∧
    (key.all Segment.isShort = true → read text = .ok key)

theorem spells_spelling {key : Key} (hne : key ≠ []) (hkey : CountsForward key) :
    Spells key.spelling key :=
  ⟨parse_spelling hne hkey, read_spelling hne hkey⟩

theorem Spells.unique {text : String} {key other : Key} (h : Spells text key)
    (hkey : CountsForward key) (hother : CountsForward other) (h' : Spells text other) :
    key = other := by
  have hparts : key.map Segment.part = other.map Segment.part :=
    Except.ok.inj (h.1.symm.trans h'.1)
  rw [← hkey.map_value_part, hparts, hother.map_value_part]

theorem text_eq_ok_iff {key : Key} {text : String} :
    key.text = .ok text ↔ key.all Segment.isShort = true ∧ key.spelling = text := by
  rw [Key.text]
  split
  · rename_i hshort
    simp [hshort]
  · rename_i hlong
    exact iff_of_false nofun fun h => hlong h.1

end Reshape.Key
