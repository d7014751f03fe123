import Reshape.Key.Expand
import Reshape.Proofs.Decimal
import Reshape.Proofs.Key.Spelling
import Reshape.Proofs.Outcome

/-!
Which texts are read as flat keys. Main statement: `read_iff_isSpelling`, with the spellings that
are not read since an index in them is too long, and what becomes of every other text when
objects are expanded.
-/

namespace Reshape.Key

open Reshape.Grammar Reshape.Text

/-- The segment that a part stands for, however long it is. -/
def Part.value : Part → Segment
  | ident key => .ident key
  | index digits => .index (Decimal.value digits)

/-- A part that is read. -/
def Part.IsShort : Part → Prop
  | ident _ => True
  | index digits => digits.length ≤ Decimal.digitLimit

theorem Part.segment_eq_ok_iff {part : Part} {segment : Segment} :
    part.segment = .ok segment ↔ part.IsShort ∧ part.value = segment := by
  cases part with
  | ident name => simp [Part.segment, Part.IsShort, Part.value]
  | index digits =>
      rw [Part.segment, Part.IsShort, Part.value]
      split
      · rename_i hlong
        refine iff_of_false ?_ fun h => Nat.not_le_of_lt hlong h.1
        rintro ⟨⟩
      · rename_i hshort
        simp [Nat.le_of_not_lt hshort]

theorem Part.segment_eq_error_iff {part : Part} {e : ReadError} :
    part.segment = .error e ↔ ∃ digits, part = .index digits ∧
      Decimal.digitLimit < digits.length ∧ e = .indexTooLong digits.length := by
  cases part with
  | ident name => exact iff_of_false nofun nofun
  | index digits =>
      rw [Part.segment]
      split
      · rename_i hlong
        simp [hlong, eq_comm]
      · rename_i hshort
        simp [hshort]

theorem mapM_segment_eq_ok_iff {parts : List Part} {key : Key} :
    parts.mapM Part.segment = .ok key ↔
      (∀ part ∈ parts, part.IsShort) ∧ parts.map Part.value = key := by
  simp only [mapM_eq_ok_iff, Part.segment_eq_ok_iff]
  rw [List.forall₂_and_left, ← List.forall₂_map_left_iff, List.forall₂_eq_eq_eq]

/-- The first index that is too long is what reading fails with. -/
theorem mapM_segment_eq_error_iff {parts : List Part} {e : ReadError} :
    parts.mapM Part.segment = .error e ↔
      ∃ before digits after, parts = before ++ .index digits :: after ∧
        (∀ part ∈ before, part.IsShort) ∧ Decimal.digitLimit < digits.length ∧
        e = .indexTooLong digits.length := by
  rw [mapM_eq_error_iff]
  constructor
  · rintro ⟨before, part, after, rfl, hbefore, hpart⟩
    obtain ⟨digits, rfl, hlong, rfl⟩ := Part.segment_eq_error_iff.mp hpart
    refine ⟨before, digits, after, rfl, fun part hmem => ?_, hlong, rfl⟩
    obtain ⟨segment, hsegment⟩ := hbefore part hmem
    exact (Part.segment_eq_ok_iff.mp hsegment).1
  · rintro ⟨before, digits, after, rfl, hbefore, hlong, rfl⟩
    refine ⟨before, .index digits, after, rfl, fun part hmem => ⟨part.value, ?_⟩, ?_⟩
    · exact Part.segment_eq_ok_iff.mpr ⟨hbefore part hmem, rfl⟩
    · exact Part.segment_eq_error_iff.mpr ⟨digits, rfl, hlong, rfl⟩

section Read

variable {text : String}

theorem read_eq_ok_iff {key : Key} :
    read text = .ok key ↔
      ∃ parts, IsSpelling text.toList parts ∧ (∀ part ∈ parts, part.IsShort) ∧
        parts.map Part.value = key := by
  rw [read]
  cases hparse : parse text with
  | error d =>
      refine iff_of_false nofun ?_
      rintro ⟨parts, hspelling, -, -⟩
      rw [parse_of_isSpelling hspelling] at hparse
      cases hparse
  | ok parts =>
      have hunique : ∀ others, IsSpelling text.toList others → others = parts :=
        fun others hothers => Except.ok.inj ((parse_of_isSpelling hothers).symm.trans hparse)
      dsimp only
      rw [mapM_segment_eq_ok_iff]
      constructor
      · rintro ⟨hshort, hkey⟩
        exact ⟨parts, isSpelling_of_parse hparse, hshort, hkey⟩
      · rintro ⟨others, hothers, hshort, hkey⟩
        obtain rfl := hunique others hothers
        exact ⟨hshort, hkey⟩

theorem read_eq_indexTooLong_iff {n : Nat} :
    read text = .error (.indexTooLong n) ↔
      ∃ before digits after, IsSpelling text.toList (before ++ .index digits :: after) ∧
        (∀ part ∈ before, part.IsShort) ∧ Decimal.digitLimit < digits.length ∧
        n = digits.length := by
  rw [read]
  cases hparse : parse text with
  | error d =>
      refine iff_of_false nofun ?_
      rintro ⟨before, digits, after, hspelling, -⟩
      rw [parse_of_isSpelling hspelling] at hparse
      cases hparse
  | ok parts =>
      dsimp only
      rw [mapM_segment_eq_error_iff]
      simp only [← parse_eq_ok_iff, hparse, Except.ok.injEq, ReadError.indexTooLong.injEq]

theorem read_eq_malformed_iff {d : Diagnostic} :
    read text = .error (.malformed d) ↔ parse text = .error d := by
  rw [read]
  cases hparse : parse text with
  | error d' => simp
  | ok parts =>
      refine iff_of_false (fun h => ?_) nofun
      obtain ⟨-, -, -, -, -, -, ⟨⟩⟩ := mapM_segment_eq_error_iff.mp h

end Read

section Expand

variable {text : String} (before after : Entries Value) (v done : Value)

theorem expandEntries_append (entries : Entries Value) :
    expandEntries done (before ++ entries) =
      (expandEntries done before).bind (expandEntries · entries) := by
  induction before generalizing done with
  | nil => rfl
  | cons entry before ih =>
      obtain ⟨k, w⟩ := entry
      rw [List.cons_append, expandEntries, expandEntries]
      split
      · rfl
      · split
        · rfl
        · exact ih _

theorem expand_append_cons :
    expand (.object (before ++ (text, v) :: after)) =
      (expandEntries .null before).bind (expandEntries · ((text, v) :: after)) := by
  rw [← expandEntries_append]
  cases before with
  | nil => rfl
  | cons entry before => rfl

end Expand

/-- The texts that are read as a key are its spellings, except those with an index of more digits
than are read: these fail, as does the expansion of an object with such a key. Any other text is
refused, and as the key of an entry it is kept as one name. -/
theorem read_iff_isSpelling (text : String) :
    (∀ key, read text = .ok key ↔
        ∃ parts, IsSpelling text.toList parts ∧ (∀ part ∈ parts, part.IsShort) ∧
          parts.map Part.value = key) ∧
      (∀ n, read text = .error (.indexTooLong n) ↔
        ∃ before digits after, IsSpelling text.toList (before ++ .index digits :: after) ∧
          (∀ part ∈ before, part.IsShort) ∧ Decimal.digitLimit < digits.length ∧
          n = digits.length) ∧
      (∀ n, read text = .error (.indexTooLong n) →
        ∀ (before after : Entries Value) (v : Value),
          expand (.object (before ++ (text, v) :: after)) =
            (expandEntries .null before).bind fun _ => .error (.indexTooLong n)) ∧
      ((∀ parts, ¬ IsSpelling text.toList parts) →
        (∃ d, read text = .error (.malformed d) ∧ d.rule = "flat key" ∧ d.text = text) ∧
          ofText text = .ok [.ident text] ∧
          ∀ (before after : Entries Value) (v : Value),
            expand (.object (before ++ (text, v) :: after)) =
              (expandEntries .null before).bind fun done =>
                expandEntries (done.merge (.object [(text, v)])) after) := by
  refine ⟨fun key => read_eq_ok_iff, fun n => read_eq_indexTooLong_iff, ?_, fun hnone => ?_⟩
  · intro n hread before after v
    rw [expand_append_cons]
    congr 1
    funext done
    rw [expandEntries, ofText, hread]
  · cases hparse : parse text with
    | ok parts => exact absurd (isSpelling_of_parse hparse) (hnone parts)
    | error d =>
        have hread := read_eq_malformed_iff.mpr hparse
        have htext : ofText text = .ok [.ident text] := by rw [ofText, hread]
        refine ⟨⟨d, hread, rule_of_parse_eq_error hparse⟩, htext, fun before after v => ?_⟩
        rw [expand_append_cons]
        congr 1
        funext done
        rw [expandEntries, htext]
        rfl

theorem ofText_a_blank_b :
    (∀ parts, ¬ IsSpelling "a b".toList parts) ∧ ofText "a b" = .ok [.ident "a b"] := by
  have hrefused : (parse "a b").isOk = false := by decide +kernel
  have hnone : ∀ parts, ¬ IsSpelling "a b".toList parts := by
    intro parts hparts
    rw [parse_of_isSpelling hparts] at hrefused
    cases hrefused
  exact ⟨hnone, ((read_iff_isSpelling "a b").2.2.2 hnone).2.1⟩

/-- One digit more than are read. -/
def longDigits : List Char :=
  List.replicate Decimal.digitLimit '0' ++ ['1']

/-- A bracket with too many digits is a spelling of an index, here of the index one. It is not
read, and it is not refused as a flat key, so that it is not kept when an object is expanded
either. -/
theorem not_read_iff_longDigits :
    let text := String.ofList ('[' :: (longDigits ++ [']']))
    IsSpelling text.toList [.index longDigits] ∧ (Part.index longDigits).value = .index 1 ∧
      (∀ key, read text ≠ .ok key) ∧ (∀ d, read text ≠ .error (.malformed d)) ∧
      expand (.object [(text, .null)]) =
        .error (.indexTooLong (Decimal.digitLimit + 1)) := by
  intro text
  have hlength : longDigits.length = Decimal.digitLimit + 1 := by
    rw [longDigits, List.length_append, List.length_replicate, List.length_singleton]
  have hvalue : Decimal.value longDigits = 1 := Decimal.value_zeros_append _ ['1']
  have hdigits : IsBracketed longDigits (.index longDigits) := by
    refine .index (by simp [longDigits]) (List.forall_mem_append.mpr ⟨fun c hc => ?_, ?_⟩)
    · rw [List.eq_of_mem_replicate hc]
      rfl
    · exact List.forall_mem_singleton.mpr rfl
  have hspelling : IsSpelling text.toList [.index longDigits] := by
    rw [String.toList_ofList]
    simpa using IsSpelling.mk (.bracketed hdigits) .nil
  have hread : read text = .error (.indexTooLong (Decimal.digitLimit + 1)) :=
    read_eq_indexTooLong_iff.mpr
      ⟨[], longDigits, [], hspelling, nofun, by omega, hlength.symm⟩
  refine ⟨hspelling, by rw [Part.value, hvalue]; rfl, fun key => ?_, fun d => ?_, ?_⟩
  · rw [hread]
    nofun
  · rw [hread]
    nofun
  · rw [expand, expandEntries, ofText, hread]
    nofun

end Reshape.Key
