import Mathlib.Tactic.IntervalCases
import Reshape.Json.Read
import Reshape.Json.Write
import Reshape.Proofs.Number.Text
import Reshape.Proofs.Value.Document

namespace Reshape.Json

open Reshape.Text

/-! ### Marks -/

inductive IsMark : Char → Token → Prop
  | openArray : IsMark '[' .openArray
  | closeArray : IsMark ']' .closeArray
  | openObject : IsMark '\x7b' .openObject
  | closeObject : IsMark '\x7d' .closeObject
  | colon : IsMark ':' .colon
  | comma : IsMark ',' .comma

theorem takeToken_mark {c : Char} {token : Token} (h : IsMark c token) (total : Nat)
    (rest : List Char) : takeToken total c rest = (token, rest) := by
  cases h <;> rfl

theorem takeToken_ne_closeArray {c : Char} (hc : c ≠ ']') (total : Nat) (rest : List Char) :
    (takeToken total c rest).1 ≠ .closeArray := by
  intro h
  unfold takeToken at h
  split at h
  · cases h
  split at h
  · rename_i hclose
    exact hc (beq_iff_eq.mp hclose)
  iterate 4
    split at h
    · cases h
  split at h
  · split at h <;> cases h
  · split at h <;> cases h

theorem isJsonBlank_mark {c : Char} {token : Token} (h : IsMark c token) :
    isJsonBlank c = false := by
  cases h <;> rfl

/-! ### Strings -/

theorem takeEscape_simple {opening : Nat} {c e : Char} (hc : c ≠ 'u')
    (he : simpleEscape? c = some e) (rest : List Char) :
    takeEscape opening (c :: rest) = .ok (e, rest) := by
  rw [takeEscape, if_neg (by simpa using hc), he]

theorem exists_hexadecimal {n : Nat} (hn : n < 32) :
    ∃ a b c d, hexadecimal 4 n = [a, b, c, d] ∧ hexQuad? a b c d = some n := by
  have hall : ∀ n < 32, ∃ a b c d, hexadecimal 4 n = [a, b, c, d] ∧ hexQuad? a b c d = some n := by
    intro n hn
    interval_cases n <;> exact ⟨_, _, _, _, rfl, rfl⟩
  exact hall n hn

theorem takeEscape_control {opening n : Nat} (hn : n < 32) {rest : List Char} (hrest : rest ≠ []) :
    takeEscape opening ('u' :: (hexadecimal 4 n ++ rest)) = .ok (Char.ofNat n, rest) := by
  obtain ⟨a, b, c, d, hdigits, hvalue⟩ := exists_hexadecimal hn
  obtain ⟨e, more, rfl⟩ := List.exists_cons_of_ne_nil hrest
  have hquad : takeQuad (hexadecimal 4 n ++ e :: more) = .ok (n, e :: more) := by
    simp only [hdigits, List.cons_append, List.nil_append, takeQuad, hvalue, List.isEmpty_cons]
  have hhigh : isHighSurrogate n = false := by
    simp only [isHighSurrogate, Bool.and_eq_false_iff, decide_eq_false_iff_not]
    omega
  have hlow : isLowSurrogate n = false := by
    simp only [isLowSurrogate, Bool.and_eq_false_iff, decide_eq_false_iff_not]
    omega
  rw [takeEscape, if_pos (by decide), takeUnicodeEscape, hquad]
  simp [charOfUnit, hhigh, hlow]

theorem takeString_escape {opening : Nat} {e : Char} {cs rest : List Char}
    (h : takeEscape opening cs = .ok (e, rest)) :
    takeString opening ('\\' :: cs) =
      (takeString opening rest).map fun (s, left) => (e :: s, left) := by
  rw [takeString, if_neg (by decide), if_pos (by decide)]
  split
  · rename_i herror
    rw [h] at herror
    cases herror
  · rename_i hok
    rw [h] at hok
    cases hok
    rfl

theorem takeString_escapeChar (opening : Nat) (c : Char) {rest : List Char} (hrest : rest ≠ []) :
    takeString opening (escapeChar c ++ rest) =
      (takeString opening rest).map fun (s, left) => (c :: s, left) := by
  rw [escapeChar]
  iterate 7
    split
    · rename_i heq
      rw [beq_iff_eq.mp heq]
      exact takeString_escape (takeEscape_simple (by decide) rfl rest)
  split
  · rename_i hcontrol
    have hescape : takeEscape opening ('u' :: (hexadecimal 4 c.toNat ++ rest)) = .ok (c, rest) := by
      rw [takeEscape_control hcontrol hrest, Char.ofNat_toNat]
    exact takeString_escape hescape
  · rename_i hquote hbackslash _ _ _ _ _ hcontrol
    rw [List.singleton_append, takeString, if_neg hquote, if_neg hbackslash, if_neg hcontrol]

theorem takeString_append (opening : Nat) (cs rest : List Char) :
    takeString opening (cs.flatMap escapeChar ++ '"' :: rest) = .ok (cs, rest) := by
  induction cs with
  | nil => rw [List.flatMap_nil, List.nil_append, takeString, if_pos (by decide)]
  | cons c cs ih =>
      rw [List.flatMap_cons, List.append_assoc, takeString_escapeChar opening c (by simp), ih]
      rfl

theorem takeToken_string (total : Nat) (s : String) (rest : List Char) :
    takeToken total '"' (s.toList.flatMap escapeChar ++ '"' :: rest) = (.string s, rest) := by
  rw [takeToken]
  iterate 6
    rw [if_neg (by decide)]
  rw [if_pos (by decide), takeString_append]
  simp

/-! ### Scalars -/

theorem dropWord?_of_ne {w c : Char} (h : w ≠ c) (word cs : List Char) :
    dropWord? (w :: word) (c :: cs) = none := by
  rw [dropWord?, if_neg h]

theorem takeScalar_word {word : String} {v : Value} (h : (word, v) ∈ words) (offset : Nat)
    (rest : List Char) : takeScalar offset (word.toList ++ rest) = .ok (v, rest) := by
  have hword : takeWord? (word.toList ++ rest) = some (v, rest) := by
    simp only [words, List.mem_cons, Prod.mk.injEq, List.not_mem_nil, or_false] at h
    rcases h with ⟨rfl, rfl⟩ | ⟨rfl, rfl⟩ | ⟨rfl, rfl⟩ <;> rfl
  rw [takeScalar, hword]

theorem exists_of_isLiteral {cs : List Char} (h : Number.IsLiteral cs) :
    ∃ d ds, isAsciiDigit d = true ∧ (cs = d :: ds ∨ cs = '-' :: d :: ds) := by
  cases h with
  | @mk minus whole fraction power hminus hwhole hfraction hpower =>
      obtain ⟨d, ds, rfl, hd⟩ := Number.head?_of_isWhole hwhole
      refine ⟨d, ds ++ (fraction ++ power), hd, ?_⟩
      cases hminus with
      | none => exact .inl (by simp)
      | minus => exact .inr (by simp)

theorem ne_of_isAsciiDigit {c d : Char} (hd : isAsciiDigit d = true)
    (hc : isAsciiDigit c = false) : c ≠ d := by
  rintro rfl
  rw [hc] at hd
  cases hd

theorem takeWord?_isLiteral {cs : List Char} (h : Number.IsLiteral cs) (rest : List Char) :
    takeWord? (cs ++ rest) = none := by
  obtain ⟨d, ds, hd, rfl | rfl⟩ := exists_of_isLiteral h
  · have hn := dropWord?_of_ne (ne_of_isAsciiDigit (c := 'n') hd (by decide))
    have ht := dropWord?_of_ne (ne_of_isAsciiDigit (c := 't') hd (by decide))
    have hf := dropWord?_of_ne (ne_of_isAsciiDigit (c := 'f') hd (by decide))
    simp [takeWord?, words, hn, ht, hf]
  · rfl

theorem find?_foreignNumbers_isLiteral {cs : List Char} (h : Number.IsLiteral cs)
    (rest : List Char) :
    foreignNumbers.find? (fun w => (dropWord? w.toList (cs ++ rest)).isSome) = none := by
  obtain ⟨d, ds, hd, rfl | rfl⟩ := exists_of_isLiteral h
  · have hN := dropWord?_of_ne (ne_of_isAsciiDigit (c := 'N') hd (by decide))
    have hI := dropWord?_of_ne (ne_of_isAsciiDigit (c := 'I') hd (by decide))
    have hminus := dropWord?_of_ne (ne_of_isAsciiDigit (c := '-') hd (by decide))
    simp [foreignNumbers, hN, hI, hminus]
  · have hI : 'I' ≠ d := ne_of_isAsciiDigit hd (by decide)
    simp [foreignNumbers, dropWord?, hI]

theorem takeScalar_number {offset : Nat} {n : Number} (hn : n.isShort = true) {rest : List Char}
    (hrest : Number.Ends rest) :
    takeScalar offset (n.chars ++ rest) = .ok (.number n, rest) := by
  have hliteral := n.isLiteral_chars
  rw [takeScalar, takeWord?_isLiteral hliteral, find?_foreignNumbers_isLiteral hliteral]
  dsimp only
  rw [Number.takeLiteral?_append hliteral hrest]
  dsimp only
  rw [Number.read_chars hn]

theorem takeToken_scalar {total : Nat} {c : Char} {cs rest : List Char} {v : Value}
    (hc : c ∉ ['[', ']', '\x7b', '\x7d', ':', ',', '"'])
    (hscalar : ∀ offset, takeScalar offset (c :: cs) = .ok (v, rest)) :
    takeToken total c cs = (.scalar v, rest) := by
  simp only [List.mem_cons, List.not_mem_nil, or_false, not_or] at hc
  obtain ⟨h₁, h₂, h₃, h₄, h₅, h₆, h₇⟩ := hc
  simp only [takeToken, beq_iff_eq, h₁, h₂, h₃, h₄, h₅, h₆, h₇, if_false, hscalar]

end Reshape.Json
