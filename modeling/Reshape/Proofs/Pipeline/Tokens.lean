import Reshape.Pipeline.Token
import Reshape.Proofs.Grammar.Quotation
import Reshape.Proofs.Number.Literal

namespace Reshape.Pipeline

open Reshape.Grammar Reshape.Text

def IsGap (cs : List Char) : Prop :=
  ∀ c ∈ cs, isSpace c = true

inductive IsName : List Char → Prop
  | mk {c : Char} {rest : List Char} (hc : isNameStart c = true)
      (hrest : ∀ d ∈ rest, isNameChar d = true) : IsName (c :: rest)

theorem isName_cons {c : Char} {rest : List Char} (hc : isNameStart c = true)
    (hrest : rest.all isNameChar = true) : IsName (c :: rest) :=
  .mk hc (List.all_eq_true.mp hrest)

inductive IsString : List Char → Prop
  | mk {quote : Char} {body : List Char} (hquote : quote = '"' ∨ quote = '\'')
      (hbody : Quotable quote body) : IsString (quote :: (body ++ [quote]))

/-- A text that does not go on like a name. -/
def NameEnds (rest : List Char) : Prop :=
  ∀ c ∈ rest.head?, isNameChar c = false

namespace Terminal

/-- The text of a terminal that is always spelled alike. -/
def spelling? : Terminal → Option (List Char)
  | number | string | name => none
  | trueWord => some ['t', 'r', 'u', 'e']
  | falseWord => some ['f', 'a', 'l', 's', 'e']
  | nullWord => some ['n', 'u', 'l', 'l']
  | colon => some [':']
  | comma => some [',']
  | dot => some ['.']
  | equal => some ['=']
  | openBrace => some ['\x7b']
  | closeBrace => some ['\x7d']
  | openParen => some ['(']
  | closeParen => some [')']
  | openBracket => some ['[']
  | closeBracket => some [']']

/-- The code points that a terminal can begin with, as ranges. -/
def starts : Terminal → List (Nat × Nat)
  | number => [(45, 45), (48, 57)]
  | string => [(34, 34), (39, 39)]
  | name => [(65, 90), (95, 95), (97, 122)]
  | trueWord => [(116, 116)]
  | falseWord => [(102, 102)]
  | nullWord => [(110, 110)]
  | colon => [(58, 58)]
  | comma => [(44, 44)]
  | dot => [(46, 46)]
  | equal => [(61, 61)]
  | openBrace => [(123, 123)]
  | closeBrace => [(125, 125)]
  | openParen => [(40, 40)]
  | closeParen => [(41, 41)]
  | openBracket => [(91, 91)]
  | closeBracket => [(93, 93)]

end Terminal

open Terminal (spelling? starts ofName)

inductive Spells : Terminal → List Char → Prop
  | number {text : List Char} (h : Number.IsLiteral text) : Spells .number text
  | string {text : List Char} (h : IsString text) : Spells .string text
  | name {text : List Char} (h : IsName text) : Spells .name text
  | exact {t : Terminal} {text : List Char} (h : spelling? t = some text) : Spells t text

/-- Behind a name, a word or a number the text goes on with something else. -/
def Follows (t : Terminal) (rest : List Char) : Prop :=
  (t = .name ∨ t.isWord = true → NameEnds rest) ∧ (t = .number → Number.Ends rest)

/-- A name is not one of the words that the row offers. -/
def Distinct (row : Row Terminal) (t : Terminal) (text : List Char) : Prop :=
  t = .name → some (ofName text) ∈ row → ofName text = .name

section Starts

theorem isNameStart_iff {c : Char} :
    isNameStart c = true ↔ inRanges (starts .name) c.toNat = true := by
  have hc : c = '_' ↔ c.toNat = 95 :=
    ⟨fun h => by rw [h]; rfl, fun h => Char.ext (UInt32.toNat_inj.mp h)⟩
  simp only [isNameStart, starts, inRanges_iff, Bool.or_eq_true, Bool.and_eq_true,
    decide_eq_true_eq, le_iff_toNat_le, beq_iff_eq, hc, List.mem_cons, List.not_mem_nil, or_false,
    exists_eq_or_imp, exists_eq_left]
  have ha : 'a'.toNat = 97 := rfl
  have hz : 'z'.toNat = 122 := rfl
  have hA : 'A'.toNat = 65 := rfl
  have hZ : 'Z'.toNat = 90 := rfl
  omega

theorem exists_start_of_spells {t : Terminal} {text : List Char} (h : Spells t text) :
    ∃ c rest, text = c :: rest ∧ inRanges (starts t) c.toNat = true := by
  cases h with
  | number h =>
      obtain ⟨hminus, hwhole, -, -⟩ := h
      cases hminus with
      | minus => exact ⟨'-', _, rfl, rfl⟩
      | none =>
          obtain ⟨c, ds, rfl, hc⟩ := Number.head?_of_isWhole hwhole
          refine ⟨c, _, rfl, ?_⟩
          rw [isAsciiDigit_iff] at hc
          exact inRanges_iff.mpr ⟨(48, 57), by decide, hc⟩
  | string h =>
      obtain ⟨hquote, -⟩ := h
      rcases hquote with rfl | rfl <;> exact ⟨_, _, rfl, rfl⟩
  | name h =>
      obtain ⟨hc, -⟩ := h
      exact ⟨_, _, rfl, isNameStart_iff.mp hc⟩
  | exact h => cases t <;> cases h <;> exact ⟨_, _, rfl, rfl⟩

def apart (ranges others : List (Nat × Nat)) : Bool :=
  ranges.all fun r => others.all fun s => r.2 < s.1 || s.2 < r.1

theorem eq_or_apart (t t' : Terminal) :
    t = t' ∨ (t = .name ∧ t'.isWord = true) ∨ (t.isWord = true ∧ t' = .name) ∨
      apart (starts t) (starts t') = true := by
  cases t <;> cases t' <;> decide

theorem not_inRanges_of_apart {ranges others : List (Nat × Nat)} (h : apart ranges others = true)
    {n : Nat} (hn : inRanges ranges n = true) : ¬ inRanges others n = true := by
  intro hothers
  obtain ⟨r, hr, hrn⟩ := inRanges_iff.mp hn
  obtain ⟨s, hs, hsn⟩ := inRanges_iff.mp hothers
  have hrs := List.all_eq_true.mp (List.all_eq_true.mp h r hr) s hs
  simp only [Bool.or_eq_true, decide_eq_true_eq] at hrs
  omega

theorem isSpace_eq_false_of_starts {t : Terminal} {c : Char}
    (h : inRanges (starts t) c.toNat = true) : isSpace c = false := by
  have hspaces : ∀ n ∈ [32, 9, 12, 13, 10], inRanges (starts t) n = false := by
    cases t <;> decide
  have hne : ∀ d : Char, d.toNat ∈ [32, 9, 12, 13, 10] → c ≠ d := by
    rintro d hd rfl
    rw [hspaces _ hd] at h
    cases h
  simp [isSpace, hne ' ' (by decide), hne '\t' (by decide), hne '\u000c' (by decide),
    hne '\r' (by decide), hne '\n' (by decide)]

end Starts

section Take

theorem take?_of_spelling? {t : Terminal} {text : List Char} (h : spelling? t = some text) :
    t.take? = takeExact? text := by
  cases t <;> cases h <;> rfl

theorem takeExact?_append (wanted rest : List Char) :
    takeExact? wanted (wanted ++ rest) = some (wanted, rest) := by
  have hprefix : wanted.isPrefixOf (wanted ++ rest) = true := by
    rw [List.isPrefixOf_iff_prefix]
    exact List.prefix_append wanted rest
  rw [takeExact?, if_pos hprefix, List.drop_left]

theorem takeName?_append {text rest : List Char} (htext : IsName text) (hrest : NameEnds rest) :
    takeName? (text ++ rest) = some (text, rest) := by
  obtain ⟨hc, hchars⟩ := htext
  rw [List.cons_append, takeName?, if_pos hc, takeWhile_append hchars hrest,
    dropWhile_append hchars hrest]

theorem takeString?_append {text : List Char} (htext : IsString text) (rest : List Char) :
    takeString? (text ++ rest) = some (text, rest) := by
  obtain ⟨hquote, hbody⟩ := htext
  rename_i quote body
  rw [List.cons_append, List.append_assoc, List.singleton_append, takeString?]
  rcases hquote with rfl | rfl
  · rw [takeQuotation?_append (by decide) hbody]
    rfl
  · rw [takeQuotation?_eq_none (by decide), takeQuotation?_append (by decide) hbody]
    rfl

theorem take?_append {t : Terminal} {text rest : List Char} (h : Spells t text)
    (hrest : Follows t rest) : t.take? (text ++ rest) = some (text, rest) := by
  cases h with
  | number h => exact Number.takeLiteral?_append h (hrest.2 rfl)
  | string h => exact takeString?_append h rest
  | name h => exact takeName?_append h (hrest.1 (.inl rfl))
  | exact h => rw [take?_of_spelling? h, takeExact?_append]

theorem isName_of_takeName? {cs text rest : List Char} (h : takeName? cs = some (text, rest)) :
    IsName text ∧ NameEnds rest := by
  cases cs with
  | nil => cases h
  | cons c cs =>
      rw [takeName?] at h
      split at h
      · rename_i hc
        cases h
        refine ⟨.mk hc fun d hd => List.all_eq_true.mp List.all_takeWhile d hd, fun d hd => ?_⟩
        have hnot := List.head?_dropWhile_not isNameChar cs
        rw [Option.mem_def.mp hd] at hnot
        simpa using hnot
      · cases h

theorem spells_of_take? {t : Terminal} {cs text rest : List Char}
    (h : t.take? cs = some (text, rest)) : Spells t text ∧ (t = .name → NameEnds rest) := by
  have hexact : ∀ wanted, spelling? t = some wanted →
      Spells t text ∧ (t = .name → NameEnds rest) := by
    intro wanted hwanted
    rw [take?_of_spelling? hwanted, takeExact?] at h
    split at h <;> cases h
    refine ⟨.exact hwanted, ?_⟩
    rintro rfl
    cases hwanted
  cases t with
  | number => exact ⟨.number (Number.isLiteral_of_takeLiteral? h), by simp⟩
  | string =>
      refine ⟨.string ?_, by simp⟩
      rcases Option.or_eq_some_iff.mp h with h | ⟨-, h⟩ <;>
        obtain ⟨body, hbody, rfl⟩ := exists_of_takeQuotation? h
      · exact .mk (.inl rfl) hbody
      · exact .mk (.inr rfl) hbody
  | name => exact ⟨.name (isName_of_takeName? h).1, fun _ => (isName_of_takeName? h).2⟩
  | _ => exact hexact _ rfl

end Take

section Words

theorem isName_of_isWord {t : Terminal} (ht : t.isWord = true) {text : List Char}
    (h : Spells t text) : IsName text ∧ ofName text = t := by
  cases h with
  | number | string | name => cases ht
  | exact h =>
      cases t with
      | trueWord => cases h; exact ⟨isName_cons (by decide) (by decide), by decide⟩
      | falseWord => cases h; exact ⟨isName_cons (by decide) (by decide), by decide⟩
      | nullWord => cases h; exact ⟨isName_cons (by decide) (by decide), by decide⟩
      | _ => cases ht

theorem spells_ofName {text : List Char} (h : IsName text) : Spells (ofName text) text := by
  rw [ofName]
  split
  · rename_i heq
    exact .exact (by rw [heq]; rfl)
  · split
    · rename_i heq
      exact .exact (by rw [heq]; rfl)
    · split
      · rename_i heq
        exact .exact (by rw [heq]; rfl)
      · exact .name h

theorem ofName_eq_name_or_isWord (text : List Char) :
    ofName text = .name ∨ (ofName text).isWord = true := by
  rw [ofName]
  split
  · exact .inr rfl
  · split
    · exact .inr rfl
    · split
      · exact .inr rfl
      · exact .inl rfl

end Words

section Scan

theorem mem_soughtIn_iff {row : Row Terminal} {t : Terminal} :
    some t ∈ soughtIn row ↔ some t ∈ row ∧ ¬ (t.isWord = true ∧ some .name ∈ row) := by
  rw [soughtIn]
  split
  · rename_i hname
    rw [List.contains_iff_mem] at hname
    simp [hname]
  · rename_i hname
    rw [List.contains_iff_mem] at hname
    simp [hname]

/-- Of the terminals that are looked for only one begins like a given text. -/
theorem eq_of_take? {row : Row Terminal} {t t' : Terminal} (ht : some t ∈ soughtIn row)
    (ht' : some t' ∈ soughtIn row) {cs text text' rest rest' : List Char}
    (h : t.take? cs = some (text, rest)) (h' : t'.take? cs = some (text', rest')) : t = t' := by
  obtain ⟨c, tail, rfl, hc⟩ := exists_start_of_spells (spells_of_take? h).1
  obtain ⟨c', tail', rfl, hc'⟩ := exists_start_of_spells (spells_of_take? h').1
  have hcs := (append_of_take? h).1.symm.trans (append_of_take? h').1
  obtain rfl : c = c' := (List.cons.inj hcs).1
  rw [mem_soughtIn_iff] at ht ht'
  rcases eq_or_apart t t' with heq | ⟨rfl, hword⟩ | ⟨hword, rfl⟩ | hapart
  · exact heq
  · exact absurd ⟨hword, ht.1⟩ ht'.2
  · exact absurd ⟨hword, ht'.1⟩ ht.2
  · exact absurd hc' (not_inRanges_of_apart hapart hc)

theorem findSome?_eq {row : Row Terminal} {t : Terminal} (ht : some t ∈ soughtIn row)
    {cs text rest : List Char} (h : t.take? cs = some (text, rest)) :
    (soughtIn row).findSome? (scanOne cs) = some ⟨t, text, rest⟩ := by
  have hone : scanOne cs (some t) = some ⟨t, text, rest⟩ := by
    rw [scanOne, h]
    rfl
  cases hfind : (soughtIn row).findSome? (scanOne cs) with
  | none =>
      rw [List.findSome?_eq_none_iff.mp hfind _ ht] at hone
      cases hone
  | some found =>
      obtain ⟨offer, hoffer, hfound⟩ := List.exists_of_findSome?_eq_some hfind
      cases offer with
      | none => cases hfound
      | some t' =>
          obtain ⟨⟨text', rest'⟩, htake, -⟩ := Option.map_eq_some_iff.mp hfound
          rw [← eq_of_take? ht hoffer h htake, hone] at hfound
          exact hfound.symm

/-- A token at the front of a text is found, if the row offers it and the text behind it
does not go on in the same way. -/
theorem scan_of_spells {row : Row Terminal} {t : Terminal} (ht : some t ∈ row)
    {text rest : List Char} (h : Spells t text) (hrest : Follows t rest)
    (hdistinct : Distinct row t text) : scan row (text ++ rest) = some ⟨t, text, rest⟩ := by
  by_cases hword : t.isWord = true ∧ some .name ∈ row
  · -- A word is found as a name first.
    obtain ⟨hname, hofName⟩ := isName_of_isWord hword.1 h
    have hsought : some .name ∈ soughtIn row :=
      mem_soughtIn_iff.mpr ⟨hword.2, fun hnot => by cases hnot.1⟩
    rw [scan, findSome?_eq hsought (takeName?_append hname (hrest.1 (.inr hword.1))),
      Option.map_some, retype]
    simp [hofName, ht]
  · rw [scan, findSome?_eq (mem_soughtIn_iff.mpr ⟨ht, hword⟩) (take?_append h hrest),
      Option.map_some, retype]
    dsimp only
    split
    · rename_i hretyped
      simp only [Bool.and_eq_true, decide_eq_true_eq, List.contains_iff_mem] at hretyped
      rw [hdistinct hretyped.1 hretyped.2, hretyped.1]
    · rfl

theorem spells_of_scan {row : Row Terminal} {cs : List Char} {found : Scanned Terminal}
    (h : scan row cs = some found) :
    some found.terminal ∈ row ∧ Spells found.terminal found.text ∧
      Distinct row found.terminal found.text ∧ (found.terminal = .name → NameEnds found.rest) := by
  obtain ⟨plain, hplain, rfl⟩ := Option.map_eq_some_iff.mp h
  obtain ⟨offer, hoffer, hone⟩ := List.exists_of_findSome?_eq_some hplain
  cases offer with
  | none => cases hone
  | some t =>
      obtain ⟨⟨text, rest⟩, htake, rfl⟩ := Option.map_eq_some_iff.mp hone
      obtain ⟨hspells, hends⟩ := spells_of_take? htake
      rw [retype]
      dsimp only
      split
      · rename_i hretyped
        simp only [Bool.and_eq_true, decide_eq_true_eq, List.contains_iff_mem] at hretyped
        obtain ⟨rfl, hmem⟩ := hretyped
        cases hspells with
        | exact hexact => cases hexact
        | name hname =>
            exact ⟨hmem, spells_ofName hname, fun hofName _ => hofName, fun _ => hends rfl⟩
      · rename_i hkept
        refine ⟨(mem_soughtIn_iff.mp hoffer).1, hspells, ?_, hends⟩
        rintro rfl hmem
        exact absurd (by simpa using hmem) (by simpa using hkept)

end Scan

end Reshape.Pipeline
