import Reshape.Proofs.Json.RoundTrip
import Reshape.Proofs.Pipeline.Accepted

namespace Reshape.Pipeline

open Reshape.Grammar Reshape.Text

variable {layout : Json.Layout} {level : Nat}

section Written

theorem isSpace_of_isJsonBlank {c : Char} (hc : Json.isJsonBlank c = true) : isSpace c = true := by
  simp only [Json.isJsonBlank, Bool.or_eq_true, beq_iff_eq] at hc
  rcases hc with ((rfl | rfl) | rfl) | rfl <;> decide

theorem isGap_lineBreak (layout : Json.Layout) (level : Nat) : IsGap (layout.lineBreak level) :=
  fun c hc => isSpace_of_isJsonBlank (Json.isJsonBlank_lineBreak layout level c hc)

theorem isGap_afterColon (layout : Json.Layout) : IsGap layout.afterColon :=
  fun c hc => isSpace_of_isJsonBlank (Json.isJsonBlank_afterColon layout c hc)

theorem ne_of_hexValue? {c : Char} {n : Nat} (h : Json.hexValue? c = some n) :
    c ≠ '"' ∧ c ≠ '\\' := by
  constructor <;> rintro rfl <;> cases h

theorem ne_of_mem_hexadecimal {n : Nat} (hn : n < 32) :
    ∀ c ∈ hexadecimal 4 n, c ≠ '"' ∧ c ≠ '\\' := by
  obtain ⟨a, b, c, d, hdigits, hvalue⟩ := Json.exists_hexadecimal hn
  unfold Json.hexQuad? at hvalue
  split at hvalue
  · rename_i ha hb hc hd
    simp only [hdigits, List.forall_mem_cons]
    exact ⟨ne_of_hexValue? ha, ne_of_hexValue? hb, ne_of_hexValue? hc, ne_of_hexValue? hd, nofun⟩
  · cases hvalue

theorem quotable_escapeChar (c : Char) : Quotable '"' (Json.escapeChar c) := by
  rw [Json.escapeChar]
  -- Seven characters have an escape of their own, the other control characters one of four digits.
  iterate 7
    split
    · exact .escaped _ .nil
  split
  · rename_i hcontrol
    exact .escaped 'u' (quotable_of_forall_mem (ne_of_mem_hexadecimal hcontrol))
  · rename_i hquote hbackslash _ _ _ _ _ _
    exact .plain (by simpa using hquote) (by simpa using hbackslash) .nil

theorem isString_stringChars (s : String) : IsString (Json.stringChars s) := by
  have hbody : ∀ cs : List Char, Quotable '"' (cs.flatMap Json.escapeChar) := by
    intro cs
    induction cs with
    | nil => exact .nil
    | cons c cs ih =>
        rw [List.flatMap_cons]
        exact (quotable_escapeChar c).append ih
  exact .mk (.inl rfl) (hbody s.toList)

theorem literalText_moreItems {vs : List Value} {gap : List Char}
    (hvs : ∀ v ∈ vs, LiteralText .value (Json.chars layout level v)) (hgap : IsGap gap) :
    LiteralText .moreItems (Json.moreItems layout level vs ++ (gap ++ [']'])) := by
  induction vs with
  | nil =>
      rw [Json.moreItems, List.nil_append]
      exact .endArray hgap
  | cons v vs ih =>
      obtain ⟨hv, hvs⟩ := List.forall_mem_cons.mp hvs
      rw [Json.moreItems]
      simp only [List.cons_append, List.append_assoc]
      exact .nextItem isGap_nil (isGap_lineBreak layout level) hv (ih hvs)

theorem literalText_moreFields {es : List (String × Value)} {gap : List Char}
    (hes : ∀ e ∈ es, LiteralText .value (Json.chars layout level e.2)) (hgap : IsGap gap) :
    LiteralText .moreFields (Json.moreEntries layout level es ++ (gap ++ ['\x7d'])) := by
  induction es with
  | nil =>
      rw [Json.moreEntries, List.nil_append]
      exact .endObject hgap
  | cons e es ih =>
      obtain ⟨key, v⟩ := e
      obtain ⟨hv, hes⟩ := List.forall_mem_cons.mp hes
      rw [Json.moreEntries]
      simp only [List.cons_append, List.append_assoc]
      exact .nextField isGap_nil (isGap_lineBreak layout level) (isString_stringChars key)
        isGap_nil (isGap_afterColon layout) hv (ih hes)

/-- The text of a document at any level of nesting is a literal. -/
theorem literalText_chars (layout : Json.Layout) {v : Value} (hv : v.IsDocument) (level : Nat) :
    LiteralText .value (Json.chars layout level v) := by
  induction hv generalizing level with
  | null => exact .word (by simp [Json.chars, words])
  | bool b => cases b <;> exact .word (by simp [Json.chars, words])
  | number n => exact .number n.isLiteral_chars
  | string s => exact .string (isString_stringChars s)
  | array items _ ih =>
      cases items with
      | nil => exact .array (.emptyArray isGap_nil)
      | cons v vs =>
          obtain ⟨hv, hvs⟩ := List.forall_mem_cons.mp ih
          have hmore := literalText_moreItems (fun w hw => hvs w hw (level + 1))
            (isGap_lineBreak layout level)
          rw [Json.chars]
          simp only [List.cons_append, List.append_assoc]
          exact .array (.firstItem (isGap_lineBreak layout (level + 1)) (hv (level + 1)) hmore)
  | object entries _ _ ih =>
      cases entries with
      | nil => exact .object (.emptyObject isGap_nil)
      | cons e es =>
          obtain ⟨key, v⟩ := e
          obtain ⟨hv, hes⟩ := List.forall_mem_cons.mp ih
          have hmore := literalText_moreFields (fun w hw => hes w hw (level + 1))
            (isGap_lineBreak layout level)
          rw [Json.chars]
          simp only [List.cons_append, List.append_assoc]
          exact .object (.firstField (isGap_lineBreak layout (level + 1))
            (isString_stringChars key) isGap_nil (isGap_afterColon layout) (hv (level + 1)) hmore)

end Written

section Quoted

/-- A text between single quotes. -/
def singleQuoted (s : String) : String :=
  String.ofList ('\'' :: (escapeChars '\'' s.toList ++ ['\'']))

theorem isString_singleQuoted (s : String) : IsString (singleQuoted s).toList := by
  rw [singleQuoted, String.toList_ofList]
  exact .mk (.inr rfl) (quotable_escapeChars '\'' s.toList)

theorem singleQuoted?_quoted (body : List Char) :
    singleQuoted? ('\'' :: (body ++ ['\''])) = some body := by
  rw [singleQuoted?, List.getLast?_concat, if_pos rfl, List.dropLast_concat]

theorem decode_singleQuoted (s : String) : decode (singleQuoted s) = .ok (.string s) := by
  have htrim : trim (singleQuoted s).toList = '\'' :: (escapeChars '\'' s.toList ++ ['\'']) := by
    rw [singleQuoted, String.toList_ofList]
    refine trim_eq_self ?_ (Json.isBlank_getLast?_concat ('\'' :: escapeChars '\'' s.toList) ?_)
    · rintro _ ⟨⟩
      decide
    · decide
  rw [decode, htrim, singleQuoted?_quoted]
  simp only [unescapeChars_escapeChars, String.ofList_toList]

end Quoted

theorem layout_literalArgument (name : String) {text : String} (hname : IsName name.toList)
    (htext : LiteralText .value text.toList) :
    Layout (.call false (.mk name [.mk none (.literal text)]))
      (name.toList ++ ('(' :: (text.toList ++ [')']))) := by
  have hargument : Layout (.argument (.mk none (.literal text))) text.toList := by
    simpa using Layout.positional (.literal htext)
  simpa using Layout.full hname isGap_nil
    (.firstArgument isGap_nil hargument (.endArguments isGap_nil))

theorem read_literalArgument (name : String) {text : String} (hname : IsName name.toList)
    (htext : LiteralText .value text.toList) :
    read (name ++ "(" ++ text ++ ")") = .ok [.mk name [.mk none (.literal text)]] := by
  have hcall := layout_literalArgument name hname htext
  refine read_of_isLayout ⟨[], _, [], isGap_nil, .calls hcall .last, isGap_nil, ?_⟩
  simp

/-- A text that a call takes as its one argument, and that stands for a document. -/
def Passes (text : String) (v : Value) : Prop :=
  read ("f(" ++ text ++ ")") = .ok [.mk "f" [.mk none (.literal text)]] ∧ decode text = .ok v

theorem passes_of_literalText {text : String} {v : Value} (htext : LiteralText .value text.toList)
    (hdecode : decode text = .ok v) : Passes text v :=
  ⟨read_literalArgument "f" (isName_cons (by decide) rfl) htext, hdecode⟩

/-- Documents pass as they are written, in any layout, and nothing else does; a string passes
between single quotes as well. A document is not written if an integer in it has too many digits
or, unless it is a string, if the indentation is too wide. -/
theorem passes_iff :
    (∀ (v : Value) (layout : Json.Layout),
      (∃ text, Json.write v layout = .ok text ∧ Passes text v) ↔
        v.IsDocument ∧ v.isShort = true ∧ (layout.isTooWide = true → v.isString = true)) ∧
      ∀ s : String, Passes (singleQuoted s) (.string s) := by
  refine ⟨fun v layout => ⟨?_, ?_⟩, fun s => ?_⟩
  · rintro ⟨text, hwrite, -, hdecode⟩
    obtain ⟨hwide, hshort, -⟩ := Json.write_eq_ok_iff.mp hwrite
    exact ⟨isDocument_of_decode hdecode, hshort, hwide⟩
  · rintro ⟨hv, hshort, hwide⟩
    have hwrite := Json.write_eq_ok_iff.mpr ⟨hwide, hshort, rfl⟩
    have htext : LiteralText .value (String.ofList (Json.chars layout 0 v)).toList := by
      rw [String.toList_ofList]
      exact literalText_chars layout hv 0
    exact ⟨_, hwrite, passes_of_literalText htext (decode_write hv hwrite)⟩
  · exact passes_of_literalText (.string (isString_singleQuoted s)) (decode_singleQuoted s)

theorem not_passes_wideNull :
    ¬ ∀ (v : Value) (layout : Json.Layout), v.IsDocument →
      ∃ text, Json.write v layout = .ok text ∧ Passes text v := by
  intro h
  obtain ⟨text, hwrite, -⟩ := h .null (.indented Json.Layout.widthBound) .null
  obtain ⟨hwide, -, -⟩ := Json.write_eq_ok_iff.mp hwrite
  cases hwide (by simp [Json.Layout.isTooWide])

end Reshape.Pipeline
