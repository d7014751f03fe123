import Reshape.Pipeline.Literal
import Reshape.Proofs.Json.Document
import Reshape.Proofs.Json.Text

namespace Reshape.Json

open Reshape.Text
open Value (IsDocument IsWritable)

variable {total level : Nat} {layout : Layout} {stack stack' : List Frame}
  {expected expected' : Expectation} {gap : List Char}

/-! ### White space -/

theorem isJsonBlank_lineBreak (layout : Layout) (level : Nat) :
    ∀ c ∈ layout.lineBreak level, isJsonBlank c = true := by
  cases layout with
  | compact => exact List.forall_mem_nil _
  | indented width =>
      refine List.forall_mem_cons.mpr ⟨by decide, fun c hc => ?_⟩
      rw [List.eq_of_mem_replicate hc]
      decide

theorem isJsonBlank_afterColon (layout : Layout) :
    ∀ c ∈ layout.afterColon, isJsonBlank c = true := by
  cases layout with
  | compact => exact List.forall_mem_nil _
  | indented => exact List.forall_mem_singleton.mpr (by decide)

theorem lexemes_append (hgap : ∀ c ∈ gap, isJsonBlank c = true) (cs : List Char) :
    lexemes total (gap ++ cs) = lexemes total cs := by
  induction gap with
  | nil => rfl
  | cons c gap ih =>
      obtain ⟨hc, hgap⟩ := List.forall_mem_cons.mp hgap
      rw [List.cons_append, lexemes, if_pos hc, ih hgap]

theorem ends_cons {c : Char} (hc : Number.isOutside c = true) (rest : List Char) :
    Number.Ends (c :: rest) := by
  rintro _ ⟨⟩
  exact hc

theorem ends_append {c : Char} (hgap : ∀ c ∈ gap, isJsonBlank c = true)
    (hc : Number.isOutside c = true) (rest : List Char) : Number.Ends (gap ++ c :: rest) := by
  cases gap with
  | nil => exact ends_cons hc rest
  | cons b gap =>
      refine ends_cons ?_ _
      have hb := hgap b List.mem_cons_self
      simp only [isJsonBlank, Bool.or_eq_true, beq_iff_eq] at hb
      rcases hb with ((rfl | rfl) | rfl) | rfl <;> decide

theorem ends_moreItems (vs : List Value) {rest : List Char} (hrest : Number.Ends rest) :
    Number.Ends (moreItems layout level vs ++ rest) := by
  cases vs with
  | nil => exact hrest
  | cons v vs => exact ends_cons (by decide) _

theorem ends_moreEntries (es : List (String × Value)) {rest : List Char}
    (hrest : Number.Ends rest) : Number.Ends (moreEntries layout level es ++ rest) := by
  cases es with
  | nil => exact hrest
  | cons e es => exact ends_cons (by decide) _

/-! ### The reader over written documents -/

theorem run_of_step {c : Char} {cs rest : List Char} {token : Token}
    (hc : isJsonBlank c = false) (htoken : takeToken total c cs = (token, rest))
    (hstep : ∀ offset, step stack expected ⟨offset, token⟩ = .ok (stack', expected')) :
    run total stack expected (lexemes total (c :: cs)) =
      run total stack' expected' (lexemes total rest) := by
  have hlexemes : lexemes total (c :: cs) =
      ⟨total - (cs.length + 1), token⟩ :: lexemes total rest := by
    rw [lexemes, hc, htoken]
    rfl
  rw [hlexemes, run, hstep]

theorem run_mark {c : Char} {token : Token} (h : IsMark c token) (rest : List Char)
    (hstep : ∀ offset, step stack expected ⟨offset, token⟩ = .ok (stack', expected')) :
    run total stack expected (lexemes total (c :: rest)) =
      run total stack' expected' (lexemes total rest) :=
  run_of_step (isJsonBlank_mark h) (takeToken_mark h total rest) hstep

theorem run_string (s : String) (rest : List Char)
    (hstep : ∀ offset, step stack expected ⟨offset, .string s⟩ = .ok (stack', expected')) :
    run total stack expected (lexemes total (stringChars s ++ rest)) =
      run total stack' expected' (lexemes total rest) := by
  rw [stringChars, List.cons_append, List.cons_append, List.append_assoc]
  exact run_of_step (by decide) (takeToken_string total s rest) hstep

/-- The reader takes a document from its text, wherever it stands. -/
def IsReadBack (layout : Layout) (v : Value) : Prop :=
  ∀ (total level : Nat) (stack : List Frame) (rest : List Char), Number.Ends rest →
    run total stack .value (lexemes total (chars layout level v ++ rest)) =
      run total stack (.after v) (lexemes total rest)

theorem run_moreItems {vs : List Value} (hvs : ∀ v ∈ vs, IsReadBack layout v)
    (hgap : ∀ c ∈ gap, isJsonBlank c = true) (done : List Value) (v : Value) (rest : List Char) :
    run total (.items done :: stack) (.after v)
        (lexemes total (moreItems layout level vs ++ (gap ++ ']' :: rest))) =
      run total stack (.after (.array (done.reverse ++ v :: vs))) (lexemes total rest) := by
  induction vs generalizing done v with
  | nil =>
      rw [moreItems, List.nil_append, lexemes_append hgap,
        run_mark .closeArray _ fun _ => rfl, Frame.close, List.reverse_cons]
  | cons w vs ih =>
      obtain ⟨hw, hvs⟩ := List.forall_mem_cons.mp hvs
      have hends : Number.Ends (moreItems layout level vs ++ (gap ++ ']' :: rest)) :=
        ends_moreItems vs (ends_append hgap (by decide) rest)
      rw [moreItems]
      simp only [List.cons_append, List.append_assoc]
      rw [run_mark .comma _ fun _ => rfl,
        lexemes_append (isJsonBlank_lineBreak layout level), hw _ _ _ _ hends, ih hvs,
        List.reverse_cons, List.append_assoc, List.singleton_append]

theorem insert_of_nodup {done es : Entries Value} {key : String} {v : Value}
    (hkeys : (Entries.keys (done ++ (key, v) :: es)).Nodup) :
    Entries.insert done key v = done ++ [(key, v)] := by
  refine Entries.insert_of_notMem v ?_
  rw [Entries.keys_append, Entries.keys_cons, List.nodup_append] at hkeys
  intro hkey
  exact hkeys.2.2 key hkey key List.mem_cons_self rfl

theorem run_entry {v : Value} (hv : IsReadBack layout v) (done : Entries Value) (key : String)
    {rest : List Char} (hrest : Number.Ends rest) :
    run total stack (.colon done key)
        (lexemes total (':' :: (layout.afterColon ++ (chars layout level v ++ rest)))) =
      run total (.entries done key :: stack) (.after v) (lexemes total rest) := by
  rw [run_mark .colon _ fun _ => rfl, lexemes_append (isJsonBlank_afterColon layout),
    hv _ _ _ _ hrest]

theorem run_moreEntries {es : List (String × Value)} {done : Entries Value} {key : String}
    {v : Value} (hv : IsReadBack layout v) (hes : ∀ e ∈ es, IsReadBack layout e.2)
    (hkeys : (Entries.keys (done ++ (key, v) :: es)).Nodup)
    (hgap : ∀ c ∈ gap, isJsonBlank c = true) (rest : List Char) :
    run total stack (.colon done key)
        (lexemes total (':' :: (layout.afterColon ++ (chars layout level v ++
          (moreEntries layout level es ++ (gap ++ '\x7d' :: rest)))))) =
      run total stack (.after (.object (done ++ (key, v) :: es))) (lexemes total rest) := by
  induction es generalizing done key v with
  | nil =>
      have hends : Number.Ends (gap ++ '\x7d' :: rest) := ends_append hgap (by decide) rest
      rw [moreEntries, List.nil_append, run_entry hv done key hends, lexemes_append hgap,
        run_mark .closeObject _ fun _ => rfl, Frame.close, insert_of_nodup hkeys]
  | cons e es ih =>
      obtain ⟨k, w⟩ := e
      obtain ⟨hw, hes⟩ := List.forall_mem_cons.mp hes
      have hends : Number.Ends (moreEntries layout level ((k, w) :: es) ++
          (gap ++ '\x7d' :: rest)) :=
        ends_moreEntries _ (ends_append hgap (by decide) rest)
      have hmore : done ++ (key, v) :: (k, w) :: es = (done ++ [(key, v)]) ++ (k, w) :: es := by
        rw [List.append_assoc, List.singleton_append]
      rw [run_entry hv done key hends, moreEntries]
      simp only [List.cons_append, List.append_assoc]
      rw [run_mark .comma _ fun _ => rfl, lexemes_append (isJsonBlank_lineBreak layout level),
        run_string k _ fun _ => rfl, insert_of_nodup hkeys]
      rw [hmore] at hkeys ⊢
      exact ih hw hes hkeys

/-! ### The ends of the text -/

/-- A character that begins the text of a document. -/
structure Opens (c : Char) : Prop where
  lower : 32 < c.toNat
  upper : c.toNat < 127
  notClosing : c ≠ ']'
  notQuote : c ≠ '\''

theorem opens_of_isAsciiDigit {c : Char} (hc : isAsciiDigit c = true) : Opens c := by
  obtain ⟨hlower, hupper⟩ := isAsciiDigit_iff.mp hc
  refine ⟨by omega, by omega, ?_, ?_⟩
  · rintro rfl
    exact absurd hc (by decide)
  · rintro rfl
    exact absurd hc (by decide)

theorem Opens.isJsonBlank {c : Char} (hc : Opens c) : isJsonBlank c = false := by
  rw [← Bool.not_eq_true]
  intro hblank
  simp only [Json.isJsonBlank, Bool.or_eq_true, beq_iff_eq] at hblank
  rcases hblank with ((rfl | rfl) | rfl) | rfl <;> exact absurd hc.lower (by decide)

theorem exists_opens_chars (layout : Layout) (level : Nat) {v : Value} (hv : v.IsDocument) :
    ∃ c cs, chars layout level v = c :: cs ∧ Opens c := by
  have hminus : Opens '-' := ⟨by decide, by decide, by decide, by decide⟩
  cases hv with
  | null => exact ⟨_, _, rfl, by decide, by decide, by decide, by decide⟩
  | bool b => cases b <;> exact ⟨_, _, rfl, by decide, by decide, by decide, by decide⟩
  | number n =>
      obtain ⟨d, ds, hd, hchars | hchars⟩ := exists_of_isLiteral n.isLiteral_chars
      · exact ⟨d, ds, hchars, opens_of_isAsciiDigit hd⟩
      · exact ⟨'-', d :: ds, hchars, hminus⟩
  | string s => exact ⟨_, _, rfl, by decide, by decide, by decide, by decide⟩
  | array items => cases items <;> exact ⟨_, _, rfl, by decide, by decide, by decide, by decide⟩
  | object entries =>
      cases entries <;> exact ⟨_, _, rfl, by decide, by decide, by decide, by decide⟩

theorem isBlank_getLast?_concat (front : List Char) {c : Char} (hc : isBlank c = false) :
    ∀ d ∈ (front ++ [c]).getLast?, isBlank d = false := by
  intro d hd
  rw [List.getLast?_concat] at hd
  cases hd
  exact hc

theorem isBlank_getLast?_chars (layout : Layout) (level : Nat) {v : Value} (hv : v.IsDocument) :
    ∀ c ∈ (chars layout level v).getLast?, isBlank c = false := by
  cases hv with
  | null => exact isBlank_getLast?_concat ['n', 'u', 'l'] (by decide)
  | bool b =>
      cases b with
      | true => exact isBlank_getLast?_concat ['t', 'r', 'u'] (by decide)
      | false => exact isBlank_getLast?_concat ['f', 'a', 'l', 's'] (by decide)
  | number n =>
      intro c hc
      obtain ⟨hlower, hupper⟩ := n.isPlain_chars c (List.mem_of_mem_getLast? hc)
      exact isBlank_eq_false hlower hupper
  | string s => exact isBlank_getLast?_concat _ (by decide)
  | array items =>
      cases items with
      | nil => exact isBlank_getLast?_concat ['['] (by decide)
      | cons v vs =>
          rw [chars]
          exact isBlank_getLast?_concat _ (by decide)
  | object entries =>
      cases entries with
      | nil => exact isBlank_getLast?_concat ['\x7b'] (by decide)
      | cons e es =>
          rw [chars]
          exact isBlank_getLast?_concat _ (by decide)

/-! ### Round trips -/

theorem step_firstItem {lexeme : Lexeme} (h : lexeme.token ≠ .closeArray) :
    step stack .firstItem lexeme = step (.items [] :: stack) .value lexeme := by
  obtain ⟨offset, token⟩ := lexeme
  cases token with
  | closeArray => exact absurd rfl h
  | _ => rfl

theorem run_firstItem {v : Value} (hv : v.IsDocument) (rest : List Char) :
    run total stack .firstItem (lexemes total (chars layout level v ++ rest)) =
      run total (.items [] :: stack) .value (lexemes total (chars layout level v ++ rest)) := by
  obtain ⟨c, cs, hchars, hc⟩ := exists_opens_chars layout level hv
  have htoken := takeToken_ne_closeArray hc.notClosing total (cs ++ rest)
  rw [hchars, List.cons_append, lexemes, hc.isJsonBlank, if_neg Bool.false_ne_true, run, run,
    step_firstItem htoken]

theorem isReadBack_number (layout : Layout) {n : Number} (hn : n.isShort = true) :
    IsReadBack layout (.number n) := by
  intro total level stack rest hrest
  have hscalar : ∀ offset, takeScalar offset (n.chars ++ rest) = .ok (.number n, rest) :=
    fun offset => takeScalar_number hn hrest
  rw [chars]
  obtain ⟨d, ds, hd, hchars | hchars⟩ := exists_of_isLiteral n.isLiteral_chars
  · rw [hchars] at hscalar ⊢
    refine run_of_step (opens_of_isAsciiDigit hd).isJsonBlank (takeToken_scalar ?_ hscalar)
      fun _ => rfl
    intro hmem
    simp only [List.mem_cons, List.not_mem_nil, or_false] at hmem
    rcases hmem with rfl | rfl | rfl | rfl | rfl | rfl | rfl <;> exact absurd hd (by decide)
  · rw [hchars] at hscalar ⊢
    exact run_of_step (by decide) (takeToken_scalar (by decide) hscalar) fun _ => rfl

theorem isReadBack_word (layout : Layout) (word : String) {v : Value} (h : (word, v) ∈ words) :
    IsReadBack layout v := by
  intro total level stack rest hrest
  have hscalar : ∀ offset, takeScalar offset (word.toList ++ rest) = .ok (v, rest) :=
    fun offset => takeScalar_word h offset rest
  simp only [words, List.mem_cons, Prod.mk.injEq, List.not_mem_nil, or_false] at h
  rcases h with ⟨rfl, rfl⟩ | ⟨rfl, rfl⟩ | ⟨rfl, rfl⟩ <;>
    exact run_of_step (by decide) (takeToken_scalar (by decide) hscalar) fun _ => rfl

theorem isReadBack_of_isWritable (layout : Layout) {v : Value} (hv : v.IsWritable) :
    IsReadBack layout v := by
  induction hv with
  | null => exact isReadBack_word layout "null" (by simp [words])
  | bool b =>
      cases b with
      | true => exact isReadBack_word layout "true" (by simp [words])
      | false => exact isReadBack_word layout "false" (by simp [words])
  | number hn => exact isReadBack_number layout hn
  | string s =>
      intro total level stack rest hrest
      exact run_string s rest fun _ => rfl
  | @array items hitems ih =>
      intro total level stack rest hrest
      cases items with
      | nil =>
          exact (run_mark .openArray _ fun _ => rfl).trans (run_mark .closeArray _ fun _ => rfl)
      | cons v vs =>
          obtain ⟨hv, hvs⟩ := List.forall_mem_cons.mp ih
          have hends : Number.Ends (moreItems layout (level + 1) vs ++
              (layout.lineBreak level ++ ']' :: rest)) :=
            ends_moreItems vs (ends_append (isJsonBlank_lineBreak layout level) (by decide) rest)
          rw [chars]
          simp only [List.cons_append, List.append_assoc, List.nil_append]
          rw [run_mark .openArray _ fun _ => rfl,
            lexemes_append (isJsonBlank_lineBreak layout (level + 1)),
            run_firstItem (hitems v List.mem_cons_self).isDocument, hv _ _ _ _ hends,
            run_moreItems hvs (isJsonBlank_lineBreak layout level)]
          rfl
  | @object entries hkeys hentries ih =>
      intro total level stack rest hrest
      cases entries with
      | nil =>
          exact (run_mark .openObject _ fun _ => rfl).trans (run_mark .closeObject _ fun _ => rfl)
      | cons e es =>
          obtain ⟨key, v⟩ := e
          obtain ⟨hv, hes⟩ := List.forall_mem_cons.mp ih
          rw [chars]
          simp only [List.cons_append, List.append_assoc, List.nil_append]
          rw [run_mark .openObject _ fun _ => rfl,
            lexemes_append (isJsonBlank_lineBreak layout (level + 1)),
            run_string key _ fun _ => rfl]
          exact run_moreEntries hv hes hkeys (isJsonBlank_lineBreak layout level) rest

theorem write_eq_ok_iff {v : Value} {text : String} :
    write v layout = .ok text ↔
      (layout.isTooWide = true → v.isString = true) ∧ v.isShort = true ∧
        text = String.ofList (chars layout 0 v) := by
  unfold write
  cases hwide : layout.isTooWide <;> cases hstring : v.isString <;> cases hshort : v.isShort <;>
    simp [eq_comm]

theorem write_eq_error_iff {v : Value} {e : Fault} :
    write v layout = .error e ↔
      (layout.isTooWide = true ∧ v.isString = false ∧ e = .indentTooLarge) ∨
        ((layout.isTooWide = true → v.isString = true) ∧ v.isShort = false ∧
          e = .integerTooLong) := by
  unfold write
  cases hwide : layout.isTooWide <;> cases hstring : v.isString <;> cases hshort : v.isShort <;>
    simp [eq_comm]

theorem read_chars (layout : Layout) {v : Value} (hv : v.IsWritable) :
    read (String.ofList (chars layout 0 v)) = .ok v := by
  obtain ⟨c, cs, hchars, hc⟩ := exists_opens_chars layout 0 hv.isDocument
  have hmark : (chars layout 0 v).head? ≠ some byteOrderMark := by
    rw [hchars, List.head?_cons]
    rintro ⟨⟩
    exact absurd hc.upper (by decide)
  have hread := isReadBack_of_isWritable layout hv (chars layout 0 v).length 0 [] [] nofun
  rw [List.append_nil] at hread
  rw [read, String.toList_ofList, readChars, if_neg hmark, hread, lexemes, run]
  rfl

theorem json_eq_ok {v : Value} (h : v.isShort = true) :
    v.json = .ok (String.ofList (chars .compact 0 v)) :=
  write_eq_ok_iff.mpr ⟨fun hwide => Bool.noConfusion hwide, h, rfl⟩

theorem read_of_write {v : Value} {text : String} (hv : v.IsDocument)
    (h : write v layout = .ok text) : read text = .ok v := by
  obtain ⟨-, hshort, rfl⟩ := write_eq_ok_iff.mp h
  exact read_chars layout (Value.isWritable_iff.mpr ⟨hv, hshort⟩)

/-- Documents without an integer of too many digits are written, unless the indentation is too
wide, and read back as they were, with the keys in their order and each number in its form.
Nothing else is. What is not written has the fault of one of the two limits. -/
theorem read_write_iff (v : Value) (layout : Layout) :
    ((∃ text, write v layout = .ok text ∧ read text = .ok v) ↔
      v.IsDocument ∧ v.isShort = true ∧ (layout.isTooWide = true → v.isString = true)) ∧
    ∀ e, write v layout = .error e ↔
      (layout.isTooWide = true ∧ v.isString = false ∧ e = .indentTooLarge) ∨
        ((layout.isTooWide = true → v.isString = true) ∧ v.isShort = false ∧
          e = .integerTooLong) := by
  refine ⟨⟨?_, ?_⟩, fun e => write_eq_error_iff⟩
  · rintro ⟨text, hwrite, hread⟩
    obtain ⟨hwide, hshort, -⟩ := write_eq_ok_iff.mp hwrite
    exact ⟨isDocument_of_read hread, hshort, hwide⟩
  · rintro ⟨hv, hshort, hwide⟩
    have hwrite := write_eq_ok_iff.mpr ⟨hwide, hshort, rfl⟩
    exact ⟨_, hwrite, read_of_write hv hwrite⟩

theorem not_write_beyondLimits :
    (Value.null.IsDocument ∧
      write .null (.indented Layout.widthBound) = .error .indentTooLarge) ∧
    (Value.number (.int (tenTo Decimal.digitLimit))).IsDocument ∧
      write (.number (.int (tenTo Decimal.digitLimit))) .compact = .error .integerTooLong := by
  have hwide : (Layout.indented Layout.widthBound).isTooWide = true := by
    simp [Layout.isTooWide]
  have hlong : (Value.number (.int (tenTo Decimal.digitLimit))).isShort = false := by
    rw [Value.isShort, Number.isShort, Decimal.isShort, decide_eq_false_iff_not,
      Int.natAbs_natCast]
    exact Nat.lt_irrefl _
  exact ⟨⟨.null, write_eq_error_iff.mpr (.inl ⟨hwide, rfl, rfl⟩)⟩, .number _,
    write_eq_error_iff.mpr (.inr ⟨fun hcompact => Bool.noConfusion hcompact, hlong, rfl⟩)⟩

end Reshape.Json

namespace Reshape.Pipeline

open Reshape.Text

theorem decode_write {layout : Json.Layout} {v : Value} {text : String} (hv : v.IsDocument)
    (h : Json.write v layout = .ok text) : decode text = .ok v := by
  have hread := Json.read_of_write hv h
  obtain ⟨-, -, rfl⟩ := Json.write_eq_ok_iff.mp h
  obtain ⟨c, cs, hchars, hc⟩ := Json.exists_opens_chars layout 0 hv
  have htrim : trim (String.ofList (Json.chars layout 0 v)).toList = Json.chars layout 0 v := by
    rw [String.toList_ofList]
    refine trim_eq_self ?_ (Json.isBlank_getLast?_chars layout 0 hv)
    rw [hchars]
    rintro _ ⟨⟩
    exact isBlank_eq_false hc.lower hc.upper
  have hquote : singleQuoted? (Json.chars layout 0 v) = none := by
    rw [hchars, singleQuoted?]
    intro rest hcons
    exact hc.notQuote (List.cons.inj hcons).1
  rw [decode, htrim, hquote]
  exact hread

theorem isWritable_of_decode {text : String} {v : Value} (h : decode text = .ok v) :
    v.IsWritable := by
  unfold decode at h
  dsimp only at h
  split at h
  · cases h
    exact .string _
  · exact Json.isWritable_of_read h

theorem isDocument_of_decode {text : String} {v : Value} (h : decode text = .ok v) :
    v.IsDocument :=
  (isWritable_of_decode h).isDocument

end Reshape.Pipeline
