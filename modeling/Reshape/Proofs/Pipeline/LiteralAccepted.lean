import Reshape.Pipeline.Read
import Reshape.Proofs.Grammar.Reader
import Reshape.Proofs.Pipeline.Layout

/-!
Every literal is read up to its end. Main statement: `readsLiteral`. Each part of a literal
takes the reader from the places where the part may stand to the place behind it, by
induction on the part.
-/

namespace Reshape.Pipeline

open Reshape.Grammar

variable {total : Nat}

/-- A text that goes on as it may behind an item or an argument. -/
def Delimited (rest : List Char) : Prop :=
  ∀ c ∈ rest.head?, isSpace c = true ∨ c ∈ [',', ']', '\x7d', ')']

section Token

theorem Delimited.follows {rest : List Char} (h : Delimited rest) (t : Terminal) :
    Follows t rest := by
  have houtside : ∀ c, isSpace c = true ∨ c ∈ [',', ']', '\x7d', ')'] →
      isNameChar c = false ∧ Number.isOutside c = true := by
    intro c hc
    simp only [isSpace, Bool.or_eq_true, beq_iff_eq, List.mem_cons, List.not_mem_nil,
      or_false] at hc
    rcases hc with ((((rfl | rfl) | rfl) | rfl) | rfl) | rfl | rfl | rfl | rfl <;> decide
  exact ⟨fun _ c hc => (houtside c (h c hc)).1, fun _ c hc => (houtside c (h c hc)).2⟩

theorem Delimited.nameEnds {rest : List Char} (h : Delimited rest) : NameEnds rest :=
  (h.follows .name).1 (.inl rfl)

theorem delimited_gap_append {gap rest : List Char} (hgap : IsGap gap) (hrest : Delimited rest) :
    Delimited (gap ++ rest) := by
  cases gap with
  | nil => exact hrest
  | cons c gap =>
      intro d hd
      cases hd
      exact .inl (hgap c List.mem_cons_self)

theorem delimited_cons {c : Char} (hc : c ∈ [',', ']', '\x7d', ')']) (rest : List Char) :
    Delimited (c :: rest) := by
  intro d hd
  cases hd
  exact .inr hc

theorem nameEnds_space_cons {c : Char} (hc : isSpace c = true) (rest : List Char) :
    NameEnds (c :: rest) := by
  have hdelimited : Delimited (c :: rest) := by
    intro d hd
    cases hd
    exact .inl hc
  exact hdelimited.nameEnds

theorem nameEnds_gap_append {gap rest : List Char} (hgap : IsGap gap) (hrest : NameEnds rest) :
    NameEnds (gap ++ rest) := by
  cases gap with
  | nil => exact hrest
  | cons c gap => exact nameEnds_space_cons (hgap c List.mem_cons_self) _

theorem nameEnds_gap_mark {gap : List Char} (hgap : IsGap gap) {c : Char}
    (hc : isNameChar c = false) (rest : List Char) : NameEnds (gap ++ (c :: rest)) := by
  refine nameEnds_gap_append hgap fun d hd => ?_
  cases hd
  exact hc

theorem readFrom_token {state next : State} {gap text rest : List Char} {t : Terminal}
    (hgap : IsGap gap) (h : Spells t text) (ht : state.place.expected.contains (some t) = true)
    (hrest : Follows t rest) (hdistinct : Distinct state.place.expected t text)
    (hstep : step state ⟨t, gap, text⟩ = .ok next) :
    language.readFrom total state (gap ++ (text ++ rest)) = language.readFrom total next rest := by
  obtain ⟨c, tail, rfl, hc⟩ := exists_start_of_spells h
  have hskip : ∀ d ∈ (c :: tail ++ rest).head?, isSpace d = false := by
    intro d hd
    cases hd
    exact isSpace_eq_false_of_starts hc
  have htake := Text.takeWhile_append (p := isSpace) hgap hskip
  have hdrop := Text.dropWhile_append (p := isSpace) hgap hskip
  have hscan := scan_of_spells (List.contains_iff_mem.mp ht) h hrest hdistinct
  have hfound : language.scan (language.expected state) (c :: (tail ++ rest)) =
      some ⟨t, c :: tail, rest⟩ := hscan
  have hnext : language.step state
      ⟨t, (gap ++ (c :: (tail ++ rest))).takeWhile language.isSkipped, c :: tail⟩ = .ok next := by
    rw [show (gap ++ (c :: (tail ++ rest))).takeWhile language.isSkipped = gap from htake]
    exact hstep
  exact Language.readFrom_step (.mk hdrop hfound hnext)

theorem readFrom_mark {state next : State} {gap rest : List Char} {t : Terminal} {c : Char}
    (hgap : IsGap gap) (hspelling : t.spelling? = some [c])
    (ht : state.place.expected.contains (some t) = true)
    (hstep : step state ⟨t, gap, [c]⟩ = .ok next) :
    language.readFrom total state (gap ++ (c :: rest)) = language.readFrom total next rest := by
  have hplain : t ≠ .name ∧ t.isWord = false ∧ t ≠ .number := by
    cases t <;> cases hspelling <;> decide
  refine readFrom_token hgap (.exact hspelling) ht ⟨?_, ?_⟩ ?_ hstep
  · rintro (hname | hword)
    · exact absurd hname hplain.1
    · rw [hplain.2.1] at hword
      cases hword
  · exact fun hnumber => absurd hnumber hplain.2.2
  · exact fun hname => absurd hname hplain.1

end Token

section Literal

/-- The terminals that a literal begins with. -/
def beginsLiteral : Terminal → Bool
  | .number | .string | .trueWord | .falseWord | .nullWord | .openBracket | .openBrace => true
  | _ => false

/-- The places where a value may stand behind a gap: the containers that are open there, and
what will have been written before the value. -/
inductive TakesValue (gap : List Char) : Place → List Bracket → List Char → Prop
  | slot {brackets : List Bracket} {written : List Char} {slot : Slot}
      (hslot : slot = .firstItem ∨ slot = .item ∨ slot = .entryValue) :
      TakesValue gap (.literal brackets written slot) brackets (written ++ gap)
  | argument {place : Place}
      (hplace : place = .firstArgument ∨ place = .argument ∨ place = .labelled) :
      TakesValue gap place [] []

theorem TakesValue.contains_expected {gap before : List Char} {place : Place}
    {brackets : List Bracket} (h : TakesValue gap place brackets before) {t : Terminal}
    (ht : beginsLiteral t = true) : place.expected.contains (some t) = true := by
  cases h with
  | slot hslot => rcases hslot with rfl | rfl | rfl <;> cases t <;> cases ht <;> rfl
  | argument hplace => rcases hplace with rfl | rfl | rfl <;> cases t <;> cases ht <;> rfl

theorem TakesValue.step_eq {gap before : List Char} {place : Place} {brackets : List Bracket}
    (h : TakesValue gap place brackets before) {t : Terminal} (ht : beginsLiteral t = true)
    {text : List Char} {next : Place}
    (hnext : beginLiteral? brackets (before ++ text) t = some next)
    (outer : List OpenCall) : step ⟨outer, place⟩ ⟨t, gap, text⟩ = .ok ⟨outer, next⟩ := by
  cases h with
  | slot hslot =>
      rcases hslot with rfl | rfl | rfl <;> cases t <;> cases ht <;>
        simp only [step, stepSlot?, hnext, placeOr]
  | argument hplace =>
      rw [List.nil_append] at hnext
      rcases hplace with rfl | rfl | rfl <;> cases t <;> cases ht <;>
        simp only [step, stepArgument, hnext, placeOr]

theorem readFrom_scalar {gap before text rest : List Char} {place : Place}
    {brackets : List Bracket} (hgap : IsGap gap) (hplace : TakesValue gap place brackets before)
    {t : Terminal} (ht : t = .number ∨ t = .string ∨ t.isWord = true) (h : Spells t text)
    (hrest : Delimited rest) (outer : List OpenCall) :
    language.readFrom total ⟨outer, place⟩ (gap ++ (text ++ rest)) =
      language.readFrom total ⟨outer, .afterLiteral brackets (before ++ text)⟩ rest := by
  have hbegins : beginsLiteral t = true ∧ t ≠ .name ∧
      beginLiteral? brackets (before ++ text) t =
        some (.afterLiteral brackets (before ++ text)) := by
    rcases ht with rfl | rfl | ht
    · exact ⟨rfl, by decide, rfl⟩
    · exact ⟨rfl, by decide, rfl⟩
    · cases t <;> cases ht <;> exact ⟨rfl, by decide, rfl⟩
  exact readFrom_token hgap h (hplace.contains_expected hbegins.1) (hrest.follows t)
    (fun hname => absurd hname hbegins.2.1) (hplace.step_eq hbegins.1 hbegins.2.2 outer)

theorem LiteralText.delimited_moreItems {text : List Char} (h : LiteralText .moreItems text)
    (rest : List Char) : Delimited (text ++ rest) := by
  cases h with
  | endArray hgap =>
      rw [List.append_assoc]
      exact delimited_gap_append hgap (delimited_cons (by decide) _)
  | nextItem hgap =>
      rw [List.append_assoc]
      exact delimited_gap_append hgap (delimited_cons (by decide) _)

theorem LiteralText.delimited_moreFields {text : List Char} (h : LiteralText .moreFields text)
    (rest : List Char) : Delimited (text ++ rest) := by
  cases h with
  | endObject hgap =>
      rw [List.append_assoc]
      exact delimited_gap_append hgap (delimited_cons (by decide) _)
  | nextField hgap =>
      rw [List.append_assoc]
      exact delimited_gap_append hgap (delimited_cons (by decide) _)

/-- Where a part other than a value begins. -/
def Part.place (brackets : List Bracket) (written : List Char) : Part → Place
  | value => .afterLiteral brackets written
  | array => .literal (.array :: brackets) written .firstItem
  | moreItems => .afterLiteral (.array :: brackets) written
  | object => .literal (.object :: brackets) written .firstKey
  | moreFields => .afterLiteral (.object :: brackets) written

/-- A part of a literal is read up to its end, where it is all written. -/
def ReadsLiteral (total : Nat) (text : List Char) : Part → Prop
  | .value => ∀ {gap before rest : List Char} {place : Place} {brackets : List Bracket}
      (outer : List OpenCall), IsGap gap → TakesValue gap place brackets before → Delimited rest →
      language.readFrom total ⟨outer, place⟩ (gap ++ (text ++ rest)) =
        language.readFrom total ⟨outer, .afterLiteral brackets (before ++ text)⟩ rest
  | part => ∀ (outer : List OpenCall) (brackets : List Bracket) (written rest : List Char),
      language.readFrom total ⟨outer, part.place brackets written⟩ (text ++ rest) =
        language.readFrom total ⟨outer, .afterLiteral brackets (written ++ text)⟩ rest

theorem readFrom_field (outer : List OpenCall) (brackets : List Bracket) (written : List Char)
    {slot : Slot} (hslot : slot = .firstKey ∨ slot = .key)
    {gap key gap' gap'' value rest : List Char} (hgap : IsGap gap) (hkey : IsString key)
    (hgap' : IsGap gap') (hgap'' : IsGap gap'') (hvalue : ReadsLiteral total value .value)
    (hrest : Delimited rest) :
    language.readFrom total ⟨outer, .literal brackets written slot⟩
        (gap ++ (key ++ (gap' ++ (':' :: (gap'' ++ (value ++ rest)))))) =
      language.readFrom total ⟨outer, .afterLiteral brackets
        (written ++ (gap ++ (key ++ (gap' ++ (':' :: (gap'' ++ value))))))⟩ rest := by
  have hstring : language.readFrom total ⟨outer, .literal brackets written slot⟩
        (gap ++ (key ++ (gap' ++ (':' :: (gap'' ++ (value ++ rest)))))) =
      language.readFrom total ⟨outer, .literal brackets (written ++ gap ++ key) .colon⟩
        (gap' ++ (':' :: (gap'' ++ (value ++ rest)))) := by
    refine readFrom_token hgap (.string hkey) ?_ ⟨by simp [Terminal.isWord], by simp⟩
      (by simp [Distinct]) ?_
    · rcases hslot with rfl | rfl <;> rfl
    · rcases hslot with rfl | rfl <;> rfl
  have hcolon : language.readFrom total ⟨outer, .literal brackets (written ++ gap ++ key) .colon⟩
        (gap' ++ (':' :: (gap'' ++ (value ++ rest)))) =
      language.readFrom total
        ⟨outer, .literal brackets (written ++ gap ++ key ++ gap' ++ [':']) .entryValue⟩
        (gap'' ++ (value ++ rest)) :=
    readFrom_mark (t := .colon) hgap' rfl rfl rfl
  rw [hstring, hcolon, hvalue outer hgap'' (.slot (.inr (.inr rfl))) hrest]
  simp

theorem readsLiteral_array {text : List Char} (h : ReadsLiteral total text .array) :
    ReadsLiteral total ('[' :: text) .value := by
  intro gap before rest place brackets outer hgap hplace hrest
  calc language.readFrom total ⟨outer, place⟩ (gap ++ ('[' :: text ++ rest))
      = language.readFrom total
          ⟨outer, .literal (.array :: brackets) (before ++ ['[']) .firstItem⟩ (text ++ rest) :=
        readFrom_mark (t := .openBracket) hgap rfl (hplace.contains_expected rfl)
          (hplace.step_eq rfl rfl outer)
    _ = language.readFrom total
          ⟨outer, .afterLiteral brackets (before ++ ['['] ++ text)⟩ rest := h _ _ _ _
    _ = language.readFrom total
          ⟨outer, .afterLiteral brackets (before ++ '[' :: text)⟩ rest := by simp

theorem readsLiteral_object {text : List Char} (h : ReadsLiteral total text .object) :
    ReadsLiteral total ('\x7b' :: text) .value := by
  intro gap before rest place brackets outer hgap hplace hrest
  calc language.readFrom total ⟨outer, place⟩ (gap ++ ('\x7b' :: text ++ rest))
      = language.readFrom total
          ⟨outer, .literal (.object :: brackets) (before ++ ['\x7b']) .firstKey⟩
          (text ++ rest) :=
        readFrom_mark (t := .openBrace) hgap rfl (hplace.contains_expected rfl)
          (hplace.step_eq rfl rfl outer)
    _ = language.readFrom total
          ⟨outer, .afterLiteral brackets (before ++ ['\x7b'] ++ text)⟩ rest := h _ _ _ _
    _ = language.readFrom total
          ⟨outer, .afterLiteral brackets (before ++ '\x7b' :: text)⟩ rest := by simp

theorem readsLiteral_firstItem {gap item text : List Char} (hgap : IsGap gap)
    (hmore : LiteralText .moreItems text) (hitem : ReadsLiteral total item .value)
    (htext : ReadsLiteral total text .moreItems) :
    ReadsLiteral total (gap ++ (item ++ text)) .array := by
  intro outer brackets written rest
  rw [List.append_assoc, List.append_assoc, Part.place,
    hitem outer hgap (.slot (.inl rfl)) (hmore.delimited_moreItems rest)]
  rw [show written ++ (gap ++ (item ++ text)) = written ++ gap ++ item ++ text by simp]
  exact htext outer brackets _ rest

theorem readsLiteral_nextItem {gap gap' item text : List Char} (hgap : IsGap gap)
    (hgap' : IsGap gap') (hmore : LiteralText .moreItems text)
    (hitem : ReadsLiteral total item .value) (htext : ReadsLiteral total text .moreItems) :
    ReadsLiteral total (gap ++ (',' :: (gap' ++ (item ++ text)))) .moreItems := by
  intro outer brackets written rest
  have hcomma : language.readFrom total ⟨outer, .afterLiteral (.array :: brackets) written⟩
        (gap ++ (',' :: (gap' ++ (item ++ (text ++ rest))))) =
      language.readFrom total
        ⟨outer, .literal (.array :: brackets) (written ++ gap ++ [',']) .item⟩
        (gap' ++ (item ++ (text ++ rest))) :=
    readFrom_mark (t := .comma) hgap rfl rfl rfl
  simp only [List.append_assoc, List.cons_append, Part.place] at hcomma ⊢
  rw [hcomma, hitem outer hgap' (.slot (.inr (.inl rfl))) (hmore.delimited_moreItems rest)]
  have hwritten := htext outer brackets (written ++ gap ++ [','] ++ gap' ++ item) rest
  simpa [Part.place] using hwritten

theorem readsLiteral_firstField {gap gap' gap'' key value text : List Char} (hgap : IsGap gap)
    (hkey : IsString key) (hgap' : IsGap gap') (hgap'' : IsGap gap'')
    (hmore : LiteralText .moreFields text) (hvalue : ReadsLiteral total value .value)
    (htext : ReadsLiteral total text .moreFields) :
    ReadsLiteral total (gap ++ (key ++ (gap' ++ (':' :: (gap'' ++ (value ++ text)))))) .object := by
  intro outer brackets written rest
  have hfield := readFrom_field outer (.object :: brackets) written (.inl rfl) hgap hkey hgap'
    hgap'' hvalue (hmore.delimited_moreFields rest)
  simp only [List.append_assoc, List.cons_append, Part.place] at hfield ⊢
  rw [hfield]
  simpa [Part.place] using htext outer brackets
    (written ++ (gap ++ (key ++ (gap' ++ (':' :: (gap'' ++ value)))))) rest

theorem readsLiteral_nextField {before gap gap' gap'' key value text : List Char}
    (hbefore : IsGap before) (hgap : IsGap gap) (hkey : IsString key) (hgap' : IsGap gap')
    (hgap'' : IsGap gap'') (hmore : LiteralText .moreFields text)
    (hvalue : ReadsLiteral total value .value) (htext : ReadsLiteral total text .moreFields) :
    ReadsLiteral total
      (before ++ (',' :: (gap ++ (key ++ (gap' ++ (':' :: (gap'' ++ (value ++ text))))))))
      .moreFields := by
  intro outer brackets written rest
  have hcomma : language.readFrom total ⟨outer, .afterLiteral (.object :: brackets) written⟩
        (before ++ (',' :: (gap ++ (key ++ (gap' ++ (':' :: (gap'' ++
          (value ++ (text ++ rest))))))))) =
      language.readFrom total
        ⟨outer, .literal (.object :: brackets) (written ++ before ++ [',']) .key⟩
        (gap ++ (key ++ (gap' ++ (':' :: (gap'' ++ (value ++ (text ++ rest))))))) :=
    readFrom_mark (t := .comma) hbefore rfl rfl rfl
  have hfield := readFrom_field outer (.object :: brackets) (written ++ before ++ [','])
    (.inr rfl) hgap hkey hgap' hgap'' hvalue (hmore.delimited_moreFields rest)
  simp only [List.append_assoc, List.cons_append, List.nil_append, Part.place] at hcomma hfield ⊢
  rw [hcomma, hfield]
  simpa [Part.place] using htext outer brackets (written ++ before ++ [','] ++
    (gap ++ (key ++ (gap' ++ (':' :: (gap'' ++ value)))))) rest

theorem readsLiteral {part : Part} {text : List Char} (h : LiteralText part text) :
    ReadsLiteral total text part := by
  induction h with
  | number h =>
      intro gap before rest place brackets outer hgap hplace hrest
      exact readFrom_scalar hgap hplace (.inl rfl) (.number h) hrest outer
  | string h =>
      intro gap before rest place brackets outer hgap hplace hrest
      exact readFrom_scalar hgap hplace (.inr (.inl rfl)) (.string h) hrest outer
  | word h =>
      intro gap before rest place brackets outer hgap hplace hrest
      obtain ⟨t, ht, hspells⟩ := exists_word_of_mem h
      exact readFrom_scalar hgap hplace (.inr (.inr ht)) hspells hrest outer
  | array _ ih => exact readsLiteral_array ih
  | object _ ih => exact readsLiteral_object ih
  | emptyArray hgap | endArray hgap =>
      intro outer brackets written rest
      rw [List.append_assoc, ← List.append_assoc written]
      exact readFrom_mark (t := .closeBracket) hgap rfl rfl rfl
  | emptyObject hgap | endObject hgap =>
      intro outer brackets written rest
      rw [List.append_assoc, ← List.append_assoc written]
      exact readFrom_mark (t := .closeBrace) hgap rfl rfl rfl
  | firstItem hgap _ hmore ihitem ihmore => exact readsLiteral_firstItem hgap hmore ihitem ihmore
  | nextItem hgap hgap' _ hmore ihitem ihmore =>
      exact readsLiteral_nextItem hgap hgap' hmore ihitem ihmore
  | firstField hgap hkey hgap' hgap'' _ hmore ihvalue ihmore =>
      exact readsLiteral_firstField hgap hkey hgap' hgap'' hmore ihvalue ihmore
  | nextField hbefore hgap hkey hgap' hgap'' _ hmore ihvalue ihmore =>
      exact readsLiteral_nextField hbefore hgap hkey hgap' hgap'' hmore ihvalue ihmore

end Literal

end Reshape.Pipeline
