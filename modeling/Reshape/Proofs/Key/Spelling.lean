import Reshape.Key.Read
import Reshape.Proofs.Grammar.Quotation
import Reshape.Proofs.Grammar.Reader
import Reshape.Proofs.Text.Ascii

/-!
Which texts are flat keys. The spellings of the parts of a key are given by their shapes,
without the reader.
-/

namespace Reshape.Key

open Reshape.Grammar Reshape.Text

/-- What stands between quotes for a name. A backslash is dropped before a quote of the same
kind and before a backslash, and is kept before any other character. -/
inductive Escaped (quote : Char) : List Char → List Char → Prop
  | nil : Escaped quote [] []
  | plain {c : Char} {body name : List Char} (hquote : c ≠ quote) (hbackslash : c ≠ '\\')
      (hbody : Escaped quote body name) : Escaped quote (c :: body) (c :: name)
  | resolved {c : Char} {body name : List Char} (hc : c = quote ∨ c = '\\')
      (hbody : Escaped quote body name) : Escaped quote ('\\' :: c :: body) (c :: name)
  | kept {c : Char} {body name : List Char} (hquote : c ≠ quote) (hbackslash : c ≠ '\\')
      (hbody : Escaped quote body name) :
      Escaped quote ('\\' :: c :: body) ('\\' :: c :: name)

/-- The two kinds of quotes. -/
def IsQuote (quote : Char) : Prop :=
  quote = '"' ∨ quote = '\''

/-- A bare identifier has neither blanks nor dots, brackets or quotes. -/
def IsBareIdent (run : List Char) : Prop :=
  run ≠ [] ∧ ∀ c ∈ run, isBlank c = false ∧ c ∉ ['.', '[', ']', '"', '\'']

/-- The spellings of a segment between brackets. -/
inductive IsBracketed : List Char → Part → Prop
  | index {digits : List Char} (hne : digits ≠ [])
      (hdigits : ∀ c ∈ digits, isAsciiDigit c = true) :
      IsBracketed digits (.index digits)
  | quoted {quote : Char} {body name : List Char} (hquote : IsQuote quote)
      (hbody : Escaped quote body name) :
      IsBracketed (quote :: (body ++ [quote])) (.ident (String.ofList name))

/-- The spellings of a segment behind others. -/
inductive Follows : List Char → Part → Prop
  | dotted {run : List Char} (hrun : IsBareIdent run) :
      Follows ('.' :: run) (.ident (String.ofList run))
  | bracketed {inner : List Char} {part : Part} (hinner : IsBracketed inner part) :
      Follows ('[' :: (inner ++ [']'])) part

/-- The spellings of a segment at the front. -/
inductive Begins : List Char → Part → Prop
  | bare {run : List Char} (hrun : IsBareIdent run) : Begins run (.ident (String.ofList run))
  | bracketed {inner : List Char} {part : Part} (hinner : IsBracketed inner part) :
      Begins ('[' :: (inner ++ [']'])) part

/-- The spellings of the segments behind the first one. -/
inductive Continues : List Char → List Part → Prop
  | nil : Continues [] []
  | cons {cs rest : List Char} {part : Part} {parts : List Part} (hfirst : Follows cs part)
      (hrest : Continues rest parts) : Continues (cs ++ rest) (part :: parts)

/-- A text spells a key of at least one segment. -/
inductive IsSpelling : List Char → List Part → Prop
  | mk {cs rest : List Char} {part : Part} {parts : List Part} (hfirst : Begins cs part)
      (hrest : Continues rest parts) : IsSpelling (cs ++ rest) (part :: parts)

theorem Escaped.quotable {quote : Char} {body name : List Char} (h : Escaped quote body name) :
    Quotable quote body ∧ unescapeChars quote body = name := by
  induction h with
  | nil => exact ⟨.nil, rfl⟩
  | plain hquote hbackslash _ ih =>
      refine ⟨.plain hquote hbackslash ih.1, ?_⟩
      rw [unescapeChars, ih.2]
      simp [hbackslash]
  | resolved hc _ ih =>
      refine ⟨.escaped _ ih.1, ?_⟩
      rw [unescapeChars, if_pos (by simpa using hc), ih.2]
  | kept hquote hbackslash _ ih =>
      refine ⟨.escaped _ ih.1, ?_⟩
      rw [unescapeChars, if_neg (by simp [hquote, hbackslash]), ih.2]

theorem escaped_unescapeChars {quote : Char} {body : List Char} (h : Quotable quote body) :
    Escaped quote body (unescapeChars quote body) := by
  induction h with
  | nil => exact .nil
  | plain hquote hbackslash _ ih =>
      rw [unescapeChars]
      · exact .plain hquote hbackslash ih
      · simp [hbackslash]
  | escaped c _ ih =>
      rw [unescapeChars]
      split
      · rename_i hc
        exact .resolved (by simpa using hc) ih
      · rename_i hc
        obtain ⟨hquote, hbackslash⟩ := by simpa using hc
        exact .kept hquote hbackslash ih

theorem isIdentChar_iff {c : Char} :
    isIdentChar c = true ↔ isBlank c = false ∧ c ∉ ['.', '[', ']', '"', '\''] := by
  simp [isIdentChar, and_assoc]

theorem isBareIdent_iff {run : List Char} :
    IsBareIdent run ↔ run ≠ [] ∧ ∀ c ∈ run, isIdentChar c = true := by
  simp only [IsBareIdent, isIdentChar_iff]

theorem Continues.isIdentChar_head? {rest : List Char} {parts : List Part}
    (h : Continues rest parts) : ∀ c ∈ rest.head?, isIdentChar c = false := by
  cases h with
  | nil => simp
  | cons hfirst _ =>
      cases hfirst with
      | dotted _ => simp; decide
      | bracketed _ => simp; decide

section Scan

theorem takeSome?_append {p : Char → Bool} {run rest : List Char} (hne : run ≠ [])
    (hrun : ∀ c ∈ run, p c = true) (hrest : ∀ c ∈ rest.head?, p c = false) :
    takeSome? p (run ++ rest) = some (run, rest) := by
  obtain ⟨c, cs, rfl⟩ := List.exists_cons_of_ne_nil hne
  rw [takeSome?, takeWhile_append hrun hrest, dropWhile_append hrun hrest]

theorem dropWhile_isSkipped (cs : List Char) : cs.dropWhile language.isSkipped = cs := by
  cases cs <;> rfl

theorem takeWhile_isSkipped (cs : List Char) : cs.takeWhile language.isSkipped = [] := by
  cases cs <;> rfl

theorem steps_of_scan {state next : State} {cs : List Char} (found : Scanned Terminal)
    (hscan : scan (expected state) cs = some found)
    (hstep : step state ⟨found.terminal, [], found.text⟩ = .ok next) :
    language.Steps state cs next found.rest := by
  obtain ⟨hcs, hne⟩ := append_of_scan hscan
  obtain ⟨c, text, htext⟩ := List.exists_cons_of_ne_nil hne
  rw [htext, List.cons_append] at hcs
  subst hcs
  exact ⟨dropWhile_isSkipped _, hscan, by rw [takeWhile_isSkipped]; exact hstep⟩

section Tokens

variable {total : Nat} (done : List Part) (rest : List Char)

theorem readFrom_dot :
    language.readFrom total (.between done) ('.' :: rest) =
      language.readFrom total (.afterDot done) rest :=
  Language.readFrom_step (steps_of_scan ⟨.dot, ['.'], rest⟩ rfl rfl)

theorem readFrom_openBracket :
    language.readFrom total (.between done) ('[' :: rest) =
      language.readFrom total (.inBracket done) rest :=
  Language.readFrom_step (steps_of_scan ⟨.openBracket, ['['], rest⟩ rfl rfl)

theorem readFrom_closeBracket :
    language.readFrom total (.beforeClose done) (']' :: rest) =
      language.readFrom total (.between done) rest :=
  Language.readFrom_step (steps_of_scan ⟨.closeBracket, [']'], rest⟩ rfl rfl)

theorem readFrom_startBracket :
    language.readFrom total .start ('[' :: rest) = language.readFrom total (.inBracket []) rest :=
  Language.readFrom_step (steps_of_scan ⟨.openBracket, ['['], rest⟩ rfl rfl)

variable {run : List Char} (hne : run ≠ []) (hrun : ∀ c ∈ run, isIdentChar c = true)
  (hrest : ∀ c ∈ rest.head?, isIdentChar c = false)

include hne hrun hrest

theorem readFrom_ident :
    language.readFrom total (.afterDot done) (run ++ rest) =
      language.readFrom total (.between (done ++ [.ident (String.ofList run)])) rest := by
  refine Language.readFrom_step (steps_of_scan ⟨.ident, run, rest⟩ ?_ rfl)
  simp [scan, expected, scanOne, take?, takeSome?_append hne hrun hrest]

theorem readFrom_startIdent :
    language.readFrom total .start (run ++ rest) =
      language.readFrom total (.between [.ident (String.ofList run)]) rest := by
  refine Language.readFrom_step (steps_of_scan ⟨.ident, run, rest⟩ ?_ rfl)
  simp [scan, expected, scanOne, take?, takeSome?_append hne hrun hrest]

end Tokens

theorem readFrom_quotation {total : Nat} {quote : Char} (hquote : IsQuote quote)
    {body : List Char} (hbody : Quotable quote body) (done : List Part) (rest : List Char) :
    language.readFrom total (.inBracket done) (quote :: (body ++ quote :: rest)) =
      language.readFrom total
        (.beforeClose (done ++ [.ident (String.ofList (unescapeChars quote body))])) rest := by
  rcases hquote with rfl | rfl
  · refine Language.readFrom_step (steps_of_scan
      ⟨.doubleQuoted, '"' :: (body ++ ['"']), rest⟩ ?_ ?_)
    · simp [scan, expected, scanOne, take?, takeQuotation?_append (by decide) hbody rest]
    · simp [step, bracketed?]
  · refine Language.readFrom_step (steps_of_scan
      ⟨.singleQuoted, '\'' :: (body ++ ['\'']), rest⟩ ?_ ?_)
    · have hdouble : takeQuotation? '"' ('\'' :: (body ++ '\'' :: rest)) = none :=
        takeQuotation?_eq_none (by decide) _
      have hindex : takeSome? isAsciiDigit ('\'' :: (body ++ '\'' :: rest)) = none := by
        rw [takeSome?, List.takeWhile_cons_of_neg (by decide)]
      simp [scan, expected, scanOne, take?, hdouble, hindex,
        takeQuotation?_append (by decide) hbody rest]
    · simp [step, bracketed?]

theorem readFrom_digits {total : Nat} {digits rest : List Char} (hne : digits ≠ [])
    (hdigits : ∀ c ∈ digits, isAsciiDigit c = true)
    (hrest : ∀ c ∈ rest.head?, isAsciiDigit c = false) (done : List Part) :
    language.readFrom total (.inBracket done) (digits ++ rest) =
      language.readFrom total (.beforeClose (done ++ [.index digits])) rest := by
  obtain ⟨c, cs, hcs⟩ := List.exists_cons_of_ne_nil hne
  have hquote : c ≠ '"' := by
    rintro rfl
    exact absurd (hdigits '"' (by rw [hcs]; exact List.mem_cons_self)) (by decide)
  refine Language.readFrom_step (steps_of_scan ⟨.index, digits, rest⟩ ?_ rfl)
  have hdouble : takeQuotation? '"' (digits ++ rest) = none := by
    rw [hcs, List.cons_append]
    exact takeQuotation?_eq_none hquote _
  have hrun : takeSome? isAsciiDigit (digits ++ rest) = some (digits, rest) :=
    takeSome?_append hne hdigits hrest
  simp [scan, expected, scanOne, take?, hdouble, hrun]

end Scan

section Token

/-- What a token of a key is, by the states before and behind it. -/
inductive TokenAt : State → List Char → State → Prop
  | startIdent {run : List Char} (hrun : IsBareIdent run) :
      TokenAt .start run (.between [.ident (String.ofList run)])
  | startBracket : TokenAt .start ['['] (.inBracket [])
  | ident (done : List Part) {run : List Char} (hrun : IsBareIdent run) :
      TokenAt (.afterDot done) run (.between (done ++ [.ident (String.ofList run)]))
  | inner (done : List Part) {inner : List Char} {part : Part}
      (hinner : IsBracketed inner part) :
      TokenAt (.inBracket done) inner (.beforeClose (done ++ [part]))
  | closeBracket (done : List Part) : TokenAt (.beforeClose done) [']'] (.between done)
  | dot (done : List Part) : TokenAt (.between done) ['.'] (.afterDot done)
  | openBracket (done : List Part) : TokenAt (.between done) ['['] (.inBracket done)

/-- A text that does not go on like the token before the state. -/
def Stops : State → List Char → Prop
  | .between _, rest => ∀ c ∈ rest.head?, isIdentChar c = false
  | .beforeClose _, rest => ∀ c ∈ rest.head?, isAsciiDigit c = false
  | _, _ => True

theorem readFrom_token {total : Nat} {state next : State} {text rest : List Char}
    (h : TokenAt state text next) (hrest : Stops next rest) :
    language.readFrom total state (text ++ rest) = language.readFrom total next rest := by
  cases h with
  | startIdent hrun =>
      obtain ⟨hne, hall⟩ := isBareIdent_iff.mp hrun
      exact readFrom_startIdent rest hne hall hrest
  | startBracket => exact readFrom_startBracket rest
  | ident done hrun =>
      obtain ⟨hne, hall⟩ := isBareIdent_iff.mp hrun
      exact readFrom_ident done rest hne hall hrest
  | inner done hinner =>
      cases hinner with
      | index hne hdigits => exact readFrom_digits hne hdigits hrest done
      | quoted hquote hbody =>
          obtain ⟨hquotable, rfl⟩ := hbody.quotable
          rw [List.cons_append, List.append_assoc, List.singleton_append]
          exact readFrom_quotation hquote hquotable done rest
  | closeBracket done => exact readFrom_closeBracket done rest
  | dot done => exact readFrom_dot done rest
  | openBracket done => exact readFrom_openBracket done rest

theorem take?_of_scan {row : Row Terminal} {cs : List Char} {found : Scanned Terminal}
    (h : scan row cs = some found) :
    take? found.terminal cs = some (found.text, found.rest) := by
  obtain ⟨offer, -, hoffer⟩ := List.exists_of_findSome?_eq_some h
  cases offer with
  | none => cases hoffer
  | some t =>
      obtain ⟨⟨text, rest⟩, htake, rfl⟩ := Option.map_eq_some_iff.mp hoffer
      exact htake

theorem all_of_takeSome? {p : Char → Bool} {cs text rest : List Char}
    (h : takeSome? p cs = some (text, rest)) : ∀ c ∈ text, p c = true := by
  unfold takeSome? at h
  split at h
  · cases h
  · cases h
    exact fun c hc => List.all_eq_true.mp List.all_takeWhile c hc

theorem eq_of_takeChar? {expected : Char} {cs text rest : List Char}
    (h : takeChar? expected cs = some (text, rest)) : text = [expected] := by
  unfold takeChar? at h
  split at h
  · cases h
  · split at h <;> cases h
    simp_all

theorem isBareIdent_of_take? {cs text rest : List Char}
    (h : take? .ident cs = some (text, rest)) : IsBareIdent text :=
  isBareIdent_iff.mpr ⟨(append_of_takeSome? h).2, all_of_takeSome? h⟩

theorem isBracketed_of_take? {t : Terminal} {lead cs text rest : List Char} {part : Part}
    (htake : take? t cs = some (text, rest)) (h : bracketed? ⟨t, lead, text⟩ = some part) :
    IsBracketed text part := by
  cases t <;> simp only [bracketed?, Option.some.injEq, reduceCtorEq] at h
  case doubleQuoted =>
    obtain ⟨body, hbody, rfl⟩ := exists_of_takeQuotation? htake
    subst h
    rw [content_quoted]
    exact .quoted (.inl rfl) (escaped_unescapeChars hbody)
  case singleQuoted =>
    obtain ⟨body, hbody, rfl⟩ := exists_of_takeQuotation? htake
    subst h
    rw [content_quoted]
    exact .quoted (.inr rfl) (escaped_unescapeChars hbody)
  case index =>
    subst h
    exact .index (append_of_takeSome? htake).2 (all_of_takeSome? htake)

theorem tokenAt_of_step {state next : State} {t : Terminal} {lead cs text rest : List Char}
    (htake : take? t cs = some (text, rest)) (hstep : step state ⟨t, lead, text⟩ = .ok next) :
    TokenAt state text next := by
  cases state with
  | start =>
      cases t with
      | ident =>
          cases hstep
          exact .startIdent (isBareIdent_of_take? htake)
      | openBracket =>
          cases hstep
          rw [eq_of_takeChar? htake]
          exact .startBracket
      | _ => cases hstep
  | afterDot done =>
      cases t with
      | ident =>
          cases hstep
          exact .ident done (isBareIdent_of_take? htake)
      | _ => cases hstep
  | inBracket done =>
      rw [step] at hstep
      split at hstep
      · rename_i part hpart
        cases hstep
        exact .inner done (isBracketed_of_take? htake hpart)
      · cases hstep
  | beforeClose done =>
      cases t with
      | closeBracket =>
          cases hstep
          rw [eq_of_takeChar? htake]
          exact .closeBracket done
      | _ => cases hstep
  | between done =>
      cases t with
      | dot =>
          cases hstep
          rw [eq_of_takeChar? htake]
          exact .dot done
      | openBracket =>
          cases hstep
          rw [eq_of_takeChar? htake]
          exact .openBracket done
      | _ => cases hstep

theorem tokenAt_of_steps {state next : State} {cs rest : List Char}
    (h : language.Steps state cs next rest) :
    ∃ text, cs = text ++ rest ∧ text ≠ [] ∧ TokenAt state text next := by
  obtain ⟨hskipped, hscan, hstep⟩ := h
  rename_i found c after
  obtain rfl : cs = c :: after := dropWhile_isSkipped cs ▸ hskipped
  obtain ⟨hcs, hne⟩ := append_of_scan hscan
  exact ⟨found.text, hcs, hne, tokenAt_of_step (take?_of_scan hscan) hstep⟩

end Token

section Complete

variable {total : Nat} {done : List Part} {part : Part} {cs rest : List Char}

theorem IsBracketed.readFrom_eq {inner : List Char} (h : IsBracketed inner part) :
    language.readFrom total (.inBracket done) (inner ++ ']' :: rest) =
      language.readFrom total (.between (done ++ [part])) rest := by
  have hclose : Stops (.beforeClose (done ++ [part])) (']' :: rest) := by
    rintro _ ⟨⟩
    decide
  rw [readFrom_token (.inner done h) hclose, readFrom_closeBracket]

theorem Follows.readFrom_eq (h : Follows cs part)
    (hrest : Stops (.between (done ++ [part])) rest) :
    language.readFrom total (.between done) (cs ++ rest) =
      language.readFrom total (.between (done ++ [part])) rest := by
  cases h with
  | dotted hrun => rw [List.cons_append, readFrom_dot, readFrom_token (.ident done hrun) hrest]
  | bracketed hinner =>
      rw [List.cons_append, List.append_assoc, List.singleton_append, readFrom_openBracket,
        hinner.readFrom_eq]

theorem Begins.readFrom_eq (h : Begins cs part) (hrest : Stops (.between [part]) rest) :
    language.readFrom total .start (cs ++ rest) =
      language.readFrom total (.between [part]) rest := by
  cases h with
  | bare hrun => exact readFrom_token (.startIdent hrun) hrest
  | bracketed hinner =>
      rw [List.cons_append, List.append_assoc, List.singleton_append, readFrom_startBracket,
        hinner.readFrom_eq, List.nil_append]

theorem Continues.readFrom_eq {parts : List Part} (h : Continues rest parts) (done : List Part) :
    language.readFrom total (.between done) rest = .ok (done ++ parts) := by
  induction h generalizing done with
  | nil => exact Language.readFrom_end rfl (by rw [List.append_nil]; rfl)
  | cons hfirst hrest ih =>
      rw [hfirst.readFrom_eq hrest.isIdentChar_head?, ih, List.append_assoc,
        List.singleton_append]

theorem Begins.all_isBlank (h : Begins cs part) : (cs ++ rest).all isBlank = false := by
  cases h with
  | bare hrun =>
      obtain ⟨c, tail, rfl⟩ := List.exists_cons_of_ne_nil hrun.1
      rw [List.cons_append, List.all_cons, (hrun.2 c List.mem_cons_self).1, Bool.false_and]
  | bracketed _ =>
      rw [List.cons_append, List.all_cons, show isBlank '[' = false by decide, Bool.false_and]

theorem parse_of_isSpelling {text : String} {parts : List Part}
    (h : IsSpelling text.toList parts) : parse text = .ok parts := by
  rw [parse, Language.readText_eq_ok_iff]
  generalize text.toList = cs at h ⊢
  cases h with
  | mk hfirst hrest =>
      refine ⟨hfirst.all_isBlank, ?_⟩
      rw [show language.start = .start from rfl, hfirst.readFrom_eq hrest.isIdentChar_head?,
        hrest.readFrom_eq, List.singleton_append]

end Complete

section Sound

/-- What a text must be for its reader to end with a key. -/
def Demands (parts : List Part) : State → List Char → Prop
  | .start, cs => IsSpelling cs parts
  | .afterDot done, cs =>
    ∃ run rest more, cs = run ++ rest ∧ IsBareIdent run ∧ Continues rest more ∧
      parts = done ++ .ident (String.ofList run) :: more
  | .inBracket done, cs =>
    ∃ inner part rest more, cs = inner ++ ']' :: rest ∧ IsBracketed inner part ∧
      Continues rest more ∧ parts = done ++ part :: more
  | .beforeClose done, cs =>
    ∃ rest more, cs = ']' :: rest ∧ Continues rest more ∧ parts = done ++ more
  | .between done, cs => ∃ more, Continues cs more ∧ parts = done ++ more

/-- What a text must be behind a token, it must be with the token before it. -/
theorem TokenAt.demands {parts : List Part} {state next : State} {text rest : List Char}
    (h : TokenAt state text next) (hdemands : Demands parts next rest) :
    Demands parts state (text ++ rest) := by
  cases h with
  | startIdent hrun =>
      obtain ⟨more, hrest, rfl⟩ := hdemands
      exact .mk (.bare hrun) hrest
  | startBracket =>
      obtain ⟨inner, part, tail, more, rfl, hinner, hrest, rfl⟩ := hdemands
      have hspelling := IsSpelling.mk (.bracketed hinner) hrest
      simpa [Demands] using hspelling
  | ident done hrun =>
      obtain ⟨more, hrest, rfl⟩ := hdemands
      exact ⟨text, rest, more, rfl, hrun, hrest, by simp⟩
  | inner done hinner =>
      obtain ⟨tail, more, rfl, hrest, rfl⟩ := hdemands
      exact ⟨text, _, tail, more, rfl, hinner, hrest, by simp⟩
  | closeBracket done =>
      obtain ⟨more, hrest, rfl⟩ := hdemands
      exact ⟨rest, more, rfl, hrest, rfl⟩
  | dot done =>
      obtain ⟨run, tail, more, rfl, hrun, hrest, rfl⟩ := hdemands
      exact ⟨_, by simpa using Continues.cons (.dotted hrun) hrest, rfl⟩
  | openBracket done =>
      obtain ⟨inner, part, tail, more, rfl, hinner, hrest, rfl⟩ := hdemands
      exact ⟨_, by simpa using Continues.cons (.bracketed hinner) hrest, rfl⟩

theorem demands_of_readFrom {total : Nat} {state : State} {cs : List Char} {parts : List Part}
    (h : language.readFrom total state cs = .ok parts) : Demands parts state cs := by
  refine Language.of_readFrom (P := Demands parts) (fun state cs hskipped hfinish => ?_)
    (fun state cs next rest hsteps hnext => ?_) h
  · -- Only between two segments may a text end.
    cases state with
    | between done =>
        cases hfinish
        obtain rfl : cs = [] := dropWhile_isSkipped cs ▸ hskipped
        exact ⟨[], .nil, (List.append_nil _).symm⟩
    | _ => cases hfinish
  · obtain ⟨text, rfl, -, htoken⟩ := tokenAt_of_steps hsteps
    exact htoken.demands hnext

theorem isSpelling_of_parse {text : String} {parts : List Part} (h : parse text = .ok parts) :
    IsSpelling text.toList parts :=
  demands_of_readFrom (Language.readText_eq_ok_iff.mp h).2

theorem parse_eq_ok_iff {text : String} {parts : List Part} :
    parse text = .ok parts ↔ IsSpelling text.toList parts :=
  ⟨isSpelling_of_parse, parse_of_isSpelling⟩

end Sound

/-- A refusal names the kind of text and holds the text itself. -/
theorem rule_of_parse_eq_error {text : String} {d : Diagnostic} (h : parse text = .error d) :
    d.rule = "flat key" ∧ d.text = text := by
  rcases Language.of_readText_eq_error h with ⟨-, rfl⟩ | ⟨-, failure, -, rfl⟩
  · exact ⟨rfl, rfl⟩
  · exact ⟨rfl, rfl⟩

end Reshape.Key
