import Reshape.Proofs.Pipeline.Accepted

/-!
Only layouts are read. Main statement: `isLayout_of_read`. Each state of the reader demands
something of the text that is left; what a state demands follows from what the state behind
the next token demands, so that the demand of the last state goes back to the first.
-/

namespace Reshape.Pipeline

open Reshape.Grammar

section Demands

/-- The calls around an argument when it has been given a label. -/
def withLabel (outer : List OpenCall) (name : String) : List OpenCall :=
  (setLabel outer name).outer

/-- The part of a literal that follows an item of a container. -/
def Bracket.more : Bracket → Part
  | array => .moreItems
  | object => .moreFields

/-- A text that closes the open containers of a literal, behind an item of the innermost. -/
def Closes : List Bracket → List Char → Prop
  | [], text => text = []
  | bracket :: brackets, text => ∃ own rest, LiteralText bracket.more own ∧
      Closes brackets rest ∧ text = own ++ rest

/-- A text that goes on in the innermost open container of a literal, and closes all. -/
inductive GoesOn (brackets : List Bracket) : Slot → List Char → Prop
  | endArray {gap rest : List Char} (hgap : IsGap gap) (hrest : Closes (brackets.drop 1) rest) :
      GoesOn brackets .firstItem (gap ++ (']' :: rest))
  | value {slot : Slot} {gap value rest : List Char}
      (hslot : slot = .firstItem ∨ slot = .item ∨ slot = .entryValue) (hgap : IsGap gap)
      (hvalue : LiteralText .value value) (hrest : Closes brackets rest) :
      GoesOn brackets slot (gap ++ (value ++ rest))
  | endObject {gap rest : List Char} (hgap : IsGap gap) (hrest : Closes (brackets.drop 1) rest) :
      GoesOn brackets .firstKey (gap ++ ('\x7d' :: rest))
  | key {slot : Slot} {gap key rest : List Char} (hslot : slot = .firstKey ∨ slot = .key)
      (hgap : IsGap gap) (hkey : IsString key) (hrest : GoesOn brackets .colon rest) :
      GoesOn brackets slot (gap ++ (key ++ rest))
  | colon {gap rest : List Char} (hgap : IsGap gap) (hrest : GoesOn brackets .entryValue rest) :
      GoesOn brackets .colon (gap ++ (':' :: rest))

variable (result : List Call)

/-- A text that ends an argument, or all calls, with the given term, and then the calls
around it. -/
def Ends : List OpenCall → Term → List Char → Prop
  | [], term, rest => term = .pipeline result ∧ IsGap rest
  | opened :: outer, term, rest => ∃ arguments text more text' rest',
      Layout (.moreArguments arguments) text ∧ Layout (.moreCalls false more) text' ∧
      rest = text ++ (text' ++ rest') ∧
      Ends outer (.pipeline (((opened.add term).addAll arguments).close ++ more)) rest'

/-- A text that goes on behind calls. -/
def FollowsCalls (bare : Bool) (outer : List OpenCall) (calls : List Call) (cs : List Char) :
    Prop :=
  ∃ more text rest, Layout (.moreCalls bare more) text ∧ cs = text ++ rest ∧
    Ends result outer (.pipeline (calls ++ more)) rest

/-- A text that goes on behind the name of a call. -/
def FollowsName (outer : List OpenCall) (earlier : List Call) (name : String)
    (cs : List Char) : Prop :=
  (∃ gap arguments text rest, IsGap gap ∧ Layout (.arguments arguments) text ∧
    cs = gap ++ ('(' :: (text ++ rest)) ∧
    FollowsCalls result false outer (earlier ++ [.mk name arguments]) rest) ∨
  FollowsCalls result true outer (earlier ++ [.mk name []]) cs

def TermAt (outer : List OpenCall) (cs : List Char) : Prop :=
  ∃ gap t text rest, IsGap gap ∧ Layout (.term t) text ∧ cs = gap ++ (text ++ rest) ∧
    Ends result outer t rest

def ArgumentAt (outer : List OpenCall) (cs : List Char) : Prop :=
  TermAt result outer cs ∨
    ∃ gap label gap' rest, IsGap gap ∧ IsName label ∧ label ∉ words ∧ IsGap gap' ∧
      cs = gap ++ (label ++ (gap' ++ ('=' :: rest))) ∧
      TermAt result (withLabel outer (String.ofList label)) rest

/-- What a state demands of the text that is left. Behind a name the text has been looked at
already: it does not go on like a name. -/
def Demands (state : State) (cs : List Char) : Prop :=
  match state.place with
  | .call earlier => ∃ gap calls text rest, IsGap gap ∧ Layout (.calls calls) text ∧
      cs = gap ++ (text ++ rest) ∧ Ends result state.outer (.pipeline (earlier ++ calls)) rest
  | .afterName earlier name => NameEnds cs → FollowsName result state.outer earlier name cs
  | .afterFirstName name => NameEnds cs → FollowsName result state.outer [] name cs ∨
      ∃ gap rest, IsGap gap ∧ cs = gap ++ ('=' :: rest) ∧
        TermAt result (withLabel state.outer name) rest
  | .afterCall calls => FollowsCalls result false state.outer calls cs
  | .firstArgument => ArgumentAt result state.outer cs ∨
      ∃ opened outer gap rest, state.outer = opened :: outer ∧ IsGap gap ∧
        cs = gap ++ (')' :: rest) ∧ FollowsCalls result false outer opened.close rest
  | .argument => ArgumentAt result state.outer cs
  | .labelled => TermAt result state.outer cs
  | .literal brackets written slot => ∃ text rest, GoesOn brackets slot text ∧
      cs = text ++ rest ∧ Ends result state.outer (.literal (String.ofList (written ++ text))) rest
  | .afterLiteral brackets written => ∃ text rest, Closes brackets text ∧
      cs = text ++ rest ∧ Ends result state.outer (.literal (String.ofList (written ++ text))) rest

end Demands

section Token

theorem exists_token_of_steps {state next : State} {cs rest : List Char}
    (h : language.Steps state cs next rest) :
    ∃ gap t text, IsGap gap ∧ some t ∈ state.place.expected ∧ Spells t text ∧
      Distinct state.place.expected t text ∧ (t = .name → NameEnds rest) ∧
      cs = gap ++ (text ++ rest) ∧ step state ⟨t, gap, text⟩ = .ok next := by
  obtain ⟨hskipped, hscan, hstep⟩ := h
  obtain ⟨hoffered, hspells, hdistinct, hends⟩ := spells_of_scan hscan
  refine ⟨_, _, _, ?_, hoffered, hspells, hdistinct, hends, ?_, hstep⟩
  · exact fun c hc => List.all_eq_true.mp List.all_takeWhile c hc
  · rw [← (append_of_scan hscan).1, ← hskipped, List.takeWhile_append_dropWhile]

theorem Spells.eq_of_spelling? {t : Terminal} {text spelling : List Char} (h : Spells t text)
    (hspelling : t.spelling? = some spelling) : text = spelling := by
  cases h with
  | number | string | name => cases hspelling
  | exact h => exact Option.some.inj (h.symm.trans hspelling)

theorem Spells.isName {text : List Char} (h : Spells .name text) : IsName text := by
  cases h with
  | name h => exact h
  | exact h => cases h

theorem Spells.isString {text : List Char} (h : Spells .string text) : IsString text := by
  cases h with
  | string h => exact h
  | exact h => cases h

theorem notMem_words {place : Place} {text : List Char}
    (hplace : place = .firstArgument ∨ place = .argument ∨ place = .labelled)
    (h : Distinct place.expected .name text) : text ∉ words := by
  rw [← ofName_eq_name_iff]
  refine h rfl (List.contains_iff_mem.mp ?_)
  rcases ofName_eq_name_or_isWord text with hname | hword
  · rw [hname]
    rcases hplace with rfl | rfl | rfl <;> rfl
  · revert hword
    rcases hplace with rfl | rfl | rfl <;> cases Terminal.ofName text <;> intro hword <;>
      first
      | rfl
      | cases hword

end Token

variable {result : List Call}

section Literal

theorem exists_value_of_beginLiteral? {outer : List OpenCall} {brackets : List Bracket}
    (before : List Char) {text rest : List Char} {t : Terminal} {place : Place} (h : Spells t text)
    (hplace : beginLiteral? brackets (before ++ text) t = some place)
    (hdemands : Demands result ⟨outer, place⟩ rest) :
    ∃ value tail rest', LiteralText .value value ∧ Closes brackets tail ∧
      text ++ rest = value ++ (tail ++ rest') ∧
      Ends result outer (.literal (String.ofList (before ++ (value ++ tail)))) rest' := by
  have hscalar : LiteralText .value text → place = .afterLiteral brackets (before ++ text) →
      ∃ value tail rest', LiteralText .value value ∧ Closes brackets tail ∧
        text ++ rest = value ++ (tail ++ rest') ∧
        Ends result outer (.literal (String.ofList (before ++ (value ++ tail)))) rest' := by
    rintro hvalue rfl
    obtain ⟨tail, rest', htail, rfl, hends⟩ := hdemands
    exact ⟨text, tail, rest', hvalue, htail, rfl, by simpa using hends⟩
  cases t with
  | number =>
      cases hplace
      cases h with
      | number h => exact hscalar (.number h) rfl
      | exact h => cases h
  | string =>
      cases hplace
      exact hscalar (.string h.isString) rfl
  | trueWord =>
      cases hplace
      exact hscalar (.word (mem_words_of_isWord rfl h)) rfl
  | falseWord =>
      cases hplace
      exact hscalar (.word (mem_words_of_isWord rfl h)) rfl
  | nullWord =>
      cases hplace
      exact hscalar (.word (mem_words_of_isWord rfl h)) rfl
  | openBracket =>
      cases hplace
      obtain rfl := h.eq_of_spelling? rfl
      obtain ⟨inner, rest', hinner, rfl, hends⟩ := hdemands
      cases hinner with
      | @endArray gap tail hgap htail =>
          exact ⟨_, tail, rest', .array (.emptyArray hgap), htail, by simp, by simpa using hends⟩
      | @value _ gap value _ _ hgap hvalue hmore =>
          obtain ⟨own, tail, hown, htail, rfl⟩ := hmore
          exact ⟨_, tail, rest', .array (.firstItem hgap hvalue hown), htail, by simp,
            by simpa using hends⟩
      | key hslot => rcases hslot with hslot | hslot <;> cases hslot
  | openBrace =>
      cases hplace
      obtain rfl := h.eq_of_spelling? rfl
      obtain ⟨inner, rest', hinner, rfl, hends⟩ := hdemands
      cases hinner with
      | @endObject gap tail hgap htail =>
          exact ⟨_, tail, rest', .object (.emptyObject hgap), htail, by simp,
            by simpa using hends⟩
      | value hslot => rcases hslot with hslot | hslot | hslot <;> cases hslot
      | @key _ gap key _ _ hgap hkey hcolon =>
          cases hcolon with
          | value hslot => rcases hslot with hslot | hslot | hslot <;> cases hslot
          | key hslot => rcases hslot with hslot | hslot <;> cases hslot
          | @colon gap' _ hgap' hvalue =>
              cases hvalue with
              | key hslot => rcases hslot with hslot | hslot <;> cases hslot
              | @value _ gap'' value _ _ hgap'' hvalue hmore =>
                  obtain ⟨own, tail, hown, htail, rfl⟩ := hmore
                  exact ⟨_, tail, rest', .object (.firstField hgap hkey hgap' hgap'' hvalue hown),
                    htail, by simp, by simpa using hends⟩
  | _ => cases hplace

theorem goesOn_of_stepSlot? {outer : List OpenCall} {brackets : List Bracket}
    {written gap text rest : List Char} {slot : Slot} {t : Terminal} {place : Place}
    (hgap : IsGap gap) (h : Spells t text)
    (hplace : stepSlot? brackets (written ++ gap ++ text) slot t = some place)
    (hdemands : Demands result ⟨outer, place⟩ rest) :
    Demands result ⟨outer, .literal brackets written slot⟩ (gap ++ (text ++ rest)) := by
  have hvalue : slot = .firstItem ∨ slot = .item ∨ slot = .entryValue →
      beginLiteral? brackets (written ++ gap ++ text) t = some place →
      Demands result ⟨outer, .literal brackets written slot⟩ (gap ++ (text ++ rest)) := by
    intro hslot hbegin
    obtain ⟨value, tail, rest', hvalue, htail, heq, hends⟩ :=
      exists_value_of_beginLiteral? _ h hbegin hdemands
    exact ⟨_, rest', .value hslot hgap hvalue htail, by simp [heq], by simpa using hends⟩
  cases slot with
  | item => exact hvalue (by simp) hplace
  | entryValue => exact hvalue (by simp) hplace
  | firstItem =>
      by_cases ht : t = .closeBracket
      · subst ht
        cases hplace
        obtain rfl := h.eq_of_spelling? rfl
        obtain ⟨tail, rest', htail, rfl, hends⟩ := hdemands
        exact ⟨_, rest', .endArray hgap htail, by simp, by simpa using hends⟩
      · refine hvalue (by simp) ?_
        rwa [stepSlot?] at hplace
        exact ht
  | firstKey =>
      cases t with
      | closeBrace =>
          cases hplace
          obtain rfl := h.eq_of_spelling? rfl
          obtain ⟨tail, rest', htail, rfl, hends⟩ := hdemands
          exact ⟨_, rest', .endObject hgap htail, by simp, by simpa using hends⟩
      | string =>
          cases hplace
          obtain ⟨tail, rest', htail, rfl, hends⟩ := hdemands
          exact ⟨_, rest', .key (.inl rfl) hgap h.isString htail, by simp, by simpa using hends⟩
      | _ => cases hplace
  | key =>
      cases t with
      | string =>
          cases hplace
          obtain ⟨tail, rest', htail, rfl, hends⟩ := hdemands
          exact ⟨_, rest', .key (.inr rfl) hgap h.isString htail, by simp, by simpa using hends⟩
      | _ => cases hplace
  | colon =>
      cases t with
      | colon =>
          cases hplace
          obtain rfl := h.eq_of_spelling? rfl
          obtain ⟨tail, rest', htail, rfl, hends⟩ := hdemands
          exact ⟨_, rest', .colon hgap htail, by simp, by simpa using hends⟩
      | _ => cases hplace

theorem closes_of_stepAfterItem {outer : List OpenCall} {bracket : Bracket}
    {brackets : List Bracket} {written gap text rest : List Char} {t : Terminal} {place : Place}
    (hgap : IsGap gap) (h : Spells t text)
    (hplace : stepAfterItem bracket brackets (written ++ gap ++ text) t = .ok place)
    (hdemands : Demands result ⟨outer, place⟩ rest) :
    Demands result ⟨outer, .afterLiteral (bracket :: brackets) written⟩
      (gap ++ (text ++ rest)) := by
  cases bracket with
  | array =>
      cases t with
      | comma =>
          cases hplace
          obtain rfl := h.eq_of_spelling? rfl
          obtain ⟨_, rest', hinner, rfl, hends⟩ := hdemands
          cases hinner with
          | key hslot => rcases hslot with hslot | hslot <;> cases hslot
          | value _ hgap' hvalue hmore =>
              obtain ⟨own, tail, hown, htail, rfl⟩ := hmore
              exact ⟨_, rest', ⟨_, tail, .nextItem hgap hgap' hvalue hown, htail, rfl⟩, by simp,
                by simpa using hends⟩
      | closeBracket =>
          cases hplace
          obtain rfl := h.eq_of_spelling? rfl
          obtain ⟨tail, rest', htail, rfl, hends⟩ := hdemands
          exact ⟨_, rest', ⟨_, tail, .endArray hgap, htail, rfl⟩, by simp, by simpa using hends⟩
      | _ => cases hplace
  | object =>
      cases t with
      | comma =>
          cases hplace
          obtain rfl := h.eq_of_spelling? rfl
          obtain ⟨_, rest', hinner, rfl, hends⟩ := hdemands
          cases hinner with
          | value hslot => rcases hslot with hslot | hslot | hslot <;> cases hslot
          | key _ hgap' hkey hcolon =>
              cases hcolon with
              | value hslot => rcases hslot with hslot | hslot | hslot <;> cases hslot
              | key hslot => rcases hslot with hslot | hslot <;> cases hslot
              | colon hgap₁ hvalue =>
                  cases hvalue with
                  | key hslot => rcases hslot with hslot | hslot <;> cases hslot
                  | value _ hgap₂ hvalue hmore =>
                      obtain ⟨own, tail, hown, htail, rfl⟩ := hmore
                      exact ⟨_, rest', ⟨_, tail,
                        .nextField hgap hgap' hkey hgap₁ hgap₂ hvalue hown, htail, rfl⟩,
                        by simp, by simpa using hends⟩
      | closeBrace =>
          cases hplace
          obtain rfl := h.eq_of_spelling? rfl
          obtain ⟨tail, rest', htail, rfl, hends⟩ := hdemands
          exact ⟨_, rest', ⟨_, tail, .endObject hgap, htail, rfl⟩, by simp, by simpa using hends⟩
      | _ => cases hplace

end Literal

section Calls

theorem ends_cons_iff {opened : OpenCall} {outer : List OpenCall} {term : Term}
    {cs : List Char} :
    Ends result (opened :: outer) term cs ↔ ∃ arguments text rest,
      Layout (.moreArguments arguments) text ∧ cs = text ++ rest ∧
      FollowsCalls result false outer ((opened.add term).addAll arguments).close rest := by
  constructor
  · rintro ⟨arguments, text, more, text', rest', harguments, hmore, rfl, hends⟩
    exact ⟨arguments, text, _, harguments, rfl, more, text', rest', hmore, rfl, hends⟩
  · rintro ⟨arguments, text, _, harguments, rfl, more, text', rest', hmore, rfl, hends⟩
    exact ⟨arguments, text, more, text', rest', harguments, hmore, rfl, hends⟩

theorem exists_of_argumentAt {opened : OpenCall} {outer : List OpenCall} {cs : List Char}
    (hlabel : opened.label = none) (h : ArgumentAt result (opened :: outer) cs) :
    ∃ gap a text arguments text' rest, IsGap gap ∧ Layout (.argument a) text ∧
      Layout (.moreArguments arguments) text' ∧ cs = gap ++ (text ++ (text' ++ rest)) ∧
      FollowsCalls result false outer (opened.addAll (a :: arguments)).close rest := by
  rcases h with ⟨gap, t, text, _, hgap, ht, rfl, hends⟩ |
    ⟨gap, label, gap', _, hgap, hname, hword, hgap', rfl, gap'', t, text, _, hgap'', ht, rfl,
      hends⟩
  · obtain ⟨arguments, text', rest, harguments, rfl, hcalls⟩ := ends_cons_iff.mp hends
    have hadd : opened.add t = opened.addAll [.mk none t] := by
      rw [OpenCall.add, OpenCall.addAll, hlabel]
    refine ⟨gap, .mk none t, text, arguments, text', rest, hgap, .positional ht, harguments, rfl,
      ?_⟩
    rwa [← addAll_addAll, ← hadd]
  · obtain ⟨arguments, text', rest, harguments, rfl, hcalls⟩ := ends_cons_iff.mp hends
    have hadd : ({ opened with label := some (String.ofList label) } : OpenCall).add t =
        opened.addAll [.mk (some (String.ofList label)) t] := by
      rw [OpenCall.add, OpenCall.addAll, hlabel]
    refine ⟨gap, .mk (some (String.ofList label)) t, _, arguments, text', rest, hgap,
      .labelled hname hword hgap' hgap'' ht, harguments, by simp, ?_⟩
    rwa [← addAll_addAll, ← hadd]

theorem ends_of_endArgument {outer : List OpenCall} {term : Term} {gap text rest : List Char}
    {t : Terminal} {next : State} (hgap : IsGap gap) (h : Spells t text)
    (hnext : endArgument outer term t = .ok next) (hdemands : Demands result next rest) :
    Ends result outer term (gap ++ (text ++ rest)) := by
  cases outer with
  | nil => cases hnext
  | cons opened outer =>
      rw [ends_cons_iff]
      cases t with
      | comma =>
          cases hnext
          obtain rfl := h.eq_of_spelling? rfl
          obtain ⟨gap', a, text, arguments, text', rest', hgap', ha, harguments, rfl, hcalls⟩ :=
            exists_of_argumentAt rfl hdemands
          exact ⟨a :: arguments, _, rest', .nextArgument hgap hgap' ha harguments, by simp, hcalls⟩
      | closeParen =>
          cases hnext
          obtain rfl := h.eq_of_spelling? rfl
          refine ⟨[], _, rest, .endArguments hgap, by simp, ?_⟩
          have hclose : (opened.add term).addAll [] = opened.add term := by simp [OpenCall.addAll]
          rw [hclose]
          exact hdemands
      | _ => cases hnext

theorem exists_calls_of_followsName {outer : List OpenCall} {earlier : List Call}
    {name rest : List Char} (hname : IsName name)
    (h : FollowsName result outer earlier (String.ofList name) rest) :
    ∃ c more text rest', c.name = String.ofList name ∧ Layout (.calls (c :: more)) text ∧
      name ++ rest = text ++ rest' ∧
      Ends result outer (.pipeline (earlier ++ c :: more)) rest' := by
  rcases h with ⟨gap, arguments, inner, _, hgap, harguments, rfl, hcalls⟩ | hcalls
  · obtain ⟨more, text, rest', hmore, rfl, hends⟩ := hcalls
    exact ⟨_, more, _, rest', rfl, .calls (.full hname hgap harguments) hmore, by simp,
      by simpa using hends⟩
  · obtain ⟨more, text, rest', hmore, rfl, hends⟩ := hcalls
    exact ⟨_, more, _, rest', rfl, .calls (.bare hname) hmore, by simp, by simpa using hends⟩

theorem isNameChar_of_isNameStart {c : Char} (hc : isNameStart c = true) :
    isNameChar c = true := by
  simp only [isNameStart, isNameChar, Text.isAsciiAlphanumeric, Bool.or_eq_true,
    Bool.and_eq_true] at hc ⊢
  rcases hc with (hc | hc) | hc
  · exact .inl (.inl (.inl (.inl hc)))
  · exact .inl (.inl (.inl (.inr hc)))
  · exact .inl (.inr hc)

theorem followsCalls_of_step {outer : List OpenCall} {calls : List Call} {bare : Bool}
    {gap text rest : List Char} {t : Terminal} {next : State} (hgap : IsGap gap)
    (h : Spells t text) (hrest : t = .name → NameEnds rest)
    (hspace : bare = true → NameEnds (gap ++ (text ++ rest)))
    (hnext : followCalls outer calls ⟨t, gap, text⟩ = .ok next)
    (hdemands : Demands result next rest) :
    FollowsCalls result bare outer calls (gap ++ (text ++ rest)) := by
  have hend : endArgument outer (.pipeline calls) t = .ok next →
      FollowsCalls result bare outer calls (gap ++ (text ++ rest)) := by
    intro hnext
    have hends := ends_of_endArgument hgap h hnext hdemands
    exact ⟨[], [], _, .last, rfl, by simpa using hends⟩
  cases t with
  | dot =>
      cases hnext
      obtain rfl := h.eq_of_spelling? rfl
      obtain ⟨gap', more, text, rest', hgap', hmore, rfl, hends⟩ := hdemands
      exact ⟨more, _, rest', .dotted hgap hgap' hmore, by simp, hends⟩
  | name =>
      cases hnext
      have hname := h.isName
      obtain ⟨c, more, text', rest', -, hcalls, heq, hends⟩ :=
        exists_calls_of_followsName hname (hdemands (hrest rfl))
      refine ⟨c :: more, gap ++ text', rest', .spaced hgap ?_ hcalls, by simp [heq], hends⟩
      rintro hbare rfl
      cases hname with
      | mk hc =>
          have hnot := hspace hbare _ rfl
          rw [isNameChar_of_isNameStart hc] at hnot
          cases hnot
  | _ => exact hend hnext

theorem followsName_of_step {outer : List OpenCall} {earlier : List Call} {name : String}
    {gap text rest : List Char} {t : Terminal} {next : State} (hgap : IsGap gap)
    (h : Spells t text) (hrest : t = .name → NameEnds rest)
    (hspace : NameEnds (gap ++ (text ++ rest)))
    (hnext : followName outer earlier name ⟨t, gap, text⟩ = .ok next)
    (hdemands : Demands result next rest) :
    FollowsName result outer earlier name (gap ++ (text ++ rest)) := by
  by_cases ht : t = .openParen
  · subst ht
    cases hnext
    obtain rfl := h.eq_of_spelling? rfl
    refine .inl ?_
    rcases hdemands with harguments | ⟨opened, outer', gap', rest', heq, hgap', rfl, hcalls⟩
    · obtain ⟨gap', a, text, arguments, text', rest', hgap', ha, hmore, rfl, hcalls⟩ :=
        exists_of_argumentAt rfl harguments
      exact ⟨gap, a :: arguments, _, rest', hgap, .firstArgument hgap' ha hmore, by simp, hcalls⟩
    · cases heq
      exact ⟨gap, [], _, rest', hgap, .noArguments hgap', by simp, hcalls⟩
  · refine .inr (followsCalls_of_step hgap h hrest (fun _ => hspace) ?_ hdemands)
    rw [← hnext]
    cases t <;> first | rfl | exact absurd rfl ht

end Calls

section Arguments

theorem termAt_of_beginLiteral? {outer : List OpenCall} {gap text rest : List Char}
    {t : Terminal} {place : Place} (hgap : IsGap gap) (h : Spells t text)
    (hplace : beginLiteral? [] text t = some place)
    (hdemands : Demands result ⟨outer, place⟩ rest) :
    TermAt result outer (gap ++ (text ++ rest)) := by
  obtain ⟨value, tail, rest', hvalue, htail, heq, hends⟩ :=
    exists_value_of_beginLiteral? [] h hplace hdemands
  obtain rfl : tail = [] := htail
  exact ⟨gap, _, value, rest', hgap, .literal hvalue, by rw [heq]; rfl, by simpa using hends⟩

theorem termAt_of_followsName {outer : List OpenCall} {gap name rest : List Char}
    (hgap : IsGap gap) (hname : IsName name) (hword : name ∉ words)
    (h : FollowsName result outer [] (String.ofList name) rest) :
    TermAt result outer (gap ++ (name ++ rest)) := by
  obtain ⟨c, more, text, rest', hc, hcalls, heq, hends⟩ := exists_calls_of_followsName hname h
  refine ⟨gap, .pipeline (c :: more), text, rest', hgap, .pipeline hcalls ?_, by rw [heq], hends⟩
  rwa [hc, String.toList_ofList]

theorem argumentAt_of_name {outer : List OpenCall} {gap name rest : List Char}
    (hgap : IsGap gap) (hname : IsName name) (hword : name ∉ words) (hrest : NameEnds rest)
    (hdemands : Demands result ⟨outer, .afterFirstName (String.ofList name)⟩ rest) :
    ArgumentAt result outer (gap ++ (name ++ rest)) := by
  rcases hdemands hrest with hfollows | ⟨gap', rest', hgap', rfl, hterm⟩
  · exact .inl (termAt_of_followsName hgap hname hword hfollows)
  · exact .inr ⟨gap, name, gap', rest', hgap, hname, hword, hgap', rfl, hterm⟩

theorem demands_of_stepArgument {outer : List OpenCall} {place : Place}
    (hplace : place = .firstArgument ∨ place = .argument ∨ place = .labelled)
    {gap text rest : List Char} {t : Terminal} {next : State} (hgap : IsGap gap)
    (h : Spells t text) (hdistinct : Distinct place.expected t text)
    (hrest : t = .name → NameEnds rest)
    (hnext : stepArgument ⟨outer, place⟩ ⟨t, gap, text⟩ = .ok next)
    (hdemands : Demands result next rest) :
    Demands result ⟨outer, place⟩ (gap ++ (text ++ rest)) := by
  by_cases hname : t = .name
  · subst hname
    have hword := notMem_words hplace hdistinct
    rcases hplace with rfl | rfl | rfl
    · cases hnext
      exact .inl (argumentAt_of_name hgap h.isName hword (hrest rfl) hdemands)
    · cases hnext
      exact argumentAt_of_name hgap h.isName hword (hrest rfl) hdemands
    · cases hnext
      exact termAt_of_followsName hgap h.isName hword (hdemands (hrest rfl))
  · by_cases hclose : place = .firstArgument ∧ t = .closeParen
    · obtain ⟨rfl, rfl⟩ := hclose
      obtain rfl := h.eq_of_spelling? rfl
      cases outer with
      | nil => cases hnext
      | cons opened outer =>
          cases hnext
          exact .inr ⟨opened, outer, gap, rest, rfl, hgap, rfl, hdemands⟩
    · have hbegin : placeOr outer place (beginLiteral? [] text t) = .ok next := by
        rcases hplace with rfl | rfl | rfl <;> cases t <;> simp_all [stepArgument]
      cases hliteral : beginLiteral? [] text t with
      | none =>
          rw [hliteral] at hbegin
          cases hbegin
      | some place' =>
          rw [hliteral] at hbegin
          cases hbegin
          have hterm := termAt_of_beginLiteral? hgap h hliteral hdemands
          rcases hplace with rfl | rfl | rfl
          · exact .inl (.inl hterm)
          · exact .inl hterm
          · exact hterm

end Arguments

/-- What the state behind a token demands makes what the state before it demands. -/
theorem demands_of_steps {state next : State} {cs rest : List Char}
    (h : language.Steps state cs next rest) (hdemands : Demands result next rest) :
    Demands result state cs := by
  obtain ⟨gap, t, text, hgap, -, hspells, hdistinct, hrest, rfl, hstep⟩ := exists_token_of_steps h
  obtain ⟨outer, place⟩ := state
  cases place with
  | call earlier =>
      cases t with
      | name =>
          cases hstep
          obtain ⟨c, more, text', rest', -, hcalls, heq, hends⟩ :=
            exists_calls_of_followsName hspells.isName (hdemands (hrest rfl))
          exact ⟨gap, c :: more, text', rest', hgap, hcalls, by rw [heq], hends⟩
      | _ => cases hstep
  | afterName earlier name =>
      intro hspace
      exact followsName_of_step hgap hspells hrest hspace hstep hdemands
  | afterFirstName name =>
      intro hspace
      by_cases ht : t = .equal
      · subst ht
        cases hstep
        obtain rfl := hspells.eq_of_spelling? rfl
        refine .inr ⟨gap, rest, hgap, rfl, ?_⟩
        cases outer with
        | nil => exact hdemands
        | cons opened outer => exact hdemands
      · refine .inl (followsName_of_step hgap hspells hrest hspace ?_ hdemands)
        rw [← hstep, step]
        cases t <;> first | rfl | exact absurd rfl ht
  | afterCall calls =>
      exact followsCalls_of_step hgap hspells hrest (by simp) hstep hdemands
  | firstArgument =>
      exact demands_of_stepArgument (by simp) hgap hspells hdistinct hrest hstep hdemands
  | argument =>
      exact demands_of_stepArgument (by simp) hgap hspells hdistinct hrest hstep hdemands
  | labelled =>
      exact demands_of_stepArgument (by simp) hgap hspells hdistinct hrest hstep hdemands
  | literal brackets written slot =>
      cases hslot : stepSlot? brackets (written ++ gap ++ text) slot t with
      | none =>
          simp only [step, hslot, placeOr] at hstep
          cases hstep
      | some place =>
          simp only [step, hslot, placeOr] at hstep
          cases hstep
          exact goesOn_of_stepSlot? hgap hspells hslot hdemands
  | afterLiteral brackets written =>
      cases brackets with
      | nil =>
          have hends := ends_of_endArgument hgap hspells hstep hdemands
          exact ⟨[], _, rfl, rfl, by simpa using hends⟩
      | cons bracket brackets =>
          cases hafter : stepAfterItem bracket brackets (written ++ gap ++ text) t with
          | error row =>
              simp only [step, hafter] at hstep
              cases hstep
          | ok place =>
              simp only [step, hafter] at hstep
              cases hstep
              exact closes_of_stepAfterItem hgap hspells hafter hdemands

theorem demands_of_finish {state : State} {cs : List Char} (hgap : IsGap cs)
    (hfinish : finish state = .ok result) : Demands result state cs := by
  have hcalls : ∀ (bare : Bool) (outer : List OpenCall) (calls : List Call),
      finishCalls outer calls = .ok result → FollowsCalls result bare outer calls cs := by
    intro bare outer calls hcalls
    cases outer with
    | nil =>
        cases hcalls
        exact ⟨[], [], cs, .last, rfl, by simp, hgap⟩
    | cons opened outer => cases hcalls
  obtain ⟨outer, place⟩ := state
  cases place with
  | afterName earlier name => exact fun _ => .inr (hcalls true outer _ hfinish)
  | afterCall calls => exact hcalls false outer calls hfinish
  | _ => cases hfinish

/-- Backwards from the end of the text, each step carries the demand to the state before it. -/
theorem demands_of_readFrom {total : Nat} {state : State} {cs : List Char}
    (h : language.readFrom total state cs = .ok result) : Demands result state cs := by
  refine Language.of_readFrom (P := Demands result) (fun state cs hskipped hfinish => ?_)
    (fun state cs next rest hsteps hnext => demands_of_steps hsteps hnext) h
  exact demands_of_finish (List.dropWhile_eq_nil_iff.mp hskipped) hfinish

theorem isLayout_of_readFrom {total : Nat} {text : String}
    (h : language.readFrom total language.start text.toList = .ok result) :
    IsLayout text result := by
  obtain ⟨gap, found, body, gap', hgap, hbody, htext, hfound, hgap'⟩ := demands_of_readFrom h
  obtain rfl : found = result := by simpa using hfound
  exact ⟨gap, body, gap', hgap, hbody, hgap', htext⟩

/-- Only a layout of calls is read as these calls. -/
theorem isLayout_of_read {text : String} {calls : List Call} (h : read text = .ok calls) :
    IsLayout text calls :=
  isLayout_of_readFrom (Language.readText_eq_ok_iff.mp h).2

end Reshape.Pipeline
