import Reshape.Proofs.Key.Reading
import Reshape.Proofs.Key.Refusal
import Reshape.Proofs.Pipeline.Accepted
import Reshape.Proofs.Pipeline.Sound

namespace Reshape.Pipeline

open Reshape.Grammar

/-- The container that a slot belongs to. -/
def Slot.bracket : Slot → Bracket
  | firstItem | item => .array
  | firstKey | key | colon | entryValue => .object

/-- The states behind a token of each kind. Arguments and literals stand inside a call, and a
slot stands in a container of its own kind. -/
inductive Reaches : Terminal → State → Prop
  | dot (outer : List OpenCall) (earlier : List Call) : Reaches .dot ⟨outer, .call earlier⟩
  | name (outer : List OpenCall) (earlier : List Call) (name : String) :
      Reaches .name ⟨outer, .afterName earlier name⟩
  | firstName {outer : List OpenCall} (houter : outer ≠ []) (name : String) :
      Reaches .name ⟨outer, .afterFirstName name⟩
  | openParen (opened : OpenCall) (outer : List OpenCall) :
      Reaches .openParen ⟨opened :: outer, .firstArgument⟩
  | comma (opened : OpenCall) (outer : List OpenCall) :
      Reaches .comma ⟨opened :: outer, .argument⟩
  | equal (opened : OpenCall) (outer : List OpenCall) :
      Reaches .equal ⟨opened :: outer, .labelled⟩
  | closeParen (outer : List OpenCall) (calls : List Call) :
      Reaches .closeParen ⟨outer, .afterCall calls⟩
  | literal {t : Terminal} (hname : t ≠ .name) (hword : t.isWord = false) (hnumber : t ≠ .number)
      {outer : List OpenCall} (houter : outer ≠ []) (slot : Slot) (more : List Bracket)
      (written : List Char) : Reaches t ⟨outer, .literal (slot.bracket :: more) written slot⟩
  | afterLiteral {t : Terminal} (hname : t ≠ .name) {outer : List OpenCall} (houter : outer ≠ [])
      (brackets : List Bracket) (written : List Char) :
      Reaches t ⟨outer, .afterLiteral brackets written⟩

section Step

variable {outer : List OpenCall} {t : Terminal} {gap text : List Char} {next : State}

theorem reaches_of_endArgument {term : Term} (h : endArgument outer term t = .ok next) :
    Reaches t next := by
  cases outer with
  | nil => cases h
  | cons opened outer =>
      cases t with
      | comma =>
          cases h
          exact .comma _ _
      | closeParen =>
          cases h
          exact .closeParen _ _
      | _ => cases h

theorem reaches_of_followCalls (gap text : List Char) {calls : List Call}
    (h : followCalls outer calls ⟨t, gap, text⟩ = .ok next) : Reaches t next := by
  cases t with
  | dot =>
      cases h
      exact .dot _ _
  | name =>
      cases h
      exact .name _ _ _
  | _ => exact reaches_of_endArgument h

theorem reaches_of_followName (gap text : List Char) {earlier : List Call} {name : String}
    (h : followName outer earlier name ⟨t, gap, text⟩ = .ok next) : Reaches t next := by
  cases t with
  | openParen =>
      cases h
      exact .openParen _ _
  | _ => exact reaches_of_followCalls gap text h

theorem reaches_of_beginLiteral? (houter : outer ≠ []) {brackets : List Bracket}
    {written : List Char} {place : Place} (h : beginLiteral? brackets written t = some place) :
    Reaches t ⟨outer, place⟩ := by
  cases t with
  | openBracket =>
      cases h
      exact .literal (by decide) rfl (by decide) houter .firstItem _ _
  | openBrace =>
      cases h
      exact .literal (by decide) rfl (by decide) houter .firstKey _ _
  | _ =>
      cases h
      try exact .afterLiteral (by decide) houter _ _

theorem reaches_of_stepSlot? (houter : outer ≠ []) {slot : Slot} {more : List Bracket}
    {written : List Char} {place : Place}
    (h : stepSlot? (slot.bracket :: more) written slot t = some place) :
    Reaches t ⟨outer, place⟩ := by
  have hvalue : beginLiteral? (slot.bracket :: more) written t = some place →
      Reaches t ⟨outer, place⟩ := reaches_of_beginLiteral? houter
  cases slot with
  | item => exact hvalue h
  | entryValue => exact hvalue h
  | firstItem =>
      cases t with
      | closeBracket =>
          cases h
          exact .afterLiteral (by decide) houter _ _
      | _ => exact hvalue h
  | firstKey =>
      cases t with
      | closeBrace =>
          cases h
          exact .afterLiteral (by decide) houter _ _
      | string =>
          cases h
          exact .literal (by decide) rfl (by decide) houter .colon _ _
      | _ => cases h
  | key =>
      cases t with
      | string =>
          cases h
          exact .literal (by decide) rfl (by decide) houter .colon _ _
      | _ => cases h
  | colon =>
      cases t with
      | colon =>
          cases h
          exact .literal (by decide) rfl (by decide) houter .entryValue _ _
      | _ => cases h

theorem reaches_of_stepAfterItem (houter : outer ≠ []) {bracket : Bracket} {more : List Bracket}
    {written : List Char} {place : Place}
    (h : stepAfterItem bracket more written t = .ok place) : Reaches t ⟨outer, place⟩ := by
  cases bracket with
  | array =>
      cases t with
      | comma =>
          cases h
          exact .literal (by decide) rfl (by decide) houter .item _ _
      | closeBracket =>
          cases h
          exact .afterLiteral (by decide) houter _ _
      | _ => cases h
  | object =>
      cases t with
      | comma =>
          cases h
          exact .literal (by decide) rfl (by decide) houter .key _ _
      | closeBrace =>
          cases h
          exact .afterLiteral (by decide) houter _ _
      | _ => cases h

theorem reaches_of_placeOr {place : Place} {found : Option Place}
    (hfound : ∀ behind, found = some behind → Reaches t ⟨outer, behind⟩)
    (h : placeOr outer place found = .ok next) : Reaches t next := by
  cases found with
  | none => cases h
  | some behind =>
      cases h
      exact hfound behind rfl

theorem reaches_of_stepArgument (opened : OpenCall) {place : Place}
    (hplace : place = .firstArgument ∨ place = .argument ∨ place = .labelled)
    (h : stepArgument ⟨opened :: outer, place⟩ ⟨t, gap, text⟩ = .ok next) : Reaches t next := by
  have houter : opened :: outer ≠ [] := List.cons_ne_nil _ _
  have hvalue : ∀ place, placeOr (opened :: outer) place (beginLiteral? [] text t) = .ok next →
      Reaches t next :=
    fun place => reaches_of_placeOr fun behind => reaches_of_beginLiteral? houter
  rcases hplace with rfl | rfl | rfl
  · cases t with
    | closeParen =>
        cases h
        exact .closeParen _ _
    | name =>
        cases h
        exact .firstName houter _
    | _ => exact hvalue .firstArgument h
  · cases t with
    | name =>
        cases h
        exact .firstName houter _
    | _ => exact hvalue .argument h
  · cases t with
    | name =>
        cases h
        exact .name _ _ _
    | _ => exact hvalue .labelled h

theorem Reaches.step {t' : Terminal} {state : State} (hstate : Reaches t' state)
    (h : Pipeline.step state ⟨t, gap, text⟩ = .ok next) : Reaches t next := by
  cases hstate with
  | dot outer earlier =>
      cases t with
      | name =>
          cases h
          exact .name _ _ _
      | _ => cases h
  | name outer earlier name => exact reaches_of_followName gap text h
  | firstName houter name =>
      cases t with
      | equal =>
          obtain ⟨opened, outer, rfl⟩ := List.exists_cons_of_ne_nil houter
          cases h
          exact .equal _ _
      | _ => exact reaches_of_followName gap text h
  | openParen opened outer => exact reaches_of_stepArgument opened (by simp) h
  | comma opened outer => exact reaches_of_stepArgument opened (by simp) h
  | equal opened outer => exact reaches_of_stepArgument opened (by simp) h
  | closeParen outer calls => exact reaches_of_followCalls gap text h
  | literal _ _ _ houter slot more written =>
      exact reaches_of_placeOr (fun behind => reaches_of_stepSlot? houter) h
  | afterLiteral _ houter brackets written =>
      cases brackets with
      | nil => exact reaches_of_endArgument h
      | cons bracket more =>
          cases hafter : stepAfterItem bracket more (written ++ gap ++ text) t with
          | error row =>
              simp only [Pipeline.step, hafter] at h
              cases h
          | ok place =>
              simp only [Pipeline.step, hafter] at h
              cases h
              exact reaches_of_stepAfterItem houter hafter

end Step

section Again

/-- Behind a name the text does not go on like it. -/
def Fits (state : State) (head : Option Char) : Prop :=
  match state.place with
  | .afterName _ _ | .afterFirstName _ => ∀ c ∈ head, isNameChar c = false
  | _ => True

variable {result : List Call} {outer : List OpenCall} {rest : List Char}

theorem delimited_of_ends {opened : OpenCall} {term : Term}
    (h : Ends result (opened :: outer) term rest) : Delimited rest := by
  obtain ⟨arguments, text, more, text', rest', harguments, -, rfl, -⟩ := h
  exact harguments.delimited_moreArguments _

/-- What is accepted behind a literal does not go on like it. -/
theorem delimited_of_demands (houter : outer ≠ []) {brackets : List Bracket}
    {written : List Char} (h : Demands result ⟨outer, .afterLiteral brackets written⟩ rest) :
    Delimited rest := by
  obtain ⟨text, rest', hcloses, rfl, hends⟩ := h
  cases brackets with
  | nil =>
      obtain ⟨opened, outer, rfl⟩ := List.exists_cons_of_ne_nil houter
      obtain rfl : text = [] := hcloses
      exact delimited_of_ends hends
  | cons bracket brackets =>
      obtain ⟨own, tail, hown, -, rfl⟩ := hcloses
      rw [List.append_assoc]
      cases bracket with
      | array => exact hown.delimited_moreItems _
      | object => exact hown.delimited_moreFields _

theorem Reaches.follows {t : Terminal} {state : State} (h : Reaches t state)
    (hfits : Fits state rest.head?) (hdemands : Demands result state rest) : Follows t rest := by
  cases h with
  | name | firstName => exact ⟨fun _ => hfits, by simp⟩
  | literal hname hword hnumber =>
      refine ⟨?_, fun ht => absurd ht hnumber⟩
      rintro (ht | ht)
      · exact absurd ht hname
      · rw [hword] at ht
        cases ht
  | afterLiteral _ houter => exact (delimited_of_demands houter hdemands).follows t
  | _ => exact ⟨by simp [Terminal.isWord], by simp⟩

/-- A token that has been found is found again before every other text that is accepted
behind it. -/
theorem readFrom_again {t t' : Terminal} {state next : State} {gap text : List Char}
    (hgap : IsGap gap) (hoffered : some t ∈ state.place.expected) (hspells : Spells t text)
    (hdistinct : Distinct state.place.expected t text)
    (hstep : step state ⟨t, gap, text⟩ = .ok next) (hreaches : Reaches t' state)
    (hfits : Fits next rest.head?) (haccepts : language.Accepts next rest) :
    language.Accepts state (gap ++ (text ++ rest)) := by
  obtain ⟨result, hresult⟩ := haccepts
  have hfollows := (hreaches.step hstep).follows hfits (demands_of_readFrom (hresult 0))
  exact Language.Accepts.of_readFrom_eq ⟨result, hresult⟩ fun _ =>
    readFrom_token hgap hspells (List.contains_iff_mem.mpr hoffered) hfollows hdistinct hstep

theorem fits_of_reaches {t : Terminal} {state : State} (h : Reaches t state)
    (hname : t = .name → NameEnds rest) : Fits state rest.head? := by
  cases h with
  | name | firstName => exact hname rfl
  | _ => trivial

end Again

section Complete

/-- The shortest way out of open calls, behind an argument. -/
def closers (outer : List OpenCall) : List Char :=
  List.replicate outer.length ')'

def Bracket.closer : Bracket → Char
  | array => ']'
  | object => '\x7d'

/-- The shortest way out of open containers and calls, behind an item. -/
def closing (brackets : List Bracket) (outer : List OpenCall) : List Char :=
  brackets.map Bracket.closer ++ closers outer

variable {outer : List OpenCall} {lead : List Char}

theorem delimited_closing (brackets : List Bracket) (outer : List OpenCall) :
    Delimited (closing brackets outer) := by
  cases brackets with
  | nil =>
      cases outer with
      | nil => exact nofun
      | cons opened outer => exact delimited_cons (by decide) _
  | cons bracket brackets => cases bracket <;> exact delimited_cons (by decide) _

theorem accepts_mark {state next : State} {rest : List Char} {t : Terminal} {c : Char}
    (hlead : IsGap lead) (hspelling : t.spelling? = some [c])
    (ht : state.place.expected.contains (some t) = true)
    (hstep : step state ⟨t, lead, [c]⟩ = .ok next) (hrest : language.Accepts next rest) :
    language.Accepts state (lead ++ (c :: rest)) :=
  hrest.of_readFrom_eq fun _ => readFrom_mark hlead hspelling ht hstep

theorem accepts_endsTerm {opened : OpenCall} {place : Place} {term : Term} (hlead : IsGap lead)
    (h : EndsTerm (opened :: outer) place term)
    (hrest : language.Accepts ⟨outer, .afterCall (opened.add term).close⟩ (closers outer)) :
    language.Accepts ⟨opened :: outer, place⟩ (lead ++ closers (opened :: outer)) :=
  accepts_mark (t := .closeParen) hlead rfl (h.contains_expected (.inr rfl))
    (h.step_eq (.inr rfl) _ _) hrest

theorem accepts_endsCalls {bare : Bool} {place : Place} {calls : List Call} (hlead : IsGap lead)
    (h : EndsCalls outer bare place calls) :
    language.Accepts ⟨outer, place⟩ (lead ++ closers outer) := by
  induction outer generalizing bare place calls lead with
  | nil =>
      refine ⟨calls, fun _ => Language.readFrom_end ?_ (finish_of_endsCalls h)⟩
      rw [closers, List.length_nil, List.replicate_zero, List.append_nil]
      exact List.dropWhile_eq_nil_iff.mpr hlead
  | cons opened outer ih => exact accepts_endsTerm hlead (.pipeline h) (ih isGap_nil (.full _))

theorem accepts_afterLiteral (houter : outer ≠ []) (brackets : List Bracket)
    (written : List Char) (hlead : IsGap lead) :
    language.Accepts ⟨outer, .afterLiteral brackets written⟩ (lead ++ closing brackets outer) := by
  induction brackets generalizing written lead with
  | nil =>
      obtain ⟨opened, outer, rfl⟩ := List.exists_cons_of_ne_nil houter
      exact accepts_endsTerm hlead (.literal written) (accepts_endsCalls isGap_nil (.full _))
  | cons bracket brackets ih =>
      cases bracket with
      | array => exact accepts_mark (t := .closeBracket) hlead rfl rfl rfl (ih _ isGap_nil)
      | object => exact accepts_mark (t := .closeBrace) hlead rfl rfl rfl (ih _ isGap_nil)

theorem isLiteral_zero : Number.IsLiteral ['0'] := by
  have hzero : Number.IsLiteral ([] ++ ['0'] ++ [] ++ []) := .mk .none .zero .none .none
  exact hzero

theorem accepts_value (houter : outer ≠ []) {place : Place} {brackets : List Bracket}
    {before : List Char} (hlead : IsGap lead) (hplace : TakesValue lead place brackets before) :
    language.Accepts ⟨outer, place⟩ (lead ++ '0' :: closing brackets outer) :=
  (accepts_afterLiteral houter brackets (before ++ ['0']) isGap_nil).of_readFrom_eq fun _ =>
    readFrom_scalar hlead hplace (.inl rfl) (.number isLiteral_zero)
      (delimited_closing brackets outer) outer

/-- What is missing in a slot before its container can be closed. -/
def Slot.missing : Slot → List Char
  | firstItem | firstKey => []
  | item | entryValue => ['0']
  | key => ['"', '"', ':', '0']
  | colon => [':', '0']

theorem accepts_slot (houter : outer ≠ []) (slot : Slot) (more : List Bracket)
    (written : List Char) (hlead : IsGap lead) :
    language.Accepts ⟨outer, .literal (slot.bracket :: more) written slot⟩
      (lead ++ (slot.missing ++ closing (slot.bracket :: more) outer)) := by
  have hcolon : ∀ (written lead : List Char), IsGap lead →
      language.Accepts ⟨outer, .literal (.object :: more) written .colon⟩
        (lead ++ ':' :: '0' :: closing (.object :: more) outer) :=
    fun written lead hlead => accepts_mark (t := .colon) hlead rfl rfl rfl
      (accepts_value houter isGap_nil (.slot (.inr (.inr rfl))))
  cases slot with
  | firstItem =>
      exact accepts_mark (t := .closeBracket) hlead rfl rfl rfl
        (accepts_afterLiteral houter more _ isGap_nil)
  | firstKey =>
      exact accepts_mark (t := .closeBrace) hlead rfl rfl rfl
        (accepts_afterLiteral houter more _ isGap_nil)
  | item => exact accepts_value houter hlead (.slot (.inr (.inl rfl)))
  | entryValue => exact accepts_value houter hlead (.slot (.inr (.inr rfl)))
  | colon => exact hcolon written lead hlead
  | key =>
      have hkey : IsString ('"' :: ([] ++ ['"'])) := .mk (.inl rfl) .nil
      refine (hcolon (written ++ lead ++ ['"', '"']) [] isGap_nil).of_readFrom_eq fun _ => ?_
      exact readFrom_token (t := .string) hlead (.string hkey) rfl
        ⟨by simp [Terminal.isWord], by simp⟩ (by simp [Distinct]) rfl

/-- Every state that is reached can be completed, with or without a gap before. -/
theorem Reaches.exists_completion {t : Terminal} {state : State} (h : Reaches t state)
    (hlead : IsGap lead) :
    ∃ completion, Fits state completion.head? ∧
      language.Accepts state (lead ++ completion) := by
  have hends : ∀ outer, NameEnds (closers outer) :=
    fun outer => (delimited_closing [] outer).nameEnds
  cases h with
  | dot outer earlier =>
      have hname : IsName ['f'] := isName_cons rfl rfl
      refine ⟨'f' :: closers outer, trivial, ?_⟩
      have hcalls : language.Accepts ⟨outer, .afterName earlier (String.ofList ['f'])⟩
          (closers outer) := accepts_endsCalls isGap_nil (.bare (.later earlier _))
      exact hcalls.of_readFrom_eq fun _ => readFrom_token hlead (.name hname) rfl
        ⟨fun _ => hends outer, by simp⟩ (distinct_of_no_words rfl _) rfl
  | name outer earlier name =>
      exact ⟨closers outer, hends outer, accepts_endsCalls hlead (.bare (.later earlier name))⟩
  | firstName houter name =>
      exact ⟨closers _, hends _, accepts_endsCalls hlead (.bare (.first houter name))⟩
  | openParen opened outer =>
      exact ⟨closers (opened :: outer), trivial,
        accepts_mark (t := .closeParen) hlead rfl rfl rfl (accepts_endsCalls isGap_nil (.full _))⟩
  | comma opened outer =>
      exact ⟨_, trivial,
        accepts_value (List.cons_ne_nil _ _) hlead (.argument (.inr (.inl rfl)))⟩
  | equal opened outer =>
      exact ⟨_, trivial,
        accepts_value (List.cons_ne_nil _ _) hlead (.argument (.inr (.inr rfl)))⟩
  | closeParen outer calls => exact ⟨closers outer, trivial, accepts_endsCalls hlead (.full calls)⟩
  | literal _ _ _ houter slot more written =>
      exact ⟨_, trivial, accepts_slot houter slot more written hlead⟩
  | afterLiteral _ houter brackets written =>
      exact ⟨_, trivial, accepts_afterLiteral houter brackets written hlead⟩

end Complete

def viable : language.Viable where
  Reached := fun state => ∃ t, Reaches t state
  Fits := Fits
  reached_start := ⟨.dot, .dot [] []⟩
  token := by
    rintro state next cs rest ⟨t', hstate⟩ hsteps
    obtain ⟨gap, t, text, hgap, hoffered, hspells, hdistinct, hrest, rfl, hstep⟩ :=
      exists_token_of_steps hsteps
    have hnext := hstate.step hstep
    obtain ⟨c, tail, rfl, -⟩ := exists_start_of_spells hspells
    refine ⟨⟨t, hnext⟩, fits_of_reaches hnext hrest, gap ++ (c :: tail), by simp, by simp, ?_⟩
    intro rest' hfits haccepts
    rw [List.append_assoc]
    exact readFrom_again hgap hoffered hspells hdistinct hstep hstate hfits haccepts
  scan_front := append_of_scan
  complete := fun ⟨_, hstate⟩ hlead => hstate.exists_completion hlead

theorem isAtFirstFault_of_read {text : String} {d : Diagnostic}
    (hblank : text.toList.all Text.isBlank = false) (h : read text = .error d) :
    d.IsAtFirstFault (fun accepted => ∃ calls, read accepted = .ok calls) text := by
  refine viable.isAtFirstFault (fun cs haccepts => ?_) hblank h
  obtain ⟨calls, hcalls⟩ := haccepts
  have hrun : language.readFrom 0 language.start (String.ofList cs).toList = .ok calls := by
    rw [String.toList_ofList]
    exact hcalls 0
  exact ⟨calls, read_of_isLayout (isLayout_of_readFrom hrun)⟩

end Reshape.Pipeline

namespace Reshape.Grammar

/-- A key or a pipeline that holds more than blanks is refused at the first place where it goes
wrong. -/
theorem isAtFirstFault_of_read_eq_error {text : String}
    (hblank : text.toList.all Text.isBlank = false) (d : Diagnostic) :
    (Key.read text = .error (.malformed d) →
        d.IsAtFirstFault (fun accepted => ∃ parts, Key.parse accepted = .ok parts) text) ∧
      (Pipeline.read text = .error d →
        d.IsAtFirstFault (fun accepted => ∃ calls, Pipeline.read accepted = .ok calls) text) :=
  ⟨fun h => Key.isAtFirstFault_of_parse hblank (Key.read_eq_malformed_iff.mp h),
    Pipeline.isAtFirstFault_of_read hblank⟩

/-- Where a text is refused. -/
def refusedAt? {R : Type} : Except Diagnostic R → Option Text.Position
  | .ok _ => none
  | .error d => some d.position

theorem exists_of_refusedAt? {R : Type} {outcome : Except Diagnostic R} {p : Text.Position}
    (h : refusedAt? outcome = some p) : ∃ d, outcome = .error d ∧ d.position = p := by
  cases outcome with
  | ok result => cases h
  | error d => exact ⟨d, rfl, Option.some.inj h⟩

theorem isAtFirstFault_two_lines :
    (∃ d, Key.read "f(\n1 x" = .error (.malformed d) ∧ d.position = ⟨1, 3⟩ ∧
      d.IsAtFirstFault (fun accepted => ∃ parts, Key.parse accepted = .ok parts) "f(\n1 x") ∧
    ∃ d, Pipeline.read "f(\n1 x" = .error d ∧ d.position = ⟨2, 3⟩ ∧
      d.IsAtFirstFault (fun accepted => ∃ calls, Pipeline.read accepted = .ok calls)
        "f(\n1 x" := by
  have hkey : refusedAt? (Key.parse "f(\n1 x") = some ⟨1, 3⟩ := by decide +kernel
  have hcalls : refusedAt? (Pipeline.read "f(\n1 x") = some ⟨2, 3⟩ := by decide +kernel
  obtain ⟨d, hkey, hposition⟩ := exists_of_refusedAt? hkey
  obtain ⟨d', hcalls, hposition'⟩ := exists_of_refusedAt? hcalls
  have hkey := Key.read_eq_malformed_iff.mpr hkey
  exact ⟨⟨d, hkey, hposition, (isAtFirstFault_of_read_eq_error (by decide) d).1 hkey⟩,
    d', hcalls, hposition', (isAtFirstFault_of_read_eq_error (by decide) d').2 hcalls⟩

end Reshape.Grammar
