import Mathlib.Data.List.TakeWhile
import Reshape.Proofs.Pipeline.LiteralAccepted

namespace Reshape.Pipeline

open Reshape.Grammar

variable {total : Nat}

/-- An open call with further arguments. -/
def OpenCall.addAll (opened : OpenCall) (arguments : List Argument) : OpenCall :=
  { opened with done := opened.done ++ arguments }

section Places

/-- The places behind the name of a call. Only in an argument it may still be a label. -/
inductive Named (outer : List OpenCall) : Place → List Call → String → Prop
  | later (earlier : List Call) (name : String) :
      Named outer (.afterName earlier name) earlier name
  | first (houter : outer ≠ []) (name : String) : Named outer (.afterFirstName name) [] name

/-- The places behind calls, of which the last one is written with or without parentheses. -/
inductive EndsCalls (outer : List OpenCall) : Bool → Place → List Call → Prop
  | bare {place : Place} {earlier : List Call} {name : String}
      (h : Named outer place earlier name) : EndsCalls outer true place (earlier ++ [.mk name []])
  | full (calls : List Call) : EndsCalls outer false (.afterCall calls) calls

/-- The places behind the term of an argument. -/
inductive EndsTerm (outer : List OpenCall) : Place → Term → Prop
  | literal (written : List Char) :
      EndsTerm outer (.afterLiteral [] written) (.literal (String.ofList written))
  | pipeline {bare : Bool} {place : Place} {calls : List Call}
      (h : EndsCalls outer bare place calls) : EndsTerm outer place (.pipeline calls)

/-- A call of the given name may begin behind a gap. -/
def Launches (total : Nat) (state : State) (outer : List OpenCall) (earlier : List Call)
    (name : String) : Prop :=
  ∀ ⦃gap chars rest : List Char⦄, IsGap gap → IsName chars → String.ofList chars = name →
    NameEnds rest → ∃ place, Named outer place earlier name ∧
      language.readFrom total state (gap ++ (chars ++ rest)) =
        language.readFrom total ⟨outer, place⟩ rest

theorem launches_of_step {state : State} {outer : List OpenCall} {earlier : List Call}
    {name : String} {place : Place} (hplace : Named outer place earlier name)
    (hname : state.place.expected.contains (some .name) = true)
    (hdistinct : Distinct state.place.expected .name name.toList)
    (hstep : ∀ gap, step state ⟨.name, gap, name.toList⟩ = .ok ⟨outer, place⟩) :
    Launches total state outer earlier name := by
  intro gap chars rest hgap hchars heq hrest
  subst heq
  rw [String.toList_ofList] at hdistinct hstep
  exact ⟨place, hplace, readFrom_token hgap (.name hchars) hname ⟨fun _ => hrest, by simp⟩
    hdistinct (hstep gap)⟩

theorem launches_call (outer : List OpenCall) (earlier : List Call) (name : String) :
    Launches total ⟨outer, .call earlier⟩ outer earlier name := by
  refine launches_of_step (.later earlier name) rfl ?_ fun gap => ?_
  · intro _ hmem
    simpa [Place.expected] using hmem
  · simp [step]

theorem distinct_of_no_words {row : Row Terminal}
    (hrow : (row.filter fun offer => offer.any Terminal.isWord) = []) (text : List Char) :
    Distinct row .name text := by
  intro _ hmem
  rcases ofName_eq_name_or_isWord text with hname | hword
  · exact hname
  · have hoffer := List.filter_eq_nil_iff.mp hrow _ hmem
    exact absurd hword (by simpa using hoffer)

theorem EndsCalls.step_eq {outer : List OpenCall} {bare : Bool} {place : Place} {calls : List Call}
    (h : EndsCalls outer bare place calls) {token : Token Terminal}
    (hparen : token.terminal ≠ .openParen) (hequal : token.terminal ≠ .equal) :
    step ⟨outer, place⟩ token = followCalls outer calls token := by
  cases h with
  | full => rfl
  | bare h =>
      cases h with
      | later => simp only [step, followName]
      | first => simp only [step, followName, List.nil_append]

theorem EndsCalls.contains_expected {outer : List OpenCall} {bare : Bool} {place : Place}
    {calls : List Call} (h : EndsCalls outer bare place calls) {t : Terminal}
    (ht : t = .comma ∨ t = .closeParen ∨ t = .dot ∨ t = .name) :
    place.expected.contains (some t) = true := by
  cases h with
  | full => rcases ht with rfl | rfl | rfl | rfl <;> rfl
  | bare h => cases h <;> rcases ht with rfl | rfl | rfl | rfl <;> rfl

theorem EndsCalls.launches {outer : List OpenCall} {bare : Bool} {place : Place} {calls : List Call}
    (h : EndsCalls outer bare place calls) (name : String) :
    Launches total ⟨outer, place⟩ outer calls name := by
  refine launches_of_step (.later calls name) (h.contains_expected (by simp)) ?_ fun gap => ?_
  · cases h with
    | full => exact distinct_of_no_words rfl _
    | bare h => cases h <;> exact distinct_of_no_words rfl _
  · rw [h.step_eq (by simp) (by simp), followCalls, String.ofList_toList]

theorem EndsTerm.contains_expected {outer : List OpenCall} {place : Place} {term : Term}
    (h : EndsTerm outer place term) {t : Terminal} (ht : t = .comma ∨ t = .closeParen) :
    place.expected.contains (some t) = true := by
  cases h with
  | literal => rcases ht with rfl | rfl <;> rfl
  | pipeline h => exact h.contains_expected (by rcases ht with rfl | rfl <;> simp)

theorem EndsTerm.step_eq {outer : List OpenCall} {place : Place} {term : Term}
    (h : EndsTerm outer place term) {t : Terminal} (ht : t = .comma ∨ t = .closeParen)
    (gap text : List Char) :
    step ⟨outer, place⟩ ⟨t, gap, text⟩ = endArgument outer term t := by
  cases h with
  | literal => rfl
  | pipeline h =>
      rw [h.step_eq (by rcases ht with rfl | rfl <;> simp)
        (by rcases ht with rfl | rfl <;> simp)]
      rcases ht with rfl | rfl <;> rfl

/-- The places where an argument may stand, and what becomes of a name there. -/
inductive TakesTerm : Place → Prop
  | firstArgument : TakesTerm .firstArgument
  | argument : TakesTerm .argument
  | labelled : TakesTerm .labelled

theorem TakesTerm.takesValue {place : Place} (h : TakesTerm place) (gap : List Char) :
    TakesValue gap place [] [] := by
  cases h <;> exact .argument (by simp)

theorem TakesTerm.launches {place : Place} (h : TakesTerm place) {outer : List OpenCall}
    (houter : outer ≠ []) {name : String} (hword : name.toList ∉ words) :
    Launches total ⟨outer, place⟩ outer [] name := by
  have hdistinct : ∀ row, Distinct row .name name.toList :=
    fun _ _ _ => ofName_eq_name_iff.mpr hword
  cases h with
  | labelled =>
      refine launches_of_step (.later [] name) rfl (hdistinct _) fun gap => ?_
      simp [step, stepArgument]
  | firstArgument =>
      refine launches_of_step (.first houter name) rfl (hdistinct _) fun gap => ?_
      simp [step, stepArgument]
  | argument =>
      refine launches_of_step (.first houter name) rfl (hdistinct _) fun gap => ?_
      simp [step, stepArgument]

end Places

section Simulation

/-- A part of a layout is read up to its end, where it is known what it writes. -/
def Reads (total : Nat) (text : List Char) : Construct → Prop
  | .call bare c => ∀ {state : State} {outer : List OpenCall} {earlier : List Call}
      {gap rest : List Char}, Launches total state outer earlier c.name → IsGap gap →
      (bare = true → NameEnds rest) → ∃ place, EndsCalls outer bare place (earlier ++ [c]) ∧
        language.readFrom total state (gap ++ (text ++ rest)) =
          language.readFrom total ⟨outer, place⟩ rest
  | .calls calls => ∀ {state : State} {outer : List OpenCall} {earlier : List Call}
      {gap rest : List Char}, (∀ c ∈ calls.head?, Launches total state outer earlier c.name) →
      IsGap gap → NameEnds rest → ∃ bare place, EndsCalls outer bare place (earlier ++ calls) ∧
        language.readFrom total state (gap ++ (text ++ rest)) =
          language.readFrom total ⟨outer, place⟩ rest
  | .moreCalls bare calls => ∀ {place : Place} {outer : List OpenCall} {earlier : List Call}
      {rest : List Char}, EndsCalls outer bare place earlier → NameEnds rest →
      ∃ bare' place', EndsCalls outer bare' place' (earlier ++ calls) ∧
        language.readFrom total ⟨outer, place⟩ (text ++ rest) =
          language.readFrom total ⟨outer, place'⟩ rest
  | .arguments arguments => ∀ {opened : OpenCall} {outer : List OpenCall} {rest : List Char},
      opened.label = none →
      language.readFrom total ⟨opened :: outer, .firstArgument⟩ (text ++ rest) =
        language.readFrom total ⟨outer, .afterCall (opened.addAll arguments).close⟩ rest
  | .moreArguments arguments => ∀ {place : Place} {term : Term} {opened : OpenCall}
      {outer : List OpenCall} {rest : List Char}, EndsTerm (opened :: outer) place term →
      language.readFrom total ⟨opened :: outer, place⟩ (text ++ rest) =
        language.readFrom total
          ⟨outer, .afterCall ((opened.add term).addAll arguments).close⟩ rest
  | .argument a => ∀ {place : Place} {opened : OpenCall} {outer : List OpenCall}
      {gap rest : List Char}, place = .firstArgument ∨ place = .argument → opened.label = none →
      IsGap gap → Delimited rest → ∃ (opened' : OpenCall) (place' : Place) (term : Term),
        EndsTerm (opened' :: outer) place' term ∧ opened'.add term = opened.addAll [a] ∧
        language.readFrom total ⟨opened :: outer, place⟩ (gap ++ (text ++ rest)) =
          language.readFrom total ⟨opened' :: outer, place'⟩ rest
  | .term t => ∀ {place : Place} {outer : List OpenCall} {gap rest : List Char},
      TakesTerm place → outer ≠ [] → IsGap gap → Delimited rest →
      ∃ place', EndsTerm outer place' t ∧
        language.readFrom total ⟨outer, place⟩ (gap ++ (text ++ rest)) =
          language.readFrom total ⟨outer, place'⟩ rest

theorem Layout.delimited_moreArguments {arguments : List Argument} {text : List Char}
    (h : Layout (.moreArguments arguments) text) (rest : List Char) :
    Delimited (text ++ rest) := by
  cases h with
  | endArguments hgap =>
      rw [List.append_assoc]
      exact delimited_gap_append hgap (delimited_cons (by decide) _)
  | nextArgument hgap =>
      rw [List.append_assoc]
      exact delimited_gap_append hgap (delimited_cons (by decide) _)

/-- Behind a call without parentheses the text does not go on like its name. -/
theorem Layout.nameEnds_moreCalls {calls : List Call} {text rest : List Char}
    (h : Layout (.moreCalls true calls) text) (hrest : NameEnds rest) :
    NameEnds (text ++ rest) := by
  cases h with
  | last => exact hrest
  | dotted hgap =>
      rw [List.append_assoc]
      exact nameEnds_gap_mark hgap (by decide) _
  | @spaced _ _ gap _ hgap hspace =>
      obtain ⟨c, gap, rfl⟩ := List.exists_cons_of_ne_nil (hspace rfl)
      exact nameEnds_space_cons (hgap c List.mem_cons_self) _

theorem addAll_nil (opened : OpenCall) : opened.addAll [] = opened := by
  simp [OpenCall.addAll]

theorem addAll_addAll (opened : OpenCall) (a : Argument) (more : List Argument) :
    (opened.addAll [a]).addAll more = opened.addAll (a :: more) := by
  simp [OpenCall.addAll]

theorem reads_full {name gap text : List Char} {arguments : List Argument} (hname : IsName name)
    (hgap : IsGap gap) (harguments : Reads total text (.arguments arguments)) :
    Reads total (name ++ (gap ++ ('(' :: text)))
      (.call false (.mk (String.ofList name) arguments)) := by
  intro state outer earlier before rest hlaunch hbefore _
  have hends : NameEnds (gap ++ ('(' :: (text ++ rest))) := nameEnds_gap_mark hgap (by decide) _
  obtain ⟨place, hplace, hread⟩ := hlaunch hbefore hname rfl hends
  have hparen : language.readFrom total ⟨outer, place⟩ (gap ++ ('(' :: (text ++ rest))) =
      language.readFrom total
        ⟨⟨earlier, String.ofList name, [], none⟩ :: outer, .firstArgument⟩ (text ++ rest) := by
    cases hplace with
    | later => exact readFrom_mark (t := .openParen) hgap rfl rfl rfl
    | first => exact readFrom_mark (t := .openParen) hgap rfl rfl rfl
  refine ⟨.afterCall (earlier ++ [.mk (String.ofList name) arguments]), .full _, ?_⟩
  simp only [List.append_assoc, List.cons_append]
  rw [hread, hparen, harguments rfl]
  rfl

theorem reads_calls {bare : Bool} {c : Call} {more : List Call} {text tail : List Char}
    (hmore : Layout (.moreCalls bare more) tail) (hcall : Reads total text (.call bare c))
    (htail : Reads total tail (.moreCalls bare more)) :
    Reads total (text ++ tail) (.calls (c :: more)) := by
  intro state outer earlier gap rest hlaunch hgap hrest
  have hends : bare = true → NameEnds (tail ++ rest) := by
    rintro rfl
    exact hmore.nameEnds_moreCalls hrest
  obtain ⟨place, hplace, hread⟩ := hcall (hlaunch c rfl) hgap hends
  obtain ⟨bare', place', hplace', hread'⟩ := htail hplace hrest
  refine ⟨bare', place', by simpa using hplace', ?_⟩
  rw [List.append_assoc, hread, hread']

theorem reads_dotted {bare : Bool} {more : List Call} {gap gap' text : List Char}
    (hgap : IsGap gap) (hgap' : IsGap gap') (hcalls : Reads total text (.calls more)) :
    Reads total (gap ++ ('.' :: (gap' ++ text))) (.moreCalls bare more) := by
  intro place outer earlier rest hplace hrest
  have hdot : language.readFrom total ⟨outer, place⟩ (gap ++ ('.' :: (gap' ++ (text ++ rest)))) =
      language.readFrom total ⟨outer, .call earlier⟩ (gap' ++ (text ++ rest)) :=
    readFrom_mark (t := .dot) hgap rfl (hplace.contains_expected (by simp))
      (hplace.step_eq (by simp) (by simp))
  obtain ⟨bare', place', hplace', hread⟩ :=
    hcalls (fun c _ => launches_call outer earlier c.name) hgap' hrest
  refine ⟨bare', place', hplace', ?_⟩
  simp only [List.append_assoc, List.cons_append]
  rw [hdot, hread]

theorem reads_firstArgument {a : Argument} {more : List Argument} {gap text tail : List Char}
    (hgap : IsGap gap) (hmore : Layout (.moreArguments more) tail)
    (ha : Reads total text (.argument a)) (htail : Reads total tail (.moreArguments more)) :
    Reads total (gap ++ (text ++ tail)) (.arguments (a :: more)) := by
  intro opened outer rest hlabel
  obtain ⟨opened', place', term, hterm, hadd, hread⟩ :=
    ha (.inl rfl) hlabel hgap (hmore.delimited_moreArguments rest)
  simp only [List.append_assoc]
  rw [hread, htail hterm, hadd, addAll_addAll]

theorem reads_nextArgument {a : Argument} {more : List Argument} {gap gap' text tail : List Char}
    (hgap : IsGap gap) (hgap' : IsGap gap') (hmore : Layout (.moreArguments more) tail)
    (ha : Reads total text (.argument a)) (htail : Reads total tail (.moreArguments more)) :
    Reads total (gap ++ (',' :: (gap' ++ (text ++ tail)))) (.moreArguments (a :: more)) := by
  intro place term opened outer rest hterm
  have hcomma : language.readFrom total ⟨opened :: outer, place⟩
        (gap ++ (',' :: (gap' ++ (text ++ (tail ++ rest))))) =
      language.readFrom total ⟨opened.add term :: outer, .argument⟩
        (gap' ++ (text ++ (tail ++ rest))) :=
    readFrom_mark (t := .comma) hgap rfl (hterm.contains_expected (.inl rfl))
      (hterm.step_eq (.inl rfl) _ _)
  have hlabel : (opened.add term).label = none := rfl
  obtain ⟨opened', place', term', hterm', hadd, hread⟩ :=
    ha (.inr rfl) hlabel hgap' (hmore.delimited_moreArguments rest)
  simp only [List.append_assoc, List.cons_append]
  rw [hcomma, hread, htail hterm', hadd, addAll_addAll]

theorem reads_closeParen {gap : List Char} (hgap : IsGap gap) :
    Reads total (gap ++ [')']) (.moreArguments []) := by
  intro place term opened outer rest hterm
  rw [List.append_assoc, addAll_nil]
  exact readFrom_mark (t := .closeParen) hgap rfl (hterm.contains_expected (.inr rfl))
    (hterm.step_eq (.inr rfl) _ _)

theorem reads_positional {t : Term} {text : List Char} (ht : Reads total text (.term t)) :
    Reads total text (.argument (.mk none t)) := by
  intro place opened outer gap rest hplace hlabel hgap hrest
  have htakes : TakesTerm place := by
    rcases hplace with rfl | rfl
    · exact .firstArgument
    · exact .argument
  obtain ⟨place', hterm, hread⟩ := ht htakes (List.cons_ne_nil _ _) hgap hrest
  refine ⟨opened, place', t, hterm, ?_, hread⟩
  rw [OpenCall.add, OpenCall.addAll, hlabel]

theorem reads_labelled {label gap gap' text : List Char} {t : Term} (hlabel : IsName label)
    (hword : label ∉ words) (hgap : IsGap gap) (hgap' : IsGap gap')
    (ht : Reads total text (.term t)) :
    Reads total (label ++ (gap ++ ('=' :: (gap' ++ text))))
      (.argument (.mk (some (String.ofList label)) t)) := by
  intro place opened outer before rest hplace hnone hbefore hrest
  have hends : NameEnds (gap ++ ('=' :: (gap' ++ (text ++ rest)))) :=
    nameEnds_gap_mark hgap (by decide) _
  have hdistinct : ∀ row, Distinct row .name label :=
    fun _ _ _ => ofName_eq_name_iff.mpr hword
  have hfirst : language.readFrom total ⟨opened :: outer, place⟩
        (before ++ (label ++ (gap ++ ('=' :: (gap' ++ (text ++ rest)))))) =
      language.readFrom total ⟨opened :: outer, .afterFirstName (String.ofList label)⟩
        (gap ++ ('=' :: (gap' ++ (text ++ rest)))) := by
    rcases hplace with rfl | rfl
    · exact readFrom_token hbefore (.name hlabel) rfl ⟨fun _ => hends, by simp⟩ (hdistinct _) rfl
    · exact readFrom_token hbefore (.name hlabel) rfl ⟨fun _ => hends, by simp⟩ (hdistinct _) rfl
  have hequal : language.readFrom total ⟨opened :: outer, .afterFirstName (String.ofList label)⟩
        (gap ++ ('=' :: (gap' ++ (text ++ rest)))) =
      language.readFrom total
        ⟨{ opened with label := some (String.ofList label) } :: outer, .labelled⟩
        (gap' ++ (text ++ rest)) :=
    readFrom_mark (t := .equal) hgap rfl rfl rfl
  obtain ⟨place', hterm, hread⟩ := ht .labelled (List.cons_ne_nil _ _) hgap' hrest
  refine ⟨{ opened with label := some (String.ofList label) }, place', t, hterm, ?_, ?_⟩
  · rw [OpenCall.add, OpenCall.addAll, hnone]
  · simp only [List.append_assoc, List.cons_append]
    rw [hfirst, hequal, hread]

theorem reads_pipeline {c : Call} {more : List Call} {text : List Char}
    (hword : c.name.toList ∉ words) (hcalls : Reads total text (.calls (c :: more))) :
    Reads total text (.term (.pipeline (c :: more))) := by
  intro place outer gap rest hplace houter hgap hrest
  have hlaunch : ∀ d ∈ (c :: more).head?, Launches total ⟨outer, place⟩ outer [] d.name := by
    rintro _ ⟨⟩
    exact hplace.launches houter hword
  obtain ⟨bare, place', hends, hread⟩ := hcalls hlaunch hgap hrest.nameEnds
  exact ⟨place', .pipeline hends, hread⟩

theorem reads {construct : Construct} {text : List Char} (h : Layout construct text) :
    Reads total text construct := by
  induction h with
  | bare hname =>
      intro state outer earlier gap rest hlaunch hgap hrest
      obtain ⟨place, hplace, hread⟩ := hlaunch hgap hname rfl (hrest rfl)
      exact ⟨place, .bare hplace, hread⟩
  | full hname hgap _ ih => exact reads_full hname hgap ih
  | calls _ hmore ihcall ihmore => exact reads_calls hmore ihcall ihmore
  | last =>
      intro place outer earlier rest hplace _
      exact ⟨_, place, by simpa using hplace, rfl⟩
  | dotted hgap hgap' _ ih => exact reads_dotted hgap hgap' ih
  | spaced hgap _ _ ih =>
      intro place outer earlier rest hplace hrest
      rw [List.append_assoc]
      exact ih (fun c _ => hplace.launches c.name) hgap hrest
  | noArguments hgap =>
      intro opened outer rest _
      rw [List.append_assoc, addAll_nil]
      exact readFrom_mark (t := .closeParen) hgap rfl rfl rfl
  | firstArgument hgap _ hmore iha ihmore => exact reads_firstArgument hgap hmore iha ihmore
  | endArguments hgap => exact reads_closeParen hgap
  | nextArgument hgap hgap' _ hmore iha ihmore =>
      exact reads_nextArgument hgap hgap' hmore iha ihmore
  | positional _ ih => exact reads_positional ih
  | labelled hlabel hword hgap hgap' _ ih => exact reads_labelled hlabel hword hgap hgap' ih
  | literal h =>
      intro place outer gap rest hplace houter hgap hrest
      exact ⟨_, .literal _, readsLiteral h outer hgap (hplace.takesValue gap) hrest⟩
  | pipeline _ hword ih => exact reads_pipeline hword ih

end Simulation

theorem finish_of_endsCalls {bare : Bool} {place : Place} {calls : List Call}
    (h : EndsCalls [] bare place calls) : finish ⟨[], place⟩ = .ok calls := by
  cases h with
  | full => rfl
  | bare h =>
      cases h with
      | later => rfl
      | first houter => exact absurd rfl houter

theorem Layout.exists_nameStart_of_calls {calls : List Call} {text : List Char}
    (h : Layout (.calls calls) text) : ∃ c ∈ text, isNameStart c = true := by
  have hname : ∀ {name : List Char}, IsName name → ∃ c ∈ name, isNameStart c = true := by
    rintro _ ⟨hc, -⟩
    exact ⟨_, List.mem_cons_self, hc⟩
  cases h with
  | calls hcall =>
      cases hcall with
      | bare h =>
          obtain ⟨c, hmem, hc⟩ := hname h
          exact ⟨c, List.mem_append_left _ hmem, hc⟩
      | full h =>
          obtain ⟨c, hmem, hc⟩ := hname h
          exact ⟨c, List.mem_append_left _ (List.mem_append_left _ hmem), hc⟩

theorem read_of_isLayout {text : String} {calls : List Call} (h : IsLayout text calls) :
    read text = .ok calls := by
  obtain ⟨gap, body, gap', hgap, hbody, hgap', htext⟩ := h
  rw [read, Language.readText_eq_ok_iff, htext]
  constructor
  · -- The first call begins with a name, so the text is not blank.
    obtain ⟨c, hmem, hc⟩ := hbody.exists_nameStart_of_calls
    rw [← Bool.not_eq_true, List.all_eq_true]
    intro hblank
    have hcBlank := hblank c (by simp [hmem])
    rw [isNameStart_iff, Text.inRanges_iff] at hc
    obtain ⟨r, hr, hrc⟩ := hc
    simp only [Terminal.starts, List.mem_cons, List.not_mem_nil, or_false] at hr
    rw [Text.isBlank_eq_false] at hcBlank
    · cases hcBlank
    · rcases hr with rfl | rfl | rfl <;> simp only at hrc <;> omega
    · rcases hr with rfl | rfl | rfl <;> simp only at hrc <;> omega
  · have hends : NameEnds gap' := by
      have hnil : NameEnds [] := by simp [NameEnds]
      simpa using nameEnds_gap_append hgap' hnil
    obtain ⟨bare, place, hplace, hread⟩ := reads hbody
      (fun c _ => launches_call [] [] c.name) hgap hends
    rw [show language.start = ⟨[], .call []⟩ from rfl, hread]
    refine Language.readFrom_end ?_ (finish_of_endsCalls hplace)
    exact List.dropWhile_eq_nil_iff.mpr hgap'

theorem read_name {name : String} (hname : IsName name.toList) : read name = .ok [.mk name []] := by
  have hbare := Layout.bare hname
  rw [String.ofList_toList] at hbare
  exact read_of_isLayout ⟨[], _, [], isGap_nil, .calls hbare .last, isGap_nil, by simp⟩

end Reshape.Pipeline
