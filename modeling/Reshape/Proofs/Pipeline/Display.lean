import Reshape.Proofs.Pipeline.Sound

namespace Reshape.Pipeline

section Display

theorem callTexts_cons (c : Call) (more : List Call) :
    callTexts (c :: more) = c.text :: callTexts more := by
  rw [callTexts]

theorem argumentTexts_cons (a : Argument) (more : List Argument) :
    argumentTexts (a :: more) = a.text :: argumentTexts more := by
  rw [argumentTexts]

/-- The display of calls. -/
def display (calls : List Call) : String :=
  ".".intercalate (callTexts calls)

theorem layout_display_cons {c : Call} {more : List Call}
    (hc : Layout (.call false c) c.text.toList)
    (hmore : more = [] ∨ Layout (.calls more) (display more).toList) :
    Layout (.calls (c :: more)) (display (c :: more)).toList := by
  cases more with
  | nil =>
      have hdisplay : display [c] = c.text := by
        rw [display, callTexts_cons, callTexts, String.intercalate_singleton]
      rw [hdisplay, ← List.append_nil c.text.toList]
      exact .calls hc .last
  | cons c' more =>
      have hdisplay : (display (c :: c' :: more)).toList =
          c.text.toList ++ ([] ++ ('.' :: ([] ++ (display (c' :: more)).toList))) := by
        rw [display, callTexts_cons, callTexts_cons, String.intercalate_cons_cons, display,
          callTexts_cons]
        simp
      rw [hdisplay]
      exact .calls hc (.dotted isGap_nil isGap_nil (hmore.resolve_left (List.cons_ne_nil _ _)))

theorem layout_arguments_cons {a : Argument} {more : List Argument}
    (ha : Layout (.argument a) a.text.toList)
    (hmore : more = [] ∨
      Layout (.arguments more) ((", ".intercalate (argumentTexts more)).toList ++ [')'])) :
    Layout (.arguments (a :: more))
      ((", ".intercalate (argumentTexts (a :: more))).toList ++ [')']) := by
  cases more with
  | nil =>
      rw [argumentTexts_cons, argumentTexts, String.intercalate_singleton]
      exact .firstArgument isGap_nil ha (.endArguments isGap_nil)
  | cons a' more =>
      have hrest := hmore.resolve_left (List.cons_ne_nil _ _)
      have hdisplay : (", ".intercalate (argumentTexts (a :: a' :: more))).toList ++ [')'] =
          a.text.toList ++ (',' :: ' ' ::
            ((", ".intercalate (argumentTexts (a' :: more))).toList ++ [')'])) := by
        rw [argumentTexts_cons, argumentTexts_cons, String.intercalate_cons_cons]
        simp
      rw [hdisplay]
      generalize (", ".intercalate (argumentTexts (a' :: more))).toList ++ [')'] = text at hrest
      cases hrest with
      | @firstArgument _ _ gap text rest hgap ha' hrest =>
          have hgap' : IsGap (' ' :: gap) := List.forall_mem_cons.mpr ⟨by decide, hgap⟩
          exact .firstArgument isGap_nil ha (.nextArgument isGap_nil hgap' ha' hrest)

/-- Whether a part of a pipeline is laid out by its display. -/
def IsShown : Construct → Prop
  | .call _ c => Layout (.call false c) c.text.toList
  | .calls calls => Layout (.calls calls) (display calls).toList
  | .moreCalls _ calls => calls = [] ∨ Layout (.calls calls) (display calls).toList
  | .arguments arguments =>
      Layout (.arguments arguments)
        ((", ".intercalate (argumentTexts arguments)).toList ++ [')'])
  | .moreArguments arguments => arguments = [] ∨
      Layout (.arguments arguments)
        ((", ".intercalate (argumentTexts arguments)).toList ++ [')'])
  | .argument a => Layout (.argument a) a.text.toList
  | .term t => Layout (.term t) t.text.toList

theorem isShown_of_layout {construct : Construct} {text : List Char}
    (h : Layout construct text) : IsShown construct := by
  have hnone : Layout (.arguments []) ((", ".intercalate (argumentTexts [])).toList ++ [')']) := by
    rw [argumentTexts, String.intercalate_nil]
    exact .noArguments isGap_nil
  have hcall : ∀ {name : List Char} {arguments : List Argument}, IsName name →
      IsShown (.arguments arguments) →
      IsShown (.call false (.mk (String.ofList name) arguments)) := by
    intro name arguments hname harguments
    have htext : (Call.mk (String.ofList name) arguments).text.toList =
        name ++ ([] ++
          ('(' :: ((", ".intercalate (argumentTexts arguments)).toList ++ [')']))) := by
      simp [Call.text]
    rw [IsShown, htext]
    exact .full hname isGap_nil harguments
  induction h with
  | bare hname => exact hcall hname hnone
  | full hname _ _ ih => exact hcall hname ih
  | calls _ _ ihcall ihmore => exact layout_display_cons ihcall ihmore
  | last => exact .inl rfl
  | dotted _ _ _ ih => exact .inr ih
  | spaced _ _ _ ih => exact .inr ih
  | noArguments => exact hnone
  | firstArgument _ _ _ iha ihmore => exact layout_arguments_cons iha ihmore
  | endArguments => exact .inl rfl
  | nextArgument _ _ _ _ iha ihmore => exact .inr (layout_arguments_cons iha ihmore)
  | positional _ ih =>
      rw [IsShown, Argument.text]
      exact .positional ih
  | @labelled label t _ _ _ hname hword _ _ _ ih =>
      have htext : (Argument.mk (some (String.ofList label)) t).text.toList =
          label ++ ([] ++ ('=' :: ([] ++ t.text.toList))) := by
        simp [Argument.text]
      rw [IsShown, htext]
      exact .labelled hname hword isGap_nil isGap_nil ih
  | literal h =>
      rw [IsShown, Term.text, String.toList_ofList]
      exact .literal h
  | pipeline _ hword ih =>
      rw [IsShown, Term.text]
      exact .pipeline ih hword

theorem isLayout_display {text : String} {calls : List Call} (h : IsLayout text calls) :
    IsLayout (display calls) calls := by
  obtain ⟨_, body, _, -, hbody, -, -⟩ := h
  exact ⟨[], _, [], isGap_nil, isShown_of_layout hbody, isGap_nil, by simp⟩

end Display

/-- A text is read as calls if and only if it is a layout of them, every other text is
refused, and the display of calls that have been read is read as these calls again. -/
theorem read_eq_ok_iff_isLayout (text : String) (calls : List Call) :
    (read text = .ok calls ↔ IsLayout text calls) ∧
      ((∃ d, read text = .error d) ↔ ¬ ∃ found, IsLayout text found) ∧
      (read text = .ok calls → read (display calls) = .ok calls) := by
  refine ⟨⟨isLayout_of_read, read_of_isLayout⟩, ⟨?_, ?_⟩, ?_⟩
  · rintro ⟨d, hd⟩ ⟨found, hfound⟩
    rw [read_of_isLayout hfound] at hd
    cases hd
  · intro hnone
    cases hread : read text with
    | error d => exact ⟨d, rfl⟩
    | ok found => exact absurd ⟨found, isLayout_of_read hread⟩ hnone
  · intro hread
    exact read_of_isLayout (isLayout_display (isLayout_of_read hread))

theorem read_word_as_both :
    read "f( x = 'a' ,null ) true" =
        .ok [.mk "f" [.mk (some "x") (.literal "'a'"), .mk none (.literal "null")],
          .mk "true" []] ∧
      read (display [.mk "f" [.mk (some "x") (.literal "'a'"), .mk none (.literal "null")],
          .mk "true" []]) =
        .ok [.mk "f" [.mk (some "x") (.literal "'a'"), .mk none (.literal "null")],
          .mk "true" []] := by
  have hspace : IsGap [' '] := by simp [IsGap, isSpace]
  have hname : ∀ c, isNameStart c = true → IsName [c] := fun c hc => .mk hc (by simp)
  have hx : Layout (.argument (.mk (some "x") (.literal "'a'")))
      ("x".toList ++ ([' '] ++ ('=' :: ([' '] ++ "'a'".toList)))) :=
    .labelled (hname 'x' (by decide)) (by decide) hspace hspace
      (.literal (.string (.mk (.inr rfl) (.plain (by decide) (by decide) .nil))))
  have hnull : Layout (.argument (.mk none (.literal "null"))) "null".toList :=
    .positional (.literal (.word (by decide)))
  have hcall : Layout (.call false (.mk "f" [.mk (some "x") (.literal "'a'"),
      .mk none (.literal "null")])) "f( x = 'a' ,null )".toList :=
    .full (hname 'f' (by decide)) isGap_nil (.firstArgument hspace hx
      (.nextArgument hspace isGap_nil hnull (.endArguments hspace)))
  have htrue : Layout (.call true (.mk "true" [])) "true".toList :=
    .bare (isName_cons (by decide) (by decide))
  have hlayout : IsLayout "f( x = 'a' ,null ) true"
      [.mk "f" [.mk (some "x") (.literal "'a'"), .mk none (.literal "null")],
        .mk "true" []] :=
    ⟨[], _, [], isGap_nil, .calls hcall (.spaced hspace (by simp) (.calls htrue .last)),
      isGap_nil, rfl⟩
  have hread := (read_eq_ok_iff_isLayout _ _).1.mpr hlayout
  exact ⟨hread, (read_eq_ok_iff_isLayout _ _).2.2 hread⟩

end Reshape.Pipeline
