import Mathlib.Data.List.Forall2
import Reshape.Proofs.Pipeline.Sound

namespace Reshape.Pipeline

/-- What stands between joined texts: a dot, or white space. -/
inductive IsSeparator : List Char → Prop
  | dot {gap gap' : List Char} (hgap : IsGap gap) (hgap' : IsGap gap') :
      IsSeparator (gap ++ ('.' :: gap'))
  | space {gap : List Char} (hgap : IsGap gap) (hne : gap ≠ []) : IsSeparator gap

/-- A text that joins others in their order. -/
inductive IsJoined : List String → String → Prop
  | single (text : String) : IsJoined [text] text
  | cons (text : String) {separator rest : String} {texts : List String}
      (hseparator : IsSeparator separator.toList) (hrest : IsJoined texts rest) :
      IsJoined (text :: texts) (text ++ separator ++ rest)

theorem isJoined_intercalate {separator : String} (hseparator : IsSeparator separator.toList)
    (text : String) (texts : List String) :
    IsJoined (text :: texts) (separator.intercalate (text :: texts)) := by
  induction texts generalizing text with
  | nil =>
      rw [String.intercalate_singleton]
      exact .single text
  | cons next texts ih =>
      rw [String.intercalate_cons_cons]
      exact .cons text hseparator (ih next)

variable {more : List Call} {tail : List Char}

theorem isGap_append {gap gap' : List Char} (hgap : IsGap gap) (hgap' : IsGap gap') :
    IsGap (gap ++ gap') :=
  List.forall_mem_append.mpr ⟨hgap, hgap'⟩

/-- What a part of a pipeline becomes where further calls stand behind it. -/
def LayoutBefore (more : List Call) (tail : List Char) (text : List Char) : Construct → Prop
  | .calls calls => Layout (.calls (calls ++ more)) (text ++ tail)
  | .moreCalls bare calls => Layout (.moreCalls bare (calls ++ more)) (text ++ tail)
  | _ => True

theorem layoutBefore (htail : ∀ bare, Layout (.moreCalls bare more) tail) {construct : Construct}
    {text : List Char} (h : Layout construct text) : LayoutBefore more tail text construct := by
  -- What follows reaches the end of the calls, and no part before it.
  induction h with
  | calls hcall _ _ ih =>
      rw [LayoutBefore, List.cons_append, List.append_assoc]
      exact .calls hcall ih
  | last => exact htail _
  | dotted hgap hgap' _ ih =>
      rw [LayoutBefore, List.append_assoc, List.cons_append, List.append_assoc]
      exact .dotted hgap hgap' ih
  | spaced hgap hspace _ ih =>
      rw [LayoutBefore, List.append_assoc]
      exact .spaced hgap hspace ih
  | _ => trivial

/-- A separator sets calls apart, whether the last one has parentheses or not. -/
theorem layout_moreCalls_of_isSeparator {before separator after text : List Char}
    {calls : List Call} (hbefore : IsGap before) (hseparator : IsSeparator separator)
    (hafter : IsGap after) (h : Layout (.calls calls) text) (bare : Bool) :
    Layout (.moreCalls bare calls) (before ++ (separator ++ (after ++ text))) := by
  cases hseparator with
  | @dot gap gap' hgap hgap' =>
      have hdotted : Layout (.moreCalls bare calls) _ :=
        .dotted (isGap_append hbefore hgap) (isGap_append hgap' hafter) h
      simpa using hdotted
  | space hgap hne =>
      have hspaced : Layout (.moreCalls bare calls) _ :=
        .spaced (isGap_append hbefore (isGap_append hgap hafter)) (fun _ => by simp [hne]) h
      simpa using hspaced

theorem isLayout_append {text rest separator : String} {calls more : List Call}
    (hseparator : IsSeparator separator.toList) (htext : IsLayout text calls)
    (hrest : IsLayout rest more) : IsLayout (text ++ separator ++ rest) (calls ++ more) := by
  obtain ⟨before, body, between, hbefore, hbody, hbetween, htextChars⟩ := htext
  obtain ⟨between', body', after, hbetween', hbody', hafter, hrestChars⟩ := hrest
  have htail := layout_moreCalls_of_isSeparator hbetween hseparator hbetween' hbody'
  refine ⟨before, _, after, hbefore, layoutBefore htail hbody, hafter, ?_⟩
  simp [htextChars, hrestChars]

theorem isLayout_of_isJoined {texts : List String} {text : String} {callss : List (List Call)}
    (h : IsJoined texts text) (htexts : List.Forall₂ IsLayout texts callss) :
    IsLayout text callss.flatten := by
  induction h generalizing callss with
  | single text =>
      obtain ⟨calls, _, htext, hnil, rfl⟩ := List.forall₂_cons_left_iff.mp htexts
      rw [List.forall₂_nil_left_iff.mp hnil, List.flatten_singleton]
      exact htext
  | cons text hseparator _ ih =>
      obtain ⟨calls, callss, htext, hrest, rfl⟩ := List.forall₂_cons_left_iff.mp htexts
      exact isLayout_append hseparator htext (ih hrest)

theorem read_of_isJoined {texts : List String} {text : String} {callss : List (List Call)}
    (h : IsJoined texts text)
    (htexts : List.Forall₂ (fun text calls => read text = .ok calls) texts callss) :
    read text = .ok callss.flatten :=
  read_of_isLayout (isLayout_of_isJoined h (htexts.imp fun _ _ => isLayout_of_read))

end Reshape.Pipeline
