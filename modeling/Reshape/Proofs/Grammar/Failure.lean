import Mathlib.Data.List.TakeWhile
import Reshape.Proofs.Grammar.Reader
import Reshape.Proofs.Text.Line

/-!
Where a text goes wrong. Main statement: `Language.Viable.isAtFirstFault`, that a refusal stands
at the first place where a text cannot go on, for every language in which each state that is
reached can be completed.
-/

namespace Reshape.Grammar

open Reshape.Text

/-- A text begins with what is told to be unexpected. -/
inductive Unexpected.StandsAt : Unexpected → List Char → Prop
  | token {text : List Char} (hne : text ≠ []) (rest : List Char) :
      StandsAt (.token text) (text ++ rest)
  | character (c : Char) (rest : List Char) : StandsAt (.character c) (c :: rest)
  | ending : StandsAt .ending []

/-- A refusal stands at the first place where a text goes wrong: what it reports stands there,
and what is before that place can be completed to an accepted text. -/
def Diagnostic.IsAtFirstFault (accepts : String → Prop) (text : String) (d : Diagnostic) :
    Prop :=
  ∃ before after : List Char, text.toList = before ++ after ∧
    d.position = ⟨before.count '\n' + 1, (lastLine before).length + 1⟩ ∧
    (∃ unexpected : Unexpected, unexpected.StandsAt after ∧ d.summary = unexpected.summary) ∧
    ∃ completion : List Char, accepts (String.ofList (before ++ completion))

namespace Language

variable {T S R : Type} {language : Language T S R}

/-- From the state on, a text is accepted. -/
def Accepts (language : Language T S R) (state : S) (cs : List Char) : Prop :=
  ∃ result, ∀ total, language.readFrom total state cs = .ok result

theorem Accepts.of_readFrom_eq {state next : S} {cs rest : List Char}
    (h : language.Accepts next rest)
    (heq : ∀ total, language.readFrom total state cs = language.readFrom total next rest) :
    language.Accepts state cs := by
  obtain ⟨result, hresult⟩ := h
  exact ⟨result, fun total => (heq total).trans (hresult total)⟩

/-- What makes the prefixes of a language viable: the states that a reader gets to, and how the
text may go on at once behind the token that has led to a state. -/
structure Viable (language : Language T S R) where
  Reached : S → Prop
  Fits : S → Option Char → Prop
  reached_start : Reached language.start
  /-- A token that has been found is not empty, and it is found again before every other
  text that is accepted behind it. -/
  token : ∀ {state next cs rest}, Reached state → language.Steps state cs next rest →
    Reached next ∧ Fits next rest.head? ∧
      ∃ front, cs = front ++ rest ∧ front ≠ [] ∧ ∀ rest', Fits next rest'.head? →
        language.Accepts next rest' → language.Accepts state (front ++ rest')
  scan_front : ∀ {row cs found}, language.scan row cs = some found →
    cs = found.text ++ found.rest ∧ found.text ≠ []
  complete : ∀ {state lead}, Reached state → (∀ c ∈ lead, language.isSkipped c = true) →
    ∃ completion, Fits state completion.head? ∧ language.Accepts state (lead ++ completion)

theorem of_readFrom_eq_error {total : Nat} {state : S} {cs : List Char} {failure : Failure T}
    (hfront : ∀ {row cs found}, language.scan row cs = some found →
      cs = found.text ++ found.rest ∧ found.text ≠ [])
    (h : language.readFrom total state cs = .error failure) :
    (∃ lead after, cs = lead ++ after ∧ (∀ c ∈ lead, language.isSkipped c = true) ∧
        failure.offset = total - after.length ∧ failure.unexpected.StandsAt after) ∨
      ∃ next rest, language.Steps state cs next rest ∧
        language.readFrom total next rest = .error failure := by
  have hlead : ∀ c ∈ cs.takeWhile language.isSkipped, language.isSkipped c = true :=
    fun c hc => List.all_eq_true.mp List.all_takeWhile c hc
  rw [readFrom] at h
  split at h
  · rename_i hnil
    split at h
    · cases h
    · cases h
      exact .inl ⟨cs, [], (List.append_nil cs).symm, List.dropWhile_eq_nil_iff.mp hnil, rfl,
        .ending⟩
  · rename_i c after hcons
    have hcs : cs = cs.takeWhile language.isSkipped ++ (c :: after) := by
      rw [← hcons, List.takeWhile_append_dropWhile]
    split at h
    · cases h
      refine .inl ⟨_, _, hcs, hlead, rfl, ?_⟩
      dsimp only [unexpectedAt]
      split
      · rename_i found hfound
        obtain ⟨heq, hne⟩ := hfront hfound
        rw [heq]
        exact .token hne _
      · exact .character c after
    · rename_i found hfound
      dsimp only at h
      split at h
      · cases h
        obtain ⟨heq, hne⟩ := hfront hfound
        refine .inl ⟨_, _, hcs, hlead, rfl, ?_⟩
        rw [heq]
        exact .token hne _
      · rename_i next hstep
        exact .inr ⟨next, found.rest, .mk hcons hfound hstep, h⟩

/-- Wherever a text goes wrong, what is before can be completed. The induction is on the text
that is left; each token before the failure is found again when the text behind is another. -/
theorem Viable.exists_completion (viable : language.Viable) {total : Nat} {state : S}
    {cs : List Char} {failure : Failure T} (hreached : viable.Reached state)
    (h : language.readFrom total state cs = .error failure) :
    ∃ before after completion, cs = before ++ after ∧ failure.offset = total - after.length ∧
      failure.unexpected.StandsAt after ∧ (before = [] → viable.Fits state completion.head?) ∧
      language.Accepts state (before ++ completion) := by
  induction hlength : cs.length using Nat.strongRecOn generalizing state cs with
  | _ length ih =>
      rcases of_readFrom_eq_error viable.scan_front h with
        ⟨lead, after, rfl, hlead, hoffset, hstands⟩ | ⟨next, rest, hsteps, hrest⟩
      · obtain ⟨completion, hfits, haccepts⟩ := viable.complete hreached hlead
        exact ⟨lead, after, completion, rfl, hoffset, hstands, fun _ => hfits, haccepts⟩
      · obtain ⟨hnext, hfits, front, rfl, hne, hagain⟩ := viable.token hreached hsteps
        obtain ⟨before, after, completion, rfl, hoffset, hstands, hempty, haccepts⟩ :=
          ih rest.length (hlength ▸ hsteps.length_lt) hnext hrest rfl
        refine ⟨front ++ before, after, completion, (List.append_assoc _ _ _).symm, hoffset,
          hstands, fun hnil => absurd (List.append_eq_nil_iff.mp hnil).1 hne, ?_⟩
        rw [List.append_assoc]
        refine hagain _ ?_ haccepts
        -- The text goes on as before, unless the failure is at once behind the token.
        cases before with
        | nil => exact hempty rfl
        | cons c before => exact hfits

theorem Viable.isAtFirstFault (viable : language.Viable) {name : T → String} {rule text : String}
    {accepts : String → Prop} {d : Diagnostic}
    (haccepts : ∀ cs, language.Accepts language.start cs → accepts (String.ofList cs))
    (hblank : text.toList.all isBlank = false)
    (h : language.readText name rule text = .error d) : d.IsAtFirstFault accepts text := by
  rcases of_readText_eq_error h with ⟨hall, -⟩ | ⟨-, failure, hrun, rfl⟩
  · rw [hblank] at hall
    cases hall
  · obtain ⟨before, after, completion, htext, hoffset, hstands, -, hcompletion⟩ :=
      viable.exists_completion viable.reached_start hrun
    refine ⟨before, after, htext, ?_, ⟨_, hstands, rfl⟩, completion, haccepts _ hcompletion⟩
    have htake : text.toList.take failure.offset = before := by
      rw [hoffset, htext, List.length_append, Nat.add_sub_cancel, List.take_left]
    rw [← Position.after_eq, ← htake]
    rfl

end Language

end Reshape.Grammar
