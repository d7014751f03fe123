import Reshape.Grammar.Diagnostic

namespace Reshape.Grammar.Language

variable {T S R : Type}

/-- A token stands at the front of a text, behind what is skipped, and leads on to another
state and to the rest of the text. -/
inductive Steps (language : Language T S R) (state : S) (cs : List Char) (next : S) :
    List Char → Prop
  | mk {found : Scanned T} {c : Char} {after : List Char}
      (hskipped : cs.dropWhile language.isSkipped = c :: after)
      (hscan : language.scan (language.expected state) (c :: after) = some found)
      (hstep : language.step state
        ⟨found.terminal, cs.takeWhile language.isSkipped, found.text⟩ = .ok next) :
      Steps language state cs next found.rest

variable {language : Language T S R}

theorem Steps.length_lt {state next : S} {cs rest : List Char}
    (h : language.Steps state cs next rest) : rest.length < cs.length := by
  obtain ⟨hskipped, hscan, -⟩ := h
  have hshort := language.scan_shortens hscan
  have hle := (List.dropWhile_sublist (l := cs) language.isSkipped).length_le
  rw [hskipped] at hle
  omega

theorem readFrom_step {total : Nat} {state next : S} {cs rest : List Char}
    (h : language.Steps state cs next rest) :
    language.readFrom total state cs = language.readFrom total next rest := by
  obtain ⟨hskipped, hscan, hstep⟩ := h
  rw [readFrom]
  split
  · rename_i hnil
    rw [hskipped] at hnil
    cases hnil
  · rename_i hcons
    obtain ⟨rfl, rfl⟩ := List.cons.inj (hskipped.symm.trans hcons)
    split
    · rename_i hnone
      rw [hscan] at hnone
      cases hnone
    · rename_i hsome
      obtain rfl := Option.some.inj (hscan.symm.trans hsome)
      simp only [hstep]

theorem readFrom_end {total : Nat} {state : S} {cs : List Char} {result : R}
    (hskipped : cs.dropWhile language.isSkipped = [])
    (hfinish : language.finish state = .ok result) :
    language.readFrom total state cs = .ok result := by
  rw [readFrom]
  split
  · rw [hfinish]
  · rename_i hcons
    rw [hskipped] at hcons
    cases hcons

theorem steps_of_readFrom {total : Nat} {state : S} {cs : List Char} {result : R}
    (h : language.readFrom total state cs = .ok result) :
    (cs.dropWhile language.isSkipped = [] ∧ language.finish state = .ok result) ∨
      ∃ next rest, language.Steps state cs next rest ∧
        language.readFrom total next rest = .ok result := by
  rw [readFrom] at h
  split at h
  · rename_i hnil
    split at h
    · rename_i hfinish
      cases h
      exact .inl ⟨hnil, hfinish⟩
    · cases h
  · rename_i hcons
    split at h
    · cases h
    · rename_i found hscan
      dsimp only at h
      split at h
      · cases h
      · rename_i next hstep
        exact .inr ⟨next, found.rest, ⟨hcons, hscan, hstep⟩, h⟩

/-- What holds at each end, and of a text if it holds behind its first token, holds of
every accepted text. -/
theorem of_readFrom {total : Nat} {result : R} {P : S → List Char → Prop}
    (hend : ∀ state cs, cs.dropWhile language.isSkipped = [] →
      language.finish state = .ok result → P state cs)
    (hstep : ∀ state cs next rest, language.Steps state cs next rest → P next rest → P state cs)
    {state : S} {cs : List Char} (h : language.readFrom total state cs = .ok result) :
    P state cs := by
  induction hlength : cs.length using Nat.strongRecOn generalizing state cs with
  | _ length ih =>
      rcases steps_of_readFrom h with ⟨hskipped, hfinish⟩ | ⟨next, rest, hsteps, hrest⟩
      · exact hend state cs hskipped hfinish
      · exact hstep state cs next rest hsteps
          (ih rest.length (hlength ▸ hsteps.length_lt) hrest rfl)

theorem readText_eq_ok_iff {name : T → String} {rule text : String} {result : R} :
    language.readText name rule text = .ok result ↔
      text.toList.all Text.isBlank = false ∧
        language.readFrom text.toList.length language.start text.toList = .ok result := by
  rw [readText]
  cases text.toList.all Text.isBlank with
  | true => simp
  | false =>
      rw [if_neg Bool.false_ne_true, read]
      cases language.readFrom text.toList.length language.start text.toList with
      | ok found =>
          constructor
          · rintro ⟨⟩
            exact ⟨rfl, rfl⟩
          · rintro ⟨-, ⟨⟩⟩
            rfl
      | error failure => exact ⟨nofun, nofun⟩

theorem of_readText_eq_error {name : T → String} {rule text : String} {d : Diagnostic}
    (h : language.readText name rule text = .error d) :
    (text.toList.all Text.isBlank = true ∧ d = .blank rule text) ∨
      (text.toList.all Text.isBlank = false ∧ ∃ failure,
        language.readFrom text.toList.length language.start text.toList = .error failure ∧
          d = failure.diagnostic name rule text) := by
  rw [readText] at h
  cases hblank : text.toList.all Text.isBlank with
  | true =>
      rw [hblank, if_pos rfl] at h
      exact .inl ⟨rfl, (Except.error.inj h).symm⟩
  | false =>
      rw [hblank, if_neg Bool.false_ne_true, read] at h
      cases hrun : language.readFrom text.toList.length language.start text.toList with
      | ok result =>
          rw [hrun] at h
          cases h
      | error failure =>
          rw [hrun] at h
          exact .inr ⟨rfl, failure, rfl, (Except.error.inj h).symm⟩

end Reshape.Grammar.Language
