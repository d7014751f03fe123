import Reshape.Proofs.Grammar.Failure
import Reshape.Proofs.Key.Spelling

namespace Reshape.Key

open Reshape.Grammar

/-- The shortest way to the end of a key. -/
def completion : State → List Char
  | .start | .afterDot _ => ['a']
  | .inBracket _ => ['0', ']']
  | .beforeClose _ => [']']
  | .between _ => []

theorem Stops.of_demands {parts : List Part} {state : State} {rest : List Char}
    (h : Demands parts state rest) : Stops state rest := by
  cases state with
  | between done =>
      obtain ⟨more, hrest, -⟩ := h
      exact hrest.isIdentChar_head?
  | beforeClose done =>
      obtain ⟨tail, more, rfl, -, -⟩ := h
      rintro _ ⟨⟩
      decide
  | _ => trivial

theorem accepts_completion (state : State) : language.Accepts state (completion state) := by
  have hbetween : ∀ done, language.Accepts (.between done) [] :=
    fun done => ⟨done ++ [], fun _ => Continues.nil.readFrom_eq done⟩
  have hclose : ∀ done, language.Accepts (.beforeClose done) [']'] :=
    fun done => (hbetween done).of_readFrom_eq fun _ => readFrom_closeBracket done []
  have hbare : IsBareIdent ['a'] :=
    isBareIdent_iff.mpr ⟨by simp, List.forall_mem_singleton.mpr rfl⟩
  cases state with
  | start => exact (hbetween _).of_readFrom_eq fun _ => readFrom_token (.startIdent hbare) nofun
  | afterDot done =>
      exact (hbetween _).of_readFrom_eq fun _ => readFrom_token (.ident done hbare) nofun
  | inBracket done =>
      have hzero : IsBracketed ['0'] (.index ['0']) :=
        .index (by simp) (List.forall_mem_singleton.mpr rfl)
      exact (hbetween _).of_readFrom_eq fun _ => hzero.readFrom_eq
  | beforeClose done => exact hclose done
  | between done => exact hbetween done

def viable : language.Viable where
  Reached := fun _ => True
  Fits := fun _ _ => True
  reached_start := trivial
  token := by
    intro state next cs rest _ hsteps
    obtain ⟨front, hcs, hne, htoken⟩ := tokenAt_of_steps hsteps
    refine ⟨trivial, trivial, front, hcs, hne, fun rest' _ haccepts => ?_⟩
    obtain ⟨parts, hparts⟩ := haccepts
    have hstops := Stops.of_demands (demands_of_readFrom (hparts 0))
    exact Language.Accepts.of_readFrom_eq ⟨parts, hparts⟩ fun _ => readFrom_token htoken hstops
  scan_front := append_of_scan
  complete := by
    intro state lead _ hlead
    obtain rfl : lead = [] := List.eq_nil_iff_forall_not_mem.mpr fun c hc => nomatch hlead c hc
    exact ⟨completion state, trivial, accepts_completion state⟩

theorem isAtFirstFault_of_parse {text : String} {d : Diagnostic}
    (hblank : text.toList.all Text.isBlank = false) (h : parse text = .error d) :
    d.IsAtFirstFault (fun accepted => ∃ parts, parse accepted = .ok parts) text := by
  refine viable.isAtFirstFault (fun cs haccepts => ?_) hblank h
  obtain ⟨parts, hparts⟩ := haccepts
  refine ⟨parts, parse_of_isSpelling ?_⟩
  rw [String.toList_ofList]
  exact demands_of_readFrom (hparts 0)

end Reshape.Key
