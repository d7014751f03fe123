import Reshape.Json.Read
import Reshape.Proofs.Number.Limit
import Reshape.Proofs.Value.Numbers

/-!
What is read from a text is a document that can be written. Main statement: `isWritable_of_read`,
by an invariant of the reader's stack.
-/

namespace Reshape.Json

open Value (IsWritable)

theorem isWritable_insert {entries : Entries Value} (hentries : (Value.object entries).IsWritable)
    (key : String) {v : Value} (hv : v.IsWritable) :
    (Value.object (entries.insert key v)).IsWritable := by
  cases hentries with
  | object hkeys hvalues =>
      exact .object (Entries.nodup_keys_insert hkeys key v)
        (Entries.forall_mem_insert hvalues hv)

/-! ### Tokens -/

/-- What a token holds is a document that can be written. -/
def Token.IsSound (token : Token) : Prop :=
  ∀ v, token = .scalar v → v.IsWritable

theorem isWritable_of_takeScalar {offset : Nat} {cs rest : List Char} {v : Value}
    (h : takeScalar offset cs = .ok (v, rest)) : v.IsWritable := by
  unfold takeScalar at h
  split at h
  · rename_i found hword
    cases h
    obtain ⟨⟨word, w⟩, hmem, hdrop⟩ := List.exists_of_findSome?_eq_some hword
    obtain ⟨rest', -, hfound⟩ := Option.map_eq_some_iff.mp hdrop
    cases hfound
    simp only [words, List.mem_cons, Prod.mk.injEq, List.not_mem_nil, or_false] at hmem
    rcases hmem with ⟨-, rfl⟩ | ⟨-, rfl⟩ | ⟨-, rfl⟩
    · exact .null
    · exact .bool true
    · exact .bool false
  · split at h
    · cases h
    · split at h
      · cases h
      · split at h
        · rename_i hread
          cases h
          exact .number (Number.isShort_of_read hread)
        · cases h

theorem takeToken_isSound (total : Nat) (c : Char) (rest : List Char) :
    (takeToken total c rest).1.IsSound := by
  intro v h
  unfold takeToken at h
  iterate 6
    split at h
    · cases h
  split at h
  · split at h <;> cases h
  · split at h
    · rename_i hscalar
      cases h
      exact isWritable_of_takeScalar hscalar
    · cases h

theorem lexemes_isSound (total : Nat) (cs : List Char) :
    ∀ lexeme ∈ lexemes total cs, lexeme.token.IsSound := by
  fun_induction lexemes total cs with
  | case1 => nofun
  | case2 c rest hblank ih => exact ih
  | case3 c rest hblank ih =>
      exact List.forall_mem_cons.mpr ⟨takeToken_isSound total c rest, ih⟩

/-! ### The run over them -/

def Frame.IsSound : Frame → Prop
  | items done => ∀ v ∈ done, v.IsWritable
  | entries done _ => (Value.object done).IsWritable

theorem Frame.IsSound.cons {done : List Value} {v : Value} (hdone : (items done).IsSound)
    (hv : v.IsWritable) : (items (v :: done)).IsSound :=
  List.forall_mem_cons.mpr ⟨hv, hdone⟩

def Expectation.IsSound : Expectation → Prop
  | key done => (Value.object done).IsWritable
  | colon done _ => (Value.object done).IsWritable
  | after v => v.IsWritable
  | _ => True

/-- All that a run has put together so far is made of such documents. -/
def State.IsSound (state : State) : Prop :=
  (∀ frame ∈ state.1, frame.IsSound) ∧ state.2.IsSound

variable {stack : List Frame} {lexeme : Lexeme} {next : State}

theorem beginValue_isSound (hstack : ∀ frame ∈ stack, frame.IsSound)
    (hlexeme : lexeme.token.IsSound) (h : beginValue stack lexeme = .ok next) :
    next.IsSound := by
  unfold beginValue at h
  split at h <;> cases h
  · exact ⟨hstack, .string _⟩
  · rename_i htoken
    exact ⟨hstack, hlexeme _ htoken⟩
  · exact ⟨hstack, trivial⟩
  · exact ⟨hstack, trivial⟩

theorem takeKey_isSound {done : Entries Value} (hstack : ∀ frame ∈ stack, frame.IsSound)
    (hdone : (Value.object done).IsWritable) (h : takeKey stack done lexeme = .ok next) :
    next.IsSound := by
  unfold takeKey at h
  split at h <;> cases h
  exact ⟨hstack, hdone⟩

theorem step_isSound {expected : Expectation} (hstate : State.IsSound (stack, expected))
    (hlexeme : lexeme.token.IsSound) (h : step stack expected lexeme = .ok next) :
    next.IsSound := by
  obtain ⟨hstack, hexpected⟩ := hstate
  have hempty : (Value.object []).IsWritable := .object List.nodup_nil nofun
  unfold step at h
  split at h
  · exact beginValue_isSound hstack hlexeme h
  · cases h
    exact ⟨hstack, .array nofun⟩
  · refine beginValue_isSound (List.forall_mem_cons.mpr ⟨?_, hstack⟩) hlexeme h
    exact nofun
  · exact takeKey_isSound hstack hexpected h
  · cases h
    exact ⟨hstack, hempty⟩
  · exact takeKey_isSound hstack hempty h
  · cases h
    exact ⟨List.forall_mem_cons.mpr ⟨hexpected, hstack⟩, trivial⟩
  · cases h
  · split at h <;> cases h
    · obtain ⟨hdone, hrest⟩ := List.forall_mem_cons.mp hstack
      refine ⟨List.forall_mem_cons.mpr ⟨?_, hrest⟩, trivial⟩
      exact List.forall_mem_cons (p := IsWritable).mpr ⟨hexpected, hdone⟩
    · obtain ⟨hdone, hrest⟩ := List.forall_mem_cons.mp hstack
      exact ⟨hrest, isWritable_insert hdone _ hexpected⟩
    · obtain ⟨hdone, hrest⟩ := List.forall_mem_cons.mp hstack
      refine ⟨hrest, .array fun v hv => ?_⟩
      exact hdone.cons hexpected v (List.mem_reverse.mp hv)
    · obtain ⟨hdone, hrest⟩ := List.forall_mem_cons.mp hstack
      exact ⟨hrest, isWritable_insert hdone _ hexpected⟩

theorem isWritable_of_run {total : Nat} {expected : Expectation} {found : List Lexeme} {v : Value}
    (hstate : State.IsSound (stack, expected)) (hfound : ∀ lexeme ∈ found, lexeme.token.IsSound)
    (h : run total stack expected found = .ok v) : v.IsWritable := by
  induction found generalizing stack expected with
  | nil =>
      unfold run at h
      split at h <;> cases h
      exact hstate.2
  | cons lexeme rest ih =>
      obtain ⟨hlexeme, hrest⟩ := List.forall_mem_cons.mp hfound
      rw [run] at h
      split at h
      · rename_i hstep
        exact ih (step_isSound hstate hlexeme hstep) hrest h
      · cases h

theorem isWritable_of_read {text : String} {v : Value} (h : read text = .ok v) :
    v.IsWritable := by
  unfold read readChars at h
  split at h
  · cases h
  · cases hrun : run text.toList.length [] .value (lexemes text.toList.length text.toList) with
    | error e =>
        rw [hrun] at h
        cases h
    | ok w =>
        rw [hrun] at h
        cases h
        have hstart : State.IsSound ([], .value) := ⟨nofun, trivial⟩
        exact isWritable_of_run hstart (lexemes_isSound _ _) hrun

theorem isDocument_of_read {text : String} {v : Value} (h : read text = .ok v) :
    v.IsDocument :=
  (isWritable_of_read h).isDocument

end Reshape.Json
