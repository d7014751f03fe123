import Reshape.Pattern.Template

/-!
The errors of patterns and replacements. Main statements: a pattern fails only where its
text is malformed, for a look-behind without a fixed width or for a count beyond all bounds
(`Regex.read_eq_error`), and a replacement only where its text is malformed or for the name
of a group that the pattern does not have (`Template.read_eq_error`).
-/

namespace Reshape.Pattern

namespace Reader

variable {α β : Type} {kind : Error → Prop}

/-- Apart from problems at a place of the text, a reader has only errors of a kind. -/
def FailsWith (kind : Error → Prop) (reader : Reader α) : Prop :=
  ∀ state e, reader.run state = .error e →
    (∃ problem offset, e = .malformed problem offset) ∨ kind e

/-! ### What readers are made of -/

@[grind ←]
theorem failsWith_pure (x : α) : FailsWith kind (pure x : Reader α) := by
  intro state e h
  cases h

@[grind ←]
theorem failsWith_bind {reader : Reader α} {next : α → Reader β} (h : FailsWith kind reader)
    (hnext : ∀ x, FailsWith kind (next x)) : FailsWith kind (reader >>= next) := by
  intro state e herror
  rw [StateT.run_bind] at herror
  cases hrun : reader.run state with
  | error first =>
    rw [hrun] at herror
    cases herror
    exact h state e hrun
  | ok result =>
    rw [hrun] at herror
    exact hnext result.1 result.2 e herror

@[grind ←]
theorem failsWith_throw {e : Error} (h : kind e) : FailsWith kind (throw e : Reader α) := by
  intro state error herror
  cases herror
  exact .inr h

@[grind ←]
theorem failsWith_get : FailsWith kind (get : Reader Reading) := by
  intro state e h
  cases h

@[grind ←]
theorem failsWith_put (state : Reading) :
    FailsWith kind (MonadStateOf.set state : Reader PUnit) := by
  intro before e h
  cases h

@[grind ←]
theorem failsWith_set (state : Reading) : FailsWith kind (StateT.set state : Reader PUnit) := by
  intro before e h
  cases h

@[grind ←]
theorem failsWith_modify (change : Reading → Reading) :
    FailsWith kind (modify change : Reader PUnit) := by
  intro before e h
  cases h

@[grind ←]
theorem failsWith_failAt (offset : Nat) (problem : Problem) :
    FailsWith kind (failAt offset problem : Reader α) := by
  intro state e h
  cases h
  exact .inl ⟨problem, offset, rfl⟩

@[grind ←]
theorem failsWith_fail (problem : Problem) (back : Nat) :
    FailsWith kind (fail problem back : Reader α) := by
  grind [fail, tell]

/-! ### Pieces -/

@[grind ←]
theorem failsWith_tell : FailsWith kind tell := by
  grind [tell]

@[grind ←]
theorem failsWith_peek : FailsWith kind peek := by
  grind [peek]

@[grind ←]
theorem failsWith_refuseDangling : FailsWith kind refuseDangling := by
  grind [refuseDangling]

@[grind ←]
theorem failsWith_take : FailsWith kind take := by
  grind [take]

@[grind ←]
theorem failsWith_takeIf (c : Char) : FailsWith kind (takeIf c) := by
  grind [takeIf]

@[grind ←]
theorem failsWith_takeWhile (p : Char → Bool) (n : Nat) :
    FailsWith kind (takeWhile p n) := by
  induction n with
  | zero => grind [takeWhile]
  | succ n ih => grind [takeWhile]

@[grind ←]
theorem failsWith_takeUntil (terminator : Char) (what : String) :
    FailsWith kind (takeUntil terminator what) := by
  have hwith : ∀ (fuel : Nat) (before : List Char),
      FailsWith kind (takeUntilWith terminator what before fuel) := by
    intro fuel
    induction fuel with
    | zero => grind [takeUntilWith]
    | succ fuel ih => grind [takeUntilWith]
  grind [takeUntil]

/-! ### Escapes and sets -/

@[grind ←]
theorem failsWith_failEscape (escape : List Char) :
    FailsWith kind (failEscape escape : Reader α) := by
  grind [failEscape]

@[grind ←]
theorem failsWith_hexEscape (c : Char) (length : Nat) : FailsWith kind (hexEscape c length) := by
  grind [hexEscape]

@[grind ←]
theorem failsWith_octalEscape (digits : List Char) : FailsWith kind (octalEscape digits) := by
  grind [octalEscape]

@[grind ←]
theorem failsWith_namedEscape : FailsWith kind namedEscape := by
  grind [namedEscape]

@[grind ←]
theorem failsWith_memberEscape (c : Char) : FailsWith kind (memberEscape c) := by
  grind [memberEscape]

@[grind ←]
theorem failsWith_oneCode (n : Nat) : FailsWith kind (oneCode n) := by
  grind [oneCode]

@[grind ←]
theorem failsWith_refuseInner (group : Nat) : FailsWith kind (refuseInner group) := by
  grind [refuseInner]

@[grind ←]
theorem failsWith_reference (group back : Nat) : FailsWith kind (reference group back) := by
  grind [reference]

@[grind ←]
theorem failsWith_digitEscape (c : Char) : FailsWith kind (digitEscape c) := by
  grind [digitEscape]

@[grind ←]
theorem failsWith_nodeEscape (c : Char) : FailsWith kind (nodeEscape c) := by
  refine failsWith_bind failsWith_get fun state => ?_
  dsimp only
  split
  · grind
  · split
    · grind
    · split <;> grind

@[grind ←]
theorem failsWith_member (piece : Piece) : FailsWith kind (member piece) := by
  cases piece <;> grind [member]

@[grind ←]
theorem failsWith_range (low high : Member) (lowText highText : List Char) :
    FailsWith kind (range low high lowText highText) := by
  cases low <;> cases high <;> grind [range]

@[grind ←]
theorem failsWith_members (opening : Nat) (done : List Member) (fuel : Nat) :
    FailsWith kind (members opening done fuel) := by
  induction fuel generalizing done with
  | zero => grind [members]
  | succ fuel ih =>
    rw [members]
    refine failsWith_bind failsWith_take fun first => ?_
    cases first with
    | none => grind
    | some piece =>
      have hmember : ∀ piece, FailsWith kind (member piece) := failsWith_member
      grind

@[grind ←]
theorem failsWith_characters : FailsWith kind Reader.set := by
  grind [Reader.set]

/-! ### Groups -/

@[grind ←]
theorem failsWith_groupName (terminator : Char) : FailsWith kind (groupName terminator) := by
  grind [groupName]

@[grind ←]
theorem failsWith_flagOr (others : List Char) (what : String) :
    FailsWith kind (flagOr others what) := by
  grind [flagOr]

@[grind ←]
theorem failsWith_flagsOn (on : List Char) (c : Char) (fuel : Nat) :
    FailsWith kind (flagsOn on c fuel) := by
  induction fuel generalizing on c with
  | zero => grind [flagsOn]
  | succ fuel ih => grind [flagsOn]

@[grind ←]
theorem failsWith_flagsOff (off : List Char) (c : Char) (fuel : Nat) :
    FailsWith kind (flagsOff off c fuel) := by
  induction fuel generalizing off c with
  | zero => grind [flagsOff]
  | succ fuel ih => grind [flagsOff]

@[grind ←]
theorem failsWith_flags (first : Char) : FailsWith kind (flags first) := by
  refine failsWith_bind failsWith_get fun state => ?_
  dsimp only
  split
  · refine failsWith_bind (failsWith_pure _) fun found => ?_
    split <;> grind
  · refine failsWith_bind (failsWith_flagsOn _ _ _) fun found => ?_
    split <;> grind

@[grind ←]
theorem failsWith_comment (opening fuel : Nat) : FailsWith kind (comment opening fuel) := by
  induction fuel with
  | zero => grind [comment]
  | succ fuel ih => grind [comment]

@[grind ←]
theorem failsWith_namedReference : FailsWith kind namedReference := by
  grind [namedReference]

@[grind ←]
theorem failsWith_condition : FailsWith kind condition := by
  refine failsWith_bind (failsWith_takeUntil _ _) fun name => ?_
  dsimp only
  split
  · grind
  · split <;> grind

@[grind ←]
theorem failsWith_extension (opening : Nat) : FailsWith kind (extension opening) := by
  refine failsWith_bind failsWith_take fun piece => ?_
  split <;> grind

@[grind ←]
theorem failsWith_openGroup (name : Option String) : FailsWith kind (openGroup name) := by
  grind [openGroup]

@[grind ←]
theorem failsWith_close (opening : Nat) : FailsWith kind (close opening) := by
  grind [close]

@[grind ←]
theorem failsWith_behindBody {body : Reader Node} (h : FailsWith kind body) :
    FailsWith kind (behindBody body) := by
  grind [behindBody]

@[grind ←]
theorem failsWith_group (opening : Nat) {body : Reader Node} (groupKind : GroupKind)
    (h : FailsWith kind body) : FailsWith kind (group opening body groupKind) := by
  cases groupKind <;> grind [group, closeGroup]

@[grind ←]
theorem failsWith_setFlags (on : List Char) : FailsWith kind (setFlags on) := by
  grind [setFlags]

@[grind ←]
theorem failsWith_flaggedGroup (opening : Nat) {body : Reader Node} (on off : List Char)
    (h : FailsWith kind body) : FailsWith kind (flaggedGroup opening body on off) := by
  grind [flaggedGroup]

@[grind ←]
theorem failsWith_conditional (opening : Nat) {branch : Reader Node} (group : Nat)
    (h : FailsWith kind branch) : FailsWith kind (conditional opening branch group) := by
  refine failsWith_bind h fun yes => failsWith_bind (failsWith_takeIf '|') fun hasTwo => ?_
  dsimp only
  split
  · refine failsWith_bind h fun no => failsWith_bind failsWith_peek fun next => ?_
    split <;> grind
  · grind

@[grind ←]
theorem failsWith_parenthesis {body branch : Reader Node} (atStart : Bool)
    (h : FailsWith kind body) (hbranch : FailsWith kind branch) :
    FailsWith kind (parenthesis body branch atStart) := by
  refine failsWith_bind failsWith_tell fun offset =>
    failsWith_bind (failsWith_takeIf '?') fun isExtension => ?_
  cases isExtension with
  | false => grind
  | true =>
    refine failsWith_bind (failsWith_extension _) fun found => ?_
    cases found <;> grind

/-! ### Patterns -/

@[grind ←]
theorem failsWith_simpleItem (piece : Piece) : FailsWith kind (simpleItem piece) := by
  unfold simpleItem
  split <;> grind

@[grind ←]
theorem failsWith_lineComment (fuel : Nat) : FailsWith kind (lineComment fuel) := by
  induction fuel with
  | zero => grind [lineComment]
  | succ fuel ih => grind [lineComment]

@[grind ←]
theorem failsWith_skipped (c : Char) : FailsWith kind (skipped c) := by
  grind [skipped]

@[grind ←]
theorem failsWith_manner : FailsWith kind manner := by
  grind [manner]

@[grind ←]
theorem failsWith_repeatLast (items : List Item) (offset least : Nat) (most : Option Nat) :
    FailsWith kind (repeatLast items offset least most) := by
  unfold repeatLast
  cases items.getLast? with
  | none => grind
  | some item => grind

end Reader

/-- What is wrong with a pattern, but not at a place of it. -/
inductive Error.OfPattern : Error → Prop
  | unusable (problem : Problem) : OfPattern (.unusable problem)
  | repeatTooLarge : OfPattern .repeatTooLarge
  | numeralTooLong {digits : Nat} (h : Decimal.digitLimit < digits) :
      OfPattern (.numeralTooLong digits)
  | mixedGlobalAlphabets : OfPattern .mixedGlobalAlphabets

namespace Reader

open Error (OfPattern)

@[grind ←]
theorem failsWith_boundOf (digits : List Char) : FailsWith OfPattern (boundOf digits) := by
  unfold boundOf
  split
  · rename_i hlong
    refine failsWith_bind (failsWith_throw (.numeralTooLong hlong)) fun _ => ?_
    grind [OfPattern.repeatTooLarge]
  · grind [OfPattern.repeatTooLarge]

@[grind ←]
theorem failsWith_bounds (mark : Char) : FailsWith OfPattern (bounds? mark) := by
  unfold bounds?
  split
  case h_4 =>
    refine failsWith_bind failsWith_get fun start => failsWith_bind failsWith_peek fun next => ?_
    split
    · exact failsWith_pure none
    · refine failsWith_bind (failsWith_takeWhile _ _) fun low =>
        failsWith_bind (failsWith_takeIf ',') fun hasTwo => ?_
      cases hasTwo <;> grind
  all_goals exact failsWith_pure _

/-- The induction is on the fuel, for alternatives and sequences at once. -/
theorem failsWith_alternatives (fuel : Nat) :
    (∀ outermost done, FailsWith OfPattern (alternatives outermost done fuel)) ∧
      ∀ first items, FailsWith OfPattern (sequence first items fuel) := by
  induction fuel with
  | zero => grind [alternatives, sequence]
  | succ fuel ih =>
    obtain ⟨halternatives, hsequence⟩ := ih
    constructor
    · grind [alternatives]
    · intro first items
      rw [sequence]
      refine failsWith_bind failsWith_peek fun next => ?_
      split
      case h_4 =>
        refine failsWith_bind failsWith_take fun _ => ?_
        split
        · refine failsWith_bind (failsWith_skipped _) fun isSkipped => ?_
          split
          · exact hsequence _ _
          · split <;> grind
        · grind
      all_goals exact failsWith_pure _

theorem failsWith_whole : FailsWith OfPattern whole := by
  refine failsWith_bind failsWith_refuseDangling fun _ => failsWith_bind failsWith_get fun start =>
    failsWith_bind ((failsWith_alternatives _).1 _ _) fun node =>
      failsWith_bind failsWith_get fun state => ?_
  dsimp only
  split
  · refine failsWith_bind (failsWith_throw .mixedGlobalAlphabets) fun _ => ?_
    grind [OfPattern.unusable]
  · refine failsWith_bind failsWith_peek fun next => ?_
    grind [OfPattern.unusable]

end Reader

theorem Regex.read_eq_error {charNamed? : String → Option Char} {text : String} {e : Error}
    (h : Regex.read charNamed? text = .error e) :
    (∃ problem offset, e = .malformed problem offset) ∨ e.OfPattern := by
  rw [Regex.read] at h
  split at h
  · rename_i herror
    cases h
    exact Reader.failsWith_whole _ _ herror
  · cases h

namespace Template

open Reader

/-- A replacement names a group that a pattern does not have. -/
def LacksGroup (regex : Regex) (e : Error) : Prop :=
  ∃ group, e = .groupNotFound group ∧ ∀ entry ∈ regex.names, entry.1 ≠ group

theorem lacksGroup_of_find {regex : Regex} {name : List Char}
    (h : regex.names.find? (fun entry => entry.1.toList == name) = none) :
    LacksGroup regex (.groupNotFound (String.ofList name)) := by
  refine ⟨_, rfl, fun entry hmem hname => ?_⟩
  have hne := List.find?_eq_none.mp h entry hmem
  simp [hname] at hne

@[grind ←]
theorem failsWith_numbered {kind : Error → Prop} (groups index back : Nat) :
    FailsWith kind (numbered groups index back) := by
  grind [numbered]

@[grind ←]
theorem failsWith_digits {kind : Error → Prop} (groups : Nat) (c : Char) :
    FailsWith kind (digits groups c) := by
  grind [digits]

@[grind ←]
theorem failsWith_named (regex : Regex) : FailsWith (LacksGroup regex) (named regex) := by
  grind [named, lacksGroup_of_find]

@[grind ←]
theorem failsWith_escape (regex : Regex) (c : Char) :
    FailsWith (LacksGroup regex) (escape regex c) := by
  grind [escape]

theorem failsWith_parts (regex : Regex) (done : Template) (fuel : Nat) :
    FailsWith (LacksGroup regex) (parts regex done fuel) := by
  induction fuel generalizing done with
  | zero => grind [parts]
  | succ fuel ih => grind [parts]

theorem read_eq_error {regex : Regex} {text : String} {e : Error}
    (h : read regex text = .error e) :
    (∃ problem offset, e = .malformed problem offset) ∨ LacksGroup regex e := by
  rw [read] at h
  split at h
  · rename_i herror
    cases h
    exact failsWith_bind failsWith_refuseDangling
      (fun _ => failsWith_bind failsWith_get fun _ => failsWith_parts regex [] _) _ _ herror
  · cases h

end Template

end Reshape.Pattern
