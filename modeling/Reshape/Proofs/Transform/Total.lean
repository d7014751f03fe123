import Reshape.Proofs.Transform.Insertions
import Reshape.Query.Engine

namespace Reshape

/-- The query by which a transform finds nodes. -/
def Transform.query? : Transform → Option Query
  | .select query => some query
  | .mutate query _ => some query
  | .delete query => some query
  | .remove query => some query
  | _ => none

namespace Chain

/-- No part of the chain has a query or expands keys. -/
def IsPlain (chain : Chain) : Prop :=
  ∀ part ∈ parts chain, part.query? = none ∧ part ≠ .operation .expandKeys

/-- A part of the chain replaces up to a number of times that cannot be counted. -/
def ReplacesUncountably (chain : Chain) : Prop :=
  ∃ substitution, .replaceString substitution ∈ parts chain ∧
    Substitution.limitBound ≤ substitution.limit

def Sorts (chain : Chain) : Prop :=
  ∃ order maxDepth, .sort order maxDepth ∈ parts chain

/-- The numbers in what a chain inserts. -/
def numbers (chain : Chain) : List Number :=
  (parts chain).flatMap fun part => part.inserted.flatMap Value.numbers

/-- Among the numbers of a document and of a chain are an integer that is too large for binary64
and a binary64 number. -/
def Mixes (chain : Chain) (v : Value) : Prop :=
  ∃ i x, .int i ∈ v.numbers ++ chain.numbers ∧ .float x ∈ v.numbers ++ chain.numbers ∧
    Double.ofInt? i = none

/-- The faults that are left to a chain without queries. -/
inductive Allows (chain : Chain) (v : Value) : Fault → Prop
  | limit (h : chain.ReplacesUncountably) : Allows chain v .limitTooLarge
  | integer (hsorts : chain.Sorts) (hmixes : chain.Mixes v) : Allows chain v .integerTooLarge

variable {chain : Chain} {v : Value}

theorem mem_numbers_of_inserted {part : Transform} (hpart : part ∈ parts chain) {w : Value}
    (hw : w ∈ part.inserted) {n : Number} (hn : n ∈ w.numbers) : n ∈ chain.numbers :=
  List.mem_flatMap.mpr ⟨part, hpart, List.mem_flatMap.mpr ⟨w, hw, hn⟩⟩

theorem demands_of_isPlain (hplain : chain.IsPlain) (hinserts : chain.Inserts Value.IsWritable) :
    ∀ part ∈ parts chain,
      part.Demands (· ∈ v.numbers ++ chain.numbers) (chain.Allows v) := by
  intro part hpart
  obtain ⟨hquery, hexpand⟩ := hplain part hpart
  have hover : ∀ w ∈ part.inserted,
      w.IsOver fun n => n ∈ v.numbers ++ chain.numbers ∧ n.isShort = true := by
    intro w hw
    have hwritable := hinserts part hpart w hw
    refine hwritable.isDocument.isOver fun n hn => ⟨?_, hwritable.of_mem_numbers n hn⟩
    exact List.mem_append_right _ (mem_numbers_of_inserted hpart hw hn)
  cases part with
  | operation o =>
      rintro rfl
      exact hexpand rfl
  | select query => cases hquery
  | mutate query inner => cases hquery
  | delete query => cases hquery
  | remove query => cases hquery
  | sort order maxDepth =>
      intro i x hi hx hnone
      exact .integer ⟨order, maxDepth, hpart⟩ ⟨i, x, hi, hx, hnone⟩
  | replaceString substitution =>
      intro hlimit
      exact .limit ⟨substitution, hpart, hlimit⟩
  | insertElement index w => exact hover w List.mem_cons_self
  | insertEntry key w => exact hover w List.mem_cons_self
  | _ => trivial

theorem apply_replaceString_of_limitBound_le {substitution : Substitution}
    (h : Substitution.limitBound ≤ substitution.limit) (s : String) :
    apply [.replaceString substitution] (.string s) = .error .limitTooLarge := by
  have hsubstitution : substitution.apply (.string s) = .error .limitTooLarge := by
    unfold Substitution.apply
    split
    · split
      · rfl
      · contradiction
    · rename_i hstring
      exact absurd rfl (hstring s)
  simp only [apply, Transform.apply, hsubstitution]

theorem apply_sort_of_ofInt?_eq_none {i : Int} (h : Double.ofInt? i = none) (x : Double)
    (order : SortOrder) (maxDepth : Option Nat) :
    apply [.sort order maxDepth] (.array [.number (.float x), .number (.int i)]) =
      .error .integerTooLarge := by
  have hcompare : Number.compare? (.int i) (.float x) = none := by
    rw [Number.compare?, h, Option.map_none]
  have hcompare' : Number.compare? (.float x) (.int i) = none := by
    rw [Number.compare?, h, Option.map_none]
  have hbefore : Value.before (.number (.int i)) (.number (.float x)) =
      .error .integerTooLarge := by
    rw [Value.before, Value.compare, hcompare]
    rfl
  have hbefore' : Value.before (.number (.float x)) (.number (.int i)) =
      .error .integerTooLarge := by
    rw [Value.before, Value.compare, hcompare']
    rfl
  have hsort : order.sortItems [.number (.float x), .number (.int i)] =
      .error .integerTooLarge := by
    cases order with
    | ascending =>
        show Sorting.sort Value.before [_, _] = _
        rw [Sorting.sort, hbefore]
    | descending =>
        show (Sorting.sort Value.before [_, _]).map List.reverse = _
        rw [Sorting.sort, hbefore']
        rfl
  have hvalue : Value.sort order maxDepth (.array [.number (.float x), .number (.int i)]) =
      .error .integerTooLarge := by
    unfold Value.sort
    split
    · rw [hsort]
      rfl
    · simp only [Value.sortEach, Value.sort, Except.map]
      rw [hsort]
  rw [apply, Transform.apply, hvalue]

end Chain

namespace Builtin

/-- A compiled pipeline without queries and without expansion of keys makes a document of every
document, or fails for one of two reasons: a part of it replaces up to a number of times that
needs more than 63 bits, or a part of it sorts and among the numbers of the document and of the
pipeline are an integer too large for binary64 and a binary64 number. Each of these reasons lets
some document fail. -/
theorem apply_compiled [Tools] (settings : Settings) :
    (∀ texts chain v, (definitions settings).compile texts = .ok chain → Chain.IsPlain chain →
      v.IsDocument →
        (∃ w, Chain.apply chain v = .ok w ∧ w.IsDocument) ∨
        (Chain.apply chain v = .error .limitTooLarge ∧ Chain.ReplacesUncountably chain) ∨
        (Chain.apply chain v = .error .integerTooLarge ∧ Chain.Sorts chain ∧
          Chain.Mixes chain v)) ∧
    (∀ (substitution : Substitution) (s : String),
      Substitution.limitBound ≤ substitution.limit →
        Chain.apply [.replaceString substitution] (.string s) = .error .limitTooLarge) ∧
    ∀ (i : Int) (x : Double) (order : SortOrder) (maxDepth : Option Nat),
      Double.ofInt? i = none →
        Chain.apply [.sort order maxDepth] (.array [.number (.float x), .number (.int i)]) =
          .error .integerTooLarge := by
  refine ⟨?_, fun substitution s h => Chain.apply_replaceString_of_limitBound_le h s,
    fun i x order maxDepth h => Chain.apply_sort_of_ofInt?_eq_none h x order maxDepth⟩
  intro texts chain v hcompile hplain hv
  have hinserts := inserts_isWritable_of_compile settings hcompile
  have hover : v.IsOver (· ∈ v.numbers ++ Chain.numbers chain) :=
    hv.isOver fun n hn => List.mem_append_left _ hn
  have hends := Chain.apply_ends chain (Chain.demands_of_isPlain hplain hinserts) hover
  cases hresult : Chain.apply chain v with
  | ok w => exact .inl ⟨w, rfl, (hends.of_eq_ok hresult).isDocument⟩
  | error e =>
      cases hends.of_eq_error hresult with
      | limit h => exact .inr (.inl ⟨rfl, h⟩)
      | integer hsorts hmixes => exact .inr (.inr ⟨rfl, hsorts, hmixes⟩)

/-- The number 1.5. -/
def threeHalves : Double :=
  ⟨false, 1023 * twoTo 52 + twoTo 51, by decide⟩

theorem compile_sort [Tools] :
    (definitions { }).compile ["sort"] = .ok [.sort .ascending none] := by
  have hmatch : (definitions { }).matchCall (.mk "sort" []) =
      .ok (.mk "sort" [("order", .value (.string "asc"))]) := by
    simp only [Registry.matchCall, Registry.bindArguments]
    rfl
  have hbuild : (Match.mk "sort" [("order", .value (.string "asc"))]).build =
      .ok (.sort .ascending none) := by
    simp only [Match.build, builtBindings, builtBinding]
    rfl
  exact Registry.compile_name "sort" (Pipeline.isName_cons (by decide) (by decide))
    ⟨_, hmatch, hbuild⟩

theorem isPlain_sort : Chain.IsPlain [.sort .ascending none] := by
  intro part hpart
  rw [List.mem_singleton.mp hpart]
  exact ⟨rfl, nofun⟩

theorem apply_compiled_sort :
    ∃ w, Chain.apply [.sort .ascending none] (.array [.bool true, .null]) = .ok w ∧
      w.IsDocument := by
  have hdocument : (Value.array [.bool true, .null]).IsDocument :=
    .array _ (List.forall_mem_cons.mpr ⟨.bool true, List.forall_mem_singleton.mpr .null⟩)
  rcases (@apply_compiled .ofPaths { }).1 _ _ _ (@compile_sort .ofPaths) isPlain_sort
      hdocument with
    hresult | ⟨-, substitution, hmem, -⟩ | ⟨-, -, i, x, hmem, -⟩
  · exact hresult
  · cases List.mem_singleton.mp hmem
  · exact absurd hmem (by simp [Value.numbers, Value.numbersOfItems, Chain.numbers, Chain.parts,
      Transform.parts, Transform.inserted])

theorem apply_sort_mixed :
    ∃ chain v, @Registry.compile .ofPaths (definitions { }) ["sort"] = .ok chain ∧
      Chain.IsPlain chain ∧ v.IsDocument ∧ Chain.apply chain v = .error .integerTooLarge := by
  have hdocument :
      (Value.array [.number (.float threeHalves), .number (.int (10 ^ 400))]).IsDocument := by
    refine .array _ (List.forall_mem_cons.mpr ⟨.number _, List.forall_mem_singleton.mpr ?_⟩)
    exact .number _
  exact ⟨_, _, @compile_sort .ofPaths, isPlain_sort, hdocument,
    Chain.apply_sort_of_ofInt?_eq_none (by decide +kernel) threeHalves .ascending none⟩

end Builtin

end Reshape
