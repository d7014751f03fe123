import Mathlib
import Reshape.Proofs.Query.Paths
import Reshape.Proofs.Transform.Apply
import Reshape.Proofs.Value.Sort

/-!
What queries select. Main statement: `select_ends`, that with every engine that obeys some laws a
query selects documents and bare numbers, and that there is a query that selects bare numbers only.
-/

namespace Reshape

section Bare

theorem Sorting.sort_eq_error {α ε : Type} {before : α → α → Except ε Bool} {xs : List α} {e : ε}
    (hbefore : ∀ x ∈ xs, ∀ y ∈ xs, before x y = .error e) (hlength : 2 ≤ xs.length) :
    sort before xs = .error e := by
  match xs, hlength with
  | x :: y :: rest, _ =>
      have hfirst : before y x = .error e :=
        hbefore y (List.mem_cons_of_mem _ List.mem_cons_self) x List.mem_cons_self
      rw [sort, hfirst]

variable {xs : List Value}

theorem Value.sortEach_bare (hxs : ∀ w ∈ xs, ∃ i, w = .bare (.integer i)) (order : SortOrder)
    (levels : Option Nat) : sortEach order levels xs = .ok xs := by
  refine sortEach_eq_ok_iff.mpr (List.forall₂_same.mpr fun w hw => ?_)
  obtain ⟨i, rfl⟩ := hxs w hw
  rfl

theorem SortOrder.sortItems_bare (hxs : ∀ w ∈ xs, ∃ i, w = .bare (.integer i))
    (hlength : 2 ≤ xs.length) (order : SortOrder) :
    order.sortItems xs = .error (.bareNumber "int") := by
  have hbefore : ∀ v ∈ xs, ∀ w ∈ xs, Value.before v w = .error (.bareNumber "int") := by
    intro v hv w hw
    obtain ⟨i, rfl⟩ := hxs v hv
    obtain ⟨j, rfl⟩ := hxs w hw
    rfl
  cases order with
  | ascending => exact Sorting.sort_eq_error hbefore hlength
  | descending =>
      have hreverse : ∀ v ∈ xs.reverse, ∀ w ∈ xs.reverse,
          Value.before v w = .error (.bareNumber "int") :=
        fun v hv w hw => hbefore v (List.mem_reverse.mp hv) w (List.mem_reverse.mp hw)
      rw [sortItems, Sorting.sortDescending,
        Sorting.sort_eq_error hreverse (by rwa [List.length_reverse])]
      rfl

theorem Value.sort_bare (hxs : ∀ w ∈ xs, ∃ i, w = .bare (.integer i)) (hlength : 2 ≤ xs.length)
    (order : SortOrder) (levels : Option Nat) :
    sort order levels (array xs) = .error (.bareNumber "int") := by
  have hsort := order.sortItems_bare hxs hlength
  have hinner : ∀ levels : Option Nat,
      sort order (levels.map (· + 1)) (array xs) = .error (.bareNumber "int") := by
    intro levels
    rw [sort_array_succ, sortEach_bare hxs]
    dsimp only
    rw [hsort]
    rfl
  match levels with
  | none => exact hinner none
  | some (n + 1) => exact hinner (some n)
  | some 0 =>
      rw [sort, hsort]
      rfl

end Bare

namespace Query

/-- The size of a value that has one, as a bare number. -/
def sizeOf? : Value → Option Value
  | .string s => some (.bare (.integer s.length))
  | .array items => some (.bare (.integer items.length))
  | .object entries => some (.bare (.integer entries.length))
  | _ => none

theorem exists_bare_of_sizeOf? {v w : Value} (h : sizeOf? v = some w) :
    ∃ i, w = .bare (.integer i) := by
  cases v <;> cases h <;> exact ⟨_, rfl⟩

/-- What is known of the matches that an engine finds. -/
structure Engine.Lawful (engine : Engine) : Prop where
  /-- A match is a part of the document, or is computed: a string, an array or a number. -/
  value : ∀ {text : String} {query : Query} {v : Value} {found : List Match},
    engine.read text = .ok query → v.IsDocument → query.find v = .ok found →
      ∀ m ∈ found, m.value.IsDocument ∨ ∃ x, m.value = .bare x
  /-- Behind the path to the elements of an array, `len` finds the sizes that they have. -/
  sizes : ∃ query, engine.read "$[*].\x60len\x60" = .ok query ∧
    ∀ items : List Value, (∀ w ∈ items, w.IsDocument) →
      ∃ found, query.find (.array items) = .ok found ∧
        found.map Match.value = items.filterMap sizeOf?

theorem Path.read_elementSizes :
    Path.read "$[*].\x60len\x60" = .ok (.child (.child .root .children) .size) := by
  cbv

theorem Path.engine_lawful : Path.engine.Lawful where
  value := by
    intro text query v found hread hv hfind m hm
    obtain ⟨path, -, rfl⟩ := Path.exists_of_engine_read hread
    obtain ⟨nodes, hnodes, rfl⟩ := map_eq_ok_iff.mp hfind
    obtain ⟨n, hn, rfl⟩ := List.mem_map.mp hm
    exact (path.isSound_of_find (Node.isSound_ofRoot hv) hnodes n hn).value
  sizes := by
    refine ⟨_, Path.engine_read Path.read_elementSizes, fun items _ => ?_⟩
    have hsizes := Path.find_child_size _ (Path.find_elements items)
    refine ⟨_, map_eq_ok_iff.mpr ⟨_, hsizes, rfl⟩, ?_⟩
    have hvalues : ∀ m : Node, m.size?.map Node.value = sizeOf? m.value := by
      intro m
      cases hv : m.value <;> simp [sizeOf?, Node.size?, Node.computed, hv]
    rw [List.map_map, List.map_filterMap]
    calc
      _ = (((Node.ofRoot (.array items)).elements items).map Node.value).filterMap sizeOf? := by
        rw [List.filterMap_map]
        exact List.filterMap_congr fun m _ => hvalues m
      _ = items.filterMap sizeOf? := by rw [Node.map_value_elements]

/-- A query fails as the engine does. It selects documents and bare numbers, so they make a document
if no bare number is among them. Some query selects nothing but bare numbers, which cannot be
sorted. -/
theorem select_ends {engine : Engine} (hengine : engine.Lawful) :
    (∀ text query, engine.read text = .ok query → ∀ v : Value, v.IsDocument →
      Ends (fun e => query.find v = .error e)
        (fun found => (∀ w ∈ found, w.IsDocument ∨ ∃ x, w = .bare x) ∧
          ((Value.array found).IsDocument ↔ ∀ x, .bare x ∉ found)) (query.select v)) ∧
    ∃ query, engine.read "$[*].\x60len\x60" = .ok query ∧
      ∀ items : List Value, (∀ w ∈ items, w.IsDocument) →
        query.select (.array items) = .ok (items.filterMap sizeOf?) ∧
        (∀ w ∈ items.filterMap sizeOf?, ¬ w.IsDocument) ∧
        (2 ≤ (items.filterMap sizeOf?).length → ∀ order maxDepth,
          Chain.apply [.select query, .sort order maxDepth] (.array items) =
            .error (.bareNumber "int")) := by
  constructor
  · intro text query hread v hv
    rw [select]
    cases hfind : query.find v with
    | error e => exact .error rfl
    | ok matched =>
        have hvalues : ∀ w ∈ matched.map Match.value, w.IsDocument ∨ ∃ x, w = .bare x :=
          List.forall_mem_map.mpr (hengine.value hread hv hfind)
        refine .ok ⟨hvalues, fun hdocument x hx => ?_, fun hbare => .array _ fun w hw => ?_⟩
        · cases hdocument.of_mem_items _ hx
        · exact (hvalues w hw).resolve_right fun ⟨x, hx⟩ => hbare x (hx ▸ hw)
  · obtain ⟨query, hread, hsizes⟩ := hengine.sizes
    refine ⟨query, hread, fun items hitems => ?_⟩
    obtain ⟨found, hfind, hvalues⟩ := hsizes items hitems
    have hselect : query.select (.array items) = .ok (items.filterMap sizeOf?) := by
      rw [select, hfind, ← hvalues]
      rfl
    have hbare : ∀ w ∈ items.filterMap sizeOf?, ∃ i, w = .bare (.integer i) := by
      intro w hw
      obtain ⟨v, -, hsize⟩ := List.mem_filterMap.mp hw
      exact exists_bare_of_sizeOf? hsize
    refine ⟨hselect, fun w hw hdocument => ?_, fun hlength order maxDepth => ?_⟩
    · obtain ⟨i, rfl⟩ := hbare w hw
      cases hdocument
    · rw [Chain.apply_cons, Transform.apply, hselect]
      change Chain.apply [.sort order maxDepth] (.array (items.filterMap sizeOf?)) = _
      rw [Chain.apply_singleton, Transform.apply, Value.sort_bare hbare hlength]

/-- An array of two arrays. -/
def twoArrays : Value :=
  .array [.array [.number (.int 1)], .array [.number (.int 2)]]

theorem isDocument_twoArrays : twoArrays.IsDocument := by
  have hone : ∀ i, (Value.array [.number (.int i)]).IsDocument :=
    fun i => .array _ (List.forall_mem_singleton.mpr (.number _))
  exact .array _ (List.forall_mem_cons.mpr ⟨hone 1, List.forall_mem_singleton.mpr (hone 2)⟩)

theorem select_elements :
    Path.engine.Lawful ∧ ∃ query, Path.engine.read "$[*].\x60len\x60" = .ok query ∧
      query.select twoArrays = .ok [.bare (.integer 1), .bare (.integer 1)] ∧
      Chain.apply [.select query, .sort .ascending none] twoArrays =
        .error (.bareNumber "int") := by
  obtain ⟨query, hread, hsizes⟩ := (select_ends Path.engine_lawful).2
  obtain ⟨hselect, -, hsort⟩ := hsizes _ isDocument_twoArrays.of_mem_items
  exact ⟨Path.engine_lawful, query, hread, hselect, hsort (by decide) .ascending none⟩

theorem select_elementSizes :
    ¬ ∀ text query, Path.engine.read text = .ok query → ∀ v : Value, v.IsDocument →
      ∃ found, query.select v = .ok found ∧ ∀ w ∈ found, w.IsDocument := by
  intro h
  obtain ⟨found, hselect, hdocuments⟩ :=
    h _ _ (Path.engine_read Path.read_elementSizes) twoArrays isDocument_twoArrays
  have hfound : found = [.bare (.integer 1), .bare (.integer 1)] :=
    (Except.ok.inj hselect).symm
  cases hdocuments (.bare (.integer 1)) (hfound ▸ List.mem_cons_self)

end Query

end Reshape
