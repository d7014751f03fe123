import Reshape.Edit
import Reshape.Proofs.Key.Order
import Reshape.Proofs.Value.Place

namespace Reshape

namespace Value

open Key (Segment)

variable (g : Segment → Value → Option Value)

/-- Each element replaced, or left out, by its index and itself. -/
def mapItems (index : Nat) : List Value → List Value
  | [] => []
  | v :: vs => (g (.index index) v).toList ++ mapItems (index + 1) vs

/-- Each entry given another value, or left out, by its key and its value. -/
def mapEntries : Entries Value → Entries Value
  | [] => []
  | (k, v) :: rest => ((g (.ident k) v).map fun w => (k, w)).toList ++ mapEntries rest

def mapChildren : Value → Value
  | array items => array (mapItems g 0 items)
  | object entries => object (mapEntries g entries)
  | v => v

variable {g} {g' : Segment → Value → Option Value}

theorem mapItems_congr {index : Nat} {items : List Value}
    (h : ∀ (i : Nat) (u : Value), items[i]? = some u →
      g (.index (index + i : Nat)) u = g' (.index (index + i : Nat)) u) :
    mapItems g index items = mapItems g' index items := by
  induction items generalizing index with
  | nil => rfl
  | cons v vs ih =>
      have hrest : mapItems g (index + 1) vs = mapItems g' (index + 1) vs := by
        refine ih fun i u hu => ?_
        have hi := h (i + 1) u hu
        rwa [show index + (i + 1) = index + 1 + i by omega] at hi
      rw [mapItems, mapItems, show g (.index index) v = g' (.index index) v from h 0 v rfl, hrest]

theorem mapEntries_congr {entries : Entries Value}
    (h : ∀ e ∈ entries, g (.ident e.1) e.2 = g' (.ident e.1) e.2) :
    mapEntries g entries = mapEntries g' entries := by
  induction entries with
  | nil => rfl
  | cons e rest ih =>
      obtain ⟨he, hrest⟩ := List.forall_mem_cons.mp h
      rw [mapEntries, mapEntries, he, ih hrest]

theorem mapItems_id (index : Nat) (items : List Value) :
    mapItems (fun _ => some) index items = items := by
  induction items generalizing index with
  | nil => rfl
  | cons v vs ih => rw [mapItems, ih, Option.toList_some, List.singleton_append]

theorem mapEntries_id (entries : Entries Value) : mapEntries (fun _ => some) entries = entries := by
  induction entries with
  | nil => rfl
  | cons e rest ih => rw [mapEntries, ih, Option.map_some, Option.toList_some,
      List.singleton_append]

theorem mapChildren_congr {v : Value} (hv : v.IsDocument)
    (h : ∀ s u, v.child? s = some u → g s u = g' s u) : v.mapChildren g = v.mapChildren g' := by
  cases hv with
  | null | bool | number | string => rfl
  | array items =>
      rw [mapChildren, mapChildren, mapItems_congr]
      intro i u hu
      rw [Nat.zero_add]
      exact h (.index i) u ((child?_array items i).trans hu)
  | object entries hkeys =>
      rw [mapChildren, mapChildren, mapEntries_congr]
      intro e he
      exact h (.ident e.1) e.2 (Entries.find?_of_mem hkeys he)

theorem mapChildren_eq_self {v : Value} (hv : v.IsDocument)
    (h : ∀ s u, v.child? s = some u → g s u = some u) : v.mapChildren g = v := by
  have hsome : v.mapChildren g = v.mapChildren fun _ => some := mapChildren_congr hv h
  rw [hsome]
  cases hv with
  | null | bool | number | string => rfl
  | array items => rw [mapChildren, mapItems_id]
  | object entries => rw [mapChildren, mapEntries_id]

end Value

namespace Edit

open Key (Segment)
open Value (mapItems mapEntries mapItems_congr mapEntries_congr mapChildren_congr)

/-- One child replaced by a given answer. -/
def answering (g : Segment → Value → Option Value) (s : Segment) (answer : Option Value) :
    Segment → Value → Option Value :=
  fun t u => if t = s then answer else g t u

variable {g : Segment → Value → Option Value}

theorem answering_self (s : Segment) (answer : Option Value) (u : Value) :
    answering g s answer s u = answer :=
  if_pos rfl

theorem answering_of_ne {s t : Segment} (hts : t ≠ s) (answer : Option Value) (u : Value) :
    answering g s answer t u = g t u :=
  if_neg hts

section Arrays

/-- If no element before an index is left out, what stands there is the answer given for it,
between parts that do not depend on the answer. -/
theorem exists_mapItems_answering {items : List Value} (index : Nat) {i : Nat}
    (hi : i < items.length) (hbefore : ∀ j : Nat, j < index + i → ∀ u, (g (.index j) u).isSome) :
    ∃ before after : List Value, before.length = i ∧ ∀ answer,
      mapItems (answering g (.index (index + i : Nat)) answer) index items =
        before ++ (answer.toList ++ after) := by
  induction items generalizing index i with
  | nil => cases hi
  | cons v vs ih =>
      cases i with
      | zero =>
          refine ⟨[], mapItems g (index + 1) vs, rfl, fun answer => ?_⟩
          have hafter : mapItems (answering g (.index (index + 0 : Nat)) answer) (index + 1) vs =
              mapItems g (index + 1) vs := by
            refine mapItems_congr fun j u _ => answering_of_ne ?_ answer u
            simp only [ne_eq, Segment.index.injEq]
            omega
          rw [mapItems, hafter, Nat.add_zero, answering_self, List.nil_append]
      | succ i =>
          have hshift : index + (i + 1) = index + 1 + i := by omega
          rw [hshift] at hbefore ⊢
          obtain ⟨before, after, hlength, hsplit⟩ := ih (index + 1) (by simpa using hi) hbefore
          obtain ⟨x, hx⟩ := Option.isSome_iff_exists.mp (hbefore index (by omega) v)
          refine ⟨x :: before, after, by rw [List.length_cons, hlength], fun answer => ?_⟩
          have hne : Segment.index index ≠ .index (index + 1 + i : Nat) := by
            simp only [ne_eq, Segment.index.injEq]
            omega
          rw [mapItems, hsplit, answering_of_ne hne, hx]
          rfl

theorem putElement_answer (before after : List Value) (x : Value) (answer : Option Value) :
    putElement (before ++ ((some x).toList ++ after)) before.length answer =
      .array (before ++ (answer.toList ++ after)) := by
  cases answer with
  | none => simp [putElement, List.eraseIdx_append_of_length_le]
  | some y => simp [putElement, List.set_append_right]

end Arrays

section Objects

theorem find?_mapEntries {entries : Entries Value} (hkeys : (Entries.keys entries).Nodup)
    (k : String) :
    Entries.find? (mapEntries g entries) k = (Entries.find? entries k).bind (g (.ident k)) := by
  induction entries with
  | nil => rfl
  | cons e rest ih =>
      obtain ⟨hnotMem, hrest⟩ := List.nodup_cons.mp hkeys
      rw [mapEntries, Entries.find?]
      by_cases hk : e.1 = k
      · have hnone : Entries.find? rest k = none :=
          Entries.find?_eq_none_iff.mpr (hk ▸ hnotMem)
        subst hk
        cases hg : g (.ident e.1) e.2 with
        | none => simpa [hg, hnone] using ih hrest
        | some w => simp [hg, Entries.find?]
      · cases hg : g (.ident e.1) e.2 with
        | none => simpa [hk] using ih hrest
        | some w => simpa [hk, Entries.find?] using ih hrest

theorem putEntry_mapEntries {entries : Entries Value} (hkeys : (Entries.keys entries).Nodup)
    {k : String} {w x : Value} (hfind : Entries.find? entries k = some w)
    (hx : g (.ident k) w = some x) (answer : Option Value) :
    putEntry (mapEntries g entries) k answer =
      .object (mapEntries (answering g (.ident k) answer) entries) := by
  have hparts : ∀ y, Entries.insert (mapEntries g entries) k y =
        mapEntries (answering g (.ident k) (some y)) entries ∧
      Entries.erase (mapEntries g entries) k =
        mapEntries (answering g (.ident k) none) entries := by
    intro y
    induction entries with
    | nil => cases hfind
    | cons e rest ih =>
        obtain ⟨hnotMem, hrest⟩ := List.nodup_cons.mp hkeys
        obtain ⟨l, v⟩ := e
        rw [Entries.find?] at hfind
        by_cases hl : l = k
        · subst hl
          rw [if_pos rfl] at hfind
          cases hfind
          have hsame : ∀ a, mapEntries (answering g (.ident l) a) rest = mapEntries g rest := by
            intro a
            refine mapEntries_congr fun e he => answering_of_ne ?_ a e.2
            intro heq
            have hmem : e.1 ∈ Entries.keys rest := List.mem_map_of_mem he
            rw [Segment.ident.inj heq] at hmem
            exact hnotMem hmem
          simp [mapEntries, hx, answering_self, hsame, Entries.insert, Entries.erase]
        · rw [if_neg hl] at hfind
          obtain ⟨hinsert, herase⟩ := ih hrest hfind
          have hne : Segment.ident l ≠ .ident k := by simpa using hl
          rw [mapEntries, mapEntries, mapEntries, answering_of_ne hne, answering_of_ne hne]
          cases g (.ident l) v with
          | none => simpa using ⟨hinsert, herase⟩
          | some u => simpa [Entries.insert, Entries.erase, hl] using ⟨hinsert, herase⟩
  cases answer with
  | none => exact congrArg Value.object (hparts .null).2
  | some y => exact congrArg Value.object (hparts y).1

end Objects

variable {m : Type → Type} [Monad m] [LawfulMonad m]

/-- An edit that leads into a child which is there, and before which none is left out,
changes the answer for this child only. -/
theorem one_mapChildren (replace : Value → m (Option Value)) {v w x : Value} (hv : v.IsDocument)
    {s : Segment} (hchild : v.child? s = some w) (hx : g s w = some x)
    (hbefore : ∀ t u, t.compare s = .lt → (g t u).isSome) (rest : Key) :
    one replace (s :: rest) (v.mapChildren g) =
      (fun answer => some (v.mapChildren (answering g s answer))) <$> one replace rest x := by
  have hself : v.mapChildren g = v.mapChildren (answering g s (some x)) := by
    refine mapChildren_congr hv fun t u hu => ?_
    by_cases hts : t = s
    · subst hts
      cases hchild.symm.trans hu
      rw [answering_self, hx]
    · rw [answering_of_ne hts]
  rcases Value.exists_of_child?_eq_some hchild with
    ⟨items, i, rfl, rfl, hi⟩ | ⟨entries, k, rfl, rfl, hk⟩
  · have hlt : i < items.length := (List.getElem?_eq_some_iff.mp hi).1
    obtain ⟨before, after, hlength, hsplit⟩ :=
      exists_mapItems_answering (g := g) 0 hlt fun j hj u => hbefore _ _ <| by
        rw [Key.Segment.compare, Std.compare_eq_lt]
        omega
    rw [Nat.zero_add] at hsplit
    rw [hself]
    simp only [Value.mapChildren, hsplit]
    have hposition : Key.position? (before ++ ((some x).toList ++ after)).length i = some i := by
      have hlonger : i < (before ++ ((some x).toList ++ after)).length := by
        rw [← hlength, List.length_append, Option.toList_some, List.singleton_append,
          List.length_cons]
        omega
      have hsign : ¬ (i : Int) < 0 := by omega
      simp only [Key.position?, if_neg hsign, Int.toNat_natCast]
      rw [if_pos (by omega)]
    have hget : (before ++ ((some x).toList ++ after))[i]? = some x := by
      simp [← hlength]
    subst hlength
    rw [one, hposition]
    simp only [hget, Option.getD_some, map_eq_pure_bind, putElement_answer]
  · have hfind : Entries.find? (mapEntries g entries) k = some x := by
      cases hv with
      | object _ hkeys => rw [find?_mapEntries hkeys, hk, Option.bind_some, hx]
    cases hv with
    | object _ hkeys =>
        rw [Value.mapChildren, one, hfind]
        simp only [map_eq_pure_bind, putEntry_mapEntries hkeys hk hx, Value.mapChildren]

end Edit

end Reshape
