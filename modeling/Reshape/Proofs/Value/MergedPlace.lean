import Reshape.Proofs.Value.Merge
import Reshape.Proofs.Value.Place

/-!
The places of a merged document. Main statement: `at?_merge_ends`, what stands at the end of
each way, by what the two documents have along this way.
-/

namespace Reshape.Value

/-- Null, a boolean, a number or a string. -/
def isScalar : Value → Bool
  | array _ => false
  | object _ => false
  | _ => true

/-- Two arrays or two objects. -/
inductive SameContainer : Value → Value → Prop
  | array (xs ys : List Value) : SameContainer (array xs) (array ys)
  | object (es fs : Entries Value) : SameContainer (object es) (object fs)

/-- The second document puts nothing in the place of what the first one has at the end of a
way: there is nothing, null, or a container to be merged. -/
def SparesAt (a b : Value) (key : Key) : Prop :=
  ∀ w, b.at? key = some w → w = null ∨ ∃ v, a.at? key = some v ∧ SameContainer v w

/-- Nothing along the way is replaced. -/
def Spares (a b : Value) (key : Key) : Prop :=
  ∀ front, front <+: key → SparesAt a b front

section Step

variable {a b u w x y : Value} {s : Key.Segment}

theorem merge_cases (a b : Value) : b = null ∨ SameContainer a b ∨ merge a b = b := by
  cases b with
  | null => exact .inl rfl
  | array ys =>
      cases a with
      | array xs => exact .inr (.inl (.array xs ys))
      | _ => exact .inr (.inr rfl)
  | object fs =>
      cases a with
      | object es => exact .inr (.inl (.object es fs))
      | _ => exact .inr (.inr rfl)
  | _ => cases a <;> exact .inr (.inr rfl)

theorem merge_of_isScalar (hb : b.isScalar = true) (hnull : b ≠ null) (a : Value) :
    merge a b = b := by
  rcases merge_cases a b with hnull' | hsame | hreplaced
  · exact absurd hnull' hnull
  · cases hsame <;> cases hb
  · exact hreplaced

theorem SameContainer.isScalar_left (h : SameContainer a b) : a.isScalar = false := by
  cases h <;> rfl

theorem SameContainer.isScalar_merge (h : SameContainer a b) : (merge a b).isScalar = false := by
  cases h <;> rfl

theorem sameContainer_of_child? (ha : a.child? s = some x) (hb : b.child? s = some y) :
    SameContainer a b := by
  rcases exists_of_child?_eq_some ha with ⟨xs, i, rfl, rfl, -⟩ | ⟨es, k, rfl, rfl, -⟩
  · rcases exists_of_child?_eq_some hb with ⟨ys, _, rfl, -, -⟩ | ⟨_, _, -, hs, -⟩
    · exact .array xs ys
    · cases hs
  · rcases exists_of_child?_eq_some hb with ⟨_, _, -, hs, -⟩ | ⟨fs, _, rfl, -, -⟩
    · cases hs
    · exact .object es fs

theorem SameContainer.child?_merge (h : SameContainer a b) (hb : b.IsDocument)
    (s : Key.Segment) : (merge a b).child? s = Option.merge merge (a.child? s) (b.child? s) := by
  cases h with
  | array xs ys =>
      cases s with
      | ident k => rfl
      | index i =>
          simp only [merge, child?]
          split
          · exact getElem?_mergeItems xs ys i.toNat
          · rfl
  | object es fs =>
      cases s with
      | index i => rfl
      | ident k => exact find?_mergeEntries hb.nodup_keys k

end Step

section Way

variable {a b u w x y : Value} {s : Key.Segment} {key : Key}

theorem at?_merge_of_both (hb : b.IsDocument) (hu : a.at? key = some u)
    (hw : b.at? key = some w) : (merge a b).at? key = some (merge u w) := by
  induction key generalizing a b with
  | nil =>
      cases hu
      cases hw
      rfl
  | cons s key ih =>
      obtain ⟨x, hx, hu⟩ := Option.bind_eq_some_iff.mp hu
      obtain ⟨y, hy, hw⟩ := Option.bind_eq_some_iff.mp hw
      rw [at?_cons, (sameContainer_of_child? hx hy).child?_merge hb, hx, hy]
      exact ih (hb.child? hy) hu hw

/-- What stands in the right document comes through, unless it is null. -/
theorem at?_merge_of_right (hb : b.IsDocument) {v : Value} (hv : v.isScalar = true)
    (hnull : v ≠ null) (h : b.at? key = some v) : (merge a b).at? key = some v := by
  induction key generalizing a b with
  | nil =>
      cases h
      rw [merge_of_isScalar hv hnull]
      rfl
  | cons s key ih =>
      rcases merge_cases a b with rfl | hsame | hreplaced
      · cases h
      · obtain ⟨y, hy, h⟩ := Option.bind_eq_some_iff.mp h
        rw [at?_cons, hsame.child?_merge hb, hy]
        cases a.child? s with
        | none => exact h
        | some x => exact ih (hb.child? hy) h
      · rwa [hreplaced]

theorem SparesAt.below (hx : a.child? s = some x) (hy : b.child? s = some y) :
    SparesAt a b (s :: key) ↔ SparesAt x y key := by
  simp only [SparesAt, at?_cons, hx, hy, Option.bind_some]

theorem Spares.below (h : Spares a b (s :: key)) (hx : a.child? s = some x)
    (hy : b.child? s = some y) : Spares x y key := by
  intro front hfront
  exact (SparesAt.below hx hy).mp (h (s :: front) ((List.prefix_cons_inj s).mpr hfront))

theorem Spares.cons (hroot : SparesAt a b [])
    (hrest : ∀ front, front <+: key → SparesAt a b (s :: front)) : Spares a b (s :: key) := by
  intro front hfront
  rcases List.prefix_cons_iff.mp hfront with rfl | ⟨rest, rfl, hprefix⟩
  · exact hroot
  · exact hrest rest hprefix

theorem Spares.of_child (hx : a.child? s = some x) (hy : b.child? s = some y)
    (h : Spares x y key) : Spares a b (s :: key) := by
  refine .cons ?_ fun front hfront => (SparesAt.below hx hy).mpr (h front hfront)
  rintro w ⟨⟩
  exact .inr ⟨a, rfl, sameContainer_of_child? hx hy⟩

theorem Spares.of_child?_eq_none (hsame : SameContainer a b) (hy : b.child? s = none) :
    Spares a b (s :: key) := by
  refine .cons ?_ fun front _ w hw => ?_
  · rintro w ⟨⟩
    exact .inr ⟨a, rfl, hsame⟩
  · rw [at?_cons, hy] at hw
    cases hw

theorem spares_null (a : Value) (key : Key) : Spares a null key := by
  intro front _ w hw
  cases front with
  | nil =>
      cases hw
      exact .inl rfl
  | cons s front => cases hw

/-- What stands in the left document stays where nothing along its way is replaced. -/
theorem at?_merge_of_spares (hb : b.IsDocument) {v : Value} (hv : v.isScalar = true)
    (h : a.at? key = some v) (hspares : Spares a b key) : (merge a b).at? key = some v := by
  induction key generalizing a b with
  | nil =>
      cases h
      rcases hspares [] List.nil_prefix b rfl with rfl | ⟨u, hu, hsame⟩
      · rw [merge_null]
        rfl
      · cases hu
        rw [hsame.isScalar_left] at hv
        cases hv
  | cons s key ih =>
      rcases hspares [] List.nil_prefix b rfl with rfl | ⟨u, hu, hsame⟩
      · rwa [merge_null]
      · cases hu
        obtain ⟨x, hx, h⟩ := Option.bind_eq_some_iff.mp h
        rw [at?_cons, hsame.child?_merge hb, hx]
        cases hy : b.child? s with
        | none => exact h
        | some y => exact ih (hb.child? hy) h (hspares.below hx hy)

/-- Nothing comes from elsewhere. -/
theorem right_or_spares_of_at?_merge (hb : b.IsDocument) {v : Value} (hv : v.isScalar = true)
    (h : (merge a b).at? key = some v) :
    b.at? key = some v ∨ a.at? key = some v ∧ Spares a b key := by
  induction key generalizing a b with
  | nil =>
      rcases merge_cases a b with rfl | hsame | hreplaced
      · rw [merge_null] at h
        exact .inr ⟨h, spares_null a []⟩
      · cases h
        rw [hsame.isScalar_merge] at hv
        cases hv
      · rw [hreplaced] at h
        exact .inl h
  | cons s key ih =>
      rcases merge_cases a b with rfl | hsame | hreplaced
      · rw [merge_null] at h
        exact .inr ⟨h, spares_null a (s :: key)⟩
      · rw [at?_cons, hsame.child?_merge hb] at h
        cases hx : a.child? s with
        | none =>
            rw [hx, Option.merge_none_left] at h
            exact .inl h
        | some x =>
            cases hy : b.child? s with
            | none =>
                rw [hx, hy, Option.merge_none_right] at h
                exact .inr ⟨by rw [at?_cons, hx]; exact h, .of_child?_eq_none hsame hy⟩
            | some y =>
                rw [hx, hy] at h
                rw [at?_cons, at?_cons, hx, hy]
                exact (ih (hb.child? hy) h).imp_right (And.imp_right (.of_child hx hy))
      · rw [hreplaced] at h
        exact .inl h

end Way

/-- A merge loses nothing and invents nothing. What stands in the right document comes through,
unless it is null; what stands in the left one stays if nothing along its way is replaced; all
else that stands in the result is null; and where two objects merge, the keys of the left one
keep their order and the new ones follow in theirs. -/
theorem at?_merge_ends (a : Value) {b : Value} (hb : b.IsDocument) (key : Key) :
    (∀ v : Value, v.isScalar = true → v ≠ null → b.at? key = some v →
      (merge a b).at? key = some v) ∧
    (∀ v : Value, v.isScalar = true → a.at? key = some v → Spares a b key →
      (merge a b).at? key = some v) ∧
    (∀ v : Value, v.isScalar = true → v ≠ null → (merge a b).at? key = some v →
      b.at? key = some v ∨ a.at? key = some v ∧ Spares a b key) ∧
    ∀ es fs : Entries Value, a.at? key = some (object es) → b.at? key = some (object fs) →
      ∃ gs : Entries Value, (merge a b).at? key = some (object gs) ∧
        Entries.keys gs = Entries.keys es ++ (Entries.keys fs).filter (· ∉ Entries.keys es) := by
  refine ⟨fun v hv hnull h => at?_merge_of_right hb hv hnull h,
    fun v hv h hspares => at?_merge_of_spares hb hv h hspares,
    fun v hv _ h => right_or_spares_of_at?_merge hb hv h, fun es fs hes hfs => ?_⟩
  have hkeys : (Entries.keys fs).Nodup := by
    cases hb.at? hfs with
    | object _ hkeys _ => exact hkeys
  exact ⟨mergeEntries es fs, at?_merge_of_both hb hes hfs, keys_mergeEntries hkeys⟩

def leftLayer : Value :=
  object [("name", string "left"), ("items", array [null, object [("x", bool true)]])]

/-- An object within an array adds a key in front of one that it leaves null. -/
def rightLayer : Value :=
  object [("items", array [bool true, object [("y", null), ("x", null)], null])]

theorem isDocument_rightLayer : rightLayer.IsDocument := by
  have hinner : (object [("y", null), ("x", null)]).IsDocument :=
    .object _ (by decide) (by simpa using IsDocument.null)
  have hitems : (array [bool true, object [("y", null), ("x", null)], null]).IsDocument :=
    .array _ (by simpa using ⟨.bool true, hinner, .null⟩)
  exact .object _ (by decide) (by simpa using hitems)

theorem at?_merge_layers :
    (merge leftLayer rightLayer).at? [.ident "items", .index 1, .ident "x"] = some (bool true) ∧
      ∃ gs : Entries Value,
        (merge leftLayer rightLayer).at? [.ident "items", .index 1] = some (object gs) ∧
          Entries.keys gs = ["x", "y"] := by
  have hspares : Spares leftLayer rightLayer [.ident "items", .index 1, .ident "x"] :=
    .of_child rfl rfl (.of_child rfl rfl (.of_child rfl rfl (spares_null _ _)))
  obtain ⟨-, hleft, -, -⟩ := at?_merge_ends leftLayer isDocument_rightLayer
    [.ident "items", .index 1, .ident "x"]
  obtain ⟨-, -, -, hobjects⟩ := at?_merge_ends leftLayer isDocument_rightLayer
    [.ident "items", .index 1]
  obtain ⟨gs, hgs, hkeys⟩ := hobjects [("x", bool true)] [("y", null), ("x", null)] rfl rfl
  exact ⟨hleft (bool true) rfl rfl hspares, gs, hgs, hkeys.trans (by decide)⟩

end Reshape.Value
