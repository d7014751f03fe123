import Reshape.Key.Basic
import Reshape.Proofs.Value.Document

namespace Reshape.Value

open Key (Segment)

/-- The child that one step leads to. An index counts from the front only. -/
def child? : Value → Segment → Option Value
  | array items, .index i => if 0 ≤ i then items[i.toNat]? else none
  | object entries, .ident key => Entries.find? entries key
  | _, _ => none

/-- The part of a document at the end of a way, if it leads anywhere. -/
def at? (v : Value) : Key → Option Value
  | [] => some v
  | s :: key => (v.child? s).bind (·.at? key)

theorem at?_cons (v : Value) (s : Segment) (key : Key) :
    v.at? (s :: key) = (v.child? s).bind (·.at? key) :=
  rfl

theorem at?_append (v : Value) (key more : Key) :
    v.at? (key ++ more) = (v.at? key).bind (·.at? more) := by
  induction key generalizing v with
  | nil => rfl
  | cons s key ih => simp only [List.cons_append, at?_cons, ih, Option.bind_assoc]

theorem child?_array (items : List Value) (i : Nat) :
    (array items).child? (.index i) = items[i]? := by
  simp [child?]

theorem exists_of_child?_eq_some {v w : Value} {s : Segment} (h : v.child? s = some w) :
    (∃ items, ∃ i : Nat, v = array items ∧ s = .index i ∧ items[i]? = some w) ∨
      ∃ entries key, v = object entries ∧ s = .ident key ∧ Entries.find? entries key = some w := by
  rw [child?.eq_def] at h
  split at h
  · rename_i items i
    split at h
    · rename_i hi
      exact .inl ⟨items, i.toNat, rfl, by rw [Int.toNat_of_nonneg hi], h⟩
    · cases h
  · exact .inr ⟨_, _, rfl, rfl, h⟩
  · cases h

theorem IsDocument.child? {v w : Value} {s : Segment} (hv : v.IsDocument)
    (h : v.child? s = some w) : w.IsDocument := by
  rcases exists_of_child?_eq_some h with
    ⟨items, i, rfl, -, hi⟩ | ⟨entries, key, rfl, -, hkey⟩
  · cases hv with
    | array _ hitems => exact hitems w (List.mem_of_getElem? hi)
  · cases hv with
    | object _ _ hentries => exact hentries (key, w) (Entries.mem_of_find? hkey)

theorem IsDocument.at? {v w : Value} {key : Key} (hv : v.IsDocument) (h : v.at? key = some w) :
    w.IsDocument := by
  induction key generalizing v with
  | nil =>
      cases h
      exact hv
  | cons s key ih =>
      obtain ⟨u, hu, hw⟩ := Option.bind_eq_some_iff.mp h
      exact ih (hv.child? hu) hw

theorem IsDocument.induction_child {motive : (v : Value) → v.IsDocument → Prop}
    (parent : ∀ v (hv : v.IsDocument),
      (∀ s u (hu : v.child? s = some u), motive u (hv.child? hu)) → motive v hv)
    {v : Value} (hv : v.IsDocument) : motive v hv := by
  induction hv with
  | null => exact parent _ .null fun s u hu => by cases hu
  | bool b => exact parent _ (.bool b) fun s u hu => by cases hu
  | number n => exact parent _ (.number n) fun s u hu => by cases hu
  | string s => exact parent _ (.string s) fun s u hu => by cases hu
  | array items hitems ih =>
      refine parent _ (.array items hitems) fun s u hu => ?_
      rcases exists_of_child?_eq_some hu with ⟨_, i, heq, -, hi⟩ | ⟨_, _, heq, -, -⟩
      · cases heq
        exact ih u (List.mem_of_getElem? hi)
      · cases heq
  | object entries hkeys hentries ih =>
      refine parent _ (.object entries hkeys hentries) fun s u hu => ?_
      rcases exists_of_child?_eq_some hu with ⟨_, _, heq, -, -⟩ | ⟨_, k, heq, -, hk⟩
      · cases heq
      · cases heq
        exact ih (k, u) (Entries.mem_of_find? hk)

end Reshape.Value
