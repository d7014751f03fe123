import Reshape.Proofs.Value.Document

namespace Reshape.Value

mutual

/-- The numbers that occur in a document, at any depth. -/
def numbers : Value → List Number
  | number n => [n]
  | array items => numbersOfItems items
  | object entries => numbersOfEntries entries
  | _ => []

def numbersOfItems : List Value → List Number
  | [] => []
  | v :: vs => numbers v ++ numbersOfItems vs

def numbersOfEntries : List (String × Value) → List Number
  | [] => []
  | (_, v) :: rest => numbers v ++ numbersOfEntries rest

end

/-- A document whose numbers all satisfy a predicate. -/
inductive IsOver (P : Number → Prop) : Value → Prop
  | null : IsOver P null
  | bool (b : Bool) : IsOver P (bool b)
  | number {n : Number} (hn : P n) : IsOver P (number n)
  | string (s : String) : IsOver P (string s)
  | array {items : List Value} (hitems : ∀ v ∈ items, IsOver P v) : IsOver P (array items)
  | object {entries : Entries Value} (hkeys : (Entries.keys entries).Nodup)
      (hentries : ∀ e ∈ entries, IsOver P e.2) : IsOver P (object entries)

variable {P Q : Number → Prop} {v : Value}

theorem mem_numbersOfItems {items : List Value} {n : Number} :
    n ∈ numbersOfItems items ↔ ∃ v ∈ items, n ∈ numbers v := by
  induction items with
  | nil => simp [numbersOfItems]
  | cons v vs ih => simp [numbersOfItems, ih]

theorem mem_numbersOfEntries {entries : List (String × Value)} {n : Number} :
    n ∈ numbersOfEntries entries ↔ ∃ e ∈ entries, n ∈ numbers e.2 := by
  induction entries with
  | nil => simp [numbersOfEntries]
  | cons e rest ih => simp [numbersOfEntries, ih]

theorem IsOver.isDocument (h : v.IsOver P) : v.IsDocument := by
  induction h with
  | null => exact .null
  | bool b => exact .bool b
  | number => exact .number _
  | string s => exact .string s
  | array _ ih => exact .array _ ih
  | object hkeys _ ih => exact .object _ hkeys ih

theorem IsOver.of_mem_numbers (h : v.IsOver P) : ∀ n ∈ v.numbers, P n := by
  intro n hn
  induction h with
  | number hP => rwa [List.mem_singleton.mp hn]
  | array _ ih =>
      obtain ⟨v, hv, hn⟩ := mem_numbersOfItems.mp hn
      exact ih v hv hn
  | object _ _ ih =>
      obtain ⟨e, he, hn⟩ := mem_numbersOfEntries.mp hn
      exact ih e he hn
  | _ => cases hn

theorem IsDocument.isOver (h : v.IsDocument) (hnumbers : ∀ n ∈ v.numbers, P n) : v.IsOver P := by
  induction h with
  | null => exact .null
  | bool b => exact .bool b
  | number n => exact .number (hnumbers n (List.mem_singleton.mpr rfl))
  | string s => exact .string s
  | array items _ ih =>
      refine .array fun v hv => ih v hv fun n hn => hnumbers n ?_
      exact mem_numbersOfItems.mpr ⟨v, hv, hn⟩
  | object entries hkeys _ ih =>
      refine .object hkeys fun e he => ih e he fun n hn => hnumbers n ?_
      exact mem_numbersOfEntries.mpr ⟨e, he, hn⟩

theorem isOver_iff : v.IsOver P ↔ v.IsDocument ∧ ∀ n ∈ v.numbers, P n :=
  ⟨fun h => ⟨h.isDocument, h.of_mem_numbers⟩, fun h => h.1.isOver h.2⟩

theorem IsOver.imp (h : v.IsOver P) (himp : ∀ n, P n → Q n) : v.IsOver Q :=
  isOver_iff.mpr ⟨h.isDocument, fun n hn => himp n (h.of_mem_numbers n hn)⟩

theorem isOver_array_iff {items : List Value} :
    (array items).IsOver P ↔ ∀ v ∈ items, v.IsOver P :=
  ⟨fun h => by cases h; assumption, .array⟩

theorem isOver_object_iff {entries : Entries Value} :
    (object entries).IsOver P ↔
      (Entries.keys entries).Nodup ∧ ∀ e ∈ entries, e.2.IsOver P :=
  ⟨fun h => by cases h; exact ⟨‹_›, ‹_›⟩, fun h => .object h.1 h.2⟩

/-- A document whose integers are all short. This is what a text is read to. -/
abbrev IsWritable (v : Value) : Prop :=
  v.IsOver fun n => n.isShort = true

theorem areShort_iff {items : List Value} :
    areShort items = true ↔ ∀ v ∈ items, v.isShort = true := by
  induction items with
  | nil => simp [areShort]
  | cons v vs ih => simp [areShort, ih]

theorem haveShort_iff {entries : List (String × Value)} :
    haveShort entries = true ↔ ∀ e ∈ entries, e.2.isShort = true := by
  induction entries with
  | nil => simp [haveShort]
  | cons e rest ih => simp [haveShort, ih]

theorem IsDocument.isShort_iff (h : v.IsDocument) :
    v.isShort = true ↔ ∀ n ∈ v.numbers, n.isShort = true := by
  induction h with
  | number n => simp [isShort, numbers]
  | array items _ ih =>
      simp only [isShort, numbers, areShort_iff, mem_numbersOfItems]
      constructor
      · rintro hitems n ⟨v, hv, hn⟩
        exact (ih v hv).mp (hitems v hv) n hn
      · exact fun hall v hv => (ih v hv).mpr fun n hn => hall n ⟨v, hv, hn⟩
  | object entries _ _ ih =>
      simp only [isShort, numbers, haveShort_iff, mem_numbersOfEntries]
      constructor
      · rintro hentries n ⟨e, he, hn⟩
        exact (ih e he).mp (hentries e he) n hn
      · exact fun hall e he => (ih e he).mpr fun n hn => hall n ⟨e, he, hn⟩
  | _ => exact iff_of_true rfl nofun

theorem isWritable_iff : v.IsWritable ↔ v.IsDocument ∧ v.isShort = true :=
  isOver_iff.trans (and_congr_right fun h => h.isShort_iff.symm)

end Reshape.Value
