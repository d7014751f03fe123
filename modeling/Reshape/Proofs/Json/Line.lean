import Reshape.Proofs.Json.Text

namespace Reshape.Json

open Reshape.Text

theorem space_le_of_all {cs : List Char} (h : (cs.all fun c => 32 ≤ c.toNat) = true) :
    ∀ c ∈ cs, 32 ≤ c.toNat := by
  intro c hc
  exact of_decide_eq_true (List.all_eq_true.mp h c hc)

theorem space_le_hexadecimal {n : Nat} (hn : n < 32) : ∀ c ∈ hexadecimal 4 n, 32 ≤ c.toNat := by
  have hall :
      ((List.range 32).all fun n => (hexadecimal 4 n).all fun c => 32 ≤ c.toNat) = true := by
    decide
  exact space_le_of_all (List.all_eq_true.mp hall n (List.mem_range.mpr hn))

theorem space_le_escapeChar (c : Char) : ∀ e ∈ escapeChar c, 32 ≤ e.toNat := by
  rw [escapeChar]
  iterate 7
    split
    · exact space_le_of_all rfl
  split
  · rename_i hcontrol
    refine List.forall_mem_cons.mpr ⟨by decide, List.forall_mem_cons.mpr ⟨by decide, ?_⟩⟩
    exact space_le_hexadecimal hcontrol
  · rename_i hprintable
    exact List.forall_mem_singleton.mpr (Nat.not_lt.mp hprintable)

theorem space_le_stringChars (s : String) : ∀ c ∈ stringChars s, 32 ≤ c.toNat := by
  have hbody : ∀ c ∈ s.toList.flatMap escapeChar, 32 ≤ c.toNat := by
    intro c hc
    obtain ⟨d, -, hc⟩ := List.mem_flatMap.mp hc
    exact space_le_escapeChar d c hc
  refine List.forall_mem_append.mpr ⟨List.forall_mem_cons.mpr ⟨by decide, hbody⟩, ?_⟩
  exact space_le_of_all rfl

theorem space_le_number (n : Number) : ∀ c ∈ n.chars, 32 ≤ c.toNat :=
  fun c hc => Nat.le_of_lt (n.isPlain_chars c hc).1

theorem space_le_bare (x : Bare) : ∀ c ∈ x.chars, 32 ≤ c.toNat := by
  cases x with
  | integer i => exact space_le_number (.int i)
  | real x =>
      cases x with
      | finite x =>
          have htext : (Bare.real (.finite x)).chars = (Number.float x).chars :=
            String.toList_ofList
          rw [htext]
          exact space_le_number (.float x)
      | infinite negative => cases negative <;> exact space_le_of_all rfl
      | undefined => exact space_le_of_all rfl

mutual

theorem space_le_of_mem_chars (level : Nat) : (v : Value) →
    ∀ c ∈ chars .compact level v, 32 ≤ c.toNat
  | .null => by
      rw [chars]
      exact space_le_of_all rfl
  | .bool true => by
      rw [chars]
      exact space_le_of_all rfl
  | .bool false => by
      rw [chars]
      exact space_le_of_all rfl
  | .number n => by
      rw [chars]
      exact space_le_number n
  | .string s => by
      rw [chars]
      exact space_le_stringChars s
  | .array [] => by
      rw [chars]
      exact space_le_of_all rfl
  | .array (v :: vs) => by
      have hv := space_le_of_mem_chars (level + 1) v
      have hvs := space_le_moreItems (level + 1) vs
      rw [chars]
      refine List.forall_mem_append.mpr ⟨List.forall_mem_append.mpr ⟨?_, ?_⟩, ?_⟩
      · refine List.forall_mem_append.mpr ⟨List.forall_mem_append.mpr ⟨?_, hv⟩, hvs⟩
        exact space_le_of_all rfl
      · exact space_le_of_all rfl
      · exact space_le_of_all rfl
  | .object [] => by
      rw [chars]
      exact space_le_of_all rfl
  | .object ((k, v) :: es) => by
      have hk := space_le_stringChars k
      have hv := space_le_of_mem_chars (level + 1) v
      have hes := space_le_moreEntries (level + 1) es
      rw [chars]
      refine List.forall_mem_append.mpr ⟨List.forall_mem_append.mpr ⟨?_, ?_⟩, ?_⟩
      · refine List.forall_mem_append.mpr ⟨List.forall_mem_append.mpr ⟨?_, hv⟩, hes⟩
        refine List.forall_mem_append.mpr ⟨List.forall_mem_append.mpr ⟨?_, hk⟩, ?_⟩
        · exact space_le_of_all rfl
        · exact space_le_of_all rfl
      · exact space_le_of_all rfl
      · exact space_le_of_all rfl
  | .bare x => by
      rw [chars]
      exact space_le_bare x

theorem space_le_moreItems (level : Nat) : (vs : List Value) →
    ∀ c ∈ moreItems .compact level vs, 32 ≤ c.toNat
  | [] => by
      rw [moreItems]
      exact space_le_of_all rfl
  | v :: vs => by
      have hv := space_le_of_mem_chars level v
      have hvs := space_le_moreItems level vs
      rw [moreItems]
      refine List.forall_mem_append.mpr ⟨List.forall_mem_append.mpr ⟨?_, hv⟩, hvs⟩
      exact space_le_of_all rfl

theorem space_le_moreEntries (level : Nat) : (es : List (String × Value)) →
    ∀ c ∈ moreEntries .compact level es, 32 ≤ c.toNat
  | [] => by
      rw [moreEntries]
      exact space_le_of_all rfl
  | (k, v) :: es => by
      have hk := space_le_stringChars k
      have hv := space_le_of_mem_chars level v
      have hes := space_le_moreEntries level es
      rw [moreEntries]
      refine List.forall_mem_append.mpr ⟨List.forall_mem_append.mpr ⟨?_, hv⟩, hes⟩
      refine List.forall_mem_append.mpr ⟨List.forall_mem_append.mpr ⟨?_, hk⟩, ?_⟩
      · exact space_le_of_all rfl
      · exact space_le_of_all rfl

end

end Reshape.Json
