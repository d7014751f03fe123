import Mathlib.Data.List.Induction
import Reshape.Number.Read

namespace Reshape.Number

open Reshape.Text

theorem moreDigits_lt (cs : List Char) : ∀ d ∈ (moreDigits cs).1, d < 10 := by
  fun_induction moreDigits cs with
  | case2 c d hd =>
      exact List.forall_mem_singleton.mpr (digitValue?_lt hd)
  | case4 c c' rest d hd ds rest' hmore ih =>
      rw [hmore] at ih
      exact List.forall_mem_cons.mpr ⟨digitValue?_lt hd, ih⟩
  | case5 c c' rest hc hunderscore d hd ds rest' hmore ih =>
      rw [hmore] at ih
      exact List.forall_mem_cons.mpr ⟨digitValue?_lt hd, ih⟩
  | _ => exact List.forall_mem_nil _

theorem takeDigits_lt (cs : List Char) : ∀ d ∈ (takeDigits cs).1, d < 10 := by
  unfold takeDigits
  split
  · exact List.forall_mem_nil _
  · split
    · rename_i hd
      exact List.forall_mem_cons.mpr ⟨digitValue?_lt hd, moreDigits_lt _⟩
    · exact List.forall_mem_nil _

theorem ofDigits_lt {ds : List Nat} (h : ∀ d ∈ ds, d < 10) : ofDigits ds < tenTo ds.length := by
  induction ds using List.reverseRecOn with
  | nil => exact Nat.one_pos
  | append_singleton ds d ih =>
      obtain ⟨hds, hd⟩ := List.forall_mem_append.mp h
      have hlt := ih hds
      have hlast := hd d (List.mem_singleton_self d)
      rw [ofDigits, List.foldl_append, ← ofDigits, List.foldl_cons, List.foldl_nil,
        List.length_append, List.length_singleton, tenTo_succ]
      omega

theorem isShort_of_readInt {cs : List Char} {i : Int} (h : readInt cs = .ok i) :
    Decimal.isShort i = true := by
  unfold readInt at h
  dsimp only at h
  split at h
  · cases h
  · rename_i ds left hne hdigits
    split at h
    · cases h
    split at h
    · cases h
    rename_i hlength
    split at h
    · have hlt := takeDigits_lt (takeSign (trimNumeral cs)).2
      rw [hdigits] at hlt
      have hvalue : i.natAbs = ofDigits ds := by
        obtain rfl := Except.ok.inj h
        split <;> simp
      rw [Decimal.isShort, decide_eq_true_eq, hvalue]
      exact Nat.lt_of_lt_of_le (ofDigits_lt hlt) (tenTo_le_tenTo (Nat.le_of_not_lt hlength))
    · cases h

theorem isShort_of_read {text : String} {n : Number} (h : read text = .ok n) :
    n.isShort = true := by
  unfold read at h
  dsimp only at h
  split at h
  · split at h <;> cases h
    rfl
  · split at h
    · rename_i i hread
      cases h
      exact isShort_of_readInt hread
    · cases h

end Reshape.Number
