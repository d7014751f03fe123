import Reshape.Text.Line

namespace Reshape.Text

/-- The characters behind the last newline of a text. -/
def lastLine (cs : List Char) : List Char :=
  (cs.reverse.takeWhile (· != '\n')).reverse

theorem lastLine_concat (cs : List Char) (c : Char) :
    lastLine (cs ++ [c]) = if c = '\n' then [] else lastLine cs ++ [c] := by
  rw [lastLine, List.reverse_append, List.reverse_singleton, List.singleton_append]
  split
  · rename_i hc
    rw [List.takeWhile_cons_of_neg (by simp [hc])]
    rfl
  · rename_i hc
    rw [List.takeWhile_cons_of_pos (by simp [hc]), List.reverse_cons, lastLine]

namespace Position

theorem after_concat (cs : List Char) (c : Char) :
    after (cs ++ [c]) = (after cs).advance c := by
  rw [after, List.foldl_append]
  rfl

theorem after_eq (cs : List Char) :
    after cs = ⟨cs.count '\n' + 1, (lastLine cs).length + 1⟩ := by
  induction hlength : cs.length generalizing cs with
  | zero =>
      obtain rfl := List.length_eq_zero_iff.mp hlength
      rfl
  | succ n ih =>
      obtain ⟨front, c, rfl⟩ : ∃ front c, cs = front ++ [c] :=
        ⟨_, _, (List.dropLast_concat_getLast (List.ne_nil_of_length_eq_add_one hlength)).symm⟩
      rw [List.length_append, List.length_singleton, Nat.add_right_cancel_iff] at hlength
      rw [after_concat, ih front hlength, advance, lastLine_concat, List.count_append]
      by_cases hc : c = '\n'
      · simp [hc]
      · simp [hc]

end Position

section Join

/-- The pieces of a text between newlines. -/
def lineTexts (text : String) : List String :=
  (lines text.toList).map String.ofList

theorem lines_eq_splitOn (cs : List Char) : lines cs = cs.splitOn '\n' := by
  induction cs with
  | nil => rfl
  | cons c rest ih =>
      rw [lines, List.splitOn_eq_splitOnP, List.splitOnP_cons_eq_if_modifyHead, ih,
        List.splitOn_eq_splitOnP]
      split
      · rfl
      · obtain ⟨first, more, hsplit⟩ :=
          List.exists_cons_of_ne_nil (List.splitOnP_ne_nil (· == '\n') rest)
        rw [hsplit]
        rfl

theorem length_lines (cs : List Char) : (lines cs).length = cs.count '\n' + 1 := by
  induction cs with
  | nil => rfl
  | cons c rest ih =>
      rw [lines, List.count_cons]
      split
      · rw [List.length_cons, ih]
      · obtain ⟨first, more, hlines⟩ := List.exists_cons_of_ne_nil (lines_ne_nil rest)
        rw [hlines] at ih ⊢
        exact ih

theorem lineTexts_intercalate {texts : List String} (hne : texts ≠ [])
    (htexts : ∀ text ∈ texts, '\n' ∉ text.toList) :
    lineTexts ("\n".intercalate texts) = texts := by
  have hlines : lines ("\n".intercalate texts).toList = texts.map String.toList := by
    rw [lines_eq_splitOn, String.toList_intercalate]
    exact List.splitOn_intercalate '\n' (List.forall_mem_map.mpr htexts) (by simpa using hne)
  rw [lineTexts, hlines, List.map_map]
  simp

theorem length_lineTexts_intercalate {texts : List String} (hne : texts ≠ []) :
    (lineTexts ("\n".intercalate texts)).length =
      texts.length + (texts.flatMap String.toList).count '\n' := by
  rw [lineTexts, List.length_map, length_lines]
  induction texts with
  | nil => exact absurd rfl hne
  | cons text rest ih =>
      cases rest with
      | nil => simp [Nat.add_comm]
      | cons next rest =>
          have hrest := ih (List.cons_ne_nil _ _)
          rw [String.intercalate_cons_cons, String.toList_append, String.toList_append,
            List.count_append, List.count_append, List.flatMap_cons, List.count_append]
          have hseparator : "\n".toList.count '\n' = 1 := rfl
          simp only [List.length_cons] at hrest ⊢
          omega

end Join

end Reshape.Text
