import Reshape.Grammar.Quotation

namespace Reshape.Grammar

/-- A text that can stand between two quotes: each quote and each backslash in it comes
behind a backslash. -/
inductive Quotable (quote : Char) : List Char → Prop
  | nil : Quotable quote []
  | plain {c : Char} {rest : List Char} (hquote : c ≠ quote) (hbackslash : c ≠ '\\')
      (hrest : Quotable quote rest) : Quotable quote (c :: rest)
  | escaped (c : Char) {rest : List Char} (hrest : Quotable quote rest) :
      Quotable quote ('\\' :: c :: rest)

theorem Quotable.append {quote : Char} {body rest : List Char} (hbody : Quotable quote body)
    (hrest : Quotable quote rest) : Quotable quote (body ++ rest) := by
  induction hbody with
  | nil => exact hrest
  | plain hquote hbackslash _ ih => exact .plain hquote hbackslash ih
  | escaped c _ ih => exact .escaped c ih

theorem quotable_of_forall_mem {quote : Char} {body : List Char}
    (h : ∀ c ∈ body, c ≠ quote ∧ c ≠ '\\') : Quotable quote body := by
  induction body with
  | nil => exact .nil
  | cons c body ih =>
      obtain ⟨hc, hbody⟩ := List.forall_mem_cons.mp h
      exact .plain hc.1 hc.2 (ih hbody)

theorem takeQuoted?_append {quote : Char} (hquote : quote ≠ '\\') {body : List Char}
    (hbody : Quotable quote body) (rest : List Char) :
    takeQuoted? quote (body ++ quote :: rest) = some (body ++ [quote], rest) := by
  induction hbody with
  | nil => simp [takeQuoted?, hquote]
  | plain hne hbackslash _ ih =>
      rw [List.cons_append, takeQuoted?, if_neg hne, if_neg hbackslash, ih]
      · rfl
      · simp [hbackslash]
  | escaped c _ ih =>
      rw [List.cons_append, List.cons_append, takeQuoted?, ih]
      rfl

theorem exists_of_takeQuoted? {quote : Char} {cs text rest : List Char}
    (h : takeQuoted? quote cs = some (text, rest)) :
    ∃ body, Quotable quote body ∧ text = body ++ [quote] := by
  fun_induction takeQuoted? quote cs generalizing text with
  | case1 => cases h
  | case2 c tail ih =>
      obtain ⟨⟨text', rest'⟩, hrec, heq⟩ := Option.map_eq_some_iff.mp h
      cases heq
      obtain ⟨body, hbody, rfl⟩ := ih hrec
      exact ⟨'\\' :: c :: body, .escaped c hbody, rfl⟩
  | case3 =>
      cases h
      exact ⟨[], .nil, by simp_all⟩
  | case4 => cases h
  | case5 c tail _ hquote hbackslash ih =>
      obtain ⟨⟨text', rest'⟩, hrec, heq⟩ := Option.map_eq_some_iff.mp h
      cases heq
      obtain ⟨body, hbody, rfl⟩ := ih hrec
      exact ⟨c :: body, .plain hquote hbackslash hbody, rfl⟩

theorem takeQuotation?_append {quote : Char} (hquote : quote ≠ '\\') {body : List Char}
    (hbody : Quotable quote body) (rest : List Char) :
    takeQuotation? quote (quote :: (body ++ quote :: rest)) =
      some (quote :: (body ++ [quote]), rest) := by
  rw [takeQuotation?, if_pos rfl, takeQuoted?_append hquote hbody]
  rfl

theorem exists_of_takeQuotation? {quote : Char} {cs text rest : List Char}
    (h : takeQuotation? quote cs = some (text, rest)) :
    ∃ body, Quotable quote body ∧ text = quote :: (body ++ [quote]) := by
  cases cs with
  | nil => cases h
  | cons c tail =>
      rw [takeQuotation?] at h
      split at h
      · rename_i hc
        obtain ⟨⟨text', rest'⟩, hquoted, heq⟩ := Option.map_eq_some_iff.mp h
        cases heq
        obtain ⟨body, hbody, rfl⟩ := exists_of_takeQuoted? hquoted
        exact ⟨body, hbody, by rw [hc]⟩
      · cases h

theorem takeQuotation?_eq_none {quote c : Char} (hc : c ≠ quote) (rest : List Char) :
    takeQuotation? quote (c :: rest) = none := by
  rw [takeQuotation?, if_neg hc]

/-- A text as it is written between quotes, with a backslash before each quote and before each
backslash. -/
def escapeChars (quote : Char) (cs : List Char) : List Char :=
  cs.flatMap fun c => if c = quote || c = '\\' then ['\\', c] else [c]

theorem quotable_escapeChars (quote : Char) (cs : List Char) :
    Quotable quote (escapeChars quote cs) := by
  induction cs with
  | nil => exact .nil
  | cons c cs ih =>
      rw [escapeChars, List.flatMap_cons, ← escapeChars]
      split
      · exact .escaped c ih
      · rename_i hplain
        simp only [Bool.or_eq_true, decide_eq_true_eq, not_or] at hplain
        exact .plain hplain.1 hplain.2 ih

theorem unescapeChars_escapeChars (quote : Char) (cs : List Char) :
    unescapeChars quote (escapeChars quote cs) = cs := by
  induction cs with
  | nil => rfl
  | cons c cs ih =>
      rw [escapeChars, List.flatMap_cons, ← escapeChars]
      split
      · rename_i hspecial
        change unescapeChars quote ('\\' :: c :: escapeChars quote cs) = c :: cs
        rw [unescapeChars, if_pos hspecial, ih]
      · rename_i hplain
        simp only [Bool.or_eq_true, decide_eq_true_eq, not_or] at hplain
        change unescapeChars quote (c :: escapeChars quote cs) = c :: cs
        rw [unescapeChars, ih]
        simp [hplain.2]

@[simp]
theorem content_quoted (quote : Char) (body : List Char) :
    content (quote :: (body ++ [quote])) = body := by
  simp [content]

end Reshape.Grammar
