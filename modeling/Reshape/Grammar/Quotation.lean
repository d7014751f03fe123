namespace Reshape.Grammar

/-- The rest of a quoted string behind its opening quote, with the closing quote, and
what follows it. -/
def takeQuoted? (quote : Char) : List Char → Option (List Char × List Char)
  | [] => none
  | '\\' :: c :: rest =>
    (takeQuoted? quote rest).map fun (text, after) => ('\\' :: c :: text, after)
  | c :: rest =>
    if c = quote then some ([c], rest)
    else if c = '\\' then none
    else (takeQuoted? quote rest).map fun (text, after) => (c :: text, after)

/-- A whole quoted string at the front of a text, and what follows it. -/
def takeQuotation? (quote : Char) : List Char → Option (List Char × List Char)
  | [] => none
  | c :: rest =>
    if c = quote then (takeQuoted? quote rest).map fun (text, after) => (c :: text, after)
    else none

/-- Resolves the escapes of the quote and of the backslash, and keeps all others. -/
def unescapeChars (quote : Char) : List Char → List Char
  | [] => []
  | '\\' :: c :: rest =>
    if c = quote || c = '\\' then c :: unescapeChars quote rest
    else '\\' :: c :: unescapeChars quote rest
  | c :: rest => c :: unescapeChars quote rest

def unescape (quote : Char) (content : String) : String :=
  String.ofList (unescapeChars quote content.toList)

/-- The text between the quotes. -/
def content (quotation : List Char) : List Char :=
  (quotation.drop 1).dropLast

theorem append_of_takeQuoted? {quote : Char} {cs text rest : List Char}
    (h : takeQuoted? quote cs = some (text, rest)) : cs = text ++ rest ∧ text ≠ [] := by
  fun_induction takeQuoted? quote cs generalizing text with
  | case1 => cases h
  | case2 c tail ih =>
    obtain ⟨⟨text', rest'⟩, hrec, heq⟩ := Option.map_eq_some_iff.1 h
    cases heq
    simp [(ih hrec).1]
  | case3 => cases h; simp_all
  | case4 => cases h
  | case5 c tail _ _ _ ih =>
    obtain ⟨⟨text', rest'⟩, hrec, heq⟩ := Option.map_eq_some_iff.1 h
    cases heq
    simp [(ih hrec).1]

theorem append_of_takeQuotation? {quote : Char} {cs text rest : List Char}
    (h : takeQuotation? quote cs = some (text, rest)) : cs = text ++ rest ∧ text ≠ [] := by
  unfold takeQuotation? at h
  split at h
  · cases h
  · split at h
    · obtain ⟨⟨text', rest'⟩, hrec, heq⟩ := Option.map_eq_some_iff.1 h
      cases heq
      simp [(append_of_takeQuoted? hrec).1]
    · cases h

end Reshape.Grammar
