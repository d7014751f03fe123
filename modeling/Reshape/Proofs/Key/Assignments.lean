import Reshape.Proofs.Json.Line
import Reshape.Proofs.Json.RoundTrip
import Reshape.Proofs.Key.Listing
import Reshape.Proofs.Text.Line

namespace Reshape.Key

open Reshape.Grammar Reshape.Text

section Delimited

variable {cs rest : List Char} {parts other done : List Part}

theorem Continues.head? (h : Continues cs parts) : ∀ c ∈ cs.head?, c = '.' ∨ c = '[' := by
  cases h with
  | nil => nofun
  | cons hfirst _ =>
      cases hfirst with
      | dotted _ =>
          rintro _ ⟨⟩
          exact .inl rfl
      | bracketed _ =>
          rintro _ ⟨⟩
          exact .inr rfl

theorem Continues.isIdentChar_head?_append (h : Continues cs parts)
    (hrest : ∀ c ∈ rest.head?, isIdentChar c = false) :
    ∀ c ∈ (cs ++ rest).head?, isIdentChar c = false := by
  intro c hc
  rw [List.head?_append] at hc
  rcases Option.or_eq_some_iff.mp hc with hc | ⟨-, hc⟩
  · exact h.isIdentChar_head? c hc
  · exact hrest c hc

theorem Continues.readFrom_append {total : Nat} (h : Continues cs parts)
    (hrest : ∀ c ∈ rest.head?, isIdentChar c = false) :
    language.readFrom total (.between done) (cs ++ rest) =
      language.readFrom total (.between (done ++ parts)) rest := by
  induction h generalizing done with
  | nil => rw [List.nil_append, List.append_nil]
  | cons hfirst hmore ih =>
      rw [List.append_assoc, hfirst.readFrom_eq (hmore.isIdentChar_head?_append hrest), ih,
        List.append_assoc, List.singleton_append]

theorem IsSpelling.readFrom_append {total : Nat} (h : IsSpelling cs parts)
    (hrest : ∀ c ∈ rest.head?, isIdentChar c = false) :
    language.readFrom total .start (cs ++ rest) =
      language.readFrom total (.between parts) rest := by
  cases h with
  | mk hfirst hmore =>
      rw [List.append_assoc, hfirst.readFrom_eq (hmore.isIdentChar_head?_append hrest),
        hmore.readFrom_append hrest, List.singleton_append]

theorem IsSpelling.not_append_blank (h : IsSpelling cs parts) :
    ¬ IsSpelling (cs ++ ' ' :: rest) other := by
  intro hother
  have hblank : ∀ c ∈ (' ' :: rest).head?, isIdentChar c = false := by
    rintro _ ⟨⟩
    decide
  have hparse : parse (String.ofList (cs ++ ' ' :: rest)) = .ok other :=
    parse_of_isSpelling (by rwa [String.toList_ofList])
  have hrun := (Language.readText_eq_ok_iff.mp hparse).2
  rw [String.toList_ofList, show language.start = .start from rfl,
    h.readFrom_append hblank] at hrun
  obtain ⟨more, hmore, -⟩ := demands_of_readFrom hrun
  exact absurd (hmore.head? ' ' rfl) (by decide)

theorem IsSpelling.append_blank_inj {cs' rest' : List Char} (h : IsSpelling cs parts)
    (h' : IsSpelling cs' other) (heq : cs ++ ' ' :: rest = cs' ++ ' ' :: rest') :
    cs = cs' ∧ rest = rest' := by
  rcases List.append_eq_append_iff.mp heq with ⟨more, rfl, hmore⟩ | ⟨more, rfl, hmore⟩
  · cases more with
    | nil => simpa using hmore
    | cons c more =>
        obtain ⟨rfl, -⟩ := List.cons.inj hmore
        exact absurd h' h.not_append_blank
  · cases more with
    | nil => simpa [eq_comm] using hmore
    | cons c more =>
        obtain ⟨rfl, -⟩ := List.cons.inj hmore
        exact absurd h h'.not_append_blank

end Delimited

section Newline

theorem newline_not_mem_digits (n : Nat) : '\n' ∉ Decimal.digits n := by
  intro h
  exact absurd (Decimal.isAsciiDigit_of_mem_digits n '\n' h) (by decide)

theorem newline_mem_escapeChar_iff {c : Char} : '\n' ∈ escapeChar c ↔ c = '\n' := by
  rw [escapeChar]
  split <;> simp [eq_comm]

theorem newline_mem_chars_iff {segment : Segment} :
    '\n' ∈ segment.chars ↔ ∃ name, segment = .ident name ∧ '\n' ∈ name.toList := by
  cases segment with
  | ident name =>
      rw [Segment.chars]
      split
      · simp
      · simp [newline_mem_escapeChar_iff]
  | index i =>
      have hdigits := newline_not_mem_digits i.natAbs
      rw [Segment.chars, Decimal.signedDigits]
      split <;> simp [hdigits]

theorem newline_mem_firstChars_iff {segment : Segment} :
    '\n' ∈ segment.firstChars ↔ ∃ name, segment = .ident name ∧ '\n' ∈ name.toList := by
  rw [← newline_mem_chars_iff]
  cases segment with
  | ident name =>
      rw [Segment.firstChars]
      split
      · rename_i hbare
        simp [Segment.chars, hbare]
      · rfl
  | index i => rfl

theorem newline_mem_spelling_iff {key : Key} :
    '\n' ∈ key.spelling.toList ↔ ∃ name, .ident name ∈ key ∧ '\n' ∈ name.toList := by
  rw [spelling, String.toList_ofList]
  cases key with
  | nil => simp [chars]
  | cons first rest =>
      rw [chars, List.mem_append, newline_mem_firstChars_iff, List.mem_flatMap]
      constructor
      · rintro (⟨name, rfl, hname⟩ | ⟨segment, hsegment, hmem⟩)
        · exact ⟨name, List.mem_cons_self, hname⟩
        · obtain ⟨name, rfl, hname⟩ := newline_mem_chars_iff.mp hmem
          exact ⟨name, List.mem_cons_of_mem _ hsegment, hname⟩
      · rintro ⟨name, hmem, hname⟩
        rcases List.mem_cons.mp hmem with heq | hmem
        · exact .inl ⟨name, heq.symm, hname⟩
        · exact .inr ⟨_, hmem, newline_mem_chars_iff.mpr ⟨name, rfl, hname⟩⟩

end Newline

section Writing

/-- An entry as an assignment, however long its numerals are. -/
def assigned (e : String × Value) : String :=
  e.1 ++ " = " ++ String.ofList (Json.chars .compact 0 e.2) ++ ";"

theorem assignment_eq (e : String × Value) :
    assignment e = if e.2.isShort then .ok (assigned e) else .error .integerTooLong := by
  rw [assignment, Value.json, Json.write, if_neg (by simp [Json.Layout.isTooWide])]
  split
  · rfl
  · rfl

theorem mapM_assignment_eq (entries : Entries Value) :
    entries.mapM assignment =
      if entries.all (·.2.isShort) then .ok (entries.map assigned)
      else .error .integerTooLong := by
  induction entries with
  | nil => rfl
  | cons e rest ih =>
      rw [List.mapM_cons, assignment_eq, ih, List.all_cons, List.map_cons]
      cases e.2.isShort with
      | false => rfl
      | true => cases rest.all (·.2.isShort) <;> rfl

mutual

/-- A document can be written if each of its nodes can be. -/
theorem all_isShort_nodes (key : Key) : (v : Value) →
    (nodes key v).all (·.2.isShort) = v.isShort
  | .null | .bool _ | .number _ | .string _ | .bare _ => by
      rw [nodes]
      · exact Bool.and_true _
      all_goals nofun
  | .array items => by
      rw [nodes, List.all_cons, all_isShort_nodesOfItems key 0 items]
      rfl
  | .object entries => by
      rw [nodes, List.all_cons, all_isShort_nodesOfEntries key entries]
      rfl

theorem all_isShort_nodesOfItems (key : Key) (index : Nat) : (items : List Value) →
    (nodesOfItems key index items).all (·.2.isShort) = Value.areShort items
  | [] => rfl
  | v :: vs => by
      rw [nodesOfItems, List.all_append, all_isShort_nodes _ v,
        all_isShort_nodesOfItems key (index + 1) vs, Value.areShort]

theorem all_isShort_nodesOfEntries (key : Key) : (entries : List (String × Value)) →
    (nodesOfEntries key entries).all (·.2.isShort) = Value.haveShort entries
  | [] => rfl
  | (k, v) :: rest => by
      rw [nodesOfEntries, List.all_append, all_isShort_nodes _ v,
        all_isShort_nodesOfEntries key rest, Value.haveShort]

end

theorem assignments_eq {v : Value} (hv : v.IsDocument) (rootName : String) :
    assignments v rootName =
      if v.isShort then .ok ((flatten v rootName).map assigned)
      else .error .integerTooLong := by
  have hshort : (flatten v rootName).all (·.2.isShort) = v.isShort := by
    rw [flatten_eq hv, (Entries.sorted_perm _).all_eq, List.all_map]
    exact all_isShort_nodes [] v
  rw [assignments, mapM_assignment_eq, hshort]

theorem newline_mem_assigned_iff {e : String × Value} :
    '\n' ∈ (assigned e).toList ↔ '\n' ∈ e.1.toList := by
  have hjson : '\n' ∉ Json.chars .compact 0 e.2 := fun h =>
    absurd (Json.space_le_of_mem_chars 0 e.2 '\n' h) (by decide)
  simp [assigned, hjson]

end Writing

section Reading

/-- A line assigns to a flat key what the text behind it is read as. -/
def IsAssignment (line : String) (e : String × Value) : Prop :=
  (∃ parts, parse e.1 = .ok parts) ∧
    ∃ json, line = e.1 ++ " = " ++ json ++ ";" ∧ Json.read json = .ok e.2

theorem isAssignment_assigned_iff {e d : String × Value} {parts : List Part}
    (hkey : parse e.1 = .ok parts) (hvalue : e.2.IsWritable) :
    IsAssignment (assigned e) d ↔ d = e := by
  have hjson := Json.read_chars .compact hvalue
  constructor
  · rintro ⟨⟨other, hother⟩, json, hline, hread⟩
    have hlists := congrArg String.toList hline
    simp only [assigned, String.toList_append, List.append_assoc] at hlists
    obtain ⟨hfront, hback⟩ :=
      (isSpelling_of_parse hkey).append_blank_inj (isSpelling_of_parse hother) hlists
    have hvalues : (String.ofList (Json.chars .compact 0 e.2)).toList ++ [';'] =
        json.toList ++ [';'] :=
      (List.cons.inj (List.cons.inj hback).2).2
    obtain rfl := String.toList_injective (List.append_cancel_right hvalues)
    rw [hjson, Except.ok.injEq] at hread
    exact Prod.ext (String.toList_injective hfront).symm hread.symm
  · rintro rfl
    exact ⟨⟨parts, hkey⟩, _, rfl, hjson⟩

/-- The texts are read as the entries, one for one, and in no other way. -/
def ReadsBack (texts : List String) (entries : Entries Value) : Prop :=
  List.Forall₂ (fun text e => ∀ d, IsAssignment text d ↔ d = e) texts entries

/-- The texts make up one line for each node of a document, and these lines are read as its
entries. -/
structure IsReadByLine (v : Value) (rootName : String) (texts : List String) : Prop where
  oneEach : (lineTexts ("\n".intercalate texts)).length = (nodes [] v).length
  readsBack : ReadsBack (lineTexts ("\n".intercalate texts)) (flatten v rootName)

variable {v : Value} (hv : v.IsDocument) (rootName : String)

include hv

theorem readsBack_assigned (hshort : v.isShort = true) :
    ReadsBack ((flatten v rootName).map assigned) (flatten v rootName) := by
  rw [ReadsBack, List.forall₂_map_left_iff, List.forall₂_same]
  intro e he
  obtain ⟨way, w, hw, rfl⟩ := (mem_flatten_iff hv rootName).mp he
  have hnode := (mem_nodes_iff hv).mpr ⟨w, hw, rfl⟩
  have hnodeShort := List.all_eq_true.mp ((all_isShort_nodes [] v).trans hshort) _ hnode
  exact fun d => isAssignment_assigned_iff (spells_entryOf_at? hv rootName hw).1
    (Value.isWritable_iff.mpr ⟨isDocument_record (hv.at? hw), hnodeShort⟩)

theorem length_flatten : (flatten v rootName).length = (nodes [] v).length := by
  rw [flatten_eq hv, (Entries.sorted_perm _).length_eq, List.length_map]

theorem forall_newline_not_mem_assigned_iff :
    (∀ text ∈ (flatten v rootName).map assigned, '\n' ∉ text.toList) ↔
      '\n' ∉ rootName.toList ∧ ∀ way w, v.at? way = some w →
        ∀ name, .ident name ∈ way → '\n' ∉ name.toList := by
  rw [List.forall_mem_map]
  simp only [newline_mem_assigned_iff]
  constructor
  · intro h
    have hway : ∀ way w, v.at? way = some w → ∀ name, .ident name ∈ Segment.ident rootName :: way →
        '\n' ∉ name.toList := by
      intro way w hw name hname hmem
      refine h _ ((mem_flatten_iff hv rootName).mpr ⟨way, w, hw, rfl⟩) ?_
      exact newline_mem_spelling_iff.mpr ⟨name, hname, hmem⟩
    exact ⟨hway [] v rfl rootName List.mem_cons_self, fun way w hw name hname =>
      hway way w hw name (List.mem_cons_of_mem _ hname)⟩
  · rintro ⟨hroot, hways⟩ e he hmem
    obtain ⟨way, w, hw, rfl⟩ := (mem_flatten_iff hv rootName).mp he
    obtain ⟨name, hname, hmem⟩ := newline_mem_spelling_iff.mp hmem
    rcases List.mem_cons.mp hname with heq | hname
    · cases heq
      exact hroot hmem
    · exact hways way w hw name hname hmem

theorem isReadByLine_assigned_iff (hshort : v.isShort = true) :
    IsReadByLine v rootName ((flatten v rootName).map assigned) ↔
      '\n' ∉ rootName.toList ∧ ∀ way w, v.at? way = some w →
        ∀ name, .ident name ∈ way → '\n' ∉ name.toList := by
  have hlength : ((flatten v rootName).map assigned).length = (nodes [] v).length := by
    rw [List.length_map, length_flatten hv]
  have hne : (flatten v rootName).map assigned ≠ [] := by
    rw [← List.length_pos_iff, hlength]
    exact List.length_pos_iff.mpr (nodes_ne_nil v)
  rw [← forall_newline_not_mem_assigned_iff hv]
  constructor
  · intro h
    have hcount := h.oneEach
    rw [length_lineTexts_intercalate hne, hlength, Nat.add_eq_left, List.count_eq_zero] at hcount
    exact fun text htext hmem => hcount (List.mem_flatMap.mpr ⟨text, htext, hmem⟩)
  · intro htexts
    have hlines := lineTexts_intercalate hne htexts
    constructor
    · rw [hlines, hlength]
    · rw [hlines]
      exact readsBack_assigned hv rootName hshort

/-- A document without an integer of too many digits has assignments, and they always are read as
its entries. They are the lines of the text that they are joined to exactly when neither the name
of the root nor a key within holds a newline. -/
theorem readsBack_and_isReadByLine_iff :
    (v.isShort = true → ∃ texts, assignments v rootName = .ok texts ∧
      ReadsBack texts (flatten v rootName) ∧
      (IsReadByLine v rootName texts ↔ '\n' ∉ rootName.toList ∧ ∀ way w, v.at? way = some w →
        ∀ name, .ident name ∈ way → '\n' ∉ name.toList)) ∧
    (v.isShort = false → assignments v rootName = .error .integerTooLong) := by
  rw [assignments_eq hv]
  constructor
  · intro hshort
    rw [if_pos hshort]
    exact ⟨_, rfl, readsBack_assigned hv rootName hshort,
      isReadByLine_assigned_iff hv rootName hshort⟩
  · intro hlong
    rw [hlong]
    rfl

end Reading

/-- Names and strings that look like the marks of an assignment, and a newline in a string. -/
def markedKeys : Value :=
  .object [("a = 1;", .string "x\n = 2;"), ("\"", .array [])]

theorem isReadByLine_markedKeys :
    ∃ texts, assignments markedKeys "js = on" = .ok texts ∧
      IsReadByLine markedKeys "js = on" texts := by
  have hdocument : markedKeys.IsDocument := by
    refine .object _ (by decide) ?_
    simpa using ⟨.string "x\n = 2;", .array [] nofun⟩
  obtain ⟨texts, htexts, -, hlines⟩ :=
    (readsBack_and_isReadByLine_iff hdocument "js = on").1 rfl
  refine ⟨texts, htexts, hlines.mpr ⟨by decide, fun way w hw => ?_⟩⟩
  have hnode := (mem_nodes_iff hdocument).mpr ⟨w, hw, rfl⟩
  simp only [markedKeys, nodes, nodesOfEntries, nodesOfItems, List.nil_append, List.append_nil,
    List.mem_cons, List.not_mem_nil, or_false, List.mem_append, Prod.mk.injEq] at hnode
  rcases hnode with ⟨rfl, -⟩ | ⟨rfl, -⟩ | ⟨rfl, -⟩ <;> simp

/-- A newline in a key breaks its assignment in two. -/
def brokenKey : Value :=
  .object [("a\nb", .null)]

theorem not_isReadByLine_brokenKey :
    ∃ texts, assignments brokenKey "json" = .ok texts ∧
      lineTexts ("\n".intercalate texts) =
        ["json = \x7b\x7d;", "json[\"a", "b\"] = null;"] ∧
      ¬ IsReadByLine brokenKey "json" texts := by
  have hdocument : brokenKey.IsDocument := .object _ (by decide) (by simpa using .null)
  have hlines : lineTexts ("\n".intercalate ((flatten brokenKey "json").map assigned)) =
      ["json = \x7b\x7d;", "json[\"a", "b\"] = null;"] := by
    decide +kernel
  refine ⟨_, assignments_eq hdocument "json", hlines, fun h => ?_⟩
  have hlength := h.oneEach
  rw [hlines] at hlength
  exact absurd hlength (by decide)

end Reshape.Key
