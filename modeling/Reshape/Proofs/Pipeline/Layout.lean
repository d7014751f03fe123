import Reshape.Pipeline.Basic
import Reshape.Proofs.Pipeline.Tokens

/-!
The layouts of pipelines: which texts write which calls. A layout puts white space between
its tokens, and writes a call without arguments with or without parentheses. It stands for
the grammar and does not mention the reader.
-/

namespace Reshape.Pipeline

/-- The names that are words where a literal may stand. -/
def words : List (List Char) :=
  [['t', 'r', 'u', 'e'], ['f', 'a', 'l', 's', 'e'], ['n', 'u', 'l', 'l']]

/-- A part of a literal: the whole, or what stands behind an opening bracket or behind an
item of a container, its closing bracket included. -/
inductive Part where
  | value
  | array
  | moreItems
  | object
  | moreFields
deriving DecidableEq, Repr

inductive LiteralText : Part → List Char → Prop
  | number {text : List Char} (h : Number.IsLiteral text) : LiteralText .value text
  | string {text : List Char} (h : IsString text) : LiteralText .value text
  | word {text : List Char} (h : text ∈ words) : LiteralText .value text
  | array {text : List Char} (h : LiteralText .array text) : LiteralText .value ('[' :: text)
  | object {text : List Char} (h : LiteralText .object text) :
      LiteralText .value ('\x7b' :: text)
  | emptyArray {gap : List Char} (hgap : IsGap gap) : LiteralText .array (gap ++ [']'])
  | firstItem {gap item rest : List Char} (hgap : IsGap gap) (hitem : LiteralText .value item)
      (hrest : LiteralText .moreItems rest) : LiteralText .array (gap ++ (item ++ rest))
  | endArray {gap : List Char} (hgap : IsGap gap) : LiteralText .moreItems (gap ++ [']'])
  | nextItem {gap gap' item rest : List Char} (hgap : IsGap gap) (hgap' : IsGap gap')
      (hitem : LiteralText .value item) (hrest : LiteralText .moreItems rest) :
      LiteralText .moreItems (gap ++ (',' :: (gap' ++ (item ++ rest))))
  | emptyObject {gap : List Char} (hgap : IsGap gap) : LiteralText .object (gap ++ ['\x7d'])
  | firstField {gap gap' gap'' key value rest : List Char} (hgap : IsGap gap)
      (hkey : IsString key) (hgap' : IsGap gap') (hgap'' : IsGap gap'')
      (hvalue : LiteralText .value value) (hrest : LiteralText .moreFields rest) :
      LiteralText .object (gap ++ (key ++ (gap' ++ (':' :: (gap'' ++ (value ++ rest))))))
  | endObject {gap : List Char} (hgap : IsGap gap) : LiteralText .moreFields (gap ++ ['\x7d'])
  | nextField {before gap gap' gap'' key value rest : List Char} (hbefore : IsGap before)
      (hgap : IsGap gap) (hkey : IsString key) (hgap' : IsGap gap') (hgap'' : IsGap gap'')
      (hvalue : LiteralText .value value) (hrest : LiteralText .moreFields rest) :
      LiteralText .moreFields
        (before ++ (',' :: (gap ++ (key ++ (gap' ++ (':' :: (gap'' ++ (value ++ rest))))))))

/-- What a part of a pipeline writes. -/
inductive Construct where
  | calls (calls : List Call)
  /-- The calls behind one with or without parentheses. -/
  | moreCalls (bare : Bool) (calls : List Call)
  | call (bare : Bool) (c : Call)
  /-- The arguments behind an opening parenthesis, with the closing one. -/
  | arguments (arguments : List Argument)
  /-- The arguments behind another one, with the closing parenthesis. -/
  | moreArguments (arguments : List Argument)
  | argument (a : Argument)
  | term (t : Term)

inductive Layout : Construct → List Char → Prop
  | calls {bare : Bool} {c : Call} {more : List Call} {text rest : List Char}
      (hcall : Layout (.call bare c) text) (hmore : Layout (.moreCalls bare more) rest) :
      Layout (.calls (c :: more)) (text ++ rest)
  | last {bare : Bool} : Layout (.moreCalls bare []) []
  | dotted {bare : Bool} {more : List Call} {gap gap' text : List Char} (hgap : IsGap gap)
      (hgap' : IsGap gap') (hcalls : Layout (.calls more) text) :
      Layout (.moreCalls bare more) (gap ++ ('.' :: (gap' ++ text)))
  /-- Without a dot two names are kept apart by white space. -/
  | spaced {bare : Bool} {more : List Call} {gap text : List Char} (hgap : IsGap gap)
      (hspace : bare = true → gap ≠ []) (hcalls : Layout (.calls more) text) :
      Layout (.moreCalls bare more) (gap ++ text)
  | bare {name : List Char} (hname : IsName name) :
      Layout (.call true (.mk (String.ofList name) [])) name
  | full {name : List Char} {arguments : List Argument} {gap text : List Char}
      (hname : IsName name) (hgap : IsGap gap) (harguments : Layout (.arguments arguments) text) :
      Layout (.call false (.mk (String.ofList name) arguments)) (name ++ (gap ++ ('(' :: text)))
  | noArguments {gap : List Char} (hgap : IsGap gap) : Layout (.arguments []) (gap ++ [')'])
  | firstArgument {a : Argument} {more : List Argument} {gap text rest : List Char}
      (hgap : IsGap gap) (ha : Layout (.argument a) text)
      (hmore : Layout (.moreArguments more) rest) :
      Layout (.arguments (a :: more)) (gap ++ (text ++ rest))
  | endArguments {gap : List Char} (hgap : IsGap gap) :
      Layout (.moreArguments []) (gap ++ [')'])
  | nextArgument {a : Argument} {more : List Argument} {gap gap' text rest : List Char}
      (hgap : IsGap gap) (hgap' : IsGap gap') (ha : Layout (.argument a) text)
      (hmore : Layout (.moreArguments more) rest) :
      Layout (.moreArguments (a :: more)) (gap ++ (',' :: (gap' ++ (text ++ rest))))
  | positional {t : Term} {text : List Char} (ht : Layout (.term t) text) :
      Layout (.argument (.mk none t)) text
  | labelled {label : List Char} {t : Term} {gap gap' text : List Char} (hlabel : IsName label)
      (hword : label ∉ words) (hgap : IsGap gap) (hgap' : IsGap gap')
      (ht : Layout (.term t) text) :
      Layout (.argument (.mk (some (String.ofList label)) t))
        (label ++ (gap ++ ('=' :: (gap' ++ text))))
  | literal {text : List Char} (h : LiteralText .value text) :
      Layout (.term (.literal (String.ofList text))) text
  | pipeline {c : Call} {more : List Call} {text : List Char}
      (hcalls : Layout (.calls (c :: more)) text) (hword : c.name.toList ∉ words) :
      Layout (.term (.pipeline (c :: more))) text

/-- Whether a text is a layout of calls, with white space around it. -/
def IsLayout (text : String) (calls : List Call) : Prop :=
  ∃ gap body gap', IsGap gap ∧ Layout (.calls calls) body ∧ IsGap gap' ∧
    text.toList = gap ++ (body ++ gap')

section Text

theorem isGap_nil : IsGap [] := by
  simp [IsGap]

theorem ofName_eq_name_iff {text : List Char} : Terminal.ofName text = .name ↔ text ∉ words := by
  rw [Terminal.ofName, words]
  by_cases htrue : text = ['t', 'r', 'u', 'e'] <;>
    by_cases hfalse : text = ['f', 'a', 'l', 's', 'e'] <;>
    by_cases hnull : text = ['n', 'u', 'l', 'l'] <;>
    simp_all

theorem exists_word_of_mem {text : List Char} (h : text ∈ words) :
    ∃ t : Terminal, t.isWord = true ∧ Spells t text := by
  simp only [words, List.mem_cons, List.not_mem_nil, or_false] at h
  rcases h with rfl | rfl | rfl
  · exact ⟨.trueWord, rfl, .exact rfl⟩
  · exact ⟨.falseWord, rfl, .exact rfl⟩
  · exact ⟨.nullWord, rfl, .exact rfl⟩

theorem mem_words_of_isWord {t : Terminal} (ht : t.isWord = true) {text : List Char}
    (h : Spells t text) : text ∈ words := by
  obtain ⟨-, hofName⟩ := isName_of_isWord ht h
  refine Decidable.byContradiction fun hnot => ?_
  rw [ofName_eq_name_iff.mpr hnot] at hofName
  rw [← hofName] at ht
  cases ht

end Text

end Reshape.Pipeline
