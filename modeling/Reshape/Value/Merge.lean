import Reshape.Value.Basic

namespace Reshape.Value

mutual

/-- Objects merge by key and arrays by index. Otherwise the right document replaces the left one,
unless it is null. -/
def merge : Value → Value → Value
  | object es, object fs => object (mergeEntries es fs)
  | array xs, array ys => array (mergeItems xs ys)
  | v, null => v
  | _, w => w

/-- A shared key keeps its place, a new one comes last. -/
def mergeEntries (es : List (String × Value)) : List (String × Value) → List (String × Value)
  | [] => es
  | (k, w) :: fs =>
    match Entries.find? es k with
    | some v => mergeEntries (Entries.insert es k (merge v w)) fs
    | none => mergeEntries (es ++ [(k, w)]) fs

/-- The shorter list counts as padded with nulls. -/
def mergeItems : List Value → List Value → List Value
  | xs, [] => xs
  | [], y :: ys => merge null y :: mergeItems [] ys
  | x :: xs, y :: ys => merge x y :: mergeItems xs ys

end

/-- Merges further documents into a first one, from left to right. -/
def mergeAll (first : Value) (more : List Value) : Value :=
  more.foldl merge first

end Reshape.Value
