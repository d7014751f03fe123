import Reshape.Fault
import Reshape.Value.Basic

namespace Reshape.Value

/-- Compares by `next` what a first comparison left tied. -/
def tied (first : Except Fault Ordering) (next : Except Fault Ordering) :
    Except Fault Ordering :=
  match first with
  | .ok .eq => next
  | other => other

mutual

/-- Kinds come first. Within a kind, containers compare by length and then from left to right, an
object by its keys and values in the order of its entries. -/
def compare : Value → Value → Except Fault Ordering
  | number m, number n =>
    match m.compare? n with
    | some o => .ok o
    | none => .error .integerTooLarge
  | bool a, bool b => .ok (Ord.compare a b)
  | string s, string t => .ok (Ord.compare s t)
  | array xs, array ys =>
    tied (.ok (Ord.compare xs.length ys.length)) (compareItems xs ys)
  | object es, object fs =>
    tied (.ok (Ord.compare es.length fs.length)) (compareEntries es fs)
  | v, w =>
    match v.kind, w.kind with
    | .ok k, .ok l => .ok (Ord.compare k.rank l.rank)
    | .error e, _ => .error e
    | _, .error e => .error e

def compareItems : List Value → List Value → Except Fault Ordering
  | x :: xs, y :: ys => tied (compare x y) (compareItems xs ys)
  | _, _ => .ok .eq

def compareEntries : List (String × Value) → List (String × Value) → Except Fault Ordering
  | (k, v) :: es, (l, w) :: fs =>
    tied (.ok (Ord.compare k l)) (tied (compare v w) (compareEntries es fs))
  | _, _ => .ok .eq

end

/-- Whether a document comes strictly before another. -/
def before (v w : Value) : Except Fault Bool :=
  (compare v w).map (· == .lt)

end Reshape.Value
