import Reshape.Number.Order

namespace Reshape

inductive Host where
  | nothing
  | boolean (b : Bool)
  | integer (i : Int)
  | real (x : ExtendedDouble)
  | text (s : String)
  | list (items : List Host)
  | tuple (items : List Host)
  | table (entries : List (Host × Host))
  | set
  | bytes
  /-- A number of a document. -/
  | number (n : Number)

namespace Host

/-- The name of a kind of data, as messages give it. -/
def typeName : Host → String
  | nothing => "NoneType"
  | boolean _ => "bool"
  | integer _ => "int"
  | real _ => "float"
  | text _ => "str"
  | list _ => "list"
  | tuple _ => "tuple"
  | table _ => "dict"
  | set => "set"
  | bytes => "bytes"
  | number _ => "Number"

/-- Whether the key is the given string. -/
def isText (s : String) : Host → Bool
  | text t => t == s
  | _ => false

/-- Writes an entry into a table. A string key that is there keeps its place. -/
def insertInto : List (Host × Host) → Host → Host → List (Host × Host)
  | [], key, value => [(key, value)]
  | (k, v) :: rest, text s, value =>
    if k.isText s then (k, value) :: rest else (k, v) :: insertInto rest (text s) value
  | e :: rest, key, value => e :: insertInto rest key value

/-- The table that a list of pairs writes, from left to right. -/
def tableOfPairs (pairs : List (Host × Host)) : Host :=
  table (pairs.foldl (fun entries e => insertInto entries e.1 e.2) [])

end Host

end Reshape
