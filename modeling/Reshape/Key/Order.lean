import Reshape.Key.Basic

namespace Reshape.Key

/-- Indices come before identifiers. -/
def Segment.compare : Segment → Segment → Ordering
  | .index i, .index j => Ord.compare i j
  | .index _, .ident _ => .lt
  | .ident _, .index _ => .gt
  | .ident k, .ident l => Ord.compare k l

def compare : Key → Key → Ordering
  | [], [] => .eq
  | [], _ :: _ => .lt
  | _ :: _, [] => .gt
  | s :: key, t :: other =>
    match s.compare t with
    | .eq => compare key other
    | o => o

end Reshape.Key
