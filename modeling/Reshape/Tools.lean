import Reshape.Query.Basic

/-!
What pipelines are compiled with: an engine for queries, and the characters that patterns name.
-/

namespace Reshape

class Tools where
  engine : Query.Engine
  charNamed? : String → Option Char

end Reshape
