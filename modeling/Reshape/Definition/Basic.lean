import Reshape.Definition.Parameter

namespace Reshape

structure Definition where
  name : String
  aliases : List String
  description : Option String
  parameters : List Parameter

namespace Definition

def ofName (name : String) : Definition :=
  ⟨name, [], none, []⟩

def addAlias (d : Definition) (other : String) : Definition :=
  { d with aliases := d.aliases ++ [other] }

def addAliases (d : Definition) (others : List String) : Definition :=
  others.foldl addAlias d

def withDescription (d : Definition) (description : String) : Definition :=
  { d with description := some description }

/-- Adds a parameter behind those of its rank, in place of one of the same name. -/
def addParameter (d : Definition) (p : Parameter) : Definition :=
  let others := d.parameters.filter fun q => q.name != p.name
  { d with parameters := Sorting.arrange (fun q r => q.rank ≤ r.rank) (others ++ [p]) }

def addParameters (d : Definition) (ps : List Parameter) : Definition :=
  ps.foldl addParameter d

/-- The parameters that the arguments of a call are bound to. Of several with one name the first
gives the place and the last the rest. -/
def table (d : Definition) : List Parameter :=
  (Entries.ofList (d.parameters.map fun p => (p.name, p))).map Prod.snd

def hasName (d : Definition) (name : String) : Bool :=
  d.name == name || d.aliases.contains name

/-- Whether a keyword in lower case occurs in the names, the description or the
parameters. -/
def containsKeyword (d : Definition) (keyword : String) : Bool :=
  Parameter.mentions keyword d.name || d.description.any (Parameter.mentions keyword) ||
    d.aliases.any (Parameter.mentions keyword) ||
    d.parameters.any fun p => p.containsKeyword keyword

/-- A definition as it is shown. A parameter that can be left out opens a bracket, which
closes at the end. -/
def text (d : Definition) : Except Fault String := do
  let parts ← d.parameters.mapM fun p =>
    p.text.map fun text => if p.required then text else "[" ++ text
  let optional := (d.parameters.filter fun p => !p.required).length
  return d.name ++ "(" ++ ", ".intercalate parts ++
    String.ofList (List.replicate optional ']') ++ ")"

end Definition

/-- The definitions that calls are matched against. The first one with a name counts. -/
abbrev Registry :=
  List Definition

namespace Registry

def find? (registry : Registry) (name : String) : Option Definition :=
  List.find? (fun d => d.hasName name) registry

/-- Changes the definition with a name. -/
def update (registry : Registry) (name : String) (change : Definition → Definition) : Registry :=
  match registry with
  | [] => []
  | d :: rest => if d.hasName name then change d :: rest else d :: update rest name change

/-- The definitions that a keyword in any case leads to. -/
def search (registry : Registry) (keyword : String) : Registry :=
  registry.filter fun d => d.containsKeyword (Text.lower keyword)

end Registry

end Reshape
