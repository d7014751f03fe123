namespace Reshape.Pipeline

mutual

inductive Call where
  | mk (name : String) (arguments : List Argument)

inductive Argument where
  | mk (label : Option String) (term : Term)

inductive Term where
  | literal (text : String)
  | pipeline (calls : List Call)

end

instance : Inhabited Call :=
  ⟨.mk "" []⟩

namespace Call

def name : Call → String
  | mk name _ => name

def arguments : Call → List Argument
  | mk _ arguments => arguments

end Call

namespace Argument

def label : Argument → Option String
  | mk label _ => label

def term : Argument → Term
  | mk _ term => term

end Argument

mutual

/-- A call as it is shown, with commas between its arguments. -/
def Call.text : Call → String
  | .mk name arguments => name ++ "(" ++ ", ".intercalate (argumentTexts arguments) ++ ")"

def Argument.text : Argument → String
  | .mk none term => term.text
  | .mk (some label) term => label ++ "=" ++ term.text

/-- A nested pipeline is shown with dots between its calls. -/
def Term.text : Term → String
  | .literal text => text
  | .pipeline calls => ".".intercalate (callTexts calls)

def argumentTexts : List Argument → List String
  | [] => []
  | a :: rest => a.text :: argumentTexts rest

def callTexts : List Call → List String
  | [] => []
  | c :: rest => c.text :: callTexts rest

end

end Reshape.Pipeline
