import Reshape.Number.Read
import Reshape.Value.Entries

namespace Reshape

structure Settings where
  flattenPrefix : String := "data"
  sortOrder : String := "asc"
  /-- No limit if zero. -/
  replaceLimit : Int := 0

namespace Settings

/-- Why an environment has no settings. -/
inductive Error where
  | number (error : Number.ReadError)
  | negative (limit : Int)
deriving DecidableEq, Repr

def Error.message : Error → String
  | number error => error.message
  | negative limit =>
    "DTS_REPLACE_LIMIT must not be negative, got " ++
      String.ofList (Decimal.signedDigits limit)

/-- The settings that the variables of an environment make. -/
def ofEnvironment (environment : Entries String) : Except Error Settings :=
  let value (name fallback : String) := (Entries.find? environment name).getD fallback
  let limitText := value "DTS_REPLACE_LIMIT" "0"
  match Number.readInt limitText.toList with
  | .error e => .error (.number (e.about limitText))
  | .ok limit =>
    if limit < 0 then .error (.negative limit)
    else
      .ok
        { flattenPrefix := value "DTS_FLATTEN_PREFIX" "data"
          sortOrder := value "DTS_SORT_ORDER" "asc"
          replaceLimit := limit }

end Settings

end Reshape
