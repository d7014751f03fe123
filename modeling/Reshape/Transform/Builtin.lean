import Reshape.Definition.Basic
import Reshape.Settings

namespace Reshape.Builtin

def withNames (name : String) (aliases : List String) (description : String) : Definition :=
  ((Definition.ofName name).addAliases aliases).withDescription description

def parameter (name description : String) : Parameter :=
  (Parameter.ofName name).withDescription description

def query : Parameter :=
  parameter "query" "A JSONPath query."

def expression (description : String) : Parameter :=
  parameter "expression" description

def maxDepth (what : String) : Parameter :=
  ((Parameter.ofName "max_depth").withRequired false).withDescription <|
    "Upper bound for child collections to be " ++ what ++
      ". A max depth of 0 means that only the top level is visited."

def select : Definition :=
  (withNames "select" ["j", "jp", "jsonpath"]
    ("Selects data via JSONPath query. The result is always an array with zero or more " ++
      "elements; see `flatten` to remove one level of nesting from single element " ++
      "results.")).addParameter query

def mutate : Definition :=
  (withNames "mutate" ["mut"]
    ("Replaces every value matching a JSONPath query with the result of an expression " ++
      "applied to it.")).addParameters
    [query, expression "The transformation expression applied to each match."]

def delete : Definition :=
  (withNames "delete" ["del"]
    "Replaces every value matching a JSONPath query with null.").addParameter query

def remove : Definition :=
  (withNames "remove" ["rm"]
    ("Removes every value matching a JSONPath query from its parent array or " ++
      "object.")).addParameter query

def flatten : Definition :=
  withNames "flatten" ["f"]
    ("Removes one level of nesting if the data is shaped like an array or one-element " ++
      "object.\n\nIf the input is a one-element array it will be removed entirely, leaving " ++
      "the single element as output.")

def flattenKeys (settings : Settings) : Definition :=
  (withNames "flatten_keys" ["F", "flatten-keys"]
    ("Flattens the input to an object with flat keys, similar to the output of " ++
      "`gron`.")).addParameter
    (((Parameter.ofName "prefix").withFallback (.string settings.flattenPrefix)).withDescription
      "The prefix for flattened keys.")

def expandKeys : Definition :=
  withNames "expand_keys" ["e", "expand-keys"] "Expands flat object keys to nested objects."

def removeEmptyValues : Definition :=
  withNames "remove_empty_values" ["r", "remove-empty-values"]
    ("Recursively removes nulls, empty arrays and empty objects from the data.\n\nTop level " ++
      "empty values are not removed.")

def deepMerge : Definition :=
  withNames "deep_merge" ["m", "deep-merge"]
    ("If the data is an array, all children are merged into one from left to right. " ++
      "Otherwise this is a no-op.\n\nArrays are merged by recursively merging values at the " ++
      "same index. Nulls on the right-hand side are not merged.\n\nObjects are merged by " ++
      "creating a new object with all keys from the left and right value. Keys present on " ++
      "both sides are merged recursively.\n\nIn all other cases, the rightmost value is " ++
      "taken.")

def keys : Definition :=
  withNames "keys" ["k"]
    ("Transforms the data into an array of object keys which is empty if the top level " ++
      "value is not an object.")

def values : Definition :=
  withNames "values" ["v"]
    ("Transforms the data into an array of the array elements or object values, which is " ++
      "empty for any other value.")

def deleteKeys : Definition :=
  (withNames "delete_keys" ["d", "delete-keys"]
    "Deletes all keys of the top level object matching a regex.").addParameter
    (parameter "pattern" "A regex pattern to match the keys that should be deleted.")

def sort (settings : Settings) : Definition :=
  (withNames "sort" ["s"]
    ("Sorts collections (arrays and objects) recursively.\n\nOptionally accepts a " ++
      "`max_depth` which defines the upper bound for child collections to be visited and " ++
      "sorted. If `max_depth` is omitted, all child collections are sorted.")).addParameters
    [((Parameter.ofName "order").withFallback (.string settings.sortOrder)).withDescription
        "The sort order. Possible values are \"asc\" and \"desc\".",
      maxDepth "sorted"]

def arraysToObjects : Definition :=
  withNames "arrays_to_objects" ["ato", "arrays-to-objects"]
    "Recursively transforms all arrays into objects with the array index as key."

def eachKey : Definition :=
  (withNames "each_key" ["ek", "each-key"]
    "Applies an expression to every key of the top level object.").addParameter
    (expression "The transformation expression applied to each key.")

def eachValue : Definition :=
  (withNames "each_value" ["ev", "each-value"]
    ("Applies an expression to every element of the top level array or every value of the " ++
      "top level object.")).addParameter
    (expression "The transformation expression applied to each value.")

def visitKeys : Definition :=
  (withNames "visit_keys" ["vk", "visit-keys"]
    "Recursively applies an expression to all object keys.").addParameters
    [expression "The transformation expression applied to each key.", maxDepth "visited"]

def visitValues : Definition :=
  (withNames "visit_values" ["vv", "visit-values"]
    ("Recursively applies an expression to all values, children before their " ++
      "parents.")).addParameters
    [expression "The transformation expression applied to each value.", maxDepth "visited"]

def replaceString (settings : Settings) : Definition :=
  (withNames "replace_string" ["rs", "replace-string"]
    "Replaces regex matches in string values. Other values are left untouched.").addParameters
    [parameter "regex" "The regex pattern to search for.",
      parameter "replacement"
        "The replacement. Capture groups can be referenced as \\1 or \\g<name>.",
      ((Parameter.ofName "limit").withFallback
          (.number (.int settings.replaceLimit))).withDescription
        "Maximum number of replacements, 0 replaces all."]

def wrapArray : Definition :=
  withNames "wrap_array" ["wa", "wrap-array"] "Wraps the data in a one-element array."

def wrapObject : Definition :=
  (withNames "wrap_object" ["wo", "wrap-object"]
    "Wraps the data in an object with a single key.").addParameter
    (parameter "key" "The key of the wrapping object.")

def insert : Definition :=
  (withNames "insert" ["i"]
    ("Inserts a value into an object by key or into an array by index. Indices past the " ++
      "end append the value.")).addParameters
    [parameter "key_or_index"
        "The object key (a string) or array index (an unsigned integer).",
      parameter "value" "The value to insert."]

/-- The definitions of all transforms, with fallbacks from the settings. -/
def definitions (settings : Settings) : Registry :=
  [select, mutate, delete, remove, flatten, flattenKeys settings, expandKeys,
    removeEmptyValues, deepMerge, keys, values, deleteKeys, sort settings, arraysToObjects,
    eachKey, eachValue, visitKeys, visitValues, replaceString settings, wrapArray, wrapObject,
    insert]

end Reshape.Builtin
