import OutlineServer.Json.Basic

/-!
# Summaries of arguments

The audit log describes the arguments of a call without their content: a text by its length, a list
by its number of items, an object by its keys.  Numbers, truth values and null are kept, and so are
the texts under a few keys that name things rather than hold content.  The description of a key
stands under names made from the key; when two keys lead to one name, the description of the key
that is later in order stays.
-/
namespace OutlineServer

/-- An argument of a call: a JSON value, or a value of some other type that is known by name. -/
inductive Argument where
  | json (value : Json)
  | foreign (typeName : Text)

namespace Argument

def verbatimKeys : List Text := ["doc_id", "strategy", "since"]

def textKey : Text := "text"

/-- The number of lines of a text by its line feeds; the empty text has none. -/
def lineCount (t : Text) : Nat :=
  if t.isEmpty then 0 else t.count CodePoint.lineFeed + 1

def presentName (key : Text) : Text := key ++ ("_present" : Text)

def lengthName (key : Text) : Text := key ++ ("_length" : Text)

def lineCountName (key : Text) : Text := key ++ ("_line_count" : Text)

def typeName (key : Text) : Text := key ++ ("_type" : Text)

def keysName (key : Text) : Text := key ++ ("_keys" : Text)

def describeText (key t : Text) : List (Text × Json) :=
  if verbatimKeys.contains key then [(key, .str t)]
  else if key = textKey then
    [(presentName key, .bool true), (lengthName key, .nat t.length),
      (lineCountName key, .nat (lineCount t))]
  else [(presentName key, .bool true), (lengthName key, .nat t.length)]

def describe (key : Text) : Argument → List (Text × Json)
  | .json (.str t) => describeText key t
  | .json (.arr items) => [(typeName key, .str "list"), (lengthName key, .nat items.length)]
  | .json (.obj fields) =>
    [(typeName key, .str "dict"), (keysName key, .strings (Keyed.keys fields))]
  | .json value => [(key, value)]
  | .foreign name => [(typeName key, .str name)]

def summary (arguments : Keyed Argument) : Fields :=
  Keyed.ofList (arguments.flatMap (fun (key, argument) => argument.describe key))

end Argument

def Fields.summary (fields : Fields) : Fields :=
  Argument.summary (fields.map (fun (key, value) => (key, .json value)))

end OutlineServer
