/-!
# JSON values

JSON documents as they are written: the members of an object keep their order and may repeat a
key, and a number keeps its literal, whatever its size.

A string literal may escape one half of a surrogate pair without the other. Such a literal is
well formed and spells no text; it is kept as `none`.

* `Json` — documents.
* `Json.text?`, `Json.bool?`, `Json.natural?`, `Json.list?` — a document as a value of a simpler
  type.
* `Json.Token` — the words of a document.
-/

namespace ShaderGraph

/-- A JSON document. -/
inductive Json where
  | null
  | bool (value : Bool)
  | number (literal : String)
  | string (text? : Option String)
  | array (elements : List Json)
  | object (members : List (Option String × Json))
deriving Inhabited

namespace Json

/-- The document that is a text. -/
def ofText (text : String) : Json := string (some text)

/-- The document that is a natural number. -/
def ofNat (n : Nat) : Json := number (toString n)

/-- The object with these members. -/
def ofMembers (members : List (String × Json)) : Json :=
  object (members.map fun (key, value) => (some key, value))

/-- A string that spells a text, as that text. -/
def text? : Json → Option String
  | string text? => text?
  | _ => none

/-- A truth value. -/
def bool? : Json → Option Bool
  | bool value => some value
  | _ => none

/-- A number written with digits only, as a natural number. -/
def natural? : Json → Option Nat
  | number literal =>
    if literal.toList.all Char.isDigit then
      some (literal.toList.foldl (fun n c => 10 * n + (c.toNat - '0'.toNat)) 0)
    else
      none
  | _ => none

/-- An array whose elements can all be read by `read`, as the list of their values. -/
def list? {α : Type} (read : Json → Option α) : Json → Option (List α)
  | array elements => elements.mapM read
  | _ => none

/-- A word of a document. -/
inductive Token where
  | openArray
  | closeArray
  | openObject
  | closeObject
  | comma
  | colon
  | null
  | bool (value : Bool)
  | number (literal : String)
  | string (text? : Option String)
deriving DecidableEq, Repr

end Json

end ShaderGraph
