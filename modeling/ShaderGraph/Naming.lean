import ShaderGraph.Unicode.CaseMapping
import ShaderGraph.Unicode.Alphabetic

/-!
# Names in generated code

Host names are free text; names in generated code are identifiers. Three rules lead from the
first to the second:

* `camelCase` — drops the underscores of a name. The first character is lower-cased, and every
  component after the first is title-cased.
* `variableName` — the variable of a socket: an underscore and the camel case of the socket's
  name. A name that already has this form gets a second underscore, so a variable never has
  the name of its socket.
* `identifier` — keeps the letters, digits and underscores of ASCII and replaces everything else
  by an underscore.

A node output lives in a local variable, whose name `localName` joins the identifier of the node
and the variable of the socket.
-/

namespace ShaderGraph.Naming

/-! ### Camel case -/

/-- Lower-cases the first character. -/
def lowerFirst : List Char → List Char
  | [] => []
  | c :: cs => Unicode.toLower c ++ cs

/-- Title-cases the components of a text and joins them without their underscores. A letter is
    upper-cased unless it directly follows a letter of its component; `afterLetter` tells
    whether one precedes. -/
def titleCase (afterLetter : Bool) : List Char → List Char
  | [] => []
  | c :: cs =>
    if c = '_' then titleCase false cs
    else if Unicode.isAlphabetic c then
      (if afterLetter then Unicode.toLower c else Unicode.toUpper c) ++ titleCase true cs
    else c :: titleCase false cs

/-- The camel case of a text: its first component as it is, the others title-cased. -/
def camelCaseChars (name : List Char) : List Char :=
  let lowered := lowerFirst name
  lowered.takeWhile (· ≠ '_') ++ titleCase false (lowered.dropWhile (· ≠ '_'))

/-- The camel case of a name. -/
def camelCase (name : String) : String := String.ofList (camelCaseChars name.toList)

/-- The characters of a name in camel case. -/
@[simp] theorem toList_camelCase (name : String) :
    (camelCase name).toList = camelCaseChars name.toList := by
  simp [camelCase]

/-! ### Variables -/

/-- The variable that stands for a socket in generated code. -/
def variableName (socket : String) : String :=
  let name := "_" ++ camelCase socket
  if name = socket then "_" ++ name else name

/-! ### Identifiers -/

/-- Whether a character may stand in an identifier. -/
def isIdentifierChar (c : Char) : Bool := c.isAlphanum || c == '_'

/-- The name with an underscore in place of every character that no identifier may hold. -/
def replaceForeign (name : List Char) : List Char :=
  name.map fun c => if isIdentifierChar c then c else '_'

/-- A name as an identifier. An underscore is put in front where nothing or a digit would
    stand first. -/
def identifierChars (name : List Char) : List Char :=
  let chars := replaceForeign name
  if chars.head?.all Char.isDigit then '_' :: chars else chars

/-- A name as an identifier. -/
def identifier (name : String) : String := String.ofList (identifierChars name.toList)

/-- The characters of a name as an identifier. -/
@[simp] theorem toList_identifier (name : String) :
    (identifier name).toList = identifierChars name.toList := by
  simp [identifier]

/-- The local variable of the entry function that holds the output `socket` of a node. -/
def localName (node socket : String) : String := identifier node ++ variableName socket

end ShaderGraph.Naming
