import ShaderGraph.Json.Lexer

/-!
# Reading JSON

The words of a document are read from left to right. Containers that are not closed yet wait on
a stack, so the nesting of a document is bounded by nothing but its length.

* `Json.Frame`, `Json.Reader` — an unfinished container and the state of the reading.
* `Json.Reader.step` — the reaction to a word.
* `Json.ofTokens?`, `Json.parse?` — the document made of given words, or written in a text.
-/

namespace ShaderGraph.Json

/-- A container of which a part has been read; finished parts stand in reverse. -/
inductive Frame where
  | array (elements : List Json)
  | object (members : List (Option String × Json))
  /-- An object, with the key of the member at hand. -/
  | member (members : List (Option String × Json)) (key : Option String)

/-- What the next word may be. -/
inductive Reader.Expected where
  /-- A document. -/
  | value
  /-- The first element of an array, or its end. -/
  | firstElement
  /-- A comma in an array, or its end. -/
  | moreElements
  /-- The first key of an object, or its end. -/
  | firstKey
  /-- A key. -/
  | key
  /-- The colon after a key. -/
  | colon
  /-- A comma in an object, or its end. -/
  | moreMembers
  /-- Nothing: the document is complete. -/
  | nothing (document : Json)

/-- A document read in part. -/
structure Reader where
  /-- The unfinished containers, the innermost first. -/
  stack : List Frame := []
  expected : Reader.Expected := .value

namespace Reader

/-- Puts a finished value into the innermost container. -/
def close (value : Json) : List Frame → Option Reader
  | [] => some { expected := .nothing value }
  | .array elements :: stack =>
    some { stack := .array (value :: elements) :: stack, expected := .moreElements }
  | .member members key :: stack =>
    some { stack := .object ((key, value) :: members) :: stack, expected := .moreMembers }
  | .object _ :: _ => none

/-- Reads the first word of a value. -/
def value (stack : List Frame) : Token → Option Reader
  | .null => close .null stack
  | .bool b => close (.bool b) stack
  | .number literal => close (.number literal) stack
  | .string text? => close (.string text?) stack
  | .openArray => some { stack := .array [] :: stack, expected := .firstElement }
  | .openObject => some { stack := .object [] :: stack, expected := .firstKey }
  | _ => none

/-- Ends the innermost container, an array. -/
def endArray : List Frame → Option Reader
  | .array elements :: stack => close (.array elements.reverse) stack
  | _ => none

/-- Ends the innermost container, an object. -/
def endObject : List Frame → Option Reader
  | .object members :: stack => close (.object members.reverse) stack
  | _ => none

/-- Reads a key of the innermost container, an object. -/
def key (stack : List Frame) : Token → Option Reader
  | .string text? =>
    match stack with
    | .object members :: rest =>
      some { stack := .member members text? :: rest, expected := .colon }
    | _ => none
  | _ => none

/-- Reads one word. -/
def step (r : Reader) (token : Token) : Option Reader :=
  match r.expected with
  | .value => value r.stack token
  | .firstElement => if token = .closeArray then endArray r.stack else value r.stack token
  | .moreElements =>
    if token = .closeArray then endArray r.stack
    else if token = .comma then some { r with expected := .value }
    else none
  | .firstKey => if token = .closeObject then endObject r.stack else key r.stack token
  | .key => key r.stack token
  | .colon => if token = .colon then some { r with expected := .value } else none
  | .moreMembers =>
    if token = .closeObject then endObject r.stack
    else if token = .comma then some { r with expected := .key }
    else none
  | .nothing _ => none

/-- Reads the words of a text. -/
def run (r : Reader) : List Token → Option Reader
  | [] => some r
  | token :: tokens =>
    match r.step token with
    | some next => next.run tokens
    | none => none

/-- The document, if it is complete. -/
def document? (r : Reader) : Option Json :=
  match r.expected with
  | .nothing document => some document
  | _ => none

end Reader

/-- The document that consists of the given words. -/
def ofTokens? (tokens : List Token) : Option Json :=
  (({} : Reader).run tokens).bind (·.document?)

/-- The document that is written in a text. -/
def parse? (text : String) : Option Json := (tokenize text.toList).bind ofTokens?

end ShaderGraph.Json
