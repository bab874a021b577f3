import ShaderGraph.Json.Basic

/-!
# Printing JSON

Documents are printed without blanks.

* `Json.tokens` — the words of a document.
* `Json.Token.chars` — the spelling of a word. In strings the quotation mark, the backslash and the
  control characters are escaped, with the short escapes where there are any.
* `Json.render` — the text of a document.
-/

namespace ShaderGraph.Json

/-! ### Words -/

mutual

/-- The words of a document. -/
def tokens : Json → List Token
  | null => [.null]
  | bool value => [.bool value]
  | number literal => [.number literal]
  | string text? => [.string text?]
  | array elements => .openArray :: (elementTokens elements ++ [.closeArray])
  | object members => .openObject :: (memberTokens members ++ [.closeObject])

/-- The words of the elements of an array. -/
def elementTokens : List Json → List Token
  | [] => []
  | element :: elements => element.tokens ++ furtherElementTokens elements

/-- The words of the elements that follow another. -/
def furtherElementTokens : List Json → List Token
  | [] => []
  | element :: elements => .comma :: (element.tokens ++ furtherElementTokens elements)

/-- The words of the members of an object. -/
def memberTokens : List (Option String × Json) → List Token
  | [] => []
  | (key, value) :: members =>
    .string key :: .colon :: (value.tokens ++ furtherMemberTokens members)

/-- The words of the members that follow another. -/
def furtherMemberTokens : List (Option String × Json) → List Token
  | [] => []
  | (key, value) :: members =>
    .comma :: .string key :: .colon :: (value.tokens ++ furtherMemberTokens members)

end

/-! ### Spelling -/

/-- The lower-case hexadecimal digit of a number below 16. -/
def hexDigit (n : Nat) : Char :=
  if n < 10 then Char.ofNat ('0'.toNat + n) else Char.ofNat ('a'.toNat + (n - 10))

/-- The spelling of a character inside of a string literal. -/
def escape (c : Char) : List Char :=
  match c with
  | '\x22' => ['\\', '\x22']
  | '\\' => ['\\', '\\']
  | '\x08' => ['\\', 'b']
  | '\x0c' => ['\\', 'f']
  | '\n' => ['\\', 'n']
  | '\r' => ['\\', 'r']
  | '\t' => ['\\', 't']
  | c =>
    if c.toNat < 0x20 then ['\\', 'u', '0', '0', hexDigit (c.toNat / 16), hexDigit (c.toNat % 16)]
    else [c]

namespace Token

/-- The spelling of a word. A string without a text is spelt as half of a surrogate pair. -/
def chars : Token → List Char
  | openArray => ['[']
  | closeArray => [']']
  | openObject => ['\x7b']
  | closeObject => ['\x7d']
  | comma => [',']
  | colon => [':']
  | null => ['n', 'u', 'l', 'l']
  | bool true => ['t', 'r', 'u', 'e']
  | bool false => ['f', 'a', 'l', 's', 'e']
  | number literal => literal.toList
  | string (some text) => '\x22' :: (text.toList.flatMap escape ++ ['\x22'])
  | string none => ['\x22', '\\', 'u', 'd', '8', '0', '0', '\x22']

end Token

/-- The text of a document. -/
def render (document : Json) : String :=
  String.ofList (document.tokens.flatMap Token.chars)

end ShaderGraph.Json
