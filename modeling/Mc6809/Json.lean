/-
  JSON values: their tokens, their text, and reading a text back.

  Reading runs over the tokens with a stack of the arrays and objects that are still
  open, so nesting has no limit. An object keeps its members in the order in which they
  are written, repeated names included; what a repetition means is up to the reader.
-/
import Mc6809.Json.Token

namespace Mc6809

/-- A JSON value. Names and strings may be without a text, as the token says. -/
inductive Json where
  | null
  | bool (value : Bool)
  | natural (value : Nat)
  | number (lexeme : String)
  | string (text : Option String)
  | array (items : List Json)
  | object (members : List (Option String × Json))
deriving Repr

namespace Json

/-! ## Writing -/

mutual

/-- The tokens of a value. -/
def tokens : Json → List Token
  | null => [.null]
  | bool value => [.bool value]
  | natural value => [.natural value]
  | number lexeme => [.number lexeme]
  | string text => [.string text]
  | array items => .openBracket :: itemTokens items
  | object members => .openBrace :: memberTokens members

/-- The tokens of the items of an array and of its end. -/
def itemTokens : List Json → List Token
  | [] => [.closeBracket]
  | [item] => item.tokens ++ [.closeBracket]
  | item :: items => item.tokens ++ .comma :: itemTokens items

/-- The tokens of the members of an object and of its end. -/
def memberTokens : List (Option String × Json) → List Token
  | [] => [.closeBrace]
  | [(name, value)] => .string name :: .colon :: value.tokens ++ [.closeBrace]
  | (name, value) :: members =>
    .string name :: .colon :: value.tokens ++ .comma :: memberTokens members

end

/-- A character inside a string. -/
def quoteChar (c : Char) : List Char :=
  if c = '"' then ['\\', '"']
  else if c = '\\' then ['\\', '\\']
  else if c.toNat < 32 then '\\' :: 'u' :: (Hex.padded 4 c.toNat).toList
  else [c]

/-- The shortest way to write a token. A string without a text is written as one half of a
surrogate pair. -/
def Token.text : Token → String
  | .openBrace => "\x7b"
  | .closeBrace => "\x7d"
  | .openBracket => "["
  | .closeBracket => "]"
  | .colon => ":"
  | .comma => ","
  | .null => "null"
  | .bool true => "true"
  | .bool false => "false"
  | .natural value => toString value
  | .number lexeme => lexeme
  | .string (some text) => "\"" ++ String.ofList (text.toList.flatMap quoteChar) ++ "\""
  | .string none => "\"\\uD800\""

/-- The text of a value without blanks. -/
def text (json : Json) : String := String.join (json.tokens.map Token.text)

/-- An object of members with proper names. -/
def record (members : List (String × Json)) : Json :=
  object (members.map fun member => (some member.1, member.2))

/-! ## Reading -/

/-- An array or object that is still open, with its finished parts, latest first. -/
inductive Frame where
  | array (items : List Json)
  | member (members : List (Option String × Json)) (name : Option String)

/-- What may come next, inside the open frames, innermost first. -/
inductive State where
  /-- A value. -/
  | value (frames : List Frame)
  /-- The first item of an array, or its end. -/
  | firstItem (frames : List Frame)
  /-- The first name of an object, or its end. -/
  | firstName (frames : List Frame)
  /-- A name. -/
  | name (frames : List Frame) (members : List (Option String × Json))
  /-- The colon after a name. -/
  | colon (frames : List Frame) (members : List (Option String × Json)) (name : Option String)
  /-- What follows a finished value: a comma or an end, or nothing if no frame is open. -/
  | after (frames : List Frame) (value : Json)

namespace State

/-- A value starts with this token. -/
def startValue? (frames : List Frame) : Token → Option State
  | .null => some (after frames .null)
  | .bool b => some (after frames (.bool b))
  | .natural n => some (after frames (.natural n))
  | .number lexeme => some (after frames (.number lexeme))
  | .string text => some (after frames (.string text))
  | .openBracket => some (firstItem frames)
  | .openBrace => some (firstName frames)
  | _ => none

/-- The state after one more token, `none` if the token may not come here. -/
def next? : State → Token → Option State
  | value frames, token => startValue? frames token
  | firstItem frames, .closeBracket => some (after frames (.array []))
  | firstItem frames, token => startValue? (.array [] :: frames) token
  | firstName frames, .closeBrace => some (after frames (.object []))
  | firstName frames, .string text => some (colon frames [] text)
  | name frames members, .string text => some (colon frames members text)
  | colon frames members text, .colon => some (value (.member members text :: frames))
  | after (.array items :: frames) item, .comma => some (value (.array (item :: items) :: frames))
  | after (.array items :: frames) item, .closeBracket =>
    some (after frames (.array (item :: items).reverse))
  | after (.member members text :: frames) item, .comma =>
    some (name frames ((text, item) :: members))
  | after (.member members text :: frames) item, .closeBrace =>
    some (after frames (.object ((text, item) :: members).reverse))
  | _, _ => none

end State

/-- The value that a list of tokens writes, all of it. -/
def ofTokens? (tokens : List Token) : Option Json :=
  match tokens.foldlM State.next? (.value []) with
  | some (.after [] json) => some json
  | _ => none

/-- The value that a text writes, all of it. -/
def parse? (text : String) : Option Json := (scan? text.toList).bind ofTokens?

/-! ## Taking values apart -/

/-- The value of a member that occurs exactly once. -/
def unique? (members : List (String × Json)) (name : String) : Option Json :=
  match members.filter (·.1 = name) with
  | [member] => some member.2
  | _ => none

/-- The fields of a record in the order of `names`: from an object that has each of them
exactly once, where other members do not matter, or from an array of just these fields. -/
def fields? (names : List String) : Json → Option (List Json)
  | object members => do
    let members ← members.mapM fun member => member.1.map (·, member.2)
    names.mapM (unique? members)
  | array items => if items.length = names.length then some items else none
  | _ => none

/-- A truth value. -/
def bool? : Json → Option Bool
  | bool value => some value
  | _ => none

/-- A number below a limit that is written with digits alone. -/
def below? (limit : Nat) : Json → Option Nat
  | natural value => if value < limit then some value else none
  | _ => none

def uint8? (json : Json) : Option UInt8 := (json.below? UInt8.size).map UInt8.ofNat

def uint16? (json : Json) : Option UInt16 := (json.below? UInt16.size).map UInt16.ofNat

def uint64? (json : Json) : Option UInt64 := (json.below? UInt64.size).map UInt64.ofNat

end Json

end Mc6809
