import WatMachine.Text.Quoted

/-!
# JSON documents

A JSON tree keeps the order of the members of its objects.  It is written
either in one line without blanks or over several lines with two blanks of
indentation for every level.
-/

namespace WatMachine

/-- A JSON tree of whole numbers, texts, lists and objects. -/
inductive JsonValue where
  | number (value : Int)
  | text (value : String)
  | list (items : List JsonValue)
  | object (members : List (String × JsonValue))
  deriving Repr, Inhabited

namespace JsonValue

/-- Four hexadecimal digits of a code point below U+10000. -/
def fourDigits (code : Nat) : String :=
  let digits := Text.hexDigits code
  String.ofList (List.replicate (4 - digits.length) '0') ++ digits

/-- How one character is written inside a JSON text. -/
def writeChar (c : Char) : String :=
  if c = '"' then "\\\""
  else if c = '\\' then "\\\\"
  else if c = '\x08' then "\\b"
  else if c = '\x0c' then "\\f"
  else if c = '\n' then "\\n"
  else if c = '\r' then "\\r"
  else if c = '\t' then "\\t"
  else if c.toNat < 0x20 then "\\u" ++ fourDigits c.toNat
  else c.toString

/-- A text between quotation marks. -/
def writeText (text : String) : String :=
  "\"" ++ String.join (text.toList.map writeChar) ++ "\""

mutual

/-- A JSON tree in one line. -/
def compact : JsonValue → String
  | number value => toString value
  | text value => writeText value
  | list items => "[" ++ ",".intercalate (compactItems items) ++ "]"
  | object members => "\x7b" ++ ",".intercalate (compactMembers members) ++ "\x7d"

/-- The items of a list, each in one line. -/
def compactItems : List JsonValue → List String
  | [] => []
  | item :: items => item.compact :: compactItems items

/-- The members of an object, each in one line. -/
def compactMembers : List (String × JsonValue) → List String
  | [] => []
  | (key, value) :: members =>
      (writeText key ++ ":" ++ value.compact) :: compactMembers members

end

/-- A new line at a level of indentation. -/
def newline (level : Nat) : String :=
  "\n" ++ String.ofList (List.replicate (2 * level) ' ')

/-- Parts on lines of their own, one level further in, between two marks. -/
def enclose (level : Nat) (opening closing : String) : List String → String
  | [] => opening ++ closing
  | parts =>
      opening ++ newline (level + 1) ++
        ("," ++ newline (level + 1)).intercalate parts ++ newline level ++ closing

mutual

/-- A JSON tree over several lines, from a level of indentation on. -/
def pretty (level : Nat) : JsonValue → String
  | number value => toString value
  | text value => writeText value
  | list items => enclose level "[" "]" (prettyItems (level + 1) items)
  | object members => enclose level "\x7b" "\x7d" (prettyMembers (level + 1) members)

/-- The items of a list, each over several lines. -/
def prettyItems (level : Nat) : List JsonValue → List String
  | [] => []
  | item :: items => item.pretty level :: prettyItems level items

/-- The members of an object, each over several lines. -/
def prettyMembers (level : Nat) : List (String × JsonValue) → List String
  | [] => []
  | (key, value) :: members =>
      (writeText key ++ ": " ++ value.pretty level) :: prettyMembers level members

end

end JsonValue

end WatMachine
