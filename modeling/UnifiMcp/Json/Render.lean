import UnifiMcp.Json.Value

/-!
# JSON as text

The two renderings `serde_json` has: `compact` is `to_string`, `pretty` is
`to_string_pretty` with its indentation by two blanks.  How a number is written is a
parameter, since the shortest decimal form of a double is not described here.
-/

namespace UnifiMcp

namespace Json

/-- The four hexadecimal digits of a control character's escape. -/
def controlEscape (c : Char) : String :=
  "\\u00" ++ String.ofList [Nat.digitChar (c.toNat / 16), Nat.digitChar (c.toNat % 16)]

/-- One character of a string literal. -/
def escapeChar (c : Char) : String :=
  if c = '"' then "\\\""
  else if c = '\\' then "\\\\"
  else if c = '\n' then "\\n"
  else if c = '\r' then "\\r"
  else if c = '\t' then "\\t"
  else if c.toNat = 8 then "\\b"
  else if c.toNat = 12 then "\\f"
  else if c.toNat < 32 then controlEscape c
  else String.singleton c

/-- A string literal. -/
def quoted (s : String) : String := "\"" ++ String.join (s.toList.map escapeChar) ++ "\""

variable (number : Number → String)

mutual

/-- The value on one line, without blanks. -/
def compact : Json → String
  | .null => "null"
  | .bool b => if b then "true" else "false"
  | .num n => number n
  | .str s => quoted s
  | .arr [] => "[]"
  | .arr (v :: items) => "[" ++ compact v ++ compactItems items ++ "]"
  | .obj [] => "\x7b\x7d"
  | .obj ((key, v) :: fields) =>
      "\x7b" ++ quoted key ++ ":" ++ compact v ++ compactFields fields ++ "\x7d"

/-- The items of an array after the first. -/
def compactItems : List Json → String
  | [] => ""
  | v :: items => "," ++ compact v ++ compactItems items

/-- The fields of an object after the first. -/
def compactFields : List (String × Json) → String
  | [] => ""
  | (key, v) :: fields => "," ++ quoted key ++ ":" ++ compact v ++ compactFields fields

end

/-- A new line, indented by `depth` steps. -/
def newline (depth : Nat) : String := "\n" ++ "".pushn ' ' (2 * depth)

mutual

/-- The value over several lines; `depth` is how far its last line is indented. -/
def pretty (depth : Nat) : Json → String
  | .null => "null"
  | .bool b => if b then "true" else "false"
  | .num n => number n
  | .str s => quoted s
  | .arr [] => "[]"
  | .arr (v :: items) =>
      "[" ++ newline (depth + 1) ++ pretty (depth + 1) v ++ prettyItems (depth + 1) items ++
        newline depth ++ "]"
  | .obj [] => "\x7b\x7d"
  | .obj ((key, v) :: fields) =>
      "\x7b" ++ newline (depth + 1) ++ quoted key ++ ": " ++ pretty (depth + 1) v ++
        prettyFields (depth + 1) fields ++ newline depth ++ "\x7d"

/-- The items of an array after the first. -/
def prettyItems (depth : Nat) : List Json → String
  | [] => ""
  | v :: items => "," ++ newline depth ++ pretty depth v ++ prettyItems depth items

/-- The fields of an object after the first. -/
def prettyFields (depth : Nat) : List (String × Json) → String
  | [] => ""
  | (key, v) :: fields =>
      "," ++ newline depth ++ quoted key ++ ": " ++ pretty depth v ++ prettyFields depth fields

end

end Json

end UnifiMcp
