import RuleChart.Json.Basic

namespace RuleChart

namespace Json

def hexDigit (value : Nat) : Char :=
  if value < 10 then Char.ofNat (48 + value) else Char.ofNat (87 + value)

/-- Only quotes, backslashes and characters below the blank are escaped. -/
def escaped (c : Char) : List Char :=
  if c = '"' then ['\\', '"']
  else if c = '\\' then ['\\', '\\']
  else if c = '\n' then ['\\', 'n']
  else if c = '\r' then ['\\', 'r']
  else if c = '\t' then ['\\', 't']
  else if c = '\x08' then ['\\', 'b']
  else if c = '\x0c' then ['\\', 'f']
  else if c.toNat < 32 then
    ['\\', 'u', '0', '0', hexDigit (c.toNat / 16), hexDigit (c.toNat % 16)]
  else [c]

def quoted (text : String) : List Char :=
  '"' :: text.toList.flatMap escaped ++ ['"']

mutual

def compactChars : Json → List Char
  | .null => ['n', 'u', 'l', 'l']
  | .bool true => ['t', 'r', 'u', 'e']
  | .bool false => ['f', 'a', 'l', 's', 'e']
  | .number value => value.jsonText.toList
  | .string value => quoted value
  | .array [] => ['[', ']']
  | .array (first :: rest) => '[' :: first.compactChars ++ compactItems rest
  | .object [] => ['\x7b', '\x7d']
  | .object ((name, value) :: rest) =>
      '\x7b' :: quoted name ++ ':' :: value.compactChars ++ compactFields rest

/-- The items behind the first, down to the closing bracket. -/
def compactItems : List Json → List Char
  | [] => [']']
  | item :: rest => ',' :: item.compactChars ++ compactItems rest

def compactFields : List (String × Json) → List Char
  | [] => ['\x7d']
  | (name, value) :: rest =>
      ',' :: quoted name ++ ':' :: value.compactChars ++ compactFields rest

end

def compact (value : Json) : String := String.ofList value.compactChars

/-- A line break and two blanks per level. -/
def newline (level : Nat) : List Char := '\n' :: List.replicate (2 * level) ' '

mutual

def indentedChars (level : Nat) : Json → List Char
  | .array [] => ['[', ']']
  | .array (first :: rest) =>
      '[' :: newline (level + 1) ++ first.indentedChars (level + 1) ++ indentedItems level rest
  | .object [] => ['\x7b', '\x7d']
  | .object ((name, value) :: rest) =>
      '\x7b' :: newline (level + 1) ++ quoted name ++ ':' :: ' ' ::
        value.indentedChars (level + 1) ++ indentedFields level rest
  | value => value.compactChars

def indentedItems (level : Nat) : List Json → List Char
  | [] => newline level ++ [']']
  | item :: rest =>
      ',' :: newline (level + 1) ++ item.indentedChars (level + 1) ++ indentedItems level rest

def indentedFields (level : Nat) : List (String × Json) → List Char
  | [] => newline level ++ ['\x7d']
  | (name, value) :: rest =>
      ',' :: newline (level + 1) ++ quoted name ++ ':' :: ' ' ::
        value.indentedChars (level + 1) ++ indentedFields level rest

end

def indented (value : Json) : String := String.ofList (value.indentedChars 0)

end Json

end RuleChart
