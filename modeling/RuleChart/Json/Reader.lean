import RuleChart.Json.Basic

namespace RuleChart

/-! Reading JSON text.

Every reader works on the characters still to be read and returns what it leaves,
which is shorter.  A fault is placed by the number of characters that were left.

Strings here are made of Unicode scalar values, so an escape for one half of a surrogate pair has
no value, and neither has what holds it.  A text without faults that has no value, or one with an
integer of more digits than are followed, is not malformed: it is beyond the reader, which says
so and finds no other value in it.
-/

inductive JsonFault where
  | byteOrderMark
  | missingValue
  | missingName
  | missingColon
  | missingComma
  | unclosedString
  | controlCharacter
  | unknownEscape
  | brokenCodeEscape
  | extraData
deriving DecidableEq, Repr

def JsonFault.message : JsonFault → String
  | .byteOrderMark => "Unexpected UTF-8 BOM (decode using utf-8-sig)"
  | .missingValue => "Expecting value"
  | .missingName => "Expecting property name enclosed in double quotes"
  | .missingColon => "Expecting ':' delimiter"
  | .missingComma => "Expecting ',' delimiter"
  | .unclosedString => "Unterminated string starting at"
  | .controlCharacter => "Invalid control character at"
  | .unknownEscape => "Invalid \\escape"
  | .brokenCodeEscape => "Invalid \\uXXXX escape"
  | .extraData => "Extra data"

/-- What a text may hold that a reader has no value for. -/
inductive JsonGap where
  | unpairedSurrogate
  | longInteger
deriving DecidableEq, Repr

def JsonGap.message : JsonGap → String
  | .unpairedSurrogate => "unpaired surrogate in a string"
  | .longInteger => "integer with too many digits"

inductive JsonError where
  | malformed (fault : JsonFault) (remaining : Nat)
  | tooDeep
  | beyond (gap : JsonGap)
deriving DecidableEq, Repr

/-- How far a reader follows a text: so many containers in one another, and integers of so many
digits. -/
structure JsonLimits where
  nesting : Nat
  digits : Option Nat

/-- What a reader found, if that has a value, and what it left of `text`. -/
structure Scan (α : Type) (text : List Char) where
  value : Option α
  rest : List Char
  shorter : rest.length < text.length

abbrev JsonReader (α : Type) := (text : List Char) → Except JsonError (Scan α text)

namespace Json

def isBlank (c : Char) : Bool := c == ' ' || c == '\t' || c == '\n' || c == '\r'

def skipBlanks (text : List Char) : List Char := text.dropWhile isBlank

theorem dropWhile_length (keep : Char → Bool) (text : List Char) :
    (text.dropWhile keep).length ≤ text.length :=
  (List.dropWhile_sublist keep).length_le

theorem skipBlanks_length (text : List Char) : (skipBlanks text).length ≤ text.length :=
  dropWhile_length isBlank text

def isDigit (c : Char) : Bool := '0' ≤ c && c ≤ '9'

def ofDigits (digits : List Char) : Nat :=
  digits.foldl (fun value c => 10 * value + (c.toNat - 48)) 0

/-- The digits before the point: a zero alone, or a run that starts with no zero. -/
def wholeDigits? : List Char → Option (List Char × List Char)
  | '0' :: rest => some (['0'], rest)
  | c :: rest =>
      if isDigit c then some (c :: rest.takeWhile isDigit, rest.dropWhile isDigit) else none
  | [] => none

/-- The digits behind a point, if any stand there. -/
def fractionDigits (text : List Char) : List Char × List Char :=
  match text with
  | '.' :: rest =>
      match rest.takeWhile isDigit with
      | [] => ([], text)
      | digits => (digits, rest.dropWhile isDigit)
  | _ => ([], text)

def leadingSign : List Char → Bool × List Char
  | '-' :: rest => (true, rest)
  | '+' :: rest => (false, rest)
  | text => (false, text)

/-- The exponent, if a complete one stands there. -/
def exponentPart (text : List Char) : Option Int × List Char :=
  match text with
  | c :: rest =>
      if c = 'e' ∨ c = 'E' then
        let (negative, unsigned) := leadingSign rest
        match unsigned.takeWhile isDigit with
        | [] => (none, text)
        | digits =>
            let power : Int := ofDigits digits
            (some (if negative then -power else power), unsigned.dropWhile isDigit)
      else (none, text)
  | [] => (none, text)

/-- A number without fraction and exponent is an exact integer, any other a double. -/
def unsignedNumber? (negative : Bool) (text : List Char) : Option (Number × List Char) :=
  match wholeDigits? text with
  | none => none
  | some (whole, afterWhole) =>
      let (fraction, afterFraction) := fractionDigits afterWhole
      let (exponent, rest) := exponentPart afterFraction
      if fraction.isEmpty ∧ exponent.isNone then
        let magnitude : Int := ofDigits whole
        some (.int (if negative then -magnitude else magnitude), rest)
      else
        let digits := ofDigits (whole ++ fraction)
        some (.float (Number.nearestFloat negative digits (exponent.getD 0 - fraction.length)),
          rest)

theorem wholeDigits?_shorter {text : List Char} {digits rest : List Char}
    (found : wholeDigits? text = some (digits, rest)) : rest.length < text.length := by
  unfold wholeDigits? at found
  split at found
  · cases found
    simp
  · split at found
    · cases found
      have dropped := dropWhile_length isDigit ‹List Char›
      simp only [List.length_cons]
      omega
    · cases found
  · cases found

theorem fractionDigits_length (text : List Char) :
    (fractionDigits text).2.length ≤ text.length := by
  unfold fractionDigits
  split
  · rename_i rest
    have dropped := dropWhile_length isDigit rest
    split
    · exact Nat.le_refl _
    · simp only [List.length_cons]
      omega
  · exact Nat.le_refl _

theorem leadingSign_length (text : List Char) : (leadingSign text).2.length ≤ text.length := by
  unfold leadingSign
  split <;> simp

theorem exponentPart_length (text : List Char) :
    (exponentPart text).2.length ≤ text.length := by
  unfold exponentPart
  split
  · rename_i c rest
    have signed := leadingSign_length rest
    have dropped := dropWhile_length isDigit (leadingSign rest).2
    split
    · dsimp only
      split
      · exact Nat.le_refl _
      · simp only [List.length_cons]
        omega
    · exact Nat.le_refl _
  · exact Nat.le_refl _

theorem unsignedNumber?_shorter {negative : Bool} {text rest : List Char} {number : Number}
    (found : unsignedNumber? negative text = some (number, rest)) :
    rest.length < text.length := by
  unfold unsignedNumber? at found
  split at found
  · cases found
  · rename_i whole afterWhole wholeFound
    have wholeShorter := wholeDigits?_shorter wholeFound
    have fractionBound := fractionDigits_length afterWhole
    have exponentBound := exponentPart_length (fractionDigits afterWhole).2
    dsimp only at found
    split at found <;> cases found <;> omega

/-- A number, or one of the three values without digits. -/
def number? (text : List Char) : Option (Number × List Char) :=
  match text with
  | 'N' :: 'a' :: 'N' :: rest => some (.float (0 / 0), rest)
  | 'I' :: 'n' :: 'f' :: 'i' :: 'n' :: 'i' :: 't' :: 'y' :: rest => some (.float (1 / 0), rest)
  | '-' :: 'I' :: 'n' :: 'f' :: 'i' :: 'n' :: 'i' :: 't' :: 'y' :: rest =>
      some (.float (-1 / 0), rest)
  | '-' :: rest => unsignedNumber? true rest
  | _ => unsignedNumber? false text

theorem number?_shorter {text rest : List Char} {number : Number}
    (found : number? text = some (number, rest)) : rest.length < text.length := by
  unfold number? at found
  split at found
  iterate 3
    cases found
    simp only [List.length_cons]
    omega
  · have shorter := unsignedNumber?_shorter found
    simp only [List.length_cons]
    omega
  · exact unsignedNumber?_shorter found

/-- Whether an integer has more digits than are read. -/
def overlong (digits : Option Nat) : Number → Bool
  | .int value => digits.any (fun limit => Nat.pow 10 limit ≤ value.natAbs)
  | .float _ => false

def hexValue? (c : Char) : Option Nat :=
  if '0' ≤ c ∧ c ≤ '9' then some (c.toNat - 48)
  else if 'a' ≤ c ∧ c ≤ 'f' then some (c.toNat - 87)
  else if 'A' ≤ c ∧ c ≤ 'F' then some (c.toNat - 55)
  else none

/-- The code unit written as four hexadecimal digits. -/
def codeUnit? (a b c d : Char) : Option Nat :=
  match hexValue? a, hexValue? b, hexValue? c, hexValue? d with
  | some a, some b, some c, some d => some (((a * 16 + b) * 16 + c) * 16 + d)
  | _, _, _, _ => none

def isHighSurrogate (unit : Nat) : Bool := 0xD800 ≤ unit && unit ≤ 0xDBFF

def isLowSurrogate (unit : Nat) : Bool := 0xDC00 ≤ unit && unit ≤ 0xDFFF

def surrogatePair (high low : Nat) : Char :=
  Char.ofNat (0x10000 + (high - 0xD800) * 1024 + (low - 0xDC00))

def simpleEscape? : Char → Option Char
  | '"' => some '"'
  | '\\' => some '\\'
  | '/' => some '/'
  | 'b' => some '\x08'
  | 'f' => some '\x0c'
  | 'n' => some '\n'
  | 'r' => some '\r'
  | 't' => some '\t'
  | _ => none

/-- The code escape that starts behind `\u`.  A character must follow its four digits,
and behind a high surrogate a second escape is tried if it, too, is followed by one.  A surrogate
that is left alone is no character. -/
def codeEscape (text : List Char) : Except JsonError (Option Char × List Char) :=
  match text with
  | a :: b :: c :: d :: rest =>
      match rest, codeUnit? a b c d with
      | [], _ => .error (.malformed .brokenCodeEscape (text.length + 1))
      | _, none => .error (.malformed .brokenCodeEscape (text.length + 1))
      | _, some unit =>
          if isHighSurrogate unit then
            match rest with
            | '\\' :: 'u' :: e :: f :: g :: h :: next :: more =>
                match codeUnit? e f g h with
                | none => .error (.malformed .brokenCodeEscape (rest.length - 1))
                | some second =>
                    if isLowSurrogate second then
                      .ok (some (surrogatePair unit second), next :: more)
                    else .ok (none, rest)
            | _ => .ok (none, rest)
          else if isLowSurrogate unit then .ok (none, rest)
          else .ok (some (Char.ofNat unit), rest)
  | _ => .error (.malformed .brokenCodeEscape (text.length + 1))

theorem codeEscape_shorter {text rest : List Char} {c : Option Char}
    (found : codeEscape text = .ok (c, rest)) : rest.length < text.length := by
  unfold codeEscape at found
  repeat' split at found
  all_goals simp only [Except.ok.injEq, Prod.mk.injEq, reduceCtorEq] at found
  all_goals obtain ⟨_, rfl⟩ := found
  all_goals simp only [List.length_cons]; omega

/-- The escape behind a backslash.  `opening` is what was left at the quote that opened
the string. -/
def escape (opening : Nat) (text : List Char) : Except JsonError (Option Char × List Char) :=
  match text with
  | [] => .error (.malformed .unclosedString opening)
  | c :: rest =>
      if c = 'u' then codeEscape rest
      else
        match simpleEscape? c with
        | some plain => .ok (some plain, rest)
        | none => .error (.malformed .unknownEscape (text.length + 1))

theorem escape_shorter {opening : Nat} {text rest : List Char} {c : Option Char}
    (found : escape opening text = .ok (c, rest)) : rest.length < text.length := by
  unfold escape at found
  split at found
  · cases found
  · split at found
    · have shorter := codeEscape_shorter found
      simp only [List.length_cons]
      omega
    · split at found
      · cases found
        simp
      · cases found

/-- The characters of a string up to its closing quote.  `opening` is what was left at
its opening quote. -/
def stringBody (opening : Nat) (text : List Char) :
    Except JsonError (Scan (List Char) text) :=
  match text with
  | [] => .error (.malformed .unclosedString opening)
  | c :: rest =>
      if c = '"' then .ok ⟨some [], rest, by simp⟩
      else if c = '\\' then
        match found : escape opening rest with
        | .error error => .error error
        | .ok (plain, more) =>
            have shorter := escape_shorter found
            match stringBody opening more with
            | .error error => .error error
            | .ok ⟨value, left, leftShorter⟩ =>
                .ok ⟨List.cons <$> plain <*> value, left, by
                  simp only [List.length_cons]
                  omega⟩
      else if c.toNat < 32 then .error (.malformed .controlCharacter (rest.length + 1))
      else
        match stringBody opening rest with
        | .error error => .error error
        | .ok ⟨value, left, leftShorter⟩ =>
            .ok ⟨List.cons c <$> value, left, by simp only [List.length_cons]; omega⟩
termination_by text.length

/-- A string, from its opening quote. -/
def readString : JsonReader String
  | '"' :: rest =>
      match stringBody (rest.length + 1) rest with
      | .error error => .error error
      | .ok ⟨value, left, shorter⟩ =>
          .ok ⟨String.ofList <$> value, left, by simp only [List.length_cons]; omega⟩
  | text => .error (.malformed .missingName text.length)

/-- The items from the first one to the closing bracket. -/
def readItems (readItem : JsonReader Json) : JsonReader (List Json) := fun text =>
  match readItem text with
  | .error error => .error error
  | .ok ⟨first, afterFirst, firstShorter⟩ =>
      have blanks := skipBlanks_length afterFirst
      match separator : skipBlanks afterFirst with
      | ']' :: rest =>
          .ok ⟨(fun item => [item]) <$> first, rest, by
            simp only [separator, List.length_cons] at blanks
            omega⟩
      | ',' :: rest =>
          have moreBlanks := skipBlanks_length rest
          have restShorter : (skipBlanks rest).length < text.length := by
            simp only [separator, List.length_cons] at blanks
            omega
          match readItems readItem (skipBlanks rest) with
          | .error error => .error error
          | .ok ⟨others, left, othersShorter⟩ =>
              .ok ⟨List.cons <$> first <*> others, left, by omega⟩
      | other => .error (.malformed .missingComma other.length)
termination_by text => text.length

/-- The fields from the first name to the closing brace. -/
def readFields (readItem : JsonReader Json) : JsonReader (List (String × Json)) := fun text =>
  match readString text with
  | .error error => .error error
  | .ok ⟨name, afterName, nameShorter⟩ =>
      have nameBlanks := skipBlanks_length afterName
      match colon : skipBlanks afterName with
      | ':' :: value =>
          have valueBlanks := skipBlanks_length value
          match readItem (skipBlanks value) with
          | .error error => .error error
          | .ok ⟨first, afterFirst, firstShorter⟩ =>
              have blanks := skipBlanks_length afterFirst
              have valueShorter : (skipBlanks value).length < text.length := by
                simp only [colon, List.length_cons] at nameBlanks
                omega
              match separator : skipBlanks afterFirst with
              | '\x7d' :: rest =>
                  .ok ⟨(fun name value => [(name, value)]) <$> name <*> first, rest, by
                    simp only [separator, List.length_cons] at blanks
                    omega⟩
              | ',' :: rest =>
                  have moreBlanks := skipBlanks_length rest
                  have restShorter : (skipBlanks rest).length < text.length := by
                    simp only [separator, List.length_cons] at blanks
                    omega
                  match readFields readItem (skipBlanks rest) with
                  | .error error => .error error
                  | .ok ⟨others, left, othersShorter⟩ =>
                      .ok ⟨(fun name value fields => (name, value) :: fields) <$> name <*> first <*>
                        others, left, by omega⟩
              | other => .error (.malformed .missingComma other.length)
      | other => .error (.malformed .missingColon other.length)
termination_by text => text.length

/-- A value that is no container. -/
def readAtom (digits : Option Nat) : JsonReader Json := fun text =>
  match text with
  | '"' :: rest =>
      match readString ('"' :: rest) with
      | .error error => .error error
      | .ok ⟨value, left, shorter⟩ => .ok ⟨Json.string <$> value, left, shorter⟩
  | 'n' :: 'u' :: 'l' :: 'l' :: rest =>
      .ok ⟨some .null, rest, by simp only [List.length_cons]; omega⟩
  | 't' :: 'r' :: 'u' :: 'e' :: rest =>
      .ok ⟨some (.bool true), rest, by simp only [List.length_cons]; omega⟩
  | 'f' :: 'a' :: 'l' :: 's' :: 'e' :: rest =>
      .ok ⟨some (.bool false), rest, by simp only [List.length_cons]; omega⟩
  | other =>
      match found : number? other with
      | some (value, left) =>
          if overlong digits value then .error (.beyond .longInteger)
          else .ok ⟨some (.number value), left, number?_shorter found⟩
      | none => .error (.malformed .missingValue other.length)

/-- A value inside of which at most `room` containers may lie in one another.  A
container for which no room is left is refused before anything in it is read. -/
def readValue (digits : Option Nat) : Nat → JsonReader Json
  | room, '[' :: rest =>
      match room with
      | 0 => .error .tooDeep
      | inner + 1 =>
          have blanks := skipBlanks_length rest
          match opened : skipBlanks rest with
          | ']' :: left =>
              .ok ⟨some (.array []), left, by
                simp only [opened, List.length_cons] at blanks ⊢
                omega⟩
          | _ =>
              match readItems (readValue digits inner) (skipBlanks rest) with
              | .error error => .error error
              | .ok ⟨items, left, shorter⟩ =>
                  .ok ⟨Json.array <$> items, left, by simp only [List.length_cons]; omega⟩
  | room, '\x7b' :: rest =>
      match room with
      | 0 => .error .tooDeep
      | inner + 1 =>
          have blanks := skipBlanks_length rest
          match opened : skipBlanks rest with
          | '\x7d' :: left =>
              .ok ⟨some (.object []), left, by
                simp only [opened, List.length_cons] at blanks ⊢
                omega⟩
          | _ =>
              match readFields (readValue digits inner) (skipBlanks rest) with
              | .error error => .error error
              | .ok ⟨fields, left, shorter⟩ =>
                  .ok ⟨ofFields <$> fields, left, by simp only [List.length_cons]; omega⟩
  | _, text => readAtom digits text

/-- A whole text: one value with nothing but blanks around it. -/
def readWithin (limits : JsonLimits) (text : List Char) : Except JsonError Json :=
  match text with
  | '\ufeff' :: _ => .error (.malformed .byteOrderMark text.length)
  | _ =>
      match readValue limits.digits limits.nesting (skipBlanks text) with
      | .error error => .error error
      | .ok ⟨value, rest, _⟩ =>
          match skipBlanks rest, value with
          | [], some value => .ok value
          | [], none => .error (.beyond .unpairedSurrogate)
          | extra, _ => .error (.malformed .extraData extra.length)

/-- A whole text, with integers of any length. -/
def readChars (room : Nat) (text : List Char) : Except JsonError Json :=
  readWithin { nesting := room, digits := none } text

/-- The containers that a text of the command line may hold in one another. -/
def nestingLimit : Nat := 993

/-- The digits that an integer of the command line may have. -/
def digitLimit : Nat := 4300

def read (text : String) : Except JsonError Json := readChars nestingLimit text.toList

end Json

/-- A place in a text: the characters before it, and the line and column it falls in. -/
structure TextPosition where
  offset : Nat
  line : Nat
  column : Nat

def TextPosition.of (text : List Char) (offset : Nat) : TextPosition :=
  let before := text.take offset
  { offset
    line := before.count '\n' + 1
    column := (before.reverse.takeWhile (· != '\n')).length + 1 }

/-- The error as told to a reader of `text`. -/
def JsonError.message (text : String) : JsonError → String
  | .tooDeep => "nested too deeply"
  | .beyond gap => gap.message
  | .malformed fault remaining =>
      let chars := text.toList
      let place := TextPosition.of chars (chars.length - remaining)
      fault.message ++ ": line " ++ toString place.line ++ " column " ++
        toString place.column ++ " (char " ++ toString place.offset ++ ")"

end RuleChart
