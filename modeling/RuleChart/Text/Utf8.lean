namespace RuleChart.Text

inductive Utf8Fault where
  | invalidStart
  | invalidContinuation
  | unexpectedEnd
deriving DecidableEq, Repr

/-- A character that starts with `first` at `position` and breaks off behind `valid` more bytes. -/
structure Utf8Error where
  fault : Utf8Fault
  position : Nat
  first : UInt8
  valid : Nat
deriving DecidableEq, Repr

def Utf8Fault.message : Utf8Fault → String
  | .invalidStart => "invalid start byte"
  | .invalidContinuation => "invalid continuation byte"
  | .unexpectedEnd => "unexpected end of data"

def byteText (byte : UInt8) : String :=
  String.ofList
    (['0', 'x'] ++ Nat.toDigits 16 (byte.toNat / 16) ++ Nat.toDigits 16 (byte.toNat % 16))

def Utf8Error.message (error : Utf8Error) : String :=
  let place :=
    if error.valid = 0 then
      "byte " ++ byteText error.first ++ " in position " ++ toString error.position
    else
      "bytes in position " ++ toString error.position ++ "-" ++
        toString (error.position + error.valid)
  "'utf-8' codec can't decode " ++ place ++ ": " ++ error.fault.message

/-- The least and the greatest value of each byte that must follow a first byte. -/
def followers? (first : Nat) : Option (List (Nat × Nat)) :=
  if first < 0x80 then some []
  else if first < 0xC2 then none
  else if first < 0xE0 then some [(0x80, 0xBF)]
  else if first = 0xE0 then some [(0xA0, 0xBF), (0x80, 0xBF)]
  else if first = 0xED then some [(0x80, 0x9F), (0x80, 0xBF)]
  else if first < 0xF0 then some [(0x80, 0xBF), (0x80, 0xBF)]
  else if first = 0xF0 then some [(0x90, 0xBF), (0x80, 0xBF), (0x80, 0xBF)]
  else if first < 0xF4 then some [(0x80, 0xBF), (0x80, 0xBF), (0x80, 0xBF)]
  else if first = 0xF4 then some [(0x80, 0x8F), (0x80, 0xBF), (0x80, 0xBF)]
  else none

/-- The part of the code point that a first byte holds. -/
def leadValue (first : Nat) : Nat :=
  if first < 0x80 then first
  else if first < 0xE0 then first % 32
  else if first < 0xF0 then first % 16
  else first % 8

/-- Takes the bytes of a character behind its first one, as far as they are valid.  Tells
what stands behind them, and what is wrong if they are not complete. -/
def follow : List (Nat × Nat) → List UInt8 → List UInt8 × List UInt8 × Option Utf8Fault
  | [], rest => ([], rest, none)
  | _ :: _, [] => ([], [], some .unexpectedEnd)
  | (low, high) :: ranges, byte :: rest =>
      if low ≤ byte.toNat ∧ byte.toNat ≤ high then
        let (valid, left, fault) := follow ranges rest
        (byte :: valid, left, fault)
      else ([], byte :: rest, some .invalidContinuation)

theorem follow_length (ranges : List (Nat × Nat)) (bytes : List UInt8) :
    (follow ranges bytes).2.1.length ≤ bytes.length := by
  induction ranges generalizing bytes with
  | nil => simp [follow]
  | cons range ranges rangesIH =>
      cases bytes with
      | nil => simp [follow]
      | cons byte rest =>
          have inside := rangesIH rest
          simp only [follow]
          split
          · exact Nat.le_succ_of_le inside
          · simp

/-- Decodes the bytes from `position` on, with `decoded` in reverse before them. -/
def decodeFrom (position : Nat) (decoded : List Char) (bytes : List UInt8) :
    Except Utf8Error (List Char) :=
  match bytes with
  | [] => .ok decoded.reverse
  | first :: rest =>
      match followers? first.toNat with
      | none => .error { fault := .invalidStart, position, first, valid := 0 }
      | some ranges =>
          match followed : follow ranges rest with
          | (valid, left, none) =>
              let code := valid.foldl (fun value byte => value * 64 + byte.toNat % 64)
                (leadValue first.toNat)
              decodeFrom (position + valid.length + 1) (Char.ofNat code :: decoded) left
          | (valid, _, some fault) =>
              .error { fault, position, first, valid := valid.length }
termination_by bytes.length
decreasing_by
  have shorter := follow_length ranges rest
  rw [followed] at shorter
  exact Nat.lt_succ_of_le shorter

/-- Strict: overlong forms, surrogates and values beyond the last code point are faults, and a fault
names the bytes that began the broken character. -/
def decodeUtf8 (bytes : List UInt8) : Except Utf8Error (List Char) := decodeFrom 0 [] bytes

/-- Every line end becomes a line feed: a carriage return, alone or before a line feed, does. -/
def normalLineEnds : List Char → List Char
  | [] => []
  | '\r' :: '\n' :: rest => '\n' :: normalLineEnds rest
  | '\r' :: rest => '\n' :: normalLineEnds rest
  | c :: rest => c :: normalLineEnds rest

end RuleChart.Text
