import ScimDirectory.Json.Draft

/-!
# Reading JSON texts

A text is read once, from the left, into a draft and the text behind it. Nothing is refused here:
where the text stops being JSON, the draft says so.
-/

namespace ScimDirectory.Json

/-- The blanks that may stand between the parts of a JSON text. -/
def isGap (c : Char) : Bool :=
  c == ' ' || c == '\n' || c == '\t' || c == '\r'

/-- The text behind its leading blanks. -/
def skipGap (text : List Char) : List Char :=
  text.dropWhile isGap

/-! ### Strings -/

/-- A part of a string: a character, or a code unit given by its number. -/
inductive Piece where
  | char (c : Char)
  | unit (value : Nat)
deriving DecidableEq, Repr

/-- The value of a hexadecimal digit, in small or capital letters. -/
def hexValue? (c : Char) : Option Nat :=
  if '0' ≤ c ∧ c ≤ '9' then some (c.toNat - 48)
  else if 'a' ≤ c ∧ c ≤ 'f' then some (c.toNat - 87)
  else if 'A' ≤ c ∧ c ≤ 'F' then some (c.toNat - 55)
  else none

/-- The number given by four hexadecimal digits. -/
def unitValue? (a b c d : Char) : Option Nat := do
  return 4096 * (← hexValue? a) + 256 * (← hexValue? b) + 16 * (← hexValue? c) + (← hexValue? d)

/-- The character that an escape of one letter stands for. -/
def unescape? : Char → Option Char
  | '"' => some '"'
  | '\\' => some '\\'
  | '/' => some '/'
  | 'b' => some '\x08'
  | 'f' => some '\x0c'
  | 'n' => some '\n'
  | 'r' => some '\r'
  | 't' => some '\t'
  | _ => none

/-- The pieces of a string up to its closing quote, and the text behind it. -/
def readPieces : List Char → Option (List Piece × List Char)
  | [] => none
  | '"' :: rest => some ([], rest)
  | '\\' :: 'u' :: a :: b :: c :: d :: rest => do
      let value ← unitValue? a b c d
      let (pieces, rest) ← readPieces rest
      return (.unit value :: pieces, rest)
  | '\\' :: letter :: rest => do
      let c ← unescape? letter
      let (pieces, rest) ← readPieces rest
      return (.char c :: pieces, rest)
  | c :: rest =>
      if c.toNat < 0x20 || c == '\\' then none
      else do
        let (pieces, rest) ← readPieces rest
        return (.char c :: pieces, rest)

/-- The code unit opens a surrogate pair. -/
def isHighSurrogate (value : Nat) : Bool :=
  0xD800 ≤ value && value < 0xDC00

/-- The code unit closes a surrogate pair. -/
def isLowSurrogate (value : Nat) : Bool :=
  0xDC00 ≤ value && value < 0xE000

/-- The characters that the pieces of a string stand for, unless half of a pair is missing. -/
def joinPieces : List Piece → Option (List Char)
  | [] => some []
  | .char c :: more => (joinPieces more).map (c :: ·)
  | .unit high :: .unit low :: more =>
      if isHighSurrogate high then
        if isLowSurrogate low then
          let value := 0x10000 + 1024 * (high - 0xD800) + (low - 0xDC00)
          (joinPieces more).map (Char.ofNat value :: ·)
        else none
      else if isLowSurrogate high then none
      else (joinPieces (.unit low :: more)).map (Char.ofNat high :: ·)
  | .unit value :: more =>
      if isHighSurrogate value || isLowSurrogate value then none
      else (joinPieces more).map (Char.ofNat value :: ·)

/-- The string that ends with the next closing quote, and the text behind it. The string is `none`
if half of a surrogate pair is missing in it. -/
def readString (text : List Char) : Option (Option String × List Char) := do
  let (pieces, rest) ← readPieces text
  return ((joinPieces pieces).map String.ofList, rest)

/-! ### Numbers -/

/-- The value of a decimal digit. -/
def digitValue? (c : Char) : Option (Fin 10) :=
  if h : 48 ≤ c.toNat ∧ c.toNat < 58 then some ⟨c.toNat - 48, by omega⟩ else none

/-- The digits at the beginning of a text, and what follows them. -/
def readDigits : List Char → List (Fin 10) × List Char
  | [] => ([], [])
  | c :: rest =>
      match digitValue? c with
      | none => ([], c :: rest)
      | some digit =>
          let (digits, rest) := readDigits rest
          (digit :: digits, rest)

/-- The digits behind the point, if there is a point. -/
def readFraction : List Char → Option (List (Fin 10) × List Char)
  | '.' :: rest =>
      match readDigits rest with
      | ([], _) => none
      | (digits, rest) => some (digits, rest)
  | rest => some ([], rest)

/-- The sign of a power of ten, and what follows it. -/
def readSign : List Char → Bool × List Char
  | '+' :: rest => (false, rest)
  | '-' :: rest => (true, rest)
  | rest => (false, rest)

/-- The number that digits stand for. -/
def digitsValue (digits : List (Fin 10)) : Nat :=
  digits.foldl (fun value digit => 10 * value + digit.val) 0

/-- The power of ten, if one is written. -/
def readExponent : List Char → Option (Option Int × List Char)
  | c :: rest =>
      if c = 'e' ∨ c = 'E' then
        let (negative, rest) := readSign rest
        match readDigits rest with
        | ([], _) => none
        | (digits, rest) =>
            let value : Int := digitsValue digits
            some (some (if negative then -value else value), rest)
      else some (none, c :: rest)
  | [] => some (none, [])

/-- A number without its sign. A zero before the point stands alone. -/
def readUnsigned (negative : Bool) (text : List Char) : Option (Numeral × List Char) :=
  match readDigits text with
  | ([], _) => none
  | (first :: second :: more, rest) =>
      if first = 0 then none else finish (first :: second :: more) rest
  | (whole, rest) => finish whole rest
where
  /-- The rest of a number behind the digits before its point. -/
  finish (whole : List (Fin 10)) (rest : List Char) : Option (Numeral × List Char) := do
    let (fraction, rest) ← readFraction rest
    let (exponent, rest) ← readExponent rest
    return ({ negative, whole, fraction, exponent }, rest)

/-- A number at the beginning of a text, and what follows it. -/
def readNumber : List Char → Option (Numeral × List Char)
  | '-' :: rest => readUnsigned true rest
  | text => readUnsigned false text

/-! ### Values -/

mutual

/-- Read a value into a draft, and the text behind it unless the draft is not complete. Each value
and each item uses up some of the fuel. -/
def readValue : Nat → List Char → Draft × Option (List Char)
  | 0, _ => (.broken, none)
  | fuel + 1, text =>
      match skipGap text with
      | 'n' :: 'u' :: 'l' :: 'l' :: rest => (.null, some rest)
      | 't' :: 'r' :: 'u' :: 'e' :: rest => (.bool true, some rest)
      | 'f' :: 'a' :: 'l' :: 's' :: 'e' :: rest => (.bool false, some rest)
      | '"' :: rest =>
          match readString rest with
          | some (value, rest) => (.string value, some rest)
          | none => (.broken, none)
      | '[' :: rest =>
          match skipGap rest with
          | ']' :: rest => (.array [] true, some rest)
          | rest =>
              let (items, rest) := readItems fuel rest
              (.array items rest.isSome, rest)
      | '\x7b' :: rest =>
          match skipGap rest with
          | '\x7d' :: rest => (.object [] true, some rest)
          | rest =>
              let (members, rest) := readMembers fuel rest
              (.object members rest.isSome, rest)
      | rest =>
          match readNumber rest with
          | some (value, rest) => (.number value, some rest)
          | none => (.broken, none)

/-- Read the items of an array up to its closing bracket. -/
def readItems : Nat → List Char → List Draft × Option (List Char)
  | 0, _ => ([.broken], none)
  | fuel + 1, text =>
      match readValue fuel text with
      | (item, none) => ([item], none)
      | (item, some rest) =>
          match skipGap rest with
          | ',' :: rest =>
              let (items, rest) := readItems fuel rest
              (item :: items, rest)
          | ']' :: rest => ([item], some rest)
          | _ => ([item], none)

/-- Read the members of an object up to its closing brace. A key that is no string ends the
reading. -/
def readMembers : Nat → List Char → List (Option String × Draft) × Option (List Char)
  | 0, _ => ([], none)
  | fuel + 1, text =>
      match skipGap text with
      | '"' :: rest =>
          match readString rest with
          | none => ([], none)
          | some (key, rest) =>
              match skipGap rest with
              | ':' :: rest =>
                  match readValue fuel rest with
                  | (value, none) => ([(key, value)], none)
                  | (value, some rest) =>
                      match skipGap rest with
                      | ',' :: rest =>
                          let (members, rest) := readMembers fuel rest
                          ((key, value) :: members, rest)
                      | '\x7d' :: rest => ([(key, value)], some rest)
                      | _ => ([(key, value)], none)
              | _ => ([(key, .broken)], none)
      | _ => ([], none)

end

/-- **Read a text**: the draft of the value at its beginning, and what follows it. A value and its
place in a list use up at most two units of fuel for each character. -/
def read (text : List Char) : Draft × Option (List Char) :=
  readValue (2 * text.length + 2) text

end ScimDirectory.Json
