/-!
# JSON values and their text

The values of JSON and the compact text in which they are stored and sent: no blanks, members in
their order, and in strings an escape only where the format demands one.
-/

namespace ScimDirectory

/-- A number as it is written: digits before and behind the point, and a power of ten. -/
structure Numeral where
  negative : Bool := false
  /-- The digits before the point; none stand for a zero. -/
  whole : List (Fin 10)
  /-- The digits behind the point; none mean that there is no point. -/
  fraction : List (Fin 10) := []
  exponent : Option Int := none
deriving DecidableEq, Repr

/-- A JSON value. An object keeps its members in the order in which they are written. -/
inductive Json where
  | null
  | bool (value : Bool)
  | number (value : Numeral)
  | string (value : String)
  | array (items : List Json)
  | object (members : List (String × Json))
deriving Repr, Inhabited

/-! ### Numbers -/

/-- The character of a decimal digit. -/
def digitChar (digit : Fin 10) : Char :=
  Char.ofNat (48 + digit.val)

namespace Numeral

/-- The text of a power of ten. -/
def exponentText (exponent : Int) : List Char :=
  'e' :: (if exponent < 0 then ['-'] else []) ++ (Nat.toDigits 10 exponent.natAbs)

/-- The text of a number. -/
def text (numeral : Numeral) : List Char :=
  (if numeral.negative then ['-'] else []) ++
    (if numeral.whole.isEmpty then ['0'] else numeral.whole.map digitChar) ++
    (if numeral.fraction.isEmpty then [] else '.' :: numeral.fraction.map digitChar) ++
    (numeral.exponent.map exponentText).getD []

end Numeral

/-! ### Strings -/

/-- The hexadecimal digit of a number below sixteen, in small letters. -/
def hexChar (value : Nat) : Char :=
  Char.ofNat (if value < 10 then 48 + value else 87 + value)

/-- One character inside the quotes of a string: quote, backslash and control characters are
escaped, all others stand for themselves. -/
def quoteChar (c : Char) : List Char :=
  match c with
  | '"' => ['\\', '"']
  | '\\' => ['\\', '\\']
  | '\n' => ['\\', 'n']
  | '\r' => ['\\', 'r']
  | '\t' => ['\\', 't']
  | '\x08' => ['\\', 'b']
  | '\x0c' => ['\\', 'f']
  | c =>
      if c.toNat < 0x20 then
        ['\\', 'u', '0', '0', hexChar (c.toNat / 16), hexChar (c.toNat % 16)]
      else [c]

/-- The text of a string, in quotes. -/
def quote (s : String) : List Char :=
  '"' :: s.toList.flatMap quoteChar ++ ['"']

/-! ### Values -/

namespace Json

mutual

/-- The characters of a value. -/
def chars : Json → List Char
  | null => ['n', 'u', 'l', 'l']
  | bool true => ['t', 'r', 'u', 'e']
  | bool false => ['f', 'a', 'l', 's', 'e']
  | number value => value.text
  | string value => quote value
  | array items => '[' :: itemsChars items ++ [']']
  | object members => '\x7b' :: membersChars members ++ ['\x7d']

/-- The items of an array, with commas between them. -/
def itemsChars : List Json → List Char
  | [] => []
  | [item] => item.chars
  | item :: next :: more => item.chars ++ ',' :: itemsChars (next :: more)

/-- The members of an object, with commas between them. -/
def membersChars : List (String × Json) → List Char
  | [] => []
  | [(key, value)] => quote key ++ ':' :: value.chars
  | (key, value) :: next :: more =>
      quote key ++ ':' :: value.chars ++ ',' :: membersChars (next :: more)

end

/-- **The compact text of a value.** -/
def text (value : Json) : String :=
  String.ofList value.chars

end Json

end ScimDirectory
