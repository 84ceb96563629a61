/-!
# Escaping of literals

Literals are embedded in directory filters either as they are, so that a star in them is a wildcard
and a parenthesis may unbalance the filter, or with every character that has a meaning in the
filter syntax written as a backslash and two hexadecimal digits.

## Main results

* `toList_escape`: escaping works character by character, also where nothing is to be escaped.
-/

namespace ScimDirectory

/-- How literals are embedded in directory filters. -/
inductive Escaping where
  /-- As they are. -/
  | preserve
  /-- With the characters of the filter syntax escaped. -/
  | rfc4515
deriving DecidableEq, Repr, Inhabited

namespace Escaping

/-- All ways of escaping, in the order in which they are listed to users. -/
def all : List Escaping :=
  [preserve, rfc4515]

/-- The name of a way of escaping in a configuration. -/
def name : Escaping → String
  | preserve => "preserve"
  | rfc4515 => "rfc4515"

/-- The way of escaping of that name. -/
def ofName? (name : String) : Option Escaping :=
  all.find? fun escaping => escaping.name = name

/-- A way of escaping is known by its name. -/
theorem ofName?_name (escaping : Escaping) : ofName? escaping.name = some escaping := by
  cases escaping <;> decide +kernel

end Escaping

/-- The characters that have a meaning in the filter syntax: backslash, star, the two parentheses
and NUL. -/
def isMeta (c : Char) : Bool :=
  c == '\\' || c == '*' || c == '(' || c == ')' || c == '\x00'

/-- One character of an escaped literal. -/
def escapeChar (c : Char) : List Char :=
  match c with
  | '\\' => ['\\', '5', 'c']
  | '*' => ['\\', '2', 'a']
  | '(' => ['\\', '2', '8']
  | ')' => ['\\', '2', '9']
  | '\x00' => ['\\', '0', '0']
  | c => [c]

/-- A literal with the characters of the filter syntax escaped. One without such characters is
left alone. -/
def escape (literal : String) : String :=
  if literal.toList.any isMeta then String.ofList (literal.toList.flatMap escapeChar) else literal

/-- The text that stands for a literal in a directory filter. -/
def Escaping.apply : Escaping → String → String
  | preserve, literal => literal
  | rfc4515, literal => escape literal

theorem escapeChar_of_not_isMeta {c : Char} (h : isMeta c = false) : escapeChar c = [c] := by
  fun_cases escapeChar c <;> simp_all [isMeta]

/-- A text without characters of the filter syntax is its own escaped form. -/
theorem flatMap_escapeChar_of_plain {chars : List Char} (h : ∀ c ∈ chars, isMeta c = false) :
    chars.flatMap escapeChar = chars := by
  induction chars with
  | nil => rfl
  | cons c chars ih =>
      rw [List.forall_mem_cons] at h
      rw [List.flatMap_cons, escapeChar_of_not_isMeta h.1, ih h.2, List.singleton_append]

/-- **Escaping works character by character**, also where nothing is to be escaped. -/
theorem toList_escape (literal : String) :
    (escape literal).toList = literal.toList.flatMap escapeChar := by
  rw [escape]
  split
  · exact String.toList_ofList
  · next h =>
      rw [flatMap_escapeChar_of_plain]
      simpa using h

end ScimDirectory
