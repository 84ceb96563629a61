import ScimDirectory.DirectoryFilter.Basic
import ScimDirectory.Text.LetterCase

/-!
# Comparison operators

The ten operators of the filter language, their tokens, and the directory filter that each of them
stands for. The directory knows no strict comparison, so `gt` and `lt` exclude equality.
-/

namespace ScimDirectory

/-- The operators of the filter language. -/
inductive Operator where
  | equal
  | notEqual
  | contains
  | startsWith
  | endsWith
  | present
  | greater
  | greaterOrEqual
  | less
  | lessOrEqual
deriving DecidableEq, Repr, Inhabited

namespace Operator

/-- All operators, in the order in which a token is looked up. -/
def all : List Operator :=
  [equal, contains, startsWith, endsWith, greater, greaterOrEqual, less, lessOrEqual, present,
    notEqual]

/-- All operators, in the order in which they are listed to users. -/
def listed : List Operator :=
  [equal, notEqual, contains, startsWith, endsWith, present, greater, greaterOrEqual, less,
    lessOrEqual]

/-- The token of an operator. -/
def token : Operator → String
  | equal => "eq"
  | notEqual => "ne"
  | contains => "co"
  | startsWith => "sw"
  | endsWith => "ew"
  | present => "pr"
  | greater => "gt"
  | greaterOrEqual => "ge"
  | less => "lt"
  | lessOrEqual => "le"

/-- The position of an operator in the order of look-up. -/
def rank (op : Operator) : Nat :=
  all.idxOf op

/-- The operator that a token names in any letter case. -/
def ofToken? (token : String) : Option Operator :=
  all.find? fun op => Alike op.token token

/-- A substring match of this operator leaves the beginning of the value open. -/
def opensBefore : Operator → Bool
  | contains | endsWith => true
  | _ => false

/-- A substring match of this operator leaves the end of the value open. -/
def opensAfter : Operator → Bool
  | contains | startsWith => true
  | _ => false

/-- **The directory filter of a comparison.** The value stands in it as it is given. -/
def toFilter (op : Operator) (name value : String) : DirectoryFilter :=
  match op with
  | equal => .item name .equal value
  | notEqual => .not (.item name .equal value)
  | contains | startsWith | endsWith =>
      .item name .equal
        ((if op.opensBefore then "*" else "") ++ value ++ (if op.opensAfter then "*" else ""))
  | present => .present name
  | greaterOrEqual => .item name .atLeast value
  | lessOrEqual => .item name .atMost value
  | greater => .and (.item name .atLeast value) (.not (.item name .equal value))
  | less => .and (.item name .atMost value) (.not (.item name .equal value))

/-- An operator is known by its token. -/
theorem ofToken?_token (op : Operator) : ofToken? op.token = some op := by
  cases op <;> decide +kernel

/-- Tokens are read in any letter case. -/
theorem ofToken?_eq_of_alike {a b : String} (h : Alike a b) : ofToken? a = ofToken? b := by
  simp only [ofToken?, Alike, show fold a = fold b from h]

/-- A token names an operator exactly when it is alike to the token of that operator. -/
theorem ofToken?_eq_some_iff {token : String} {op : Operator} :
    ofToken? token = some op ↔ Alike op.token token := by
  constructor
  · intro h
    simpa using List.find?_some h
  · intro h
    rw [← ofToken?_eq_of_alike h, ofToken?_token]

end Operator

end ScimDirectory
