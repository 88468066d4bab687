import Mathlib.Tactic.Common

/-!
# JSON values

The values that Python's `json.loads` gives, but for the floats that are no numbers.
-/

inductive Json where
  | null
  | bool (b : Bool)
  | int (n : Int)
  | float (x : Rat)
  | str (s : String)
  | list (items : List Json)
  | dict (entries : List (String × Json))

namespace Json

/-- `bool(v)` -/
def truthy : Json → Bool
  | null => false
  | bool b => b
  | int n => n ≠ 0
  | float x => x ≠ 0
  | str s => s ≠ ""
  | list items => !items.isEmpty
  | dict entries => !entries.isEmpty

/-- Towards zero. -/
def trunc (x : Rat) : Int := if 0 ≤ x then x.floor else x.ceil

/-- `int(v)` where `isinstance(v, (int, float))`. A `bool` is an `int`. -/
def toInt : Json → Option Int
  | bool b => some b.toNat
  | int n => some n
  | float x => some (trunc x)
  | _ => none

end Json
