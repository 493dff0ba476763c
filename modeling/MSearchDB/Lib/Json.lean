import Mathlib.Tactic

/-!
# JSON values

JSON values over a type of floats. Integers and floats are told apart, as readers and writers
do by the text of a number. An object is the list of its members in the order in which they
stand in the text.
-/

set_option autoImplicit false

namespace MSearchDB.Lib

/-- A JSON value. -/
inductive Json (φ : Type) where
  | null
  | bool (b : Bool)
  | int (n : Int)
  | float (x : φ)
  | string (s : String)
  | array (vs : List (Json φ))
  | object (members : List (String × Json φ))

end MSearchDB.Lib
