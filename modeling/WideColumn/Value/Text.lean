import WideColumn.Scalar.Text
import WideColumn.Value.Basic
/-!
Values as text: lists in brackets, sets and maps in braces, entries after commas.
-/

namespace WideColumn.Value

/-- Decimals of floating-point numbers where nothing else is asked for. -/
def defaultPlaces : Nat := 14

mutual

/-- The text of a value, with `places` decimals for floating-point numbers. -/
def format (places : Nat) : Value → String
  | null => "null"
  | scalar s => s.format places
  | list ⟨_, vs, _, _⟩ => "[" ++ ", ".intercalate (elementTexts places vs) ++ "]"
  | set ⟨_, vs, _, _⟩ => "\x7b" ++ ", ".intercalate (elementTexts places vs) ++ "\x7d"
  | map ⟨_, _, es, _, _⟩ => "\x7b" ++ ", ".intercalate (entryTexts places es) ++ "\x7d"

def elementTexts (places : Nat) : List Value → List String
  | [] => []
  | v :: vs => format places v :: elementTexts places vs

/-- Of each entry the key, a colon and the value. -/
def entryTexts (places : Nat) : List (Value × Value) → List String
  | [] => []
  | (k, v) :: es => (format places k ++ ": " ++ format places v) :: entryTexts places es

end

def text (v : Value) : String := v.format defaultPlaces

end WideColumn.Value
