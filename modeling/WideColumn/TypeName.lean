import WideColumn.Error
/-!
Types looked up by their names. Only scalar types have names of their own.
-/

namespace WideColumn

def DataType.ofName (name : String) : Except Error DataType :=
  match ofName? name with
  | some t => .ok t
  | none => .error (.unknownType name)

end WideColumn
