import WideColumn.Error
import WideColumn.Text.Alphanumeric
/-!
References to marshal classes, a class name with optional parameters in parentheses, and the types that they
stand for. Blanks may surround the whole reference and each parameter.
-/

namespace WideColumn

/-- A class reference: its text as written, its name and its parameters. -/
inductive MarshalClass where
  | mk (text name : List Char) (params : List MarshalClass)

namespace MarshalClass

/-- The text of a reference as written. -/
def text : MarshalClass → List Char
  | mk text _ _ => text

/-! ## Reading -/

/-- Whether a character may stand in a class name. -/
def isNameChar (c : Char) : Bool := Text.isAlphanumeric c || c == '_' || c == '.' || c == '$'

/-- Space, tab, carriage return and line feed. -/
def isBlank (c : Char) : Bool := c == ' ' || c == '\t' || c == '\r' || c == '\n'

/-- What is read at the front of a text. -/
structure Reading (α : Type) (text : List Char) where
  value : α
  /-- What follows in the text. -/
  rest : List Char
  shorter : rest.length < text.length

theorem length_dropWhile_le (p : Char → Bool) (cs : List Char) : (cs.dropWhile p).length ≤ cs.length :=
  (List.dropWhile_suffix p).length_le

theorem length_dropWhile_lt {p : Char → Bool} {cs : List Char} (h : cs.takeWhile p ≠ []) :
    (cs.dropWhile p).length < cs.length := by
  have hlength := congrArg List.length (List.takeWhile_append_dropWhile (p := p) (l := cs))
  have hpos := List.length_pos_iff.2 h
  rw [List.length_append] at hlength
  omega

/-- A reading together with the blanks after it. -/
def Reading.skipBlanks {α : Type} {text : List Char} (x : Reading α text) : Reading α text :=
  ⟨x.value, x.rest.dropWhile isBlank, Nat.lt_of_le_of_lt (length_dropWhile_le isBlank x.rest) x.shorter⟩

/-- A reading together with the character after it, if that is `c`. -/
def Reading.followedBy? {α : Type} {text : List Char} (x : Reading α text) (c : Char) : Option (Reading α text) :=
  match x with
  | ⟨value, d :: rest, shorter⟩ => if d = c then some ⟨value, rest, Nat.lt_of_succ_lt shorter⟩ else none
  | _ => none

/-- An opening parenthesis. -/
def parseOpening : (cs : List Char) → Option (Reading Unit cs)
  | '(' :: inner => some ⟨(), inner, Nat.lt_succ_self _⟩
  | _ => none

mutual

/-- A reference at the front of a text. What follows the name and is no list of parameters is left. -/
def parse (cs : List Char) : Option (Reading MarshalClass cs) :=
  let name := cs.takeWhile isNameChar
  if h : name = [] then none
  else
    have hname := length_dropWhile_lt h
    match parseParams (cs.dropWhile isNameChar) with
    | none => some ⟨mk name name [], cs.dropWhile isNameChar, hname⟩
    | some params =>
      let text := cs.take (cs.length - params.rest.length)
      some ⟨mk text name params.value, params.rest, Nat.lt_trans params.shorter hname⟩
termination_by (cs.length, 0)

/-- Parameters in parentheses. -/
def parseParams (cs : List Char) : Option (Reading (List MarshalClass) cs) :=
  match parseOpening cs with
  | none => none
  | some opening =>
    match (parseList opening.rest).bind (Reading.followedBy? · ')') with
    | none => none
    | some params => some ⟨params.value, params.rest, Nat.lt_trans params.shorter opening.shorter⟩
termination_by (cs.length, 0)
decreasing_by exact Prod.Lex.left _ _ opening.shorter

/-- One or more references with commas between them and blanks around each. A comma without a reference after
it is left. -/
def parseList (cs : List Char) : Option (Reading (List MarshalClass) cs) :=
  have hblanks := length_dropWhile_le isBlank cs
  match (parse (cs.dropWhile isBlank)).map Reading.skipBlanks with
  | none => none
  | some param =>
    have hparam := Nat.lt_of_lt_of_le param.shorter hblanks
    match param.followedBy? ',' with
    | none => some ⟨[param.value], param.rest, hparam⟩
    | some comma =>
      have hcomma := Nat.lt_of_lt_of_le comma.shorter hblanks
      match parseList comma.rest with
      | none => some ⟨[param.value], param.rest, hparam⟩
      | some params => some ⟨param.value :: params.value, params.rest, Nat.lt_trans params.shorter hcomma⟩
termination_by (cs.length, 1)
decreasing_by
  · rcases Nat.lt_or_eq_of_le hblanks with hlt | heq
    · exact Prod.Lex.left _ _ hlt
    · rw [heq]
      exact Prod.Lex.right _ Nat.zero_lt_one
  · exact Prod.Lex.left _ _ hcomma

end

/-- The reference that makes up a whole text. -/
def ofText? (s : String) : Option MarshalClass := do
  let reference ← parse (s.toList.dropWhile isBlank)
  if reference.rest.all isBlank then some reference.value else none

/-! ## Meaning -/

/-- The package that the known classes are in, which may be left out. -/
def package : List Char := "org.apache.cassandra.db.marshal.".toList

/-- A class name without the package. -/
def shortName (name : List Char) : String :=
  String.ofList (if package.isPrefixOf name then name.drop package.length else name)

/-- What a class does with its parameters. -/
inductive Role where
  /-- Stands for its parameter. -/
  | wrapper
  | list
  | set
  | map
  | scalar (type : ScalarType)
  /-- Nothing is known of it. -/
  | unknown

/-- The role of a class by its short name. -/
def role (shortName : String) : Role :=
  match shortName with
  | "ReversedType" => .wrapper
  | "FrozenType" => .wrapper
  | "ListType" => .list
  | "SetType" => .set
  | "MapType" => .map
  | "AsciiType" => .scalar .ascii
  | "LongType" => .scalar .bigint
  | "BytesType" => .scalar .blob
  | "BooleanType" => .scalar .boolean
  | "CounterColumnType" => .scalar .counter
  | "DecimalType" => .scalar .decimal
  | "DoubleType" => .scalar .double
  | "FloatType" => .scalar .float
  | "Int32Type" => .scalar .int
  | "UTF8Type" => .scalar .varchar
  | "TimestampType" => .scalar .timestamp
  | "DateType" => .scalar .timestamp
  | "UUIDType" => .scalar .uuid
  | "LexicalUUIDType" => .scalar .uuid
  | "TimeUUIDType" => .scalar .timeuuid
  | "IntegerType" => .scalar .varint
  | "InetAddressType" => .scalar .inet
  | _ => .unknown

/-- The type of a class with the types of its parameters. A class of unknown role is known by its reference. -/
def assemble (name reference : List Char) (params : List DataType) : Except Error DataType :=
  let refuse := fun n => .error (.parameterCount (shortName name) n (String.ofList reference))
  match role (shortName name), params with
  | .wrapper, [t] => .ok t
  | .wrapper, _ => refuse 1
  | .list, [t] => .ok (.list t)
  | .list, _ => refuse 1
  | .set, [t] => .ok (.set t)
  | .set, _ => refuse 1
  | .map, [k, v] => .ok (.map k v)
  | .map, _ => refuse 2
  | .scalar t, [] => .ok (.scalar t)
  | .scalar _, _ => refuse 0
  | .unknown, _ => .ok (.custom (String.ofList reference))

mutual

/-- The type that a reference stands for; parameters are resolved first, from left to right. -/
def resolve : MarshalClass → Except Error DataType
  | mk text name params => do assemble name text (← resolveAll params)

def resolveAll : List MarshalClass → Except Error (List DataType)
  | [] => .ok []
  | param :: params => do
    let t ← resolve param
    let ts ← resolveAll params
    return t :: ts

end

end MarshalClass

/-- The type that the text of a class reference stands for. -/
def DataType.ofClassReference (s : String) : Except Error DataType :=
  match MarshalClass.ofText? s with
  | some reference => reference.resolve
  | none => .error (.notClassReference s)

end WideColumn
