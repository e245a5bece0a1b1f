import WideColumn.Value.Basic
/-!
What a value says, apart from how it came about: the order of insertion into sets, cursors and known hashes
are left out. Order, equality and hash of values are those of their content.
-/

namespace WideColumn

/-- The content of a value. The elements of a set are in ascending order. -/
inductive Content where
  | null
  | scalar (value : Scalar)
  | list (elementType : DataType) (elements : List Content)
  | set (elementType : DataType) (elements : List Content)
  | map (keyType valueType : DataType) (entries : List (Content × Content))

namespace Content

/-! ## Order -/

/-- Place of the outermost form in the order of values. -/
def formRank : Content → Nat
  | null => 0
  | scalar _ => 1
  | list _ _ => 2
  | set _ _ => 3
  | map _ _ _ => 4

mutual

/-- By outermost form; of one form by the types, then by the number of entries, then entry by entry. -/
def order : Content → Content → Ordering
  | null, null => .eq
  | scalar a, scalar b => a.order b
  | list t as, list u bs => (t.order u).then ((compare as.length bs.length).then (orderElements as bs))
  | set t as, set u bs => (t.order u).then ((compare as.length bs.length).then (orderElements as bs))
  | map k v as, map l w bs =>
    (k.order l).then ((v.order w).then ((compare as.length bs.length).then (orderEntries as bs)))
  | a, b => compare a.formRank b.formRank

/-- By the first elements that differ. -/
def orderElements : List Content → List Content → Ordering
  | a :: as, b :: bs => (order a b).then (orderElements as bs)
  | _, _ => .eq

/-- By the first entries that differ, in each by key, then by value. -/
def orderEntries : List (Content × Content) → List (Content × Content) → Ordering
  | (k, v) :: as, (l, w) :: bs => ((order k l).then (order v w)).then (orderEntries as bs)
  | _, _ => .eq

end

/-- Elements in ascending order; equal ones keep their order. -/
def sorted (cs : List Content) : List Content := cs.mergeSort fun a b => (a.order b).isLE

/-! ## Hash -/

mutual

/-- The hash of a content: that of a single value, or the hashes of all entries mixed in order, of each entry
of a map its key and then its value. -/
def hash : Content → UInt32
  | null => 0
  | scalar s => s.hash
  | list _ cs => Hash.mixAll 0 (elementHashes cs)
  | set _ cs => Hash.mixAll 0 (elementHashes cs)
  | map _ _ es => Hash.mixAll 0 (entryHashes es)

def elementHashes : List Content → List UInt32
  | [] => []
  | c :: cs => hash c :: elementHashes cs

def entryHashes : List (Content × Content) → List UInt32
  | [] => []
  | (k, v) :: es => hash k :: hash v :: entryHashes es

end

end Content

namespace Value

mutual

/-- What a value says. -/
def content : Value → Content
  | null => .null
  | scalar s => .scalar s
  | list ⟨t, vs, _, _⟩ => .list t (elementContents vs)
  | set ⟨t, vs, _, _⟩ => .set t (Content.sorted (elementContents vs))
  | map ⟨k, v, es, _, _⟩ => .map k v (entryContents es)

def elementContents : List Value → List Content
  | [] => []
  | v :: vs => content v :: elementContents vs

def entryContents : List (Value × Value) → List (Content × Content)
  | [] => []
  | (k, v) :: es => (content k, content v) :: entryContents es

end

def order (a b : Value) : Ordering := a.content.order b.content

def equals (a b : Value) : Bool := a.order b == .eq

/-- The hash of a value, computed from its content. -/
def hash (v : Value) : UInt32 := v.content.hash

/-! ## Reading a hash -/

mutual

/-- The hash of a value, and the value with that hash known in it: a known hash is taken as it is, any other
is computed from the hashes of the entries, which become known as well. -/
def readHash : Value → UInt32 × Value
  | null => (0, null)
  | scalar s => (s.hash, scalar s)
  | list ⟨t, vs, c, some h⟩ => (h, list ⟨t, vs, c, some h⟩)
  | list ⟨t, vs, c, none⟩ =>
    let read := readElementHashes vs
    let h := Hash.mixAll 0 (read.map (·.1))
    (h, list ⟨t, read.map (·.2), c, some h⟩)
  | set ⟨t, vs, c, some h⟩ => (h, set ⟨t, vs, c, some h⟩)
  | set ⟨t, vs, c, none⟩ =>
    let read := readElementHashes vs
    let ordered := (read.map fun (h, v) => (v.content, h)).mergeSort fun a b => (a.1.order b.1).isLE
    let h := Hash.mixAll 0 (ordered.map (·.2))
    (h, set ⟨t, read.map (·.2), c, some h⟩)
  | map ⟨k, v, es, c, some h⟩ => (h, map ⟨k, v, es, c, some h⟩)
  | map ⟨k, v, es, c, none⟩ =>
    let read := readEntryHashes es
    let h := Hash.mixAll 0 (read.flatMap fun (a, b) => [a.1, b.1])
    (h, map ⟨k, v, read.map fun (a, b) => (a.2, b.2), c, some h⟩)

def readElementHashes : List Value → List (UInt32 × Value)
  | [] => []
  | v :: vs => readHash v :: readElementHashes vs

def readEntryHashes : List (Value × Value) → List ((UInt32 × Value) × (UInt32 × Value))
  | [] => []
  | (k, v) :: es => (readHash k, readHash v) :: readEntryHashes es

end

end Value

end WideColumn
