import Mathlib
import WideColumn.Collection.Stream
import WideColumn.Value.Content
/-!
# Values and what stands in them

The entries of a collection are its stream, whatever its form, so a statement about
all values is proved from the entries up (`Value.induction`), and what lies deeper
is reached through the entries (`Value.Inside`). `Value.bare` leaves of a value its
types and entries only: no cursors, no known hashes.
-/

namespace WideColumn

/-! ## Lists of entries -/

theorem mem_of_mem_modify {α : Type} {f : α → α} {l : List α} {i : Nat} {a : α} (h : a ∈ l.modify i f) :
    ∃ b ∈ l, a = b ∨ a = f b := by
  obtain ⟨j, hj, rfl⟩ := List.mem_iff_getElem.1 h
  rw [List.length_modify] at hj
  refine ⟨l[j], List.getElem_mem hj, ?_⟩
  rw [List.getElem_modify]
  split
  · exact .inr rfl
  · exact .inl rfl

theorem map_modify_eq {α β : Type} {f : α → α} {g : α → β} (h : ∀ a, g (f a) = g a) (l : List α) (i : Nat) :
    (l.modify i f).map g = l.map g := by
  apply List.ext_getElem (by simp)
  intro j hj hj'
  rw [List.getElem_map, List.getElem_map, List.getElem_modify]
  split
  · rw [h]
  · rfl

/-- A list that is related to another by a relation which determines its values. -/
theorem eq_map_of_forall₂ {α β : Type} {R : α → β → Prop} {f : α → β} {as : List α} {bs : List β}
    (h : List.Forall₂ R as bs) (hf : ∀ a ∈ as, ∀ b, R a b → b = f a) : bs = as.map f ∧ ∀ a ∈ as, R a (f a) := by
  induction h with
  | nil => exact ⟨rfl, by simp⟩
  | @cons a b as bs hab _ ih =>
    obtain rfl := hf a (by simp) b hab
    obtain ⟨rfl, hall⟩ := ih fun a ha => hf a (by simp [ha])
    exact ⟨rfl, by simpa using ⟨hab, hall⟩⟩

/-! ## Functions of entries -/

theorem Content.elementHashes_eq (cs : List Content) : elementHashes cs = cs.map hash := by
  induction cs with
  | nil => rfl
  | cons c cs ih => rw [elementHashes, ih, List.map_cons]

theorem Content.entryHashes_eq (es : List (Content × Content)) :
    entryHashes es = es.flatMap fun e => [e.1.hash, e.2.hash] := by
  induction es with
  | nil => rfl
  | cons e es ih => rw [entryHashes, ih, List.flatMap_cons]; rfl

namespace Value

theorem elementContents_eq (vs : List Value) : elementContents vs = vs.map content := by
  induction vs with
  | nil => rfl
  | cons v vs ih => rw [elementContents, ih, List.map_cons]

theorem entryContents_eq (es : List (Value × Value)) :
    entryContents es = es.map fun e => (e.1.content, e.2.content) := by
  induction es with
  | nil => rfl
  | cons e es ih => rw [entryContents, ih, List.map_cons]

theorem readElementHashes_eq (vs : List Value) : readElementHashes vs = vs.map readHash := by
  induction vs with
  | nil => rfl
  | cons v vs ih => rw [readElementHashes, ih, List.map_cons]

theorem readEntryHashes_eq (es : List (Value × Value)) :
    readEntryHashes es = es.map fun e => (e.1.readHash, e.2.readHash) := by
  induction es with
  | nil => rfl
  | cons e es ih => rw [readEntryHashes, ih, List.map_cons]

@[simp]
theorem content_list (l : TypedList Value) : (list l).content = .list l.elementType (l.elements.map content) := by
  rw [content, elementContents_eq]

@[simp]
theorem content_set (s : TypedSet Value) :
    (set s).content = .set s.elementType (Content.sorted (s.elements.map content)) := by
  rw [content, elementContents_eq]

@[simp]
theorem content_map (m : TypedMap Value) :
    (map m).content = .map m.keyType m.valueType (m.entries.map fun e => (e.1.content, e.2.content)) := by
  rw [content, entryContents_eq]

/-! ## Entries -/

@[simp]
theorem mem_stream_list {l : TypedList Value} {t : DataType} {w : Value} :
    (t, w) ∈ (list l).stream ↔ t = l.elementType ∧ w ∈ l.elements := by
  simp [stream, TypedList.stream, and_comm, eq_comm]

@[simp]
theorem mem_stream_set {s : TypedSet Value} {t : DataType} {w : Value} :
    (t, w) ∈ (set s).stream ↔ t = s.elementType ∧ w ∈ s.elements := by
  simp [stream, TypedSet.stream, and_comm, eq_comm]

@[simp]
theorem mem_stream_map {m : TypedMap Value} {t : DataType} {w : Value} :
    (t, w) ∈ (map m).stream ↔
      ∃ e ∈ m.entries, t = m.keyType ∧ w = e.1 ∨ t = m.valueType ∧ w = e.2 := by
  simp [stream, TypedMap.stream]

theorem sizeOf_lt_of_mem_stream {v w : Value} {t : DataType} (h : (t, w) ∈ v.stream) : sizeOf w < sizeOf v := by
  cases v with
  | null => cases h
  | scalar s => cases h
  | list l =>
    obtain ⟨-, hw⟩ := mem_stream_list.1 h
    have := List.sizeOf_lt_of_mem hw
    cases l
    simp only [list.sizeOf_spec, TypedList.mk.sizeOf_spec] at this ⊢
    omega
  | set s =>
    obtain ⟨-, hw⟩ := mem_stream_set.1 h
    have := List.sizeOf_lt_of_mem hw
    cases s
    simp only [set.sizeOf_spec, TypedSet.mk.sizeOf_spec] at this ⊢
    omega
  | map m =>
    obtain ⟨⟨k, x⟩, he, hw⟩ := mem_stream_map.1 h
    have := List.sizeOf_lt_of_mem he
    cases m
    simp only [map.sizeOf_spec, TypedMap.mk.sizeOf_spec, Prod.mk.sizeOf_spec] at this ⊢
    rcases hw with ⟨-, rfl⟩ | ⟨-, rfl⟩ <;> omega

/-- What holds of a value as soon as it holds of its entries holds of all values. -/
theorem induction {P : Value → Prop} (h : ∀ v, (∀ t w, (t, w) ∈ v.stream → P w) → P v) (v : Value) : P v :=
  h v fun _ w hw => have := sizeOf_lt_of_mem_stream hw; induction h w
termination_by sizeOf v

/-- The value `w` stands in `v`, at any depth, in a slot declared as `t` by the
collection directly around it. -/
inductive Inside : Value → DataType → Value → Prop
  | entry {v t w} : (t, w) ∈ v.stream → Inside v t w
  | deeper {v t w u x} : (t, w) ∈ v.stream → Inside w u x → Inside v u x

/-- What holds of all entries and of all within them holds of all that stands in a value. -/
theorem forall_inside_iff {P : DataType → Value → Prop} {v : Value} :
    (∀ t w, Inside v t w → P t w) ↔
      ∀ t w, (t, w) ∈ v.stream → P t w ∧ ∀ u x, Inside w u x → P u x := by
  constructor
  · intro h t w hw
    exact ⟨h t w (.entry hw), fun u x hx => h u x (.deeper hw hx)⟩
  · intro h t w hw
    cases hw with
    | entry hw => exact (h t w hw).1
    | deeper hu hw => exact (h _ _ hu).2 t w hw

/-! ## Bare values -/

mutual

/-- The value with every cursor at the first place and no hash known. -/
def bare : Value → Value
  | null => null
  | scalar s => scalar s
  | list ⟨t, vs, _, _⟩ => list ⟨t, bareElements vs, .start, none⟩
  | set ⟨t, vs, _, _⟩ => set ⟨t, bareElements vs, .start, none⟩
  | map ⟨k, v, es, _, _⟩ => map ⟨k, v, bareEntries es, .start, none⟩

def bareElements : List Value → List Value
  | [] => []
  | v :: vs => bare v :: bareElements vs

def bareEntries : List (Value × Value) → List (Value × Value)
  | [] => []
  | (k, v) :: es => (bare k, bare v) :: bareEntries es

end

theorem bareElements_eq (vs : List Value) : bareElements vs = vs.map bare := by
  induction vs with
  | nil => rfl
  | cons v vs ih => rw [bareElements, ih, List.map_cons]

theorem bareEntries_eq (es : List (Value × Value)) : bareEntries es = es.map fun e => (e.1.bare, e.2.bare) := by
  induction es with
  | nil => rfl
  | cons e es ih => rw [bareEntries, ih, List.map_cons]

@[simp]
theorem bare_list (l : TypedList Value) : (list l).bare = list ⟨l.elementType, l.elements.map bare, .start, none⟩ := by
  rw [bare, bareElements_eq]

@[simp]
theorem bare_set (s : TypedSet Value) : (set s).bare = set ⟨s.elementType, s.elements.map bare, .start, none⟩ := by
  rw [bare, bareElements_eq]

@[simp]
theorem bare_map (m : TypedMap Value) :
    (map m).bare = map ⟨m.keyType, m.valueType, m.entries.map fun e => (e.1.bare, e.2.bare), .start, none⟩ := by
  rw [bare, bareEntries_eq]

@[simp]
theorem type?_bare (v : Value) : v.bare.type? = v.type? := by
  cases v <;> simp [bare, type?]

theorem stream_bare (v : Value) : v.bare.stream = v.stream.map fun e => (e.1, e.2.bare) := by
  cases v with
  | null => rfl
  | scalar s => rfl
  | list l => simp [stream, TypedList.stream]
  | set s => simp [stream, TypedSet.stream]
  | map m => simp [stream, TypedMap.stream, List.flatMap_map, List.map_flatMap]

/-- Cursors and known hashes are no part of what a value says. -/
@[simp]
theorem content_bare (v : Value) : v.bare.content = v.content := by
  induction v using induction with
  | h v ih =>
    cases v with
    | null => rfl
    | scalar s => rfl
    | list l =>
      have elements : ∀ w ∈ l.elements, w.bare.content = w.content := fun w hw => ih _ w (mem_stream_list.2 ⟨rfl, hw⟩)
      simpa using elements
    | set s =>
      have elements : (s.elements.map bare).map content = s.elements.map content := by
        simpa using fun w hw => ih _ w (mem_stream_set.2 ⟨rfl, hw⟩)
      simp [elements]
    | map m =>
      have entries : ∀ e ∈ m.entries, e.1.bare.content = e.1.content ∧ e.2.bare.content = e.2.content := fun e he =>
        ⟨ih _ e.1 (mem_stream_map.2 ⟨e, he, .inl ⟨rfl, rfl⟩⟩), ih _ e.2 (mem_stream_map.2 ⟨e, he, .inr ⟨rfl, rfl⟩⟩)⟩
      simpa using fun k x he => entries (k, x) he

/-- Two values of which the bare values are the same say the same. -/
theorem content_eq_of_bare_eq {v w : Value} (h : v.bare = w.bare) : v.content = w.content := by
  rw [← content_bare v, h, content_bare]

/-! ## Unread values -/

mutual

/-- The value as it would be if no hash had ever been read. -/
def unread : Value → Value
  | null => null
  | scalar s => scalar s
  | list ⟨t, vs, c, _⟩ => list ⟨t, unreadElements vs, c, none⟩
  | set ⟨t, vs, c, _⟩ => set ⟨t, unreadElements vs, c, none⟩
  | map ⟨k, v, es, c, _⟩ => map ⟨k, v, unreadEntries es, c, none⟩

def unreadElements : List Value → List Value
  | [] => []
  | v :: vs => unread v :: unreadElements vs

def unreadEntries : List (Value × Value) → List (Value × Value)
  | [] => []
  | (k, v) :: es => (unread k, unread v) :: unreadEntries es

end

theorem unreadElements_eq (vs : List Value) : unreadElements vs = vs.map unread := by
  induction vs with
  | nil => rfl
  | cons v vs ih => rw [unreadElements, ih, List.map_cons]

theorem unreadEntries_eq (es : List (Value × Value)) :
    unreadEntries es = es.map fun e => (e.1.unread, e.2.unread) := by
  induction es with
  | nil => rfl
  | cons e es ih => rw [unreadEntries, ih, List.map_cons]

end Value

def TypedList.unread (l : TypedList Value) : TypedList Value :=
  { l with elements := l.elements.map Value.unread, knownHash := none }

def TypedSet.unread (s : TypedSet Value) : TypedSet Value :=
  { s with elements := s.elements.map Value.unread, knownHash := none }

def TypedMap.unread (m : TypedMap Value) : TypedMap Value :=
  { m with entries := m.entries.map fun e => (e.1.unread, e.2.unread), knownHash := none }

namespace Value

@[simp]
theorem unread_null : null.unread = null := by
  rw [unread]

@[simp]
theorem unread_scalar (s : Scalar) : (scalar s).unread = scalar s := by
  rw [unread]

@[simp]
theorem unread_list (l : TypedList Value) : (list l).unread = list l.unread := by
  rw [unread, unreadElements_eq]
  rfl

@[simp]
theorem unread_set (s : TypedSet Value) : (set s).unread = set s.unread := by
  rw [unread, unreadElements_eq]
  rfl

@[simp]
theorem unread_map (m : TypedMap Value) : (map m).unread = map m.unread := by
  rw [unread, unreadEntries_eq]
  rfl

@[simp]
theorem type?_unread (v : Value) : v.unread.type? = v.type? := by
  cases v <;> simp [type?, TypedList.unread, TypedSet.unread, TypedMap.unread]

theorem stream_unread (v : Value) : v.unread.stream = v.stream.map fun e => (e.1, e.2.unread) := by
  cases v with
  | null => simp [stream]
  | scalar s => simp [stream]
  | list l => simp [stream, TypedList.stream, TypedList.unread]
  | set s => simp [stream, TypedSet.stream, TypedSet.unread]
  | map m => simp [stream, TypedMap.stream, TypedMap.unread, List.flatMap_map, List.map_flatMap]

/-- Known hashes are no part of a bare value. -/
@[simp]
theorem bare_unread (v : Value) : v.unread.bare = v.bare := by
  induction v using induction with
  | h v ih =>
    cases v with
    | null => simp
    | scalar s => simp
    | list l =>
      have elements : ∀ w ∈ l.elements, w.unread.bare = w.bare := fun w hw => ih _ w (mem_stream_list.2 ⟨rfl, hw⟩)
      simpa [TypedList.unread] using elements
    | set s =>
      have elements : ∀ w ∈ s.elements, w.unread.bare = w.bare := fun w hw => ih _ w (mem_stream_set.2 ⟨rfl, hw⟩)
      simpa [TypedSet.unread] using elements
    | map m =>
      have entries : ∀ k x, (k, x) ∈ m.entries → k.unread.bare = k.bare ∧ x.unread.bare = x.bare :=
        fun k x he => ⟨ih _ k (mem_stream_map.2 ⟨_, he, .inl ⟨rfl, rfl⟩⟩),
          ih _ x (mem_stream_map.2 ⟨_, he, .inr ⟨rfl, rfl⟩⟩)⟩
      simpa [TypedMap.unread] using entries

theorem bare_eq_of_unread_eq {v w : Value} (h : v.unread = w.unread) : v.bare = w.bare := by
  rw [← bare_unread v, h, bare_unread]

@[simp]
theorem content_unread (v : Value) : v.unread.content = v.content :=
  content_eq_of_bare_eq (bare_unread v)

end Value

end WideColumn
