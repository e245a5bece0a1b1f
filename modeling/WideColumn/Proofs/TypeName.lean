import WideColumn.Proofs.ClassReference.Spacing
/-!
# Type names are read one way only

The name of a type is a word, behind which lists, sets and maps have the names of their parts
in angle brackets (`DataType.name_eq`). A word ends with its letters, and no letter follows
the name of a part. So a name can be told from what stands behind it, and its parts from one
another (`DataType.name_append_inj`). Custom types are left out, as any text may be their name.
-/

namespace WideColumn

theorem ScalarType.name_injective : Function.Injective name := by
  intro s t h
  have hread := ofName?_name s
  rw [h, ofName?_name t] at hread
  exact (Option.some.inj hread).symm

theorem ScalarType.isAlpha_of_mem_name (t : ScalarType) : ∀ c ∈ t.name.toList, c.isAlpha = true := by
  cases t <;> simp [name]

namespace DataType

/-! ## Words and parts -/

/-- The word that the name of a type begins with. -/
def word : DataType → List Char
  | scalar t => t.name.toList
  | list _ => "list".toList
  | set _ => "set".toList
  | map _ _ => "map".toList
  | custom _ => []

/-- What stands behind the word. -/
def bracketed : DataType → List Char
  | scalar _ => []
  | list e | set e => '<' :: (e.name.toList ++ ['>'])
  | map k v => '<' :: (k.name.toList ++ ',' :: ' ' :: (v.name.toList ++ ['>']))
  | custom n => n.toList

theorem name_eq (t : DataType) : t.name.toList = t.word ++ t.bracketed := by
  cases t <;> simp [name, word, bracketed]

theorem isAlpha_of_mem_word (t : DataType) : ∀ c ∈ t.word, c.isAlpha = true := by
  cases t with
  | scalar t => exact t.isAlpha_of_mem_name
  | list | set | map | custom => simp [word]

/-- A text that can stand behind the name of a part: it goes on with no letter and opens no
bracket. -/
def Closes (cs : List Char) : Prop := ∀ c ∈ cs.head?, c = '>' ∨ c = ','

theorem closes_nil : Closes [] := by simp [Closes]

theorem closes_bracket (cs : List Char) : Closes ('>' :: cs) := by simp [Closes]

theorem closes_comma (cs : List Char) : Closes (',' :: cs) := by simp [Closes]

section Behind

variable {t : DataType} {x : List Char}

theorem not_isAlpha_behind_word (ht : t.customTexts = []) (hx : Closes x) :
    ∀ c ∈ (t.bracketed ++ x).head?, c.isAlpha = false := by
  cases t with
  | scalar =>
    intro c hc
    rcases hx c hc with rfl | rfl <;> rfl
  | list | set | map => simp [bracketed]
  | custom n => cases ht

theorem takeWhile_name (ht : t.customTexts = []) (hx : Closes x) : (t.name.toList ++ x).takeWhile Char.isAlpha = t.word := by
  rw [name_eq, List.append_assoc, MarshalClass.takeWhile_run t.isAlpha_of_mem_word (not_isAlpha_behind_word ht hx)]

theorem dropWhile_name (ht : t.customTexts = []) (hx : Closes x) :
    (t.name.toList ++ x).dropWhile Char.isAlpha = t.bracketed ++ x := by
  rw [name_eq, List.append_assoc, MarshalClass.dropWhile_run t.isAlpha_of_mem_word (not_isAlpha_behind_word ht hx)]

end Behind

/-! ## Reading -/

/-- The place of the outermost form in the order of types, told from the word. -/
def wordRank (w : List Char) : Nat :=
  if w = "list".toList then 1 else if w = "set".toList then 2 else if w = "map".toList then 3 else 0

/-- The words of lists, sets and maps differ from those of scalars and from one another. -/
theorem formRank_eq {t : DataType} (ht : t.customTexts = []) : t.formRank = wordRank t.word := by
  cases t with
  | scalar t => cases t <;> rfl
  | list | set | map => rfl
  | custom => cases ht

/-- Two types of one form whose parts, with `x` and `y` behind them, have names that read the
same. -/
inductive Alike (x y : List Char) : DataType → DataType → Prop where
  | scalar {t : ScalarType} (h : x = y) : Alike x y (scalar t) (scalar t)
  | list {e e' : DataType} (h : e.name.toList ++ '>' :: x = e'.name.toList ++ '>' :: y) : Alike x y (list e) (list e')
  | set {e e' : DataType} (h : e.name.toList ++ '>' :: x = e'.name.toList ++ '>' :: y) : Alike x y (set e) (set e')
  | map {k v k' v' : DataType}
      (h : k.name.toList ++ ',' :: ' ' :: (v.name.toList ++ '>' :: x) =
        k'.name.toList ++ ',' :: ' ' :: (v'.name.toList ++ '>' :: y)) : Alike x y (map k v) (map k' v')

theorem alike {a b : DataType} (ha : a.customTexts = []) (hb : b.customTexts = []) {x y : List Char}
    (hx : Closes x) (hy : Closes y) (h : a.name.toList ++ x = b.name.toList ++ y) : Alike x y a b := by
  have hword : a.word = b.word := by rw [← takeWhile_name ha hx, h, takeWhile_name hb hy]
  have hbehind : a.bracketed ++ x = b.bracketed ++ y := by rw [← dropWhile_name ha hx, h, dropWhile_name hb hy]
  have hform : a.formRank = b.formRank := by rw [formRank_eq ha, formRank_eq hb, hword]
  cases a <;> cases b <;> try cases hform
  case scalar s t =>
    obtain rfl := ScalarType.name_injective (String.toList_injective hword)
    exact .scalar hbehind
  case list => exact .list (by simpa [bracketed] using hbehind)
  case set => exact .set (by simpa [bracketed] using hbehind)
  case map => exact .map (by simpa [bracketed] using hbehind)
  case custom => cases ha

/-- The name of a type can be told from what stands behind it. -/
theorem name_append_inj {a b : DataType} (ha : a.customTexts = []) (hb : b.customTexts = []) {x y : List Char}
    (hx : Closes x) (hy : Closes y) (h : a.name.toList ++ x = b.name.toList ++ y) : a = b ∧ x = y := by
  induction a generalizing b x y with
  | scalar t =>
    cases alike ha hb hx hy h with
    | scalar hrest => exact ⟨rfl, hrest⟩
  | list e ih =>
    cases alike ha hb hx hy h with
    | @list _ e' hpart =>
      obtain ⟨rfl, hrest⟩ := ih (b := e') ha hb (closes_bracket x) (closes_bracket y) hpart
      exact ⟨rfl, (List.cons.inj hrest).2⟩
  | set e ih =>
    cases alike ha hb hx hy h with
    | @set _ e' hpart =>
      obtain ⟨rfl, hrest⟩ := ih (b := e') ha hb (closes_bracket x) (closes_bracket y) hpart
      exact ⟨rfl, (List.cons.inj hrest).2⟩
  | map k v ihk ihv =>
    cases alike ha hb hx hy h with
    | map hparts =>
      obtain ⟨hk, hv⟩ := List.append_eq_nil_iff.1 ha
      obtain ⟨hk', hv'⟩ := List.append_eq_nil_iff.1 hb
      obtain ⟨rfl, hvalues⟩ := ihk hk hk' (closes_comma _) (closes_comma _) hparts
      obtain ⟨rfl, hrest⟩ := ihv hv hv' (closes_bracket x) (closes_bracket y) (by simpa using hvalues)
      exact ⟨rfl, (List.cons.inj hrest).2⟩
  | custom n => cases ha

/-- Two types of the same name are the same, if there is no custom type in either. -/
theorem eq_of_name_eq {a b : DataType} (ha : a.customTexts = []) (hb : b.customTexts = []) (h : a.name = b.name) : a = b := by
  obtain ⟨hsame, -⟩ := name_append_inj ha hb closes_nil closes_nil (by rw [h])
  exact hsame

-- a custom type has any name, that of a scalar type too
example : (custom "int").name = (scalar .int).name := rfl

/-- Maps in both parts of a map. -/
def mapOfMaps : DataType := map (map (scalar .int) (scalar .inet)) (map (list (scalar .text)) (set (scalar .timestamp)))

/-- A scalar type looked up by its name. -/
def named (n : String) : DataType := (ofName? n).getD (custom n)

/-- Looked up by their names, the scalar types in a map of maps are the same. -/
theorem eq_of_name_eq_mapOfMaps :
    mapOfMaps.customTexts = [] ∧ mapOfMaps.name = "map<map<int, inet>, map<list<text>, set<timestamp>>>" ∧
    mapOfMaps = map (map (named "int") (named "inet")) (map (list (named "text")) (set (named "timestamp"))) :=
  ⟨rfl, rfl, eq_of_name_eq rfl rfl rfl⟩

end DataType

end WideColumn
