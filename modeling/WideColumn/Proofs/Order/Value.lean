import WideColumn.Proofs.Order.Scalar
import WideColumn.Proofs.Value.Parts
/-!
# The order of values

Contents are totally ordered, and only the same content compares equal. The order
of values is that of their contents; for lists, sets and maps it is also the order
by types, by number of entries and then entry by entry (`Value.order_list`,
`Value.order_set`, `Value.order_map`), where the elements of a set are first put in
ascending order. `Value.order_total` puts together what makes this a total order of
all values up to equality.
-/

namespace WideColumn

theorem placewise_map {α β : Type} (cmp : β → β → Ordering) (f : α → β) (as bs : List α) :
    placewise cmp (as.map f) (bs.map f) = placewise (fun a b => cmp (f a) (f b)) as bs := by
  induction as generalizing bs with
  | nil => cases bs <;> rfl
  | cons a as ih =>
    cases bs with
    | nil => rfl
    | cons b bs => rw [List.map_cons, List.map_cons, placewise, ih, placewise]

theorem byLength_map {α β : Type} (cmp : β → β → Ordering) (f : α → β) (as bs : List α) :
    byLength cmp (as.map f) (bs.map f) = byLength (fun a b => cmp (f a) (f b)) as bs := by
  rw [byLength, byLength, placewise_map, List.length_map, List.length_map]

/-! ## Contents -/

namespace Content

/-- Entries of maps by key, then by value. -/
def orderEntry (a b : Content × Content) : Ordering := (order a.1 b.1).then (order a.2 b.2)

theorem orderElements_eq (as bs : List Content) : orderElements as bs = placewise order as bs := by
  induction as generalizing bs with
  | nil => cases bs <;> rfl
  | cons a as ih =>
    cases bs with
    | nil => rfl
    | cons b bs => rw [orderElements, ih, placewise]

theorem orderEntries_eq (as bs : List (Content × Content)) : orderEntries as bs = placewise orderEntry as bs := by
  induction as generalizing bs with
  | nil => cases bs <;> rfl
  | cons a as ih =>
    cases bs with
    | nil => rfl
    | cons b bs => rw [orderEntries, ih, placewise, orderEntry]

theorem order_list (t u : DataType) (as bs : List Content) :
    (list t as).order (list u bs) = (t.order u).then (byLength order as bs) := by
  rw [order, orderElements_eq, byLength]

theorem order_set (t u : DataType) (as bs : List Content) :
    (set t as).order (set u bs) = (t.order u).then (byLength order as bs) := by
  rw [order, orderElements_eq, byLength]

theorem order_map (k v l w : DataType) (as bs : List (Content × Content)) :
    (map k v as).order (map l w bs) = (k.order l).then ((v.order w).then (byLength orderEntry as bs)) := by
  rw [order, orderEntries_eq, byLength]

theorem order_of_formRank_ne (a b : Content) (h : a.formRank ≠ b.formRank) :
    a.order b = compare a.formRank b.formRank := by
  cases a <;> cases b <;> first | rfl | exact absurd rfl h

-- By the recursion of contents, with the lists of entries beside it.
mutual

theorem lawfulAt_order : ∀ c : Content, LawfulAt order c
  | null => by
    refine .constructor formRank order_of_formRank_ne (fun _ : Unit => null) (.unit ()) ?_ ?_ ?_
    · exact fun _ _ _ => rfl
    · exact fun _ _ => rfl
    · rintro _ (_ | _) h <;> first | exact ⟨(), rfl⟩ | cases h
  | scalar s => .constructor formRank order_of_formRank_ne scalar s.lawfulAt_order
  | list t cs => by
    refine .constructor formRank order_of_formRank_ne (fun p : DataType × List Content => list p.1 p.2)
      (t.lawfulAt_order.andThen (.byLength (lawfulAt_elements cs))) ?_ ?_ ?_
    · rintro ⟨_, _⟩ ⟨_, _⟩ h; cases h; rfl
    · exact fun _ _ => order_list ..
    · rintro _ (_ | _) h <;> first | exact ⟨(_, _), rfl⟩ | cases h
  | set t cs => by
    refine .constructor formRank order_of_formRank_ne (fun p : DataType × List Content => set p.1 p.2)
      (t.lawfulAt_order.andThen (.byLength (lawfulAt_elements cs))) ?_ ?_ ?_
    · rintro ⟨_, _⟩ ⟨_, _⟩ h; cases h; rfl
    · exact fun _ _ => order_set ..
    · rintro _ (_ | _) h <;> first | exact ⟨(_, _), rfl⟩ | cases h
  | map k v es => by
    refine .constructor formRank order_of_formRank_ne
      (fun p : DataType × DataType × List (Content × Content) => map p.1 p.2.1 p.2.2)
      (k.lawfulAt_order.andThen (v.lawfulAt_order.andThen (.byLength (lawfulAt_entries es)))) ?_ ?_ ?_
    · rintro ⟨_, _, _⟩ ⟨_, _, _⟩ h; cases h; rfl
    · exact fun _ _ => order_map ..
    · rintro _ (_ | _) h <;> first | exact ⟨(_, _, _), rfl⟩ | cases h

theorem lawfulAt_elements : ∀ cs : List Content, ∀ c ∈ cs, LawfulAt order c
  | [], _, h => by cases h
  | c :: cs, d, h => by
    rcases List.mem_cons.1 h with e | h
    · exact e ▸ lawfulAt_order c
    · exact lawfulAt_elements cs d h

theorem lawfulAt_entries : ∀ es : List (Content × Content), ∀ e ∈ es, LawfulAt orderEntry e
  | [], _, h => by cases h
  | (k, v) :: es, e, h => by
    rcases List.mem_cons.1 h with he | h
    · exact he ▸ (lawfulAt_order k).andThen (lawfulAt_order v)
    · exact lawfulAt_entries es e h

end

instance : Std.TransCmp order := transCmp_of_lawfulAt lawfulAt_order

instance : Std.LawfulEqCmp order := lawfulEqCmp_of_lawfulAt lawfulAt_order

/-- Sorting leaves nothing of the order that the contents came in. -/
theorem sorted_eq_of_perm {as bs : List Content} (h : as.Perm bs) : sorted as = sorted bs := by
  have le_trans : ∀ a b c : Content, (a.order b).isLE → (b.order c).isLE → (a.order c).isLE :=
    fun _ _ _ => Std.TransCmp.isLE_trans
  have le_total : ∀ a b : Content, (a.order b).isLE || (b.order a).isLE := fun a b => by
    rw [(lawfulAt_order a).swap b]
    cases a.order b <;> rfl
  -- neighbours in one list that are the other way round in the other are equal, so they are the same
  refine List.Perm.eq_of_pairwise (fun a b _ _ hab hba => ?_) (List.pairwise_mergeSort le_trans le_total as)
    (List.pairwise_mergeSort le_trans le_total bs)
    ((List.mergeSort_perm as _).trans (h.trans (List.mergeSort_perm bs _).symm))
  exact Std.LawfulEqCmp.eq_of_compare (Std.OrientedCmp.isLE_antisymm hab hba)

end Content

/-! ## Values -/

namespace Value

theorem order_eq_iff {a b : Value} : a.order b = .eq ↔ a.content = b.content := by
  rw [order, a.content.lawfulAt_order.eq_iff]

/-- Values are equal if they say the same. -/
theorem equals_iff {a b : Value} : a.equals b = true ↔ a.content = b.content := by
  rw [equals, beq_iff_eq, order_eq_iff]

/-- Elements in ascending order. -/
def ascending (vs : List Value) : List Value := vs.mergeSort fun a b => (a.order b).isLE

theorem sorted_map_content (vs : List Value) : Content.sorted (vs.map content) = (ascending vs).map content := by
  rw [ascending, Content.sorted]
  symm
  apply List.map_mergeSort
  intros
  rfl

theorem order_list (l m : TypedList Value) :
    (list l).order (list m) = (l.elementType.order m.elementType).then (byLength order l.elements m.elements) := by
  rw [order, content_list, content_list, Content.order_list, byLength_map]
  rfl

theorem order_set (s u : TypedSet Value) :
    (set s).order (set u) =
      (s.elementType.order u.elementType).then (byLength order (ascending s.elements) (ascending u.elements)) := by
  rw [order, content_set, content_set, sorted_map_content, sorted_map_content, Content.order_set, byLength_map]
  rfl

theorem order_map (m n : TypedMap Value) :
    (map m).order (map n) = (m.keyType.order n.keyType).then ((m.valueType.order n.valueType).then
      (byLength (fun a b => (order a.1 b.1).then (order a.2 b.2)) m.entries n.entries)) := by
  rw [order, content_map, content_map, Content.order_map, byLength_map]
  rfl

theorem type?_eq_of_content_eq {a b : Value} (h : a.content = b.content) : a.type? = b.type? := by
  cases a <;> cases b <;> simp [content, type?] at h ⊢ <;> simp [h]

/-- The order is total on all values of all types: a value is equal to itself, the order
is turned around when the operands are, it is transitive, equal values stand in the
same order to every other, and they have the same type. -/
theorem order_total (a b c : Value) :
    a.order a = .eq ∧
    b.order a = (a.order b).swap ∧
    (a.order b ≠ .gt → b.order c ≠ .gt → a.order c ≠ .gt) ∧
    (a.order b = .eq → a.order c = b.order c) ∧
    (a.order b = .eq → a.type? = b.type?) := by
  refine ⟨order_eq_iff.2 rfl, a.content.lawfulAt_order.swap b.content, ?_, ?_, ?_⟩
  · intro hab hbc
    have le : (a.content.order c.content).isLE :=
      Std.TransCmp.isLE_trans (Ordering.isLE_iff_ne_gt.2 hab) (Ordering.isLE_iff_ne_gt.2 hbc)
    exact Ordering.isLE_iff_ne_gt.1 le
  · intro h
    rw [order, order_eq_iff.1 h, order]
  · intro h
    exact type?_eq_of_content_eq (order_eq_iff.1 h)

end Value

end WideColumn
