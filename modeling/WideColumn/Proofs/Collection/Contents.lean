import WideColumn.Proofs.Collection.Operation
/-!
# What stands in collections

Whatever operations built a collection, accepted or refused, everything in it at any
depth is as the slot that it stands in wants it (`Value.Typed`). Only admission puts
values into slots, and what it lets in is either a single value or a collection that
was built the same way.
-/

namespace WideColumn

theorem Stored.not_custom {name : String} {v : Value} : ¬Stored (.custom name) v := by
  rintro ⟨htype, -⟩
  cases v <;> cases htype

namespace Value

/-- Everything in the value, at any depth, is as its slot wants it. -/
def Typed (v : Value) : Prop := ∀ t w, Inside v t w → Stored t w

theorem typed_iff {v : Value} : v.Typed ↔ ∀ t w, (t, w) ∈ v.stream → Stored t w ∧ w.Typed := forall_inside_iff

theorem typed_of_stream_eq_nil {v : Value} (h : v.stream = []) : v.Typed :=
  typed_iff.2 fun t w hw => by rw [h] at hw; cases hw

theorem bare_eq_scalar_iff {v : Value} {s : Scalar} : v.bare = scalar s ↔ v = scalar s := by
  cases v <;> simp [bare]

theorem stored_bare {t : DataType} {v : Value} : Stored t v.bare ↔ Stored t v := by
  rw [stored_iff, stored_iff, type?_bare]
  simp only [bare_eq_scalar_iff]

theorem typed_bare {v : Value} : v.bare.Typed ↔ v.Typed := by
  induction v using induction with
  | h v ih =>
    rw [typed_iff, typed_iff, stream_bare]
    constructor
    · intro h t w hw
      obtain ⟨hs, ht⟩ := h t w.bare (List.mem_map.2 ⟨(t, w), hw, rfl⟩)
      exact ⟨stored_bare.1 hs, (ih t w hw).1 ht⟩
    · intro h t w hw
      obtain ⟨⟨u, x⟩, hx, heq⟩ := List.mem_map.1 hw
      obtain ⟨rfl, rfl⟩ := Prod.mk.inj heq
      exact ⟨stored_bare.2 (h u x hx).1, (ih u x hx).2 (h u x hx).2⟩

theorem typed_of_admitted {t : DataType} {slot : Slot} {v w : Value} (h : admitted t slot v = .ok w) (hv : v.Typed) :
    w.Typed := by
  rcases admitted_cases h with ⟨_, _, _, -, -, -, -, rfl⟩ | ⟨-, -, rfl⟩
  · exact typed_of_stream_eq_nil rfl
  · exact hv

theorem Typed.edit {given : List Value} {v v' : Value} (hv : v.Typed) (hg : ∀ x ∈ given, x.Typed)
    (he : Edit given v v') : v'.Typed := by
  refine typed_iff.2 fun t w hw => ?_
  rcases he.entries t w hw with hw | ⟨slot, x, hx, ha⟩
  · exact typed_iff.1 hv t w hw
  · exact ⟨.of_admitted ha, typed_of_admitted ha (hg x hx)⟩

/-- Every value that a program can have is typed throughout. -/
theorem Reachable.typed {v : Value} (h : v.Reachable) : v.Typed := by
  induction h with
  | null | scalar | list | set | map => exact typed_of_stream_eq_nil rfl
  | step op _ _ ihv ihg => exact ihv.edit ihg (edit_step _ op)
  | read path _ ih =>
    rw [← typed_bare, bare_readAt, typed_bare]
    exact ih
  | entry _ hw ih => exact (typed_iff.1 ih _ _ hw).2

/-- Nothing ever comes into a slot of a custom type. -/
theorem Reachable.stream_eq_nil {c : Value} {name : String} (hc : c.Reachable)
    (h : c.type? = some (.list (.custom name)) ∨ c.type? = some (.set (.custom name)) ∨
      ∃ t, c.type? = some (.map (.custom name) t)) : c.stream = [] := by
  have no_entry : ∀ w, (.custom name, w) ∉ c.stream := fun w hw => Stored.not_custom (hc.typed _ w (.entry hw))
  refine List.eq_nil_iff_forall_not_mem.2 ?_
  rintro ⟨t, w⟩ hw
  cases c with
  | null | scalar s => cases hw
  | list l =>
    have ht : l.elementType = .custom name := by simpa [type?] using h
    obtain ⟨rfl, -⟩ := mem_stream_list.1 hw
    exact no_entry w (ht ▸ hw)
  | set s =>
    have ht : s.elementType = .custom name := by simpa [type?] using h
    obtain ⟨rfl, -⟩ := mem_stream_set.1 hw
    exact no_entry w (ht ▸ hw)
  | map m =>
    have ht : m.keyType = .custom name := by simpa [type?] using h
    obtain ⟨e, he, -⟩ := mem_stream_map.1 hw
    exact no_entry e.1 (mem_stream_map.2 ⟨e, he, .inl ⟨ht.symm, rfl⟩⟩)

theorem exists_ascii_of_type? {v : Value} (h : v.type? = some (.scalar .ascii)) : ∃ s, v = scalar (.ascii s) := by
  rcases v with _ | (_ | _) | _ | _ | _ <;> first | exact ⟨_, rfl⟩ | cases h

/-- Everything in a collection, at any depth, has exactly the type declared for it, and
where that is ASCII only 7-bit bytes; a collection of a custom type stays empty. What
was admitted is admitted again as it is, and admission never touches a text. -/
theorem contents_as_declared {c : Value} (hc : c.Reachable) :
    (∀ t v, Inside c t v →
      v ≠ .null ∧ v.type? = some t ∧
      (t = .scalar .ascii → ∃ s, v = .scalar (.ascii s) ∧ ∀ b ∈ Text.utf8 s, b < 128)) ∧
    (∀ name, (c.type? = some (.list (.custom name)) ∨ c.type? = some (.set (.custom name)) ∨
      ∃ t, c.type? = some (.map (.custom name) t)) → c.stream = []) ∧
    ∀ t slot v w, admitted t slot v = .ok w →
      (∀ slot', admitted t slot' w = .ok w) ∧ w.asText? = v.asText? ∧ (v.asText? = none → w = v) := by
  refine ⟨fun t v hv => ?_, fun name => hc.stream_eq_nil, fun t slot v w h => ?_⟩
  · have hs := hc.typed t v hv
    refine ⟨hs.not_null, hs.type_eq, fun ht => ?_⟩
    obtain ⟨s, rfl⟩ := exists_ascii_of_type? (ht ▸ hs.type_eq)
    exact ⟨s, rfl, hs.ascii s rfl⟩
  · exact ⟨(Stored.of_admitted h).admitted_eq, asText?_of_admitted h⟩

/-- A list of texts to which a plain text was added, and then an ASCII text that is none. -/
def initials : Value :=
  ((list (.empty (.scalar .ascii))).step (.add (scalar (.text "a")))).step (.add (scalar (.ascii "é")))

theorem contents_of_initials : ∃ v, Inside initials (.scalar .ascii) v ∧
    ∃ s, v = scalar (.ascii s) ∧ ∀ b ∈ Text.utf8 s, b < 128 := by
  have reachable : initials.Reachable := ((Reachable.list _).add (.scalar _)).add (.scalar _)
  have inside : Inside initials (.scalar .ascii) (scalar (.ascii "a")) :=
    .entry (List.mem_singleton.2 rfl : _ ∈ [_])
  exact ⟨_, inside, ((contents_as_declared reachable).1 _ _ inside).2.2 rfl⟩

end Value

end WideColumn
