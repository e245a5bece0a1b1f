import WideColumn.Collection.List
import WideColumn.Collection.Map
import WideColumn.Proofs.Collection.Change
import WideColumn.Proofs.Wire.Limits
/-!
# Admission and the wire

The rule which values a type takes stands in two places: where a value enters a slot, and
where it is written. They are the same rule (`Value.encode_of_admitted`,
`Value.exists_admitted_of_encode`), although the first turns texts into texts of the
declared type and the second leaves them as they are. So it makes no difference to the
bytes whether values go through a collection or straight to a frame.
-/

namespace WideColumn

namespace Scalar

/-- A text keeps its bytes when it takes on a type. -/
theorem bytes_of_recast {t : ScalarType} {s r : Scalar} (h : s.recast t = .ok r) : r.bytes = s.bytes := by
  have bytes_text {x : Scalar} {c : String} (hx : x.asText? = some c) : x.bytes = Text.utf8 c := by
    cases x <;> simp only [asText?, Option.some.injEq, reduceCtorEq] at hx <;> rw [← hx] <;> rfl
  rcases recast_cases h with ⟨-, -, rfl⟩ | ⟨c, hs, hr, -⟩
  · rfl
  · rw [bytes_text hs, bytes_text hr]

end Scalar

namespace Value

/-! ## One value -/

/-- The wire checks a single value as if it were to be recast. -/
theorem encode_scalar_of_accepts {u : ScalarType} {s : Scalar} (h : u.accepts s.type = true) (p : Protocol) :
    (scalar s).encode p (.scalar u) = ((s.recast u).mapError .brokenOff).map fun _ => s.bytes := by
  simp only [encode, if_pos h]
  have unchecked (hu : u = .ascii → s.asText? = none) :
      Except.ok s.bytes = ((s.recast u).mapError Error.brokenOff).map fun _ => s.bytes := by
    obtain ⟨r, hr⟩ := Scalar.exists_recast h hu
    rw [hr]
    rfl
  cases u with
  | ascii =>
    cases hs : s.asText? with
    | none => exact unchecked fun _ => hs
    | some c =>
      rw [Scalar.recast_ascii hs, Scalar.ofAscii]
      dsimp only
      cases Scalar.checkAscii c <;> rfl
  | _ => exact unchecked (by simp)

/-- Before and after admission a value has the same bytes, or none for the same reason. -/
theorem encode_of_admitted {t : DataType} {slot : Slot} {v w : Value} (h : admitted t slot v = .ok w) (p : Protocol) :
    v.encode p t = w.encode p t := by
  have hw : Stored t w := .of_admitted h
  rcases admitted_cases h with ⟨u, s, r, rfl, rfl, hu, hr, rfl⟩ | ⟨-, -, rfl⟩
  · rw [encode_stored_scalar hw, encode_scalar_of_accepts hu, hr, Scalar.bytes_of_recast hr]
    rfl
  · rfl

theorem encode_admitted_scalar {t : DataType} {slot : Slot} {s : Scalar} {w : Value}
    (h : admitted t slot (scalar s) = .ok w) (p : Protocol) : (scalar s).encode p t = .ok s.bytes := by
  rcases admitted_cases h with ⟨u, _, r, rfl, hs, hu, hr, -⟩ | ⟨-, hs, -⟩
  · cases hs
    rw [encode_scalar_of_accepts hu, hr]
    rfl
  · cases hs

/-- What can be written as a value of a type may enter a slot of that type. -/
theorem exists_admitted_of_encode {p : Protocol} {t : DataType} {v : Value} {bs : Bytes} (h : v.encode p t = .ok bs)
    (slot : Slot) : ∃ w, admitted t slot v = .ok w := by
  cases v with
  | null => cases h
  | scalar s =>
    cases t with
    | scalar u =>
      by_cases hu : u.accepts s.type = true
      · rw [encode_scalar_of_accepts hu] at h
        cases hr : s.recast u with
        | error e => rw [hr] at h; cases h
        | ok r => exact ⟨scalar r, by rw [admitted, if_pos hu, hr]; rfl⟩
      · simp only [encode, if_neg hu, reduceCtorEq] at h
    | _ => cases h
  | list | set | map =>
    rw [encode_collection rfl, Except.ite_error_eq_ok_iff] at h
    exact ⟨_, by rw [admitted_collection (by simp) rfl, if_pos h.1]⟩

end Value

/-! ## Many values -/

open Value

/-- The second of two typed values is the first one as it was admitted. -/
def Admits (e e' : DataType × Value) : Prop := e'.1 = e.1 ∧ ∃ slot, admitted e.1 slot e.2 = .ok e'.2

namespace Frame

theorem append_of_admits {e e' : DataType × Value} (h : Admits e e') (f : Frame) :
    f.append e.1 e.2 = f.append e'.1 e'.2 := by
  obtain ⟨ht, slot, hv⟩ := h
  unfold append
  rw [ht, encode_of_admitted hv]

/-- A frame takes the same from values before and after their admission. -/
theorem appendAll_of_admits {stream stream' : List (DataType × Value)} (h : List.Forall₂ Admits stream stream')
    (f : Frame) : f.appendAll stream = f.appendAll stream' := by
  induction h generalizing f with
  | nil => rfl
  | @cons e e' stream stream' he _ ih =>
    unfold appendAll at ih ⊢
    rw [List.foldlM_cons, List.foldlM_cons, append_of_admits he]
    exact Except.bind_congr_ok fun g _ => ih g

/-- All that a frame has taken could have entered slots of the same types. -/
theorem exists_admitted_of_appendAll {f f' : Frame} {stream : List (DataType × Value)} (h : f.appendAll stream = .ok f') :
    ∀ e ∈ stream, ∀ slot, ∃ w, admitted e.1 slot e.2 = .ok w := by
  obtain ⟨parts, hparts, -⟩ := appendAll_eq_ok h
  clear h
  induction hparts with
  | nil => simp
  | cons he _ ih =>
    intro e hmem slot
    rcases List.mem_cons.1 hmem with rfl | hmem
    · exact exists_admitted_of_encode he.1 slot
    · exact ih e hmem slot

theorem bytesOf_eq_ok_iff {s : Shape} {p : Protocol} {n : Nat} {stream : List (DataType × Value)} {bs : Bytes} :
    bytesOf s p n stream = .ok bs ↔ ((empty s p n).appendAll stream >>= close) = .ok bs := by
  rw [bytesOf_eq]
  cases (empty s p n).appendAll stream with
  | error e => simp [Except.mapError, bind, Except.bind]
  | ok f => rfl

end Frame

namespace TypedList

/-- Values that are added one by one come to stand at the end, each as it was admitted. -/
theorem foldlM_add_eq_ok_iff {l l' : TypedList Value} (hl : l.knownHash = none) {vs : List Value} :
    vs.foldlM add l = .ok l' ↔
      ∃ ws, List.Forall₂ (fun v w => admitted l.elementType .element v = .ok w) vs ws ∧
        l' = { l with elements := l.elements ++ ws } := by
  induction vs generalizing l with
  | nil =>
    rw [List.foldlM_nil, Except.pure_eq_ok_iff]
    constructor
    · rintro rfl
      exact ⟨[], .nil, by rw [List.append_nil]⟩
    · rintro ⟨_, ⟨⟩, rfl⟩
      rw [List.append_nil]
  | cons v vs ih =>
    rw [List.foldlM_cons, Except.bind_eq_ok_iff]
    constructor
    · rintro ⟨m, hm, h⟩
      obtain ⟨w, hw, rfl⟩ := add_cases hm
      obtain ⟨ws, hws, rfl⟩ := (ih rfl).1 h
      exact ⟨w :: ws, .cons hw hws, by simp [hl]⟩
    · rintro ⟨_, hws, rfl⟩
      cases hws with
      | @cons _ w _ ws hw hws =>
        refine ⟨{ l with elements := l.elements ++ [w], knownHash := none }, ?_, (ih rfl).2 ⟨ws, hws, by simp [hl]⟩⟩
        unfold add
        rw [hw]
        rfl

/-- To add values to an empty list and to write the list, or to write the values right away. -/
theorem toBytes_of_added (t : DataType) (p : Protocol) (vs : List Value) (bs : Bytes) :
    (vs.foldlM add (empty t) >>= fun l => l.toBytes p) = .ok bs ↔
      ((Frame.empty .list p vs.length).appendAll (vs.map (t, ·)) >>= Frame.close) = .ok bs := by
  have written {ws : List Value} (h : List.Forall₂ (fun v w => admitted t .element v = .ok w) vs ws) :
      (⟨t, ws, .start, none⟩ : TypedList Value).toBytes p = .ok bs ↔
        ((Frame.empty .list p vs.length).appendAll (vs.map (t, ·)) >>= Frame.close) = .ok bs := by
    have admits : List.Forall₂ Admits (vs.map (t, ·)) (ws.map (t, ·)) := by
      rw [List.forall₂_map_left_iff, List.forall₂_map_right_iff]
      exact h.imp fun v w hw => ⟨rfl, _, hw⟩
    unfold toBytes
    rw [Frame.bytesOf_eq_ok_iff, Frame.appendAll_of_admits admits, h.length_eq]
    rfl
  constructor
  · intro h
    obtain ⟨l, hl, hbytes⟩ := Except.bind_eq_ok_iff.1 h
    obtain ⟨ws, hws, rfl⟩ := (foldlM_add_eq_ok_iff rfl).1 hl
    exact (written hws).1 hbytes
  · intro h
    obtain ⟨f, hf, -⟩ := Except.bind_eq_ok_iff.1 h
    have admitted : ∀ v ∈ vs, ∃ w, admitted t .element v = .ok w := fun v hv =>
      Frame.exists_admitted_of_appendAll hf (t, v) (List.mem_map_of_mem hv) .element
    obtain ⟨ws, hws⟩ := exists_forall₂ admitted
    exact Except.bind_eq_ok_iff.2 ⟨_, (foldlM_add_eq_ok_iff rfl).2 ⟨ws, hws, rfl⟩, (written hws).2 h⟩

end TypedList

namespace TypedMap

/-- No two of the pairs have keys that are equal once they are admitted. -/
def KeysApart (t : DataType) (es : List (Value × Value)) : Prop :=
  es.Pairwise fun a b => ∀ k l, admitted t .key a.1 = .ok k → admitted t .key b.1 = .ok l → k.equals l = false

/-- The first of two pairs is admitted as the second. -/
def Enters (kt vt : DataType) (e e' : Value × Value) : Prop :=
  admitted kt .key e.1 = .ok e'.1 ∧ admitted vt .value e.2 = .ok e'.2

/-- Under a key that is not there yet, a value comes to stand at the end. -/
theorem set_of_absent {m : TypedMap Value} {k v k' v' : Value} (hk : admitted m.keyType .key k = .ok k')
    (hv : admitted m.valueType .value v = .ok v') (absent : k'.content ∉ m.keys.map content) :
    m.set k v = .ok { m with entries := m.entries ++ [(k', v')], knownHash := none } := by
  unfold set
  rw [hk, hv]
  simp [placeOfKey?, placeOf?_eq_none_iff.2 absent, bind, Except.bind, pure, Except.pure]

/-- Pairs that are set one by one, under keys that are apart, come to stand at the end, each as it was admitted. -/
theorem foldlM_set_eq_ok_iff {m m' : TypedMap Value} (hm : m.knownHash = none) {es : List (Value × Value)}
    (apart : KeysApart m.keyType es)
    (absent : ∀ e ∈ es, ∀ k, admitted m.keyType .key e.1 = .ok k → k.content ∉ m.keys.map content) :
    es.foldlM (fun m e => m.set e.1 e.2) m = .ok m' ↔
      ∃ es', List.Forall₂ (Enters m.keyType m.valueType) es es' ∧ m' = { m with entries := m.entries ++ es' } := by
  induction es generalizing m with
  | nil =>
    rw [List.foldlM_nil, Except.pure_eq_ok_iff]
    constructor
    · rintro rfl
      exact ⟨[], .nil, by rw [List.append_nil]⟩
    · rintro ⟨_, ⟨⟩, rfl⟩
      rw [List.append_nil]
  | cons e es ih =>
    obtain ⟨first, rest⟩ := List.pairwise_cons.1 apart
    -- with the first pair in, the keys of the others are still not there
    have absent' {k v : Value} (hk : admitted m.keyType .key e.1 = .ok k) : ∀ x ∈ es, ∀ l,
        admitted m.keyType .key x.1 = .ok l →
        l.content ∉ ({ m with entries := m.entries ++ [(k, v)], knownHash := none } : TypedMap Value).keys.map content := by
      intro x hx l hl hmem
      rw [keys, List.map_append, List.map_append] at hmem
      rcases List.mem_append.1 hmem with hmem | hmem
      · exact absent x (by simp [hx]) l hl hmem
      · have unequal := first x hx k l hk hl
        have equal : k.equals l = true := equals_iff.2 (by simpa using hmem : l.content = k.content).symm
        rw [equal] at unequal
        cases unequal
    rw [List.foldlM_cons, Except.bind_eq_ok_iff]
    constructor
    · rintro ⟨n, hn, h⟩
      obtain ⟨k, v, hk, hv, -⟩ := set_cases hn
      rw [set_of_absent hk hv (absent e (by simp) k hk)] at hn
      cases hn
      obtain ⟨es', hes, rfl⟩ := (ih (m := { m with entries := m.entries ++ [(k, v)], knownHash := none }) rfl rest (absent' hk)).1 h
      exact ⟨(k, v) :: es', .cons ⟨hk, hv⟩ hes, by simp [hm]⟩
    · rintro ⟨_, hes, rfl⟩
      cases hes with
      | @cons _ e' _ es' he hes =>
        obtain ⟨k, v⟩ := e'
        refine ⟨_, set_of_absent he.1 he.2 (absent e (by simp) k he.1), ?_⟩
        exact (ih (m := { m with entries := m.entries ++ [(k, v)], knownHash := none }) rfl rest (absent' he.1)).2 ⟨es', hes, by simp [hm]⟩

/-- Pairs as they go to the wire, each key before its value. -/
def typed (kt vt : DataType) (es : List (Value × Value)) : List (DataType × Value) :=
  es.flatMap fun e => [(kt, e.1), (vt, e.2)]

theorem admits_typed {kt vt : DataType} {es es' : List (Value × Value)} (h : List.Forall₂ (Enters kt vt) es es') :
    List.Forall₂ Admits (typed kt vt es) (typed kt vt es') := by
  induction h with
  | nil => exact .nil
  | cons he _ ih => exact .cons ⟨rfl, _, he.1⟩ (.cons ⟨rfl, _, he.2⟩ ih)

/-- To set pairs in an empty map and to write the map, or to write the pairs right away. -/
theorem toBytes_of_set {kt : DataType} {es : List (Value × Value)} (apart : KeysApart kt es) (vt : DataType) (p : Protocol)
    (bs : Bytes) :
    (es.foldlM (fun m e => m.set e.1 e.2) (empty kt vt) >>= fun m => m.toBytes p) = .ok bs ↔
      ((Frame.empty .map p es.length).appendAll (typed kt vt es) >>= Frame.close) = .ok bs := by
  have written {es' : List (Value × Value)} (h : List.Forall₂ (Enters kt vt) es es') :
      (⟨kt, vt, es', .start, none⟩ : TypedMap Value).toBytes p = .ok bs ↔
        ((Frame.empty .map p es.length).appendAll (typed kt vt es) >>= Frame.close) = .ok bs := by
    unfold toBytes
    rw [Frame.bytesOf_eq_ok_iff, Frame.appendAll_of_admits (admits_typed h), h.length_eq]
    rfl
  -- an empty map has no key that could be there already
  have absent : ∀ e ∈ es, ∀ k, admitted kt .key e.1 = .ok k → k.content ∉ (empty kt vt).keys.map content :=
    fun _ _ _ _ => List.not_mem_nil
  constructor
  · intro h
    obtain ⟨m, hm, hbytes⟩ := Except.bind_eq_ok_iff.1 h
    obtain ⟨es', hes, rfl⟩ := (foldlM_set_eq_ok_iff rfl apart absent).1 hm
    exact (written hes).1 hbytes
  · intro h
    obtain ⟨f, hf, -⟩ := Except.bind_eq_ok_iff.1 h
    have enters : ∀ e ∈ es, ∃ e', Enters kt vt e e' := by
      intro e he
      have taken {x : DataType × Value} (hx : x ∈ [(kt, e.1), (vt, e.2)]) (slot : Slot) :
          ∃ w, admitted x.1 slot x.2 = .ok w :=
        Frame.exists_admitted_of_appendAll hf x (List.mem_flatMap.2 ⟨e, he, hx⟩) slot
      obtain ⟨k, hk⟩ := taken (x := (kt, e.1)) (by simp) .key
      obtain ⟨v, hv⟩ := taken (x := (vt, e.2)) (by simp) .value
      exact ⟨(k, v), hk, hv⟩
    obtain ⟨es', hes⟩ := exists_forall₂ enters
    exact Except.bind_eq_ok_iff.2 ⟨_, (foldlM_set_eq_ok_iff rfl apart absent).2 ⟨es', hes, rfl⟩, (written hes).2 h⟩

end TypedMap

namespace Value

/-- What a slot refuses cannot be written as a value of its type, and what it takes has the same
bytes before and after. A list or a map is therefore written as what was put into it would
have been, for a map as long as no key comes twice. -/
theorem admission_agrees :
    (∀ t slot v e, admitted t slot v = .error e → ∀ p, ∃ e', v.encode p t = .error e') ∧
    (∀ t slot v w, admitted t slot v = .ok w → ∀ p, v.encode p t = w.encode p t) ∧
    (∀ t slot s w, admitted t slot (scalar s) = .ok w → ∀ p, ∃ bs, (scalar s).encode p t = .ok bs) ∧
    (∀ t p (vs : List Value) bs, (vs.foldlM TypedList.add (.empty t) >>= fun l => l.toBytes p) = .ok bs ↔
      ((Frame.empty .list p vs.length).appendAll (vs.map (t, ·)) >>= Frame.close) = .ok bs) ∧
    (∀ kt vt es, TypedMap.KeysApart kt es → ∀ p bs,
      (es.foldlM (fun m e => m.set e.1 e.2) (TypedMap.empty kt vt) >>= fun m => m.toBytes p) = .ok bs ↔
        ((Frame.empty .map p es.length).appendAll (TypedMap.typed kt vt es) >>= Frame.close) = .ok bs) := by
  refine ⟨?refused, ?taken, ?single, TypedList.toBytes_of_added, ?pairs⟩
  case refused =>
    intro t slot v e h p
    cases hv : v.encode p t with
    | error e' => exact ⟨e', rfl⟩
    | ok bs =>
      obtain ⟨w, hw⟩ := exists_admitted_of_encode hv slot
      rw [hw] at h
      cases h
  case taken =>
    intro t slot v w h p
    exact encode_of_admitted h p
  case single =>
    intro t slot s w h p
    exact ⟨s.bytes, encode_admitted_scalar h p⟩
  case pairs =>
    intro kt vt es apart p bs
    exact TypedMap.toBytes_of_set apart vt p bs

/-- Texts of other types than the declared ones, as pairs for a map. -/
def names : List (Value × Value) :=
  [(scalar (.varchar "a"), scalar (.text "x")), (scalar (.text "b"), scalar (.varchar "é"))]

theorem admission_agrees_on_names :
    (∃ e, admitted (.scalar .ascii) .element (scalar (.varchar "é")) = .error e) ∧
    (∃ e, (scalar (.varchar "é")).encode .v3 (.scalar .ascii) = .error e) ∧
    admitted (.scalar .text) .key (scalar (.varchar "a")) = .ok (scalar (.text "a")) ∧
    (scalar (.varchar "a")).encode .v3 (.scalar .text) = (scalar (.text "a")).encode .v3 (.scalar .text) ∧
    (∃ bs, (scalar (.varchar "a")).encode .v3 (.scalar .text) = .ok bs) ∧
    TypedMap.KeysApart (.scalar .text) names ∧
    ((Frame.empty .map .v2 2).appendAll (TypedMap.typed (.scalar .text) (.scalar .text) names) >>= Frame.close) =
      .ok [0, 2, 0, 1, 97, 0, 1, 120, 0, 1, 98, 0, 2, 195, 169] := by
  obtain ⟨refused, taken, single, -, pairs⟩ := admission_agrees
  have admits : admitted (.scalar .text) .key (scalar (.varchar "a")) = .ok (scalar (.text "a")) := rfl
  have apart : TypedMap.KeysApart (.scalar .text) names := by
    refine List.pairwise_pair.2 ?_
    rintro k l ⟨⟩ ⟨⟩
    decide
  exact ⟨⟨_, rfl⟩, refused _ .element _ _ rfl _, admits, taken _ _ _ _ admits _, single _ _ _ _ admits _, apart,
    (pairs _ _ _ apart .v2 _).1 rfl⟩

end Value

end WideColumn
