import WideColumn.Proofs.Collection.Request
import WideColumn.Proofs.Hash
/-!
# Known hashes do not matter

To forget all known hashes and then to put a request is to put the request and then
to forget the hashes: the answer and what becomes of the value are the same, except
that the values in an answer have no hashes known in them (`Value.answer_unread`,
`Value.after_unread`). Only for the answer to a reading of a hash must the known
hashes be right.
-/

namespace WideColumn

open Value

/-! ## Admission and search -/

theorem admitted_unread (t : DataType) (slot : Slot) (v : Value) :
    admitted t slot v.unread = (admitted t slot v).map unread := by
  have collection (hn : v ≠ null) (hs : v.asScalar? = none) (hn' : v.unread ≠ null) (hs' : v.unread.asScalar? = none) :
      admitted t slot v.unread = (admitted t slot v).map unread := by
    have misfit : v.unread.misfit t slot = v.misfit t slot := by simp [Value.misfit, typeName]
    rw [admitted_collection hn hs, admitted_collection hn' hs', type?_unread, misfit]
    split <;> rfl
  cases v with
  | null => cases t <;> simp [admitted, Except.map]
  | scalar s =>
    rw [unread_scalar]
    cases t with
    | scalar u =>
      simp only [admitted]
      split
      · cases s.recast u <;> simp [Except.map]
      · rfl
    | _ => simp [admitted, type?, Except.map]
  | list | set | map => exact collection (by simp) rfl (by simp) (by simp [asScalar?])

theorem placeOf?_unread (v : Value) (vs : List Value) : placeOf? v.unread (vs.map unread) = placeOf? v vs := by
  simp [placeOf?, List.findIdx?_map, Function.comp_def]

/-! ## Lists -/

namespace TypedList

variable (l : TypedList Value)

theorem unread_add (v : Value) : l.unread.add v.unread = (l.add v).map unread := by
  unfold add
  rw [unread, admitted_unread]
  apply Except.map_bind_congr
  intro w
  simp [pure, Except.pure, Except.map, unread]

theorem unread_get? (i : Nat) : l.unread.get? i = (l.get? i).map Value.unread := by
  simp [get?, unread]

theorem unread_find (v : Value) : l.unread.find v.unread = l.find v := by
  unfold find
  rw [unread, admitted_unread]
  cases admitted l.elementType .element v with
  | error e => rfl
  | ok w => simp [Except.map, bind, Except.bind, placeOf?_unread]

theorem unread_remove (i : Nat) : l.unread.remove i = ((l.remove i).1.map Value.unread, (l.remove i).2.unread) := by
  unfold remove
  simp only [unread, List.getElem?_map]
  cases l.elements[i]? with
  | none => rfl
  | some v => simp [List.eraseIdx_map]

theorem unread_key? : l.unread.key? = l.key? := by
  simp [key?, size, unread]

theorem unread_current? : l.unread.current? = l.current?.map Value.unread := by
  unfold current?
  rw [unread_key?]
  cases l.key? with
  | none => rfl
  | some i => exact l.unread_get? i

end TypedList

/-! ## Sets -/

namespace TypedSet

variable (s : TypedSet Value)

theorem unread_add (v : Value) : s.unread.add v.unread = (s.add v).map fun r => (r.1, r.2.unread) := by
  unfold add
  rw [unread, admitted_unread]
  apply Except.map_bind_congr
  intro w
  rw [placeOf?_unread]
  cases placeOf? w s.elements <;> simp [pure, Except.pure, Except.map, unread]

theorem unread_contains (v : Value) : s.unread.contains v.unread = s.contains v := by
  unfold contains
  rw [unread, admitted_unread]
  cases admitted s.elementType .element v with
  | error e => rfl
  | ok w => simp [Except.map, bind, Except.bind, placeOf?_unread]

theorem unread_remove (v : Value) : s.unread.remove v.unread = (s.remove v).map fun r => (r.1, r.2.unread) := by
  unfold remove
  rw [unread, admitted_unread]
  apply Except.map_bind_congr
  intro w
  rw [placeOf?_unread]
  cases placeOf? w s.elements <;> simp [pure, Except.pure, Except.map, unread, List.eraseIdx_map]

theorem unread_key? : s.unread.key? = s.key? := by
  simp [key?, size, unread]

theorem unread_current? : s.unread.current? = s.current?.map Value.unread := by
  unfold current?
  rw [unread_key?]
  cases s.key? with
  | none => rfl
  | some i => simp [unread]

end TypedSet

/-! ## Maps -/

namespace TypedMap

variable (m : TypedMap Value)

theorem unread_placeOfKey? (k : Value) : m.unread.placeOfKey? k.unread = m.placeOfKey? k := by
  unfold placeOfKey? keys unread
  rw [← placeOf?_unread k, List.map_map, List.map_map]
  rfl

theorem unread_set (k v : Value) : m.unread.set k.unread v.unread = (m.set k v).map unread := by
  unfold set
  change admitted m.keyType .key k.unread >>= _ = _
  rw [admitted_unread]
  apply Except.map_bind_congr
  intro k'
  change admitted m.valueType .value v.unread >>= _ = _
  rw [admitted_unread]
  apply Except.map_bind_congr
  intro v'
  rw [unread_placeOfKey?]
  cases m.placeOfKey? k' with
  | none => simp [pure, Except.pure, Except.map, unread]
  | some i =>
    have entries : (m.entries.map fun e => (e.1.unread, e.2.unread)).modify i (fun e => (e.1, v'.unread)) =
        (m.entries.modify i fun e => (e.1, v')).map fun e => (e.1.unread, e.2.unread) := by
      apply List.ext_getElem?
      intro j
      simp only [List.getElem?_modify, List.getElem?_map]
      split <;> cases m.entries[j]? <;> rfl
    simp [pure, Except.pure, Except.map, unread, entries]

theorem unread_get (k : Value) : m.unread.get k.unread = (m.get k).map (·.map Value.unread) := by
  unfold get
  change admitted m.keyType .key k.unread >>= _ = _
  rw [admitted_unread]
  apply Except.map_bind_congr
  intro k'
  rw [unread_placeOfKey?]
  cases m.placeOfKey? k' with
  | none => rfl
  | some i => simp [pure, Except.pure, Except.map, unread, Function.comp_def]

theorem unread_contains (k : Value) : m.unread.contains k.unread = m.contains k := by
  unfold contains
  change admitted m.keyType .key k.unread >>= _ = _
  rw [admitted_unread]
  cases admitted m.keyType .key k with
  | error e => rfl
  | ok k' => simp [Except.map, bind, Except.bind, unread_placeOfKey?]

theorem unread_remove (k : Value) : m.unread.remove k.unread = (m.remove k).map fun r => (r.1, r.2.unread) := by
  unfold remove
  change admitted m.keyType .key k.unread >>= _ = _
  rw [admitted_unread]
  apply Except.map_bind_congr
  intro k'
  rw [unread_placeOfKey?]
  cases m.placeOfKey? k' <;> simp [pure, Except.pure, Except.map, unread, List.eraseIdx_map]

theorem unread_entry? : m.unread.entry? = m.entry?.map fun e => (e.1.unread, e.2.unread) := by
  unfold entry?
  simp only [size, unread, List.length_map]
  cases m.cursor.index? m.entries.length <;> simp

end TypedMap

/-! ## Operations and answers -/

def Operation.unread : Operation → Operation
  | add v => add v.unread
  | set k v => set k.unread v.unread
  | removeAt i => removeAt i
  | remove v => remove v.unread
  | clear => clear
  | rewind => rewind
  | advance => advance

def Reply.unread : Reply → Reply
  | value v => value (v.map Value.unread)
  | entries es => entries (es.map fun e => (e.1, e.2.unread))
  | r => r

namespace Value

theorem step_unread (v : Value) (op : Operation) : v.unread.step op.unread = (v.step op).unread := by
  cases v with
  | null => rw [unread_null]; rfl
  | scalar s => rw [unread_scalar]; rw [step.eq_def, step.eq_def]; simp
  | list l =>
    rw [unread_list]
    cases op with
    | add v => simp only [step, Operation.unread, unread_list, TypedList.unread_add, Except.toOption_map_getD]
    | removeAt i => simp only [step, Operation.unread, unread_list, TypedList.unread_remove]
    | _ => simp [step, Operation.unread, TypedList.unread, TypedList.clear, TypedList.rewind, TypedList.advance]
  | set s =>
    rw [unread_set]
    cases op with
    | add v => simp [step, Operation.unread, TypedSet.unread_add, Except.map_map, ← Except.toOption_map_getD TypedSet.unread]
    | remove v => simp [step, Operation.unread, TypedSet.unread_remove, Except.map_map, ← Except.toOption_map_getD TypedSet.unread]
    | _ => simp [step, Operation.unread, TypedSet.unread, TypedSet.clear, TypedSet.rewind, TypedSet.advance]
  | map m =>
    rw [unread_map]
    cases op with
    | set k v => simp only [step, Operation.unread, unread_map, TypedMap.unread_set, Except.toOption_map_getD]
    | remove k => simp [step, Operation.unread, TypedMap.unread_remove, Except.map_map, ← Except.toOption_map_getD TypedMap.unread]
    | _ => simp [step, Operation.unread, TypedMap.unread, TypedMap.clear, TypedMap.rewind, TypedMap.advance]

theorem elementTexts_eq (places : Nat) (vs : List Value) : elementTexts places vs = vs.map (format places) := by
  induction vs with
  | nil => rfl
  | cons v vs ih => rw [elementTexts, ih, List.map_cons]

theorem entryTexts_eq (places : Nat) (es : List (Value × Value)) :
    entryTexts places es = es.map fun e => e.1.format places ++ ": " ++ e.2.format places := by
  induction es with
  | nil => rfl
  | cons e es ih => rw [entryTexts, ih, List.map_cons]

theorem format_unread (places : Nat) (v : Value) : v.unread.format places = v.format places := by
  induction v using induction with
  | h v ih =>
    cases v with
    | null => rw [unread_null]
    | scalar s => rw [unread_scalar]
    | list l =>
      have elements : ∀ w ∈ l.elements, (format places ∘ unread) w = format places w :=
        fun w hw => ih _ w (mem_stream_list.2 ⟨rfl, hw⟩)
      rw [unread_list, TypedList.unread, format, format, elementTexts_eq, elementTexts_eq, List.map_map,
        List.map_congr_left elements]
    | set s =>
      have elements : ∀ w ∈ s.elements, (format places ∘ unread) w = format places w :=
        fun w hw => ih _ w (mem_stream_set.2 ⟨rfl, hw⟩)
      rw [unread_set, TypedSet.unread, format, format, elementTexts_eq, elementTexts_eq, List.map_map,
        List.map_congr_left elements]
    | map m =>
      have entries : ∀ e ∈ m.entries, e.1.unread.format places ++ ": " ++ e.2.unread.format places =
          e.1.format places ++ ": " ++ e.2.format places := by
        intro e he
        rw [ih _ e.1 (mem_stream_map.2 ⟨e, he, .inl ⟨rfl, rfl⟩⟩), ih _ e.2 (mem_stream_map.2 ⟨e, he, .inr ⟨rfl, rfl⟩⟩)]
      rw [unread_map, TypedMap.unread, format, format, entryTexts_eq, entryTexts_eq, List.map_map]
      exact congrArg (fun texts => "\x7b" ++ ", ".intercalate texts ++ "\x7d") (List.map_congr_left entries)

theorem order_unread (v w : Value) : v.unread.order w.unread = v.order w := by
  rw [order, order, content_unread, content_unread]

theorem encode_unread (v : Value) (p : Protocol) (t : DataType) : v.unread.encode p t = v.encode p t := by
  rw [← encode_bare, bare_unread, encode_bare]

theorem toBytes?_unread (v : Value) (p : Protocol) : v.unread.toBytes? p = v.toBytes? p := by
  rw [← toBytes?_bare, bare_unread, toBytes?_bare]

theorem within?_unread (path : List Nat) (v : Value) : v.unread.within? path = (v.within? path).map unread := by
  induction path generalizing v with
  | nil => rfl
  | cons i path ih =>
    rw [within?, within?, stream_unread, List.getElem?_map]
    cases v.stream[i]? with
    | none => rfl
    | some e => exact ih e.2

theorem coherent_unread (v : Value) : v.unread.Coherent := by
  induction v using induction with
  | h v ih =>
    refine coherent_iff.2 ⟨?_, ?_⟩
    · intro h hh
      cases v <;> simp [knownHash?, TypedList.unread, TypedSet.unread, TypedMap.unread] at hh
    · intro t w hw
      rw [stream_unread] at hw
      obtain ⟨e, he, hew⟩ := List.mem_map.1 hw
      obtain ⟨rfl, rfl⟩ := Prod.mk.inj hew
      exact ih e.1 e.2 he

theorem Coherent.of_within? {v w : Value} (hv : v.Coherent) {path : List Nat} (h : v.within? path = some w) : w.Coherent := by
  induction path generalizing v with
  | nil => cases h; exact hv
  | cons i path ih =>
    obtain ⟨e, he, h⟩ := Option.bind_eq_some_iff.1 h
    exact ih (hv.entry (List.mem_of_getElem? he)) h

/-- Where known hashes are right, a hash is read as if none were known. -/
theorem Coherent.readHash_unread {v : Value} (hv : v.Coherent) : v.unread.readHash.1 = v.readHash.1 := by
  rw [(coherent_unread v).readHash_eq, hv.readHash_eq, hash, hash, content_unread]

end Value

theorem TypedList.answer_unread (l : TypedList Value) (r : Request Value) :
    l.unread.answer (r.map Value.unread) = (l.answer r).map Reply.unread := by
  have bytes (p : Protocol) : l.unread.toBytes p = l.toBytes p := by simpa [toBytes?] using toBytes?_unread (list l) p
  cases r with
  | add v => simp [answer, Request.map, unread_add, Except.map_map, Reply.unread]
  | removeAt i => simp [answer, Request.map, unread_remove, Except.map, Reply.unread]
  | size => simp [answer, Request.map, size, unread, Except.map, Reply.unread]
  | get i => simp [answer, Request.map, unread_get?, Except.map, Reply.unread]
  | find v => simp [answer, Request.map, unread_find, Except.map_map, Reply.unread]
  | contains v => simp [answer, Request.map, contains, unread_find, Except.map_map, Reply.unread]
  | valid => simp [answer, Request.map, valid, unread_key?, Except.map, Reply.unread]
  | key => simp [answer, Request.map, unread_key?, Except.map, Reply.unread]
  | current => simp [answer, Request.map, unread_current?, Except.map, Reply.unread]
  | bytes p => simp [answer, Request.map, bytes, Except.map_map, Reply.unread]
  | _ => rfl

theorem TypedSet.answer_unread (s : TypedSet Value) (r : Request Value) :
    s.unread.answer (r.map Value.unread) = (s.answer r).map Reply.unread := by
  have bytes (p : Protocol) : s.unread.toBytes p = s.toBytes p := by simpa [toBytes?] using toBytes?_unread (set s) p
  cases r with
  | add v => simp [answer, Request.map, unread_add, Except.map_map, Reply.unread]
  | remove v => simp [answer, Request.map, unread_remove, Except.map_map, Reply.unread]
  | size => simp [answer, Request.map, size, unread, Except.map, Reply.unread]
  | contains v => simp [answer, Request.map, unread_contains, Except.map_map, Reply.unread]
  | valid => simp [answer, Request.map, valid, unread_key?, Except.map, Reply.unread]
  | key => simp [answer, Request.map, unread_key?, Except.map, Reply.unread]
  | current => simp [answer, Request.map, unread_current?, Except.map, Reply.unread]
  | bytes p => simp [answer, Request.map, bytes, Except.map_map, Reply.unread]
  | _ => rfl

theorem TypedMap.answer_unread (m : TypedMap Value) (r : Request Value) :
    m.unread.answer (r.map Value.unread) = (m.answer r).map Reply.unread := by
  have bytes (p : Protocol) : m.unread.toBytes p = m.toBytes p := by simpa [toBytes?] using toBytes?_unread (map m) p
  cases r with
  | set k v => simp [answer, Request.map, unread_set, Except.map_map, Reply.unread]
  | remove k => simp [answer, Request.map, unread_remove, Except.map_map, Reply.unread]
  | size => simp [answer, Request.map, size, unread, Except.map, Reply.unread]
  | lookup k => simp [answer, Request.map, unread_get, Except.map_map, Reply.unread]
  | contains k => simp [answer, Request.map, unread_contains, Except.map_map, Reply.unread]
  | valid => simp [answer, Request.map, valid, size, unread, Except.map, Reply.unread]
  | key => simp [answer, Request.map, key?, unread_entry?, Except.map, Reply.unread, Function.comp_def]
  | current => simp [answer, Request.map, current?, unread_entry?, Except.map, Reply.unread, Function.comp_def]
  | bytes p => simp [answer, Request.map, bytes, Except.map_map, Reply.unread]
  | _ => rfl

namespace Value

theorem formAnswer_unread (v : Value) (r : Request Value) :
    v.unread.formAnswer (r.map unread) = (v.formAnswer r).map Reply.unread := by
  cases v with
  | null => rw [unread_null]; rfl
  | scalar s => rw [unread_scalar]; rfl
  | list l => rw [unread_list]; exact l.answer_unread r
  | set s => rw [unread_set]; exact s.answer_unread r
  | map m => rw [unread_map]; exact m.answer_unread r

/-- What is answered has nothing to do with the hashes that are known. -/
theorem answer_unread {v : Value} (hv : v.Coherent) (r : Request Value) :
    v.unread.answer (r.map unread) = (v.answer r).map Reply.unread := by
  cases r with
  | type => simp [answer, Request.map, Except.map, Reply.unread]
  | entries => simp [answer, Request.map, Except.map, Reply.unread, stream_unread]
  | order w => simp [answer, Request.map, Except.map, Reply.unread, order_unread]
  | encode p t => simp [answer, Request.map, Except.map_map, Reply.unread, encode_unread]
  | text places => simp [answer, Request.map, Except.map, Reply.unread, format_unread]
  | hash path =>
    simp only [answer, Request.map, within?_unread, Except.map, Reply.unread]
    cases hw : v.within? path with
    | none => rfl
    | some w => simp [(hv.of_within? hw).readHash_unread]
  | _ => exact formAnswer_unread v _

theorem operation?_unread (r : Request Value) : (r.map unread).operation? = r.operation?.map Operation.unread := by
  cases r <;> rfl

/-- What becomes of a value has nothing to do with the hashes that are known, either. -/
theorem after_unread (v : Value) {r : Request Value} (hr : r.isRead = false) :
    v.unread.after (r.map unread) = (v.after r).unread := by
  have hr' : (r.map unread).isRead = false := by cases r <;> first | rfl | cases hr
  rw [after_of_operation hr, after_of_operation hr', operation?_unread]
  cases r.operation? with
  | none => rfl
  | some op => exact step_unread v op

theorem unread_after_read (v : Value) {r : Request Value} (hr : r.isRead = true) : (v.after r).unread = v.unread := by
  cases r with
  | hash path => exact unread_readAt path v
  | _ => cases hr

end Value

end WideColumn
