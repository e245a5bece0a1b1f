import WideColumn.Proofs.Collection.Change
import WideColumn.Proofs.Collection.Request
/-!
# Walks with the cursor

A walk sends the cursor to the first entry and moves it on, one entry after the other.
Between two moves anything may be asked of the collection but to clear it or to move
the cursor: entries go, also the one under the cursor, and others come in at the end.

To tell entries apart, whatever stands in them, they are numbered in the order in which
they come in. The numbers stand beside the collection (`Stage`) and the collection knows
nothing of them. Two things carry the proofs: the entry on which the cursor came to stand,
or the place where it was, parts the row into what the walk is done with and what is
still ahead (`Stands`, from one move to the next; `Between`, at the moves), and what is
gone stays gone (`Later`).
-/

namespace WideColumn

open Value

/-! ## Stages -/

/-- An entry by the number with which it came in. -/
structure Entry where
  number : Nat
  mark : Value

def Change.arrivals {α : Type} (f : Value → α) : Change → List α
  | append x => [f x]
  | _ => []

/-- A collection with the numbers of its entries: those that are there, in their row, and
all that have ever been there since the numbering began. -/
structure Stage where
  value : Value
  row : List Entry
  all : List Entry

namespace Stage

/-- The cursor goes to the first entry and the numbering begins. -/
def start (c : Value) : Stage :=
  let row := c.marks.mapIdx fun i mark => ⟨i, mark.bare⟩
  ⟨c.after .rewind, row, row⟩

def act (s : Stage) (r : Request Value) : Stage :=
  let entry (mark : Value) : Entry := ⟨s.all.length, mark.bare⟩
  { value := s.value.after r
    row := (r.change s.value).on entry s.row
    all := s.all ++ (r.change s.value).arrivals entry }

/-- Some requests, and then the cursor moves on. -/
def round (s : Stage) (batch : List (Request Value)) : Stage := (batch.foldl act s).act .advance

/-- The entry under the cursor. -/
def under? (s : Stage) : Option Entry := s.row[s.value.cursor.position]?

end Stage

/-- The stages of a walk at which the cursor has come to an entry, and the stage after the
last move. -/
inductive Walk (c : Value) : List Stage → Stage → Prop
  | rewind : Walk c [] (.start c)
  | round {path : List Stage} {s : Stage} {e : Entry} {batch : List (Request Value)} :
    Walk c path s → s.under? = some e → (∀ r ∈ batch, r.isMove = false) → Walk c (path ++ [s]) (s.round batch)

/-- The entries on which the cursor came to stand. -/
def landed (path : List Stage) : List Entry := path.filterMap Stage.under?

/-- At one of the stages the entry is gone, and the cursor had not come to it before. -/
def Missed (stages : List Stage) (e : Entry) : Prop :=
  ∃ before t after, stages = before ++ t :: after ∧ e ∈ t.all ∧ e ∉ t.row ∧ e ∉ landed before

/-! ## Numbers -/

namespace Stage

/-- The numbers are in order, and the row is that of the collection. -/
structure Kept (s : Stage) : Prop where
  marks_eq : s.row.map Entry.mark = s.value.marks.map bare
  sublist : s.row.Sublist s.all
  numbers : s.all.map Entry.number = List.range s.all.length

theorem Kept.number_lt {s : Stage} (hs : s.Kept) {e : Entry} (he : e ∈ s.all) : e.number < s.all.length := by
  rw [← List.mem_range, ← hs.numbers]
  exact List.mem_map_of_mem he

theorem Kept.all_ascending {s : Stage} (hs : s.Kept) : s.all.Pairwise fun x y => x.number < y.number := by
  have numbers : (s.all.map Entry.number).Pairwise (· < ·) := by
    rw [hs.numbers]
    exact List.pairwise_lt_range
  exact List.pairwise_map.1 numbers

theorem kept_start (c : Value) : (start c).Kept where
  marks_eq := by
    have rewound : (c.after .rewind).marks.map bare = c.marks.map bare := by
      rw [(c.row_after .rewind).1]
      cases c <;> rfl
    rw [start, rewound]
    apply List.ext_getElem?
    intro i
    simp only [List.getElem?_map, List.getElem?_mapIdx, Option.map_map]
    rfl
  sublist := List.Sublist.refl _
  numbers := by
    apply List.ext_getElem
    · simp [start]
    · intro i h h'
      simp [start]

theorem Kept.act {s : Stage} (hs : s.Kept) (r : Request Value) : (s.act r).Kept := by
  constructor
  · rw [Stage.act, (s.value.row_after r).1, Change.map_on, hs.marks_eq]
  · unfold Stage.act
    cases r.change s.value with
    | append x => exact hs.sublist.append_right _
    | erase i =>
      simp only [Change.arrivals, List.append_nil]
      exact (List.eraseIdx_sublist ..).trans hs.sublist
    | clear => exact List.nil_sublist _
    | _ =>
      simp only [Change.arrivals, List.append_nil]
      exact hs.sublist
  · unfold Stage.act
    cases r.change s.value with
    | append x => simp [Change.arrivals, hs.numbers, List.range_succ]
    | _ =>
      simp only [Change.arrivals, List.append_nil]
      exact hs.numbers

/-! ## What is gone -/

/-- The second stage comes after the first one. -/
structure Later (s t : Stage) : Prop where
  all : s.all ⊆ t.all
  gone : ∀ e ∈ s.all, e ∉ s.row → e ∉ t.row

theorem Later.refl (s : Stage) : Later s s := ⟨fun _ => id, fun _ _ => id⟩

theorem Later.trans {s t u : Stage} (hst : Later s t) (htu : Later t u) : Later s u where
  all := fun _ he => htu.all (hst.all he)
  gone e he hn := htu.gone e (hst.all he) (hst.gone e he hn)

theorem Kept.later_act {s : Stage} (hs : s.Kept) (r : Request Value) : Later s (s.act r) where
  all := List.subset_append_left ..
  gone e he hn := by
    unfold Stage.act
    cases r.change s.value with
    | append x =>
      -- the number of what comes in was not given before
      intro h
      rcases List.mem_append.1 h with h | h
      · exact hn h
      · have := hs.number_lt he
        obtain rfl := List.mem_singleton.1 h
        exact absurd this (Nat.lt_irrefl _)
    | erase i => exact fun h => hn (List.mem_of_mem_eraseIdx h)
    | clear => exact List.not_mem_nil
    | _ => exact hn

theorem Kept.foldl_act {s : Stage} (hs : s.Kept) (batch : List (Request Value)) :
    (batch.foldl Stage.act s).Kept ∧ Later s (batch.foldl Stage.act s) := by
  induction batch generalizing s with
  | nil => exact ⟨hs, .refl s⟩
  | cons r batch ih =>
    obtain ⟨kept, later⟩ := ih (hs.act r)
    exact ⟨kept, (hs.later_act r).trans later⟩

theorem Kept.round {s : Stage} (hs : s.Kept) (batch : List (Request Value)) :
    (s.round batch).Kept ∧ Later s (s.round batch) := by
  obtain ⟨kept, later⟩ := hs.foldl_act batch
  exact ⟨kept.act _, later.trans (kept.later_act _)⟩

end Stage

/-! ## The place of the cursor -/

/-- The cursor has come to an entry. That entry is under it or gone; before the place
stands only what was passed, after it only what has a higher number. -/
def Stands (passed : List Entry) (e : Entry) (row : List Entry) (c : Cursor) : Prop :=
  ∃ front back, row = front ++ (if c.detached then [] else [e]) ++ back ∧ c.position = front.length ∧
    front ⊆ passed ∧ ∀ x ∈ back, e.number < x.number

/-- The cursor has just moved and is before all that the walk is not done with. -/
def Between (done : List Entry) (row : List Entry) (c : Cursor) : Prop :=
  ∃ front back, row = front ++ back ∧ c = ⟨front.length, false⟩ ∧
    front ⊆ done ∧ ∀ x ∈ done, ∀ y ∈ back, x.number < y.number

theorem Stands.erase {passed row : List Entry} {e : Entry} {c : Cursor} (h : Stands passed e row c) (i : Nat) :
    Stands passed e (row.eraseIdx i) (c.afterRemoval i) := by
  obtain ⟨front, back, rfl, hposition, hfront, hback⟩ := h
  obtain ⟨position, detached⟩ := c
  obtain rfl : position = front.length := hposition
  unfold Cursor.afterRemoval
  rcases Nat.lt_trichotomy i front.length with hi | rfl | hi
  · -- before the place: what follows moves up, and the place with it
    rw [if_pos hi, List.append_assoc, List.eraseIdx_append_of_lt_length hi, ← List.append_assoc]
    exact ⟨front.eraseIdx i, back, rfl, (List.length_eraseIdx_of_lt hi).symm,
      fun x hx => hfront (List.mem_of_mem_eraseIdx hx), hback⟩
  · rw [if_neg (Nat.lt_irrefl _), if_pos rfl, List.append_assoc, List.eraseIdx_append_of_length_le (Nat.le_refl _),
      Nat.sub_self]
    cases detached with
    | false => exact ⟨front, back, by simp, rfl, hfront, hback⟩
    | true => exact ⟨front, back.eraseIdx 0, by simp, rfl, hfront, fun x hx => hback x (List.mem_of_mem_eraseIdx hx)⟩
  · rw [if_neg (Nat.not_lt.2 hi.le), if_neg hi.ne']
    have later : front.length + (if detached then [] else [e]).length ≤ i := by
      cases detached with
      | false => exact hi
      | true => exact hi.le
    rw [List.eraseIdx_append_of_length_le (by simpa using later)]
    exact ⟨front, _, rfl, rfl, hfront, fun x hx => hback x (List.mem_of_mem_eraseIdx hx)⟩

/-- What may happen between two moves of the cursor. -/
theorem Stands.on {passed row : List Entry} {e : Entry} {c : Cursor} (h : Stands passed e row c) {change : Change}
    (hc : change.isMove = false) {entry : Value → Entry} (he : ∀ mark, e.number < (entry mark).number) :
    Stands passed e (change.on entry row) (change.cursor c) := by
  cases change with
  | keep => exact h
  | append mark =>
    obtain ⟨front, back, rfl, hposition, hfront, hback⟩ := h
    refine ⟨front, back ++ [entry mark], List.append_assoc .., hposition, hfront, ?_⟩
    intro x hx
    rcases List.mem_append.1 hx with hx | hx
    · exact hback x hx
    · rw [List.mem_singleton.1 hx]
      exact he mark
  | erase i => exact h.erase i
  | clear | rewind | advance => cases hc

theorem Between.stands {done row : List Entry} {c : Cursor} (h : Between done row c) {e : Entry}
    (he : row[c.position]? = some e) (hrow : row.Pairwise fun x y => x.number < y.number) :
    Stands done e row c ∧ ∀ x ∈ done, x.number < e.number := by
  obtain ⟨front, back, rfl, rfl, hfront, hback⟩ := h
  rw [List.getElem?_append_right (Nat.le_refl _), Nat.sub_self] at he
  cases back with
  | nil => cases he
  | cons x rest =>
    cases he
    have ahead : ∀ y ∈ rest, e.number < y.number := (List.pairwise_cons.1 (List.pairwise_append.1 hrow).2.1).1
    exact ⟨⟨front, rest, by simp, rfl, hfront, ahead⟩, fun y hy => hback y hy e (by simp)⟩

/-- The move to the next entry, whether the last one is still there or not. -/
theorem Stands.advance {passed row : List Entry} {e : Entry} {c : Cursor} (h : Stands passed e row c)
    (he : ∀ x ∈ passed, x.number < e.number) : Between (passed ++ [e]) row c.advance := by
  obtain ⟨front, back, rfl, hposition, hfront, hback⟩ := h
  have ahead : ∀ x ∈ passed ++ [e], ∀ y ∈ back, x.number < y.number := by
    intro x hx y hy
    rcases List.mem_append.1 hx with hx | hx
    · exact (he x hx).trans (hback y hy)
    · rw [List.mem_singleton.1 hx]
      exact hback y hy
  obtain ⟨position, detached⟩ := c
  obtain rfl : position = front.length := hposition
  cases detached with
  | false =>
    refine ⟨front ++ [e], back, by simp, by simp [Cursor.advance], ?_, ahead⟩
    exact List.append_subset.2 ⟨fun x hx => List.mem_append_left _ (hfront hx), List.subset_append_right ..⟩
  | true => exact ⟨front, back, by simp, by simp [Cursor.advance], fun x hx => List.mem_append_left _ (hfront hx), ahead⟩

/-- The cursor is at the first entry that comes after all that the walk is done with. -/
theorem Between.getElem?_position {done row : List Entry} {c : Cursor} {e : Entry} (h : Between (done ++ [e]) row c)
    (he : ∀ x ∈ done, x.number < e.number) : row[c.position]? = row.find? fun x => e.number < x.number := by
  obtain ⟨front, back, rfl, rfl, hfront, hback⟩ := h
  have passed : front.find? (fun x => decide (e.number < x.number)) = none := by
    rw [List.find?_eq_none]
    intro x hx
    rcases List.mem_append.1 (hfront hx) with hx | hx
    · simpa using (he x hx).le
    · simp [List.mem_singleton.1 hx]
  rw [List.getElem?_append_right (Nat.le_refl _), Nat.sub_self, List.find?_append, passed, Option.none_or]
  cases back with
  | nil => rfl
  | cons y back =>
    have next : e.number < y.number := hback e (by simp) y (by simp)
    simp [next]

namespace Stage

theorem between_start (c : Value) : Between [] (start c).row (start c).value.cursor := by
  refine ⟨[], (start c).row, rfl, ?_, fun _ => id, by simp⟩
  rw [start, (c.row_after .rewind).2]
  cases c <;> rfl

theorem stands_foldl_act {passed : List Entry} {e : Entry} {s : Stage} (h : Stands passed e s.row s.value.cursor)
    (hs : s.Kept) (he : e ∈ s.all) {batch : List (Request Value)} (hb : ∀ r ∈ batch, r.isMove = false) :
    Stands passed e (batch.foldl act s).row (batch.foldl act s).value.cursor := by
  induction batch generalizing s with
  | nil => exact h
  | cons r batch ih =>
    apply ih _ (hs.act r) ((hs.later_act r).all he) fun x hx => hb x (List.mem_cons_of_mem _ hx)
    have quiet : (r.change s.value).isMove = false := Request.isMove_change (hb r (by simp)) s.value
    rw [act, (s.value.row_after r).2]
    exact h.on quiet fun _ => hs.number_lt he

theorem between_round {done : List Entry} {e : Entry} {s : Stage} (h : Between done s.row s.value.cursor) (hs : s.Kept)
    (he : s.under? = some e) {batch : List (Request Value)} (hb : ∀ r ∈ batch, r.isMove = false) :
    Between (done ++ [e]) (s.round batch).row (s.round batch).value.cursor ∧ ∀ x ∈ done, x.number < e.number := by
  have row_ascending := hs.all_ascending.sublist hs.sublist
  obtain ⟨stands, passed⟩ := h.stands he row_ascending
  have stands := stands_foldl_act stands hs (hs.sublist.subset (List.mem_of_getElem? he)) hb
  refine ⟨?_, passed⟩
  have kept := (hs.foldl_act batch).1
  unfold round
  generalize batch.foldl act s = t at stands kept ⊢
  unfold act
  rw [(t.value.row_after .advance).2]
  rcases t.value.change_advance with hc | ⟨hm, hc⟩
  · rw [Request.change, Request.operation?, Option.elim_some, hc]
    exact stands.advance passed
  · -- what is no collection has no entries, so the cursor cannot stand on one
    obtain ⟨front, back, hrow, -, -⟩ := stands
    have no_row : t.row = [] := List.map_eq_nil_iff.1 (kept.marks_eq.trans (by rw [hm, List.map_nil]))
    rw [no_row, hc] at hrow
    simp [Cursor.start] at hrow

end Stage

namespace Walk

variable {c : Value} {path : List Stage} {s : Stage}

theorem kept (h : Walk c path s) : s.Kept := by
  induction h with
  | rewind => exact Stage.kept_start c
  | round _ _ _ ih => exact (ih.round _).1

theorem later (h : Walk c path s) : (path ++ [s]).Pairwise Stage.Later := by
  induction h with
  | rewind => exact List.pairwise_singleton ..
  | @round path s e batch h _ _ ih =>
    have next : Stage.Later s (s.round batch) := (h.kept.round batch).2
    refine List.pairwise_append.2 ⟨ih, List.pairwise_singleton .., ?_⟩
    intro t ht u hu
    rw [List.mem_singleton.1 hu]
    rcases List.mem_append.1 ht with ht | ht
    · exact ((List.pairwise_append.1 ih).2.2 t ht s (by simp)).trans next
    · rw [List.mem_singleton.1 ht]
      exact next

theorem landed_snoc {e : Entry} (h : s.under? = some e) : landed (path ++ [s]) = landed path ++ [e] := by
  simp [landed, h]

theorem between (h : Walk c path s) : Between (landed path) s.row s.value.cursor := by
  induction h with
  | rewind => exact Stage.between_start c
  | round h he hb ih =>
    rw [landed_snoc he]
    exact (Stage.between_round ih h.kept he hb).1

theorem landed_ascending (h : Walk c path s) : (landed path).Pairwise fun x y => x.number < y.number := by
  induction h with
  | rewind => exact List.Pairwise.nil
  | @round path s e batch h he hb ih =>
    rw [landed_snoc he]
    have last := (Stage.between_round h.between h.kept he hb).2
    refine List.pairwise_append.2 ⟨ih, List.pairwise_singleton .., ?_⟩
    intro x hx y hy
    rw [List.mem_singleton.1 hy]
    exact last x hx

theorem landed_subset (h : Walk c path s) : landed path ⊆ s.all := by
  induction h with
  | rewind => exact List.nil_subset _
  | @round path s e batch h he _ ih =>
    have next : Stage.Later s (s.round batch) := (h.kept.round batch).2
    rw [landed_snoc he]
    intro x hx
    apply next.all
    rcases List.mem_append.1 hx with hx | hx
    · exact ih hx
    · rw [List.mem_singleton.1 hx]
      exact h.kept.sublist.subset (List.mem_of_getElem? he)

/-- What the cursor has come to was not gone before. -/
theorem not_missed (h : Walk c path s) (hs : s.under? = none) {e : Entry} (he : e ∈ landed path) :
    ¬Missed (path ++ [s]) e := by
  rintro ⟨before, t, after, hpath, hall, hrow, hbefore⟩
  have order := h.later
  have whole : landed path = landed before ++ landed (t :: after) := by
    have last : landed (path ++ [s]) = landed path := by simp [landed, hs]
    rw [← last, hpath, landed, List.filterMap_append]
    rfl
  rw [whole] at he
  rw [hpath] at order
  obtain ⟨u, hu, hue⟩ := List.mem_filterMap.1 ((List.mem_append.1 he).resolve_left hbefore)
  have there : e ∈ u.row := List.mem_of_getElem? hue
  rcases List.mem_cons.1 hu with rfl | hu
  · exact hrow there
  · have later : Stage.Later t u := (List.pairwise_cons.1 (List.pairwise_append.1 order).2.1).1 u hu
    exact later.gone e hall hrow there

/-- At the end of a walk the cursor has come to all that was not gone before. -/
theorem mem_landed_iff (h : Walk c path s) (hs : s.under? = none) (e : Entry) :
    e ∈ landed path ↔ e ∈ s.all ∧ ¬Missed (path ++ [s]) e := by
  constructor
  · intro he
    exact ⟨h.landed_subset he, h.not_missed hs he⟩
  · rintro ⟨hall, hmissed⟩
    by_contra hn
    by_cases hrow : e ∈ s.row
    · -- nothing is ahead of the cursor, so all that is in the row was passed
      obtain ⟨front, back, hfb, hc, hfront, -⟩ := h.between
      rw [Stage.under?, hfb, hc, List.getElem?_append_right (Nat.le_refl _), Nat.sub_self] at hs
      cases back with
      | nil => exact hn (hfront (by simpa [hfb] using hrow))
      | cons x back => cases hs
    · exact hmissed ⟨path, s, [], rfl, hall, hrow, hn⟩

end Walk

/-- After each move the cursor is on the first entry that came in after the one on which
it was before, whether that one is still there or not, and it is valid if there is such
an entry. So a walk that has come to its end has come, once and in order, to exactly
those entries that were not gone before. -/
theorem cursor_walk {c : Value} {path : List Stage} {s : Stage} (h : Walk c path s) :
    (s.row.map Entry.mark = s.value.marks.map bare ∧ s.row.Sublist s.all ∧
      s.all.Pairwise (fun x y => x.number < y.number) ∧
      s.value.valid = s.under?.isSome ∧ s.value.mark?.map bare = s.under?.map Entry.mark) ∧
    (∀ e batch, s.under? = some e → (∀ r ∈ batch, r.isMove = false) →
      (s.round batch).under? = ((s.round batch).row.find? fun x => e.number < x.number) ∧
      ((s.round batch).value.valid = false ↔ ∀ x ∈ (s.round batch).row, x.number ≤ e.number)) ∧
    (s.under? = none → (landed path).Pairwise (fun x y => x.number < y.number) ∧
      ∀ e, e ∈ landed path ↔ e ∈ s.all ∧ ¬Missed (path ++ [s]) e) := by
  have observed {t : Stage} (ht : t.Kept) : t.value.mark?.map bare = t.under?.map Entry.mark := by
    rw [mark?_eq, ← List.getElem?_map, ← ht.marks_eq, List.getElem?_map]
    rfl
  have valid {t : Stage} (ht : t.Kept) : t.value.valid = t.under?.isSome := by
    have same := congrArg Option.isSome (observed ht)
    rw [Option.isSome_map, Option.isSome_map] at same
    rw [valid_eq, same]
  refine ⟨⟨h.kept.marks_eq, h.kept.sublist, h.kept.all_ascending, valid h.kept, observed h.kept⟩, ?_, ?_⟩
  · intro e batch he hb
    obtain ⟨moved, passed⟩ := Stage.between_round h.between h.kept he hb
    have next : (s.round batch).under? = (s.round batch).row.find? fun x => e.number < x.number :=
      moved.getElem?_position passed
    refine ⟨next, ?_⟩
    rw [valid (h.kept.round batch).1, next, Option.isSome_eq_false_iff, Option.isNone_iff_eq_none, List.find?_eq_none]
    simp only [decide_eq_true_eq, Nat.not_lt]
  · intro hs
    exact ⟨h.landed_ascending, h.mem_landed_iff hs⟩

/-- A list of the numbers one and two. -/
def pair : Value :=
  ((list (.empty (.scalar .int))).step (.add (scalar (.int 1)))).step (.add (scalar (.int 2)))

/-- The number under the cursor goes, the one after it as well, and a third comes in. -/
def replacing : List (Request Value) := [.removeAt 0, .hash [0], .removeAt 0, .add (scalar (.int 3))]

theorem cursor_walk_replacing : ∃ path s, Walk pair path s ∧ s.under? = none ∧
    landed path = [⟨0, scalar (.int 1)⟩, ⟨2, scalar (.int 3)⟩] ∧
    ∀ e, e ∈ landed path ↔ e ∈ s.all ∧ ¬Missed (path ++ [s]) e := by
  have rewound : Walk pair [] (.start pair) := .rewind
  have first : Walk pair [.start pair] ((Stage.start pair).round replacing) :=
    rewound.round (e := ⟨0, scalar (.int 1)⟩) (by rfl) (by decide)
  have second := first.round (e := ⟨2, scalar (.int 3)⟩) (by rfl) (List.forall_mem_nil _)
  have ended : (((Stage.start pair).round replacing).round []).under? = none := by rfl
  exact ⟨_, _, second, ended, by rfl, ((cursor_walk second).2.2 ended).2⟩

end WideColumn
