import WideColumn.Proofs.Order.Value
/-!
# Ledgers

A ledger has items under keys, in the order in which the keys came in, and of equal keys
only the first. All that has happened to it is its history. What is found under a key is
what the last posting about the key has left there (`Ledger.find?_ofHistory`), and the
keys stand in the order of the postings that they came in with
(`Ledger.keys_in_order_of_entry`).
-/

namespace WideColumn

/-- Something that happens to a ledger with items of type `β`. -/
inductive Posting (β : Type) where
  /-- An item is put under a key. -/
  | enter (key : Value) (item : β)
  /-- A key is taken out, with its item. -/
  | strike (key : Value)
  | clear
  | idle

namespace Posting

variable {β : Type}

/-- Whether a posting takes out the keys equal to `k`. -/
def removes (k : Value) : Posting β → Bool
  | strike l => l.equals k
  | clear => true
  | _ => false

/-- Whether a posting bears on what is found under `k`. -/
def concerns (k : Value) : Posting β → Bool
  | enter l _ => l.equals k
  | p => p.removes k

def item? : Posting β → Option β
  | enter _ b => some b
  | _ => none

end Posting

namespace Value

theorem equals_congr {a b : Value} (h : a.equals b = true) (c : Value) : c.equals a = c.equals b := by
  rw [equals, equals, order, order, equals_iff.1 h]

theorem equals_comm (a b : Value) : a.equals b = b.equals a := by
  rw [Bool.eq_iff_iff, equals_iff, equals_iff, eq_comm]

theorem equals_eq_false {a b c : Value} (hab : a.equals b = true) (hbc : ¬b.equals c = true) : a.equals c = false := by
  rw [equals_iff] at hab hbc
  rw [Bool.eq_false_iff, ne_eq, equals_iff, hab]
  exact hbc

end Value

abbrev Ledger (β : Type) := List (Value × β)

open Value

namespace Ledger

variable {β : Type}

/-- The ledger after a posting. A key that is there keeps its place and its form, whatever is put under it. -/
def post (l : Ledger β) : Posting β → Ledger β
  | .enter k b => if l.any (·.1.equals k) then l.map fun e => if e.1.equals k then (e.1, b) else e else l ++ [(k, b)]
  | .strike k => l.filter fun e => !e.1.equals k
  | .clear => []
  | .idle => l

/-- The ledger with a given history. -/
def ofHistory (history : List (Posting β)) : Ledger β := history.foldl post []

def find? (l : Ledger β) (k : Value) : Option β := (List.find? (fun e => e.1.equals k) l).map (·.2)

/-- What the last posting about `k` has left under it: the item that was put there, or nothing. -/
def latest? (history : List (Posting β)) (k : Value) : Option β :=
  (history.reverse.find? (Posting.concerns k)).bind Posting.item?

def Distinct (l : Ledger β) : Prop := l.Pairwise fun a b => a.1.equals b.1 = false

theorem ofHistory_append (history : List (Posting β)) (p : Posting β) :
    ofHistory (history ++ [p]) = post (ofHistory history) p := by
  rw [ofHistory, List.foldl_append]
  rfl

theorem latest?_append (history : List (Posting β)) (p : Posting β) (k : Value) :
    latest? (history ++ [p]) k = if p.concerns k then p.item? else latest? history k := by
  unfold latest?
  rw [List.reverse_append, List.reverse_singleton, List.singleton_append, List.find?_cons]
  cases p.concerns k <;> rfl

/-! ## Search -/

section Search

variable {α : Type} {p : α → Bool} {l : List α} {i : Nat}

/-- Where only one is found, to change what stands at its place is to change all that would be found. -/
theorem modify_findIdx? (once : l.Pairwise fun a b => p a = true → p b = false) (h : l.findIdx? p = some i) (f : α → α) :
    l.modify i f = l.map fun a => if p a then f a else a := by
  induction l generalizing i with
  | nil => cases h
  | cons a l ih =>
    obtain ⟨first, rest⟩ := List.pairwise_cons.1 once
    rw [List.findIdx?_cons] at h
    cases ha : p a with
    | true =>
      have others : (l.map fun b => if p b then f b else b) = l.map id :=
        List.map_congr_left fun b hb => by rw [first b hb ha]; rfl
      rw [ha] at h
      cases h
      rw [List.modify_zero_cons, List.map_cons, others, List.map_id, ha, if_pos rfl]
    | false =>
      rw [ha] at h
      obtain ⟨j, hj, rfl⟩ := Option.map_eq_some_iff.1 h
      rw [List.modify_succ_cons, ih rest hj, List.map_cons, ha]
      rfl

theorem eraseIdx_findIdx? (once : l.Pairwise fun a b => p a = true → p b = false) (h : l.findIdx? p = some i) :
    l.eraseIdx i = l.filter fun a => !p a := by
  induction l generalizing i with
  | nil => cases h
  | cons a l ih =>
    obtain ⟨first, rest⟩ := List.pairwise_cons.1 once
    rw [List.findIdx?_cons] at h
    cases ha : p a with
    | true =>
      have others : (l.filter fun b => !p b) = l := List.filter_eq_self.2 fun b hb => by rw [first b hb ha]; rfl
      rw [ha] at h
      cases h
      rw [List.eraseIdx_zero, List.tail_cons, List.filter_cons, ha, others]
      rfl
    | false =>
      rw [ha] at h
      obtain ⟨j, hj, rfl⟩ := Option.map_eq_some_iff.1 h
      rw [List.eraseIdx_cons_succ, ih rest hj, List.filter_cons, ha]
      rfl

end Search

theorem Distinct.once {l : Ledger β} (h : l.Distinct) (k : Value) :
    l.Pairwise fun a b => a.1.equals k = true → b.1.equals k = false := by
  refine h.imp ?_
  intro a b hne ha
  rw [Bool.eq_false_iff] at hne ⊢
  intro hb
  apply hne
  rw [equals_iff] at ha hb ⊢
  rw [ha, hb]

/-! ## What is found -/

theorem find?_cons (e : Value × β) (l : Ledger β) (k : Value) :
    find? (e :: l) k = if e.1.equals k then some e.2 else find? l k := by
  unfold find?
  rw [List.find?_cons]
  cases e.1.equals k <;> rfl

theorem isSome_find? (l : Ledger β) (k : Value) : (l.find? k).isSome = l.any (·.1.equals k) := by
  rw [find?, Option.isSome_map, List.isSome_find?]

theorem find?_congr {k k' : Value} (h : k.equals k' = true) (l : Ledger β) : find? l k = find? l k' := by
  unfold find?
  simp only [equals_congr h]

theorem find?_append (l l' : Ledger β) (k : Value) : find? (l ++ l') k = (find? l k).or (find? l' k) := by
  unfold find?
  rw [List.find?_append, Option.map_or]

section Unread

variable {γ : Type} (l : Ledger β) (f : β → γ)

/-- Which hashes are known in the keys makes no difference to what is found. -/
theorem find?_map_unread (k : Value) : find? (l.map fun e => (e.1.unread, f e.2)) k = (find? l k).map f := by
  have same : (fun e : Value × β => e.1.unread.equals k) = fun e => e.1.equals k := by
    funext e
    rw [equals, equals, order, order, content_unread]
  rw [find?, find?, List.find?_map, Function.comp_def, same, Option.map_map, Option.map_map]
  rfl

theorem distinct_map_unread : Distinct (l.map fun e => (e.1.unread, f e.2)) ↔ Distinct l := by
  unfold Distinct
  rw [List.pairwise_map]
  simp only [equals, order, content_unread]

end Unread

/-- Under keys that are equal to `k'` there is now another item. -/
theorem find?_replaced (l : Ledger β) (k' : Value) (b : β) (k : Value) :
    find? (l.map fun e => if e.1.equals k' then (e.1, b) else e) k =
      if k'.equals k then (find? l k).map fun _ => b else find? l k := by
  induction l with
  | nil => simp [find?]
  | cons e l ih =>
    rw [List.map_cons, find?_cons, find?_cons, ih]
    by_cases hk : k'.equals k = true
    · rw [if_pos hk, if_pos hk, equals_congr hk]
      by_cases he : e.1.equals k = true <;> simp [he]
    · rw [if_neg hk, if_neg hk]
      by_cases he : e.1.equals k' = true
      · -- a key equal to `k'` is not equal to `k`, so neither item is the one
        simp [he, equals_eq_false he hk]
      · simp [he]

theorem find?_struck (l : Ledger β) (k' k : Value) :
    find? (l.filter fun e => !e.1.equals k') k = if k'.equals k then none else find? l k := by
  induction l with
  | nil => simp [find?]
  | cons e l ih =>
    rw [List.filter_cons, find?_cons]
    by_cases hk : k'.equals k = true
    · rw [if_pos hk] at ih ⊢
      rw [equals_congr hk]
      by_cases he : e.1.equals k = true
      · simp [he, ih]
      · simp [he, ih, find?_cons]
    · rw [if_neg hk] at ih ⊢
      by_cases he : e.1.equals k' = true
      · simp [he, equals_eq_false he hk, ih]
      · simp [he, ih, find?_cons]

/-- A posting about a key decides what is found under it, and no other posting does. -/
theorem find?_post (l : Ledger β) (p : Posting β) (k : Value) :
    find? (post l p) k = if p.concerns k then p.item? else find? l k := by
  cases p with
  | enter k' b =>
    change _ = if k'.equals k then some b else find? l k
    rw [post, ← isSome_find?]
    by_cases hthere : (find? l k').isSome = true
    · rw [if_pos hthere, find?_replaced]
      by_cases hk : k'.equals k = true
      · rw [find?_congr hk] at hthere
        obtain ⟨c, hc⟩ := Option.isSome_iff_exists.1 hthere
        rw [if_pos hk, if_pos hk, hc, Option.map_some]
      · rw [if_neg hk, if_neg hk]
    · rw [if_neg hthere, find?_append, find?_cons]
      by_cases hk : k'.equals k = true
      · rw [find?_congr hk, Option.not_isSome_iff_eq_none] at hthere
        rw [if_pos hk, if_pos hk, hthere, Option.none_or]
      · rw [if_neg hk, if_neg hk]
        exact Option.or_none
  | strike k' => exact find?_struck l k' k
  | clear => rfl
  | idle => rfl

theorem find?_ofHistory (history : List (Posting β)) (k : Value) : find? (ofHistory history) k = latest? history k := by
  induction history using List.reverseRecOn with
  | nil => rfl
  | append_singleton history p ih => rw [ofHistory_append, find?_post, latest?_append, ih]

theorem split_append_singleton {α : Type} {xs before after : List α} {x p : α} (h : xs ++ [p] = before ++ x :: after) :
    (after = [] ∧ p = x) ∨ ∃ after', after = after' ++ [p] ∧ xs = before ++ x :: after' := by
  rcases List.eq_nil_or_concat after with rfl | ⟨after', q, rfl⟩
  · exact .inl ⟨rfl, List.singleton_inj.1 (List.append_inj' h rfl).2⟩
  · rw [List.concat_eq_append, ← List.cons_append, ← List.append_assoc] at h
    obtain ⟨hxs, hp⟩ := List.append_inj' h rfl
    obtain rfl := List.singleton_inj.1 hp
    exact .inr ⟨after', List.concat_eq_append, hxs⟩

/-- Something is left under a key if it was put there after everything that was taken out. -/
theorem isSome_latest?_iff {history : List (Posting β)} {k : Value} : (latest? history k).isSome = true ↔
    ∃ before l b after, history = before ++ .enter l b :: after ∧ l.equals k = true ∧ ∀ p ∈ after, p.removes k = false := by
  induction history using List.reverseRecOn with
  | nil => simp [latest?]
  | append_singleton history p ih =>
    rw [latest?_append]
    by_cases hr : p.removes k = true
    · -- what takes out the key leaves nothing, and after it nothing was put there
      have hleft : (if p.concerns k then p.item? else latest? history k) = none := by
        cases p with
        | enter | idle => cases hr
        | strike l => exact if_pos hr
        | clear => rfl
      rw [hleft]
      refine iff_of_false (by simp) ?_
      rintro ⟨before, l, b, after, hsplit, -, hafter⟩
      rcases split_append_singleton hsplit with ⟨-, rfl⟩ | ⟨after', rfl, -⟩
      · cases hr
      · rw [hafter p (by simp)] at hr
        cases hr
    · by_cases hc : p.concerns k = true
      · rw [if_pos hc]
        cases p with
        | enter l b => exact iff_of_true rfl ⟨history, l, b, [], rfl, hc, by simp⟩
        | _ => exact absurd hc hr
      · rw [if_neg hc, ih]
        constructor
        · rintro ⟨before, l, b, after, rfl, hl, hafter⟩
          refine ⟨before, l, b, after ++ [p], by simp, hl, ?_⟩
          intro q hq
          rcases List.mem_append.1 hq with hq | hq
          · exact hafter q hq
          · rw [List.mem_singleton.1 hq]
            simpa using hr
        · rintro ⟨before, l, b, after, hsplit, hl, hafter⟩
          rcases split_append_singleton hsplit with ⟨-, rfl⟩ | ⟨after', rfl, rfl⟩
          · exact absurd hl hc
          · exact ⟨before, l, b, after', rfl, hl, fun q hq => hafter q (by simp [hq])⟩

/-! ## The order of keys -/

theorem Distinct.post {l : Ledger β} (h : l.Distinct) (p : Posting β) : (l.post p).Distinct := by
  cases p with
  | enter k b =>
    rw [Ledger.post]
    split
    · -- the keys are what they were
      refine List.pairwise_map.2 (h.imp ?_)
      intro e e' hne
      split <;> split <;> exact hne
    · next habsent =>
      refine List.pairwise_append.2 ⟨h, List.pairwise_singleton .., ?_⟩
      intro e he e' he'
      obtain rfl := List.mem_singleton.1 he'
      simpa using fun h => habsent (List.any_eq_true.2 ⟨e, he, h⟩)
  | strike k => exact h.filter _
  | clear => exact .nil
  | idle => exact h

theorem distinct_ofHistory (history : List (Posting β)) : (ofHistory history).Distinct := by
  induction history using List.reverseRecOn with
  | nil => exact List.Pairwise.nil
  | append_singleton history p ih =>
    rw [ofHistory_append]
    exact ih.post p

/-- With the `i`-th posting the key `k` came in, and there it has stayed: before, no equal key was there, and after
that, none was taken out. -/
structure Entered (history : List (Posting β)) (i : Nat) (k : Value) : Prop where
  entered : ∃ b, history[i]? = some (.enter k b)
  absent : latest? (history.take i) k = none
  kept : ∀ j p, i < j → history[j]? = some p → p.removes k = false

theorem Entered.lt_length {history : List (Posting β)} {i : Nat} {k : Value} (h : Entered history i k) :
    i < history.length := by
  obtain ⟨b, hb⟩ := h.entered
  exact (List.getElem?_eq_some_iff.1 hb).1

theorem Entered.append {history : List (Posting β)} {i : Nat} {k : Value} (h : Entered history i k) {p : Posting β}
    (hp : p.removes k = false) : Entered (history ++ [p]) i k where
  entered := by
    rw [List.getElem?_append_left h.lt_length]
    exact h.entered
  absent := by
    rw [List.take_append_of_le_length h.lt_length.le]
    exact h.absent
  kept := by
    intro j q hj hq
    rcases lt_or_ge j history.length with hlt | hge
    · rw [List.getElem?_append_left hlt] at hq
      exact h.kept j q hj hq
    · rw [List.getElem?_append_right hge] at hq
      obtain rfl := List.mem_singleton.1 (List.mem_of_getElem? hq)
      exact hp

theorem entered_last {history : List (Posting β)} {k : Value} (h : latest? history k = none) (b : β) :
    Entered (history ++ [.enter k b]) history.length k where
  entered := ⟨b, List.getElem?_concat_length⟩
  absent := by
    rw [List.take_left]
    exact h
  kept := by
    intro j p hj hp
    have hlt := (List.getElem?_eq_some_iff.1 hp).1
    rw [List.length_append, List.length_singleton] at hlt
    omega

/-- The keys stand in the order in which they came in. -/
theorem keys_in_order_of_entry (history : List (Posting β)) :
    ∃ rows : List (Nat × Value), rows.map (·.2) = (ofHistory history).map (·.1) ∧
      rows.Pairwise (fun r s => r.1 < s.1) ∧ ∀ r ∈ rows, Entered history r.1 r.2 := by
  induction history using List.reverseRecOn with
  | nil => exact ⟨[], rfl, List.Pairwise.nil, by simp⟩
  | append_singleton history p ih =>
    obtain ⟨rows, hkeys, hsorted, hentered⟩ := ih
    have kept (hp : ∀ r ∈ rows, p.removes r.2 = false) : ∀ r ∈ rows, Entered (history ++ [p]) r.1 r.2 :=
      fun r hr => (hentered r hr).append (hp r hr)
    rw [ofHistory_append]
    cases p with
    | enter k b =>
      rw [post]
      split
      · refine ⟨rows, ?_, hsorted, kept fun _ _ => rfl⟩
        rw [hkeys, List.map_map]
        apply List.map_congr_left
        intro e _
        rw [Function.comp_apply]
        split <;> rfl
      · next habsent =>
        have hlast : Entered (history ++ [.enter k b]) history.length k := by
          apply entered_last
          rw [← find?_ofHistory, ← Option.not_isSome_iff_eq_none, isSome_find?]
          exact habsent
        refine ⟨rows ++ [(history.length, k)], by simp [hkeys], ?_, ?_⟩
        · refine List.pairwise_append.2 ⟨hsorted, List.pairwise_singleton .., ?_⟩
          intro r hr s hs
          obtain rfl := List.mem_singleton.1 hs
          exact (hentered r hr).lt_length
        · intro r hr
          rcases List.mem_append.1 hr with hr | hr
          · exact kept (fun _ _ => rfl) r hr
          · obtain rfl := List.mem_singleton.1 hr
            exact hlast
    | strike k =>
      refine ⟨rows.filter fun r => !r.2.equals k, ?_, hsorted.filter _, ?_⟩
      · rw [← Function.comp_def (fun k' : Value => !k'.equals k), ← List.filter_map, hkeys, List.filter_map]
        rfl
      · intro r hr
        obtain ⟨hr, hne⟩ := List.mem_filter.1 hr
        refine (hentered r hr).append ?_
        change k.equals r.2 = false
        rw [equals_comm]
        simpa using hne
    | clear => exact ⟨[], rfl, List.Pairwise.nil, by simp⟩
    | idle => exact ⟨rows, hkeys, hsorted, kept fun _ _ => rfl⟩

end Ledger

end WideColumn
