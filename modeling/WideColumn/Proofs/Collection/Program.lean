import WideColumn.Proofs.Collection.Unread
/-!
# Programs

A program works on numbered variables: it makes values, copies them, also out of
collections, puts them into collections and asks them whatever can be asked. A command
reads hashes or it does not, and those that do can be put in and left out anywhere:
no other command is answered in another way for it (`answer_eq_of_same_commands`).
-/

namespace WideColumn

open Value

/-- The values of the variables. -/
abbrev Memory := Nat → Value

inductive Command where
  | scalar (x : Nat) (s : Scalar)
  /-- An empty collection of the type. -/
  | empty (x : Nat) (t : DataType)
  /-- A copy of what a path of places leads to, with its cursor and the hashes known in it. -/
  | copy (x y : Nat) (path : List Nat)
  /-- A request to the value of a variable, with the values of variables as arguments. -/
  | ask (x : Nat) (r : Request Nat)

def Command.isRead : Command → Bool
  | ask _ r => r.isRead
  | _ => false

/-- The empty collection of a type; of other types there is none. -/
def Value.emptyOf : DataType → Value
  | .list t => list (.empty t)
  | .set t => set (.empty t)
  | .map k v => map (.empty k v)
  | _ => null

namespace Memory

def start : Memory := fun _ => null

def answer (m : Memory) : Command → Except Error Reply
  | .ask x r => (m x).answer (r.map m)
  | _ => .ok .done

def step (m : Memory) : Command → Memory
  | .scalar x s => Function.update m x (.scalar s)
  | .empty x t => Function.update m x (emptyOf t)
  | .copy x y path => Function.update m x (((m y).within? path).getD (m x))
  | .ask x r => Function.update m x ((m x).after (r.map m))

/-- The variables after a program. -/
def run (m : Memory) (program : List Command) : Memory := program.foldl step m

end Memory

/-! ## Values of programs -/

namespace Request

def arguments {α : Type} : Request α → List α
  | add v | remove v | lookup v | find v | contains v | order v => [v]
  | set k v => [k, v]
  | _ => []

theorem arguments_map {α β : Type} (f : α → β) (r : Request α) : (r.map f).arguments = r.arguments.map f := by
  cases r <;> rfl

theorem given_of_operation? {r : Request Value} {op : Operation} (h : r.operation? = some op) : op.given ⊆ r.arguments := by
  cases r <;> cases h <;> simp [Operation.given, arguments]

end Request

theorem Value.Reachable.after {v : Value} (hv : v.Reachable) {r : Request Value} (hr : ∀ x ∈ r.arguments, x.Reachable) :
    (v.after r).Reachable := by
  by_cases hread : r.isRead = true
  · cases r with
    | hash path => exact .read path hv
    | _ => cases hread
  · rw [after_of_operation (by simpa using hread)]
    cases hop : r.operation? with
    | none => exact hv
    | some op => exact .step op hv fun x hx => hr x (Request.given_of_operation? hop hx)

namespace Memory

theorem step_reachable {m : Memory} (hm : ∀ x, (m x).Reachable) (c : Command) : ∀ x, (m.step c x).Reachable := by
  have update (x : Nat) {v : Value} (hv : v.Reachable) : ∀ y, (Function.update m x v y).Reachable := by
    intro y
    by_cases h : y = x
    · rw [h, Function.update_self]
      exact hv
    · rw [Function.update_of_ne h]
      exact hm y
  cases c with
  | scalar x s => exact update x (.scalar s)
  | empty x t =>
    apply update x
    cases t with
    | list t => exact .list t
    | set t => exact .set t
    | map k v => exact .map k v
    | _ => exact .null
  | copy x y path =>
    apply update x
    cases h : (m y).within? path with
    | none => exact hm x
    | some v => exact (hm y).within h
  | ask x r =>
    apply update x
    apply (hm x).after
    intro w hw
    rw [Request.arguments_map] at hw
    obtain ⟨y, -, rfl⟩ := List.mem_map.1 hw
    exact hm y

/-- All that a program can have in its variables is reachable. -/
theorem run_reachable (program : List Command) : ∀ x, (start.run program x).Reachable := by
  induction program using List.reverseRecOn with
  | nil => exact fun _ => .null
  | append_singleton program c ih =>
    unfold run at ih ⊢
    rw [List.foldl_append]
    exact step_reachable ih c

/-! ## Reading hashes -/

/-- The variables as if no hash had ever been read. -/
def unread (m : Memory) : Memory := fun x => (m x).unread

theorem unread_update (m : Memory) (x : Nat) (v : Value) :
    unread (Function.update m x v) = Function.update m.unread x v.unread :=
  Function.comp_update Value.unread m x v

theorem unread_step (m : Memory) {c : Command} (hc : c.isRead = false) : (m.step c).unread = m.unread.step c := by
  cases c with
  | scalar x s => rw [step, step, unread_update, unread_scalar]
  | empty x t =>
    have fresh : (emptyOf t).unread = emptyOf t := by
      cases t <;> simp [emptyOf, TypedList.unread, TypedSet.unread, TypedMap.unread, TypedList.empty, TypedSet.empty,
        TypedMap.empty]
    rw [step, step, unread_update, fresh]
  | copy x y path =>
    have copied : (((m y).within? path).getD (m x)).unread = ((m.unread y).within? path).getD (m.unread x) := by
      rw [unread, within?_unread]
      cases (m y).within? path <;> rfl
    rw [step, step, unread_update, copied]
  | ask x r =>
    have hr : (r.map m).isRead = false := by cases r <;> first | rfl | cases hc
    rw [step, step, unread_update, ← after_unread (m x) hr, Request.map_map]
    rfl

theorem unread_step_read (m : Memory) {c : Command} (hc : c.isRead = true) : (m.step c).unread = m.unread := by
  cases c with
  | ask x r =>
    have hr : (r.map m).isRead = true := by cases r <;> first | rfl | cases hc
    rw [step, unread_update, unread_after_read (m x) hr]
    exact Function.update_eq_self x m.unread
  | _ => cases hc

/-- Apart from the hashes that are known, a program without its reading of hashes leaves
the same variables behind. -/
theorem unread_run (m : Memory) (program : List Command) :
    (m.run program).unread = m.unread.run (program.filter fun c => !c.isRead) := by
  induction program generalizing m with
  | nil => rfl
  | cons c program ih =>
    unfold run at ih ⊢
    rw [List.foldl_cons, ih (m.step c), List.filter_cons]
    cases hc : c.isRead with
    | true => rw [unread_step_read m hc]; rfl
    | false => rw [unread_step m hc]; rfl

theorem answer_unread {m : Memory} (hm : ∀ x, (m x).Reachable) (c : Command) :
    m.unread.answer c = (m.answer c).map Reply.unread := by
  cases c with
  | ask x r =>
    rw [answer, answer, ← Value.answer_unread (hm x).coherent, Request.map_map]
    rfl
  | _ => rfl

/-- After programs that differ only in where they read hashes, all is answered in the same way. -/
theorem answer_eq_of_same_commands {before before' : List Command}
    (h : before.filter (fun c => !c.isRead) = before'.filter fun c => !c.isRead) (c : Command) :
    ((start.run before).answer c).map Reply.unread = ((start.run before').answer c).map Reply.unread := by
  rw [← answer_unread (run_reachable before), ← answer_unread (run_reachable before'), unread_run, unread_run, h]

end Memory

namespace Value

theorem hash_set_ascending (s : TypedSet Value) : (set s).hash = Hash.mixAll 0 ((ascending s.elements).map hash) := by
  rw [hash_set, sorted_map_content, List.map_map]
  rfl

/-- The hash that is read from a collection is always the one computed from its entries:
of a list in order, of a set in ascending order, of a map each key and then its value.
So it makes no difference to any answer which hashes a program has read before, and
order, hashes and bytes are the same for values of the same types with the same
entries, whatever their cursors are and whatever hashes are known in them. -/
theorem known_hashes_coherent :
    (∀ v : Value, v.Reachable → v.readHash.1 = v.hash) ∧
    (∀ l, (list l).hash = Hash.mixAll 0 (l.elements.map hash)) ∧
    (∀ s, (set s).hash = Hash.mixAll 0 ((ascending s.elements).map hash)) ∧
    (∀ m, (map m).hash = Hash.mixAll 0 (m.entries.flatMap fun e => [e.1.hash, e.2.hash])) ∧
    (∀ before before' : List Command,
      before.filter (fun c => !c.isRead) = before'.filter (fun c => !c.isRead) →
      ∀ c, ((Memory.start.run before).answer c).map Reply.unread = ((Memory.start.run before').answer c).map Reply.unread) ∧
    ∀ a b : Value, a.bare = b.bare →
      (∀ c, a.order c = b.order c ∧ c.order a = c.order b) ∧
      (a.hash = b.hash ∧ (a.Reachable → b.Reachable → a.readHash.1 = b.readHash.1)) ∧
      ∀ p, (∀ t, a.encode p t = b.encode p t) ∧ a.toBytes? p = b.toBytes? p := by
  refine ⟨fun v hv => hv.coherent.readHash_eq, hash_list, hash_set_ascending, hash_map,
    fun _ _ => Memory.answer_eq_of_same_commands, ?_⟩
  intro a b h
  have content : a.content = b.content := content_eq_of_bare_eq h
  have hashes : a.hash = b.hash := by rw [hash, content, hash]
  refine ⟨?_, ⟨hashes, ?_⟩, ?_⟩
  · intro c
    constructor
    · rw [order, content, order]
    · rw [order, content, order]
  · intro ha hb
    rw [ha.coherent.readHash_eq, hb.coherent.readHash_eq, hashes]
  · intro p
    constructor
    · intro t
      rw [← encode_bare a, h, encode_bare]
    · rw [← toBytes?_bare a, h, toBytes?_bare]

/-- A list is filled and put into another one, with some commands before either. -/
def packing (reads : List Command) : List Command :=
  [.empty 0 (.list (.scalar .int)), .scalar 1 (.int 7)] ++ reads ++
    [.ask 0 (.add 1), .empty 2 (.list (.list (.scalar .int)))] ++ reads ++ [.ask 2 (.add 0)]

theorem known_hashes_packing :
    (Memory.start.run (packing [])).answer (.ask 2 (.hash [])) = .ok (.hash (some 0x3c6ef379)) ∧
    ((Memory.start.run (packing [.ask 0 (.hash [])])).answer (.ask 2 (.hash []))).map Reply.unread =
      .ok (.hash (some 0x3c6ef379)) := by
  have unread : (Memory.start.run (packing [])).answer (.ask 2 (.hash [])) = .ok (.hash (some 0x3c6ef379)) := by rfl
  refine ⟨unread, ?_⟩
  rw [known_hashes_coherent.2.2.2.2.1 (packing [.ask 0 (.hash [])]) (packing []) rfl, unread]
  rfl

end Value

end WideColumn
