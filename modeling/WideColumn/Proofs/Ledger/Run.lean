import WideColumn.Proofs.Collection.Program
import WideColumn.Proofs.Ledger.Basic
/-!
# Runs of requests

Where single requests make postings, a run of requests makes a history, and what a
collection is after the run follows from the history alone (`Bookkeeping.run`). In a
program every variable has a journal of its own: a copy takes over the journal of what it
is copied from, and from then on each of the two goes on by itself (`Memory.run_eq_value`).
-/

namespace WideColumn

open Value

theorem Request.isRead_map {α β : Type} (f : α → β) (r : Request α) : (r.map f).isRead = r.isRead := by
  cases r <;> rfl

/-- A form of collections with entries kept as a ledger: what single requests do to it, as long as no hash is known. -/
structure Bookkeeping (σ τ β : Type) where
  value : σ → Value
  /-- The declared types, which stay. -/
  types : σ → τ
  ledger : σ → Ledger β
  /-- The collection as if no hash were known in it. -/
  unread : σ → σ
  posting : τ → Request Value → Posting β
  unread_value : ∀ s, (value s).unread = value (unread s)
  exists_of_unread : ∀ v n, v.unread = value n → ∃ s, v = value s ∧ unread s = n
  types_unread : ∀ s, types (unread s) = types s
  posting_of_isRead : ∀ t r, r.isRead = true → posting t r = .idle
  after : ∀ s r, (ledger s).Distinct → r.isRead = false →
    ∃ s', (value s).after r = value s' ∧ types s' = types s ∧ ledger s' = (ledger s).post (posting (types s) r)

namespace Bookkeeping

variable {σ τ β : Type} (b : Bookkeeping σ τ β)

/-- The history that a run of requests makes, apart from known hashes. -/
def history (t : τ) (run : List (Request Value)) : List (Posting β) := run.map fun r => b.posting t (r.map Value.unread)

/-- A ledger with a history goes on as one with every request. -/
theorem ledger_after {s : σ} {history : List (Posting β)} (h : b.ledger (b.unread s) = .ofHistory history)
    (r : Request Value) :
    ∃ s', (b.value s).after r = b.value s' ∧ b.types s' = b.types s ∧
      b.ledger (b.unread s') = .ofHistory (history ++ [b.posting (b.types s) (r.map Value.unread)]) := by
  rw [Ledger.ofHistory_append, ← h]
  have isRead_map : (r.map Value.unread).isRead = r.isRead := Request.isRead_map Value.unread r
  by_cases hr : r.isRead = true
  · obtain ⟨s', hs, hunread⟩ := b.exists_of_unread _ _ ((unread_after_read (b.value s) hr).trans (b.unread_value s))
    refine ⟨s', hs, ?_, ?_⟩
    · rw [← b.types_unread, hunread, b.types_unread]
    · rw [hunread, b.posting_of_isRead _ _ (isRead_map.trans hr)]
      rfl
  · rw [Bool.not_eq_true] at hr
    have distinct : (b.ledger (b.unread s)).Distinct := by
      rw [h]
      exact Ledger.distinct_ofHistory history
    obtain ⟨n, hn, htypes, hledger⟩ := b.after _ _ distinct (isRead_map.trans hr)
    rw [b.types_unread] at htypes hledger
    -- what becomes of the collection without known hashes is what becomes of it, without known hashes
    have hafter : ((b.value s).after r).unread = b.value n := by rw [← after_unread _ hr, b.unread_value, hn]
    obtain ⟨s', hs, rfl⟩ := b.exists_of_unread _ _ hafter
    exact ⟨s', hs, by rw [← b.types_unread, htypes], hledger⟩

/-- After a run the entries are the ledger with the history of the run. -/
theorem run (start : σ) (hstart : b.ledger (b.unread start) = []) (run : List (Request Value)) :
    ∃ s, run.foldl Value.after (b.value start) = b.value s ∧ b.types s = b.types start ∧
      b.ledger (b.unread s) = .ofHistory (b.history (b.types start) run) := by
  induction run using List.reverseRecOn with
  | nil => exact ⟨start, rfl, rfl, hstart⟩
  | append_singleton run r ih =>
    obtain ⟨s, hs, htypes, hledger⟩ := ih
    obtain ⟨s', hs', htypes', hledger'⟩ := b.ledger_after hledger r
    rw [List.foldl_append, hs]
    refine ⟨s', hs', htypes'.trans htypes, ?_⟩
    rw [hledger', htypes, history, history, List.map_append]
    rfl

end Bookkeeping

/-! ## Copies -/

/-- What a value was at first, and all requests to it since then. -/
structure Journal where
  origin : Value
  requests : List (Request Value)

namespace Journal

def value (j : Journal) : Value := j.requests.foldl Value.after j.origin

/-- The journals of the variables after a command. -/
def step (journals : Nat → Journal) : Command → Nat → Journal
  | .scalar x s => Function.update journals x ⟨.scalar s, []⟩
  | .empty x t => Function.update journals x ⟨emptyOf t, []⟩
  | .copy x y [] => Function.update journals x (journals y)
  | .copy x y path => Function.update journals x ⟨((journals y).value.within? path).getD (journals x).value, []⟩
  | .ask x r => Function.update journals x
      ⟨(journals x).origin, (journals x).requests ++ [r.map fun y => (journals y).value]⟩

/-- The journals of the variables after a program. -/
def ofProgram (program : List Command) : Nat → Journal := program.foldl step fun _ => ⟨null, []⟩

theorem value_update (journals : Nat → Journal) (x : Nat) (j : Journal) :
    (fun y => (Function.update journals x j y).value) = Function.update (fun y => (journals y).value) x j.value := by
  funext y
  by_cases h : y = x
  · rw [h, Function.update_self, Function.update_self]
  · rw [Function.update_of_ne h, Function.update_of_ne h]

theorem value_step (journals : Nat → Journal) (c : Command) :
    (fun x => (step journals c x).value) = Memory.step (fun x => (journals x).value) c := by
  cases c with
  | copy x y path =>
    cases path with
    | nil => exact value_update journals x _
    | cons i path => exact value_update journals x _
  | ask x r =>
    rw [step, value_update, Memory.step, value, List.foldl_append]
    rfl
  | _ => exact value_update journals _ _

end Journal

/-- After a program every variable has the value that the requests to it have made of its origin. -/
theorem Memory.run_eq_value (program : List Command) :
    Memory.start.run program = fun x => (Journal.ofProgram program x).value := by
  induction program using List.reverseRecOn with
  | nil => rfl
  | append_singleton program c ih =>
    rw [run, List.foldl_append, Journal.ofProgram, List.foldl_append]
    exact (congrArg (fun m => Memory.step m c) ih).trans (Journal.value_step _ c).symm

end WideColumn
