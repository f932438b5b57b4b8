import Mathlib

/-!
# Outboxes

Items of several kinds are collected, and the items of a kind are given away in batches: a batch is
sent to all recipients of the moment, or it is thrown away.  Whatever the order of deposits and
closings, each item is in exactly one batch or still waits, and the items of a kind keep their
order.

## Main definitions

* `Outbox κ ι ρ`: what has been logged, the batches that are closed and the items that wait.
* `deposit`, `close`: the operations.
* `Balanced`: the batches and the waiting items of a kind are what has been logged.
* `sent`, `discarded`: the items of the batches of each sort.
* `received`: what a recipient has got.
-/
namespace FlexRan.Lib

variable {κ ι ρ : Type}

/-- Without recipients the batch was thrown away. -/
structure Batch (κ ι ρ : Type) where
  kind : κ
  items : List ι
  recipients : Option (List ρ)

structure Outbox (κ ι ρ : Type) where
  logged : List (κ × ι) := []
  closed : List (Batch κ ι ρ) := []
  pending : κ → List ι := fun _ => []

/-- The items of one kind. -/
def itemsOf [DecidableEq κ] (k : κ) (logged : List (κ × ι)) : List ι :=
  (logged.filter fun e => e.1 = k).map Prod.snd

namespace Outbox

variable [DecidableEq κ]

def deposit (k : κ) (items : List ι) (o : Outbox κ ι ρ) : Outbox κ ι ρ :=
  { o with
    logged := o.logged ++ items.map fun i => (k, i)
    pending := Function.update o.pending k (o.pending k ++ items) }

def close (k : κ) (recipients : Option (List ρ)) (o : Outbox κ ι ρ) : Outbox κ ι ρ :=
  { o with
    closed := o.closed ++ [⟨k, o.pending k, recipients⟩]
    pending := Function.update o.pending k [] }

/-- The closed batches of one kind. -/
def batches (o : Outbox κ ι ρ) (k : κ) : List (Batch κ ι ρ) := o.closed.filter fun b => b.kind = k

def Balanced (o : Outbox κ ι ρ) : Prop :=
  ∀ k, (o.batches k).flatMap Batch.items ++ o.pending k = itemsOf k o.logged

/-- The items of the batches that were sent, to whatever recipients there were. -/
def sent (o : Outbox κ ι ρ) (k : κ) : List ι :=
  ((o.batches k).filter fun b => b.recipients.isSome).flatMap Batch.items

/-- The items of the batches that were thrown away. -/
def discarded (o : Outbox κ ι ρ) (k : κ) : List ι :=
  ((o.batches k).filter fun b => !b.recipients.isSome).flatMap Batch.items

/-- The items of the batches that were sent to the recipient. -/
def received [DecidableEq ρ] (o : Outbox κ ι ρ) (k : κ) (r : ρ) : List ι :=
  ((o.batches k).filter fun b => b.recipients.any (r ∈ ·)).flatMap Batch.items

variable {o : Outbox κ ι ρ}

@[simp] theorem itemsOf_append (k : κ) (l m : List (κ × ι)) :
    itemsOf k (l ++ m) = itemsOf k l ++ itemsOf k m := by
  simp [itemsOf]

@[simp] theorem itemsOf_map (k l : κ) (items : List ι) :
    itemsOf k (items.map fun i => (l, i)) = if l = k then items else [] := by
  split
  · rename_i heq
    rw [itemsOf, List.filter_eq_self.mpr (by simp [heq])]
    simp [Function.comp_def]
  · rename_i hne
    simp [itemsOf, hne]

theorem deposit_nil (k : κ) (o : Outbox κ ι ρ) : o.deposit k [] = o := by
  simp [deposit]

theorem balanced_empty : Balanced ({} : Outbox κ ι ρ) := by
  intro k
  simp [batches, itemsOf]

theorem Balanced.deposit (h : o.Balanced) (k : κ) (items : List ι) :
    (o.deposit k items).Balanced := by
  intro l
  have hl := h l
  by_cases heq : l = k
  · subst heq
    simpa [Outbox.deposit, batches, ← List.append_assoc] using hl
  · simpa [Outbox.deposit, batches, heq, Ne.symm heq] using hl

theorem Balanced.close (h : o.Balanced) (k : κ) (recipients : Option (List ρ)) :
    (o.close k recipients).Balanced := by
  intro l
  have hl := h l
  by_cases heq : l = k
  · subst heq
    simpa [Outbox.close, batches] using hl
  · simpa [Outbox.close, batches, heq, Ne.symm heq] using hl

/-- What is logged was sent or was thrown away, or it waits. -/
theorem Balanced.perm (h : o.Balanced) (k : κ) :
    (o.sent k ++ o.discarded k ++ o.pending k).Perm (itemsOf k o.logged) := by
  rw [← h k, sent, discarded, ← List.flatMap_append]
  exact ((List.filter_append_perm _ (o.batches k)).flatMap_right _).append_right _

section Received

variable [DecidableEq ρ]

/-- Nothing is received twice or out of order. -/
theorem Balanced.received_sublist (h : o.Balanced) (k : κ) (r : ρ) :
    (o.received k r).Sublist (itemsOf k o.logged) := by
  rw [← h k, received]
  have hbatches := List.filter_sublist (l := o.batches k) (p := fun b => b.recipients.any (r ∈ ·))
  exact (hbatches.flatMap Batch.items).trans (List.sublist_append_left _ _)

/-- Who is a recipient of every batch receives everything but what waits. -/
theorem Balanced.received_append_pending (h : o.Balanced) {k : κ} {r : ρ}
    (hr : ∀ b ∈ o.closed, b.kind = k → b.recipients.any (r ∈ ·) = true) :
    o.received k r ++ o.pending k = itemsOf k o.logged := by
  rw [← h k, received, List.filter_eq_self.mpr]
  intro b hb
  obtain ⟨hclosed, hkind⟩ := List.mem_filter.mp hb
  exact hr b hclosed (of_decide_eq_true hkind)

end Received

end Outbox

end FlexRan.Lib
