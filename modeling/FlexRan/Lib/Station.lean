import Mathlib

/-!
# Rounds over a queue

A server works on a queue in rounds while items arrive.  In a round it takes items from the queue
until that is empty, but it serves no more of them than its budget allows: the item that it takes
when the budget is used up ends the round and is lost.  In whatever order items arrive and rounds
go on, the items leave the queue in their order, a lost item has a full round of served ones before
it, and an item that waits is taken after a number of rounds that depends on its place only.

## Main definitions

* `Station ι`, `Station.step`: the queue, the round and what has happened so far.
* `Moves`: what a step can do.
* `Sound`: the items taken are in order, and how many of them were lost.
* `Since`: how far the items have come that waited in an earlier state.
-/
namespace FlexRan.Lib

structure Station (ι : Type) where
  queue : List ι := []
  /-- What is left of the budget; `none` between two rounds. -/
  budget : Option ℕ := none
  accepted : List ι := []
  /-- The items taken from the queue, and whether they were served. -/
  taken : List (ι × Bool) := []
  /-- The number of rounds that have ended. -/
  rounds : ℕ := 0

inductive StationEvent (ι : Type)
  | arrive (i : ι)
  | beginRound
  | next

namespace Station

variable {ι : Type}

/-- `m` is the budget of a round. -/
def step (m : ℕ) (s : Station ι) : StationEvent ι → Station ι
  | .arrive i => { s with queue := s.queue ++ [i], accepted := s.accepted ++ [i] }
  | .beginRound =>
    match s.budget with
    | none => { s with budget := some m }
    | some _ => s
  | .next =>
    match s.budget, s.queue with
    | none, _ => s
    | some _, [] => { s with budget := none, rounds := s.rounds + 1 }
    | some 0, i :: queue => { s with
        queue := queue, budget := none, taken := s.taken ++ [(i, false)], rounds := s.rounds + 1 }
    | some (b + 1), i :: queue => { s with
        queue := queue, budget := some b, taken := s.taken ++ [(i, true)] }

def served (s : Station ι) : List ι := (s.taken.filter Prod.snd).map Prod.fst

def lost (s : Station ι) : List ι := (s.taken.filter fun e => !e.2).map Prod.fst

/-- The number of rounds that have begun, the one that is going on included. -/
def begun (s : Station ι) : ℕ := s.rounds + if s.budget.isSome then 1 else 0

/-- The number of items served in the round that is going on. -/
def progress (m : ℕ) (s : Station ι) : ℕ := s.budget.elim 0 (m - ·)

/-- What a step can do. -/
inductive Moves (m : ℕ) (s : Station ι) : Station ι → Prop
  | idle : Moves m s s
  | arrives (i : ι) :
    Moves m s { s with queue := s.queue ++ [i], accepted := s.accepted ++ [i] }
  | begins (hbudget : s.budget = none) : Moves m s { s with budget := some m }
  | rests {b : ℕ} (hbudget : s.budget = some b) (hqueue : s.queue = []) :
    Moves m s { s with budget := none, rounds := s.rounds + 1 }
  | loses {i : ι} {queue : List ι} (hbudget : s.budget = some 0) (hqueue : s.queue = i :: queue) :
    Moves m s { s with
      queue := queue, budget := none, taken := s.taken ++ [(i, false)], rounds := s.rounds + 1 }
  | serves {b : ℕ} {i : ι} {queue : List ι} (hbudget : s.budget = some (b + 1))
    (hqueue : s.queue = i :: queue) :
    Moves m s { s with queue := queue, budget := some b, taken := s.taken ++ [(i, true)] }

variable {m : ℕ} {s t : Station ι}

theorem moves_step (m : ℕ) (s : Station ι) (e : StationEvent ι) : Moves m s (s.step m e) := by
  obtain ⟨queue, budget, accepted, taken, rounds⟩ := s
  cases e with
  | arrive i => exact .arrives i
  | beginRound =>
    cases budget with
    | none => exact .begins rfl
    | some b => exact .idle
  | next =>
    cases budget with
    | none => exact .idle
    | some b =>
      cases queue with
      | nil => exact .rests rfl rfl
      | cons i queue =>
        cases b with
        | zero => exact .loses rfl rfl
        | succ b => exact .serves rfl rfl

/-! ## Order and losses -/

/-- For each item that was lost, `m` items have been served. -/
structure Sound (m : ℕ) (s : Station ι) : Prop where
  fifo : s.accepted = s.taken.map Prod.fst ++ s.queue
  budget : ∀ b, s.budget = some b → b ≤ m
  losses : m * s.lost.length + s.progress m ≤ s.served.length
  rounds : s.lost.length ≤ s.rounds

theorem sound_empty (m : ℕ) : Sound m ({} : Station ι) where
  fifo := rfl
  budget _ hb := by cases hb
  losses := by simp [lost, progress]
  rounds := by simp [lost]

theorem length_served_loses {i : ι} (h : t.taken = s.taken ++ [(i, false)]) :
    t.served.length = s.served.length ∧ t.lost.length = s.lost.length + 1 := by
  simp [served, lost, h]

theorem length_served_serves {i : ι} (h : t.taken = s.taken ++ [(i, true)]) :
    t.served.length = s.served.length + 1 ∧ t.lost.length = s.lost.length := by
  simp [served, lost, h]

theorem progress_of_some {b : ℕ} (h : s.budget = some b) : s.progress m = m - b := by
  rw [progress, h]
  rfl

theorem Sound.moves (h : s.Sound m) (hmove : Moves m s t) : t.Sound m := by
  have hlosses := h.losses
  cases hmove with
  | idle => exact h
  | arrives i =>
    refine ⟨?_, h.budget, hlosses, h.rounds⟩
    rw [h.fifo, List.append_assoc]
  | begins hbudget =>
    refine ⟨h.fifo, fun b hb => ?_, ?_, h.rounds⟩
    · obtain rfl := Option.some.inj hb
      exact le_refl m
    · rw [progress_of_some (b := m) rfl, Nat.sub_self]
      exact (Nat.le_add_right _ _).trans hlosses
  | rests hbudget hqueue =>
    refine ⟨h.fifo, fun b hb => (nomatch hb), ?_, Nat.le_succ_of_le h.rounds⟩
    exact (Nat.add_le_add_left (Nat.zero_le _) _).trans hlosses
  | @loses i queue hbudget hqueue =>
    -- the item is lost, after `m` items of this round
    obtain ⟨hserved, hlost⟩ := length_served_loses (i := i) (s := s)
      (t := { s with queue := queue, budget := none, taken := s.taken ++ [(i, false)],
                     rounds := s.rounds + 1 }) rfl
    rw [progress_of_some hbudget, Nat.sub_zero] at hlosses
    refine ⟨?_, fun b hb => (nomatch hb), ?_, ?_⟩
    · rw [h.fifo, hqueue]
      simp
    · rw [hserved, hlost, Nat.mul_succ]
      exact hlosses
    · rw [hlost]
      exact Nat.succ_le_succ h.rounds
  | @serves b i queue hbudget hqueue =>
    have hb : b + 1 ≤ m := h.budget _ hbudget
    obtain ⟨hserved, hlost⟩ := length_served_serves (i := i) (s := s)
      (t := { s with queue := queue, budget := some b, taken := s.taken ++ [(i, true)] }) rfl
    rw [progress_of_some hbudget] at hlosses
    refine ⟨?_, fun b' hb' => ?_, ?_, ?_⟩
    · rw [h.fifo, hqueue]
      simp
    · obtain rfl := Option.some.inj hb'
      exact (Nat.le_succ b).trans hb
    · rw [hserved, hlost, progress_of_some (b := b) rfl]
      omega
    · rw [hlost]
      exact h.rounds

/-! ## Waiting -/

theorem begun_of_none (h : s.budget = none) : s.begun = s.rounds := by
  simp [begun, h]

theorem begun_of_some {b : ℕ} (h : s.budget = some b) : s.begun = s.rounds + 1 := by
  simp [begun, h]

/-- In each round that has begun since `s`, a full round of items was taken, or all that waited. -/
structure Since (m : ℕ) (s t : Station ι) : Prop where
  sound : t.Sound m
  taken : s.taken <+: t.taken
  accepted : s.accepted <+: t.accepted
  begun : s.begun ≤ t.begun
  reached : s.begun ≤ t.rounds →
    min s.queue.length ((t.rounds - s.begun) * (m + 1) + t.progress m) ≤
      t.taken.length - s.taken.length

theorem since_self (h : s.Sound m) : Since m s s where
  sound := h
  taken := List.prefix_refl _
  accepted := List.prefix_refl _
  begun := le_refl _
  reached hle := by
    cases hbudget : s.budget with
    | none => simp [begun_of_none hbudget, progress, hbudget]
    | some b =>
      rw [begun_of_some hbudget] at hle
      exact absurd hle (Nat.not_succ_le_self _)

/-- Once the queue is empty, what waited has been taken. -/
theorem Since.length_le (hs : s.Sound m) (h : Since m s t) (hempty : t.queue = []) :
    s.queue.length ≤ t.taken.length - s.taken.length := by
  have hlength := h.accepted.length_le
  rw [hs.fifo, h.sound.fifo, hempty] at hlength
  simp at hlength
  omega

/-- The history only grows. -/
theorem Moves.grows (hmove : Moves m s t) :
    s.taken <+: t.taken ∧ s.accepted <+: t.accepted ∧ s.begun ≤ t.begun := by
  cases hmove with
  | idle => exact ⟨List.prefix_refl _, List.prefix_refl _, le_refl _⟩
  | arrives i => exact ⟨List.prefix_refl _, List.prefix_append _ _, le_refl _⟩
  | begins hbudget =>
    refine ⟨List.prefix_refl _, List.prefix_refl _, ?_⟩
    rw [begun_of_none hbudget]
    exact Nat.le_add_right _ _
  | rests hbudget hqueue =>
    exact ⟨List.prefix_refl _, List.prefix_refl _, (begun_of_some hbudget).le⟩
  | loses hbudget hqueue =>
    exact ⟨List.prefix_append _ _, List.prefix_refl _, (begun_of_some hbudget).le⟩
  | serves hbudget hqueue =>
    exact ⟨List.prefix_append _ _, List.prefix_refl _, (begun_of_some hbudget).le⟩

theorem Since.reached_moves {u : Station ι} (hs : s.Sound m) (h : Since m s t)
    (hmove : Moves m t u) (hle : s.begun ≤ u.rounds) :
    min s.queue.length ((u.rounds - s.begun) * (m + 1) + u.progress m) ≤
      u.taken.length - s.taken.length := by
  have hreached := h.reached
  have htaken := h.taken.length_le
  cases hmove with
  | idle => exact hreached hle
  | arrives i => exact hreached hle
  | begins hbudget =>
    have hbefore := hreached hle
    rw [progress_of_some (b := m) rfl, Nat.sub_self]
    rw [progress, hbudget] at hbefore
    exact hbefore
  | rests hbudget hqueue =>
    have hall := h.length_le hs hqueue
    exact (min_le_left _ _).trans hall
  | loses hbudget hqueue =>
    rw [progress_of_some hbudget] at hreached
    dsimp only [progress, Option.elim] at hle ⊢
    rw [List.length_append, List.length_singleton]
    rcases Nat.eq_or_lt_of_le hle with heq | hlt
    · simp [heq]
    · -- the round that ends here has taken `m + 1` items
      obtain ⟨c, hc⟩ := Nat.exists_eq_add_of_le (Nat.le_of_lt_succ hlt)
      have hbefore := hreached (Nat.le_of_lt_succ hlt)
      rw [hc, Nat.add_sub_cancel_left] at hbefore
      rw [hc, Nat.add_assoc, Nat.add_sub_cancel_left, Nat.succ_mul]
      omega
  | @serves b i queue hbudget hqueue =>
    have hb : b + 1 ≤ m := h.sound.budget _ hbudget
    have hbefore := hreached hle
    rw [progress_of_some hbudget] at hbefore
    rw [progress_of_some (b := b) rfl]
    dsimp only
    rw [List.length_append, List.length_singleton]
    omega

theorem Since.moves {u : Station ι} (hs : s.Sound m) (h : Since m s t) (hmove : Moves m t u) :
    Since m s u where
  sound := h.sound.moves hmove
  taken := h.taken.trans hmove.grows.1
  accepted := h.accepted.trans hmove.grows.2.1
  begun := h.begun.trans hmove.grows.2.2
  reached := h.reached_moves hs hmove

theorem Since.foldl (hs : s.Sound m) (h : Since m s t) (events : List (StationEvent ι)) :
    Since m s (events.foldl (Station.step m) t) := by
  induction events generalizing t with
  | nil => exact h
  | cons e events ih => exact ih (h.moves hs (moves_step m t e))

/-- The items that waited are taken in their order, a full round of them in each round that has
begun since. -/
theorem Since.take_prefix (hs : s.Sound m) (h : Since m s t) :
    s.queue.take ((t.rounds - s.begun) * (m + 1)) <+:
      (t.taken.drop s.taken.length).map Prod.fst := by
  have hqueue : s.queue <+: (t.taken.drop s.taken.length).map Prod.fst ++ t.queue := by
    obtain ⟨more, hmore⟩ := h.taken
    have haccepted := h.accepted
    rw [hs.fifo, h.sound.fifo, ← hmore, List.map_append, List.append_assoc] at haccepted
    rw [← hmore, List.drop_left]
    exact (List.prefix_append_right_inj _).mp haccepted
  have hlength : (s.queue.take ((t.rounds - s.begun) * (m + 1))).length ≤
      ((t.taken.drop s.taken.length).map Prod.fst).length := by
    rw [List.length_take, List.length_map, List.length_drop]
    rcases Nat.lt_or_ge t.rounds s.begun with hlt | hge
    · simp [Nat.sub_eq_zero_of_le hlt.le]
    · have hreached := h.reached hge
      omega
  exact List.prefix_of_prefix_length_le ((List.take_prefix _ _).trans hqueue)
    (List.prefix_append _ _) hlength

end Station

end FlexRan.Lib
