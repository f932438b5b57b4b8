import FlexRan.Lib.Run

/-!
# Signals

A signal holds slots in the order in which they were connected.  An emission calls the slots that
are connected when it begins, one after the other; a slot that has been disconnected by an earlier
one is skipped, and a slot connected during the emission has to wait for the next one.  The slots
live in the state they change, so that a call may connect and disconnect others.

## Main definitions

* `Signal κ`: slots of type `κ`, each with the number of its connection.
* `Signal.connect`, `Signal.disconnect`, `Signal.connected`.
* `Owned name g conn`: each name has at most one slot, and `conn` keeps its connection.
* `emit`: one emission.
-/
namespace FlexRan.Lib

structure Signal (κ : Type) where
  /-- The number of the next connection. -/
  next : ℕ := 0
  slots : List (ℕ × κ) := []

namespace Signal

variable {κ : Type}

def connect (g : Signal κ) (k : κ) : Signal κ :=
  { next := g.next + 1, slots := g.slots ++ [(g.next, k)] }

/-- A connection that is closed already may be closed again. -/
def disconnect (g : Signal κ) (c : ℕ) : Signal κ :=
  { g with slots := g.slots.filter fun e => e.1 != c }

def connected (g : Signal κ) (c : ℕ) : Bool := g.slots.any fun e => e.1 == c

/-- Disconnect what is connected. -/
def close (g : Signal κ) : Option ℕ → Signal κ
  | some c => if g.connected c then g.disconnect c else g
  | none => g

end Signal

/-! ## Kept connections -/

section Owned

variable {κ ι : Type}

/-- The slots have different names, and the connection of each is kept under its name. -/
structure Owned (name : κ → ι) (g : Signal κ) (conn : ι → Option ℕ) : Prop where
  fresh : ∀ i c, conn i = some c → c < g.next
  injective : ∀ i j c, conn i = some c → conn j = some c → i = j
  kept : ∀ e ∈ g.slots, conn (name e.2) = some e.1
  nodup : (g.slots.map Prod.fst).Nodup

namespace Owned

variable {name : κ → ι} {g : Signal κ} {conn : ι → Option ℕ}

theorem empty (name : κ → ι) : Owned name {} fun _ => none where
  fresh := by simp
  injective := by simp
  kept := by simp
  nodup := by simp

/-- A kept connection is connected if there is a slot of its name. -/
theorem connected_iff (h : Owned name g conn) (i : ι) :
    (conn i).any g.connected = true ↔ ∃ e ∈ g.slots, name e.2 = i := by
  rw [Option.any_eq_true]
  constructor
  · rintro ⟨c, hc, hconnected⟩
    obtain ⟨e, he, heq⟩ := List.any_eq_true.mp hconnected
    obtain rfl := beq_iff_eq.mp heq
    exact ⟨e, he, h.injective _ _ _ (h.kept e he) hc⟩
  · rintro ⟨e, he, rfl⟩
    exact ⟨e.1, h.kept e he, List.any_eq_true.mpr ⟨e, he, beq_self_eq_true e.1⟩⟩

theorem connect [DecidableEq ι] (h : Owned name g conn) {k : κ}
    (hnew : ∀ e ∈ g.slots, name e.2 ≠ name k) :
    Owned name (g.connect k) (Function.update conn (name k) (some g.next)) where
  fresh i c hc := by
    rw [Function.update_apply] at hc
    split at hc
    · exact Option.some.inj hc ▸ Nat.lt_succ_self _
    · exact (h.fresh i c hc).trans (Nat.lt_succ_self _)
  injective i j c hi hj := by
    rw [Function.update_apply] at hi hj
    split at hi
    · rename_i hik
      split at hj
      · rename_i hjk
        exact hik.trans hjk.symm
      · obtain rfl := Option.some.inj hi
        exact absurd (h.fresh j _ hj) (Nat.lt_irrefl _)
    · split at hj
      · obtain rfl := Option.some.inj hj
        exact absurd (h.fresh i _ hi) (Nat.lt_irrefl _)
      · exact h.injective i j c hi hj
  kept e he := by
    rcases List.mem_append.mp he with he | he
    · rw [Function.update_of_ne (hnew e he)]
      exact h.kept e he
    · obtain rfl := List.mem_singleton.mp he
      exact Function.update_self _ _ _
  nodup := by
    have hfresh : g.next ∉ g.slots.map Prod.fst := by
      intro hmem
      obtain ⟨e, he, heq⟩ := List.mem_map.mp hmem
      exact absurd (h.fresh _ _ (h.kept e he)) (heq ▸ Nat.lt_irrefl _)
    rw [Signal.connect, List.map_append]
    refine h.nodup.append (List.nodup_singleton _) ?_
    rw [List.map_singleton, List.disjoint_singleton]
    exact hfresh

theorem mem_connect {k : κ} {e : ℕ × κ} :
    e ∈ (g.connect k).slots ↔ e ∈ g.slots ∨ e = (g.next, k) := by
  rw [Signal.connect, List.mem_append, List.mem_singleton]

/-- Closing a kept connection removes the slot of its name. -/
theorem mem_close (h : Owned name g conn) {i : ι} {e : ℕ × κ} :
    e ∈ (g.close (conn i)).slots ↔ e ∈ g.slots ∧ name e.2 ≠ i := by
  cases hc : conn i with
  | none =>
    refine ⟨fun he => ⟨he, fun hi => ?_⟩, And.left⟩
    rw [← hi, h.kept e he] at hc
    exact absurd hc (by simp)
  | some c =>
    have hname : ∀ e ∈ g.slots, e.1 = c ↔ name e.2 = i := fun e he =>
      ⟨fun heq => h.injective _ _ _ (h.kept e he) (heq ▸ hc), fun hi =>
        Option.some.inj ((h.kept e he).symm.trans (hi ▸ hc))⟩
    rw [Signal.close]
    split
    · rw [Signal.disconnect, List.mem_filter, bne_iff_ne]
      exact and_congr_right fun he => not_congr (hname e he)
    · rename_i hnot
      refine ⟨fun he => ⟨he, fun hi => hnot ?_⟩, And.left⟩
      exact List.any_eq_true.mpr ⟨e, he, beq_iff_eq.mpr ((hname e he).mpr hi)⟩

theorem close (h : Owned name g conn) (i : ι) : Owned name (g.close (conn i)) conn where
  fresh j c hc := by
    have hnext : (g.close (conn i)).next = g.next := by
      cases conn i with
      | none => rfl
      | some c => rw [Signal.close]; split <;> rfl
    rw [hnext]
    exact h.fresh j c hc
  injective := h.injective
  kept e he := h.kept e (h.mem_close.mp he).1
  nodup := by
    cases conn i with
    | none => exact h.nodup
    | some c =>
      rw [Signal.close]
      split
      · exact h.nodup.sublist (List.filter_sublist.map _)
      · exact h.nodup

theorem countP_le_one [DecidableEq ι] (h : Owned name g conn) (i : ι) :
    (g.slots.countP fun e => name e.2 = i) ≤ 1 := by
  rw [List.countP_eq_length_filter, ← List.length_map Prod.fst]
  have hnodup := h.nodup.sublist ((List.filter_sublist (p := fun e => name e.2 = i)).map Prod.fst)
  have hsubset : (g.slots.filter fun e => name e.2 = i).map Prod.fst ⊆ (conn i).toList := by
    intro c hc
    obtain ⟨e, he, rfl⟩ := List.mem_map.mp hc
    obtain ⟨hmem, hname⟩ := List.mem_filter.mp he
    rw [Option.mem_toList, ← of_decide_eq_true hname]
    exact h.kept e hmem
  refine (hnodup.subperm hsubset).length_le.trans ?_
  cases conn i <;> simp

end Owned

end Owned

section Emit

variable {σ κ φ : Type} (signalOf : σ → Signal κ) (call : ℕ → κ → σ → Except φ σ)

/-- A slot of the emission is called if it is still connected. -/
def callSlot (s : σ) (e : ℕ × κ) : Except φ σ :=
  if (signalOf s).connected e.1 then call e.1 e.2 s else .ok s

def emit (s : σ) : Except φ σ := run (callSlot signalOf call) s (signalOf s).slots

variable {signalOf call} {s : σ}

theorem emit_nil (h : (signalOf s).slots = []) : emit signalOf call s = .ok s := by
  rw [emit, h, run_nil]

/-- The only slot is called. -/
theorem emit_singleton {c : ℕ} {k : κ} (h : (signalOf s).slots = [(c, k)]) :
    emit signalOf call s = call c k s := by
  have hconnected : (signalOf s).connected c = true := by simp [Signal.connected, h]
  have hcall : callSlot signalOf call s (c, k) = call c k s := if_pos hconnected
  rw [emit, h, run_cons, hcall]
  cases call c k s <;> rfl

/-- What every slot keeps is kept by the emission. -/
theorem emit_invariant {Inv : σ → Prop} (hcall : ∀ c k s t, Inv s → call c k s = .ok t → Inv t)
    {t : σ} (hs : Inv s) (h : emit signalOf call s = .ok t) : Inv t := by
  refine run_invariant (fun s e t hInv hstep => ?_) hs h
  rw [callSlot] at hstep
  split at hstep
  · exact hcall e.1 e.2 s t hInv hstep
  · exact Except.ok.inj hstep ▸ hInv

/-- Slots that never fail make an emission that does not. -/
theorem emit_total {Inv : σ → Prop} (hcall : ∀ c k s, Inv s → ∃ t, call c k s = .ok t ∧ Inv t)
    (hs : Inv s) : ∃ t, emit signalOf call s = .ok t ∧ Inv t := by
  refine run_total (fun s e hInv => ?_) hs _
  rw [callSlot]
  split
  · exact hcall e.1 e.2 s hInv
  · exact ⟨s, rfl, hInv⟩

/-- Slots that keep more in the state are called as those that leave it out. -/
theorem emit_map {τ : Type} {call' : ℕ → κ → τ → Except φ τ} (f : τ → σ)
    (hcall : ∀ c k s, (call' c k s).map f = call c k (f s)) (s : τ) :
    (emit (fun s => signalOf (f s)) call' s).map f = emit signalOf call (f s) := by
  refine run_map f (fun s e => ?_) s _
  rw [callSlot, callSlot]
  split
  · exact hcall e.1 e.2 s
  · rfl

end Emit
end FlexRan.Lib
