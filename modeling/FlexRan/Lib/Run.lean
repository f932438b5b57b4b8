import Mathlib

/-!
# Runs of a deterministic system that may fail

A system is a step function `step : σ → ε → Except φ σ`: the state after one event, or the
fault the step runs into.  A run is the left fold of `step` over a list of events.  The two
rules every development over such a system needs are here: an invariant that each step keeps
holds in every state reached, and a property that a step keeps *exactly when* a guard holds
of the step characterises the runs along which the property never fails.

## Main definitions

* `run step s events`: the state after the events, or the first fault.
* `Always step s P events`: every state reached along the run satisfies `P`.
* `EachStep step s G events`: every step of the run is taken from a state where `G` holds.
* `Guarded I f Q x`: the computation `x` fails, with `f`, exactly where `Q` does not hold.
-/
namespace FlexRan.Lib

universe u v w

variable {σ : Type u} {ε : Type v} {φ : Type w}

/-- Fold the step function over the events; the first fault ends the run. -/
def run (step : σ → ε → Except φ σ) (s : σ) (events : List ε) : Except φ σ :=
  events.foldlM step s

@[simp] theorem run_nil (step : σ → ε → Except φ σ) (s : σ) : run step s [] = .ok s := rfl

theorem run_cons (step : σ → ε → Except φ σ) (s : σ) (e : ε) (events : List ε) :
    run step s (e :: events) = step s e >>= fun t => run step t events := by
  simp [run, List.foldlM_cons]

theorem run_append (step : σ → ε → Except φ σ) (s : σ) (es fs : List ε) :
    run step s (es ++ fs) = run step s es >>= fun t => run step t fs := by
  simp [run, List.foldlM_append]

theorem bind_eq_ok_iff {α β : Type u} {x : Except φ α} {f : α → Except φ β} {b : β} :
    x >>= f = .ok b ↔ ∃ a, x = .ok a ∧ f a = .ok b := by
  cases x with
  | error e => simp [bind, Except.bind]
  | ok a => simp [bind, Except.bind]

theorem bind_eq_error_iff {α β : Type u} {x : Except φ α} {f : α → Except φ β} {e : φ} :
    x >>= f = .error e ↔ x = .error e ∨ ∃ a, x = .ok a ∧ f a = .error e := by
  cases x with
  | error e' => simp [bind, Except.bind]
  | ok a => simp [bind, Except.bind]

/-- A computation that can be evaluated, with what is decided of its result. -/
theorem exists_ok_of_decide {α : Type u} {x : Except φ α} {p : α → Prop} [DecidablePred p]
    (h : x.map (fun a => decide (p a)) = .ok true) : ∃ a, x = .ok a ∧ p a := by
  cases x with
  | error e => exact absurd h (by simp [Except.map])
  | ok a => exact ⟨a, rfl, of_decide_eq_true (Except.ok.inj h)⟩

theorem run_concat_eq_ok {step : σ → ε → Except φ σ} {s u : σ} {es : List ε} {e : ε} :
    run step s (es ++ [e]) = .ok u ↔ ∃ t, run step s es = .ok t ∧ step t e = .ok u := by
  rw [run_append, bind_eq_ok_iff]
  simp [run, List.foldlM_cons]

/-- A step that under an invariant either keeps it or fails with an expected fault makes every
run end well or with such a fault. -/
theorem run_ok_or_error {step : σ → ε → Except φ σ} {Inv : σ → Prop} {E : φ → Prop}
    (hstep : ∀ s e, Inv s →
      (∃ t, step s e = .ok t ∧ Inv t) ∨ ∃ f, step s e = .error f ∧ E f)
    {s : σ} (hs : Inv s) (events : List ε) :
    (∃ t, run step s events = .ok t ∧ Inv t) ∨ ∃ f, run step s events = .error f ∧ E f := by
  induction events generalizing s with
  | nil => exact .inl ⟨s, rfl, hs⟩
  | cons e events ih =>
    rw [run_cons]
    rcases hstep s e hs with ⟨t, ht, hInv⟩ | ⟨f, hf, hexpected⟩
    · rw [ht]
      exact ih hInv
    · rw [hf]
      exact .inr ⟨f, rfl, hexpected⟩

/-- A step that succeeds under an invariant and keeps it makes every run succeed. -/
theorem run_total {step : σ → ε → Except φ σ} {Inv : σ → Prop}
    (hstep : ∀ s e, Inv s → ∃ t, step s e = .ok t ∧ Inv t) {s : σ} (hs : Inv s)
    (events : List ε) : ∃ t, run step s events = .ok t ∧ Inv t := by
  rcases run_ok_or_error (E := fun _ => False) (fun s e h => .inl (hstep s e h)) hs events
    with h | ⟨_, _, h⟩
  · exact h
  · exact h.elim

/-- What each step keeps holds at the end of every run that does not fault. -/
theorem run_invariant {step : σ → ε → Except φ σ} {I : σ → Prop}
    (hstep : ∀ s e t, I s → step s e = .ok t → I t) {s t : σ} (hs : I s)
    {events : List ε} (hrun : run step s events = .ok t) : I t := by
  induction events generalizing s with
  | nil =>
    obtain rfl : s = t := Except.ok.inj hrun
    exact hs
  | cons e events ih =>
    rw [run_cons, bind_eq_ok_iff] at hrun
    obtain ⟨u, hu, hrun⟩ := hrun
    exact ih (hstep s e u hs hu) hrun

/-- A system with more in its state runs as the one that leaves it out. -/
theorem run_map {τ : Type u} {step : σ → ε → Except φ σ} {step' : τ → ε → Except φ τ} (f : τ → σ)
    (hstep : ∀ s e, (step' s e).map f = step (f s) e) (s : τ) (events : List ε) :
    (run step' s events).map f = run step (f s) events := by
  induction events generalizing s with
  | nil => rfl
  | cons e events ih =>
    rw [run_cons, run_cons, ← hstep]
    cases step' s e with
    | error _ => rfl
    | ok t => exact ih t

/-! ## Properties of all states and all steps of a run -/

/-- Every state reached by a prefix of the events satisfies `P`. -/
def Always (step : σ → ε → Except φ σ) (s : σ) (P : σ → Prop) (events : List ε) : Prop :=
  ∀ es t, es <+: events → run step s es = .ok t → P t

/-- Every event of the list is taken from a state in which the guard `G` holds of it. -/
def EachStep (step : σ → ε → Except φ σ) (s : σ) (G : σ → ε → Prop) (events : List ε) : Prop :=
  ∀ es e t, es ++ [e] <+: events → run step s es = .ok t → G t e

theorem eachStep_cons {step : σ → ε → Except φ σ} {G : σ → ε → Prop} {s : σ} {e : ε}
    {events : List ε} : EachStep step s G (e :: events) ↔
      G s e ∧ ∀ t, step s e = .ok t → EachStep step t G events := by
  constructor
  · intro h
    refine ⟨h [] e s (by simp) rfl, fun t ht es e' u hpre hrun => ?_⟩
    refine h (e :: es) e' u ?_ ?_
    · rw [List.cons_append]
      exact (List.prefix_cons_inj e).mpr hpre
    · rw [run_cons, ht]
      exact hrun
  · rintro ⟨hG, hrest⟩ es e' u hpre hrun
    cases es with
    | nil =>
      obtain rfl : s = u := Except.ok.inj hrun
      obtain rfl : e' = e := (List.cons_prefix_cons.mp hpre).1
      exact hG
    | cons e₁ es =>
      rw [List.cons_append] at hpre
      obtain ⟨heq, hrestpre⟩ := List.cons_prefix_cons.mp hpre
      rw [heq, run_cons, bind_eq_ok_iff] at hrun
      obtain ⟨t, ht, hrun⟩ := hrun
      exact hrest t ht es e' u hrestpre hrun

/-- Guards can be checked along a run. -/
instance decidableEachStep {step : σ → ε → Except φ σ} {G : σ → ε → Prop}
    [∀ s e, Decidable (G s e)] : ∀ s events, Decidable (EachStep step s G events)
  | _, [] => .isTrue fun es e t hpre => absurd hpre (by simp)
  | s, e :: events =>
    have : Decidable (∀ t, step s e = .ok t → EachStep step t G events) :=
      match step s e with
      | .error _ => .isTrue fun _ h => nomatch h
      | .ok u =>
        @decidable_of_iff _ (EachStep step u G events)
          ⟨fun h _ ht => Except.ok.inj ht ▸ h, fun h => h u rfl⟩ (decidableEachStep u events)
    decidable_of_iff _ eachStep_cons.symm

theorem eachStep_append {step : σ → ε → Except φ σ} {G : σ → ε → Prop} {s : σ}
    {es fs : List ε} : EachStep step s G (es ++ fs) ↔
      EachStep step s G es ∧ ∀ t, run step s es = .ok t → EachStep step t G fs := by
  induction es generalizing s with
  | nil =>
    have hnil : EachStep step s G [] := fun es e t hpre => absurd hpre (by simp)
    simp [hnil]
  | cons e es ih =>
    simp only [List.cons_append, eachStep_cons, run_cons, bind_eq_ok_iff, ih]
    exact ⟨fun h => ⟨⟨h.1, fun t ht => (h.2 t ht).1⟩, fun u ⟨t, ht, hu⟩ => (h.2 t ht).2 u hu⟩,
      fun h => ⟨h.1.1, fun t ht => ⟨h.1.2 t ht, fun u hu => h.2 u ⟨t, ht, hu⟩⟩⟩⟩

/-- Events whose guard holds in every state. -/
theorem eachStep_of_forall {step : σ → ε → Except φ σ} {G : σ → ε → Prop} {events : List ε}
    (h : ∀ e ∈ events, ∀ s, G s e) (s : σ) : EachStep step s G events :=
  fun _ e t hpre _ => h e (hpre.subset (by simp)) t

/-- Guards that say the same under an invariant. -/
theorem eachStep_congr {step : σ → ε → Except φ σ} {I : σ → Prop} {G H : σ → ε → Prop} {s : σ}
    (hI : I s) (hstep : ∀ s e t, I s → step s e = .ok t → I t)
    (hiff : ∀ s e, I s → (G s e ↔ H s e)) (events : List ε) :
    EachStep step s G events ↔ EachStep step s H events := by
  refine forall_congr' fun es => forall_congr' fun e => forall_congr' fun t =>
    forall_congr' fun _ => forall_congr' fun hrun => ?_
  exact hiff t e (run_invariant hstep hI hrun)

/-- What each guarded step keeps holds at the end of a run that does not fault. -/
theorem run_invariant_of_eachStep {step : σ → ε → Except φ σ} {I : σ → Prop} {G : σ → ε → Prop}
    (hstep : ∀ s e t, I s → G s e → step s e = .ok t → I t) {s t : σ} (hI : I s)
    {events : List ε} (h : EachStep step s G events) (hrun : run step s events = .ok t) : I t := by
  induction events generalizing s with
  | nil => exact Except.ok.inj hrun ▸ hI
  | cons e events ih =>
    rw [eachStep_cons] at h
    rw [run_cons, bind_eq_ok_iff] at hrun
    obtain ⟨u, hu, hrun⟩ := hrun
    exact ih (hstep s e u hI h.1 hu) (h.2 u hu) hrun

/-- What each guarded step keeps and where none of them fails: the run ends well, and the property
holds at its end. -/
theorem run_total_of_eachStep {step : σ → ε → Except φ σ} {I : σ → Prop} {G : σ → ε → Prop}
    (hstep : ∀ s e, I s → G s e → ∃ t, step s e = .ok t ∧ I t) {s : σ} (hI : I s)
    {events : List ε} (h : EachStep step s G events) :
    ∃ t, run step s events = .ok t ∧ I t := by
  induction events generalizing s with
  | nil => exact ⟨s, rfl, hI⟩
  | cons e events ih =>
    rw [eachStep_cons] at h
    obtain ⟨t, ht, hIt⟩ := hstep s e hI h.1
    obtain ⟨u, hu, hIu⟩ := ih hIt (h.2 t ht)
    refine ⟨u, ?_, hIu⟩
    rw [run_cons, ht]
    exact hu

/-- A property that, under an invariant, a step keeps exactly when its guard holds, holds in
every state of a run exactly when the guard holds at every step of it. -/
theorem always_iff_eachStep {step : σ → ε → Except φ σ} {I P : σ → Prop} {G : σ → ε → Prop}
    {s : σ} (hI : I s) (hP : P s)
    (hstep : ∀ s e t, I s → step s e = .ok t → I t)
    (hiff : ∀ s e t, I s → P s → step s e = .ok t → (P t ↔ G s e))
    (htotal : ∀ s e, I s → P s → ¬ G s e → ∃ t, step s e = .ok t) (events : List ε) :
    Always step s P events ↔ EachStep step s G events := by
  constructor
  · intro h es e t hpre hrun
    have hPt : P t := h es t ((List.prefix_append es [e]).trans hpre) hrun
    have hIt : I t := run_invariant hstep hI hrun
    by_contra hG
    obtain ⟨u, hu⟩ := htotal t e hIt hPt hG
    have hPu : P u := h (es ++ [e]) u hpre (run_concat_eq_ok.mpr ⟨t, hrun, hu⟩)
    exact hG ((hiff t e u hIt hPt hu).mp hPu)
  · intro h es
    -- the last event of the prefix decides whether the property survives
    induction es using List.reverseRecOn with
    | nil =>
      intro t _ hrun
      obtain rfl : s = t := Except.ok.inj hrun
      exact hP
    | append_singleton es e ih =>
      intro u hpre hrun
      obtain ⟨t, ht, hu⟩ := run_concat_eq_ok.mp hrun
      have hPt : P t := ih t ((List.prefix_append es [e]).trans hpre) ht
      exact (hiff t e u (run_invariant hstep hI ht) hPt hu).mpr (h es e t hpre ht)

/-- An invariant that implies a property, that guarded steps keep, and from which any other step
leads out of the property: the property holds in every state of a run exactly when every step of
it is guarded. -/
theorem always_iff_eachStep_of_breaks {step : σ → ε → Except φ σ} {I P : σ → Prop}
    {G : σ → ε → Prop} {s : σ} (hI : I s) (hP : ∀ s, I s → P s)
    (hkeeps : ∀ s e t, I s → G s e → step s e = .ok t → I t)
    (hbreaks : ∀ s e, I s → ¬ G s e → ∃ t, step s e = .ok t ∧ ¬ P t) (events : List ε) :
    Always step s P events ↔ EachStep step s G events := by
  constructor
  · intro h
    -- a step after guarded ones is taken from a state in which the invariant holds
    induction events using List.reverseRecOn with
    | nil => exact fun es e t hpre => absurd hpre (by simp)
    | append_singleton events e ih =>
      have hguarded := ih fun es t hpre => h es t (hpre.trans (List.prefix_append _ _))
      refine eachStep_append.mpr ⟨hguarded, fun t hrun => ?_⟩
      have hIt := run_invariant_of_eachStep hkeeps hI hguarded hrun
      refine eachStep_cons.mpr ⟨?_, fun _ _ es e t hpre => absurd hpre (by simp)⟩
      by_contra hG
      obtain ⟨u, hu, hnot⟩ := hbreaks t e hIt hG
      exact hnot (h _ u (List.prefix_refl _) (run_concat_eq_ok.mpr ⟨t, hrun, hu⟩))
  · intro h es t hpre hrun
    obtain ⟨rest, rfl⟩ := hpre
    exact hP t (run_invariant_of_eachStep hkeeps hI (eachStep_append.mp h).1 hrun)

/-! ## Where a computation fails -/

/-- The computation ends well, in a state with `I`, where `Q` holds, and fails with `f` else. -/
structure Guarded {α : Type u} (I : α → Prop) (f : φ) (Q : Prop) (x : Except φ α) : Prop where
  ok : Q → ∃ t, x = .ok t ∧ I t
  error : ¬ Q → x = .error f

namespace Guarded

variable {α β : Type u} {I : α → Prop} {J : β → Prop} {f : φ} {Q R : Prop} {x : Except φ α}

theorem of_ok {t : α} (hI : I t) : Guarded I f True (.ok t : Except φ α) where
  ok _ := ⟨t, rfl, hI⟩
  error h := absurd trivial h

theorem of_error (h : ¬ Q) : Guarded I f Q (.error f : Except φ α) where
  ok hQ := absurd hQ h
  error _ := rfl

theorem congr (h : Guarded I f Q x) (hiff : Q ↔ R) : Guarded I f R x where
  ok hR := h.ok (hiff.mpr hR)
  error hnot := h.error (mt hiff.mp hnot)

theorem weaken {I' : α → Prop} (h : Guarded I f Q x) (hI : ∀ t, I t → I' t) :
    Guarded I' f Q x where
  ok hQ := by
    obtain ⟨t, ht, hIt⟩ := h.ok hQ
    exact ⟨t, ht, hI t hIt⟩
  error := h.error

/-- One after the other. -/
theorem bind {g : α → Except φ β} (hx : Guarded I f Q x)
    (hg : ∀ t, I t → Guarded J f R (g t)) : Guarded J f (Q ∧ R) (x >>= g) where
  ok h := by
    obtain ⟨t, rfl, hIt⟩ := hx.ok h.1
    exact (hg t hIt).ok h.2
  error h := by
    by_cases hQ : Q
    · obtain ⟨t, rfl, hIt⟩ := hx.ok hQ
      exact (hg t hIt).error fun hR => h ⟨hQ, hR⟩
    · rw [hx.error hQ]
      rfl

theorem map {g : α → β} (hx : Guarded I f Q x) (hg : ∀ t, I t → J (g t)) :
    Guarded J f Q (g <$> x) where
  ok hQ := by
    obtain ⟨t, rfl, hIt⟩ := hx.ok hQ
    exact ⟨g t, rfl, hg t hIt⟩
  error hnot := by
    rw [hx.error hnot]
    rfl

/-- A run ends well where the guard of each event holds. -/
theorem run {step : α → ε → Except φ α} {Q : ε → Prop}
    (hstep : ∀ s e, I s → Guarded I f (Q e) (step s e)) {s : α} (hI : I s) (events : List ε) :
    Guarded I f (∀ e ∈ events, Q e) (run step s events) := by
  induction events generalizing s with
  | nil => exact (of_ok hI).congr (iff_of_true trivial (by simp))
  | cons e events ih =>
    rw [run_cons]
    exact ((hstep s e hI).bind fun t ht => ih ht).congr List.forall_mem_cons.symm

theorem ok_iff (h : Guarded I f Q x) : x ≠ .error f ↔ Q := by
  by_cases hQ : Q
  · obtain ⟨t, rfl, -⟩ := h.ok hQ
    exact iff_of_true (by simp) hQ
  · exact iff_of_false (fun hne => hne (h.error hQ)) hQ

end Guarded

end FlexRan.Lib
