import FlexRan.Lib.Run

/-!
# Refinement of runs with outputs

A concrete system answers an event with the state after it and a list of outputs, or it faults.
An abstract system is total.  The concrete one refines the abstract one when each of its steps,
taken from related states, is matched by the commands the event stands for: the states after it
are related again, and the outputs that can be observed are those of the abstract system.

The rule lifts this from steps to runs.  Events that stand for no command must not be observed.

An event that does nothing in the state it arrives in can be left out of a run.

## Main definitions

* `trace step s events`: the state after the events and all outputs, or the first fault.
* `behave step t commands`: the same for a total system.
* `Refines`: the matching of steps.
* `purge step drops s events`: the events of a run that are not dropped.
* `Purgeable`: dropped events do nothing, and the others do not depend on them.
-/
namespace FlexRan.Lib

universe u

variable {σ ω τ ν φ : Type u} {ε κ : Type*}

/-- Run the events one after the other and collect their outputs. -/
def trace (step : σ → ε → Except φ (σ × List ω)) (s : σ) : List ε → Except φ (σ × List ω)
  | [] => .ok (s, [])
  | e :: events => do
    let (t, out) ← step s e
    let (u, rest) ← trace step t events
    return (u, out ++ rest)

/-- The step without its outputs. -/
def stateStep (step : σ → ε → Except φ (σ × List ω)) (s : σ) (e : ε) : Except φ σ :=
  Prod.fst <$> step s e

def behave (step : τ → κ → τ × List ν) (t : τ) : List κ → τ × List ν
  | [] => (t, [])
  | c :: commands =>
    let (t', out) := step t c
    let (t'', rest) := behave step t' commands
    (t'', out ++ rest)

theorem trace_cons_eq_ok {step : σ → ε → Except φ (σ × List ω)} {s u : σ} {e : ε}
    {events : List ε} {outs : List ω} : trace step s (e :: events) = .ok (u, outs) ↔
      ∃ t out rest, step s e = .ok (t, out) ∧ trace step t events = .ok (u, rest) ∧
        outs = out ++ rest := by
  simp only [trace, bind_eq_ok_iff]
  constructor
  · rintro ⟨⟨t, out⟩, ht, ⟨u', rest⟩, hu, heq⟩
    obtain ⟨rfl, rfl⟩ := Prod.mk.inj (Except.ok.inj heq)
    exact ⟨t, out, rest, ht, hu, rfl⟩
  · rintro ⟨t, out, rest, ht, hu, rfl⟩
    exact ⟨(t, out), ht, (u, rest), hu, rfl⟩

theorem trace_concat {step : σ → ε → Except φ (σ × List ω)} {s t u : σ} {es : List ε} {e : ε}
    {outs out : List ω} (hrun : trace step s es = .ok (t, outs)) (hstep : step t e = .ok (u, out)) :
    trace step s (es ++ [e]) = .ok (u, outs ++ out) := by
  induction es generalizing s outs with
  | nil =>
    obtain ⟨rfl, rfl⟩ := Prod.mk.inj (Except.ok.inj hrun)
    exact trace_cons_eq_ok.mpr ⟨u, out, [], hstep, rfl, (List.append_nil out).symm⟩
  | cons c es ih =>
    obtain ⟨v, first, rest, hv, hrest, rfl⟩ := trace_cons_eq_ok.mp hrun
    rw [List.cons_append, List.append_assoc]
    exact trace_cons_eq_ok.mpr ⟨v, first, rest ++ out, hv, ih hrest, rfl⟩

theorem behave_cons (step : τ → κ → τ × List ν) (t : τ) (c : κ) (commands : List κ) :
    behave step t (c :: commands) =
      ((behave step (step t c).1 commands).1,
        (step t c).2 ++ (behave step (step t c).1 commands).2) := rfl

theorem behave_append (step : τ → κ → τ × List ν) (t : τ) (cs ds : List κ) :
    behave step t (cs ++ ds) =
      ((behave step (behave step t cs).1 ds).1,
        (behave step t cs).2 ++ (behave step (behave step t cs).1 ds).2) := by
  induction cs generalizing t with
  | nil => rfl
  | cons c cs ih => rw [List.cons_append, behave_cons, ih, behave_cons, List.append_assoc]

/-- What each command keeps holds after all of them. -/
theorem behave_invariant {step : τ → κ → τ × List ν} {I : τ → Prop} {commands : List κ}
    (hstep : ∀ t, ∀ c ∈ commands, I t → I (step t c).1) {t : τ} (ht : I t) :
    I (behave step t commands).1 := by
  induction commands generalizing t with
  | nil => exact ht
  | cons c commands ih =>
    rw [behave_cons]
    exact ih (fun t d hd => hstep t d (List.mem_cons_of_mem c hd))
      (hstep t c List.mem_cons_self ht)

/-- Guarded steps from related states are matched by the commands of the event. -/
structure Refines (step : σ → ε → Except φ (σ × List ω)) (abstract : τ → κ → τ × List ν)
    (R : σ → τ → Prop) (G : σ → ε → Prop) (commands : ε → List κ) (notice : ω → Option ν) :
    Prop where
  matched : ∀ s t e s' out, R s t → G s e → step s e = .ok (s', out) →
    R s' (behave abstract t (commands e)).1 ∧
      out.filterMap notice = (behave abstract t (commands e)).2

/-- A guarded run from related states is matched by the commands of its events. -/
theorem Refines.trace {step : σ → ε → Except φ (σ × List ω)} {abstract : τ → κ → τ × List ν}
    {R : σ → τ → Prop} {G : σ → ε → Prop} {commands : ε → List κ} {notice : ω → Option ν}
    (h : Refines step abstract R G commands notice) {s s' : σ} {t : τ} {events : List ε}
    {out : List ω} (hR : R s t) (hG : EachStep (stateStep step) s G events)
    (hrun : trace step s events = .ok (s', out)) :
    R s' (behave abstract t (events.flatMap commands)).1 ∧
      out.filterMap notice = (behave abstract t (events.flatMap commands)).2 := by
  induction events generalizing s t out with
  | nil =>
    obtain ⟨rfl, rfl⟩ := Prod.mk.inj (Except.ok.inj hrun)
    exact ⟨hR, rfl⟩
  | cons e events ih =>
    obtain ⟨u, first, rest, hu, hrest, rfl⟩ := trace_cons_eq_ok.mp hrun
    obtain ⟨hGe, hGrest⟩ := eachStep_cons.mp hG
    obtain ⟨hRu, hfirst⟩ := h.matched s t e u first hR hGe hu
    have hstate : stateStep step s e = .ok u := by
      rw [stateStep, hu]
      rfl
    obtain ⟨hR', hout⟩ := ih hRu (hGrest u hstate) hrest
    rw [List.flatMap_cons, behave_append, List.filterMap_append, hfirst, hout]
    exact ⟨hR', rfl⟩

/-! ## Events without effect -/

section Purge

variable {step : σ → ε → Except φ σ} {drops : σ → ε → Bool}

/-- The events without those that are dropped in the state they arrive in. -/
def purge (step : σ → ε → Except φ σ) (drops : σ → ε → Bool) (s : σ) : List ε → List ε
  | [] => []
  | e :: events =>
    match step s e with
    | .error _ => e :: events
    | .ok t => if drops s e then purge step drops t events else e :: purge step drops t events

theorem purge_cons_of_ok {s t : σ} {e : ε} (h : step s e = .ok t) (events : List ε) :
    purge step drops s (e :: events) =
      if drops s e then purge step drops t events else e :: purge step drops t events := by
  rw [purge, h]

/-- A dropped event leaves the state related to what it was related to; any other one is matched
by itself. -/
structure Purgeable (step : σ → ε → Except φ σ) (drops : σ → ε → Bool) (R : σ → σ → Prop) :
    Prop where
  dropped : ∀ s s' e t, R s s' → drops s e = true → step s e = .ok t → R t s'
  kept : ∀ s s' e t, R s s' → drops s e = false → step s e = .ok t →
    ∃ t', step s' e = .ok t' ∧ R t t'

/-- The purged run exists and ends in a related state. -/
theorem Purgeable.run {R : σ → σ → Prop} (h : Purgeable step drops R) {s s' t : σ}
    {events : List ε} (hR : R s s') (hrun : run step s events = .ok t) :
    ∃ t', run step s' (purge step drops s events) = .ok t' ∧ R t t' := by
  induction events generalizing s s' with
  | nil =>
    obtain rfl := Except.ok.inj hrun
    exact ⟨s', rfl, hR⟩
  | cons e events ih =>
    rw [run_cons, bind_eq_ok_iff] at hrun
    obtain ⟨u, hu, hrest⟩ := hrun
    rw [purge_cons_of_ok hu]
    cases hdrop : drops s e with
    | true =>
      rw [if_pos rfl]
      exact ih (h.dropped s s' e u hR hdrop hu) hrest
    | false =>
      obtain ⟨u', hu', hRu⟩ := h.kept s s' e u hR hdrop hu
      obtain ⟨t', ht', hRt⟩ := ih hRu hrest
      refine ⟨t', ?_, hRt⟩
      rw [if_neg (by simp), run_cons, hu']
      exact ht'

end Purge

end FlexRan.Lib
