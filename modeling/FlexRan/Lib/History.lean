import FlexRan.Lib.Run

/-!
# Histories of events

A history is the list of the events of a run, the latest one last.  Two questions are asked of
it: what the last event of a kind was, and whether the events that open and close something
alternate, so that what is open now is decided by the last of them.

## Main definitions

* `last? f history`: what the last event `f` looks at says.
* `Alternates history`: opening events (`true`) and closing events (`false`) take turns.
* `IsOpen history`: the last event has opened.
-/
namespace FlexRan.Lib

variable {ε α : Type}

/-- What the last of the events says that `f` is about. -/
def last? (f : ε → Option α) (history : List ε) : Option α := (history.filterMap f).getLast?

@[simp] theorem last?_nil (f : ε → Option α) : last? f [] = none := rfl

@[simp] theorem last?_singleton (f : ε → Option α) (e : ε) : last? f [e] = f e := by
  cases h : f e <;> simp [last?, h]

theorem last?_append (f : ε → Option α) (h₁ h₂ : List ε) :
    last? f (h₁ ++ h₂) = (last? f h₂).or (last? f h₁) := by
  rw [last?, last?, last?, List.filterMap_append, List.getLast?_append]

theorem last?_eq_none_iff {f : ε → Option α} {history : List ε} :
    last? f history = none ↔ ∀ e ∈ history, f e = none := by
  rw [last?, List.getLast?_eq_none_iff, List.filterMap_eq_nil_iff]

/-- Events `f` is not about do not matter. -/
theorem last?_eq_none {f : ε → Option α} {history : List ε} (h : ∀ e ∈ history, f e = none) :
    last? f history = none :=
  last?_eq_none_iff.mpr h

/-- Every event that `f` is about says the same, and there is one. -/
theorem last?_eq_some {f : ε → Option α} {history : List ε} {a : α}
    (h : ∀ e ∈ history, f e = none ∨ f e = some a) (hex : ∃ e ∈ history, f e = some a) :
    last? f history = some a := by
  have hall : ∀ b ∈ history.filterMap f, b = a := by
    intro b hb
    obtain ⟨e, he, hfe⟩ := List.mem_filterMap.mp hb
    rcases h e he with hnone | hsome
    · exact absurd (hfe.symm.trans hnone) (by simp)
    · exact Option.some.inj (hfe.symm.trans hsome)
  have hne : history.filterMap f ≠ [] := by
    obtain ⟨e, he, hfe⟩ := hex
    exact List.ne_nil_of_mem (List.mem_filterMap.mpr ⟨e, he, hfe⟩)
  rw [last?, List.getLast?_eq_some_getLast hne]
  exact congrArg some (hall _ (List.getLast_mem hne))

/-- What the last of the events says, with the events before and after it. -/
theorem last?_eq_some_iff {f : ε → Option α} {history : List ε} {a : α} :
    last? f history = some a ↔
      ∃ pre e post, history = pre ++ e :: post ∧ f e = some a ∧ ∀ x ∈ post, f x = none := by
  constructor
  · intro h
    induction history using List.reverseRecOn with
    | nil => exact nomatch h
    | append_singleton history e ih =>
      rw [last?_append, last?_singleton] at h
      cases he : f e with
      | some b =>
        rw [he] at h
        exact ⟨history, e, [], rfl, he.trans h, by simp⟩
      | none =>
        rw [he] at h
        obtain ⟨pre, e', post, rfl, he', hpost⟩ := ih h
        refine ⟨pre, e', post ++ [e], by simp, he', fun x hx => ?_⟩
        rcases List.mem_append.mp hx with hx | hx
        · exact hpost x hx
        · rw [List.mem_singleton.mp hx, he]
  · rintro ⟨pre, e, post, rfl, he, hpost⟩
    rw [last?_append, ← List.singleton_append, last?_append, last?_eq_none hpost, last?_singleton,
      he]
    rfl

/-- A part of the state that each event either sets or leaves alone has the value that was set
last. -/
theorem foldl_register {σ : Type} {step : σ → ε → σ} {f : ε → Option α} (read : σ → α)
    (hstep : ∀ s e, read (step s e) = (f e).getD (read s)) (history : List ε) (s : σ) :
    read (history.foldl step s) = (last? f history).getD (read s) := by
  induction history using List.reverseRecOn with
  | nil => rfl
  | append_singleton history e ih =>
    rw [List.foldl_append, List.foldl_cons, List.foldl_nil, hstep, ih, last?_append,
      last?_singleton]
    cases f e <;> rfl

/-- The same of steps that may fail, in a run without a fault. -/
theorem run_register {σ φ : Type} {step : σ → ε → Except φ σ} {f : ε → Option α} (read : σ → α)
    (hstep : ∀ s e t, step s e = .ok t → read t = (f e).getD (read s)) {history : List ε} {s t : σ}
    (hrun : run step s history = .ok t) : read t = (last? f history).getD (read s) := by
  induction history using List.reverseRecOn generalizing t with
  | nil =>
    cases hrun
    rfl
  | append_singleton history e ih =>
    obtain ⟨u, hu, ht⟩ := run_concat_eq_ok.mp hrun
    rw [hstep u e t ht, ih hu, last?_append, last?_singleton]
    cases f e <;> rfl

/-- Of the elements of a list with their places, one is at the place. -/
theorem last?_zipIdx {β : Type} (g : β → α) (l : List β) (i : ℕ) :
    last? (fun e : β × ℕ => if e.2 = i then some (g e.1) else none) l.zipIdx = (l[i]?).map g := by
  induction l using List.reverseRecOn with
  | nil => rfl
  | append_singleton l x ih =>
    have hzip : (l ++ [x]).zipIdx = l.zipIdx ++ [(x, l.length)] := by
      simp [List.zipIdx_append]
    rw [hzip, last?_append, last?_singleton, ih]
    rcases Nat.lt_trichotomy i l.length with hlt | rfl | hgt
    · simp [List.getElem?_append_left hlt, Nat.ne_of_gt hlt]
    · simp
    · simp [Nat.ne_of_lt hgt, hgt, hgt.le]

/-- A loop that keeps what each event says over what was said before. -/
theorem foldl_or (f : ε → Option α) (history : List ε) (a : Option α) :
    history.foldl (fun a e => (f e).or a) a = (last? f history).or a := by
  induction history using List.reverseRecOn with
  | nil => rfl
  | append_singleton history e ih =>
    rw [List.foldl_append, ih, last?_append, last?_singleton, Option.or_assoc]
    rfl

/-! ## Opening and closing -/

/-- Openings and closings alternate, and the first event opens. -/
def Alternates (history : List Bool) : Prop :=
  history.IsChain (· ≠ ·) ∧ ∀ e ∈ history.head?, e = true

/-- The last event has opened. -/
def IsOpen (history : List Bool) : Prop := history.getLast? = some true

instance (history : List Bool) : Decidable (IsOpen history) :=
  inferInstanceAs (Decidable (history.getLast? = some true))

theorem alternates_nil : Alternates [] := ⟨List.isChain_nil, by simp⟩

@[simp] theorem not_isOpen_nil : ¬ IsOpen [] := by simp [IsOpen]

@[simp] theorem isOpen_concat (history : List Bool) (e : Bool) :
    IsOpen (history ++ [e]) ↔ e = true := by
  rw [IsOpen, List.getLast?_concat, Option.some.injEq]

private theorem isChain_concat {history : List Bool} (h : history.IsChain (· ≠ ·)) {e : Bool}
    (hlast : history.getLast? ≠ some e) : (history ++ [e]).IsChain (· ≠ ·) := by
  refine List.isChain_append.mpr ⟨h, List.isChain_singleton e, ?_⟩
  intro x hx y hy hxy
  obtain rfl : e = y := by simpa using hy
  exact hlast (hxy ▸ hx)

/-- What is not open may be opened. -/
theorem Alternates.opened {history : List Bool} (h : Alternates history)
    (hclosed : ¬ IsOpen history) : Alternates (history ++ [true]) := by
  refine ⟨isChain_concat h.1 hclosed, ?_⟩
  cases history with
  | nil => simp
  | cons e history => exact h.2

/-- What is open may be closed. -/
theorem Alternates.closed {history : List Bool} (h : Alternates history)
    (hopen : IsOpen history) : Alternates (history ++ [false]) := by
  have hlast : history.getLast? ≠ some false := by
    rw [hopen]
    simp
  refine ⟨isChain_concat h.1 hlast, ?_⟩
  cases history with
  | nil => exact absurd hopen not_isOpen_nil
  | cons e history => exact h.2

end FlexRan.Lib
