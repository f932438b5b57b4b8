import Mathlib

/-!
# Operations on a state that may abort

An operation reads and changes a state and either returns a value or aborts.  What it did
before it aborted stays done, as with an exception in a language with assignments: there is no
rollback.  Whether a rejected operation leaves the state alone is therefore a property of the
order of its steps, and the rules here derive it from that order.

## Main definitions

* `Operation σ φ α`: an operation on `σ` that returns an `α` or aborts with a `φ`.
* `Keeps R m`: the state before `m` is related by `R` to the state after it.
* `Atomic P m`: an outcome that satisfies `P` leaves the state as it was.
-/
namespace FlexRan.Lib

/-- An operation on a state of type `σ`; `exec` runs it. -/
abbrev Operation (σ φ : Type) := ExceptT φ (StateM σ)

namespace Operation

variable {σ φ α β ι : Type}

/-- The outcome of the operation and the state it leaves. -/
def exec (m : Operation σ φ α) (s : σ) : Except φ α × σ := m.run.run s

@[simp] theorem exec_pure (a : α) (s : σ) : exec (φ := φ) (pure a) s = (.ok a, s) := rfl

@[simp] theorem exec_throw (e : φ) (s : σ) : exec (α := α) (throw e) s = (.error e, s) := rfl

@[simp] theorem exec_get (s : σ) : exec (φ := φ) get s = (.ok s, s) := rfl

@[simp] theorem exec_set (t s : σ) : exec (φ := φ) (set t) s = (.ok ⟨⟩, t) := rfl

@[simp] theorem exec_modify (f : σ → σ) (s : σ) :
    exec (φ := φ) (modify f) s = (.ok ⟨⟩, f s) := rfl

theorem exec_bind (m : Operation σ φ α) (f : α → Operation σ φ β) (s : σ) :
    exec (m >>= f) s = match exec m s with
      | (.ok a, t) => exec (f a) t
      | (.error e, t) => (.error e, t) := by
  have h : exec (m >>= f) s = (ExceptT.bindCont f (m.run.run s).1).run (m.run.run s).2 := rfl
  rw [h, exec]
  cases hm : m.run.run s with
  | mk result t => cases result <;> rfl

theorem exec_bind_of_ok {m : Operation σ φ α} {f : α → Operation σ φ β} {s t : σ} {a : α}
    (h : exec m s = (.ok a, t)) : exec (m >>= f) s = exec (f a) t := by
  rw [exec_bind, h]

theorem exec_bind_of_error {m : Operation σ φ α} {f : α → Operation σ φ β} {s t : σ} {e : φ}
    (h : exec m s = (.error e, t)) : exec (m >>= f) s = (.error e, t) := by
  rw [exec_bind, h]

theorem exec_bind_eq_ok_iff {m : Operation σ φ α} {f : α → Operation σ φ β} {s u : σ} {b : β} :
    exec (m >>= f) s = (.ok b, u) ↔
      ∃ a t, exec m s = (.ok a, t) ∧ exec (f a) t = (.ok b, u) := by
  rw [exec_bind]
  cases exec m s with
  | mk result t =>
    cases result with
    | error e => simp
    | ok a => simp

@[simp] theorem exec_forM_nil (f : ι → Operation σ φ PUnit) (s : σ) :
    exec (forM [] f) s = (.ok ⟨⟩, s) := rfl

theorem exec_forM_cons {f : ι → Operation σ φ PUnit} {i : ι} {l : List ι} {s t : σ}
    (h : exec (f i) s = (.ok ⟨⟩, t)) : exec (forM (i :: l) f) s = exec (forM l f) t := by
  rw [List.forM_cons, exec_bind_of_ok h]

/-- Abort if the condition holds. -/
def throwIf (c : Prop) [Decidable c] (e : φ) : Operation σ φ Unit :=
  if c then throw e else pure ()

theorem exec_throwIf_pos {c : Prop} [Decidable c] (h : c) (e : φ) (s : σ) :
    exec (throwIf c e) s = (.error e, s) := by
  rw [throwIf, if_pos h, exec_throw]

theorem exec_throwIf_neg {c : Prop} [Decidable c] (h : ¬ c) (e : φ) (s : σ) :
    exec (throwIf c e) s = (.ok (), s) := by
  rw [throwIf, if_neg h, exec_pure]

/-- A computation that does not touch the state, with its own kind of failure. -/
def lift {ε : Type} (f : ε → φ) (x : Except ε α) : Operation σ φ α :=
  match x with
  | .ok a => pure a
  | .error e => throw (f e)

@[simp] theorem exec_lift_ok {ε : Type} (f : ε → φ) (a : α) (s : σ) :
    exec (lift f (.ok a)) s = (.ok a, s) := rfl

@[simp] theorem exec_lift_error {ε : Type} (f : ε → φ) (e : ε) (s : σ) :
    exec (lift f (.error e : Except ε α)) s = (.error (f e), s) := rfl

/-! ## What an operation keeps -/

/-- However the operation ends, `R` relates the state before to the state after. -/
def Keeps (R : σ → σ → Prop) (m : Operation σ φ α) : Prop := ∀ s, R s (exec m s).2

/-- The operation does not change the state. -/
abbrev Silent (m : Operation σ φ α) : Prop := Keeps Eq m

section Keeps

variable {R : σ → σ → Prop}

theorem Keeps.pure (hrefl : ∀ s, R s s) (a : α) : Keeps R (pure a : Operation σ φ α) := hrefl

theorem Keeps.throw (hrefl : ∀ s, R s s) (e : φ) : Keeps R (throw e : Operation σ φ α) := hrefl

theorem Keeps.get (hrefl : ∀ s, R s s) : Keeps R (get : Operation σ φ σ) := hrefl

theorem Keeps.throwIf (hrefl : ∀ s, R s s) (c : Prop) [Decidable c] (e : φ) :
    Keeps R (throwIf c e : Operation σ φ Unit) := by
  intro s
  by_cases h : c
  · rw [exec_throwIf_pos h]
    exact hrefl s
  · rw [exec_throwIf_neg h]
    exact hrefl s

theorem Keeps.lift {ε : Type} (hrefl : ∀ s, R s s) (f : ε → φ) (x : Except ε α) :
    Keeps R (lift f x : Operation σ φ α) := by
  intro s
  cases x <;> exact hrefl s

theorem Keeps.bind (htrans : ∀ s t u, R s t → R t u → R s u) {m : Operation σ φ α}
    {f : α → Operation σ φ β} (hm : Keeps R m) (hf : ∀ a, Keeps R (f a)) :
    Keeps R (m >>= f) := by
  intro s
  have hst : R s (exec m s).2 := hm s
  rw [exec_bind]
  cases h : exec m s with
  | mk result t =>
    rw [h] at hst
    cases result with
    | error e => exact hst
    | ok a => exact htrans s t _ hst (hf a t)

theorem Keeps.forM_of_mem (hrefl : ∀ s, R s s) (htrans : ∀ s t u, R s t → R t u → R s u)
    {f : ι → Operation σ φ PUnit} {l : List ι} (hf : ∀ i ∈ l, Keeps R (f i)) :
    Keeps R (forM l f) := by
  induction l with
  | nil => exact Keeps.pure hrefl _
  | cons i l ih =>
    rw [List.forM_cons]
    exact Keeps.bind htrans (hf i (by simp)) fun _ => ih fun j hj => hf j (List.mem_cons_of_mem i hj)

theorem Keeps.forM (hrefl : ∀ s, R s s) (htrans : ∀ s t u, R s t → R t u → R s u)
    {f : ι → Operation σ φ PUnit} (hf : ∀ i, Keeps R (f i)) (l : List ι) :
    Keeps R (forM l f) :=
  Keeps.forM_of_mem hrefl htrans fun i _ => hf i

theorem Keeps.mapM (hrefl : ∀ s, R s s) (htrans : ∀ s t u, R s t → R t u → R s u)
    {f : ι → Operation σ φ α} (hf : ∀ i, Keeps R (f i)) (l : List ι) :
    Keeps R (l.mapM f) := by
  induction l with
  | nil => exact Keeps.pure hrefl _
  | cons i l ih =>
    rw [List.mapM_cons]
    exact Keeps.bind htrans (hf i) fun _ => Keeps.bind htrans ih fun _ => Keeps.pure hrefl _

end Keeps

/-! ## Looks at the state -/

theorem Silent.pure (a : α) : Silent (pure a : Operation σ φ α) := Keeps.pure (fun _ => rfl) a

theorem Silent.throw (e : φ) : Silent (throw e : Operation σ φ α) := Keeps.throw (fun _ => rfl) e

theorem Silent.throwIf (c : Prop) [Decidable c] (e : φ) :
    Silent (throwIf c e : Operation σ φ PUnit) :=
  Keeps.throwIf (fun _ => rfl) c e

theorem Silent.lift {ε : Type} (f : ε → φ) (x : Except ε α) :
    Silent (lift f x : Operation σ φ α) :=
  Keeps.lift (fun _ => rfl) f x

theorem Silent.bind {m : Operation σ φ α} {f : α → Operation σ φ β} (hm : Silent m)
    (hf : ∀ a, Silent (f a)) : Silent (m >>= f) :=
  Keeps.bind (R := Eq) (fun _ _ _ h₁ h₂ => h₁.trans h₂) hm hf

theorem Silent.forM {f : ι → Operation σ φ PUnit} (hf : ∀ i, Silent (f i)) (l : List ι) :
    Silent (forM l f) :=
  Keeps.forM (fun _ => rfl) (fun _ _ _ h₁ h₂ => h₁.trans h₂) hf l

theorem Silent.mapM {f : ι → Operation σ φ α} (hf : ∀ i, Silent (f i)) (l : List ι) :
    Silent (l.mapM f) :=
  Keeps.mapM (fun _ => rfl) (fun _ _ _ h₁ h₂ => h₁.trans h₂) hf l

section Silent

variable {m : Operation σ φ α} {s : σ}

theorem Silent.exec_eq (hm : Silent m) (s : σ) : exec m s = ((exec m s).1, s) :=
  Prod.ext rfl (hm s).symm

theorem Silent.exec_bind {f : α → Operation σ φ β} (hm : Silent m) {a : α}
    (h : (exec m s).1 = .ok a) : exec (m >>= f) s = exec (f a) s :=
  exec_bind_of_ok (h ▸ hm.exec_eq s)

theorem Silent.exec_bind_error {f : α → Operation σ φ β} (hm : Silent m) {e : φ}
    (h : (exec m s).1 = .error e) : exec (m >>= f) s = (.error e, s) :=
  exec_bind_of_error (h ▸ hm.exec_eq s)

/-- A look fails, or what follows starts in the same state. -/
theorem Silent.exec_bind_cases (hm : Silent m) (f : α → Operation σ φ β) (s : σ) :
    (∃ e, exec (m >>= f) s = (.error e, s)) ∨
      ∃ a, (exec m s).1 = .ok a ∧ exec (m >>= f) s = exec (f a) s := by
  cases h : (exec m s).1 with
  | error e => exact .inl ⟨e, hm.exec_bind_error h⟩
  | ok a => exact .inr ⟨a, rfl, hm.exec_bind h⟩

theorem Silent.exec_bind_ok_iff {f : α → Operation σ φ β} (hm : Silent m) {b : β} :
    (exec (m >>= f) s).1 = .ok b ↔
      ∃ a, (exec m s).1 = .ok a ∧ (exec (f a) s).1 = .ok b := by
  cases h : (exec m s).1 with
  | error e =>
    rw [hm.exec_bind_error h]
    simp
  | ok a =>
    rw [hm.exec_bind h]
    simp

/-- A loop of looks returns if each of them does. -/
theorem exec_forM_ok_iff {f : ι → Operation σ φ PUnit} (hf : ∀ i, Silent (f i)) {l : List ι} :
    (exec (forM l f) s).1 = .ok ⟨⟩ ↔ ∀ i ∈ l, (exec (f i) s).1 = .ok ⟨⟩ := by
  induction l with
  | nil => simp
  | cons i l ih =>
    rw [List.forM_cons, (hf i).exec_bind_ok_iff, List.forall_mem_cons, ih]
    exact ⟨fun ⟨_, h⟩ => h, fun h => ⟨⟨⟩, h⟩⟩

/-- The list of what the looks return. -/
theorem exec_mapM_ok_iff {f : ι → Operation σ φ α} (hf : ∀ i, Silent (f i)) {l : List ι}
    {as : List α} : (exec (l.mapM f) s).1 = .ok as ↔
      List.Forall₂ (fun i a => (exec (f i) s).1 = .ok a) l as := by
  induction l generalizing as with
  | nil =>
    rw [List.mapM_nil, exec_pure, Except.ok.injEq, List.forall₂_nil_left_iff]
    exact eq_comm
  | cons i l ih =>
    rw [List.mapM_cons, (hf i).exec_bind_ok_iff, List.forall₂_cons_left_iff]
    refine exists_congr fun a => ?_
    rw [(Silent.mapM hf l).exec_bind_ok_iff]
    constructor
    · rintro ⟨hi, as', hl, heq⟩
      exact ⟨as', hi, ih.mp hl, (Except.ok.inj heq).symm⟩
    · rintro ⟨as', hi, hl, rfl⟩
      exact ⟨hi, as', ih.mpr hl, rfl⟩

end Silent

/-! ## How an operation ends -/

/-- The operation aborts in these ways only. -/
def Fails (E : φ → Prop) (m : Operation σ φ α) : Prop := ∀ s e, (exec m s).1 = .error e → E e

/-- The operation returns such values only. -/
def Returns (Q : α → Prop) (m : Operation σ φ α) : Prop := ∀ s a, (exec m s).1 = .ok a → Q a

section Ends

variable {E : φ → Prop} {Q : α → Prop}

theorem Fails.pure (a : α) : Fails E (pure a : Operation σ φ α) := fun _ _ h => nomatch h

theorem Fails.get : Fails E (get : Operation σ φ σ) := fun _ _ h => nomatch h

theorem Fails.modify (f : σ → σ) : Fails E (modify f : Operation σ φ PUnit) :=
  fun _ _ h => nomatch h

theorem Fails.throw {e : φ} (h : E e) : Fails E (throw e : Operation σ φ α) := by
  intro s e' he
  obtain rfl := Except.error.inj he
  exact h

theorem Fails.throwIf (c : Prop) [Decidable c] {e : φ} (h : E e) :
    Fails E (throwIf c e : Operation σ φ Unit) := by
  rw [Operation.throwIf]
  split
  · exact Fails.throw h
  · exact Fails.pure _

theorem Fails.lift {ε : Type} {f : ε → φ} {x : Except ε α} (h : ∀ e, x = .error e → E (f e)) :
    Fails E (lift f x : Operation σ φ α) := by
  cases x with
  | ok a => exact Fails.pure a
  | error e => exact Fails.throw (h e rfl)

theorem Fails.bind {m : Operation σ φ α} {f : α → Operation σ φ β} (hm : Fails E m)
    (hf : ∀ a, Fails E (f a)) : Fails E (m >>= f) := by
  intro s e he
  rw [exec_bind] at he
  have hs := hm s
  cases h : exec m s with
  | mk result t =>
    rw [h] at he hs
    cases result with
    | error e' =>
      obtain rfl := Except.error.inj he
      exact hs _ rfl
    | ok a => exact hf a t e he

theorem Fails.forM {f : ι → Operation σ φ PUnit} (hf : ∀ i, Fails E (f i)) (l : List ι) :
    Fails E (forM l f) := by
  induction l with
  | nil => exact Fails.pure _
  | cons i l ih =>
    rw [List.forM_cons]
    exact Fails.bind (hf i) fun _ => ih

theorem Fails.mapM {f : ι → Operation σ φ α} (hf : ∀ i, Fails E (f i)) (l : List ι) :
    Fails E (l.mapM f) := by
  induction l with
  | nil => exact Fails.pure _
  | cons i l ih =>
    rw [List.mapM_cons]
    exact Fails.bind (hf i) fun _ => Fails.bind ih fun _ => Fails.pure _

/-- A sequence whose first part does not change the state aborts where one of the parts does. -/
theorem exec_bind_error_iff {m : Operation σ φ α} {f : α → Operation σ φ β} (hm : Silent m)
    {s : σ} {e : φ} : (exec (m >>= f) s).1 = .error e ↔
      (exec m s).1 = .error e ∨ ∃ a, (exec m s).1 = .ok a ∧ (exec (f a) s).1 = .error e := by
  have hs : s = (exec m s).2 := hm s
  rw [exec_bind]
  cases h : exec m s with
  | mk result t =>
    rw [h] at hs
    subst hs
    cases result <;> simp

theorem Fails.not_error {m : Operation σ φ α} {s : σ} {e : φ} (h : Fails (· ≠ e) m) :
    (exec m s).1 ≠ .error e :=
  fun he => h s e he rfl

theorem Returns.pure {a : α} (h : Q a) : Returns Q (pure a : Operation σ φ α) := by
  intro s b hb
  obtain rfl := Except.ok.inj hb
  exact h

theorem Returns.bind {m : Operation σ φ β} {f : β → Operation σ φ α}
    (hf : ∀ b, Returns Q (f b)) : Returns Q (m >>= f) := by
  intro s a ha
  rw [exec_bind] at ha
  cases h : exec m s with
  | mk result t =>
    rw [h] at ha
    cases result with
    | error e => exact nomatch ha
    | ok b => exact hf b t a ha

end Ends

/-! ## Operations without effect where they fail -/

/-- An outcome that satisfies `P` leaves the state as it was. -/
def Atomic (P : Except φ α → Prop) (m : Operation σ φ α) : Prop :=
  ∀ s, P (exec m s).1 → (exec m s).2 = s

section Atomic

variable {P : Except φ α → Prop}

theorem Atomic.of_silent {m : Operation σ φ α} (h : Silent m) : Atomic P m :=
  fun s _ => (h s).symm

/-- Steps that do not change the state may come before. -/
theorem Atomic.bind {m : Operation σ φ β} {f : β → Operation σ φ α} (hm : Silent m)
    (hf : ∀ b, Atomic P (f b)) : Atomic P (m >>= f) := by
  intro s
  have hs : s = (exec m s).2 := hm s
  rw [exec_bind]
  cases h : exec m s with
  | mk result t =>
    rw [h] at hs
    subst hs
    cases result with
    | error e => exact fun _ => rfl
    | ok b => exact hf b s

/-- An operation that never ends with such an outcome may change the state. -/
theorem Atomic.of_not {m : Operation σ φ α} (h : ∀ s, ¬ P (exec m s).1) : Atomic P m :=
  fun s hs => absurd hs (h s)

end Atomic

end Operation
end FlexRan.Lib
