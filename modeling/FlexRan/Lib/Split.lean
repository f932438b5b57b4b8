import FlexRan.Lib.Run
import Mathlib.Data.List.DropRight
import Mathlib.Data.List.Forall2

/-!
# Pieces of a list

A text is cut at every separator, what surrounds a piece is trimmed, and a partial function is
applied to the pieces in turn until it fails.

## Main definitions

* `trim p l`: the list without the elements with `p` at both ends.
-/
namespace FlexRan.Lib

variable {α β ε : Type}

/-! ## Trimming -/

def trim (p : α → Bool) (l : List α) : List α := (l.dropWhile p).rdropWhile p

section Trim

variable {p : α → Bool} {a b l r : List α} {c : α}

theorem rdropWhile_cons_of_not (hc : p c = false) (r : List α) :
    (c :: r).rdropWhile p = c :: r.rdropWhile p := by
  induction r using List.reverseRecOn with
  | nil => simp [List.rdropWhile_singleton, hc]
  | append_singleton r x ih =>
    rw [← List.cons_append, List.rdropWhile_concat, List.rdropWhile_concat, ih]
    split_ifs <;> simp

theorem rdropWhile_append_of_forall (ha : ∀ x ∈ a, p x = true) (l : List α) :
    (l ++ a).rdropWhile p = l.rdropWhile p := by
  induction a using List.reverseRecOn with
  | nil => rw [List.append_nil]
  | append_singleton a x ih =>
    rw [← List.append_assoc, List.rdropWhile_concat_pos p _ x (ha x (by simp))]
    exact ih fun y hy => ha y (by simp [hy])

theorem trim_eq_nil_of_forall (hl : ∀ x ∈ l, p x = true) : trim p l = [] := by
  rw [trim, List.dropWhile_eq_nil_iff.mpr hl, List.rdropWhile_nil]

/-- The first element that stays is the first one without `p`. -/
theorem trim_append_cons (hb : ∀ x ∈ b, p x = true) (hc : p c = false) (r : List α) :
    trim p (b ++ c :: r) = c :: r.rdropWhile p := by
  rw [trim, List.dropWhile_append_of_pos hb, List.dropWhile_cons_of_neg (by simp [hc]),
    rdropWhile_cons_of_not hc]

theorem trim_sublist (p : α → Bool) (l : List α) : (trim p l).Sublist l :=
  (List.rdropWhile_prefix p _).sublist.trans (List.dropWhile_sublist p)

/-- A list whose ends are without `p` is what is left of it. -/
theorem trim_append_append {core : List α} (hb : ∀ x ∈ b, p x = true) (ha : ∀ x ∈ a, p x = true)
    (hne : core ≠ []) (hhead : p (core.head hne) = false) (hlast : p (core.getLast hne) = false) :
    trim p (b ++ core ++ a) = core := by
  have hcore : core = core.head hne :: core.tail := (List.cons_head_tail hne).symm
  rw [trim, List.append_assoc, List.dropWhile_append_of_pos hb, hcore, List.cons_append,
    List.dropWhile_cons_of_neg (by simp [hhead]), ← List.cons_append, ← hcore,
    rdropWhile_append_of_forall ha, List.rdropWhile_eq_self_iff]
  exact fun _ => by simp [hlast]

end Trim

/-! ## Cutting -/

theorem notMem_of_mem_splitOn [DecidableEq α] {x : α} {l piece : List α}
    (h : piece ∈ l.splitOn x) : x ∉ piece := by
  induction l generalizing piece with
  | nil =>
    rw [List.splitOn_nil, List.mem_singleton] at h
    simp [h]
  | cons c l ih =>
    rw [List.splitOn_cons_eq_if_modifyHead] at h
    split_ifs at h with hc
    · rcases List.mem_cons.mp h with rfl | h
      · exact List.not_mem_nil
      · exact ih h
    · obtain ⟨q, qs, hq⟩ := List.exists_cons_of_ne_nil (List.splitOn_ne_nil x l)
      rw [hq, List.modifyHead_cons] at h
      rcases List.mem_cons.mp h with rfl | h
      · rw [List.mem_cons, not_or]
        exact ⟨fun hx => hc (by simp [hx]), ih (by simp [hq])⟩
      · exact ih (by simp [hq, h])

section Join

variable {x : α} {l : List α} {ls : List (List α)}

theorem length_intercalate_cons_of_ne_nil (h : ls ≠ []) :
    ([x].intercalate (l :: ls)).length = l.length + 1 + ([x].intercalate ls).length := by
  rw [List.intercalate_cons_of_ne_nil h, List.length_append, List.length_append,
    List.length_singleton]

/-- A piece that a separator follows is shorter than the whole. -/
theorem length_lt_of_mem_dropLast (h : l ∈ ls.dropLast) :
    l.length < ([x].intercalate ls).length := by
  induction ls with
  | nil => exact absurd h List.not_mem_nil
  | cons m ls ih =>
    have hne : ls ≠ [] := by
      rintro rfl
      exact absurd h (by simp)
    rw [List.dropLast_cons_of_ne_nil hne] at h
    rw [length_intercalate_cons_of_ne_nil hne]
    rcases List.mem_cons.mp h with rfl | h
    · omega
    · have := ih h
      omega

theorem length_getLastD_le (x : α) (ls : List (List α)) :
    (ls.getLastD []).length ≤ ([x].intercalate ls).length := by
  induction ls with
  | nil => simp
  | cons m ls ih =>
    by_cases hne : ls = []
    · simp [hne]
    · obtain ⟨k, ks, rfl⟩ := List.exists_cons_of_ne_nil hne
      rw [length_intercalate_cons_of_ne_nil hne]
      simp only [List.getLastD_cons] at ih ⊢
      omega

end Join

/-! ## A partial function on every piece -/

theorem mapM_ok_iff {f : α → Except ε β} {l : List α} {bs : List β} :
    l.mapM f = .ok bs ↔ List.Forall₂ (fun a b => f a = .ok b) l bs := by
  induction l generalizing bs with
  | nil =>
    rw [List.mapM_nil, List.forall₂_nil_left_iff]
    exact ⟨fun h => (Except.ok.inj h).symm, fun h => congrArg Except.ok h.symm⟩
  | cons a l ih =>
    simp only [List.mapM_cons, bind_eq_ok_iff, List.forall₂_cons_left_iff, ← ih]
    constructor
    · rintro ⟨b, hb, bs', hbs, h⟩
      exact ⟨b, bs', hb, hbs, (Except.ok.inj h).symm⟩
    · rintro ⟨b, bs', hb, hbs, rfl⟩
      exact ⟨b, hb, bs', hbs, rfl⟩

theorem exists_forall₂ {R : α → β → Prop} {l : List α} (h : ∀ a ∈ l, ∃ b, R a b) :
    ∃ bs, List.Forall₂ R l bs := by
  induction l with
  | nil => exact ⟨[], .nil⟩
  | cons a l ih =>
    obtain ⟨b, hb⟩ := h a (by simp)
    obtain ⟨bs, hbs⟩ := ih fun a ha => h a (List.mem_cons_of_mem _ ha)
    exact ⟨b :: bs, .cons hb hbs⟩

theorem mapM_ok {f : α → Except ε β} {l : List α} (h : ∀ a ∈ l, ∃ b, f a = .ok b) :
    ∃ bs, l.mapM f = .ok bs := by
  obtain ⟨bs, hbs⟩ := exists_forall₂ h
  exact ⟨bs, mapM_ok_iff.mpr hbs⟩

/-- Results that are described one by one. -/
theorem exists_mapM_ok {γ : Type} {f : α → Except ε β} {R : α → γ → Prop} {T : γ → β → Prop}
    {l : List α} (h : ∀ a ∈ l, ∃ b c, f a = .ok b ∧ R a c ∧ T c b) :
    ∃ bs cs, l.mapM f = .ok bs ∧ List.Forall₂ R l cs ∧ List.Forall₂ T cs bs := by
  induction l with
  | nil => exact ⟨[], [], rfl, .nil, .nil⟩
  | cons a l ih =>
    obtain ⟨b, c, hb, hR, hT⟩ := h a (by simp)
    obtain ⟨bs, cs, hbs, hRs, hTs⟩ := ih fun a ha => h a (List.mem_cons_of_mem _ ha)
    refine ⟨b :: bs, c :: cs, ?_, .cons hR hRs, .cons hT hTs⟩
    rw [List.mapM_cons, hb, hbs]
    rfl

theorem exists_of_mem_of_mapM_ok {f : α → Except ε β} {l : List α} {bs : List β}
    (h : l.mapM f = .ok bs) {a : α} (ha : a ∈ l) : ∃ b ∈ bs, f a = .ok b := by
  rw [mapM_ok_iff] at h
  induction h with
  | nil => exact absurd ha List.not_mem_nil
  | cons hb _ ih =>
    rcases List.mem_cons.mp ha with rfl | ha
    · exact ⟨_, List.mem_cons_self, hb⟩
    · obtain ⟨b, hmem, hb⟩ := ih ha
      exact ⟨b, List.mem_cons_of_mem _ hmem, hb⟩

theorem exists_of_mem_mapM_ok {f : α → Except ε β} {l : List α} {bs : List β}
    (h : l.mapM f = .ok bs) {b : β} (hb : b ∈ bs) : ∃ a ∈ l, f a = .ok b := by
  rw [mapM_ok_iff] at h
  induction h with
  | nil => exact absurd hb List.not_mem_nil
  | cons hab _ ih =>
    rcases List.mem_cons.mp hb with rfl | hb
    · exact ⟨_, List.mem_cons_self, hab⟩
    · obtain ⟨a, hmem, ha⟩ := ih hb
      exact ⟨a, List.mem_cons_of_mem _ hmem, ha⟩

/-- The first piece it fails on decides. -/
theorem mapM_error_iff {f : α → Except ε β} {l : List α} {e : ε} :
    l.mapM f = .error e ↔
      ∃ pre a post, l = pre ++ a :: post ∧ (∀ x ∈ pre, ∃ b, f x = .ok b) ∧ f a = .error e := by
  induction l with
  | nil => simp [List.mapM_nil, pure, Except.pure]
  | cons a l ih =>
    rw [List.mapM_cons]
    cases ha : f a with
    | error e' =>
      constructor
      · intro h
        obtain rfl : e' = e := Except.error.inj h
        exact ⟨[], a, l, rfl, by simp, ha⟩
      · rintro ⟨pre, x, post, heq, hpre, hx⟩
        cases pre with
        | nil =>
          obtain ⟨rfl, -⟩ := List.cons.inj heq
          obtain rfl : e' = e := Except.error.inj (ha.symm.trans hx)
          rfl
        | cons y pre =>
          obtain ⟨rfl, -⟩ := List.cons.inj heq
          obtain ⟨b, hb⟩ := hpre a (by simp)
          exact absurd (ha.symm.trans hb) (by simp)
    | ok b =>
      have hrest : (Except.ok b >>= fun c => l.mapM f >>= fun cs => pure (c :: cs)) = .error e ↔
          l.mapM f = .error e := by
        cases l.mapM f <;> simp [bind, Except.bind, pure, Except.pure]
      rw [hrest, ih]
      constructor
      · rintro ⟨pre, x, post, rfl, hpre, hx⟩
        exact ⟨a :: pre, x, post, rfl, List.forall_mem_cons.mpr ⟨⟨b, ha⟩, hpre⟩, hx⟩
      · rintro ⟨pre, x, post, heq, hpre, hx⟩
        cases pre with
        | nil =>
          obtain ⟨rfl, -⟩ := List.cons.inj heq
          exact absurd (ha.symm.trans hx) (by simp)
        | cons y pre =>
          obtain ⟨-, rfl⟩ := List.cons.inj heq
          exact ⟨pre, x, post, rfl, fun z hz => hpre z (by simp [hz]), hx⟩

end FlexRan.Lib
