import Mathlib

/-!
# Ordered maps and sets of shared objects

An ordered map is Lean's extensional tree map: two maps with the same entries are equal, and
iteration visits the keys in ascending order.  A set of shared objects keyed by address is
such a map from the address to the object, so that identity is equality of addresses.

The lemmas describe loops: what a map looks up after a loop that erased or inserted the
elements of another container one by one.

## Main definitions

* `OnePer`: a list with one element for each key.
* `SharedSet α`: a set of pointers to objects of type `α`, ordered by address.
* `select p s`: the set a loop fills with the objects of `s` that satisfy `p`.
* `freshAddr want live`: the address of a new object.
-/
namespace FlexRan.Lib

variable {κ α : Type} [Ord κ] [Std.TransOrd κ] [Std.LawfulEqOrd κ]

theorem getElem?_foldl_erase [DecidableEq κ] (keys : List κ) (m : Std.ExtTreeMap κ α) (a : κ) :
    (keys.foldl (fun m k => m.erase k) m)[a]? = if a ∈ keys then none else m[a]? := by
  induction keys generalizing m with
  | nil => simp
  | cons k keys ih =>
    rw [List.foldl_cons, ih, Std.ExtTreeMap.getElem?_erase]
    by_cases hk : k = a
    · simp [hk]
    · simp [hk, Ne.symm hk]

/-- The first entry inserted for a key wins, unless the map had one before. -/
theorem getElem?_foldl_insertIfNew [DecidableEq κ] (entries : List (κ × α))
    (m : Std.ExtTreeMap κ α) (a : κ) :
    (entries.foldl (fun m e => m.insertIfNew e.1 e.2) m)[a]? =
      m[a]?.or ((entries.find? fun e => decide (e.1 = a)).map Prod.snd) := by
  induction entries generalizing m with
  | nil => simp
  | cons e entries ih =>
    rw [List.foldl_cons, ih, Std.ExtTreeMap.getElem?_insertIfNew]
    by_cases he : e.1 = a
    · by_cases hm : a ∈ m <;> simp [he, hm]
    · simp [he]

/-- A loop that inserts the entries of a map into an empty one copies the map. -/
theorem foldl_insertIfNew_toList [DecidableEq κ] (m : Std.ExtTreeMap κ α) :
    m.toList.foldl (fun m e => m.insertIfNew e.1 e.2) ∅ = m := by
  refine Std.ExtTreeMap.ext_getElem? fun k => ?_
  rw [getElem?_foldl_insertIfNew, Std.ExtTreeMap.getElem?_empty, Option.none_or]
  cases hfind : m.toList.find? fun e => decide (e.1 = k) with
  | none =>
    cases hk : m[k]? with
    | none => rfl
    | some a =>
      have hmem := Std.ExtTreeMap.mem_toList_iff_getElem?_eq_some.mpr hk
      exact absurd (List.find?_eq_none.mp hfind _ hmem) (by simp)
  | some e =>
    obtain rfl : e.1 = k := by simpa using List.find?_some hfind
    exact (Std.ExtTreeMap.mem_toList_iff_getElem?_eq_some.mp (List.mem_of_find?_eq_some hfind)).symm

/-! ## One element for each key -/

/-- The list has one element for each key that is present, in ascending order of the keys. -/
def OnePer {β : Type} [LT κ] (present : κ → Prop) (R : κ → β → Prop) (l : List β) : Prop :=
  ∃ keys : List κ, keys.Pairwise (· < ·) ∧ (∀ k, k ∈ keys ↔ present k) ∧ List.Forall₂ R keys l

/-- A list that was made by iterating over a map. -/
theorem onePer_of_toList {β : Type} [LT κ] [LE κ] [Std.LawfulOrderOrd κ] [Std.LawfulOrderLT κ]
    {present : κ → Prop} {R : κ → β → Prop} {m : Std.ExtTreeMap κ α} {l : List β}
    (hpresent : ∀ k, k ∈ m ↔ present k)
    (h : List.Forall₂ (fun e b => R e.1 b) m.toList l) : OnePer present R l := by
  refine ⟨m.keys, ?_, fun k => ?_, ?_⟩
  · exact Std.ExtTreeMap.ordered_keys.imp fun h => Std.compare_eq_lt.mp h
  · rw [Std.ExtTreeMap.mem_keys, hpresent]
  · rw [← Std.ExtTreeMap.map_fst_toList_eq_keys]
    exact List.forall₂_map_left_iff.mpr h

/-! ## Sets of shared objects -/

/-- A set of pointers to objects of type `α`, ordered by address. -/
abbrev SharedSet (α : Type) := Std.ExtTreeMap ℕ α

/-- The objects of `s` that satisfy `p`, inserted one by one into an empty set. -/
def select (p : α → Bool) (s : SharedSet α) : SharedSet α :=
  s.toList.foldl (fun t e => if p e.2 then t.insertIfNew e.1 e.2 else t) ∅

theorem mem_toList_iff {s : SharedSet α} {x : ℕ} {a : α} : (x, a) ∈ s.toList ↔ s[x]? = some a :=
  Std.ExtTreeMap.mem_toList_iff_getElem?_eq_some

/-- No two entries of the iteration have the same address. -/
theorem nodup_addresses (s : SharedSet α) : (s.toList.map Prod.fst).Nodup := by
  have h : s.toList.Pairwise fun a b => ¬ compare a.1 b.1 = .eq :=
    Std.ExtTreeMap.distinct_keys_toList
  rw [List.Nodup, List.pairwise_map]
  exact h.imp fun hne heq => hne (by simp [heq])

private theorem getElem?_foldl_select (p : α → Bool) (entries : List (ℕ × α)) (t : SharedSet α)
    (hdisj : ∀ e ∈ entries, t[e.1]? = none) (hnodup : (entries.map Prod.fst).Nodup) (x : ℕ)
    (a : α) :
    (entries.foldl (fun t e => if p e.2 then t.insertIfNew e.1 e.2 else t) t)[x]? = some a ↔
      t[x]? = some a ∨ ((x, a) ∈ entries ∧ p a = true) := by
  induction entries generalizing t with
  | nil => simp
  | cons e entries ih =>
    obtain ⟨y, b⟩ := e
    simp only [List.map_cons, List.nodup_cons] at hnodup
    have hy : t[y]? = none := hdisj (y, b) (by simp)
    have hmem : y ∉ t := by simp [Std.ExtTreeMap.mem_iff_isSome_getElem?, hy]
    have hkeys : ∀ c, (y, c) ∉ entries := fun c hc =>
      hnodup.1 (List.mem_map.mpr ⟨(y, c), hc, rfl⟩)
    rw [List.foldl_cons, ih _ _ hnodup.2]
    · by_cases hp : p b = true
      · simp only [hp, if_true, Std.ExtTreeMap.getElem?_insertIfNew, List.mem_cons, Prod.mk.injEq]
        by_cases hxy : y = x
        · subst hxy
          simp only [Std.ReflCmp.compare_self, hmem, not_false_eq_true, and_self, if_true,
            Option.some.injEq, hkeys, false_and, or_false, hy, reduceCtorEq, false_or, true_and]
          constructor
          · rintro rfl; exact ⟨rfl, hp⟩
          · rintro ⟨rfl, _⟩; rfl
        · simp [hxy, Ne.symm hxy]
      · simp only [hp, Bool.false_eq_true, if_false, List.mem_cons, Prod.mk.injEq]
        constructor
        · rintro (h | ⟨h, hpa⟩)
          · exact .inl h
          · exact .inr ⟨.inr h, hpa⟩
        · rintro (h | ⟨⟨rfl, rfl⟩ | h, hpa⟩)
          · exact .inl h
          · exact absurd hpa hp
          · exact .inr ⟨h, hpa⟩
    · intro e he
      have hne : y ≠ e.1 := fun h => hkeys e.2 (by rw [h]; exact he)
      have hte := hdisj e (by simp [he])
      by_cases hp : p b = true
      · simp [hp, Std.ExtTreeMap.getElem?_insertIfNew, hne, hte]
      · simpa [hp] using hte

@[simp] theorem getElem?_select {p : α → Bool} {s : SharedSet α} {x : ℕ} {a : α} :
    (select p s)[x]? = some a ↔ s[x]? = some a ∧ p a = true := by
  rw [select, getElem?_foldl_select p s.toList ∅ (by simp) (nodup_addresses s)]
  simp

/-- The address of a new object: any address the allocator wants that no live object has. -/
def freshAddr (want : ℕ) (live : List ℕ) : ℕ :=
  if want ∈ live then live.foldr max 0 + 1 else want

theorem le_foldr_max {live : List ℕ} {a : ℕ} (h : a ∈ live) : a ≤ live.foldr max 0 := by
  induction live with
  | nil => simp at h
  | cons b live ih =>
    rcases List.mem_cons.mp h with rfl | h
    · exact le_max_left _ _
    · exact (ih h).trans (le_max_right _ _)

theorem freshAddr_notMem (want : ℕ) (live : List ℕ) : freshAddr want live ∉ live := by
  unfold freshAddr
  split
  · intro h
    have := le_foldr_max h
    omega
  · assumption

end FlexRan.Lib
