import Mathlib

/-!
# Lists of keyed entries

A table kept as a list of entries, each with a key.  An update looks for the first entry with its
key and is merged into it in place; an update whose key is not there has no effect.  Where keys
are unique, a batch of updates acts entry by entry: what becomes of an entry depends on the updates
with its key only, so that updates with different keys may come in any order.

## Main definitions

* `mergeFirst key key' merge l u`: merge an update into the first entry with its key.
* `foldl_mergeFirst`: a batch of updates, entry by entry.
* `foldl_mergeFirst_perm`: the order of updates with different keys does not matter.
* `eraseP_clean_iff`: when removing the first match removes all.
-/
namespace FlexRan.Lib

section Merge

variable {α β κ : Type*} [DecidableEq κ]

/-- Merge the update into the first entry with its key. -/
def mergeFirst (key : α → κ) (key' : β → κ) (merge : α → β → α) (l : List α) (u : β) : List α :=
  match l.findIdx? fun a => key a == key' u with
  | none => l
  | some i => l.modify i fun a => merge a u

variable {key : α → κ} {key' : β → κ} {merge : α → β → α}

@[simp] theorem mergeFirst_nil (u : β) : mergeFirst key key' merge [] u = [] := rfl

theorem mergeFirst_cons_of_eq {a : α} {u : β} (h : key a = key' u) (l : List α) :
    mergeFirst key key' merge (a :: l) u = merge a u :: l := by
  simp [mergeFirst, List.findIdx?_cons, h]

theorem mergeFirst_cons_of_ne {a : α} {u : β} (h : key a ≠ key' u) (l : List α) :
    mergeFirst key key' merge (a :: l) u = a :: mergeFirst key key' merge l u := by
  have hne : (key a == key' u) = false := beq_false_of_ne h
  rw [mergeFirst, mergeFirst, List.findIdx?_cons, hne]
  cases l.findIdx? fun a => key a == key' u <;> rfl

/-- Where keys are unique, the first entry with a key is the only one. -/
theorem mergeFirst_eq_map {l : List α} (hl : (l.map key).Nodup) (u : β) :
    mergeFirst key key' merge l u = l.map fun a => if key a = key' u then merge a u else a := by
  induction l with
  | nil => rfl
  | cons a l ih =>
    rw [List.map_cons, List.nodup_cons] at hl
    rw [List.map_cons, ← ih hl.2]
    by_cases h : key a = key' u
    · -- the entries behind have other keys
      have hrest : mergeFirst key key' merge l u = l := by
        rw [ih hl.2]
        conv_rhs => rw [← List.map_id l]
        refine List.map_congr_left fun b hb => if_neg fun hkey => hl.1 ?_
        exact List.mem_map.mpr ⟨b, hb, hkey.trans h.symm⟩
      rw [mergeFirst_cons_of_eq h, if_pos h, hrest]
    · rw [mergeFirst_cons_of_ne h, if_neg h]

/-- The first entry with a key is found by it again, with the update. -/
theorem find?_mergeFirst (hkeeps : ∀ a u, key a = key' u → key (merge a u) = key a)
    {l : List α} {u : β} {a : α} (h : l.find? (fun a => key a == key' u) = some a) :
    (mergeFirst key key' merge l u).find? (fun a => key a == key' u) = some (merge a u) := by
  induction l with
  | nil => exact absurd h (by simp)
  | cons b l ih =>
    by_cases hb : key b = key' u
    · rw [List.find?_cons_of_pos (by simpa using hb)] at h
      obtain rfl := Option.some.inj h
      rw [mergeFirst_cons_of_eq hb, List.find?_cons_of_pos (by simp [hkeeps b u hb, hb])]
    · rw [List.find?_cons_of_neg (by simpa using hb)] at h
      rw [mergeFirst_cons_of_ne hb, List.find?_cons_of_neg (by simpa using hb), ih h]

/-- Merging keeps the keys. -/
theorem map_key_mergeFirst (hkeeps : ∀ a u, key a = key' u → key (merge a u) = key a)
    (l : List α) (u : β) : (mergeFirst key key' merge l u).map key = l.map key := by
  induction l with
  | nil => rfl
  | cons a l ih =>
    by_cases h : key a = key' u
    · rw [mergeFirst_cons_of_eq h, List.map_cons, List.map_cons, hkeeps a u h]
    · rw [mergeFirst_cons_of_ne h, List.map_cons, List.map_cons, ih]

theorem map_key_foldl_mergeFirst (hkeeps : ∀ a u, key a = key' u → key (merge a u) = key a)
    (us : List β) (l : List α) :
    (us.foldl (mergeFirst key key' merge) l).map key = l.map key := by
  induction us generalizing l with
  | nil => rfl
  | cons u us ih => rw [List.foldl_cons, ih, map_key_mergeFirst hkeeps]

/-- A batch of updates: each entry is merged with the updates with its key, in their order. -/
theorem foldl_mergeFirst (hkeeps : ∀ a u, key a = key' u → key (merge a u) = key a)
    (us : List β) {l : List α} (hl : (l.map key).Nodup) :
    us.foldl (mergeFirst key key' merge) l =
      l.map fun a => (us.filter fun u => key' u = key a).foldl merge a := by
  induction us generalizing l with
  | nil => simp
  | cons u us ih =>
    rw [List.foldl_cons, ih ((map_key_mergeFirst hkeeps l u).symm ▸ hl), mergeFirst_eq_map hl,
      List.map_map]
    refine List.map_congr_left fun a _ => ?_
    rw [Function.comp_apply]
    by_cases h : key a = key' u
    · rw [if_pos h, hkeeps a u h, List.filter_cons_of_pos (by simp [h]), List.foldl_cons]
    · rw [if_neg h, List.filter_cons_of_neg (by simpa [eq_comm] using h)]

/-- At most one of the updates has a key. -/
theorem filter_key_eq {us : List β} (hus : (us.map key').Nodup) (k : κ) :
    (us.filter fun u => key' u = k) = (us.find? fun u => key' u = k).toList := by
  induction us with
  | nil => rfl
  | cons u us ih =>
    rw [List.map_cons, List.nodup_cons] at hus
    by_cases h : key' u = k
    · have hrest : (us.filter fun u => key' u = k) = [] := by
        rw [List.filter_eq_nil_iff]
        intro v hv hkey
        exact hus.1 (List.mem_map.mpr ⟨v, hv, (of_decide_eq_true hkey).trans h.symm⟩)
      rw [List.filter_cons_of_pos (by simpa using h), List.find?_cons_of_pos (by simpa using h),
        hrest]
      rfl
    · rw [List.filter_cons_of_neg (by simpa using h), List.find?_cons_of_neg (by simpa using h),
        ih hus.2]

theorem find?_key_iff {us : List β} (hus : (us.map key').Nodup) {k : κ} {u : β} :
    us.find? (fun u => key' u = k) = some u ↔ u ∈ us ∧ key' u = k := by
  have hmem : us.find? (fun u => key' u = k) = some u ↔ u ∈ us.filter fun u => key' u = k := by
    rw [filter_key_eq hus, Option.mem_toList]
  rw [hmem, List.mem_filter, decide_eq_true_iff]

/-- An update is found by its key in any order. -/
theorem find?_key_perm {us us' : List β} (hperm : us.Perm us') (hus : (us.map key').Nodup)
    (k : κ) : us.find? (fun u => key' u = k) = us'.find? fun u => key' u = k := by
  have hus' := (hperm.map key').nodup_iff.mp hus
  ext u
  rw [find?_key_iff hus, find?_key_iff hus', hperm.mem_iff]

/-- With different keys, an entry is merged with the update with its key, if there is one. -/
theorem foldl_mergeFirst_eq_map (hkeeps : ∀ a u, key a = key' u → key (merge a u) = key a)
    {us : List β} (hus : (us.map key').Nodup) {l : List α} (hl : (l.map key).Nodup) :
    us.foldl (mergeFirst key key' merge) l =
      l.map fun a => (us.find? fun u => key' u = key a).elim a (merge a) := by
  rw [foldl_mergeFirst hkeeps us hl]
  refine List.map_congr_left fun a _ => ?_
  rw [filter_key_eq hus]
  cases us.find? fun u => key' u = key a <;> rfl

/-- The order of updates with different keys does not matter. -/
theorem foldl_mergeFirst_perm (hkeeps : ∀ a u, key a = key' u → key (merge a u) = key a)
    {us us' : List β} (hperm : us.Perm us') (hus : (us.map key').Nodup) {l : List α}
    (hl : (l.map key).Nodup) :
    us.foldl (mergeFirst key key' merge) l = us'.foldl (mergeFirst key key' merge) l := by
  have hus' := (hperm.map key').nodup_iff.mp hus
  rw [foldl_mergeFirst_eq_map hkeeps hus hl, foldl_mergeFirst_eq_map hkeeps hus' hl]
  refine List.map_congr_left fun a _ => ?_
  rw [find?_key_perm hperm hus]

/-- The same updates again change nothing exactly if no merge changes anything again. -/
theorem foldl_mergeFirst_twice_iff (hkeeps : ∀ a u, key a = key' u → key (merge a u) = key a)
    {us : List β} (hus : (us.map key').Nodup) {l : List α} (hl : (l.map key).Nodup) :
    us.foldl (mergeFirst key key' merge) (us.foldl (mergeFirst key key' merge) l) =
        us.foldl (mergeFirst key key' merge) l ↔
      ∀ a ∈ l, ∀ u ∈ us, key' u = key a → merge (merge a u) u = merge a u := by
  have hl' := (map_key_foldl_mergeFirst hkeeps us l).symm ▸ hl
  rw [foldl_mergeFirst_eq_map hkeeps hus hl', foldl_mergeFirst_eq_map hkeeps hus hl, List.map_map,
    List.map_inj_left]
  refine forall₂_congr fun a _ => ?_
  rw [Function.comp_apply]
  cases hfind : us.find? fun u => key' u = key a with
  | none =>
    rw [Option.elim_none, hfind, Option.elim_none]
    refine iff_of_true rfl fun u hu hkey => ?_
    exact absurd (decide_eq_true hkey) (List.find?_eq_none.mp hfind u hu)
  | some u =>
    obtain ⟨hu, hkey⟩ := (find?_key_iff hus).mp hfind
    rw [Option.elim_some, hkeeps a u hkey.symm, hfind, Option.elim_some]
    refine ⟨fun h v hv hkey' => ?_, fun h => h u hu hkey⟩
    obtain rfl := List.inj_on_of_nodup_map hus hu hv (hkey.trans hkey'.symm)
    exact h

end Merge

/-! ## Counting keys -/

section Count

variable {α β κ : Type*} [DecidableEq κ] {key : α → κ} {key' : β → κ}

/-- Where keys are unique, what is made of the entries that are kept has the key of an entry once
if this entry is kept. -/
theorem countP_filterMap_key {l : List α} (hl : (l.map key).Nodup) {f : α → Option β}
    (hf : ∀ a b, f a = some b → key' b = key a) {a : α} (ha : a ∈ l) :
    (l.filterMap f).countP (fun b => key' b = key a) = if (f a).isSome then 1 else 0 := by
  induction l with
  | nil => exact absurd ha List.not_mem_nil
  | cons c l ih =>
    rw [List.map_cons, List.nodup_cons] at hl
    rcases List.mem_cons.mp ha with rfl | hmem
    · -- the entries behind have other keys
      have hrest : (l.filterMap f).countP (fun b => key' b = key a) = 0 := by
        rw [List.countP_eq_zero]
        intro b hb hkey
        obtain ⟨c, hc, hfc⟩ := List.mem_filterMap.mp hb
        refine hl.1 (List.mem_map.mpr ⟨c, hc, ?_⟩)
        rw [← hf c b hfc, of_decide_eq_true hkey]
      cases hfa : f a with
      | none => rw [List.filterMap_cons_none hfa, hrest, Option.isSome_none, if_neg (by simp)]
      | some b =>
        rw [List.filterMap_cons_some hfa, List.countP_cons_of_pos (by simp [hf a b hfa]), hrest,
          Option.isSome_some, if_pos rfl]
    · have hne : key c ≠ key a := by
        intro heq
        exact hl.1 (heq ▸ List.mem_map_of_mem hmem)
      cases hfc : f c with
      | none => rw [List.filterMap_cons_none hfc, ih hl.2 hmem]
      | some b =>
        rw [List.filterMap_cons_some hfc, List.countP_cons_of_neg (by simp [hf c b hfc, hne]),
          ih hl.2 hmem]

/-- The same for several rounds over the entries. -/
theorem countP_flatMap_filterMap_key {ι : Type*} {l : List α} (hl : (l.map key).Nodup)
    {f : ι → α → Option β} (hf : ∀ i a b, f i a = some b → key' b = key a) {a : α} (ha : a ∈ l)
    (is : List ι) :
    (is.flatMap fun i => l.filterMap (f i)).countP (fun b => key' b = key a) =
      is.countP fun i => (f i a).isSome := by
  induction is with
  | nil => rfl
  | cons i is ih =>
    rw [List.flatMap_cons, List.countP_append, ih, countP_filterMap_key hl (hf i) ha,
      List.countP_cons, Nat.add_comm]

end Count

/-! ## Removing the first match -/

section Erase

variable {α : Type*} {p : α → Bool}

/-- Removing the first match leaves the entries that do not match, in their order. -/
theorem filter_not_eraseP (l : List α) :
    (l.eraseP p).filter (fun a => !p a) = l.filter fun a => !p a := by
  induction l with
  | nil => rfl
  | cons a l ih =>
    by_cases h : p a
    · rw [List.eraseP_cons_of_pos h, List.filter_cons_of_neg (by simp [h])]
    · rw [List.eraseP_cons_of_neg h, List.filter_cons_of_pos (by simp [h]),
        List.filter_cons_of_pos (by simp [h]), ih]

/-- No match is left exactly if there was at most one. -/
theorem eraseP_clean_iff (l : List α) : (∀ a ∈ l.eraseP p, ¬ p a) ↔ l.countP p ≤ 1 := by
  induction l with
  | nil => simp
  | cons a l ih =>
    by_cases h : p a
    · rw [List.eraseP_cons_of_pos h, List.countP_cons_of_pos h, ← Nat.lt_iff_add_one_le,
        Nat.lt_one_iff, List.countP_eq_zero]
    · rw [List.eraseP_cons_of_neg h, List.countP_cons_of_neg h, List.forall_mem_cons, ih]
      exact and_iff_right h

end Erase
end FlexRan.Lib
