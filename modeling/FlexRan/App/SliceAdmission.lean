import FlexRan.Fault
import FlexRan.Lib.Run
import FlexRan.Protocol.Config

/-!
# Admission of static slices

A static slice owns the resource block groups (RBGs) of a range.  A request lists slices to add
or to change; a slice that exists keeps the fields the request does not set.  The check marks
the RBGs of the request and those of the existing slices the request does not mention, and
refuses a request that marks an RBG twice.

## Main definitions

* `verifyStaticSliceConfiguration`: the check.
* `updateSlice`, `applySlices`: the slices after a request.
* `IsLoose`: an existing slice that the request lists without both bounds.
-/
namespace FlexRan.App

open Protocol

/-- The number of RBGs the check has room for. -/
def numRbg : ℕ := 110

/-- `id()`; an unset field reads as 0. -/
def sliceId (s : FlexSlice) : UInt32 := s.id.getD 0

def posLow (s : FlexSlice) : UInt32 := (s.static.bind FlexSliceStatic.posLow).getD 0

def posHigh (s : FlexSlice) : UInt32 := (s.static.bind FlexSliceStatic.posHigh).getD 0

/-- Whether the slices have one with this id. -/
def hasId (slices : List FlexSlice) (id : UInt32) : Bool := slices.any fun s => sliceId s == id

/-- The loop over `n` RBGs from `i` on; `what` says whose they are. -/
def markRbgs (what : String) : ℕ → ℕ → Finset ℕ → Except Abort (Finset ℕ)
  | 0, _, rbg => .ok rbg
  | n + 1, i, rbg =>
    if i ≥ numRbg then .error (.fault .outOfBounds)
    else if i ∈ rbg then
      .error (.invalidArgument ("overlapping slices at RBG " ++ toString i ++ " for " ++ what))
    else markRbgs what n (i + 1) (insert i rbg)

/-- Mark the RBGs of a slice; unset bounds read as 0. -/
def markSlice (kind : String) (rbg : Finset ℕ) (s : FlexSlice) : Except Abort (Finset ℕ) :=
  markRbgs (kind ++ toString (sliceId s)) ((posHigh s).toNat + 1 - (posLow s).toNat)
    (posLow s).toNat rbg

/-- A slice of the request has an id and parameters. -/
def hasParameters (s : FlexSlice) : Bool :=
  s.id.isSome && (s.label.isSome || s.scheduler.isSome || s.static.isSome)

/-- A slice has both bounds. -/
def isComplete (s : FlexSlice) : Bool :=
  (s.static.bind FlexSliceStatic.posLow).isSome && (s.static.bind FlexSliceStatic.posHigh).isSome

/-- The two loops: the slices of the request, then the existing slices it does not list. -/
def markSlices (nc exist : FlexSliceDlUlConfig) : Except Abort Unit := do
  let rbg ← (nc.slices.filter fun s => s.static.isSome).foldlM (markSlice "slice ") ∅
  let _ ← (exist.slices.filter fun s => !hasId nc.slices (sliceId s)).foldlM
    (markSlice "existing slice ") rbg

def verifyStaticSliceConfiguration (nc exist : FlexSliceDlUlConfig) : Except Abort Unit :=
  if nc.scheduler.isSome then .error (.invalidArgument "cannot have a single scheduler")
  else if !nc.slices.all hasParameters then
    .error (.invalidArgument "all slices need to have an ID and parameters")
  else if !nc.slices.all fun s => hasId exist.slices (sliceId s) || isComplete s then
    .error (.invalidArgument "all new slices need to have complete parameters")
  else markSlices nc exist

/-! ## What the check accepts -/

section Check

variable {what kind : String} {n i : ℕ} {rbg rbg' : Finset ℕ} {s : FlexSlice} {e : Abort}

/-- The RBGs of a slice. -/
def rbgs (s : FlexSlice) : Finset ℕ := Finset.Ico (posLow s).toNat ((posHigh s).toNat + 1)

theorem markRbgs_ok (h : markRbgs what n i rbg = .ok rbg') :
    Disjoint (Finset.Ico i (i + n)) rbg ∧ rbg' = Finset.Ico i (i + n) ∪ rbg := by
  induction n generalizing i rbg with
  | zero =>
    obtain rfl := Except.ok.inj h
    simp
  | succ n ih =>
    rw [markRbgs] at h
    split_ifs at h with hbound hmem
    obtain ⟨hdisjoint, rfl⟩ := ih h
    have hsplit : Finset.Ico i (i + (n + 1)) = insert i (Finset.Ico (i + 1) (i + 1 + n)) := by
      ext j
      simp only [Finset.mem_Ico, Finset.mem_insert]
      omega
    rw [hsplit]
    refine ⟨Finset.disjoint_insert_left.mpr ⟨hmem, ?_⟩, ?_⟩
    · exact hdisjoint.mono_right (Finset.subset_insert i rbg)
    · rw [Finset.union_insert, Finset.insert_union]

theorem markRbgs_error (h : markRbgs what n i rbg = .error e) : e ≠ .missingCell := by
  induction n generalizing i rbg with
  | zero => exact nomatch h
  | succ n ih =>
    rw [markRbgs] at h
    split_ifs at h
    · rw [← Except.error.inj h]
      simp
    · rw [← Except.error.inj h]
      simp
    · exact ih h

theorem markSlice_ok (h : markSlice kind rbg s = .ok rbg') :
    Disjoint (rbgs s) rbg ∧ rbg' = rbgs s ∪ rbg := by
  have hrange : Finset.Ico (posLow s).toNat
      ((posLow s).toNat + ((posHigh s).toNat + 1 - (posLow s).toNat)) = rbgs s := by
    ext j
    simp only [rbgs, Finset.mem_Ico]
    omega
  rw [← hrange]
  exact markRbgs_ok h

/-- A list of slices that is marked without a conflict. -/
theorem foldlM_markSlice_ok {l : List FlexSlice} (h : l.foldlM (markSlice kind) rbg = .ok rbg') :
    (l.map rbgs).Pairwise Disjoint ∧ (∀ s ∈ l, Disjoint (rbgs s) rbg) ∧ rbg ⊆ rbg' ∧
      ∀ s ∈ l, rbgs s ⊆ rbg' := by
  induction l generalizing rbg with
  | nil =>
    obtain rfl := Except.ok.inj h
    simp
  | cons s l ih =>
    rw [List.foldlM_cons] at h
    obtain ⟨marked, hmark, hrest⟩ := Lib.bind_eq_ok_iff.mp h
    obtain ⟨hdisjoint, rfl⟩ := markSlice_ok hmark
    obtain ⟨hpairwise, hmarked, hsubset, hown⟩ := ih hrest
    rw [Finset.union_subset_iff] at hsubset
    refine ⟨?_, ?_, hsubset.2, ?_⟩
    · rw [List.map_cons, List.pairwise_cons]
      refine ⟨fun t ht => ?_, hpairwise⟩
      obtain ⟨t', ht', rfl⟩ := List.mem_map.mp ht
      exact (Finset.disjoint_union_right.mp (hmarked t' ht')).1.symm
    · intro t ht
      rcases List.mem_cons.mp ht with rfl | ht
      · exact hdisjoint
      · exact (Finset.disjoint_union_right.mp (hmarked t ht)).2
    · intro t ht
      rcases List.mem_cons.mp ht with rfl | ht
      · exact hsubset.1
      · exact hown t ht

theorem foldlM_markSlice_error {l : List FlexSlice}
    (h : l.foldlM (markSlice kind) rbg = .error e) : e ≠ .missingCell := by
  induction l generalizing rbg with
  | nil => exact nomatch h
  | cons s l ih =>
    rw [List.foldlM_cons] at h
    cases hmark : markSlice kind rbg s with
    | error e' =>
      rw [hmark] at h
      rw [← Except.error.inj h]
      exact markRbgs_error hmark
    | ok marked =>
      rw [hmark] at h
      exact ih h

variable {nc exist : FlexSliceDlUlConfig}

/-- What the check has established where it returns. -/
structure Verified (nc exist : FlexSliceDlUlConfig) : Prop where
  /-- A slice that does not exist has both bounds. -/
  complete : ∀ s ∈ nc.slices, hasId exist.slices (sliceId s) = false → isComplete s
  /-- The ranges the request sets do not overlap. -/
  requested : ((nc.slices.filter fun s => s.static.isSome).map rbgs).Pairwise Disjoint
  /-- None of them overlaps a slice the request does not list. -/
  unlisted : ∀ s ∈ nc.slices, s.static.isSome → ∀ t ∈ exist.slices,
    hasId nc.slices (sliceId t) = false → Disjoint (rbgs s) (rbgs t)

theorem markSlices_ok (h : markSlices nc exist = .ok ()) :
    ((nc.slices.filter fun s => s.static.isSome).map rbgs).Pairwise Disjoint ∧
      ∀ s ∈ nc.slices, s.static.isSome → ∀ t ∈ exist.slices,
        hasId nc.slices (sliceId t) = false → Disjoint (rbgs s) (rbgs t) := by
  obtain ⟨rbg, hnew, hrest⟩ := Lib.bind_eq_ok_iff.mp h
  obtain ⟨rbg', hold, -⟩ := Lib.bind_eq_ok_iff.mp hrest
  obtain ⟨hpairwise, -, -, hmarked⟩ := foldlM_markSlice_ok hnew
  obtain ⟨-, hdisjoint, -, -⟩ := foldlM_markSlice_ok hold
  refine ⟨hpairwise, fun s hs hstatic t ht hlisted => ?_⟩
  have hsub : rbgs s ⊆ rbg := hmarked s (List.mem_filter.mpr ⟨hs, hstatic⟩)
  have hfree : Disjoint (rbgs t) rbg := hdisjoint t (List.mem_filter.mpr ⟨ht, by simp [hlisted]⟩)
  exact (hfree.mono_right hsub).symm

theorem markSlices_error (h : markSlices nc exist = .error e) : e ≠ .missingCell := by
  rw [markSlices] at h
  cases hnew : (nc.slices.filter fun s => s.static.isSome).foldlM (markSlice "slice ") ∅ with
  | error e' =>
    rw [hnew] at h
    exact Except.error.inj h ▸ foldlM_markSlice_error hnew
  | ok rbg =>
    rw [hnew] at h
    cases hold : (exist.slices.filter fun s => !hasId nc.slices (sliceId s)).foldlM
        (markSlice "existing slice ") rbg with
    | error e' =>
      simp only [bind, Except.bind, hold] at h
      exact Except.error.inj h ▸ foldlM_markSlice_error hold
    | ok rbg' =>
      simp only [bind, Except.bind, hold] at h
      exact nomatch h

theorem verified_of_ok (h : verifyStaticSliceConfiguration nc exist = .ok ()) :
    Verified nc exist := by
  rw [verifyStaticSliceConfiguration] at h
  split_ifs at h with hscheduler hparameters hcomplete
  obtain ⟨hrequested, hunlisted⟩ := markSlices_ok h
  refine ⟨fun s hs hnew => ?_, hrequested, hunlisted⟩
  simp only [Bool.not_eq_true', Bool.not_eq_false, List.all_eq_true, Bool.or_eq_true] at hcomplete
  rcases hcomplete s hs with hold | hboth
  · exact absurd (hnew.symm.trans hold) (by simp)
  · exact hboth

theorem verifyStaticSliceConfiguration_error
    (h : verifyStaticSliceConfiguration nc exist = .error e) : e ≠ .missingCell := by
  rw [verifyStaticSliceConfiguration] at h
  split_ifs at h
  · exact Except.error.inj h ▸ by simp
  · exact Except.error.inj h ▸ by simp
  · exact Except.error.inj h ▸ by simp
  · exact markSlices_error h

end Check

/-! ## The slices after a request -/

/-- The existing slice with the fields the request sets. -/
def overrideSlice (e s : FlexSlice) : FlexSlice where
  id := e.id
  label := s.label.or e.label
  scheduler := s.scheduler.or e.scheduler
  static := match s.static with
    | none => e.static
    | some p => some
      { posLow := p.posLow.or (e.static.bind FlexSliceStatic.posLow)
        posHigh := p.posHigh.or (e.static.bind FlexSliceStatic.posHigh) }

/-- An existing slice after all entries of the request with its id. -/
def updateSlice (nc : List FlexSlice) (e : FlexSlice) : FlexSlice :=
  nc.foldl (fun e s => if sliceId s = sliceId e then overrideSlice e s else e) e

/-- Slices of the request with an id that exists change the slice, the others are added. -/
def applySlices (nc exist : List FlexSlice) : List FlexSlice :=
  exist.map (updateSlice nc) ++ nc.filter fun s => !hasId exist (sliceId s)

/-- The RBG ranges do not overlap. -/
def RangesDisjoint (slices : List FlexSlice) : Prop := (slices.map rbgs).Pairwise Disjoint

instance (slices : List FlexSlice) : Decidable (RangesDisjoint slices) :=
  inferInstanceAs (Decidable (List.Pairwise _ _))

/-- An existing slice that an entry of the request changes without giving both bounds, or that
shares its id with another one. -/
def IsLoose (nc exist : List FlexSlice) (e : FlexSlice) : Prop :=
  ∃ s ∈ nc, sliceId s = sliceId e ∧
    (isComplete s = false ∨ 1 < exist.countP fun x => sliceId x == sliceId e)

instance (nc exist : List FlexSlice) (e : FlexSlice) : Decidable (IsLoose nc exist e) :=
  inferInstanceAs (Decidable (∃ s ∈ nc, _))

/-- The range a loose slice gets, with the bounds it sets and the old value of the others, does
not overlap the range of another slice. -/
structure LooseApart (nc exist : List FlexSlice) : Prop where
  existing : exist.Pairwise fun a b => IsLoose nc exist a ∨ IsLoose nc exist b →
    Disjoint (rbgs (updateSlice nc a)) (rbgs (updateSlice nc b))
  added : ∀ a ∈ exist, IsLoose nc exist a → ∀ s ∈ nc, hasId exist (sliceId s) = false →
    Disjoint (rbgs (updateSlice nc a)) (rbgs s)

section Soundness

variable {nc exist : FlexSliceDlUlConfig} {slices : List FlexSlice} {a b e s : FlexSlice}

theorem hasId_eq_false_iff {id : UInt32} :
    hasId slices id = false ↔ ∀ s ∈ slices, sliceId s ≠ id := by
  simp [hasId, List.any_eq_false]

theorem static_isSome_of_isComplete (h : isComplete s) : s.static.isSome := by
  rw [isComplete, Bool.and_eq_true] at h
  cases hs : s.static with
  | none => simp [hs] at h
  | some p => rfl

theorem rbgs_overrideSlice (h : isComplete s) : rbgs (overrideSlice e s) = rbgs s := by
  obtain ⟨p, hp⟩ := Option.isSome_iff_exists.mp (static_isSome_of_isComplete h)
  rw [isComplete, hp, Option.bind_some, Option.bind_some, Bool.and_eq_true] at h
  obtain ⟨low, hlow⟩ := Option.isSome_iff_exists.mp h.1
  obtain ⟨high, hhigh⟩ := Option.isSome_iff_exists.mp h.2
  simp [rbgs, posLow, posHigh, overrideSlice, hp, hlow, hhigh]

theorem updateSlice_append (l : List FlexSlice) (s e : FlexSlice) : updateSlice (l ++ [s]) e =
    if sliceId s = sliceId (updateSlice l e) then overrideSlice (updateSlice l e) s
    else updateSlice l e := by
  rw [updateSlice, List.foldl_append]
  rfl

theorem sliceId_updateSlice (l : List FlexSlice) (e : FlexSlice) :
    sliceId (updateSlice l e) = sliceId e := by
  induction l using List.reverseRecOn with
  | nil => rfl
  | append_singleton l s ih =>
    rw [updateSlice_append]
    split_ifs
    · exact ih
    · exact ih

theorem updateSlice_unlisted (h : hasId slices (sliceId e) = false) : updateSlice slices e = e := by
  rw [hasId_eq_false_iff] at h
  induction slices using List.reverseRecOn with
  | nil => rfl
  | append_singleton l s ih =>
    rw [updateSlice_append, ih fun t ht => h t (List.mem_append_left _ ht), if_neg (h s (by simp))]

/-- A slice that is listed with both bounds only has the range of one of its entries. -/
theorem exists_rbgs_updateSlice (hlisted : hasId slices (sliceId e) = true)
    (hcomplete : ∀ s ∈ slices, sliceId s = sliceId e → isComplete s) :
    ∃ s ∈ slices, sliceId s = sliceId e ∧ isComplete s ∧
      rbgs (updateSlice slices e) = rbgs s := by
  induction slices using List.reverseRecOn with
  | nil => exact absurd hlisted (by simp [hasId])
  | append_singleton l s ih =>
    rw [updateSlice_append, sliceId_updateSlice]
    by_cases hs : sliceId s = sliceId e
    · have hboth : isComplete s := hcomplete s (by simp) hs
      refine ⟨s, by simp, hs, hboth, ?_⟩
      rw [if_pos hs, rbgs_overrideSlice hboth]
    · have hlisted' : hasId l (sliceId e) = true := by simpa [hasId, hs] using hlisted
      obtain ⟨t, ht, hid, hboth, heq⟩ :=
        ih hlisted' fun t ht => hcomplete t (List.mem_append_left _ ht)
      exact ⟨t, List.mem_append_left _ ht, hid, hboth, by rw [if_neg hs, heq]⟩

/-- What the check has marked for a slice that is not loose: its own range, or the range of an
entry with its id, which no other existing slice has. -/
theorem marked_of_not_loose (h : ¬ IsLoose nc.slices exist.slices e) :
    (hasId nc.slices (sliceId e) = false ∧ updateSlice nc.slices e = e) ∨
      ((exist.slices.countP fun x => sliceId x == sliceId e) ≤ 1 ∧
        ∃ s ∈ nc.slices, sliceId s = sliceId e ∧ s.static.isSome ∧
          rbgs (updateSlice nc.slices e) = rbgs s) := by
  cases hlisted : hasId nc.slices (sliceId e) with
  | false => exact .inl ⟨rfl, updateSlice_unlisted hlisted⟩
  | true =>
    have hcomplete : ∀ s ∈ nc.slices, sliceId s = sliceId e → isComplete s := by
      intro s hs hid
      by_contra hnot
      exact h ⟨s, hs, hid, .inl (Bool.eq_false_of_not_eq_true hnot)⟩
    obtain ⟨s, hs, hid, hboth, heq⟩ := exists_rbgs_updateSlice hlisted hcomplete
    refine .inr ⟨?_, s, hs, hid, static_isSome_of_isComplete hboth, heq⟩
    by_contra hcount
    exact h ⟨s, hs, hid, .inr (Nat.lt_of_not_le hcount)⟩

/-- Entries of the request with different ids do not overlap. -/
theorem Verified.disjoint_of_ne (h : Verified nc exist) {s t : FlexSlice} (hs : s ∈ nc.slices)
    (hsstatic : s.static.isSome) (ht : t ∈ nc.slices) (htstatic : t.static.isSome)
    (hne : sliceId s ≠ sliceId t) : Disjoint (rbgs s) (rbgs t) := by
  have hpairwise := List.pairwise_map.mp h.requested
  have : Std.Symm fun a b => Disjoint (rbgs a) (rbgs b) := ⟨fun _ _ h => h.symm⟩
  exact hpairwise.forall (List.mem_filter.mpr ⟨hs, hsstatic⟩)
    (List.mem_filter.mpr ⟨ht, htstatic⟩) fun heq => hne (congrArg sliceId heq)

/-- Two existing slices that are not loose stay apart. -/
theorem Verified.disjoint_existing (h : Verified nc exist)
    (hexist : RangesDisjoint exist.slices) (hsub : [a, b].Sublist exist.slices)
    (ha : ¬ IsLoose nc.slices exist.slices a) (hb : ¬ IsLoose nc.slices exist.slices b) :
    Disjoint (rbgs (updateSlice nc.slices a)) (rbgs (updateSlice nc.slices b)) := by
  have hamem : a ∈ exist.slices := hsub.subset (by simp)
  have hbmem : b ∈ exist.slices := hsub.subset (by simp)
  rcases marked_of_not_loose ha with ⟨haun, haeq⟩ | ⟨hcount, s, hs, hsid, hsstatic, haeq⟩
  · rcases marked_of_not_loose hb with ⟨-, hbeq⟩ | ⟨-, t, ht, -, htstatic, hbeq⟩
    · rw [haeq, hbeq]
      exact List.pairwise_iff_forall_sublist.mp (List.pairwise_map.mp hexist) hsub
    · rw [haeq, hbeq]
      exact (h.unlisted t ht htstatic a hamem haun).symm
  · rcases marked_of_not_loose hb with ⟨hbun, hbeq⟩ | ⟨-, t, ht, htid, htstatic, hbeq⟩
    · rw [haeq, hbeq]
      exact h.unlisted s hs hsstatic b hbmem hbun
    · rw [haeq, hbeq]
      refine h.disjoint_of_ne hs hsstatic ht htstatic fun heq => ?_
      -- both entries would be for one id, which two existing slices share
      have hid : sliceId b = sliceId a := (htid.symm.trans heq.symm).trans hsid
      have htwo := hsub.countP_le (p := fun x => sliceId x == sliceId a)
      simp only [List.countP_cons, hid, beq_self_eq_true, List.countP_nil] at htwo
      exact absurd (htwo.trans hcount) (by decide)

/-- A new slice and an existing one that is not loose stay apart. -/
theorem Verified.disjoint_added (h : Verified nc exist) (ha : a ∈ exist.slices)
    (hloose : ¬ IsLoose nc.slices exist.slices a) (hs : s ∈ nc.slices)
    (hnew : hasId exist.slices (sliceId s) = false) :
    Disjoint (rbgs (updateSlice nc.slices a)) (rbgs s) := by
  have hsstatic := static_isSome_of_isComplete (h.complete s hs hnew)
  rcases marked_of_not_loose hloose with ⟨haun, haeq⟩ | ⟨-, t, ht, htid, htstatic, haeq⟩
  · rw [haeq]
    exact (h.unlisted s hs hsstatic a ha haun).symm
  · rw [haeq]
    refine h.disjoint_of_ne ht htstatic hs hsstatic fun heq => ?_
    exact hasId_eq_false_iff.mp hnew a ha (htid.symm.trans heq)

/-- The slices added do not overlap. -/
theorem Verified.disjoint_new (h : Verified nc exist) :
    RangesDisjoint (nc.slices.filter fun s => !hasId exist.slices (sliceId s)) := by
  have hfilter : (nc.slices.filter fun s => !hasId exist.slices (sliceId s)) =
      (nc.slices.filter fun s => s.static.isSome).filter fun s =>
        !hasId exist.slices (sliceId s) := by
    rw [List.filter_filter]
    refine List.filter_congr fun s hs => ?_
    cases hnew : hasId exist.slices (sliceId s) with
    | false => simp [static_isSome_of_isComplete (h.complete s hs hnew)]
    | true => rfl
  rw [RangesDisjoint, hfilter]
  exact h.requested.sublist (List.filter_sublist.map rbgs)

/-- Where the existing slices do not overlap and the check lets a request pass, the slices after
the request do not overlap exactly when the loose ones stay apart from the others. -/
theorem rangesDisjoint_applySlices_iff (hexist : RangesDisjoint exist.slices)
    (hverify : verifyStaticSliceConfiguration nc exist = .ok ()) :
    RangesDisjoint (applySlices nc.slices exist.slices) ↔ LooseApart nc.slices exist.slices := by
  have h := verified_of_ok hverify
  have hsplit : RangesDisjoint (applySlices nc.slices exist.slices) ↔
      (exist.slices.Pairwise fun a b =>
        Disjoint (rbgs (updateSlice nc.slices a)) (rbgs (updateSlice nc.slices b))) ∧
      RangesDisjoint (nc.slices.filter fun s => !hasId exist.slices (sliceId s)) ∧
      ∀ a ∈ exist.slices, ∀ s ∈ nc.slices, hasId exist.slices (sliceId s) = false →
        Disjoint (rbgs (updateSlice nc.slices a)) (rbgs s) := by
    rw [RangesDisjoint, applySlices, List.map_append, List.pairwise_append, List.map_map,
      List.pairwise_map]
    simp only [List.forall_mem_map, Function.comp, List.mem_filter, Bool.not_eq_true', and_imp,
      RangesDisjoint]
  rw [hsplit]
  constructor
  · rintro ⟨hexisting, -, hadded⟩
    refine ⟨hexisting.imp ?_, fun a ha _ => hadded a ha⟩
    exact fun hab _ => hab
  · intro hapart
    refine ⟨?_, h.disjoint_new, fun a ha s hs hnew => ?_⟩
    · refine List.pairwise_iff_forall_sublist.mpr fun {a b} hsub => ?_
      by_cases hloose : IsLoose nc.slices exist.slices a ∨ IsLoose nc.slices exist.slices b
      · exact List.pairwise_iff_forall_sublist.mp hapart.existing hsub hloose
      · rw [not_or] at hloose
        exact h.disjoint_existing hexist hsub hloose.1 hloose.2
    · by_cases hloose : IsLoose nc.slices exist.slices a
      · exact hapart.added a ha hloose s hs hnew
      · exact h.disjoint_added ha hloose hs hnew

end Soundness

/-! ## A slice that is only relabelled -/

/-- Two slices that share the first ten RBGs. -/
def twoSlices : FlexSliceDlUlConfig where
  algorithm := some .static
  slices := [{ id := some 1, static := some { posLow := some 0, posHigh := some 4 } },
    { id := some 2, static := some { posLow := some 5, posHigh := some 9 } }]

/-- Slice 1 is moved, and a third one takes some of its RBGs. -/
def moveFirst : FlexSliceDlUlConfig where
  algorithm := some .static
  slices := [{ id := some 1, static := some { posLow := some 10, posHigh := some 12 } },
    { id := some 3, static := some { posLow := some 0, posHigh := some 3 } }]

/-- Slice 1 gets a label only, and a third one takes some of its RBGs. -/
def relabelFirst : FlexSliceDlUlConfig where
  algorithm := some .static
  slices := [{ id := some 1, label := some "video" },
    { id := some 3, static := some { posLow := some 0, posHigh := some 3 } }]

theorem rangesDisjoint_moveFirst :
    RangesDisjoint (applySlices moveFirst.slices twoSlices.slices) ↔
      LooseApart moveFirst.slices twoSlices.slices :=
  rangesDisjoint_applySlices_iff (by decide) (by decide)

/-- The check does not look at the RBGs a relabelled slice keeps. -/
theorem not_rangesDisjoint_relabelFirst :
    (∀ s ∈ twoSlices.slices, isComplete s) ∧ RangesDisjoint twoSlices.slices ∧
      (∀ s ∈ twoSlices.slices, ∀ i ∈ rbgs s, i < numRbg) ∧
      verifyStaticSliceConfiguration relabelFirst twoSlices = .ok () ∧
      ¬ RangesDisjoint (applySlices relabelFirst.slices twoSlices.slices) := by
  decide

end FlexRan.App
