import FlexRan.App.SliceAdmission

/-!
# The loops of the check of static slices

The loops over RBGs count with an unsigned variable up to and including a bound that neither the
parser nor the RIB restricts.  Here they are written as the code has them, with a variable that
wraps around; the number of rounds is bounded, and the bound never decides.

The array of RBGs has 110 entries, and the loops do not check that.

## Main definitions

* `verifyLoops fuel`: the check with at most `fuel` rounds in each loop.
* `ReturnsOrThrows`: the check ends without leaving the array.
* `LeavesRoom`: no range reaches the end of the array before two ranges overlap.
-/
namespace FlexRan.App

open Lib Protocol

/-! ## The loops -/

/-- Without a result there have been too many rounds. -/
abbrev Bounded := ExceptT Abort Option

/-- The loop over the RBGs from `i` to `high`. -/
def markLoop (what : String) (high : UInt32) : ℕ → UInt32 → Finset ℕ → Bounded (Finset ℕ)
  | 0, _, _ => ExceptT.mk none
  | fuel + 1, i, rbg =>
    if i ≤ high then
      if i.toNat ≥ numRbg then throw (.fault .outOfBounds)
      else if i.toNat ∈ rbg then
        throw (.invalidArgument ("overlapping slices at RBG " ++ toString i.toNat ++ " for " ++
          what))
      else markLoop what high fuel (i + 1) (insert i.toNat rbg)
    else return rbg

def markSliceLoop (fuel : ℕ) (kind : String) (rbg : Finset ℕ) (s : FlexSlice) :
    Bounded (Finset ℕ) :=
  markLoop (kind ++ toString (sliceId s)) (posHigh s) fuel (posLow s) rbg

def verifyLoops (fuel : ℕ) (nc exist : FlexSliceDlUlConfig) : Bounded Unit :=
  if nc.scheduler.isSome then throw (.invalidArgument "cannot have a single scheduler")
  else if !nc.slices.all hasParameters then
    throw (.invalidArgument "all slices need to have an ID and parameters")
  else if !nc.slices.all fun s => hasId exist.slices (sliceId s) || isComplete s then
    throw (.invalidArgument "all new slices need to have complete parameters")
  else do
    let rbg ← (nc.slices.filter fun s => s.static.isSome).foldlM (markSliceLoop fuel "slice ") ∅
    let _ ← (exist.slices.filter fun s => !hasId nc.slices (sliceId s)).foldlM
      (markSliceLoop fuel "existing slice ") rbg

/-- A return or a `std::invalid_argument`. -/
def Orderly {α : Type} (result : Except Abort α) : Prop :=
  (∃ a, result = .ok a) ∨ ∃ reason, result = .error (.invalidArgument reason)

/-- With enough rounds the check ends, by returning or by `std::invalid_argument`, and has used no
index outside the array. -/
def ReturnsOrThrows (nc exist : FlexSliceDlUlConfig) : Prop :=
  ∃ enough, ∀ fuel ≥ enough, ∃ result,
    (verifyLoops fuel nc exist).run = some result ∧ Orderly result

/-! ## Rounds -/

section Rounds

variable {what kind : String} {high i : UInt32} {fuel : ℕ} {rbg : Finset ℕ} {s : FlexSlice}
  {nc exist : FlexSliceDlUlConfig}

/-- Before the variable could wrap around, the loop has left the array. -/
theorem run_markLoop (hpos : 0 < fuel) (h : numRbg < fuel + i.toNat) :
    (markLoop what high fuel i rbg).run =
      some (markRbgs what (high.toNat + 1 - i.toNat) i.toNat rbg) := by
  induction fuel generalizing i rbg with
  | zero => exact absurd hpos (Nat.lt_irrefl 0)
  | succ fuel ih =>
    rw [markLoop]
    by_cases hle : i ≤ high
    · have hle' : i.toNat ≤ high.toNat := hle
      obtain ⟨n, hn⟩ : ∃ n, high.toNat + 1 - i.toNat = n + 1 := ⟨high.toNat - i.toNat, by omega⟩
      rw [if_pos hle, hn, markRbgs]
      split_ifs with hbound hmem
      · rfl
      · rfl
      · rw [numRbg] at hbound h ih
        have hnext : (i + 1).toNat = i.toNat + 1 := by
          rw [UInt32.toNat_add]
          exact Nat.mod_eq_of_lt (by simp; omega)
        rw [ih (by omega) (by omega), hnext, show high.toNat + 1 - (i.toNat + 1) = n by omega]
    · have hlt : high.toNat < i.toNat := Nat.lt_of_not_le hle
      rw [if_neg hle, show high.toNat + 1 - i.toNat = 0 by omega]
      rfl

/-- A fold whose rounds all have a result. -/
theorem run_foldlM {α β ε : Type} {f : β → α → ExceptT ε Option β} {g : β → α → Except ε β}
    (h : ∀ b a, (f b a).run = some (g b a)) (l : List α) (b : β) :
    (l.foldlM f b).run = some (l.foldlM g b) := by
  induction l generalizing b with
  | nil => rfl
  | cons a l ih =>
    rw [List.foldlM_cons, List.foldlM_cons, ExceptT.run_bind, h, Option.bind_eq_bind,
      Option.bind_some]
    cases g b a with
    | error e => rfl
    | ok b' => exact ih b'

/-- With more rounds than RBGs the loops compute what the check does. -/
theorem run_verifyLoops (h : numRbg < fuel) :
    (verifyLoops fuel nc exist).run = some (verifyStaticSliceConfiguration nc exist) := by
  have hmark : ∀ kind rbg s, (markSliceLoop fuel kind rbg s).run = some (markSlice kind rbg s) :=
    fun kind rbg s => run_markLoop (Nat.zero_lt_of_lt h) (by omega)
  rw [verifyLoops, verifyStaticSliceConfiguration, markSlices]
  split_ifs
  · rfl
  · rfl
  · rfl
  · rw [ExceptT.run_bind, run_foldlM (hmark "slice "), Option.bind_eq_bind, Option.bind_some]
    cases (nc.slices.filter fun s => s.static.isSome).foldlM (markSlice "slice ") ∅ with
    | error e => rfl
    | ok rbg =>
      dsimp only
      rw [ExceptT.run_bind, run_foldlM (hmark "existing slice "), Option.bind_eq_bind,
        Option.bind_some]
      change _ = some (List.foldlM (markSlice "existing slice ") rbg _ >>= fun _ => pure ())
      cases (exist.slices.filter fun s => !hasId nc.slices (sliceId s)).foldlM
        (markSlice "existing slice ") rbg with
      | error e => rfl
      | ok rbg' => rfl

end Rounds

/-! ## Ranges that reach the end of the array -/

/-- Each list of slices that the check begins with stays in the array, or two of its ranges
overlap. -/
def StaysInside (slices : List FlexSlice) (rbg : Finset ℕ) : Prop :=
  ∀ p, p <+: slices → (p.map rbgs).Pairwise Disjoint → (∀ s ∈ p, Disjoint (rbgs s) rbg) →
    ∀ s ∈ p, rbgs s ⊆ Finset.range numRbg

section Ranges

variable {what kind : String} {n i : ℕ} {rbg rbg' : Finset ℕ} {s : FlexSlice} {e : Abort}

/-- The three ways a loop over RBGs ends. -/
inductive Marked (range rbg : Finset ℕ) : Except Abort (Finset ℕ) → Prop
  | free (rbg' : Finset ℕ) (hfree : Disjoint range rbg) (hinside : range ⊆ Finset.range numRbg)
      (hmarked : rbg' = range ∪ rbg) : Marked range rbg (.ok rbg')
  | overlap (reason : String) (hoverlap : ¬ Disjoint range rbg) :
      Marked range rbg (.error (.invalidArgument reason))
  | outside (hfree : Disjoint range rbg) (houtside : ¬ range ⊆ Finset.range numRbg) :
      Marked range rbg (.error (.fault .outOfBounds))

theorem marked_markRbgs (hrbg : rbg ⊆ Finset.range numRbg) :
    Marked (Finset.Ico i (i + n)) rbg (markRbgs what n i rbg) := by
  induction n generalizing i rbg with
  | zero =>
    rw [markRbgs, Nat.add_zero, Finset.Ico_self]
    exact .free rbg (Finset.disjoint_empty_left rbg) (Finset.empty_subset _)
      (Finset.empty_union rbg).symm
  | succ n ih =>
    have hsplit : Finset.Ico i (i + (n + 1)) = insert i (Finset.Ico (i + 1) (i + 1 + n)) := by
      ext j
      simp only [Finset.mem_Ico, Finset.mem_insert]
      omega
    rw [markRbgs, hsplit]
    split_ifs with hbound hmem
    · -- all RBGs that are marked lie below
      refine .outside ?_ fun hsub => ?_
      · refine Finset.disjoint_left.mpr fun j hj hmem => ?_
        have hlt := Finset.mem_range.mp (hrbg hmem)
        simp only [Finset.mem_insert, Finset.mem_Ico] at hj
        omega
      · have hlt := Finset.mem_range.mp (hsub (Finset.mem_insert_self i _))
        exact absurd hlt (Nat.not_lt.mpr hbound)
    · exact .overlap _ fun hdisjoint => (Finset.disjoint_insert_left.mp hdisjoint).1 hmem
    · have hi : i ∈ Finset.range numRbg := Finset.mem_range.mpr (Nat.lt_of_not_le hbound)
      have hrest : ∀ range, i ∉ range →
          (Disjoint range (insert i rbg) ↔ Disjoint (insert i range) rbg) := by
        intro range hnot
        rw [Finset.disjoint_insert_right, Finset.disjoint_insert_left]
        exact and_congr_left fun _ => iff_of_true hnot hmem
      have hnot : i ∉ Finset.Ico (i + 1) (i + 1 + n) := by simp
      have hmarked := ih (i := i + 1) (Finset.insert_subset hi hrbg)
      generalize markRbgs what n (i + 1) (insert i rbg) = result at hmarked
      cases hmarked with
      | free rbg' hfree hinside heq =>
        refine .free rbg' ((hrest _ hnot).mp hfree) (Finset.insert_subset hi hinside) ?_
        rw [heq, Finset.union_insert, Finset.insert_union]
      | overlap reason hoverlap => exact .overlap reason (mt (hrest _ hnot).mpr hoverlap)
      | outside hfree houtside =>
        refine .outside ((hrest _ hnot).mp hfree) fun hsub => houtside ?_
        exact (Finset.subset_insert i _).trans hsub

theorem marked_markSlice (hrbg : rbg ⊆ Finset.range numRbg) :
    Marked (rbgs s) rbg (markSlice kind rbg s) := by
  have hrange : Finset.Ico (posLow s).toNat
      ((posLow s).toNat + ((posHigh s).toNat + 1 - (posLow s).toNat)) = rbgs s := by
    ext j
    simp only [rbgs, Finset.mem_Ico]
    omega
  rw [← hrange]
  exact marked_markRbgs hrbg

theorem staysInside_cons {slices : List FlexSlice} : StaysInside (s :: slices) rbg ↔
    (Disjoint (rbgs s) rbg →
      rbgs s ⊆ Finset.range numRbg ∧ StaysInside slices (rbgs s ∪ rbg)) := by
  constructor
  · intro h hfree
    refine ⟨?_, fun p hpre hpairwise hdisjoint t ht => ?_⟩
    · exact h [s] (by simp) (by simp) (by simpa using hfree) s (by simp)
    · refine h (s :: p) ((List.prefix_cons_inj s).mpr hpre) ?_ ?_ t (List.mem_cons_of_mem s ht)
      · rw [List.map_cons, List.pairwise_cons]
        refine ⟨fun range hrange => ?_, hpairwise⟩
        obtain ⟨u, hu, rfl⟩ := List.mem_map.mp hrange
        exact (Finset.disjoint_union_right.mp (hdisjoint u hu)).1.symm
      · intro u hu
        rcases List.mem_cons.mp hu with rfl | hu
        · exact hfree
        · exact (Finset.disjoint_union_right.mp (hdisjoint u hu)).2
  · intro h p hpre hpairwise hdisjoint t ht
    cases p with
    | nil => exact absurd ht List.not_mem_nil
    | cons u p =>
      obtain ⟨rfl, hpre'⟩ := List.cons_prefix_cons.mp hpre
      rw [List.map_cons, List.pairwise_cons] at hpairwise
      obtain ⟨hinside, hrest⟩ := h (hdisjoint u (by simp))
      rcases List.mem_cons.mp ht with rfl | ht
      · exact hinside
      · refine hrest p hpre' hpairwise.2 (fun v hv => ?_) t ht
        refine Finset.disjoint_union_right.mpr ⟨?_, hdisjoint v (List.mem_cons_of_mem u hv)⟩
        exact (hpairwise.1 _ (List.mem_map_of_mem hv)).symm

/-- The slices of both loops, each with the text for its errors. -/
theorem orderly_foldlM_iff {l : List (String × FlexSlice)} (hrbg : rbg ⊆ Finset.range numRbg) :
    Orderly (l.foldlM (fun rbg e => markSlice e.1 rbg e.2) rbg) ↔
      StaysInside (l.map Prod.snd) rbg := by
  induction l generalizing rbg with
  | nil =>
    refine iff_of_true (.inl ⟨rbg, rfl⟩) fun p hpre _ _ s hs => ?_
    rw [List.prefix_nil.mp hpre] at hs
    exact absurd hs List.not_mem_nil
  | cons e l ih =>
    rw [List.foldlM_cons, List.map_cons, staysInside_cons]
    have hmarked : Marked (rbgs e.2) rbg (markSlice e.1 rbg e.2) := marked_markSlice hrbg
    generalize markSlice e.1 rbg e.2 = result at hmarked
    cases hmarked with
    | free rbg' hfree hinside heq =>
      subst heq
      rw [forall_prop_of_true hfree, and_iff_right hinside]
      exact ih (Finset.union_subset hinside hrbg)
    | overlap reason hoverlap =>
      exact iff_of_true (.inr ⟨reason, rfl⟩) fun hfree => absurd hfree hoverlap
    | outside hfree houtside =>
      refine iff_of_false ?_ fun h => houtside (h hfree).1
      rintro (⟨a, ha⟩ | ⟨reason, hreason⟩)
      · exact absurd ha (by simp [bind, Except.bind])
      · exact absurd hreason (by simp [bind, Except.bind])

end Ranges

/-! ## The check -/

variable {nc exist : FlexSliceDlUlConfig}

/-- The slices whose ranges are marked, in this order. -/
def checkedSlices (nc exist : FlexSliceDlUlConfig) : List FlexSlice :=
  (nc.slices.filter fun s => s.static.isSome) ++
    exist.slices.filter fun s => !hasId nc.slices (sliceId s)

/-- The request is refused before any range is marked. -/
def RefusedEarly (nc exist : FlexSliceDlUlConfig) : Prop :=
  nc.scheduler.isSome ∨ ¬ nc.slices.all hasParameters ∨
    ¬ nc.slices.all fun s => hasId exist.slices (sliceId s) || isComplete s

/-- The request is refused early, or all ranges up to the first that overlaps one before it lie in
the array. -/
def LeavesRoom (nc exist : FlexSliceDlUlConfig) : Prop :=
  RefusedEarly nc exist ∨
    ∀ p, p <+: checkedSlices nc exist → (p.map rbgs).Pairwise Disjoint →
      ∀ s ∈ p, rbgs s ⊆ Finset.range numRbg

/-- The two loops as one. -/
theorem markSlices_eq (nc exist : FlexSliceDlUlConfig) : markSlices nc exist =
    ((nc.slices.filter fun s => s.static.isSome).map ("slice ", ·) ++
      (exist.slices.filter fun s => !hasId nc.slices (sliceId s)).map ("existing slice ", ·)).foldlM
        (fun rbg e => markSlice e.1 rbg e.2) ∅ >>= fun _ => .ok () := by
  rw [markSlices, List.foldlM_append, List.foldlM_map, bind_assoc]
  simp only [List.foldlM_map]
  rfl

theorem orderly_markSlices_iff :
    Orderly (markSlices nc exist) ↔ StaysInside (checkedSlices nc exist) ∅ := by
  have hslices : checkedSlices nc exist =
      ((nc.slices.filter fun s => s.static.isSome).map (("slice ", ·) : FlexSlice → _) ++
        (exist.slices.filter fun s => !hasId nc.slices (sliceId s)).map
          ("existing slice ", ·)).map Prod.snd := by
    simp [checkedSlices, Function.comp_def]
  rw [markSlices_eq, hslices, ← orderly_foldlM_iff (Finset.empty_subset _)]
  generalize List.foldlM (fun rbg (e : String × FlexSlice) => markSlice e.1 rbg e.2) _ _ = result
  cases result with
  | ok rbg => exact iff_of_true (.inl ⟨(), rfl⟩) (.inl ⟨rbg, rfl⟩)
  | error e => simp [Orderly, bind, Except.bind]

theorem orderly_verify_iff :
    Orderly (verifyStaticSliceConfiguration nc exist) ↔ LeavesRoom nc exist := by
  have hempty : StaysInside (checkedSlices nc exist) ∅ ↔
      ∀ p, p <+: checkedSlices nc exist → (p.map rbgs).Pairwise Disjoint →
        ∀ s ∈ p, rbgs s ⊆ Finset.range numRbg := by
    simp [StaysInside]
  rw [LeavesRoom, RefusedEarly, verifyStaticSliceConfiguration]
  split_ifs with hscheduler hparameters hcomplete
  · exact iff_of_true (.inr ⟨_, rfl⟩) (.inl (.inl hscheduler))
  · refine iff_of_true (.inr ⟨_, rfl⟩) (.inl (.inr (.inl ?_)))
    exact fun h => absurd hparameters (by simp [h])
  · refine iff_of_true (.inr ⟨_, rfl⟩) (.inl (.inr (.inr ?_)))
    exact fun h => absurd hcomplete (by simp [h])
  · rw [orderly_markSlices_iff, hempty, or_iff_right]
    rintro (h | h | h)
    · exact hscheduler h
    · exact hparameters (by simpa using h)
    · exact hcomplete (by simpa using h)

theorem returnsOrThrows_iff_orderly :
    ReturnsOrThrows nc exist ↔ Orderly (verifyStaticSliceConfiguration nc exist) := by
  constructor
  · rintro ⟨enough, h⟩
    obtain ⟨result, hrun, horderly⟩ := h (max enough (numRbg + 1)) (le_max_left _ _)
    rw [run_verifyLoops (Nat.lt_of_succ_le (le_max_right _ _))] at hrun
    exact Option.some.inj hrun ▸ horderly
  · intro h
    exact ⟨numRbg + 1, fun fuel hfuel => ⟨_, run_verifyLoops hfuel, h⟩⟩

/-- The check ends without leaving the array exactly when the ranges it marks leave room. -/
theorem returnsOrThrows_iff (nc exist : FlexSliceDlUlConfig) :
    ReturnsOrThrows nc exist ↔ LeavesRoom nc exist :=
  returnsOrThrows_iff_orderly.trans orderly_verify_iff

/-- A slice up to RBG 110. -/
def upTo110 : FlexSliceDlUlConfig where
  algorithm := some .static
  slices := [{ id := some 1, static := some { posLow := some 100, posHigh := some 110 } }]

/-- The array ends before. -/
theorem not_returnsOrThrows_upTo110 : ¬ ReturnsOrThrows upTo110 {} := by
  have hverify : verifyStaticSliceConfiguration upTo110 {} = .error (.fault .outOfBounds) := by
    decide
  rw [returnsOrThrows_iff_orderly, hverify]
  rintro (⟨_, hok⟩ | ⟨reason, hreason⟩)
  · exact absurd hok (by simp)
  · exact absurd hreason (by simp)

end FlexRan.App
