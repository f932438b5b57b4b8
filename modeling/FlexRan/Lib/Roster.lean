import FlexRan.Lib.Simulation

/-!
# Groups that assemble from parts

Members join and leave.  A member belongs to a group and brings parts to it; no two members of a
group bring the same part.  A group comes up as soon as a member joins with whom its members
have every required part, and it goes down when one of its members leaves.  While it is up,
nobody joins it.

Groups do not influence each other: when every member always joins the same group, what a run
announces about a group is decided by the commands of its own members, in their order
(`Assembly.behave_local`).

## Main definitions

* `Assembly`: the group and the parts of a member, and the required parts.
* `Roster`: who is a member, and which groups are up.
* `Assembly.step`: the effect of a command, and what is announced.
-/
namespace FlexRan.Lib

/-- The group a member belongs to, the parts it brings, and the parts a group needs. -/
structure Assembly (α γ κ : Type) where
  group : α → γ
  parts : α → Set κ
  required : Set κ

structure Roster (ι α γ : Type) where
  member : ι → Option α := fun _ => none
  up : Set γ := ∅

namespace Assembly

inductive Command (ι α : Type)
  | join (i : ι) (a : α)
  /-- Something that is not an offer to join. -/
  | turnAway (i : ι)
  | leave (i : ι)

inductive Notice (ι γ : Type)
  | up (g : γ)
  | down (g : γ)
  | dropped (i : ι)

variable {ι α γ κ : Type} (S : Assembly α γ κ)

/-- The members of the group have all required parts together. -/
def Covered (r : Roster ι α γ) (g : γ) : Prop :=
  ∀ c ∈ S.required, ∃ i a, r.member i = some a ∧ S.group a = g ∧ c ∈ S.parts a

structure Admits (r : Roster ι α γ) (i : ι) (a : α) : Prop where
  absent : r.member i = none
  down : S.group a ∉ r.up
  disjoint : ∀ j b, r.member j = some b → S.group b = S.group a →
    Disjoint (S.parts b) (S.parts a)

/-- The roster with the new member. -/
def enter [DecidableEq ι] (r : Roster ι α γ) (i : ι) (a : α) : Roster ι α γ :=
  { r with member := Function.update r.member i (some a) }

/-- The roster without the member, whose group is down. -/
def dismiss [DecidableEq ι] (r : Roster ι α γ) (i : ι) (a : α) : Roster ι α γ where
  member := Function.update r.member i none
  up := r.up \ {S.group a}

open Classical in
noncomputable def step [DecidableEq ι] (r : Roster ι α γ) :
    Command ι α → Roster ι α γ × List (Notice ι γ)
  | .join i a =>
    if S.Admits r i a then
      if S.Covered (enter r i a) (S.group a) then
        ({ enter r i a with up := insert (S.group a) r.up }, [.up (S.group a)])
      else (enter r i a, [])
    else (r, [.dropped i])
  | .turnAway i => (r, [.dropped i])
  | .leave i =>
    match r.member i with
    | none => (r, [.dropped i])
    | some a =>
      (S.dismiss r i a,
        if S.group a ∈ r.up then [.down (S.group a), .dropped i] else [.dropped i])

section Step

variable {S} [DecidableEq ι] {r : Roster ι α γ} {i : ι} {a : α}

theorem step_join_of_covered (h : S.Admits r i a) (hcovered : S.Covered (enter r i a) (S.group a)) :
    S.step r (.join i a) =
      ({ enter r i a with up := insert (S.group a) r.up }, [.up (S.group a)]) := by
  simp only [step, if_pos h, if_pos hcovered]

theorem step_join_of_not_covered (h : S.Admits r i a)
    (hnot : ¬ S.Covered (enter r i a) (S.group a)) :
    S.step r (.join i a) = (enter r i a, []) := by
  simp only [step, if_pos h, if_neg hnot]

theorem step_join_of_not_admits (h : ¬ S.Admits r i a) :
    S.step r (.join i a) = (r, [.dropped i]) := by
  simp only [step, if_neg h]

theorem step_leave_of_up (hi : r.member i = some a) (hup : S.group a ∈ r.up) :
    S.step r (.leave i) = (S.dismiss r i a, [.down (S.group a), .dropped i]) := by
  simp only [step, hi, if_pos hup]

theorem step_leave_of_down (hi : r.member i = some a) (hdown : S.group a ∉ r.up) :
    S.step r (.leave i) = (S.dismiss r i a, [.dropped i]) := by
  simp only [step, hi, if_neg hdown]

theorem step_leave_of_absent (hi : r.member i = none) :
    S.step r (.leave i) = (r, [.dropped i]) := by
  simp only [step, hi]

end Step

/-! ## One group -/

/-- The member a command is from. -/
def Command.sender : Command ι α → ι
  | .join i _ | .turnAway i | .leave i => i

/-- Members join the groups they are at home in. -/
def Command.Homed (home : ι → γ) : Command ι α → Prop
  | .join i a => S.group a = home i
  | .turnAway _ | .leave _ => True

def Notice.group (home : ι → γ) : Notice ι γ → γ
  | .up g | .down g => g
  | .dropped i => home i

def Homed (home : ι → γ) (r : Roster ι α γ) : Prop :=
  ∀ i a, r.member i = some a → S.group a = home i

/-- The rosters have the same members of the group, and it is up in both or in none. -/
structure AgreeOn (home : ι → γ) (g : γ) (r r' : Roster ι α γ) : Prop where
  member : ∀ i, home i = g → r.member i = r'.member i
  up : g ∈ r.up ↔ g ∈ r'.up

variable {S} {home : ι → γ} {g : γ} {r r' : Roster ι α γ}

theorem AgreeOn.refl (home : ι → γ) (g : γ) (r : Roster ι α γ) : AgreeOn home g r r :=
  ⟨fun _ _ => rfl, Iff.rfl⟩

theorem homed_empty (home : ι → γ) : S.Homed home ({} : Roster ι α γ) :=
  fun _ _ h => absurd h (by simp)

theorem member_enter [DecidableEq ι] {i j : ι} {a : α} :
    (enter r i a).member j = if j = i then some a else r.member j :=
  Function.update_apply ..

theorem member_dismiss [DecidableEq ι] {i j : ι} {a : α} :
    (S.dismiss r i a).member j = if j = i then none else r.member j :=
  Function.update_apply ..

theorem Homed.enter [DecidableEq ι] {i : ι} {a : α} (h : S.Homed home r) (ha : S.group a = home i) :
    S.Homed home (enter r i a) := by
  intro j b hb
  rw [member_enter] at hb
  split at hb
  next hj =>
    obtain rfl := Option.some.inj hb
    rw [hj]
    exact ha
  next => exact h j b hb

theorem Homed.step [DecidableEq ι] {c : Command ι α} (h : S.Homed home r) (hc : c.Homed S home) :
    S.Homed home (S.step r c).1 := by
  cases c with
  | join i a =>
    rw [Assembly.step]
    split_ifs
    · exact h.enter hc
    · exact h.enter hc
    · exact h
  | turnAway i => exact h
  | leave i =>
    rw [Assembly.step]
    split
    · exact h
    · intro j b hb
      rw [member_dismiss] at hb
      split at hb
      · exact absurd hb (by simp)
      · exact h j b hb

/-- The members at home in a group are those of the group. -/
theorem AgreeOn.member_iff (hagree : AgreeOn home g r r') (h : S.Homed home r)
    (h' : S.Homed home r') {i : ι} {a : α} (hg : S.group a = g) :
    r.member i = some a ↔ r'.member i = some a := by
  constructor
  · intro ha
    rw [← hagree.member i ((h i a ha).symm.trans hg)]
    exact ha
  · intro ha
    rw [hagree.member i ((h' i a ha).symm.trans hg)]
    exact ha

theorem AgreeOn.covered_iff (hagree : AgreeOn home g r r') (h : S.Homed home r)
    (h' : S.Homed home r') : S.Covered r g ↔ S.Covered r' g := by
  refine forall_congr' fun c => imp_congr_right fun _ => exists_congr fun i =>
    exists_congr fun a => ?_
  constructor
  · rintro ⟨ha, hg, hc⟩
    exact ⟨(hagree.member_iff h h' hg).mp ha, hg, hc⟩
  · rintro ⟨ha, hg, hc⟩
    exact ⟨(hagree.member_iff h h' hg).mpr ha, hg, hc⟩

theorem AgreeOn.admits_iff {i : ι} {a : α} (hagree : AgreeOn home g r r') (h : S.Homed home r)
    (h' : S.Homed home r') (hi : home i = g) (ha : S.group a = g) :
    S.Admits r i a ↔ S.Admits r' i a := by
  have hmember : ∀ j b, S.group b = S.group a → (r.member j = some b ↔ r'.member j = some b) :=
    fun j b hb => hagree.member_iff h h' (hb.trans ha)
  constructor
  · rintro ⟨habsent, hdown, hdisjoint⟩
    refine ⟨hagree.member i hi ▸ habsent, ?_, fun j b hj hb => ?_⟩
    · rw [ha] at hdown ⊢
      exact mt hagree.up.mpr hdown
    · exact hdisjoint j b ((hmember j b hb).mpr hj) hb
  · rintro ⟨habsent, hdown, hdisjoint⟩
    refine ⟨(hagree.member i hi).symm ▸ habsent, ?_, fun j b hj hb => ?_⟩
    · rw [ha] at hdown ⊢
      exact mt hagree.up.mp hdown
    · exact hdisjoint j b ((hmember j b hb).mp hj) hb

theorem AgreeOn.enter [DecidableEq ι] (hagree : AgreeOn home g r r') (i : ι) (a : α) :
    AgreeOn home g (enter r i a) (enter r' i a) where
  member j hj := by
    rw [member_enter, member_enter, hagree.member j hj]
  up := hagree.up

/-- A command of a member at home in the group does the same to the group in both rosters. -/
theorem AgreeOn.step_own [DecidableEq ι] {c : Command ι α} (hagree : AgreeOn home g r r') (h : S.Homed home r)
    (h' : S.Homed home r') (hc : c.Homed S home) (hsender : home c.sender = g) :
    AgreeOn home g (S.step r c).1 (S.step r' c).1 ∧ (S.step r c).2 = (S.step r' c).2 := by
  cases c with
  | turnAway i => exact ⟨hagree, rfl⟩
  | join i a =>
    have ha : S.group a = g := Eq.trans hc hsender
    have hadmits : S.Admits r i a ↔ S.Admits r' i a := hagree.admits_iff h h' hsender ha
    have hnew : AgreeOn home g (Assembly.enter r i a) (Assembly.enter r' i a) := hagree.enter i a
    have hcovered := hnew.covered_iff (h.enter hc) (h'.enter hc)
    rw [← ha] at hcovered
    by_cases hadm : S.Admits r i a
    · by_cases hcov : S.Covered (Assembly.enter r i a) (S.group a)
      · rw [step_join_of_covered hadm hcov,
          step_join_of_covered (hadmits.mp hadm) (hcovered.mp hcov)]
        refine ⟨⟨hnew.member, ?_⟩, rfl⟩
        rw [ha]
        exact iff_of_true (Set.mem_insert g r.up) (Set.mem_insert g r'.up)
      · rw [step_join_of_not_covered hadm hcov,
          step_join_of_not_covered (hadmits.mp hadm) (mt hcovered.mpr hcov)]
        exact ⟨hnew, rfl⟩
    · rw [step_join_of_not_admits hadm, step_join_of_not_admits (mt hadmits.mpr hadm)]
      exact ⟨hagree, rfl⟩
  | leave i =>
    have hmember : r.member i = r'.member i := hagree.member i hsender
    cases hi : r'.member i with
    | none =>
      rw [step_leave_of_absent (hmember.trans hi), step_leave_of_absent hi]
      exact ⟨hagree, rfl⟩
    | some a =>
      have ha : S.group a = g := (h' i a hi).trans hsender
      have hnew : AgreeOn home g (S.dismiss r i a) (S.dismiss r' i a) := by
        refine ⟨fun j hj => ?_, by simp [dismiss, ha]⟩
        rw [member_dismiss, member_dismiss, hagree.member j hj]
      by_cases hup : S.group a ∈ r.up
      · have hup' : S.group a ∈ r'.up := ha ▸ hagree.up.mp (ha ▸ hup)
        rw [step_leave_of_up (hmember.trans hi) hup, step_leave_of_up hi hup']
        exact ⟨hnew, rfl⟩
      · have hdown : S.group a ∉ r'.up := fun hmem => hup (ha ▸ hagree.up.mpr (ha ▸ hmem))
        rw [step_leave_of_down (hmember.trans hi) hup, step_leave_of_down hi hdown]
        exact ⟨hnew, rfl⟩

/-- A command of another member does nothing to the group and announces nothing about it. -/
theorem AgreeOn.step_other [DecidableEq ι] {c : Command ι α} (h : S.Homed home r) (hc : c.Homed S home)
    (hsender : home c.sender ≠ g) :
    AgreeOn home g (S.step r c).1 r ∧ ∀ n ∈ (S.step r c).2, n.group home ≠ g := by
  have henter : ∀ i a, home i ≠ g → AgreeOn home g (Assembly.enter r i a) r := fun i a hi => by
    refine ⟨fun j hj => ?_, Iff.rfl⟩
    rw [member_enter, if_neg]
    rintro rfl
    exact hi hj
  cases c with
  | turnAway i =>
    have hi : home i ≠ g := hsender
    exact ⟨.refl _ _ _, by simpa [Assembly.step, Notice.group] using hi⟩
  | join i a =>
    have hi : home i ≠ g := hsender
    have ha : S.group a ≠ g := Eq.trans_ne hc hi
    rw [Assembly.step]
    split_ifs
    · refine ⟨⟨(henter i a hi).member, ?_⟩, by simpa [Notice.group] using ha⟩
      simp [Ne.symm ha]
    · exact ⟨henter i a hi, by simp⟩
    · exact ⟨.refl _ _ _, by simpa [Notice.group] using hi⟩
  | leave i =>
    have hi : home i ≠ g := hsender
    rw [Assembly.step]
    split
    · exact ⟨.refl _ _ _, by simpa [Notice.group] using hi⟩
    next a hmember =>
      have ha : S.group a ≠ g := (h i a hmember).trans_ne hi
      refine ⟨⟨fun j hj => ?_, ?_⟩, ?_⟩
      · rw [member_dismiss, if_neg]
        rintro rfl
        exact hi hj
      · simp [dismiss, Ne.symm ha]
      · split_ifs
        · simpa [Notice.group] using ⟨ha, hi⟩
        · simpa [Notice.group] using hi

/-! ## Runs -/

section Local

variable [DecidableEq ι] [DecidableEq γ]

/-- What a run does to a group and announces about it is what the commands of the members at
home in the group do alone. -/
theorem behave_local {commands : List (Command ι α)} (hagree : AgreeOn home g r r')
    (h : S.Homed home r) (h' : S.Homed home r') (hhomed : ∀ c ∈ commands, c.Homed S home) :
    AgreeOn home g (behave S.step r commands).1
        (behave S.step r' (commands.filter fun c => home c.sender = g)).1 ∧
      (behave S.step r commands).2.filter (fun n => n.group home = g) =
        (behave S.step r' (commands.filter fun c => home c.sender = g)).2.filter
          (fun n => n.group home = g) := by
  induction commands generalizing r r' with
  | nil => exact ⟨hagree, rfl⟩
  | cons c commands ih =>
    obtain ⟨hc, hrest⟩ := List.forall_mem_cons.mp hhomed
    by_cases hsender : home c.sender = g
    · obtain ⟨hstep, hout⟩ := hagree.step_own h h' hc hsender
      obtain ⟨hend, hnotices⟩ := ih hstep (h.step hc) (h'.step hc) hrest
      rw [List.filter_cons_of_pos (by simpa using hsender), behave_cons, behave_cons,
        List.filter_append, List.filter_append, hout, hnotices]
      exact ⟨hend, rfl⟩
    · obtain ⟨hsame, hquiet⟩ := AgreeOn.step_other h hc hsender
      have hstep : AgreeOn home g (S.step r c).1 r' :=
        ⟨fun i hi => (hsame.member i hi).trans (hagree.member i hi), hsame.up.trans hagree.up⟩
      obtain ⟨hend, hnotices⟩ := ih hstep (h.step hc) h' hrest
      have hnone : (S.step r c).2.filter (fun n => n.group home = g) = [] := by
        rw [List.filter_eq_nil_iff]
        intro n hn
        simpa using hquiet n hn
      rw [List.filter_cons_of_neg (by simpa using hsender), behave_cons, List.filter_append,
        hnone, hnotices]
      exact ⟨hend, rfl⟩

end Local

end Assembly
end FlexRan.Lib
