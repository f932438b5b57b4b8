import FlexRan.Rib.Soundness

/-!
# Formation of base stations

A base station should exist as soon as its pending agents are complete.  The hello handler
tries to form it; the disconnect handler returns the survivors of a dissolved base station to
the pending set and does not try.  The survivors are complete when the disconnected agent had
no required capability, and then they stay pending.

## Main definitions

* `NoneCompletable`: no set of pending agents could form a base station.
* `LeavesGap`: a disconnected active agent takes a required capability with it.
-/
namespace FlexRan.Rib

set_option linter.dupNamespace false

open Lib Protocol Rib

/-- The pending agents of base stations that do not exist are all incomplete. -/
def NoneCompletable (r : Rib) : Prop :=
  ∀ b, r.eNBConfigs[b]? = none → ¬ Covers (r.pendingOf b)

def LeavesGap (r : Rib) : RibEvent → Prop
  | .hello .. => True
  | .disconnect agentId =>
    ∀ p, r.agentConfigs[agentId]? = some p → ∃ c : BsCapability, c.Required ∧ c ∈ p.2.capabilities

variable {r r' : Rib}

theorem noneCompletable_empty : NoneCompletable {} := by
  intro b _ hcovers
  obtain ⟨x, a, ha⟩ := hcovers.nonempty
  simp at ha

namespace NoneCompletable

/-- A new pending agent changes the pending agents of its own base station only. -/
theorem of_pend {x : ℕ} {a : AgentInfo} (h : NoneCompletable r) (hfresh : ∀ b, ¬ r.Live x b)
    {b : UInt64} (hb : b ≠ a.bsId) (hnone : r.eNBConfigs[b]? = none) :
    ¬ Covers ((r.pend x a).pendingOf b) := by
  intro hcovers
  refine h b hnone (hcovers.mono fun y c hc => ?_)
  obtain ⟨hc, hcb⟩ := getElem?_pendingOf.mp hc
  rw [getElem?_pend hfresh] at hc
  by_cases hy : y = x
  · rw [if_pos hy] at hc
    obtain rfl := Option.some.inj hc
    exact absurd hcb.symm hb
  · rw [if_neg hy] at hc
    exact getElem?_pendingOf.mpr ⟨hc, hcb⟩

theorem withdrawn (h : NoneCompletable r) (x : ℕ) :
    NoneCompletable { r with pendingAgents := r.pendingAgents.erase x } := by
  intro b hnone hcovers
  refine h b hnone (hcovers.mono fun y c hc => ?_)
  obtain ⟨hc, hcb⟩ := getElem?_pendingOf.mp hc
  exact getElem?_pendingOf.mpr ⟨(getElem?_erase_pending.mp hc).2, hcb⟩

end NoneCompletable

/-- The pending agents of a dissolved base station are its surviving members. -/
theorem pendingOf_dissolved {p : AgentPtr} {bs : EnbRibInfo} (h : Inv r)
    (hbs : r.eNBConfigs[p.2.bsId]? = some bs) (hd : Dissolved r p bs r') {x : ℕ} {a : AgentInfo} :
    (r'.pendingOf p.2.bsId)[x]? = some a ↔ x ≠ p.1 ∧ bs.agents[x]? = some a := by
  rw [getElem?_pendingOf]
  constructor
  · rintro ⟨ha, hb⟩
    rcases hd.pending ha with ha | ha
    · have hnone := h.pending_new x a ha
      rw [hb, hbs] at hnone
      exact absurd hnone (by simp)
    · exact ha
  · rintro ⟨hx, ha⟩
    refine ⟨?_, (h.baseStation _ bs hbs).members x a ha⟩
    rw [hd.pendingAgents, h.pending_ne_member hbs ha, if_neg hx, ha]
    rfl

/-- The survivors are complete exactly when no required capability left with the agent. -/
theorem covers_survivors_iff {p : AgentPtr} {bs : EnbRibInfo} (h : Inv r)
    (hbs : r.eNBConfigs[p.2.bsId]? = some bs) (hp : bs.agents[p.1]? = some p.2)
    (hd : Dissolved r p bs r') :
    Covers (r'.pendingOf p.2.bsId) ↔ ∀ c : BsCapability, c.Required → c ∉ p.2.capabilities := by
  have hsound := h.baseStation _ bs hbs
  constructor
  · intro hcovers c hc hcp
    obtain ⟨x, a, ha, hca⟩ := hcovers c hc
    obtain ⟨hx, ha⟩ := (pendingOf_dissolved h hbs hd).mp ha
    exact AgentCapabilities.orthogonal_iff.mp (hsound.orthogonal x p.1 a p.2 ha hp hx) c hca hcp
  · intro hnone c hc
    obtain ⟨x, a, ha, hca⟩ := hsound.covers c hc
    refine ⟨x, a, (pendingOf_dissolved h hbs hd).mpr ⟨?_, ha⟩, hca⟩
    rintro rfl
    obtain rfl : a = p.2 := Option.some.inj (ha.symm.trans hp)
    exact hnone c hc hca

/-- Dissolving a base station leaves the pending agents of the others alone. -/
theorem covers_of_dissolved {p : AgentPtr} {bs : EnbRibInfo} (h : Inv r)
    (hbs : r.eNBConfigs[p.2.bsId]? = some bs) (hd : Dissolved r p bs r') {b : UInt64}
    (hb : b ≠ p.2.bsId) (hcovers : Covers (r'.pendingOf b)) : Covers (r.pendingOf b) := by
  refine hcovers.mono fun x a ha => ?_
  obtain ⟨ha, hab⟩ := getElem?_pendingOf.mp ha
  rcases hd.pending ha with ha | ⟨_, ha⟩
  · exact getElem?_pendingOf.mpr ⟨ha, hab⟩
  · exact absurd (hab.symm.trans ((h.baseStation _ bs hbs).members x a ha)) hb

namespace NoneCompletable

/-- An agent whose base station is still incomplete waits. -/
theorem wait {x : ℕ} {a : AgentInfo} (h : NoneCompletable r) (hfresh : ∀ b, ¬ r.Live x b)
    (hnot : ¬ Covers ((r.pend x a).pendingOf a.bsId)) : NoneCompletable (r.pend x a) := by
  intro b hnone
  by_cases hb : b = a.bsId
  · rw [hb]
    exact hnot
  · exact h.of_pend hfresh hb hnone

/-- Forming the base station of a new pending agent leaves no other one completable. -/
theorem form {x : ℕ} {a : AgentInfo} (h : NoneCompletable r) (hfresh : ∀ b, ¬ r.Live x b)
    (hnew : r.eNBConfigs[a.bsId]? = none) : NoneCompletable ((r.pend x a).form a.bsId) := by
  intro b hnone hcovers
  rw [getElem?_eNBConfigs_form] at hnone
  split at hnone
  · exact absurd hnone (by simp)
  · rename_i hb
    have hne : b ≠ a.bsId := fun heq => hb ⟨heq, hnew⟩
    apply h.of_pend hfresh hne hnone
    refine hcovers.mono fun y c hc => ?_
    obtain ⟨hc, hcb⟩ := getElem?_pendingOf.mp hc
    exact getElem?_pendingOf.mpr ⟨(getElem?_pendingAgents_form.mp hc).1, hcb⟩

/-- The survivors of a dissolved base station are incomplete exactly when the agent that left
had a required capability. -/
theorem dissolved_iff {p : AgentPtr} {bs : EnbRibInfo} (h : NoneCompletable r) (hinv : Inv r)
    (hbs : r.eNBConfigs[p.2.bsId]? = some bs) (hp : bs.agents[p.1]? = some p.2)
    (hd : Dissolved r p bs r') :
    NoneCompletable r' ↔ ∃ c : BsCapability, c.Required ∧ c ∈ p.2.capabilities := by
  have hgone : r'.eNBConfigs[p.2.bsId]? = none := by
    rw [hd.getElem?_eNBConfigs, if_pos rfl]
  constructor
  · intro h'
    by_contra hno
    apply h' p.2.bsId hgone
    rw [covers_survivors_iff hinv hbs hp hd]
    intro c hc hcp
    exact hno ⟨c, hc, hcp⟩
  · rintro ⟨c, hc, hcp⟩ b hnone hcovers
    by_cases hb : b = p.2.bsId
    · rw [hb] at hcovers
      exact (covers_survivors_iff hinv hbs hp hd).mp hcovers c hc hcp
    · rw [hd.getElem?_eNBConfigs, if_neg hb] at hnone
      exact h b hnone (covers_of_dissolved hinv hbs hd hb hcovers)

theorem outcome_iff {e : RibEvent} {eff : List Effect} (h : NoneCompletable r)
    (hinv : Inv r) (ho : Outcome r e r' eff) : NoneCompletable r' ↔ LeavesGap r e := by
  cases ho with
  | rejected _ => exact iff_of_true h trivial
  | waiting x _ hfresh hnot => exact iff_of_true (h.wait hfresh hnot) trivial
  | formed x hacc hfresh _ => exact iff_of_true (h.form hfresh hacc.new_bs) trivial
  | dissolved hp hbs hd =>
    obtain ⟨bs', hbs', hmem⟩ := hinv.active _ _ hp
    obtain rfl := Option.some.inj (hbs.symm.trans hbs')
    rw [h.dissolved_iff hinv hbs hmem hd]
    simp [LeavesGap, hp]
  | withdrawn x hnone _ _ => exact iff_of_true (h.withdrawn x) (by simp [LeavesGap, hnone])
  | unknown hnone _ => exact iff_of_true h (by simp [LeavesGap, hnone])

end NoneCompletable

/-- No completable base station stays pending in any state of a run exactly when every active
agent that disconnects in it had a required capability. -/
theorem always_noneCompletable_iff (events : List RibEvent) :
    Always ribStep {} NoneCompletable events ↔ EachStep ribStep {} LeavesGap events :=
  always_iff_eachStep inv_empty noneCompletable_empty
    (fun _ _ _ hs hstep => ribStep_inv hs hstep)
    (fun _ _ _ hs hP hstep => by
      obtain ⟨eff, ho⟩ := outcome_of_ribStep hs hstep
      exact hP.outcome_iff hs ho)
    (fun s e hs _ _ => by
      obtain ⟨t, _, ht, _⟩ := ribStep_outcome hs e
      exact ⟨t, ht⟩) events

/-- An agent with S1AP only, the other agent of its base station, and the first one's
disconnect. -/
def s1apLeaves : List RibEvent :=
  [.hello 0 { bsId := some 1, capabilities := [.s1ap] } .successfulOutcome "" 0,
   .hello 1 { bsId := some 1 } .successfulOutcome "" 1,
   .disconnect 0]

/-- The survivor has all required capabilities and stays pending. -/
theorem not_always_noneCompletable_s1apLeaves :
    ¬ Always ribStep {} NoneCompletable s1apLeaves := by
  intro h
  have hfacts : (run ribStep {} s1apLeaves).map (fun r =>
      decide (r.eNBConfigs[(1 : UInt64)]?.isNone ∧
        ∃ e ∈ r.pendingAgents.toList, e.2.bsId = 1 ∧ e.2.capabilities.isComplete)) = .ok true := by
    decide
  obtain ⟨r, hrun, hnone, ⟨x, a⟩, ha, hb, hcomplete⟩ := exists_ok_of_decide hfacts
  refine h s1apLeaves r (List.prefix_refl _) hrun 1 (Option.isNone_iff_eq_none.mp hnone) ?_
  intro c hc
  exact ⟨x, a, getElem?_pendingOf.mpr ⟨mem_toList_iff.mp ha, hb⟩,
    AgentCapabilities.isComplete_iff.mp hcomplete c hc⟩

end FlexRan.Rib
