import FlexRan.Rib.Updater

/-!
# Soundness of the RAN information base

The containers of the RIB agree with each other in every state a run of hello and disconnect
messages reaches: a base station consists of orthogonal agents that cover all required
capabilities, pending agents of one base station are orthogonal and wait for a base station
that does not exist, and the active agents are members of the base stations.

`Inv` is the inductive form.  It adds what the proof of one clause needs of the others: active
agents are filed under their own id, and an address belongs to one object.

## Main definitions

* `Sound`: the three clauses on base stations, pending agents and active agents.
* `Inv`: the invariant of a step.
* `handleEvent_outcome`: under the invariant a handler takes one of the exits of `Outcome`.
-/
namespace FlexRan.Rib

set_option linter.dupNamespace false

open Lib Protocol Rib

/-- The base station filed under `b`. -/
structure SoundBs (b : UInt64) (bs : EnbRibInfo) : Prop where
  nonempty : ∃ (x : ℕ) (a : AgentInfo), bs.agents[x]? = some a
  members : ∀ (x : ℕ) (a : AgentInfo), bs.agents[x]? = some a → a.bsId = b
  orthogonal : PairwiseOrthogonal bs.agents
  covers : Covers bs.agents

structure Sound (r : Rib) : Prop where
  baseStation : ∀ (b : UInt64) bs, r.eNBConfigs[b]? = some bs → SoundBs b bs
  pending_orthogonal : ∀ b, PairwiseOrthogonal (r.pendingOf b)
  pending_new : ∀ (x : ℕ) a, r.pendingAgents[x]? = some a → r.eNBConfigs[a.bsId]? = none
  active : ∀ (id : ℤ) p, r.agentConfigs[id]? = some p →
    ∃ bs, r.eNBConfigs[p.2.bsId]? = some bs ∧ bs.agents[p.1]? = some p.2

structure Inv (r : Rib) : Prop extends Sound r where
  active_agentId : ∀ (id : ℤ) p, r.agentConfigs[id]? = some p → p.2.agentId = id
  bsId_ne_zero : ∀ (b : UInt64) bs, r.eNBConfigs[b]? = some bs → b ≠ 0
  pending_bsId_ne_zero : ∀ (x : ℕ) a, r.pendingAgents[x]? = some a → a.bsId ≠ 0
  object_unique : ∀ (x : ℕ) a b, r.Live x a → r.Live x b → a = b

theorem inv_empty : Inv {} where
  baseStation := by simp
  pending_orthogonal b x y a c := by simp
  pending_new := by simp
  active := by simp
  active_agentId := by simp
  bsId_ne_zero := by simp
  pending_bsId_ne_zero := by simp
  object_unique := by simp [Live]

variable {r r' : Rib}

namespace Inv

/-- An active agent belongs to a base station with a valid id. -/
theorem active_bsId_ne_zero (h : Inv r) {id : ℤ} {p : AgentPtr}
    (hp : r.agentConfigs[id]? = some p) : p.2.bsId ≠ 0 := by
  obtain ⟨bs, hbs, _⟩ := h.active id p hp
  exact h.bsId_ne_zero _ bs hbs

/-- Pending agents are not at the addresses of members of a base station. -/
theorem pending_ne_member (h : Inv r) {x : ℕ} {a : AgentInfo} {b : UInt64} {bs : EnbRibInfo}
    (hbs : r.eNBConfigs[b]? = some bs) (ha : bs.agents[x]? = some a) :
    r.pendingAgents[x]? = none := by
  by_contra hne
  obtain ⟨c, hc⟩ := Option.ne_none_iff_exists'.mp hne
  have hac : a = c := h.object_unique x a c (.inr (.inl ⟨b, bs, hbs, ha⟩)) (.inl hc)
  have hb : a.bsId = b := (h.baseStation b bs hbs).members x a ha
  have hnone : r.eNBConfigs[c.bsId]? = none := h.pending_new x c hc
  rw [← hac, hb, hbs] at hnone
  exact absurd hnone (by simp)

end Inv

/-! ## One step -/

section Pend

variable {x : ℕ} {a : AgentInfo} {dir : FlexranDirection}

theorem live_pend_iff (hfresh : ∀ b, ¬ r.Live x b) {y : ℕ} {b : AgentInfo} :
    (r.pend x a).Live y b ↔ (y = x ∧ b = a) ∨ r.Live y b := by
  have hpend : (r.pend x a).pendingAgents[y]? = some b ↔
      (y = x ∧ b = a) ∨ r.pendingAgents[y]? = some b := by
    rw [getElem?_pend hfresh]
    by_cases hy : y = x
    · have hx : r.pendingAgents[x]? ≠ some b := fun hb => hfresh b (.inl hb)
      simp [hy, hx, eq_comm]
    · simp [hy]
  unfold Live
  rw [hpend, or_assoc]
  rfl

theorem Inv.pend (h : Inv r) (haccepts : r.Accepts dir a) (hfresh : ∀ b, ¬ r.Live x b) :
    Inv (r.pend x a) where
  baseStation := h.baseStation
  active := h.active
  active_agentId := h.active_agentId
  bsId_ne_zero := h.bsId_ne_zero
  pending_orthogonal b y z c d hc hd hne := by
    simp only [getElem?_pendingOf, getElem?_pend hfresh] at hc hd
    obtain ⟨hc, rfl⟩ := hc
    obtain ⟨hd, hcd⟩ := hd
    -- the new agent is orthogonal to every pending one, the others are to each other
    by_cases hy : y = x
    · obtain rfl : a = c := by simpa [hy] using hc
      have hz : z ≠ x := fun hz => hne (hy.trans hz.symm)
      rw [AgentCapabilities.orthogonal_comm]
      exact haccepts.admissible.orthogonal z d (by simpa [hz] using hd) hcd
    · by_cases hz : z = x
      · obtain rfl : a = d := by simpa [hz] using hd
        exact haccepts.admissible.orthogonal y c (by simpa [hy] using hc) hcd.symm
      · rw [if_neg hy] at hc
        rw [if_neg hz] at hd
        exact h.pending_orthogonal c.bsId y z c d (getElem?_pendingOf.mpr ⟨hc, rfl⟩)
          (getElem?_pendingOf.mpr ⟨hd, hcd⟩) hne
  pending_new y c hc := by
    rw [getElem?_pend hfresh] at hc
    by_cases hy : y = x
    · obtain rfl : a = c := by simpa [hy] using hc
      exact haccepts.new_bs
    · exact h.pending_new y c (by simpa [hy] using hc)
  pending_bsId_ne_zero y c hc := by
    rw [getElem?_pend hfresh] at hc
    by_cases hy : y = x
    · obtain rfl : a = c := by simpa [hy] using hc
      exact haccepts.admissible.bsId_ne_zero
    · exact h.pending_bsId_ne_zero y c (by simpa [hy] using hc)
  object_unique y c d hc hd := by
    rcases (live_pend_iff hfresh).mp hc with ⟨rfl, rfl⟩ | hc'
    · rcases (live_pend_iff hfresh).mp hd with ⟨_, rfl⟩ | hd'
      · rfl
      · exact absurd hd' (hfresh d)
    · rcases (live_pend_iff hfresh).mp hd with ⟨rfl, rfl⟩ | hd'
      · exact absurd hc' (hfresh c)
      · exact h.object_unique y c d hc' hd'

end Pend

/-- Forming a new base station moves objects; it neither creates nor loses one. -/
theorem live_form_iff {b : UInt64} (hnew : r.eNBConfigs[b]? = none) {x : ℕ} {a : AgentInfo} :
    (r.form b).Live x a ↔ r.Live x a := by
  constructor
  · rintro (h | ⟨c, bs, hbs, ha⟩ | ⟨id, h⟩)
    · exact .inl (getElem?_pendingAgents_form.mp h).1
    · rw [getElem?_eNBConfigs_form] at hbs
      split at hbs
      · obtain rfl := Option.some.inj hbs
        exact .inl (getElem?_pendingOf.mp ha).1
      · exact .inr (.inl ⟨c, bs, hbs, ha⟩)
    · rcases getElem?_agentConfigs_form h with h | ⟨_, h, _⟩
      · exact .inr (.inr ⟨id, h⟩)
      · exact .inl h
  · rintro (h | ⟨c, bs, hbs, ha⟩ | ⟨id, h⟩)
    · by_cases hab : a.bsId = b
      · refine .inr (.inl ⟨b, { bsId := b, agents := r.pendingOf b }, ?_,
          getElem?_pendingOf.mpr ⟨h, hab⟩⟩)
        rw [getElem?_eNBConfigs_form, if_pos ⟨rfl, hnew⟩]
      · exact .inl (getElem?_pendingAgents_form.mpr ⟨h, hab⟩)
    · refine .inr (.inl ⟨c, bs, ?_, ha⟩)
      have hne : c ≠ b := by
        rintro rfl
        rw [hnew] at hbs
        exact absurd hbs (by simp)
      rw [getElem?_eNBConfigs_form, if_neg fun hc => hne hc.1]
      exact hbs
    · exact .inr (.inr ⟨id, getElem?_agentConfigs_form_of_some h⟩)

theorem Inv.form {b : UInt64} (h : Inv r) (hnew : r.eNBConfigs[b]? = none)
    (hcovers : Covers (r.pendingOf b)) : Inv (r.form b) where
  baseStation c bs hbs := by
    rw [getElem?_eNBConfigs_form] at hbs
    split at hbs
    · rename_i hc
      obtain rfl := Option.some.inj hbs
      exact
        { nonempty := hcovers.nonempty
          members := fun x a ha => by rw [hc.1]; exact (getElem?_pendingOf.mp ha).2
          orthogonal := h.pending_orthogonal b
          covers := hcovers }
    · exact h.baseStation c bs hbs
  pending_orthogonal c := (h.pending_orthogonal c).mono fun x a ha => by
    obtain ⟨ha, hac⟩ := getElem?_pendingOf.mp ha
    exact getElem?_pendingOf.mpr ⟨(getElem?_pendingAgents_form.mp ha).1, hac⟩
  pending_new x a ha := by
    obtain ⟨ha, hne⟩ := getElem?_pendingAgents_form.mp ha
    rw [getElem?_eNBConfigs_form, if_neg fun hc => hne hc.1]
    exact h.pending_new x a ha
  active id p hp := by
    rcases getElem?_agentConfigs_form hp with hp | ⟨_, ha, hb, _⟩
    · obtain ⟨bs, hbs, hmem⟩ := h.active id p hp
      refine ⟨bs, ?_, hmem⟩
      have hne : p.2.bsId ≠ b := by
        rintro rfl
        rw [hnew] at hbs
        exact absurd hbs (by simp)
      rw [getElem?_eNBConfigs_form, if_neg fun hc => hne hc.1]
      exact hbs
    · refine ⟨{ bsId := b, agents := r.pendingOf b }, ?_, getElem?_pendingOf.mpr ⟨ha, hb⟩⟩
      rw [getElem?_eNBConfigs_form, if_pos ⟨hb, hnew⟩]
  active_agentId id p hp := by
    rcases getElem?_agentConfigs_form hp with hp | ⟨_, _, _, hid⟩
    · exact h.active_agentId id p hp
    · exact hid
  bsId_ne_zero c bs hbs := by
    rw [getElem?_eNBConfigs_form] at hbs
    split at hbs
    · rename_i hc
      obtain ⟨x, a, ha⟩ := hcovers.nonempty
      obtain ⟨ha, hab⟩ := getElem?_pendingOf.mp ha
      rw [hc.1, ← hab]
      exact h.pending_bsId_ne_zero x a ha
    · exact h.bsId_ne_zero c bs hbs
  pending_bsId_ne_zero x a ha :=
    h.pending_bsId_ne_zero x a (getElem?_pendingAgents_form.mp ha).1
  object_unique x a c ha hc :=
    h.object_unique x a c ((live_form_iff hnew).mp ha) ((live_form_iff hnew).mp hc)

namespace Rib.Dissolved

variable {p : AgentPtr} {bs : EnbRibInfo}

theorem getElem?_eNBConfigs (h : Dissolved r p bs r') (b : UInt64) :
    r'.eNBConfigs[b]? = if b = p.2.bsId then none else r.eNBConfigs[b]? := by
  rw [h.eNBConfigs, Std.ExtTreeMap.getElem?_erase]
  by_cases hb : b = p.2.bsId
  · simp [hb]
  · simp [hb, Ne.symm hb]

/-- A pending agent afterwards was pending before, or it has lost its base station. -/
theorem pending (h : Dissolved r p bs r') {x : ℕ} {a : AgentInfo}
    (ha : r'.pendingAgents[x]? = some a) :
    r.pendingAgents[x]? = some a ∨ (x ≠ p.1 ∧ bs.agents[x]? = some a) := by
  rw [h.pendingAgents, Option.or_eq_some_iff] at ha
  rcases ha with ha | ⟨_, ha⟩
  · exact .inl ha
  · by_cases hx : x = p.1
    · rw [if_pos hx] at ha
      exact absurd ha (by simp)
    · rw [if_neg hx] at ha
      exact .inr ⟨hx, ha⟩

end Rib.Dissolved

theorem live_of_dissolved {p : AgentPtr} {bs : EnbRibInfo} (h : Dissolved r p bs r')
    (hbs : r.eNBConfigs[p.2.bsId]? = some bs) {x : ℕ} {a : AgentInfo} (ha : r'.Live x a) :
    r.Live x a := by
  rcases ha with ha | ⟨b, c, hc, ha⟩ | ⟨id, ha⟩
  · rcases h.pending ha with ha | ⟨_, ha⟩
    · exact .inl ha
    · exact .inr (.inl ⟨_, bs, hbs, ha⟩)
  · rw [h.getElem?_eNBConfigs] at hc
    split at hc
    · exact absurd hc (by simp)
    · exact .inr (.inl ⟨b, c, hc, ha⟩)
  · exact .inr (.inr ⟨id, ((h.agentConfigs id _).mp ha).1⟩)

theorem Inv.dissolved {p : AgentPtr} {bs : EnbRibInfo} (h : Inv r)
    (hbs : r.eNBConfigs[p.2.bsId]? = some bs) (hd : Dissolved r p bs r') : Inv r' where
  baseStation b c hc := by
    rw [hd.getElem?_eNBConfigs] at hc
    split at hc
    · exact absurd hc (by simp)
    · exact h.baseStation b c hc
  pending_orthogonal b x y a c hax hcy hne := by
    obtain ⟨ha, rfl⟩ := getElem?_pendingOf.mp hax
    obtain ⟨hc, hca⟩ := getElem?_pendingOf.mp hcy
    have hmem := (h.baseStation _ bs hbs).members
    -- old pending agents wait for other base stations than the one that is dissolved
    have hold : ∀ (z : ℕ) d, r.pendingAgents[z]? = some d → d.bsId ≠ p.2.bsId := by
      intro z d hd hid
      have := h.pending_new z d hd
      rw [hid, hbs] at this
      exact absurd this (by simp)
    rcases hd.pending ha with ha | ⟨_, ha⟩
    · rcases hd.pending hc with hc | ⟨_, hc⟩
      · exact h.pending_orthogonal a.bsId x y a c (getElem?_pendingOf.mpr ⟨ha, rfl⟩)
          (getElem?_pendingOf.mpr ⟨hc, hca⟩) hne
      · exact absurd (hca.symm.trans (hmem y c hc)) (hold x a ha)
    · rcases hd.pending hc with hc | ⟨_, hc⟩
      · exact absurd (hca.trans (hmem x a ha)) (hold y c hc)
      · exact (h.baseStation _ bs hbs).orthogonal x y a c ha hc hne
  pending_new x a ha := by
    rw [hd.getElem?_eNBConfigs]
    rcases hd.pending ha with ha | ⟨_, ha⟩
    · rw [h.pending_new x a ha, ite_self]
    · rw [if_pos ((h.baseStation _ bs hbs).members x a ha)]
  active id q hq := by
    obtain ⟨hq, hgone⟩ := (hd.agentConfigs id q).mp hq
    obtain ⟨c, hc, hmem⟩ := h.active id q hq
    have hne : q.2.bsId ≠ p.2.bsId := by
      intro heq
      rw [heq, hbs] at hc
      obtain rfl := Option.some.inj hc
      exact hgone q.1 q.2 hmem (h.active_agentId id q hq)
    exact ⟨c, by rw [hd.getElem?_eNBConfigs, if_neg hne]; exact hc, hmem⟩
  active_agentId id q hq := h.active_agentId id q ((hd.agentConfigs id q).mp hq).1
  bsId_ne_zero b c hc := by
    rw [hd.getElem?_eNBConfigs] at hc
    split at hc
    · exact absurd hc (by simp)
    · exact h.bsId_ne_zero b c hc
  pending_bsId_ne_zero x a ha := by
    rcases hd.pending ha with ha | ⟨_, ha⟩
    · exact h.pending_bsId_ne_zero x a ha
    · rw [(h.baseStation _ bs hbs).members x a ha]
      exact h.bsId_ne_zero _ bs hbs
  object_unique x a c ha hc :=
    h.object_unique x a c (live_of_dissolved hd hbs ha) (live_of_dissolved hd hbs hc)

theorem getElem?_erase_pending {x y : ℕ} {a : AgentInfo} :
    (r.pendingAgents.erase x)[y]? = some a ↔ y ≠ x ∧ r.pendingAgents[y]? = some a := by
  rw [Std.ExtTreeMap.getElem?_erase]
  by_cases hy : y = x
  · simp [hy]
  · simp [hy, Ne.symm hy]

theorem Inv.withdrawn (h : Inv r) (x : ℕ) :
    Inv { r with pendingAgents := r.pendingAgents.erase x } where
  baseStation := h.baseStation
  pending_orthogonal b := (h.pending_orthogonal b).mono fun y a ha => by
    obtain ⟨ha, hab⟩ := getElem?_pendingOf.mp ha
    exact getElem?_pendingOf.mpr ⟨(getElem?_erase_pending.mp ha).2, hab⟩
  pending_new y a ha := h.pending_new y a (getElem?_erase_pending.mp ha).2
  active := h.active
  active_agentId := h.active_agentId
  bsId_ne_zero := h.bsId_ne_zero
  pending_bsId_ne_zero y a ha := h.pending_bsId_ne_zero y a (getElem?_erase_pending.mp ha).2
  object_unique y a c ha hc := by
    have hlive : ∀ d, Live { r with pendingAgents := r.pendingAgents.erase x } y d →
        r.Live y d := by
      rintro d (hd | hd | hd)
      · exact .inl (getElem?_erase_pending.mp hd).2
      · exact .inr (.inl hd)
      · exact .inr (.inr hd)
    exact h.object_unique y a c (hlive a ha) (hlive c hc)

theorem Outcome.inv {e : RibEvent} {eff : List Effect} (h : Inv r) (ho : Outcome r e r' eff) :
    Inv r' := by
  cases ho with
  | rejected _ => exact h
  | waiting x haccepts hfresh _ => exact h.pend haccepts hfresh
  | formed x haccepts hfresh hcovers =>
    exact (h.pend haccepts hfresh).form haccepts.new_bs hcovers
  | dissolved _ hbs hd => exact h.dissolved hbs hd
  | withdrawn x _ _ _ => exact h.withdrawn x
  | unknown _ _ => exact h

/-! ## Handlers -/

theorem handleHello_outcome (h : Inv r) (agentId : ℤ) (m : FlexHello) (dir : FlexranDirection)
    (endpoint : String) (want : ℕ) :
    ∃ r' eff, handleHello r agentId m dir endpoint want = .ok (r', eff) ∧
      Outcome r (.hello agentId m dir endpoint want) r' eff := by
  by_cases haccepts : r.Accepts dir (helloAgent agentId m endpoint)
  · have hfresh : ∀ b, ¬ r.Live (freshAddr want r.liveAddresses) b := fun b hb =>
      freshAddr_notMem want r.liveAddresses (mem_liveAddresses.mpr ⟨b, hb⟩)
    have hinv := h.pend haccepts hfresh
    rw [handleHello_accepted haccepts]
    rcases newENBConfigEntry_spec (hinv.pending_orthogonal (helloAgent agentId m endpoint).bsId)
      with ⟨_, hcovers, hnew⟩ | ⟨hnot, hnew⟩
    · exact ⟨_, _, by rw [hnew]; rfl, .formed _ haccepts hfresh hcovers⟩
    · have hcovers := fun hc => hnot ⟨haccepts.new_bs, hc⟩
      exact ⟨_, _, by rw [hnew]; rfl, .waiting _ haccepts hfresh hcovers⟩
  · exact ⟨r, _, handleHello_rejected haccepts, .rejected haccepts⟩

theorem handleDisconnect_outcome (h : Inv r) (agentId : ℤ) :
    ∃ r' eff, handleDisconnect r agentId = .ok (r', eff) ∧
      Outcome r (.disconnect agentId) r' eff := by
  cases hp : r.agentConfigs[agentId]? with
  | some p =>
    have hpos : p.2.bsId > 0 := by
      have := h.active_bsId_ne_zero hp
      exact UInt64.pos_iff_ne_zero.mpr this
    obtain ⟨bs, hbs, _⟩ := h.active agentId p hp
    obtain ⟨r', hr', hd⟩ := removeENBConfigEntry_spec hp hbs
    refine ⟨r', [.bsRemove p.2.bsId, .releaseConnection agentId], ?_, .dissolved hp hbs hd⟩
    simp [handleDisconnect, getBsId, hp, hpos, hr', bind, Except.bind, pure, Except.pure]
  | none =>
    have hzero : r.getBsId agentId = 0 := by simp [getBsId, hp]
    rcases removePendingAgent_eq r agentId with ⟨hr', hpend⟩ | ⟨x, a, ha, hid, hr'⟩
    · refine ⟨r, [.releaseConnection agentId], ?_, .unknown hp ?_⟩
      · simp [handleDisconnect, hzero, hpend, pure, Except.pure]
      · intro x a ha hid
        have : r.agentIsPending agentId = true := agentIsPending_iff.mpr ⟨x, a, ha, hid⟩
        simp [hpend] at this
    · have hpend : r.agentIsPending agentId = true := agentIsPending_iff.mpr ⟨x, a, ha, hid⟩
      refine ⟨_, _, ?_, .withdrawn x hp ha hid⟩
      simp [handleDisconnect, hzero, hpend, hr', pure, Except.pure]

theorem handleEvent_outcome (h : Inv r) (e : RibEvent) :
    ∃ r' eff, handleEvent r e = .ok (r', eff) ∧ Outcome r e r' eff := by
  cases e with
  | hello agentId m dir endpoint want => exact handleHello_outcome h agentId m dir endpoint want
  | disconnect agentId => exact handleDisconnect_outcome h agentId

/-- Under the invariant a step does not fault, and it takes one of the exits. -/
theorem ribStep_outcome (h : Inv r) (e : RibEvent) :
    ∃ r' eff, ribStep r e = .ok r' ∧ Outcome r e r' eff := by
  obtain ⟨r', eff, hr', ho⟩ := handleEvent_outcome h e
  exact ⟨r', eff, by rw [ribStep, hr']; rfl, ho⟩

theorem outcome_of_ribStep (h : Inv r) {e : RibEvent} (hstep : ribStep r e = .ok r') :
    ∃ eff, Outcome r e r' eff := by
  obtain ⟨r'', eff, hr'', ho⟩ := ribStep_outcome h e
  obtain rfl : r'' = r' := Except.ok.inj (hr''.symm.trans hstep)
  exact ⟨eff, ho⟩

theorem ribStep_inv (h : Inv r) {e : RibEvent} (hstep : ribStep r e = .ok r') : Inv r' := by
  obtain ⟨eff, ho⟩ := outcome_of_ribStep h hstep
  exact ho.inv h

/-! ## Runs -/

/-- Every run of hello and disconnect messages ends in a state where the containers agree, and
none of its steps throws or dereferences a missing base station. -/
theorem run_ribStep_sound (events : List RibEvent) :
    ∃ r, run ribStep {} events = .ok r ∧ Sound r := by
  obtain ⟨r, hr, hinv⟩ := run_total (fun s e (hs : Inv s) => by
    obtain ⟨t, eff, ht, ho⟩ := ribStep_outcome hs e
    exact ⟨t, ht, ho.inv hs⟩) inv_empty events
  exact ⟨r, hr, hinv.toSound⟩

end FlexRan.Rib
