import FlexRan.Rib.Soundness

/-!
# The directory of agents

Agents are kept redundantly: by base station, by agent id and in the pending set.  The
directory is exact when active agents and members of base stations mirror each other and no
agent id occurs twice.

An agent may say hello again.  The handler asks whether the agent is pending, not whether it
is active, so that an active agent that announces another base station breaks the mirror.
`always_exactDirectory_iff` shows that this is the only way: the directory is exact in all
states of a run exactly when no accepted hello comes from an active agent.

## Main definitions

* `ExactDirectory`: the mirror.
* `HelloOnce`: the guard of a step.
* `Mentions`: an agent id occurs in the pending set or in a base station.
-/
namespace FlexRan.Rib

set_option linter.dupNamespace false

open Lib Protocol Rib

namespace Rib

/-- The object `a` at `x` is in the agent set of base station `b`. -/
def MemberOf (r : Rib) (b : UInt64) (x : ℕ) (a : AgentInfo) : Prop :=
  ∃ bs, r.eNBConfigs[b]? = some bs ∧ bs.agents[x]? = some a

/-- Base station `b` has an agent with this id. -/
def hasMember (r : Rib) (b : UInt64) (agentId : ℤ) : Bool :=
  match r.eNBConfigs[b]? with
  | none => false
  | some bs => bs.agents.toList.any fun e => e.2.agentId == agentId

theorem hasMember_iff {r : Rib} {b : UInt64} {agentId : ℤ} :
    r.hasMember b agentId = true ↔ ∃ x a, r.MemberOf b x a ∧ a.agentId = agentId := by
  unfold hasMember MemberOf
  cases r.eNBConfigs[b]? with
  | none => simp
  | some bs => simp

/-- A pending agent or a member of a base station has this agent id. -/
def Mentions (r : Rib) (agentId : ℤ) : Prop :=
  (∃ (x : ℕ) (a : AgentInfo), r.pendingAgents[x]? = some a ∧ a.agentId = agentId) ∨
  ∃ b x a, r.MemberOf b x a ∧ a.agentId = agentId

end Rib

structure ExactDirectory (r : Rib) : Prop where
  mirror : ∀ x a, (∃ b, r.MemberOf b x a) ↔ r.agentConfigs[a.agentId]? = some (x, a)
  one_bs : ∀ b c x y a d, r.MemberOf b x a → r.MemberOf c y d → a.agentId = d.agentId → b = c
  pending_once : ∀ (x y : ℕ) (a d : AgentInfo), r.pendingAgents[x]? = some a →
    r.pendingAgents[y]? = some d → a.agentId = d.agentId → x = y
  not_both : ∀ (x : ℕ) (a : AgentInfo) b y d, r.pendingAgents[x]? = some a → r.MemberOf b y d →
    a.agentId ≠ d.agentId

/-- A hello that is accepted does not come from an active agent. -/
def HelloOnce (r : Rib) : RibEvent → Prop
  | .hello agentId m dir endpoint _ =>
    r.Accepts dir (helloAgent agentId m endpoint) → r.agentConfigs[agentId]? = none
  | .disconnect _ => True

theorem exactDirectory_empty : ExactDirectory {} where
  mirror := by simp [MemberOf]
  one_bs := by simp [MemberOf]
  pending_once := by simp
  not_both := by simp

variable {r r' : Rib}

theorem Inv.memberOf_active (h : Inv r) {id : ℤ} {p : AgentPtr}
    (hp : r.agentConfigs[id]? = some p) : r.MemberOf p.2.bsId p.1 p.2 := h.active id p hp

theorem Inv.bsId_of_memberOf (h : Inv r) {b : UInt64} {x : ℕ} {a : AgentInfo}
    (ha : r.MemberOf b x a) : a.bsId = b := by
  obtain ⟨bs, hbs, ha⟩ := ha
  exact (h.baseStation b bs hbs).members x a ha

namespace ExactDirectory

/-- In an exact directory a pending agent has no entry among the active ones. -/
theorem pending_not_active (h : ExactDirectory r) (hinv : Inv r) {x : ℕ} {a : AgentInfo}
    (ha : r.pendingAgents[x]? = some a) : r.agentConfigs[a.agentId]? = none := by
  by_contra hne
  obtain ⟨p, hp⟩ := Option.ne_none_iff_exists'.mp hne
  exact h.not_both x a _ p.1 p.2 ha (hinv.memberOf_active hp) (hinv.active_agentId _ p hp).symm

/-- The agent ids of the members identify the objects. -/
theorem member_unique (h : ExactDirectory r) {b c : UInt64} {x y : ℕ} {a d : AgentInfo}
    (ha : r.MemberOf b x a) (hd : r.MemberOf c y d) (hid : a.agentId = d.agentId) :
    x = y ∧ a = d := by
  have hxa := (h.mirror x a).mp ⟨b, ha⟩
  have hyd := (h.mirror y d).mp ⟨c, hd⟩
  rw [hid, hyd] at hxa
  simpa [eq_comm] using hxa

/-! ## Hello -/

theorem pend (h : ExactDirectory r) {x : ℕ} {a : AgentInfo} {dir : FlexranDirection}
    (haccepts : r.Accepts dir a) (hfresh : ∀ b, ¬ r.Live x b)
    (hnone : r.agentConfigs[a.agentId]? = none) : ExactDirectory (r.pend x a) where
  mirror := h.mirror
  one_bs := h.one_bs
  pending_once y z c d hc hd hid := by
    rw [getElem?_pend hfresh] at hc hd
    by_cases hy : y = x
    · obtain rfl : a = c := by simpa [hy] using hc
      by_cases hz : z = x
      · exact hy.trans hz.symm
      · exact absurd hid.symm (haccepts.admissible.not_pending z d (by simpa [hz] using hd))
    · by_cases hz : z = x
      · obtain rfl : a = d := by simpa [hz] using hd
        exact absurd hid (haccepts.admissible.not_pending y c (by simpa [hy] using hc))
      · exact h.pending_once y z c d (by simpa [hy] using hc) (by simpa [hz] using hd) hid
  not_both y c b z d hc hd hid := by
    rw [getElem?_pend hfresh] at hc
    by_cases hy : y = x
    · obtain rfl : a = c := by simpa [hy] using hc
      rw [hid, (h.mirror z d).mp ⟨b, hd⟩] at hnone
      exact absurd hnone (by simp)
    · exact h.not_both y c b z d (by simpa [hy] using hc) hd hid

end ExactDirectory

/-- The members after forming `b` are the old ones and the pending agents of `b`. -/
theorem memberOf_form {b c : UInt64} (hnew : r.eNBConfigs[b]? = none) {x : ℕ} {a : AgentInfo} :
    (r.form b).MemberOf c x a ↔
      r.MemberOf c x a ∨ (c = b ∧ r.pendingAgents[x]? = some a ∧ a.bsId = b) := by
  unfold MemberOf
  rw [getElem?_eNBConfigs_form]
  by_cases hc : c = b
  · subst hc
    simp [hnew]
  · simp [hc]

namespace ExactDirectory

theorem getElem?_agentConfigs_form (h : ExactDirectory r) (hinv : Inv r) {b : UInt64} {id : ℤ}
    {x : ℕ} {a : AgentInfo} :
    (r.form b).agentConfigs[id]? = some (x, a) ↔ r.agentConfigs[id]? = some (x, a) ∨
      (r.pendingAgents[x]? = some a ∧ a.bsId = b ∧ a.agentId = id) := by
  constructor
  · intro ha
    rcases Rib.getElem?_agentConfigs_form ha with ha | ⟨_, ha⟩
    · exact .inl ha
    · exact .inr ha
  · rintro (ha | ⟨ha, hb, rfl⟩)
    · exact getElem?_agentConfigs_form_of_some ha
    · obtain ⟨q, hq⟩ := Option.isSome_iff_exists.mp (isSome_agentConfigs_form ha hb)
      rcases Rib.getElem?_agentConfigs_form hq with hq' | ⟨_, hq', _, hid⟩
      · rw [h.pending_not_active hinv ha] at hq'
        exact absurd hq' (by simp)
      · obtain rfl : q.1 = x := h.pending_once q.1 x q.2 a hq' ha hid
        obtain rfl : q.2 = a := Option.some.inj (hq'.symm.trans ha)
        exact hq

theorem form (h : ExactDirectory r) (hinv : Inv r) {b : UInt64} (hnew : r.eNBConfigs[b]? = none) :
    ExactDirectory (r.form b) where
  mirror x a := by
    rw [h.getElem?_agentConfigs_form hinv, ← h.mirror]
    simp only [memberOf_form hnew]
    constructor
    · rintro ⟨c, hc | ⟨_, hc, hb⟩⟩
      · exact .inl ⟨c, hc⟩
      · exact .inr ⟨hc, hb, trivial⟩
    · rintro (⟨c, hc⟩ | ⟨hc, hb, _⟩)
      · exact ⟨c, .inl hc⟩
      · exact ⟨b, .inr ⟨rfl, hc, hb⟩⟩
  one_bs c c' x y a d ha hd hid := by
    rw [memberOf_form hnew] at ha hd
    rcases ha with ha | ⟨rfl, ha, _⟩
    · rcases hd with hd | ⟨_, hd, _⟩
      · exact h.one_bs c c' x y a d ha hd hid
      · exact absurd hid.symm (h.not_both y d c x a hd ha)
    · rcases hd with hd | ⟨rfl, _, _⟩
      · exact absurd hid (h.not_both x a c' y d ha hd)
      · rfl
  pending_once x y a d ha hd hid :=
    h.pending_once x y a d (getElem?_pendingAgents_form.mp ha).1
      (getElem?_pendingAgents_form.mp hd).1 hid
  not_both x a c y d ha hd hid := by
    obtain ⟨ha, hne⟩ := getElem?_pendingAgents_form.mp ha
    rcases (memberOf_form hnew).mp hd with hd | ⟨_, hd, hb⟩
    · exact h.not_both x a c y d ha hd hid
    · obtain rfl := h.pending_once x y a d ha hd hid
      obtain rfl : a = d := Option.some.inj (ha.symm.trans hd)
      exact hne hb

/-! ## Disconnect -/

section Dissolved

variable {p : AgentPtr} {bs : EnbRibInfo}

theorem memberOf_dissolved (hd : Dissolved r p bs r') {b : UInt64} {x : ℕ} {a : AgentInfo} :
    r'.MemberOf b x a ↔ b ≠ p.2.bsId ∧ r.MemberOf b x a := by
  unfold MemberOf
  rw [hd.getElem?_eNBConfigs]
  by_cases hb : b = p.2.bsId
  · simp [hb]
  · simp [hb]

theorem dissolved (h : ExactDirectory r)
    (hbs : r.eNBConfigs[p.2.bsId]? = some bs) (hd : Dissolved r p bs r') : ExactDirectory r' where
  mirror x a := by
    simp only [memberOf_dissolved hd, hd.agentConfigs, ← h.mirror]
    constructor
    · rintro ⟨b, hb, ha⟩
      refine ⟨⟨b, ha⟩, fun y c hc hid => hb ?_⟩
      exact h.one_bs b p.2.bsId x y a c ha ⟨bs, hbs, hc⟩ hid.symm
    · rintro ⟨⟨b, ha⟩, hgone⟩
      refine ⟨b, ?_, ha⟩
      rintro rfl
      obtain ⟨bs', hbs', ha⟩ := ha
      obtain rfl : bs = bs' := Option.some.inj (hbs.symm.trans hbs')
      exact hgone x a ha rfl
  one_bs b c x y a d ha hc hid :=
    h.one_bs b c x y a d ((memberOf_dissolved hd).mp ha).2 ((memberOf_dissolved hd).mp hc).2 hid
  pending_once x y a d ha hc hid := by
    rcases hd.pending ha with ha | ⟨_, ha⟩
    · rcases hd.pending hc with hc | ⟨_, hc⟩
      · exact h.pending_once x y a d ha hc hid
      · exact absurd hid (h.not_both x a _ y d ha ⟨bs, hbs, hc⟩)
    · rcases hd.pending hc with hc | ⟨_, hc⟩
      · exact absurd hid.symm (h.not_both y d _ x a hc ⟨bs, hbs, ha⟩)
      · exact (h.member_unique ⟨bs, hbs, ha⟩ ⟨bs, hbs, hc⟩ hid).1
  not_both x a b y d ha hm hid := by
    obtain ⟨hb, hm⟩ := (memberOf_dissolved hd).mp hm
    rcases hd.pending ha with ha | ⟨_, ha⟩
    · exact h.not_both x a b y d ha hm hid
    · exact hb (h.one_bs b p.2.bsId y x d a hm ⟨bs, hbs, ha⟩ hid.symm)

/-- The disconnected agent leaves with its base station. -/
theorem not_mentions_dissolved (h : ExactDirectory r) (hinv : Inv r) {id : ℤ}
    (hp : r.agentConfigs[id]? = some p) (hbs : r.eNBConfigs[p.2.bsId]? = some bs)
    (hd : Dissolved r p bs r') : ¬ r'.Mentions id := by
  have hid : p.2.agentId = id := hinv.active_agentId id p hp
  have hmem : r.MemberOf p.2.bsId p.1 p.2 := hinv.memberOf_active hp
  rintro (⟨x, a, ha, rfl⟩ | ⟨b, x, a, ha, rfl⟩)
  · rcases hd.pending ha with ha | ⟨hx, ha⟩
    · exact h.not_both x a _ p.1 p.2 ha hmem hid.symm
    · exact hx (h.member_unique ⟨bs, hbs, ha⟩ hmem hid.symm).1
  · obtain ⟨hb, ha⟩ := (memberOf_dissolved hd).mp ha
    exact hb (h.one_bs b p.2.bsId x p.1 a p.2 ha hmem hid.symm)

end Dissolved

theorem withdrawn (h : ExactDirectory r) (x : ℕ) :
    ExactDirectory { r with pendingAgents := r.pendingAgents.erase x } where
  mirror := h.mirror
  one_bs := h.one_bs
  pending_once y z a d ha hd hid :=
    h.pending_once y z a d (getElem?_erase_pending.mp ha).2 (getElem?_erase_pending.mp hd).2 hid
  not_both y a b z d ha hd hid :=
    h.not_both y a b z d (getElem?_erase_pending.mp ha).2 hd hid

/-- A member's id has an entry, so an id without one is mentioned by pending agents only. -/
theorem not_memberOf (h : ExactDirectory r) {id : ℤ} (hnone : r.agentConfigs[id]? = none)
    {b : UInt64} {x : ℕ} {a : AgentInfo} (ha : r.MemberOf b x a) : a.agentId ≠ id := by
  rintro rfl
  rw [(h.mirror x a).mp ⟨b, ha⟩] at hnone
  exact absurd hnone (by simp)

/-! ## Steps and runs -/

/-- An active agent that becomes pending again is in two places. -/
theorem not_of_pend_active {x : ℕ} {a : AgentInfo} (hinv : Inv r) (hfresh : ∀ b, ¬ r.Live x b)
    {p : AgentPtr} (hp : r.agentConfigs[a.agentId]? = some p) :
    ¬ ExactDirectory (r.pend x a) := by
  intro h'
  have hpend : (r.pend x a).pendingAgents[x]? = some a := by
    rw [getElem?_pend hfresh, if_pos rfl]
  exact h'.not_both x a p.2.bsId p.1 p.2 hpend (hinv.memberOf_active hp)
    (hinv.active_agentId a.agentId p hp).symm

/-- An active agent that forms another base station is a member of both. -/
theorem not_of_form_active {x : ℕ} {a : AgentInfo} (hinv : Inv r) (hfresh : ∀ b, ¬ r.Live x b)
    (hnew : r.eNBConfigs[a.bsId]? = none) {p : AgentPtr}
    (hp : r.agentConfigs[a.agentId]? = some p) :
    ¬ ExactDirectory ((r.pend x a).form a.bsId) := by
  intro h'
  have hold : r.MemberOf p.2.bsId p.1 p.2 := hinv.memberOf_active hp
  have hpend : (r.pend x a).pendingAgents[x]? = some a := by
    rw [getElem?_pend hfresh, if_pos rfl]
  have hnew' : (r.pend x a).eNBConfigs[a.bsId]? = none := hnew
  have hbs : p.2.bsId = a.bsId := by
    apply h'.one_bs p.2.bsId a.bsId p.1 x p.2 a
    · exact (memberOf_form hnew').mpr (.inl hold)
    · exact (memberOf_form hnew').mpr (.inr ⟨rfl, hpend, rfl⟩)
    · exact hinv.active_agentId a.agentId p hp
  obtain ⟨bs, hbs', _⟩ := hold
  rw [hbs, hnew] at hbs'
  exact absurd hbs' (by simp)

/-- A step keeps the directory exact exactly when its hello is not one of an active agent. -/
theorem outcome_iff {e : RibEvent} {eff : List Effect} (h : ExactDirectory r) (hinv : Inv r)
    (ho : Outcome r e r' eff) : ExactDirectory r' ↔ HelloOnce r e := by
  cases ho with
  | rejected hrej => exact iff_of_true h fun hacc => absurd hacc hrej
  | @waiting agentId m dir endpoint want x hacc hfresh _ =>
    constructor
    · intro h' _
      by_contra hne
      obtain ⟨p, hp⟩ := Option.ne_none_iff_exists'.mp hne
      exact not_of_pend_active (a := helloAgent agentId m endpoint) hinv hfresh hp h'
    · intro hnone
      exact h.pend hacc hfresh (hnone hacc)
  | @formed agentId m dir endpoint want x hacc hfresh _ =>
    constructor
    · intro h' _
      by_contra hne
      obtain ⟨p, hp⟩ := Option.ne_none_iff_exists'.mp hne
      exact not_of_form_active (a := helloAgent agentId m endpoint) hinv hfresh hacc.new_bs hp h'
    · intro hnone
      exact (h.pend hacc hfresh (hnone hacc)).form (hinv.pend hacc hfresh) hacc.new_bs
  | dissolved _ hbs hd => exact iff_of_true (h.dissolved hbs hd) trivial
  | withdrawn x _ _ _ => exact iff_of_true (h.withdrawn x) trivial
  | unknown _ _ => exact iff_of_true h trivial

/-- After a handled disconnect nothing mentions the agent. -/
theorem not_mentions_of_disconnect {id : ℤ} {eff : List Effect} (h : ExactDirectory r)
    (hinv : Inv r) (ho : Outcome r (.disconnect id) r' eff) : ¬ r'.Mentions id := by
  cases ho with
  | dissolved hp hbs hd => exact h.not_mentions_dissolved hinv hp hbs hd
  | withdrawn x hnone ha hid =>
    rintro (⟨y, c, hc, hcid⟩ | ⟨b, y, c, hc, hcid⟩)
    · obtain ⟨hne, hc⟩ := getElem?_erase_pending.mp hc
      exact hne (h.pending_once y x c _ hc ha (hcid.trans hid.symm))
    · exact h.not_memberOf hnone hc hcid
  | unknown hnone hnot =>
    rintro (⟨y, c, hc, hcid⟩ | ⟨b, y, c, hc, hcid⟩)
    · exact hnot y c hc hcid
    · exact h.not_memberOf hnone hc hcid

end ExactDirectory

/-- The directory is exact in every state of the run, and every disconnect removes the agent. -/
def DirectoryLaw (events : List RibEvent) : Prop :=
  Always ribStep {} ExactDirectory events ∧
  ∀ es id r, es ++ [RibEvent.disconnect id] <+: events →
    run ribStep {} (es ++ [RibEvent.disconnect id]) = .ok r → ¬ r.Mentions id

theorem always_exactDirectory_iff (events : List RibEvent) :
    Always ribStep {} ExactDirectory events ↔ EachStep ribStep {} HelloOnce events :=
  always_iff_eachStep inv_empty exactDirectory_empty (fun _ _ _ hs hstep => ribStep_inv hs hstep)
    (fun _ _ _ hs hP hstep => by
      obtain ⟨eff, ho⟩ := outcome_of_ribStep hs hstep
      exact hP.outcome_iff hs ho)
    (fun s e hs _ _ => by
      obtain ⟨t, _, ht, _⟩ := ribStep_outcome hs e
      exact ⟨t, ht⟩) events

/-- The directory law holds of exactly the runs in which no active agent says hello again with
success. -/
theorem directoryLaw_iff (events : List RibEvent) :
    DirectoryLaw events ↔ EachStep ribStep {} HelloOnce events := by
  rw [← always_exactDirectory_iff]
  refine ⟨And.left, fun h => ⟨h, fun es id r hpre hrun => ?_⟩⟩
  obtain ⟨s, hs, hstep⟩ := run_concat_eq_ok.mp hrun
  have hinv : Inv s := run_invariant (fun _ _ _ h h' => ribStep_inv h h') inv_empty hs
  obtain ⟨eff, ho⟩ := outcome_of_ribStep hinv hstep
  exact (h es s ((List.prefix_append es _).trans hpre) hs).not_mentions_of_disconnect hinv ho

/-- An agent with all capabilities says hello for base station 1 and then for base station 2. -/
def secondHello : List RibEvent :=
  [.hello 0 { bsId := some 1 } .successfulOutcome "" 0,
   .hello 0 { bsId := some 2 } .successfulOutcome "" 1]

/-- After the second hello both base stations have the agent. -/
theorem not_directoryLaw_secondHello : ¬ DirectoryLaw secondHello := by
  rintro ⟨h, -⟩
  have hfacts : (run ribStep {} secondHello).map (fun r =>
      decide (r.hasMember 1 0 ∧ r.hasMember 2 0)) = .ok true := by decide
  obtain ⟨r, hrun, hfirst, hsecond⟩ := exists_ok_of_decide hfacts
  obtain ⟨x, a, ha, haid⟩ := hasMember_iff.mp hfirst
  obtain ⟨y, c, hc, hcid⟩ := hasMember_iff.mp hsecond
  exact absurd ((h secondHello r (List.prefix_refl _) hrun).one_bs 1 2 x y a c ha hc
    (haid.trans hcid.symm)) (by decide)

end FlexRan.Rib
