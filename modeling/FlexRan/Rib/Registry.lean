import FlexRan.Lib.Roster
import FlexRan.Network.Release
import FlexRan.Rib.Isolation

/-!
# The purpose of the RIB

The RIB keeps agents redundantly in three containers, and the base stations in one of them.  What
it is for is simpler: agents register for a base station and bring capabilities to it; the base
station is online from the registration that completes it until one of its agents leaves.  That
is the `Assembly` of agents to base stations.

The handlers refine it.  Along every run of messages in which no active agent says hello again,
the containers are functions of the abstract roster, and the announcements of the handlers
(`bs_add_`, `bs_remove_` and released connections) are those of the abstract system.  Since groups
do not influence each other there, base stations do not influence each other here: what is
announced of one, and which agents it has, is decided by the messages of its own agents.

## Main definitions

* `baseStations`: the assembly.
* `Represents`: the containers hold what the roster says.
* `notice?`, `commandsOf`: what is observed of an effect, and what a message asks for.
* `dispatch_refines`: the refinement.
* `dispatch_local`: the independence of base stations.
-/
namespace FlexRan.Rib

set_option linter.dupNamespace false

open Lib Lib.Assembly Protocol Rib Network

/-- Agents assemble to base stations by the capabilities that are required of one. -/
def baseStations : Assembly AgentInfo UInt64 BsCapability where
  group := AgentInfo.bsId
  parts a := {c | c ∈ a.capabilities}
  required := {c | c.Required}

abbrev AgentRoster := Roster ℤ AgentInfo UInt64

def notice? : Effect → Option (Notice ℤ UInt64)
  | .bsAdd b => some (.up b)
  | .bsRemove b => some (.down b)
  | .releaseConnection id => some (.dropped id)
  | _ => none

/-- A hello with another direction, or for base station 0, is no registration. -/
def commandOf : RibEvent → Command ℤ AgentInfo
  | .hello agentId m dir endpoint _ =>
    if dir = .successfulOutcome ∧ (helloAgent agentId m endpoint).bsId ≠ 0 then
      .join agentId (helloAgent agentId m endpoint)
    else .turnAway agentId
  | .disconnect agentId => .leave agentId

def commandsOf (e : Received) : List (Command ℤ AgentInfo) :=
  ((ribEvent? e.agentId e.msg e.endpoint e.want).map commandOf).toList

/-- A message with what its handler asks of the rest of the controller. -/
def dispatch (r : Rib) (e : Received) : Except Fault (Rib × List Effect) :=
  dispatchMessage r e.agentId e.msg e.endpoint e.want

/-- A hello that is accepted does not come from an active agent. -/
def SaysHelloOnce (r : Rib) (e : Received) : Prop :=
  ∀ event, ribEvent? e.agentId e.msg e.endpoint e.want = some event → HelloOnce r event

/-- The containers hold what the roster says. -/
structure Represents (r : Rib) (t : AgentRoster) : Prop where
  baseStation : ∀ b, b ∈ r.eNBConfigs ↔ b ∈ t.up
  member : ∀ (b : UInt64) bs, r.eNBConfigs[b]? = some bs → ∀ a,
    (∃ x : ℕ, bs.agents[x]? = some a) ↔ t.member a.agentId = some a ∧ a.bsId = b
  active : ∀ (id : ℤ) a,
    (∃ x, r.agentConfigs[id]? = some (x, a)) ↔ t.member id = some a ∧ a.bsId ∈ t.up
  pending : ∀ a, (∃ x : ℕ, r.pendingAgents[x]? = some a) ↔
    t.member a.agentId = some a ∧ a.bsId ∉ t.up

/-! ## The inductive form -/

/-- The registered agents are the objects that are alive. -/
structure Tracks (r : Rib) (t : AgentRoster) : Prop where
  inv : Inv r
  exact : ExactDirectory r
  named : BsNamed r
  member : ∀ id a, t.member id = some a ↔ ∃ x, r.Live x a ∧ a.agentId = id
  baseStation : ∀ b, b ∈ r.eNBConfigs ↔ b ∈ t.up

variable {r r' : Rib} {t : AgentRoster} {e : Received} {effects : List Effect}

theorem tracks_empty : Tracks {} {} where
  inv := inv_empty
  exact := exactDirectory_empty
  named b bs hbs := absurd hbs (by simp)
  member id a := by simp [Live]
  baseStation b := by simp

theorem eNBConfigs_eq_none_iff {b : UInt64} : r.eNBConfigs[b]? = none ↔ b ∉ r.eNBConfigs := by
  rw [Std.ExtTreeMap.mem_iff_isSome_getElem?, Option.not_isSome_iff_eq_none]

namespace Tracks

/-- A live agent waits, or it is a member of its base station. -/
theorem pending_or_memberOf (h : Tracks r t) {x : ℕ} {a : AgentInfo} (ha : r.Live x a) :
    r.pendingAgents[x]? = some a ∨ r.MemberOf a.bsId x a := by
  rcases ha with ha | ⟨b, ha⟩ | ⟨id, ha⟩
  · exact .inl ha
  · exact .inr (h.inv.bsId_of_memberOf ha ▸ ha)
  · exact .inr (h.inv.memberOf_active ha)

theorem mem_of_memberOf {b : UInt64} {x : ℕ} {a : AgentInfo} (ha : r.MemberOf b x a) :
    b ∈ r.eNBConfigs := by
  obtain ⟨bs, hbs, -⟩ := ha
  rw [Std.ExtTreeMap.mem_iff_isSome_getElem?, hbs]
  rfl

/-- The base station of a live agent exists where the agent is a member, and only there. -/
theorem memberOf_iff (h : Tracks r t) {x : ℕ} {a : AgentInfo} (ha : r.Live x a) :
    r.MemberOf a.bsId x a ↔ a.bsId ∈ t.up := by
  rw [← h.baseStation]
  refine ⟨mem_of_memberOf, fun hmem => ?_⟩
  rcases h.pending_or_memberOf ha with ha | ha
  · exact absurd hmem (eNBConfigs_eq_none_iff.mp (h.inv.pending_new x a ha))
  · exact ha

theorem pending_iff (h : Tracks r t) {x : ℕ} {a : AgentInfo} (ha : r.Live x a) :
    r.pendingAgents[x]? = some a ↔ a.bsId ∉ t.up := by
  rw [← h.baseStation, ← eNBConfigs_eq_none_iff]
  refine ⟨h.inv.pending_new x a, fun hnone => ?_⟩
  rcases h.pending_or_memberOf ha with ha | ha
  · exact ha
  · exact absurd (mem_of_memberOf ha) (eNBConfigs_eq_none_iff.mp hnone)

/-- An agent id belongs to one object. -/
theorem live_unique (h : Tracks r t) {x y : ℕ} {a c : AgentInfo} (ha : r.Live x a)
    (hc : r.Live y c) (hid : a.agentId = c.agentId) : x = y ∧ a = c := by
  have hx : x = y := by
    rcases h.pending_or_memberOf ha with ha' | ha'
    · rcases h.pending_or_memberOf hc with hc' | hc'
      · exact h.exact.pending_once x y a c ha' hc' hid
      · exact absurd hid (h.exact.not_both x a _ y c ha' hc')
    · rcases h.pending_or_memberOf hc with hc' | hc'
      · exact absurd hid.symm (h.exact.not_both y c _ x a hc' ha')
      · exact (h.exact.member_unique ha' hc' hid).1
  subst hx
  exact ⟨rfl, h.inv.object_unique x a c ha hc⟩

theorem member_self (h : Tracks r t) {a : AgentInfo} :
    t.member a.agentId = some a ↔ ∃ x, r.Live x a := by
  rw [h.member]
  simp

theorem represents (h : Tracks r t) : Represents r t where
  baseStation := h.baseStation
  member b bs hbs a := by
    rw [h.member_self]
    constructor
    · rintro ⟨x, ha⟩
      have hmember : r.MemberOf b x a := ⟨bs, hbs, ha⟩
      exact ⟨⟨x, .inr (.inl ⟨b, hmember⟩)⟩, h.inv.bsId_of_memberOf hmember⟩
    · rintro ⟨⟨x, ha⟩, rfl⟩
      have hup : a.bsId ∈ t.up := by
        rw [← h.baseStation, Std.ExtTreeMap.mem_iff_isSome_getElem?, hbs]
        rfl
      obtain ⟨bs', hbs', ha⟩ := (h.memberOf_iff ha).mpr hup
      exact ⟨x, Option.some.inj (hbs.symm.trans hbs') ▸ ha⟩
  active id a := by
    rw [h.member]
    constructor
    · rintro ⟨x, ha⟩
      have hlive : r.Live x a := .inr (.inr ⟨id, ha⟩)
      exact ⟨⟨x, hlive, h.inv.active_agentId id _ ha⟩,
        (h.memberOf_iff hlive).mp (h.inv.memberOf_active ha)⟩
    · rintro ⟨⟨x, ha, rfl⟩, hup⟩
      exact ⟨x, (h.exact.mirror x a).mp ⟨_, (h.memberOf_iff ha).mpr hup⟩⟩
  pending a := by
    rw [h.member_self]
    constructor
    · rintro ⟨x, ha⟩
      have hlive : r.Live x a := .inl ha
      exact ⟨⟨x, hlive⟩, (h.pending_iff hlive).mp ha⟩
    · rintro ⟨⟨x, ha⟩, hdown⟩
      exact ⟨x, (h.pending_iff ha).mpr hdown⟩

/-! ## Hello -/

/-- The handler accepts a hello exactly when the roster admits the agent. -/
theorem accepts_iff (h : Tracks r t) {dir : FlexranDirection} {a : AgentInfo}
    (hdir : dir = .successfulOutcome) (hne : a.bsId ≠ 0)
    (honce : r.Accepts dir a → r.agentConfigs[a.agentId]? = none) :
    r.Accepts dir a ↔ baseStations.Admits t a.agentId a := by
  constructor
  · intro haccepts
    refine ⟨?_, ?_, fun id b hb hbs => ?_⟩
    · rw [Option.eq_none_iff_forall_ne_some]
      intro b hb
      obtain ⟨x, hlive, hid⟩ := (h.member _ b).mp hb
      rcases h.pending_or_memberOf hlive with hp | hm
      · exact haccepts.admissible.not_pending x b hp hid
      · have hactive := (h.exact.mirror x b).mp ⟨_, hm⟩
        rw [hid, honce haccepts] at hactive
        exact absurd hactive (by simp)
    · exact mt (h.baseStation _).mpr (eNBConfigs_eq_none_iff.mp haccepts.new_bs)
    · obtain ⟨x, hlive, -⟩ := (h.member _ b).mp hb
      have hdown : b.bsId ∉ t.up := by
        rw [← h.baseStation, ← eNBConfigs_eq_none_iff, show b.bsId = a.bsId from hbs]
        exact haccepts.new_bs
      have horth := haccepts.admissible.orthogonal x b ((h.pending_iff hlive).mpr hdown) hbs
      exact Set.disjoint_left.mpr (AgentCapabilities.orthogonal_iff.mp horth)
  · rintro ⟨habsent, hdown, hdisjoint⟩
    refine ⟨hdir, ?_, hne, fun x c hc hid => ?_, fun x c hc hbs => ?_⟩
    · exact eNBConfigs_eq_none_iff.mpr (mt (h.baseStation _).mp hdown)
    · have hmember := (h.member a.agentId c).mpr ⟨x, .inl hc, hid⟩
      rw [habsent] at hmember
      exact absurd hmember (by simp)
    · have hmember := (h.member c.agentId c).mpr ⟨x, .inl hc, rfl⟩
      exact AgentCapabilities.orthogonal_iff.mpr
        (Set.disjoint_left.mp (hdisjoint c.agentId c hmember hbs))

/-- A base station that does not exist is covered by its registered agents exactly when its
pending agents are complete. -/
theorem covered_iff (h : Tracks r t) {b : UInt64} (hnew : r.eNBConfigs[b]? = none) :
    baseStations.Covered t b ↔ Covers (r.pendingOf b) := by
  have hdown : b ∉ t.up := mt (h.baseStation b).mpr (eNBConfigs_eq_none_iff.mp hnew)
  refine forall_congr' fun c => imp_congr_right fun _ => ?_
  constructor
  · rintro ⟨id, a, ha, rfl, hc⟩
    obtain ⟨x, hlive, -⟩ := (h.member id a).mp ha
    exact ⟨x, a, getElem?_pendingOf.mpr ⟨(h.pending_iff hlive).mpr hdown, rfl⟩, hc⟩
  · rintro ⟨x, a, ha, hc⟩
    obtain ⟨ha, hb⟩ := getElem?_pendingOf.mp ha
    exact ⟨a.agentId, a, h.member_self.mpr ⟨x, .inl ha⟩, hb, hc⟩

theorem pend (h : Tracks r t) {x : ℕ} {dir : FlexranDirection} {a : AgentInfo}
    (haccepts : r.Accepts dir a) (hfresh : ∀ b, ¬ r.Live x b)
    (honce : r.agentConfigs[a.agentId]? = none) (habsent : t.member a.agentId = none) :
    Tracks (r.pend x a) (enter t a.agentId a) where
  inv := h.inv.pend haccepts hfresh
  exact := h.exact.pend haccepts hfresh honce
  named := h.named
  baseStation := h.baseStation
  member id b := by
    simp only [member_enter, live_pend_iff hfresh]
    by_cases hid : id = a.agentId
    · rw [if_pos hid, Option.some.injEq]
      constructor
      · rintro rfl
        exact ⟨x, .inl ⟨rfl, rfl⟩, hid.symm⟩
      · rintro ⟨y, ⟨-, rfl⟩ | hb, hbid⟩
        · rfl
        · have hmember := (h.member a.agentId b).mpr ⟨y, hb, hbid.trans hid⟩
          rw [habsent] at hmember
          exact absurd hmember (by simp)
    · rw [if_neg hid, h.member]
      constructor
      · rintro ⟨y, hb, hbid⟩
        exact ⟨y, .inr hb, hbid⟩
      · rintro ⟨y, ⟨-, rfl⟩ | hb, hbid⟩
        · exact absurd hbid.symm hid
        · exact ⟨y, hb, hbid⟩

theorem form (h : Tracks r t) {b : UInt64} (hnew : r.eNBConfigs[b]? = none)
    (hcovers : Covers (r.pendingOf b)) (hnamed : BsNamed (r.form b)) :
    Tracks (r.form b) { t with up := insert b t.up } where
  inv := h.inv.form hnew hcovers
  exact := h.exact.form h.inv hnew
  named := hnamed
  member id a := by
    simp only [live_form_iff hnew]
    exact h.member id a
  baseStation c := by
    rw [mem_eNBConfigs_form hnew, h.baseStation, Set.mem_insert_iff, eq_comm]

/-! ## Disconnect -/

/-- Removing the object of an agent dismisses it. -/
theorem dismiss (h : Tracks r t) {x : ℕ} {a : AgentInfo} (ha : r.Live x a) (hinv : Inv r')
    (hexact : ExactDirectory r') (hnamed : BsNamed r')
    (hlive : ∀ y d, r'.Live y d ↔ r.Live y d ∧ y ≠ x)
    (hkeys : ∀ b, b ∈ r'.eNBConfigs ↔ b ∈ t.up ∧ b ≠ a.bsId) :
    Tracks r' (baseStations.dismiss t a.agentId a) where
  inv := hinv
  exact := hexact
  named := hnamed
  baseStation := hkeys
  member id d := by
    rw [member_dismiss]
    by_cases hid : id = a.agentId
    · rw [if_pos hid]
      refine iff_of_false (by simp) ?_
      rintro ⟨y, hd, hdid⟩
      obtain ⟨hd, hne⟩ := (hlive y d).mp hd
      exact hne (h.live_unique hd ha (hdid.trans hid)).1
    · rw [if_neg hid, h.member]
      constructor
      · rintro ⟨y, hd, hdid⟩
        refine ⟨y, (hlive y d).mpr ⟨hd, ?_⟩, hdid⟩
        rintro rfl
        exact hid (hdid.symm.trans (congrArg AgentInfo.agentId (h.inv.object_unique y d a hd ha)))
      · rintro ⟨y, hd, hdid⟩
        exact ⟨y, ((hlive y d).mp hd).1, hdid⟩

/-! ## Messages -/

theorem notices_of_triggerBsConfig (r : Rib) (b : UInt64) (rest : List Effect) :
    (triggerBsConfig r b ++ rest).filterMap notice? = rest.filterMap notice? := by
  have hnone : (triggerBsConfig r b).filterMap notice? = [] := by
    rw [List.filterMap_eq_nil_iff]
    intro f hf
    obtain ⟨id, msg, rfl⟩ := sendMsg_of_mem_triggerBsConfig hf
    rfl
  rw [List.filterMap_append, hnone, List.nil_append]

/-- Hello and disconnect messages do what their command does. -/
theorem outcome (h : Tracks r t) {event : RibEvent} (honce : HelloOnce r event)
    (ho : Outcome r event r' effects) (hnamed : BsNamed r') :
    Tracks r' (baseStations.step t (commandOf event)).1 ∧
      effects.filterMap notice? = (baseStations.step t (commandOf event)).2 := by
  have hinv' : Inv r' := ho.inv h.inv
  have hexact' : ExactDirectory r' := (h.exact.outcome_iff h.inv ho).mpr honce
  cases ho with
  | @rejected agentId m dir endpoint want hnot =>
    rw [commandOf]
    split
    next hvalid =>
      have hadmits : ¬ baseStations.Admits t agentId (helloAgent agentId m endpoint) :=
        mt (h.accepts_iff hvalid.1 hvalid.2 honce).mpr hnot
      rw [step_join_of_not_admits hadmits]
      exact ⟨h, rfl⟩
    next => exact ⟨h, rfl⟩
  | @waiting agentId m dir endpoint want x haccepts hfresh hnot =>
    have hvalid := And.intro haccepts.successful haccepts.admissible.bsId_ne_zero
    have hadmits : baseStations.Admits t agentId (helloAgent agentId m endpoint) :=
      (h.accepts_iff hvalid.1 hvalid.2 honce).mp haccepts
    have hpend := h.pend haccepts hfresh (honce haccepts) hadmits.absent
    rw [commandOf, if_pos hvalid, step_join_of_not_covered hadmits
      (mt (hpend.covered_iff haccepts.new_bs).mp hnot)]
    exact ⟨hpend, rfl⟩
  | @formed agentId m dir endpoint want x haccepts hfresh hcovers =>
    have hvalid := And.intro haccepts.successful haccepts.admissible.bsId_ne_zero
    have hadmits : baseStations.Admits t agentId (helloAgent agentId m endpoint) :=
      (h.accepts_iff hvalid.1 hvalid.2 honce).mp haccepts
    have hpend := h.pend haccepts hfresh (honce haccepts) hadmits.absent
    rw [commandOf, if_pos hvalid, step_join_of_covered hadmits
      ((hpend.covered_iff haccepts.new_bs).mpr hcovers), notices_of_triggerBsConfig]
    exact ⟨hpend.form haccepts.new_bs hcovers hnamed, rfl⟩
  | @dissolved agentId p bs _ hp hbs hd =>
    have hlive : r.Live p.1 p.2 := .inr (.inr ⟨agentId, hp⟩)
    have hid : p.2.agentId = agentId := h.inv.active_agentId agentId p hp
    have hmember : t.member agentId = some p.2 := hid ▸ h.member_self.mpr ⟨p.1, hlive⟩
    have hup : p.2.bsId ∈ t.up := (h.memberOf_iff hlive).mp (h.inv.memberOf_active hp)
    rw [commandOf, step_leave_of_up hmember hup]
    refine ⟨?_, rfl⟩
    rw [← hid]
    refine h.dismiss hlive hinv' hexact' hnamed (fun y d => live_dissolved_iff h.inv hp hbs hd) ?_
    intro b
    rw [mem_eNBConfigs_dissolved hd, h.baseStation, ne_comm, and_comm]
  | @withdrawn agentId x a hnone ha hid =>
    have hlive : r.Live x a := .inl ha
    have hmember : t.member agentId = some a := hid ▸ h.member_self.mpr ⟨x, hlive⟩
    have hdown : a.bsId ∉ t.up := (h.pending_iff hlive).mp ha
    rw [commandOf, step_leave_of_down hmember hdown]
    refine ⟨?_, rfl⟩
    rw [← hid]
    refine h.dismiss hlive hinv' hexact' hnamed (fun y d => live_withdrawn_iff h.inv ha) ?_
    intro b
    rw [show b ∈ (_ : Rib).eNBConfigs ↔ b ∈ t.up from h.baseStation b, iff_self_and]
    rintro hb rfl
    exact hdown hb
  | @unknown agentId hnone hnot =>
    have habsent : t.member agentId = none := by
      rw [Option.eq_none_iff_forall_ne_some]
      intro a ha
      obtain ⟨x, hlive, hid⟩ := (h.member agentId a).mp ha
      rcases h.pending_or_memberOf hlive with hp | hm
      · exact hnot x a hp hid
      · have hactive := (h.exact.mirror x a).mp ⟨_, hm⟩
        rw [hid, hnone] at hactive
        exact absurd hactive (by simp)
    rw [commandOf, step_leave_of_absent habsent]
    exact ⟨h, rfl⟩

/-- The other messages are not seen by the roster. -/
theorem refreshed (h : Tracks r t) (hrefreshed : Refreshed r r') (hnamed : BsNamed r') :
    Tracks r' t where
  inv := hrefreshed.inv h.inv
  named := hnamed
  member id a := by
    simp only [hrefreshed.live_iff]
    exact h.member id a
  baseStation b := (hrefreshed.mem_iff b).trans (h.baseStation b)
  exact :=
    { mirror := fun x a => by
        simp only [hrefreshed.memberOf_iff, hrefreshed.agentConfigs]
        exact h.exact.mirror x a
      one_bs := fun b c x y a d ha hd =>
        h.exact.one_bs b c x y a d (hrefreshed.memberOf_iff.mp ha) (hrefreshed.memberOf_iff.mp hd)
      pending_once := by
        rw [hrefreshed.pendingAgents]
        exact h.exact.pending_once
      not_both := fun x a b y d ha hd =>
        h.exact.not_both x a b y d (hrefreshed.pendingAgents ▸ ha)
          (hrefreshed.memberOf_iff.mp hd) }

theorem dispatch (h : Tracks r t) (honce : SaysHelloOnce r e)
    (hd : dispatch r e = .ok (r', effects)) :
    Tracks r' (behave baseStations.step t (commandsOf e)).1 ∧
      effects.filterMap notice? = (behave baseStations.step t (commandsOf e)).2 := by
  have hnamed : BsNamed r' := bsNamed_dispatchMessage h.inv h.named hd
  rcases dispatchMessage_cases h.inv hd with ⟨event, hevent, ho⟩ | ⟨hnone, hrefreshed, -⟩
  · have hcommands : commandsOf e = [commandOf event] := by rw [commandsOf, hevent]; rfl
    rw [hcommands, behave_cons]
    simpa [behave] using h.outcome (honce event hevent) ho hnamed
  · have hcommands : commandsOf e = [] := by rw [commandsOf, hnone]; rfl
    rw [hcommands]
    refine ⟨h.refreshed hrefreshed hnamed, List.filterMap_eq_nil_iff.mpr fun f hf => ?_⟩
    have hconcerns := (dispatchMessage_concerns h.named hnone hd).2 f hf
    cases f <;> first | rfl | exact hconcerns.elim

end Tracks

/-! ## Runs -/

theorem stateStep_dispatch : stateStep dispatch = receive := by
  funext r e
  rw [stateStep, receive, dispatch]
  cases dispatchMessage r e.agentId e.msg e.endpoint e.want <;> rfl

theorem refines_baseStations :
    Refines dispatch baseStations.step Tracks SaysHelloOnce commandsOf notice? where
  matched _ _ _ _ _ h honce hd := h.dispatch honce hd

/-- From the empty RIB and the empty roster on. -/
theorem tracks_of_trace {events : List Received}
    (honce : EachStep receive {} SaysHelloOnce events)
    (hrun : trace dispatch {} events = .ok (r, effects)) :
    Tracks r (behave baseStations.step {} (events.flatMap commandsOf)).1 ∧
      effects.filterMap notice? =
        (behave baseStations.step {} (events.flatMap commandsOf)).2 :=
  refines_baseStations.trace tracks_empty (stateStep_dispatch ▸ honce) hrun

/-- Along every run in which no active agent says hello again, the containers are what the
abstract roster says, and the announcements are those of the abstract system. -/
theorem dispatch_refines {events : List Received}
    (honce : EachStep receive {} SaysHelloOnce events)
    (hrun : trace dispatch {} events = .ok (r, effects)) :
    Represents r (behave baseStations.step {} (events.flatMap commandsOf)).1 ∧
      effects.filterMap notice? =
        (behave baseStations.step {} (events.flatMap commandsOf)).2 := by
  obtain ⟨htracks, hnotices⟩ := tracks_of_trace honce hrun
  exact ⟨htracks.represents, hnotices⟩

/-- Two agents complete base station 1, and one of them leaves it. -/
def joinAndLeave : List Received :=
  [{ agentId := 0, want := 7
     msg := { msgDir := some .successfulOutcome
              msg := .hello { bsId := some 1, capabilities := [.rrc, .pdcp, .sdap] } } },
   { agentId := 1, want := 3
     msg := { msgDir := some .successfulOutcome
              msg := .hello { bsId := some 1
                              capabilities := [.lophy, .hiphy, .lomac, .himac, .rlc] } } },
   { agentId := 1, msg := { msg := .disconnect none } }]

/-- Guards that are implied by guards that can be evaluated. -/
theorem saysHelloOnce_of_inactive {events : List Received}
    (h : EachStep receive {} (fun r e => (r.agentConfigs[e.agentId]?).isNone ∨
      e.msg.msg matches .disconnect _) events) : EachStep receive {} SaysHelloOnce events := by
  intro es e t hpre hrun event hevent
  rcases h es e t hpre hrun with hnone | hdisconnect
  · have hnone := Option.isNone_iff_eq_none.mp hnone
    cases event with
    | disconnect id => trivial
    | hello id m dir endpoint want =>
      obtain ⟨agentId, ⟨msgDir, body⟩, endpoint', want'⟩ := e
      cases body with
      | hello m' =>
        obtain ⟨rfl, -⟩ := RibEvent.hello.inj (Option.some.inj hevent)
        exact fun _ => hnone
      | _ => exact absurd hevent (by simp [ribEvent?])
  · obtain ⟨agentId, ⟨msgDir, body⟩, endpoint', want'⟩ := e
    cases body with
    | disconnect header =>
      obtain rfl := Option.some.inj hevent
      trivial
    | _ => exact absurd hdisconnect (by simp)

theorem dispatch_refines_joinAndLeave : ∃ r effects, trace dispatch {} joinAndLeave =
    .ok (r, effects) ∧
    Represents r (behave baseStations.step {} (joinAndLeave.flatMap commandsOf)).1 := by
  obtain ⟨⟨r, effects⟩, hrun, -⟩ := exists_ok_of_decide (p := fun _ => True)
    (x := trace dispatch {} joinAndLeave) (by decide)
  exact ⟨r, effects, hrun, (dispatch_refines (saysHelloOnce_of_inactive (by decide)) hrun).1⟩

/-! ## Independence of base stations -/

/-- The agent registers for its base station only. -/
def AtHome (home : ℤ → UInt64) (e : Received) : Prop :=
  ∀ c ∈ commandsOf e, c.Homed baseStations home

/-- The base station exists in both or in none, and its agents are the same ones. -/
structure SameFor (b : UInt64) (r r' : Rib) : Prop where
  baseStation : b ∈ r.eNBConfigs ↔ b ∈ r'.eNBConfigs
  active : ∀ a : AgentInfo, a.bsId = b → ((∃ x, r.agentConfigs[a.agentId]? = some (x, a)) ↔
    ∃ x, r'.agentConfigs[a.agentId]? = some (x, a))
  pending : ∀ a : AgentInfo, a.bsId = b → ((∃ x : ℕ, r.pendingAgents[x]? = some a) ↔
    ∃ x : ℕ, r'.pendingAgents[x]? = some a)

/-- The announcements about a base station and the agents of it. -/
def noticesOf (home : ℤ → UInt64) (b : UInt64) (effects : List Effect) :
    List (Notice ℤ UInt64) :=
  (effects.filterMap notice?).filter fun n => n.group home = b

/-- What the agents of a base station ask for. -/
def commandsFor (home : ℤ → UInt64) (b : UInt64) (events : List Received) :
    List (Command ℤ AgentInfo) :=
  (events.flatMap commandsOf).filter fun c => home c.sender = b

theorem homed_behave {home : ℤ → UInt64} {events : List Received}
    (hhome : ∀ e ∈ events, AtHome home e) :
    baseStations.Homed home (behave baseStations.step {} (events.flatMap commandsOf)).1 := by
  refine behave_invariant (fun t c hc ht => ht.step ?_) (homed_empty home)
  obtain ⟨e, he, hce⟩ := List.mem_flatMap.mp hc
  exact hhome e he c hce

/-- Two runs in which the agents of a base station ask for the same, whatever other agents do in
between and wherever the objects are put, announce the same about it and end with the same
agents of it. -/
theorem dispatch_local {home : ℤ → UInt64} {b : UInt64} {events events' : List Received}
    {r r' : Rib} {effects effects' : List Effect}
    (honce : EachStep receive {} SaysHelloOnce events)
    (honce' : EachStep receive {} SaysHelloOnce events')
    (hhome : ∀ e ∈ events, AtHome home e) (hhome' : ∀ e ∈ events', AtHome home e)
    (hsame : commandsFor home b events = commandsFor home b events')
    (hrun : trace dispatch {} events = .ok (r, effects))
    (hrun' : trace dispatch {} events' = .ok (r', effects')) :
    noticesOf home b effects = noticesOf home b effects' ∧ SameFor b r r' := by
  have hcommands : ∀ {events : List Received}, (∀ e ∈ events, AtHome home e) →
      ∀ c ∈ events.flatMap commandsOf, c.Homed baseStations home := by
    intro events h c hc
    obtain ⟨e, he, hce⟩ := List.mem_flatMap.mp hc
    exact h e he c hce
  obtain ⟨htracks, hnotices⟩ := tracks_of_trace honce hrun
  obtain ⟨htracks', hnotices'⟩ := tracks_of_trace honce' hrun'
  have hrep := htracks.represents
  have hrep' := htracks'.represents
  obtain ⟨hagree, hlocal⟩ := behave_local (AgreeOn.refl home b {}) (homed_empty home)
    (homed_empty home) (hcommands hhome)
  obtain ⟨hagree', hlocal'⟩ := behave_local (AgreeOn.refl home b {}) (homed_empty home)
    (homed_empty home) (hcommands hhome')
  rw [← hnotices] at hlocal
  rw [← hnotices'] at hlocal'
  unfold commandsFor at hsame
  rw [hsame] at hagree hlocal
  refine ⟨hlocal.trans hlocal'.symm, ?_⟩
  have hboth : AgreeOn home b (behave baseStations.step {} (events.flatMap commandsOf)).1
      (behave baseStations.step {} (events'.flatMap commandsOf)).1 :=
    ⟨fun id hid => (hagree.member id hid).trans (hagree'.member id hid).symm,
      hagree.up.trans hagree'.up.symm⟩
  have hmember := fun (a : AgentInfo) (hb : a.bsId = b) =>
    hboth.member_iff (homed_behave hhome) (homed_behave hhome') (i := a.agentId) hb
  refine ⟨?_, fun a hb => ?_, fun a hb => ?_⟩
  · rw [hrep.baseStation, hrep'.baseStation, hboth.up]
  · rw [hrep.active, hrep'.active, hmember a hb, hb, hboth.up]
  · rw [hrep.pending, hrep'.pending, hmember a hb, hb, hboth.up]

/-- The same two agents, with another base station that comes and goes in between, and with
their objects in the other order. -/
def joinAndLeaveAmongOthers : List Received :=
  [{ agentId := 0, want := 3
     msg := { msgDir := some .successfulOutcome
              msg := .hello { bsId := some 1, capabilities := [.rrc, .pdcp, .sdap] } } },
   { agentId := 2, want := 5
     msg := { msgDir := some .successfulOutcome, msg := .hello { bsId := some 2 } } },
   { agentId := 1, want := 7
     msg := { msgDir := some .successfulOutcome
              msg := .hello { bsId := some 1
                              capabilities := [.lophy, .hiphy, .lomac, .himac, .rlc] } } },
   { agentId := 2, msg := { msg := .disconnect none } },
   { agentId := 1, msg := { msg := .disconnect none } }]

def homeOf (id : ℤ) : UInt64 := if id = 2 then 2 else 1

theorem dispatch_local_joinAndLeave : ∃ r effects r' effects',
    trace dispatch {} joinAndLeave = .ok (r, effects) ∧
    trace dispatch {} joinAndLeaveAmongOthers = .ok (r', effects') ∧ SameFor 1 r r' := by
  obtain ⟨⟨r, effects⟩, hrun, -⟩ := exists_ok_of_decide (p := fun _ => True)
    (x := trace dispatch {} joinAndLeave) (by decide)
  obtain ⟨⟨r', effects'⟩, hrun', -⟩ := exists_ok_of_decide (p := fun _ => True)
    (x := trace dispatch {} joinAndLeaveAmongOthers) (by decide)
  have hhome : ∀ e ∈ joinAndLeave, AtHome homeOf e := by
    simp [joinAndLeave, AtHome, commandsOf, ribEvent?, commandOf, helloAgent, fillHello,
      Command.Homed, baseStations, homeOf]
  have hhome' : ∀ e ∈ joinAndLeaveAmongOthers, AtHome homeOf e := by
    simp [joinAndLeaveAmongOthers, AtHome, commandsOf, ribEvent?, commandOf, helloAgent,
      fillHello, Command.Homed, baseStations, homeOf]
  exact ⟨r, effects, r', effects', hrun, hrun', (dispatch_local
    (saysHelloOnce_of_inactive (by decide)) (saysHelloOnce_of_inactive (by decide)) hhome hhome'
    rfl hrun hrun').2⟩

end FlexRan.Rib
