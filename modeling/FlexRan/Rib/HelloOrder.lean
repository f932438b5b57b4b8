import FlexRan.Rib.Directory

/-!
# The order of hellos

Several agents announce themselves, each once and with success, and agents of one base station
have no capability in common.  The state a run of their hellos reaches is described without
the run: a base station exists exactly when its agents cover the required capabilities, and
every agent is in the RIB, except that an agent that comes when its base station already
exists is refused.  Such an agent has nothing but S1AP to offer, since the others have all
required capabilities.

So the order of the hellos does not matter, up to the addresses of the agent objects, exactly
when no agent with S1AP only belongs to a base station the others complete.

## Main definitions

* `Hello`, `runHellos`: a successful hello, and a run of them.
* `Settled`: the state after the hellos of a list of agents.
* `SameUpTo`, `OrderIndependent`: equality up to object identity, for every two orders.
-/
namespace FlexRan.Rib

set_option linter.dupNamespace false

open Lib Protocol Rib

/-- A successful hello. Where the agent object is allocated is left to the run. -/
structure Hello where
  agentId : ℤ
  m : FlexHello
  endpoint : String

namespace Hello

def agent (h : Hello) : AgentInfo := helloAgent h.agentId h.m h.endpoint

def event (h : Hello) (want : ℕ) : RibEvent :=
  .hello h.agentId h.m .successfulOutcome h.endpoint want

end Hello

/-- Handle the hellos in order, each with the address the allocator wants for its agent. -/
def runHellos (hellos : List (Hello × ℕ)) : Except Fault Rib :=
  run ribStep {} (hellos.map fun e => e.1.event e.2)

/-- Different agents, without a common capability if they belong to one base station. -/
def Compatible (a b : AgentInfo) : Prop :=
  a.agentId ≠ b.agentId ∧ (a.bsId = b.bsId → a.capabilities.orthogonal b.capabilities = true)

instance : DecidableRel Compatible := fun a b =>
  inferInstanceAs (Decidable (a.agentId ≠ b.agentId ∧ (_ → _)))

/-- The agents of base station `b` have all required capabilities together. -/
def GroupCovers (agents : List AgentInfo) (b : UInt64) : Prop :=
  ∀ c : BsCapability, c.Required → ∃ a ∈ agents, a.bsId = b ∧ c ∈ a.capabilities

/-! ## Equality up to object identity -/

/-- The sets have the same objects, where `ρ` relates the addresses of an object in both. -/
def SameAgents (ρ : ℕ → ℕ → Prop) (s t : SharedSet AgentInfo) : Prop :=
  (∀ (x : ℕ) a, s[x]? = some a → ∃ y, ρ x y ∧ t[y]? = some a) ∧
  ∀ (y : ℕ) a, t[y]? = some a → ∃ x, ρ x y ∧ s[x]? = some a

/-- The same base station with the same agents. -/
structure SameBs (ρ : ℕ → ℕ → Prop) (bs bs' : EnbRibInfo) : Prop where
  agents : SameAgents ρ bs.agents bs'.agents
  rest : { bs with agents := ∅ } = { bs' with agents := ∅ }

structure SameUpTo (ρ : ℕ → ℕ → Prop) (r r' : Rib) : Prop where
  oneToOne : Relator.BiUnique ρ
  eNBConfigs : ∀ b : UInt64, Option.Rel (SameBs ρ) r.eNBConfigs[b]? r'.eNBConfigs[b]?
  agentConfigs : ∀ id : ℤ, Option.Rel (fun p q => ρ p.1 q.1 ∧ p.2 = q.2)
    r.agentConfigs[id]? r'.agentConfigs[id]?
  pendingAgents : SameAgents ρ r.pendingAgents r'.pendingAgents

/-- Any two orders of the hellos lead to the same state up to object identity. -/
def OrderIndependent (hellos : List Hello) : Prop :=
  ∀ l₁ l₂ : List (Hello × ℕ), (l₁.map Prod.fst).Perm hellos → (l₂.map Prod.fst).Perm hellos →
    ∃ r₁ r₂, runHellos l₁ = .ok r₁ ∧ runHellos l₂ = .ok r₂ ∧ ∃ ρ, SameUpTo ρ r₁ r₂

/-- No agent with S1AP only belongs to a base station whose agents are complete. -/
def NoLoneS1ap (hellos : List Hello) : Prop :=
  ∀ h ∈ hellos, h.agent.bsId ≠ 0 → GroupCovers (hellos.map Hello.agent) h.agent.bsId →
    ∃ c : BsCapability, c.Required ∧ c ∈ h.agent.capabilities

/-! ## Live agents -/

variable {r r' : Rib} {l : List AgentInfo}

namespace Inv

theorem live_cases (h : Inv r) {x : ℕ} {a : AgentInfo} (ha : r.Live x a) :
    r.pendingAgents[x]? = some a ∨ r.MemberOf a.bsId x a := by
  rcases ha with ha | ⟨b, bs, hbs, ha⟩ | ⟨id, ha⟩
  · exact .inl ha
  · have hmem : r.MemberOf b x a := ⟨bs, hbs, ha⟩
    rw [h.bsId_of_memberOf hmem]
    exact .inr hmem
  · exact .inr (h.memberOf_active ha)

theorem live_bsId_ne_zero (h : Inv r) {x : ℕ} {a : AgentInfo} (ha : r.Live x a) : a.bsId ≠ 0 := by
  rcases h.live_cases ha with ha | ⟨bs, hbs, _⟩
  · exact h.pending_bsId_ne_zero x a ha
  · exact h.bsId_ne_zero _ bs hbs

/-- A live agent is pending as long as its base station does not exist, ... -/
theorem pending_of_live (h : Inv r) {x : ℕ} {a : AgentInfo} (ha : r.Live x a)
    (hnone : r.eNBConfigs[a.bsId]? = none) : r.pendingAgents[x]? = some a := by
  rcases h.live_cases ha with ha | ⟨bs, hbs, _⟩
  · exact ha
  · rw [hnone] at hbs
    exact absurd hbs (by simp)

/-- ... and a member once it does. -/
theorem member_of_live (h : Inv r) {x : ℕ} {a : AgentInfo} {bs : EnbRibInfo} (ha : r.Live x a)
    (hbs : r.eNBConfigs[a.bsId]? = some bs) : bs.agents[x]? = some a := by
  rcases h.live_cases ha with ha | ⟨bs', hbs', ha⟩
  · have hnone := h.pending_new x a ha
    rw [hbs] at hnone
    exact absurd hnone (by simp)
  · obtain rfl : bs = bs' := Option.some.inj (hbs.symm.trans hbs')
    exact ha

end Inv

/-- In an exact directory an agent id identifies a live object. -/
theorem ExactDirectory.live_unique (h : ExactDirectory r) (hinv : Inv r) {x y : ℕ}
    {a d : AgentInfo} (ha : r.Live x a) (hd : r.Live y d) (hid : a.agentId = d.agentId) :
    x = y := by
  rcases hinv.live_cases ha with ha | ha
  · rcases hinv.live_cases hd with hd | hd
    · exact h.pending_once x y a d ha hd hid
    · exact absurd hid (h.not_both x a _ y d ha hd)
  · rcases hinv.live_cases hd with hd | hd
    · exact absurd hid.symm (h.not_both y d _ x a hd ha)
    · exact (h.member_unique ha hd hid).1

/-! ## Groups of agents -/

theorem GroupCovers.mono {m : List AgentInfo} {b : UInt64} (h : GroupCovers l b)
    (hlm : ∀ a ∈ l, a ∈ m) : GroupCovers m b := by
  intro c hc
  obtain ⟨a, ha, hab, hca⟩ := h c hc
  exact ⟨a, hlm a ha, hab, hca⟩

theorem groupCovers_append_of_ne {a : AgentInfo} {b : UInt64} (hb : b ≠ a.bsId) :
    GroupCovers (l ++ [a]) b ↔ GroupCovers l b := by
  constructor
  · intro h c hc
    obtain ⟨d, hd, hdb, hcd⟩ := h c hc
    rcases List.mem_append.mp hd with hd | hd
    · exact ⟨d, hd, hdb, hcd⟩
    · obtain rfl := List.mem_singleton.mp hd
      exact absurd hdb.symm hb
  · intro h
    exact h.mono fun d hd => List.mem_append_left _ hd

/-- An agent that is compatible with a complete group has nothing required to add. -/
theorem not_required_of_groupCovers {a : AgentInfo} (hcomp : ∀ b ∈ l, Compatible b a)
    (hcovers : GroupCovers l a.bsId) : ¬ ∃ c : BsCapability, c.Required ∧ c ∈ a.capabilities := by
  rintro ⟨c, hc, hca⟩
  obtain ⟨b, hb, hbs, hcb⟩ := hcovers c hc
  exact AgentCapabilities.orthogonal_iff.mp ((hcomp b hb).2 hbs) c hcb hca

/-! ## The state after the hellos -/

/-- What the RIB looks like after the hellos of `l`. -/
structure Settled (l : List AgentInfo) (r : Rib) : Prop where
  origin : ∀ x a, r.Live x a → a ∈ l
  bs_iff : ∀ b : UInt64, (∃ bs, r.eNBConfigs[b]? = some bs) ↔ b ≠ 0 ∧ GroupCovers l b
  bs_fresh : ∀ (b : UInt64) bs, r.eNBConfigs[b]? = some bs → bs = { bsId := b, agents := bs.agents }
  present : ∀ a ∈ l, a.bsId ≠ 0 →
    ((∃ c : BsCapability, c.Required ∧ c ∈ a.capabilities) ∨ ¬ GroupCovers l a.bsId) →
    ∃ x, r.Live x a
  head_present : ∀ a, l.head? = some a → a.bsId ≠ 0 → ∃ x, r.Live x a

theorem not_groupCovers_nil (b : UInt64) : ¬ GroupCovers [] b := by
  intro h
  simpa using h .lophy (by decide)

theorem settled_empty : Settled [] {} where
  origin := by simp [Live]
  bs_iff b := by simp [not_groupCovers_nil]
  bs_fresh := by simp
  present := by simp
  head_present := by simp

namespace Settled

/-- The pending agents of a base station that does not exist are all its agents so far. -/
theorem exists_pendingOf_iff (h : Settled l r) (hinv : Inv r) {b : UInt64} (hb : b ≠ 0)
    (hnone : r.eNBConfigs[b]? = none) {a : AgentInfo} :
    (∃ x : ℕ, (r.pendingOf b)[x]? = some a) ↔ a ∈ l ∧ a.bsId = b := by
  constructor
  · rintro ⟨x, ha⟩
    obtain ⟨ha, hab⟩ := getElem?_pendingOf.mp ha
    exact ⟨h.origin x a (.inl ha), hab⟩
  · rintro ⟨ha, rfl⟩
    have hnot : ¬ GroupCovers l a.bsId := by
      intro hcovers
      obtain ⟨bs, hbs⟩ := (h.bs_iff a.bsId).mpr ⟨hb, hcovers⟩
      rw [hnone] at hbs
      exact absurd hbs (by simp)
    obtain ⟨x, hx⟩ := h.present a ha hb (.inr hnot)
    exact ⟨x, getElem?_pendingOf.mpr ⟨hinv.pending_of_live hx hnone, rfl⟩⟩

/-- Whether a new agent completes its base station can be read off the list. -/
theorem covers_pend_iff (h : Settled l r) (hinv : Inv r) {x : ℕ} {a : AgentInfo}
    {dir : FlexranDirection} (hacc : r.Accepts dir a) (hfresh : ∀ b, ¬ r.Live x b) :
    Covers ((r.pend x a).pendingOf a.bsId) ↔ GroupCovers (l ++ [a]) a.bsId := by
  have hb := hacc.admissible.bsId_ne_zero
  have hmem : ∀ d, (∃ y : ℕ, ((r.pend x a).pendingOf a.bsId)[y]? = some d) ↔
      d ∈ l ++ [a] ∧ d.bsId = a.bsId := by
    intro d
    rw [List.mem_append, List.mem_singleton, or_and_right,
      ← h.exists_pendingOf_iff hinv hb hacc.new_bs]
    simp only [getElem?_pendingOf, getElem?_pend hfresh]
    constructor
    · rintro ⟨y, hd, hda⟩
      by_cases hy : y = x
      · rw [if_pos hy] at hd
        exact .inr ⟨(Option.some.inj hd).symm, hda⟩
      · rw [if_neg hy] at hd
        exact .inl ⟨y, hd, hda⟩
    · rintro (⟨y, hd, hda⟩ | ⟨rfl, hda⟩)
      · have hy : y ≠ x := by
          rintro rfl
          exact hfresh d (.inl hd)
        exact ⟨y, by rw [if_neg hy]; exact hd, hda⟩
      · exact ⟨x, by rw [if_pos rfl], rfl⟩
  constructor
  · intro hcovers c hc
    obtain ⟨y, d, hd, hcd⟩ := hcovers c hc
    obtain ⟨hdl, hda⟩ := (hmem d).mp ⟨y, hd⟩
    exact ⟨d, hdl, hda, hcd⟩
  · intro hcovers c hc
    obtain ⟨d, hdl, hda, hcd⟩ := hcovers c hc
    obtain ⟨y, hd⟩ := (hmem d).mpr ⟨hdl, hda⟩
    exact ⟨y, d, hd, hcd⟩

/-- A compatible agent is refused only where its base station exists, or has the id 0. -/
theorem accepts_of (h : Settled l r) {a : AgentInfo} (hcomp : ∀ b ∈ l, Compatible b a)
    (hb : a.bsId ≠ 0) (hnone : r.eNBConfigs[a.bsId]? = none) :
    r.Accepts .successfulOutcome a where
  successful := rfl
  new_bs := hnone
  admissible :=
    { bsId_ne_zero := hb
      not_pending := fun x d hd => (hcomp d (h.origin x d (.inl hd))).1
      orthogonal := fun x d hd hda => (hcomp d (h.origin x d (.inl hd))).2 hda }

/-- A refused agent changes nothing, and it is not needed to tell what exists. -/
theorem refused (h : Settled l r) {a : AgentInfo} (hcomp : ∀ b ∈ l, Compatible b a)
    (hrej : ¬ r.Accepts .successfulOutcome a) : Settled (l ++ [a]) r := by
  have hzero_or : a.bsId = 0 ∨ GroupCovers l a.bsId := by
    by_contra hno
    rw [not_or] at hno
    refine hrej (h.accepts_of hcomp hno.1 ?_)
    by_contra hne
    exact hno.2 ((h.bs_iff a.bsId).mp (Option.ne_none_iff_exists'.mp hne)).2
  have hgroup : ∀ b, b ≠ 0 → (GroupCovers (l ++ [a]) b ↔ GroupCovers l b) := by
    intro b hb
    by_cases hba : b = a.bsId
    · subst hba
      have hcovers := hzero_or.resolve_left hb
      exact iff_of_true (hcovers.mono fun d hd => List.mem_append_left _ hd) hcovers
    · exact groupCovers_append_of_ne hba
  refine
    { origin := fun x d hd => List.mem_append_left _ (h.origin x d hd)
      bs_iff := ?bs_iff
      bs_fresh := h.bs_fresh
      present := ?present
      head_present := ?head_present }
  case bs_iff =>
    intro b
    rw [h.bs_iff]
    exact and_congr_right fun hb => (hgroup b hb).symm
  case present =>
    intro d hd hdb hwhy
    rw [hgroup _ hdb] at hwhy
    rcases List.mem_append.mp hd with hd | hd
    · exact h.present d hd hdb hwhy
    · obtain rfl := List.mem_singleton.mp hd
      have hcovers := hzero_or.resolve_left hdb
      have hnothing := not_required_of_groupCovers hcomp hcovers
      exact absurd hwhy (not_or.mpr ⟨hnothing, not_not.mpr hcovers⟩)
  case head_present =>
    intro d hd hdb
    cases l with
    | nil =>
      obtain rfl : a = d := by simpa using hd
      exact absurd (hzero_or.resolve_left hdb) (not_groupCovers_nil _)
    | cons e l => exact h.head_present d (by simpa using hd) hdb

/-- What an accepted agent adds, whether its base station is formed or not. -/
theorem accepted (h : Settled l r) {a : AgentInfo} {x : ℕ}
    (hlive : ∀ y d, r'.Live y d ↔ (y = x ∧ d = a) ∨ r.Live y d)
    (hbs : ∀ b : UInt64, (∃ bs, r'.eNBConfigs[b]? = some bs) ↔ b ≠ 0 ∧ GroupCovers (l ++ [a]) b)
    (hfresh : ∀ (b : UInt64) bs, r'.eNBConfigs[b]? = some bs →
      bs = { bsId := b, agents := bs.agents }) : Settled (l ++ [a]) r' where
  origin y d hd := by
    rcases (hlive y d).mp hd with ⟨_, rfl⟩ | hd
    · exact List.mem_append_right _ (List.mem_singleton_self d)
    · exact List.mem_append_left _ (h.origin y d hd)
  bs_iff := hbs
  bs_fresh := hfresh
  present d hd hdb hwhy := by
    rcases List.mem_append.mp hd with hd | hd
    · have hwhy' := hwhy.imp_right fun hnot hcovers =>
        hnot (GroupCovers.mono hcovers fun e he => List.mem_append_left _ he)
      obtain ⟨y, hy⟩ := h.present d hd hdb hwhy'
      exact ⟨y, (hlive y d).mpr (.inr hy)⟩
    · obtain rfl := List.mem_singleton.mp hd
      exact ⟨x, (hlive x d).mpr (.inl ⟨rfl, rfl⟩)⟩
  head_present d hd hdb := by
    cases l with
    | nil =>
      obtain rfl : a = d := by simpa using hd
      exact ⟨x, (hlive x a).mpr (.inl ⟨rfl, rfl⟩)⟩
    | cons e l =>
      obtain ⟨y, hy⟩ := h.head_present d (by simpa using hd) hdb
      exact ⟨y, (hlive y d).mpr (.inr hy)⟩

theorem step (h : Settled l r) (hinv : Inv r) {k : Hello} {want : ℕ} {eff : List Effect}
    (hcomp : ∀ b ∈ l, Compatible b k.agent) (ho : Outcome r (k.event want) r' eff) :
    Settled (l ++ [k.agent]) r' := by
  have hgroup : ∀ b, b ≠ k.agent.bsId →
      ((∃ bs, r.eNBConfigs[b]? = some bs) ↔ b ≠ 0 ∧ GroupCovers (l ++ [k.agent]) b) := by
    intro b hb
    rw [groupCovers_append_of_ne hb, h.bs_iff]
  cases ho with
  | rejected hrej => exact h.refused hcomp hrej
  | waiting x hacc hfresh hnot =>
    refine h.accepted (fun y d => live_pend_iff hfresh) ?_ h.bs_fresh
    intro b
    by_cases hb : b = k.agent.bsId
    · have hnone : r.eNBConfigs[k.agent.bsId]? = none := hacc.new_bs
      have hgroup' := mt (h.covers_pend_iff hinv hacc hfresh).mpr hnot
      rw [hb]
      refine iff_of_false ?_ fun hc => hgroup' hc.2
      rintro ⟨bs, hbs⟩
      exact absurd (hnone.symm.trans hbs) (by simp)
    · exact hgroup b hb
  | formed x hacc hfresh hcovers =>
    have hnew : (r.pend x k.agent).eNBConfigs[k.agent.bsId]? = none := hacc.new_bs
    refine h.accepted (fun y d => (live_form_iff hnew).trans (live_pend_iff hfresh)) ?_ ?_
    · intro b
      by_cases hb : b = k.agent.bsId
      · have hgroup' := (h.covers_pend_iff hinv hacc hfresh).mp hcovers
        rw [hb]
        refine iff_of_true ?_ ⟨hacc.admissible.bsId_ne_zero, hgroup'⟩
        exact ⟨_, (getElem?_eNBConfigs_form k.agent.bsId).trans (if_pos ⟨rfl, hnew⟩)⟩
      · have hsame := (getElem?_eNBConfigs_form (r := r.pend x k.agent) b).trans
          (if_neg fun hc => hb hc.1)
        change (∃ bs, ((r.pend x k.agent).form k.agent.bsId).eNBConfigs[b]? = some bs) ↔ _
        rw [hsame]
        exact hgroup b hb
    · intro b bs hbs
      rw [getElem?_eNBConfigs_form] at hbs
      split at hbs
      · rename_i hc
        obtain rfl := Option.some.inj hbs
        rw [hc.1]
      · exact h.bs_fresh b bs hbs

end Settled

theorem runHellos_settled (hellos : List (Hello × ℕ))
    (hcomp : (hellos.map fun e => e.1.agent).Pairwise Compatible) :
    ∃ r, runHellos hellos = .ok r ∧ Inv r ∧ ExactDirectory r ∧
      Settled (hellos.map fun e => e.1.agent) r := by
  induction hellos using List.reverseRecOn with
  | nil => exact ⟨{}, rfl, inv_empty, exactDirectory_empty, settled_empty⟩
  | append_singleton hellos e ih =>
    rw [List.map_append, List.pairwise_append] at hcomp
    obtain ⟨hcomp, _, hlast⟩ := hcomp
    obtain ⟨r, hr, hinv, hdir, hsettled⟩ := ih hcomp
    have hlast' : ∀ b ∈ hellos.map fun e => e.1.agent, Compatible b e.1.agent := fun b hb =>
      hlast b hb e.1.agent (by simp)
    obtain ⟨r', eff, hr', ho⟩ := ribStep_outcome hinv (e.1.event e.2)
    -- the agent is new, so its hello is not one of an active agent
    have honce : HelloOnce r (e.1.event e.2) := by
      intro _
      by_contra hne
      obtain ⟨p, hp⟩ := Option.ne_none_iff_exists'.mp hne
      have hmem := hsettled.origin p.1 p.2 (.inr (.inr ⟨_, hp⟩))
      exact (hlast' p.2 hmem).1 (hinv.active_agentId _ p hp)
    refine ⟨r', ?_, ho.inv hinv, (hdir.outcome_iff hinv ho).mpr honce, ?_⟩
    · rw [runHellos, List.map_append]
      exact run_concat_eq_ok.mpr ⟨r, hr, hr'⟩
    · rw [List.map_append]
      exact hsettled.step hinv hlast' ho

/-! ## Comparing two orders -/

/-- The state after the hellos of `l`, all of which were accepted. -/
structure AllAccepted (l : List AgentInfo) (r : Rib) : Prop where
  inv : Inv r
  directory : ExactDirectory r
  settled : Settled l r
  live : ∀ a ∈ l, a.bsId ≠ 0 → ∃ x, r.Live x a

/-- The addresses of the same agent in two states. -/
def SameAgent (r r' : Rib) (x y : ℕ) : Prop := ∃ a, r.Live x a ∧ r'.Live y a

namespace AllAccepted

variable {m : List AgentInfo}

theorem live_of_live (h : AllAccepted l r) (h' : AllAccepted m r') (hlm : ∀ a, a ∈ l ↔ a ∈ m)
    {x : ℕ} {a : AgentInfo} (ha : r.Live x a) : ∃ y, r'.Live y a :=
  h'.live a ((hlm a).mp (h.settled.origin x a ha)) (h.inv.live_bsId_ne_zero ha)

theorem bs_iff (h : AllAccepted l r) (h' : AllAccepted m r') (hlm : ∀ a, a ∈ l ↔ a ∈ m)
    (b : UInt64) : (∃ bs, r.eNBConfigs[b]? = some bs) ↔ ∃ bs, r'.eNBConfigs[b]? = some bs := by
  rw [h.settled.bs_iff, h'.settled.bs_iff]
  simp only [GroupCovers, hlm]

theorem pending_of_pending (h : AllAccepted l r) (h' : AllAccepted m r')
    (hlm : ∀ a, a ∈ l ↔ a ∈ m) {x : ℕ} {a : AgentInfo} (ha : r.pendingAgents[x]? = some a) :
    ∃ y, SameAgent r r' x y ∧ r'.pendingAgents[y]? = some a := by
  obtain ⟨y, hy⟩ := h.live_of_live h' hlm (.inl ha)
  refine ⟨y, ⟨a, .inl ha, hy⟩, h'.inv.pending_of_live hy ?_⟩
  by_contra hne
  obtain ⟨bs, hbs⟩ := (h.bs_iff h' hlm _).mpr (Option.ne_none_iff_exists'.mp hne)
  rw [h.inv.pending_new x a ha] at hbs
  exact absurd hbs (by simp)

theorem member_of_member (h : AllAccepted l r) (h' : AllAccepted m r')
    (hlm : ∀ a, a ∈ l ↔ a ∈ m) {b : UInt64} {bs bs' : EnbRibInfo}
    (hbs : r.eNBConfigs[b]? = some bs) (hbs' : r'.eNBConfigs[b]? = some bs') {x : ℕ}
    {a : AgentInfo} (ha : bs.agents[x]? = some a) :
    ∃ y, SameAgent r r' x y ∧ bs'.agents[y]? = some a := by
  have hlive : r.Live x a := .inr (.inl ⟨b, bs, hbs, ha⟩)
  obtain ⟨y, hy⟩ := h.live_of_live h' hlm hlive
  refine ⟨y, ⟨a, hlive, hy⟩, h'.inv.member_of_live hy ?_⟩
  rw [(h.inv.baseStation b bs hbs).members x a ha]
  exact hbs'

theorem active_of_active (h : AllAccepted l r) (h' : AllAccepted m r')
    (hlm : ∀ a, a ∈ l ↔ a ∈ m) {id : ℤ} {p : AgentPtr} (hp : r.agentConfigs[id]? = some p) :
    ∃ y, SameAgent r r' p.1 y ∧ r'.agentConfigs[id]? = some (y, p.2) := by
  obtain ⟨bs, hbs, hmem⟩ := h.inv.active id p hp
  obtain ⟨bs', hbs'⟩ := (h.bs_iff h' hlm _).mp ⟨bs, hbs⟩
  obtain ⟨y, hy, hmem'⟩ := h.member_of_member h' hlm hbs hbs' hmem
  refine ⟨y, hy, ?_⟩
  rw [← h.inv.active_agentId id p hp]
  exact (h'.directory.mirror y p.2).mp ⟨_, bs', hbs', hmem'⟩

theorem sameAgent_unique (h : AllAccepted l r) (h' : AllAccepted m r') :
    Relator.BiUnique (SameAgent r r') := by
  constructor
  · rintro x x' y ⟨a, ha, hay⟩ ⟨d, hd, hdy⟩
    obtain rfl := h'.inv.object_unique y a d hay hdy
    exact h.directory.live_unique h.inv ha hd rfl
  · rintro x y y' ⟨a, ha, hay⟩ ⟨d, hd, hdy⟩
    obtain rfl := h.inv.object_unique x a d ha hd
    exact h'.directory.live_unique h'.inv hay hdy rfl

theorem sameAgent_comm {x y : ℕ} : SameAgent r r' x y ↔ SameAgent r' r y x :=
  exists_congr fun _ => And.comm

theorem sameUpTo (h : AllAccepted l r) (h' : AllAccepted m r') (hlm : ∀ a, a ∈ l ↔ a ∈ m) :
    SameUpTo (SameAgent r r') r r' := by
  have hml : ∀ a, a ∈ m ↔ a ∈ l := fun a => (hlm a).symm
  refine ⟨h.sameAgent_unique h', fun b => ?_, fun id => ?_, ?_, ?_⟩
  · cases hbs : r.eNBConfigs[b]? with
    | none =>
      cases hbs' : r'.eNBConfigs[b]? with
      | none => exact .none
      | some bs' =>
        obtain ⟨bs, hbs''⟩ := (h.bs_iff h' hlm b).mpr ⟨bs', hbs'⟩
        rw [hbs] at hbs''
        exact absurd hbs'' (by simp)
    | some bs =>
      obtain ⟨bs', hbs'⟩ := (h.bs_iff h' hlm b).mp ⟨bs, hbs⟩
      rw [hbs']
      refine .some ⟨⟨fun x a ha => h.member_of_member h' hlm hbs hbs' ha, fun y a ha => ?_⟩, ?_⟩
      · obtain ⟨x, hx, ha'⟩ := h'.member_of_member h hml hbs' hbs ha
        exact ⟨x, sameAgent_comm.mp hx, ha'⟩
      · rw [h.settled.bs_fresh b bs hbs, h'.settled.bs_fresh b bs' hbs']
  · cases hp : r.agentConfigs[id]? with
    | none =>
      cases hq : r'.agentConfigs[id]? with
      | none => exact .none
      | some q =>
        obtain ⟨x, _, hx⟩ := h'.active_of_active h hml hq
        rw [hp] at hx
        exact absurd hx (by simp)
    | some p =>
      obtain ⟨y, hy, hq⟩ := h.active_of_active h' hlm hp
      rw [hq]
      exact .some ⟨hy, rfl⟩
  · exact fun x a ha => h.pending_of_pending h' hlm ha
  · intro y a ha
    obtain ⟨x, hx, ha'⟩ := h'.pending_of_pending h hml ha
    exact ⟨x, sameAgent_comm.mp hx, ha'⟩

end AllAccepted

theorem Compatible.symm {a b : AgentInfo} (h : Compatible a b) : Compatible b a :=
  ⟨h.1.symm, fun hb => AgentCapabilities.orthogonal_comm.trans (h.2 hb.symm)⟩

/-- The state after any order of the hellos. -/
theorem exists_settled {hellos : List Hello}
    (hcomp : (hellos.map Hello.agent).Pairwise Compatible) {l : List (Hello × ℕ)}
    (hl : (l.map Prod.fst).Perm hellos) :
    ∃ r, runHellos l = .ok r ∧ Inv r ∧ ExactDirectory r ∧ Settled (l.map fun e => e.1.agent) r ∧
      ∀ a, a ∈ l.map (fun e => e.1.agent) ↔ a ∈ hellos.map Hello.agent := by
  have hperm : (l.map fun e => e.1.agent).Perm (hellos.map Hello.agent) := by
    have := hl.map Hello.agent
    rwa [List.map_map] at this
  obtain ⟨r, hr, hinv, hdir, hsettled⟩ := runHellos_settled l
    ((hperm.pairwise_iff fun h => h.symm).mpr hcomp)
  exact ⟨r, hr, hinv, hdir, hsettled, fun a => hperm.mem_iff⟩

/-- Where every agent has something required, every hello is accepted in every order. -/
theorem orderIndependent_of_noLoneS1ap {hellos : List Hello}
    (hcomp : (hellos.map Hello.agent).Pairwise Compatible) (hlone : NoLoneS1ap hellos) :
    OrderIndependent hellos := by
  intro l₁ l₂ hl₁ hl₂
  have hall : ∀ l : List (Hello × ℕ), (l.map Prod.fst).Perm hellos →
      ∃ r, runHellos l = .ok r ∧ AllAccepted (l.map fun e => e.1.agent) r ∧
        ∀ a, a ∈ l.map (fun e => e.1.agent) ↔ a ∈ hellos.map Hello.agent := by
    intro l hl
    obtain ⟨r, hr, hinv, hdir, hsettled, hmem⟩ := exists_settled hcomp hl
    refine ⟨r, hr, ⟨hinv, hdir, hsettled, fun a ha hb => hsettled.present a ha hb ?_⟩, hmem⟩
    by_cases hcovers : GroupCovers (l.map fun e => e.1.agent) a.bsId
    · obtain ⟨h, hh, rfl⟩ := List.mem_map.mp ((hmem a).mp ha)
      exact .inl (hlone h hh hb (hcovers.mono fun a => (hmem a).mp))
    · exact .inr hcovers
  obtain ⟨r₁, hr₁, h₁, hmem₁⟩ := hall l₁ hl₁
  obtain ⟨r₂, hr₂, h₂, hmem₂⟩ := hall l₂ hl₂
  exact ⟨r₁, r₂, hr₁, hr₂, _, h₁.sameUpTo h₂ fun a => (hmem₁ a).trans (hmem₂ a).symm⟩

/-- The first agent becomes active when its base station is completed. -/
theorem active_of_first {e : Hello × ℕ} {l : List (Hello × ℕ)}
    (hcomp : ((e :: l).map fun e => e.1.agent).Pairwise Compatible)
    (hr : runHellos (e :: l) = .ok r) (hb : e.1.agent.bsId ≠ 0)
    (hcovers : GroupCovers ((e :: l).map fun e => e.1.agent) e.1.agent.bsId) :
    ∃ x, r.agentConfigs[e.1.agentId]? = some (x, e.1.agent) := by
  obtain ⟨r', hr', hinv, hdir, hsettled⟩ := runHellos_settled (e :: l) hcomp
  obtain rfl : r' = r := Except.ok.inj (hr'.symm.trans hr)
  obtain ⟨x, hx⟩ := hsettled.head_present e.1.agent rfl hb
  obtain ⟨bs, hbs⟩ := (hsettled.bs_iff _).mpr ⟨hb, hcovers⟩
  exact ⟨x, (hdir.mirror x e.1.agent).mp ⟨_, bs, hbs, hinv.member_of_live hx hbs⟩⟩

/-- The last agent is refused when the others have completed its base station. -/
theorem not_active_of_last {e : Hello × ℕ} {l : List (Hello × ℕ)}
    (hcomp : ((l ++ [e]).map fun e => e.1.agent).Pairwise Compatible)
    (hr : runHellos (l ++ [e]) = .ok r) (hb : e.1.agent.bsId ≠ 0)
    (hcovers : GroupCovers (l.map fun e => e.1.agent) e.1.agent.bsId) :
    r.agentConfigs[e.1.agentId]? = none := by
  rw [List.map_append, List.pairwise_append] at hcomp
  obtain ⟨hcomp, _, hlast⟩ := hcomp
  rw [runHellos, List.map_append] at hr
  obtain ⟨t, ht, hstep⟩ := run_concat_eq_ok.mp hr
  obtain ⟨t', ht', hinv, _, hsettled⟩ := runHellos_settled l hcomp
  obtain rfl : t' = t := Except.ok.inj (ht'.symm.trans ht)
  obtain ⟨bs, hbs⟩ := (hsettled.bs_iff _).mpr ⟨hb, hcovers⟩
  have hrej : ∀ dir, ¬ t'.Accepts dir e.1.agent := by
    intro dir hacc
    rw [hacc.new_bs] at hbs
    exact absurd hbs (by simp)
  obtain ⟨eff, ho⟩ := outcome_of_ribStep hinv hstep
  cases ho with
  | rejected _ =>
    by_contra hne
    obtain ⟨p, hp⟩ := Option.ne_none_iff_exists'.mp hne
    have hmem := hsettled.origin p.1 p.2 (.inr (.inr ⟨_, hp⟩))
    exact (hlast p.2 hmem e.1.agent (by simp)).1 (hinv.active_agentId _ p hp)
  | waiting _ hacc _ _ => exact absurd hacc (hrej _)
  | formed _ hacc _ _ => exact absurd hacc (hrej _)

/-- An agent with nothing required is accepted when it comes first and refused when it comes
after its base station was completed, so that the order matters. -/
theorem noLoneS1ap_of_orderIndependent {hellos : List Hello}
    (hcomp : (hellos.map Hello.agent).Pairwise Compatible) (hind : OrderIndependent hellos) :
    NoLoneS1ap hellos := by
  classical
  intro h hh hb hcovers
  by_contra hlone
  have hrest := (List.perm_cons_erase hh).symm
  -- the other agents in some order, with some addresses
  set l : List (Hello × ℕ) := (hellos.erase h).map fun k => (k, 0) with hl
  have hfst : l.map Prod.fst = hellos.erase h := by simp [hl, Function.comp_def]
  have hagents : l.map (fun e => e.1.agent) = (hellos.erase h).map Hello.agent := by
    simp [hl, Function.comp_def]
  have hfirst : (((h, 0) :: l).map Prod.fst).Perm hellos := by
    rw [List.map_cons, hfst]
    exact hrest
  have hlast : ((l ++ [(h, 0)]).map Prod.fst).Perm hellos := by
    rw [List.map_append, hfst]
    exact (List.perm_append_singleton h _).trans hrest
  have hothers : GroupCovers (l.map fun e => e.1.agent) h.agent.bsId := by
    intro c hc
    obtain ⟨a, ha, hab, hca⟩ := hcovers c hc
    rw [← (hrest.map Hello.agent).mem_iff, List.map_cons, List.mem_cons] at ha
    rcases ha with rfl | ha
    · exact absurd ⟨c, hc, hca⟩ hlone
    · exact ⟨a, by rw [hagents]; exact ha, hab, hca⟩
  have hcomp₁ : (((h, 0) :: l).map fun e : Hello × ℕ => e.1.agent).Pairwise Compatible := by
    rw [List.map_cons, hagents]
    exact ((hrest.map Hello.agent).pairwise_iff fun h => h.symm).mpr hcomp
  have hcomp₂ : ((l ++ [(h, 0)]).map fun e : Hello × ℕ => e.1.agent).Pairwise Compatible :=
    (((List.perm_append_singleton (h, 0) l).map fun e : Hello × ℕ => e.1.agent).pairwise_iff
      fun h => h.symm).mpr hcomp₁
  obtain ⟨r₁, r₂, hr₁, hr₂, ρ, hsame⟩ := hind _ _ hfirst hlast
  obtain ⟨x, hx⟩ := active_of_first hcomp₁ hr₁ hb
    (hothers.mono fun a ha => List.mem_cons_of_mem _ ha)
  have hnone := not_active_of_last hcomp₂ hr₂ hb hothers
  have hrel := hsame.agentConfigs h.agentId
  rw [hx, hnone] at hrel
  cases hrel

/-- For compatible agents, the order of the hellos does not matter exactly when no agent with
S1AP only belongs to a base station whose agents are complete. -/
theorem orderIndependent_iff {hellos : List Hello}
    (hcomp : (hellos.map Hello.agent).Pairwise Compatible) :
    OrderIndependent hellos ↔ NoLoneS1ap hellos :=
  ⟨noLoneS1ap_of_orderIndependent hcomp, orderIndependent_of_noLoneS1ap hcomp⟩

/-- The two halves of a disaggregated base station. -/
def duAndCu : List Hello :=
  [⟨0, { bsId := some 1, capabilities := [.lophy, .hiphy, .lomac, .himac, .rlc] }, ""⟩,
   ⟨1, { bsId := some 1, capabilities := [.pdcp, .sdap, .rrc, .s1ap] }, ""⟩]

theorem orderIndependent_duAndCu : OrderIndependent duAndCu := by
  refine (orderIndependent_iff (by decide)).mpr ?_
  intro h hh _ _
  simp only [duAndCu, List.mem_cons, List.not_mem_nil, or_false] at hh
  rcases hh with rfl | rfl
  · exact ⟨.lophy, by decide, by decide⟩
  · exact ⟨.pdcp, by decide, by decide⟩

/-- A complete agent, and one with S1AP only for the same base station. -/
def lateS1ap : List Hello :=
  [⟨0, { bsId := some 1 }, ""⟩, ⟨1, { bsId := some 1, capabilities := [.s1ap] }, ""⟩]

/-- The agent with S1AP only is active in one order of the hellos and refused in the other. -/
theorem not_orderIndependent_lateS1ap :
    (lateS1ap.map Hello.agent).Pairwise Compatible ∧ ¬ OrderIndependent lateS1ap := by
  have hcomp : (lateS1ap.map Hello.agent).Pairwise Compatible := by decide
  refine ⟨hcomp, fun hind => ?_⟩
  have hlone := noLoneS1ap_of_orderIndependent hcomp hind
    ⟨1, { bsId := some 1, capabilities := [.s1ap] }, ""⟩ (by simp [lateS1ap]) (by decide)
    (fun c hc => ⟨helloAgent 0 { bsId := some 1 } "", by simp [lateS1ap, Hello.agent], by decide, by
      cases c <;> first | exact absurd rfl hc | decide⟩)
  obtain ⟨c, hc, hmem⟩ := hlone
  cases c <;> first | exact absurd rfl hc | exact absurd hmem (by decide)

end FlexRan.Rib
