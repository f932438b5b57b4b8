import FlexRan.Rib.EnbRibInfo

/-!
# The RAN information base

Three containers: the base stations by id, the active agents by agent id, and the set of
pending agents, which wait for the other agents of their base station.  Agents are shared
objects; a pointer is an address together with the constant object it points to.

The section on specifications says of each operation exactly what it does to each container,
so that no later proof unfolds a loop.
-/
namespace FlexRan.Rib

-- the class is `Rib` of the namespace `rib`
set_option linter.dupNamespace false

open Lib Protocol

/-- A shared pointer to an agent: its address and the object. -/
abbrev AgentPtr := ℕ × AgentInfo

structure Rib where
  eNBConfigs : Std.ExtTreeMap UInt64 EnbRibInfo := ∅
  agentConfigs : Std.ExtTreeMap ℤ AgentPtr := ∅
  pendingAgents : SharedSet AgentInfo := ∅

namespace Rib

/-! ## Pending agents -/

def agentIsPending (r : Rib) (agentId : ℤ) : Bool :=
  r.pendingAgents.toList.any fun p => p.2.agentId == agentId

/-- The result says whether the agent was accepted. -/
def addPendingAgent (r : Rib) (ai : AgentPtr) : Bool × Rib :=
  if ai.2.bsId = 0 then (false, r)
  else if r.agentIsPending ai.2.agentId then (false, r)
  else if ai.2.capabilities.size < 1 then (false, r)
  -- an existing pending agent of the same base station has overlapping capabilities
  else if r.pendingAgents.toList.any fun p =>
      p.2.bsId == ai.2.bsId && !p.2.capabilities.orthogonal ai.2.capabilities then (false, r)
  else (true, { r with pendingAgents := r.pendingAgents.insertIfNew ai.1 ai.2 })

def removePendingAgent (r : Rib) (agentId : ℤ) : Rib :=
  match r.pendingAgents.toList.find? fun p => p.2.agentId == agentId with
  | none => r
  | some p => { r with pendingAgents := r.pendingAgents.erase p.1 }

/-! ## Base stations -/

def getBs (r : Rib) (bsId : UInt64) : Option EnbRibInfo := r.eNBConfigs[bsId]?

/-- The id of the base station an active agent belongs to, 0 for any other agent. -/
def getBsId (r : Rib) (agentId : ℤ) : UInt64 :=
  match r.agentConfigs[agentId]? with
  | none => 0
  | some a => a.2.bsId

def getBsFromAgent (r : Rib) (agentId : ℤ) : Option EnbRibInfo :=
  let bsId := r.getBsId agentId
  if bsId = 0 then none else r.getBs bsId

def getAvailableBaseStations (r : Rib) : List UInt64 := r.eNBConfigs.toList.map Prod.fst

/-- The pending agents of a base station. -/
def pendingOf (r : Rib) (bsId : UInt64) : SharedSet AgentInfo :=
  select (fun a => a.bsId == bsId) r.pendingAgents

/-- The loop that merges the capabilities of all agents but the first into the first's. -/
def mergeCapabilities (first : AgentCapabilities) (rest : List AgentPtr) :
    Except Fault AgentCapabilities :=
  rest.foldlM (fun caps a =>
    if caps.orthogonal a.2.capabilities then .ok (caps.mergeIn a.2.capabilities)
    else .error (.runtimeError "overlapping capabilities detected")) first

/-- The loop that moves the agents of a new base station from pending to active. -/
def activate (r : Rib) (agents : SharedSet AgentInfo) : Rib :=
  agents.toList.foldl (fun r a =>
    { r with
      pendingAgents := r.pendingAgents.erase a.1
      agentConfigs := r.agentConfigs.insertIfNew a.2.agentId a }) r

def newENBConfigEntry (r : Rib) (bsId : UInt64) : Except Fault (Bool × Rib) := do
  if (r.getBs bsId).isSome then return (false, r)
  let agents := r.pendingOf bsId
  match agents.toList with
  | [] => return (false, r)
  | [only] =>
    if only.2.capabilities.isComplete then
      let bs ← EnbRibInfo.make only.2.bsId agents
      return (true,
        { eNBConfigs := r.eNBConfigs.insertIfNew only.2.bsId bs
          pendingAgents := r.pendingAgents.erase only.1
          agentConfigs := r.agentConfigs.insertIfNew only.2.agentId only })
    else return (false, r)
  | first :: rest =>
    let caps ← mergeCapabilities first.2.capabilities rest
    if caps.isComplete then
      let bs ← EnbRibInfo.make first.2.bsId agents
      return (true,
        activate { r with eNBConfigs := r.eNBConfigs.insertIfNew first.2.bsId bs } agents)
    else return (false, r)

/-- The base station of a disconnected agent is dissolved and its other agents become
pending. -/
def removeENBConfigEntry (r : Rib) (agentId : ℤ) : Except Fault (Bool × Rib) :=
  match r.agentConfigs[agentId]? with
  | none => .ok (false, r)
  | some disconnected =>
    match r.eNBConfigs[disconnected.2.bsId]? with
    | none => .error .endDereference
    | some bs =>
      let all := bs.agents
      .ok (true,
        { eNBConfigs := r.eNBConfigs.erase disconnected.2.bsId
          agentConfigs := all.toList.foldl (fun m b => m.erase b.2.agentId) r.agentConfigs
          pendingAgents := (all.erase disconnected.1).toList.foldl
            (fun s b => s.insertIfNew b.1 b.2) r.pendingAgents })

/-! ## Specifications -/

variable {r : Rib} {bsId : UInt64} {agentId : ℤ}

theorem mem_availableBaseStations {b : UInt64} :
    b ∈ r.getAvailableBaseStations ↔ b ∈ r.eNBConfigs := by
  rw [getAvailableBaseStations, Std.ExtTreeMap.map_fst_toList_eq_keys, Std.ExtTreeMap.mem_keys]

@[simp] theorem getElem?_pendingOf {x : ℕ} {a : AgentInfo} :
    (r.pendingOf bsId)[x]? = some a ↔ r.pendingAgents[x]? = some a ∧ a.bsId = bsId := by
  simp [pendingOf]

theorem agentIsPending_iff :
    r.agentIsPending agentId = true ↔ ∃ (x : ℕ) (a : AgentInfo),
      r.pendingAgents[x]? = some a ∧ a.agentId = agentId := by
  simp [agentIsPending]

/-- What `addPendingAgent` asks of a new agent. -/
structure Admissible (r : Rib) (ai : AgentInfo) : Prop where
  bsId_ne_zero : ai.bsId ≠ 0
  not_pending : ∀ (x : ℕ) (a : AgentInfo), r.pendingAgents[x]? = some a → a.agentId ≠ ai.agentId
  orthogonal : ∀ (x : ℕ) (a : AgentInfo), r.pendingAgents[x]? = some a → a.bsId = ai.bsId →
    a.capabilities.orthogonal ai.capabilities = true

theorem addPendingAgent_of_admissible (ai : AgentPtr) (h : r.Admissible ai.2) :
    r.addPendingAgent ai =
      (true, { r with pendingAgents := r.pendingAgents.insertIfNew ai.1 ai.2 }) := by
  have hpend : ¬ r.agentIsPending ai.2.agentId = true := by
    rw [agentIsPending_iff]
    rintro ⟨x, a, ha, hid⟩
    exact h.not_pending x a ha hid
  have horth : ¬ (r.pendingAgents.toList.any fun p =>
      p.2.bsId == ai.2.bsId && !p.2.capabilities.orthogonal ai.2.capabilities) = true := by
    simp only [List.any_eq_true, Bool.and_eq_true, beq_iff_eq, Bool.not_eq_true', not_exists,
      not_and, Prod.forall, mem_toList_iff, Bool.not_eq_false]
    exact h.orthogonal
  have hsize : ¬ ai.2.capabilities.size < 1 := by
    have := ai.2.capabilities.size_pos
    omega
  rw [addPendingAgent, if_neg h.bsId_ne_zero, if_neg hpend, if_neg hsize, if_neg horth]

theorem addPendingAgent_of_not_admissible (ai : AgentPtr) (h : ¬ r.Admissible ai.2) :
    r.addPendingAgent ai = (false, r) := by
  unfold addPendingAgent
  split_ifs with hid hpend hsize horth
  · rfl
  · rfl
  · rfl
  · rfl
  · refine absurd ⟨hid, ?_, ?_⟩ h
    · intro x a ha heq
      exact hpend (agentIsPending_iff.mpr ⟨x, a, ha, heq⟩)
    · intro x a ha hbs
      simp only [List.any_eq_true, Bool.and_eq_true, beq_iff_eq, Bool.not_eq_true', not_exists,
        not_and, Prod.forall, mem_toList_iff, Bool.not_eq_false] at horth
      exact horth x a ha hbs

theorem removePendingAgent_eq (r : Rib) (agentId : ℤ) :
    r.removePendingAgent agentId = r ∧ r.agentIsPending agentId = false ∨
    ∃ (x : ℕ) (a : AgentInfo), r.pendingAgents[x]? = some a ∧ a.agentId = agentId ∧
      r.removePendingAgent agentId = { r with pendingAgents := r.pendingAgents.erase x } := by
  rw [removePendingAgent]
  split
  · rename_i h
    refine .inl ⟨rfl, ?_⟩
    rw [Bool.eq_false_iff, ne_eq, agentIsPending_iff]
    rintro ⟨x, a, ha, hid⟩
    simpa [hid] using List.find?_eq_none.mp h (x, a) (mem_toList_iff.mpr ha)
  · rename_i p h
    exact .inr ⟨p.1, p.2, mem_toList_iff.mp (List.mem_of_find?_eq_some h),
      by simpa using List.find?_some h, rfl⟩

/-! ### Sets of agents -/

/-- Different agents of the set have no capability in common. -/
def PairwiseOrthogonal (s : SharedSet AgentInfo) : Prop :=
  ∀ (x y : ℕ) (a b : AgentInfo), s[x]? = some a → s[y]? = some b → x ≠ y →
    a.capabilities.orthogonal b.capabilities = true

/-- The agents of the set have all required capabilities together. -/
def Covers (s : SharedSet AgentInfo) : Prop :=
  ∀ c : BsCapability, c.Required → ∃ (x : ℕ) (a : AgentInfo), s[x]? = some a ∧ c ∈ a.capabilities

theorem PairwiseOrthogonal.mono {s t : SharedSet AgentInfo} (h : PairwiseOrthogonal t)
    (hst : ∀ (x : ℕ) (a : AgentInfo), s[x]? = some a → t[x]? = some a) : PairwiseOrthogonal s :=
  fun x y a b ha hb hne => h x y a b (hst x a ha) (hst y b hb) hne

theorem Covers.mono {s t : SharedSet AgentInfo} (h : Covers s)
    (hst : ∀ (x : ℕ) (a : AgentInfo), s[x]? = some a → t[x]? = some a) : Covers t := by
  intro c hc
  obtain ⟨x, a, ha, hca⟩ := h c hc
  exact ⟨x, a, hst x a ha, hca⟩

theorem Covers.nonempty {s : SharedSet AgentInfo} (h : Covers s) :
    ∃ (x : ℕ) (a : AgentInfo), s[x]? = some a := by
  obtain ⟨x, a, ha, _⟩ := h .lophy (by decide)
  exact ⟨x, a, ha⟩

theorem mergeCapabilities_eq_ok {first : AgentCapabilities} {rest : List AgentPtr}
    (hfirst : ∀ a ∈ rest, first.orthogonal a.2.capabilities = true)
    (hrest : rest.Pairwise fun a b => a.2.capabilities.orthogonal b.2.capabilities = true) :
    ∃ caps, mergeCapabilities first rest = .ok caps ∧
      ∀ c, c ∈ caps ↔ c ∈ first ∨ ∃ a ∈ rest, c ∈ a.2.capabilities := by
  induction rest generalizing first with
  | nil => exact ⟨first, rfl, by simp⟩
  | cons a rest ih =>
    rw [List.pairwise_cons] at hrest
    have hmerged : ∀ b ∈ rest,
        (first.mergeIn a.2.capabilities).orthogonal b.2.capabilities = true := by
      intro b hb
      have h1 := AgentCapabilities.orthogonal_iff.mp (hfirst b (by simp [hb]))
      have h2 := AgentCapabilities.orthogonal_iff.mp (hrest.1 b hb)
      rw [AgentCapabilities.orthogonal_iff]
      intro c hc
      rcases AgentCapabilities.mem_mergeIn.mp hc with hc | hc
      · exact h1 c hc
      · exact h2 c hc
    obtain ⟨caps, hcaps, hmem⟩ := ih hmerged hrest.2
    refine ⟨caps, ?_, ?_⟩
    · rw [mergeCapabilities, List.foldlM_cons, if_pos (hfirst a (by simp))]
      exact hcaps
    · intro c
      rw [hmem, AgentCapabilities.mem_mergeIn, or_assoc]
      simp

/-- The agents in iteration order, pairwise orthogonal. -/
theorem PairwiseOrthogonal.toList {s : SharedSet AgentInfo} (h : PairwiseOrthogonal s) :
    s.toList.Pairwise fun a b => a.2.capabilities.orthogonal b.2.capabilities = true := by
  have hnodup := nodup_addresses s
  rw [List.Nodup, List.pairwise_map] at hnodup
  refine hnodup.imp_of_mem ?_
  intro a b ha hb hne
  exact h a.1 b.1 a.2 b.2 (mem_toList_iff.mp ha) (mem_toList_iff.mp hb) hne

/-! ### Forming a base station -/

/-- The state after the pending agents of `bsId` have become a base station. -/
def form (r : Rib) (bsId : UInt64) : Rib :=
  activate
    { r with eNBConfigs :=
      r.eNBConfigs.insertIfNew bsId { bsId := bsId, agents := r.pendingOf bsId } }
    (r.pendingOf bsId)

private theorem activate_eq (r : Rib) (l : List AgentPtr) :
    l.foldl (fun r a =>
      { r with
        pendingAgents := r.pendingAgents.erase a.1
        agentConfigs := r.agentConfigs.insertIfNew a.2.agentId a }) r =
    { eNBConfigs := r.eNBConfigs
      pendingAgents := (l.map Prod.fst).foldl (fun m k => m.erase k) r.pendingAgents
      agentConfigs := (l.map fun a => (a.2.agentId, a)).foldl
        (fun m e => m.insertIfNew e.1 e.2) r.agentConfigs } := by
  induction l generalizing r with
  | nil => rfl
  | cons a l ih => rw [List.foldl_cons, ih]; rfl

theorem getElem?_eNBConfigs_form (b : UInt64) :
    (r.form bsId).eNBConfigs[b]? =
      if b = bsId ∧ r.eNBConfigs[bsId]? = none then
        some { bsId := bsId, agents := r.pendingOf bsId }
      else r.eNBConfigs[b]? := by
  rw [form, activate, activate_eq, Std.ExtTreeMap.getElem?_insertIfNew]
  by_cases hb : b = bsId
  · subst hb
    cases hx : r.eNBConfigs[b]? with
    | none =>
      have hmem : b ∉ r.eNBConfigs := by
        rw [Std.ExtTreeMap.mem_iff_isSome_getElem?, hx]
        simp
      simp [hmem]
    | some bs =>
      have hmem : b ∈ r.eNBConfigs := by
        rw [Std.ExtTreeMap.mem_iff_isSome_getElem?, hx]
        simp
      simp [hmem]
  · simp [hb, Ne.symm hb]

theorem getElem?_pendingAgents_form {x : ℕ} {a : AgentInfo} :
    (r.form bsId).pendingAgents[x]? = some a ↔
      r.pendingAgents[x]? = some a ∧ a.bsId ≠ bsId := by
  rw [form, activate, activate_eq]
  simp only [getElem?_foldl_erase]
  have hmem : x ∈ (r.pendingOf bsId).toList.map Prod.fst ↔
      ∃ b, r.pendingAgents[x]? = some b ∧ b.bsId = bsId := by
    simp only [List.mem_map, Prod.exists, mem_toList_iff, getElem?_pendingOf, exists_and_right,
      exists_eq_right]
  simp only [hmem]
  cases hx : r.pendingAgents[x]? with
  | none => simp
  | some b =>
    by_cases hb : b.bsId = bsId
    · have : ¬ (b = a ∧ a.bsId ≠ bsId) := by rintro ⟨rfl, h⟩; exact h hb
      simpa [hb] using this
    · simp only [Option.some.injEq, exists_eq_left', hb, if_false]
      exact ⟨fun h => ⟨h, h ▸ hb⟩, And.left⟩

/-- An active agent after forming was active before, or it is one of the new base station's. -/
theorem getElem?_agentConfigs_form {a : AgentPtr}
    (h : (r.form bsId).agentConfigs[agentId]? = some a) :
    r.agentConfigs[agentId]? = some a ∨
      (r.agentConfigs[agentId]? = none ∧ r.pendingAgents[a.1]? = some a.2 ∧ a.2.bsId = bsId ∧
        a.2.agentId = agentId) := by
  rw [form, activate, activate_eq] at h
  simp only [getElem?_foldl_insertIfNew, Option.or_eq_some_iff, Option.map_eq_some_iff] at h
  rcases h with h | ⟨hnone, e, he, rfl⟩
  · exact .inl h
  · have hmem := List.mem_of_find?_eq_some he
    have hid := List.find?_some he
    simp only [List.mem_map] at hmem
    obtain ⟨b, hb, rfl⟩ := hmem
    obtain ⟨hpend, hbs⟩ := getElem?_pendingOf.mp (mem_toList_iff.mp hb)
    exact .inr ⟨hnone, hpend, hbs, by simpa using hid⟩

/-- Forming keeps every entry of the active agents. -/
theorem getElem?_agentConfigs_form_of_some {a : AgentPtr} (h : r.agentConfigs[agentId]? = some a) :
    (r.form bsId).agentConfigs[agentId]? = some a := by
  rw [form, activate, activate_eq]
  simp [getElem?_foldl_insertIfNew, h]

/-- Every agent of the new base station has an entry afterwards. -/
theorem isSome_agentConfigs_form {x : ℕ} {a : AgentInfo} (h : r.pendingAgents[x]? = some a)
    (hbs : a.bsId = bsId) : ((r.form bsId).agentConfigs[a.agentId]?).isSome = true := by
  rw [form, activate, activate_eq]
  simp only [getElem?_foldl_insertIfNew, Option.isSome_or, Option.isSome_map, Bool.or_eq_true,
    List.find?_isSome, List.mem_map, decide_eq_true_eq]
  exact .inr ⟨_, ⟨(x, a), mem_toList_iff.mpr (getElem?_pendingOf.mpr ⟨h, hbs⟩), rfl⟩, rfl⟩

/-- The pending agents of a base station all have its id, so that its constructor succeeds. -/
theorem make_pendingOf (r : Rib) (bsId : UInt64) :
    EnbRibInfo.make bsId (r.pendingOf bsId) =
      .ok { bsId := bsId, agents := r.pendingOf bsId } := by
  rw [EnbRibInfo.make_eq_ok_iff]
  refine ⟨?_, rfl⟩
  intro x a ha
  exact (getElem?_pendingOf.mp ha).2

theorem covers_iff_toList {s : SharedSet AgentInfo} :
    Covers s ↔ ∀ c : BsCapability, c.Required → ∃ e ∈ s.toList, c ∈ e.2.capabilities := by
  simp only [Covers, Prod.exists, mem_toList_iff]

/-- With orthogonal pending agents, forming is attempted without a fault and succeeds exactly
where the base station is new and its pending agents are complete. -/
theorem newENBConfigEntry_spec (horth : PairwiseOrthogonal (r.pendingOf bsId)) :
    (r.eNBConfigs[bsId]? = none ∧ Covers (r.pendingOf bsId) ∧
      r.newENBConfigEntry bsId = .ok (true, r.form bsId)) ∨
    (¬ (r.eNBConfigs[bsId]? = none ∧ Covers (r.pendingOf bsId)) ∧
      r.newENBConfigEntry bsId = .ok (false, r)) := by
  rw [newENBConfigEntry]
  cases hbs : r.eNBConfigs[bsId]? with
  | some bs => exact .inr ⟨by simp, by simp [getBs, hbs, pure, Except.pure]⟩
  | none =>
    have hmake := make_pendingOf r bsId
    have hlist := horth.toList
    have hids : ∀ e ∈ (r.pendingOf bsId).toList, e.2.bsId = bsId := by
      intro e he
      exact (getElem?_pendingOf.mp (mem_toList_iff.mp he)).2
    simp only [getBs, hbs, Option.isSome_none, Bool.false_eq_true, if_false, true_and]
    rw [covers_iff_toList]
    match hl : (r.pendingOf bsId).toList with
    | [] =>
      refine .inr ⟨?_, rfl⟩
      intro h
      simpa using h .lophy (by decide)
    | [only] =>
      have hid : only.2.bsId = bsId := hids only (by simp [hl])
      simp only [List.mem_singleton, exists_eq_left]
      rw [← AgentCapabilities.isComplete_iff]
      by_cases hc : only.2.capabilities.isComplete = true
      · refine .inl ⟨hc, ?_⟩
        simp only [hc, if_true, hid, hmake, form, activate, hl, List.foldl_cons, List.foldl_nil]
        rfl
      · exact .inr ⟨hc, by simp [hc, pure, Except.pure]⟩
    | first :: second :: rest =>
      rw [hl, List.pairwise_cons] at hlist
      have hid : first.2.bsId = bsId := hids first (by simp [hl])
      obtain ⟨caps, hcaps, hmem⟩ := mergeCapabilities_eq_ok hlist.1 hlist.2
      have hcomplete : caps.isComplete = true ↔ ∀ c : BsCapability, c.Required →
          ∃ e ∈ first :: second :: rest, c ∈ e.2.capabilities := by
        rw [AgentCapabilities.isComplete_iff]
        simp [hmem]
      rw [← hcomplete]
      by_cases hc : caps.isComplete = true
      · refine .inl ⟨hc, ?_⟩
        simp only [hcaps, hid, hmake, bind, Except.bind, hc, if_true, form]
        rfl
      · refine .inr ⟨hc, ?_⟩
        simp only [hcaps, bind, Except.bind, hc, if_false, Bool.false_eq_true]
        rfl

/-! ### Dissolving a base station -/

/-- The state after the agent at `disconnected` has left its base station. -/
structure Dissolved (r : Rib) (disconnected : AgentPtr) (bs : EnbRibInfo) (r' : Rib) : Prop where
  eNBConfigs : r'.eNBConfigs = r.eNBConfigs.erase disconnected.2.bsId
  agentConfigs : ∀ id a, r'.agentConfigs[id]? = some a ↔ r.agentConfigs[id]? = some a ∧
    ∀ (x : ℕ) (b : AgentInfo), bs.agents[x]? = some b → b.agentId ≠ id
  pendingAgents : ∀ (x : ℕ), r'.pendingAgents[x]? =
    (r.pendingAgents[x]?).or (if x = disconnected.1 then none else bs.agents[x]?)

theorem removeENBConfigEntry_spec {disconnected : AgentPtr} {bs : EnbRibInfo}
    (ha : r.agentConfigs[agentId]? = some disconnected)
    (hbs : r.eNBConfigs[disconnected.2.bsId]? = some bs) :
    ∃ r', r.removeENBConfigEntry agentId = .ok (true, r') ∧ Dissolved r disconnected bs r' := by
  simp only [removeENBConfigEntry, ha, hbs, Except.ok.injEq, Prod.mk.injEq, true_and,
    exists_eq_left']
  refine ⟨rfl, ?_, ?_⟩
  · intro id a
    have hfold : bs.agents.toList.foldl (fun m b => m.erase b.2.agentId) r.agentConfigs =
        (bs.agents.toList.map fun b => b.2.agentId).foldl (fun m k => m.erase k)
          r.agentConfigs := by
      rw [List.foldl_map]
    simp only [hfold, getElem?_foldl_erase, ite_eq_iff, reduceCtorEq, and_false, false_or,
      List.mem_map, Prod.exists, mem_toList_iff, not_exists, not_and]
    exact And.comm
  · intro x
    have hget : (bs.agents.erase disconnected.1)[x]? =
        if x = disconnected.1 then none else bs.agents[x]? := by
      rw [Std.ExtTreeMap.getElem?_erase]
      by_cases hx : x = disconnected.1
      · simp [hx]
      · simp [hx, Ne.symm hx]
    rw [getElem?_foldl_insertIfNew, ← hget]
    congr 1
    cases hfind : (bs.agents.erase disconnected.1).toList.find? fun e => decide (e.1 = x) with
    | none =>
      symm
      rw [Option.map_none, Option.eq_none_iff_forall_ne_some]
      intro a hxa
      simpa using List.find?_eq_none.mp hfind (x, a) (mem_toList_iff.mpr hxa)
    | some e =>
      have hmem := mem_toList_iff.mp (List.mem_of_find?_eq_some hfind)
      have hx : e.1 = x := by simpa using List.find?_some hfind
      rw [← hx]
      exact hmem.symm

end Rib
end FlexRan.Rib
