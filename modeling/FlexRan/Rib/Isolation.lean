import FlexRan.Rib.Dispatch

/-!
# What a message of an agent concerns

Messages other than hello and disconnect concern the base station of the agent that sent them:
they change the state of no other base station, ask for messages to the agents of that base
station or to the sender, and raise events of that base station.  A message of an agent without a
base station concerns the sender only.

## Main definitions

* `Concerns`: an effect is about the agent or its base station.
* `dispatchMessage_concerns`: what the dispatcher does with such a message.
-/
namespace FlexRan.Rib

set_option linter.dupNamespace false

open Lib Protocol Rib

/-- An agent of the base station that `agentId` is an agent of. -/
def Colleague (r : Rib) (agentId id : ℤ) : Prop :=
  agentId ∈ r.agentConfigs ∧
    ∃ (bs : EnbRibInfo) (x : ℕ) (a : AgentInfo), r.eNBConfigs[r.getBsId agentId]? = some bs ∧
      bs.agents[x]? = some a ∧ a.agentId = id

/-- The effect is about the agent or its base station. -/
def Concerns (r : Rib) (agentId : ℤ) : Effect → Prop
  | .sendMsg id _ => id = agentId ∨ Colleague r agentId id
  | .ueConnect bsId _ | .ueUpdate bsId _ | .ueDisconnect bsId _ | .controlDelReq bsId _ =>
    agentId ∈ r.agentConfigs ∧ bsId = r.getBsId agentId
  | .releaseConnection _ | .bsAdd _ | .bsRemove _ => False

variable {r r' : Rib} {agentId : ℤ} {effects : List Effect}

theorem getBsId_of_notMem (h : agentId ∉ r.agentConfigs) : r.getBsId agentId = 0 := by
  rw [Rib.getBsId, Std.ExtTreeMap.getElem?_eq_none h]

theorem mem_of_getBsId_ne_zero (h : r.getBsId agentId ≠ 0) : agentId ∈ r.agentConfigs := by
  by_contra hnot
  exact h (getBsId_of_notMem hnot)

/-- The base station of an agent. -/
theorem getBsFromAgent_eq_some {bs : EnbRibInfo} (h : r.getBsFromAgent agentId = some bs) :
    agentId ∈ r.agentConfigs ∧ r.eNBConfigs[r.getBsId agentId]? = some bs := by
  by_cases hzero : r.getBsId agentId = 0
  · simp [Rib.getBsFromAgent, hzero] at h
  · exact ⟨mem_of_getBsId_ne_zero hzero, by simpa [Rib.getBsFromAgent, hzero, Rib.getBs] using h⟩

theorem getBsFromAgent_of_notMem (h : agentId ∉ r.agentConfigs) :
    r.getBsFromAgent agentId = none := by
  simp [Rib.getBsFromAgent, getBsId_of_notMem h]

/-- Messages to a base station go to its agents, also after an update. -/
theorem concerns_sendToBs (hrefreshed : Refreshed r r') (hagent : agentId ∈ r.agentConfigs)
    (msg : FlexranMessage) {e : Effect} (he : e ∈ sendToBs r' (r.getBsId agentId) msg) :
    Concerns r agentId e := by
  rw [sendToBs, Rib.getBs] at he
  cases hbs' : r'.eNBConfigs[r.getBsId agentId]? with
  | none => simp [hbs'] at he
  | some bs' =>
    rw [hbs'] at he
    obtain ⟨⟨x, a⟩, ha, rfl⟩ := List.mem_map.mp he
    obtain ⟨bs, hbs, hagents⟩ := hrefreshed.exists_bs hbs'
    rw [Std.ExtTreeMap.mem_toList_iff_getElem?_eq_some, ← hagents] at ha
    exact .inr ⟨hagent, bs, x, a, hbs, ha, rfl⟩

theorem concerns_triggerBsConfig (hrefreshed : Refreshed r r') (hagent : agentId ∈ r.agentConfigs)
    {e : Effect} (he : e ∈ triggerBsConfig r' (r.getBsId agentId)) : Concerns r agentId e := by
  rw [triggerBsConfig, List.mem_append, List.mem_append] at he
  rcases he with (he | he) | he
  · exact concerns_sendToBs hrefreshed hagent _ he
  · exact concerns_sendToBs hrefreshed hagent _ he
  · exact concerns_sendToBs hrefreshed hagent _ he

/-! ## The state of the base stations -/

/-- At most the base station of the agent has changed. -/
structure OwnOnly (r r' : Rib) (agentId : ℤ) : Prop where
  refreshed : Refreshed r r'
  others : ∀ b, b ≠ r.getBsId agentId → r'.eNBConfigs[b]? = r.eNBConfigs[b]?
  unknown : agentId ∉ r.agentConfigs → r' = r

theorem OwnOnly.refl (r : Rib) (agentId : ℤ) : OwnOnly r r agentId :=
  ⟨.unchanged, fun _ _ => rfl, fun _ => rfl⟩

theorem ownOnly_updateBsFromAgent (input : EnbRibInfo.Input)
    (h : updateBsFromAgent r agentId (·.step input) = .ok r') : OwnOnly r r' agentId where
  refreshed := updateBsFromAgent_refreshed input h
  others b hb := by
    rw [updateBsFromAgent] at h
    split at h
    · rw [← Except.ok.inj h]
    · obtain ⟨bs', _, h⟩ := bind_eq_ok_iff.mp h
      rw [← Except.ok.inj h, Std.ExtTreeMap.getElem?_insert,
        if_neg fun heq => hb (Std.LawfulEqCmp.eq_of_compare heq).symm]
  unknown hagent := by
    rw [updateBsFromAgent, getBsFromAgent_of_notMem hagent] at h
    exact (Except.ok.inj h).symm

/-- The messages whose handlers only update the base station of the agent. -/
theorem ownOnly_of_map (input : EnbRibInfo.Input)
    (h : (·, ([] : List Effect)) <$> updateBsFromAgent r agentId (·.step input) =
      .ok (r', effects)) :
    OwnOnly r r' agentId ∧ ∀ e ∈ effects, Concerns r agentId e := by
  cases hr : updateBsFromAgent r agentId (·.step input) with
  | error f =>
    rw [hr] at h
    exact nomatch h
  | ok r'' =>
    rw [hr] at h
    obtain ⟨rfl, rfl⟩ := Prod.mk.inj (Except.ok.inj h)
    exact ⟨ownOnly_updateBsFromAgent input hr, by simp⟩

theorem handleStatsReply_concerns {m : FlexStatsReply}
    (h : handleStatsReply r agentId m = .ok (r', effects)) :
    OwnOnly r r' agentId ∧ ∀ e ∈ effects, Concerns r agentId e := by
  obtain ⟨r'', hr'', h⟩ := bind_eq_ok_iff.mp h
  obtain ⟨rfl, rfl⟩ := Prod.mk.inj (Except.ok.inj h)
  refine ⟨ownOnly_updateBsFromAgent (.statsReply m) hr'', fun e he => ?_⟩
  split at he
  · exact absurd he (by simp)
  · obtain rfl := List.mem_singleton.mp he
    exact .inl rfl

theorem handleUeStateChange_concerns (hnamed : BsNamed r) {m : FlexUeStateChange}
    (h : handleUeStateChange r agentId m = .ok (r', effects)) :
    OwnOnly r r' agentId ∧ ∀ e ∈ effects, Concerns r agentId e := by
  obtain ⟨r'', hr'', h⟩ := bind_eq_ok_iff.mp h
  have hown := ownOnly_updateBsFromAgent (.ueStateChange m) hr''
  cases hbs : r.getBsFromAgent agentId with
  | none =>
    rw [hbs] at h
    obtain ⟨rfl, rfl⟩ := Prod.mk.inj (Except.ok.inj h)
    exact ⟨hown, by simp⟩
  | some bs =>
    rw [hbs] at h
    obtain ⟨rfl, rfl⟩ := Prod.mk.inj (Except.ok.inj h)
    obtain ⟨hagent, hbs⟩ := getBsFromAgent_eq_some hbs
    have hid : bs.bsId = r.getBsId agentId := hnamed _ bs hbs
    refine ⟨hown, fun e he => ?_⟩
    rw [hid] at he
    split_ifs at he
    · rcases List.mem_cons.mp he with rfl | he
      · exact ⟨hagent, rfl⟩
      · exact concerns_triggerBsConfig hown.refreshed hagent he
    · obtain rfl := List.mem_singleton.mp he
      exact ⟨hagent, rfl⟩
    · obtain rfl := List.mem_singleton.mp he
      exact ⟨hagent, rfl⟩
    · exact absurd he (by simp)

theorem handleControlDelegationRequest_concerns {m : FlexControlDelegationRequest} {e : Effect}
    (he : e ∈ handleControlDelegationRequest r agentId m) : Concerns r agentId e := by
  rw [handleControlDelegationRequest] at he
  split at he
  next => exact absurd he (by simp)
  next hne =>
    obtain rfl := List.mem_singleton.mp he
    exact ⟨mem_of_getBsId_ne_zero hne, rfl⟩

/-- A message other than hello and disconnect concerns the base station of its agent. -/
theorem dispatchMessage_concerns (hnamed : BsNamed r) {msg : FlexranMessage} {endpoint : String}
    {want : ℕ} (hkind : ribEvent? agentId msg endpoint want = none)
    (hd : dispatchMessage r agentId msg endpoint want = .ok (r', effects)) :
    OwnOnly r r' agentId ∧ ∀ e ∈ effects, Concerns r agentId e := by
  obtain ⟨dir, body⟩ := msg
  cases body with
  | hello m => exact nomatch hkind
  | disconnect header => exact nomatch hkind
  | statsReply m => exact handleStatsReply_concerns hd
  | ueStateChange m => exact handleUeStateChange_concerns hnamed hd
  | sfTrigger m => exact ownOnly_of_map (.sfTrigger m) hd
  | enbConfigReply m => exact ownOnly_of_map (.eNBConfigReply m) hd
  | ueConfigReply m => exact ownOnly_of_map (.ueConfigReply m) hd
  | lcConfigReply m => exact ownOnly_of_map (.lcConfigReply m) hd
  | echoRequest header =>
    obtain ⟨rfl, rfl⟩ := Prod.mk.inj (Except.ok.inj hd)
    refine ⟨.refl _ _, fun e he => ?_⟩
    obtain rfl := List.mem_singleton.mp he
    exact .inl rfl
  | controlDelReq m =>
    obtain ⟨rfl, rfl⟩ := Prod.mk.inj (Except.ok.inj hd)
    exact ⟨.refl _ _, fun e he => handleControlDelegationRequest_concerns he⟩
  | _ =>
    obtain ⟨rfl, rfl⟩ := Prod.mk.inj (Except.ok.inj hd)
    exact ⟨.refl _ _, by simp⟩

/-! ## Base stations that come and go -/

/-- The message removes a base station: it disconnects one of its agents. -/
def Removes (r : Rib) (agentId : ℤ) (msg : FlexranMessage) (b : UInt64) : Prop :=
  (∃ header, msg.msg = .disconnect header) ∧
    ∃ p, r.agentConfigs[agentId]? = some p ∧ p.2.bsId = b

/-- The effects announce neither that a base station was added nor that one was removed. -/
def Quiet (effects : List Effect) : Prop := ∀ b, .bsAdd b ∉ effects ∧ .bsRemove b ∉ effects

/-- A message keeps the base stations, adds one or removes one, and announces it. -/
inductive BsChange (r r' : Rib) (agentId : ℤ) (msg : FlexranMessage) (effects : List Effect) : Prop
  | kept (hkeys : ∀ b, b ∈ r'.eNBConfigs ↔ b ∈ r.eNBConfigs) (hquiet : Quiet effects)
      (hnot : ∀ b, ¬ Removes r agentId msg b)
  | added (b : UInt64) (sent : List Effect) (hnew : b ∉ r.eNBConfigs)
      (hkeys : ∀ c, c ∈ r'.eNBConfigs ↔ b = c ∨ c ∈ r.eNBConfigs)
      (heffects : effects = sent ++ [.bsAdd b]) (hquiet : Quiet sent)
      (hnot : ∀ b, ¬ Removes r agentId msg b)
  | removed (b : UInt64) (hold : b ∈ r.eNBConfigs)
      (hkeys : ∀ c, c ∈ r'.eNBConfigs ↔ b ≠ c ∧ c ∈ r.eNBConfigs)
      (heffects : effects = [.bsRemove b, .releaseConnection agentId])
      (hremoves : Removes r agentId msg b)

theorem quiet_releaseConnection (id : ℤ) : Quiet [.releaseConnection id] := fun b => by simp

theorem quiet_of_concerns (h : ∀ e ∈ effects, Concerns r agentId e) : Quiet effects :=
  fun _ => ⟨fun hmem => h _ hmem, fun hmem => h _ hmem⟩

theorem quiet_triggerBsConfig (r : Rib) (b : UInt64) : Quiet (triggerBsConfig r b) := by
  intro c
  constructor
  · intro hmem
    obtain ⟨id, msg, he⟩ := sendMsg_of_mem_triggerBsConfig hmem
    exact absurd he (by simp)
  · intro hmem
    obtain ⟨id, msg, he⟩ := sendMsg_of_mem_triggerBsConfig hmem
    exact absurd he (by simp)

theorem Outcome.bsChange {msg : FlexranMessage} {endpoint : String} {want : ℕ} {e : RibEvent}
    (he : ribEvent? agentId msg endpoint want = some e) (ho : Outcome r e r' effects) :
    BsChange r r' agentId msg effects := by
  obtain ⟨dir, body⟩ := msg
  cases body with
  | hello m =>
    obtain rfl := Option.some.inj he
    have hnot : ∀ b, ¬ Removes r agentId ⟨dir, .hello m⟩ b := fun b h => by
      obtain ⟨header, hheader⟩ := h.1
      exact absurd hheader (by simp)
    cases ho with
    | rejected h => exact .kept (fun _ => Iff.rfl) (quiet_releaseConnection _) hnot
    | waiting x haccepts hfresh h =>
      exact .kept (fun _ => Iff.rfl) (fun b => by simp) hnot
    | formed x haccepts hfresh h =>
      refine .added _ _ ?_ (fun c => mem_eNBConfigs_form (b := c) haccepts.new_bs) rfl
        (quiet_triggerBsConfig _ _) hnot
      rw [Std.ExtTreeMap.mem_iff_isSome_getElem?, haccepts.new_bs]
      simp
  | disconnect header =>
    obtain rfl := Option.some.inj he
    have hremoves : ∀ b, Removes r agentId ⟨dir, .disconnect header⟩ b ↔
        ∃ p, r.agentConfigs[agentId]? = some p ∧ p.2.bsId = b := fun b =>
      and_iff_right ⟨header, rfl⟩
    cases ho with
    | @dissolved _ p bs _ hp hbs hd =>
      refine .removed p.2.bsId ?_ (fun c => mem_eNBConfigs_dissolved hd) rfl
        ((hremoves _).mpr ⟨p, hp, rfl⟩)
      rw [Std.ExtTreeMap.mem_iff_isSome_getElem?, hbs]
      simp
    | withdrawn x hnone ha hid =>
      refine .kept (fun _ => Iff.rfl) (quiet_releaseConnection _) fun b h => ?_
      obtain ⟨p, hp, -⟩ := (hremoves b).mp h
      exact absurd (hnone.symm.trans hp) (by simp)
    | unknown hnone hnot =>
      refine .kept (fun _ => Iff.rfl) (quiet_releaseConnection _) fun b h => ?_
      obtain ⟨p, hp, -⟩ := (hremoves b).mp h
      exact absurd (hnone.symm.trans hp) (by simp)
  | _ => exact absurd he (by simp [ribEvent?])

theorem dispatchMessage_bsChange (hinv : Inv r) (hnamed : BsNamed r) {msg : FlexranMessage}
    {endpoint : String} {want : ℕ}
    (hd : dispatchMessage r agentId msg endpoint want = .ok (r', effects)) :
    BsChange r r' agentId msg effects := by
  rcases dispatchMessage_cases hinv hd with ⟨e, he, ho⟩ | ⟨hkind, hrefreshed, -⟩
  · exact ho.bsChange he
  · refine .kept hrefreshed.mem_iff
      (quiet_of_concerns (dispatchMessage_concerns hnamed hkind hd).2) fun b h => ?_
    obtain ⟨header, hheader⟩ := h.1
    rw [ribEvent?, hheader] at hkind
    exact absurd hkind (by simp)

end FlexRan.Rib
