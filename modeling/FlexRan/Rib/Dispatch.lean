import FlexRan.App.Log
import FlexRan.Rib.Directory

/-!
# The dispatcher

The dispatcher sorts the messages an agent may send into two kinds.  Hello and disconnect
messages move agents, as in `Outcome`.  All other messages at most update the state of one base
station and leave the agents where they are; none of them releases a connection.

What was proved of runs of hello and disconnect messages, and of the messages to one base
station, therefore holds of all messages: `Inv.dispatchMessage` and
`bsReachable_dispatchMessage`.

## Main definitions

* `ribEvent?`: the event of a message that moves agents.
* `Refreshed`: what the other messages do.
* `dispatchMessage_cases`: the two kinds.
* `receive`: one message; its runs lead to the reachable states of the RIB.
-/
namespace FlexRan.Rib

set_option linter.dupNamespace false

open Lib Protocol Rib App.Log

/-- The event that handling a message is, if the message moves agents. -/
def ribEvent? (agentId : ℤ) (inMessage : FlexranMessage) (endpoint : String) (want : ℕ) :
    Option RibEvent :=
  match inMessage.msg with
  | .hello m => some (.hello agentId m (inMessage.msgDir.getD .notSet) endpoint want)
  | .disconnect _ => some (.disconnect agentId)
  | _ => none

/-- At most one base station has been updated. -/
inductive Refreshed (r : Rib) : Rib → Prop
  | unchanged : Refreshed r r
  | updated {b : UInt64} {bs bs' : EnbRibInfo} (input : EnbRibInfo.Input)
      (hbs : r.eNBConfigs[b]? = some bs) (hstep : bs.step input = .ok bs') :
      Refreshed r { r with eNBConfigs := r.eNBConfigs.insert b bs' }

/-! ## Updates of a base station -/

namespace EnbRibInfo

variable {bs bs' : EnbRibInfo}

/-- The base station is the same one, with the same agents. -/
def Same (bs bs' : EnbRibInfo) : Prop := bs'.bsId = bs.bsId ∧ bs'.agents = bs.agents

theorem withUeMacInfo_same {rnti : UInt32} {f : UeMacRibInfo → Except Fault UeMacRibInfo}
    (h : bs.withUeMacInfo rnti f = .ok bs') : Same bs bs' := by
  rw [withUeMacInfo] at h
  split at h
  · exact Except.ok.inj h ▸ ⟨rfl, rfl⟩
  · exact absurd h (by simp)
  · obtain ⟨ue, _, h⟩ := bind_eq_ok_iff.mp h
    exact Except.ok.inj h ▸ ⟨rfl, rfl⟩

theorem updateCellMacInfo_same {i : ℕ} {report : FlexCellStatsReport}
    (h : bs.updateCellMacInfo i report = .ok bs') : Same bs bs' := by
  rw [updateCellMacInfo] at h
  split at h
  · exact Except.ok.inj h ▸ ⟨rfl, rfl⟩
  · exact absurd h (by simp)

/-- A loop whose rounds keep the base station keeps it. -/
theorem foldlM_same {ε : Type} {f : EnbRibInfo → ε → Except Fault EnbRibInfo}
    (hf : ∀ bs e bs', f bs e = .ok bs' → Same bs bs') {l : List ε}
    (h : l.foldlM f bs = .ok bs') : Same bs bs' :=
  run_invariant (fun s e t hs hstep =>
    ⟨(hf s e t hstep).1.trans hs.1, (hf s e t hstep).2.trans hs.2⟩) ⟨rfl, rfl⟩ h

theorem step_same {input : Input} (h : bs.step input = .ok bs') : Same bs bs' := by
  cases input with
  | eNBConfigReply m =>
    rw [← Except.ok.inj h, updateENBConfig]
    split <;> exact ⟨rfl, rfl⟩
  | ueConfigReply m =>
    rw [← Except.ok.inj h, updateUEConfig]
    exact ⟨rfl, rfl⟩
  | lcConfigReply m =>
    rw [← Except.ok.inj h, updateLCConfig]
    split <;> exact ⟨rfl, rfl⟩
  | ueStateChange m =>
    rw [← Except.ok.inj h, updateUEConfigStateChange]
    dsimp only
    split_ifs
    · split <;> exact ⟨rfl, rfl⟩
    · split <;> exact ⟨rfl, rfl⟩
    · split <;> exact ⟨rfl, rfl⟩
    · exact ⟨rfl, rfl⟩
  | sfTrigger m =>
    obtain ⟨bs₁, h₁, h₂⟩ := bind_eq_ok_iff.mp h
    have hdl := foldlM_same (fun _ _ _ => withUeMacInfo_same) h₁
    have hul := foldlM_same (fun _ _ _ => withUeMacInfo_same) h₂
    exact ⟨hul.1.trans hdl.1, hul.2.trans hdl.2⟩
  | statsReply m =>
    obtain ⟨bs₁, h₁, h₂⟩ := bind_eq_ok_iff.mp h
    have hue := foldlM_same (fun _ _ _ => withUeMacInfo_same) h₁
    have hcell := foldlM_same (fun _ _ _ => updateCellMacInfo_same) h₂
    exact ⟨hcell.1.trans hue.1, hcell.2.trans hue.2⟩

theorem Reachable.step {input : Input} (h : bs.Reachable) (hstep : bs.step input = .ok bs') :
    bs'.Reachable := by
  obtain ⟨bsId, agents, fresh, inputs, hmake, hrun⟩ := h
  exact ⟨bsId, agents, fresh, inputs ++ [input], hmake, run_concat_eq_ok.mpr ⟨bs, hrun, hstep⟩⟩

end EnbRibInfo

variable {r r' : Rib}

theorem updateBsFromAgent_refreshed {agentId : ℤ} (input : EnbRibInfo.Input)
    (h : updateBsFromAgent r agentId (·.step input) = .ok r') : Refreshed r r' := by
  rw [updateBsFromAgent] at h
  cases hbs : r.getBsFromAgent agentId with
  | none =>
    rw [hbs] at h
    rw [← Except.ok.inj h]
    exact .unchanged
  | some bs =>
    rw [hbs] at h
    obtain ⟨bs', hstep, h⟩ := bind_eq_ok_iff.mp h
    rw [← Except.ok.inj h]
    refine .updated input ?_ hstep
    by_cases hzero : r.getBsId agentId = 0
    · simp [getBsFromAgent, hzero] at hbs
    · simpa [getBsFromAgent, hzero, getBs] using hbs

/-- The messages whose handlers only update the base station of the agent. -/
theorem refreshed_of_map {agentId : ℤ} (input : EnbRibInfo.Input) {effects : List Effect}
    (h : (·, ([] : List Effect)) <$> updateBsFromAgent r agentId (·.step input) =
      .ok (r', effects)) :
    Refreshed r r' ∧ ∀ id, .releaseConnection id ∉ effects := by
  cases hr : updateBsFromAgent r agentId (·.step input) with
  | error f =>
    rw [hr] at h
    exact absurd h (by simp)
  | ok r'' =>
    rw [hr] at h
    obtain ⟨rfl, rfl⟩ := Prod.mk.inj (Except.ok.inj h)
    exact ⟨updateBsFromAgent_refreshed input hr, by simp⟩

theorem notMem_triggerBsConfig (r : Rib) (bsId : UInt64) (id : ℤ) :
    .releaseConnection id ∉ triggerBsConfig r bsId := by
  have hsend : ∀ msg, .releaseConnection id ∉ sendToBs r bsId msg := by
    intro msg
    rw [sendToBs]
    split <;> simp
  simp [triggerBsConfig, hsend]

theorem handleUeStateChange_cases {agentId : ℤ} {m : FlexUeStateChange} {effects : List Effect}
    (h : handleUeStateChange r agentId m = .ok (r', effects)) :
    Refreshed r r' ∧ ∀ id, .releaseConnection id ∉ effects := by
  obtain ⟨r'', hr'', h⟩ := bind_eq_ok_iff.mp h
  have hrefreshed : Refreshed r r'' := updateBsFromAgent_refreshed (.ueStateChange m) hr''
  cases hbs : r.getBsFromAgent agentId with
  | none =>
    rw [hbs] at h
    obtain ⟨rfl, rfl⟩ := Prod.mk.inj (Except.ok.inj h)
    exact ⟨hrefreshed, by simp⟩
  | some bs =>
    rw [hbs] at h
    obtain ⟨rfl, rfl⟩ := Prod.mk.inj (Except.ok.inj h)
    refine ⟨hrefreshed, fun id => ?_⟩
    split_ifs
    · simp [notMem_triggerBsConfig]
    · simp
    · simp
    · simp

theorem dispatchMessage_of_ribEvent {agentId : ℤ} {msg : FlexranMessage} {endpoint : String}
    {want : ℕ} {e : RibEvent} (he : ribEvent? agentId msg endpoint want = some e) :
    dispatchMessage r agentId msg endpoint want = handleEvent r e := by
  obtain ⟨dir, body⟩ := msg
  cases body with
  | hello m =>
    obtain rfl := Option.some.inj he
    rfl
  | disconnect header =>
    obtain rfl := Option.some.inj he
    rfl
  | _ => exact absurd he (by simp [ribEvent?])

/-- The two kinds of messages. -/
theorem dispatchMessage_cases (h : Inv r) {agentId : ℤ} {msg : FlexranMessage} {endpoint : String}
    {want : ℕ} {effects : List Effect}
    (hd : dispatchMessage r agentId msg endpoint want = .ok (r', effects)) :
    (∃ e, ribEvent? agentId msg endpoint want = some e ∧ Outcome r e r' effects) ∨
      (ribEvent? agentId msg endpoint want = none ∧ Refreshed r r' ∧
        ∀ id, .releaseConnection id ∉ effects) := by
  obtain ⟨dir, body⟩ := msg
  cases body with
  | hello m =>
    obtain ⟨r'', eff, hr'', ho⟩ := handleHello_outcome h agentId m (dir.getD .notSet) endpoint want
    obtain ⟨rfl, rfl⟩ := Prod.mk.inj (Except.ok.inj (hr''.symm.trans hd))
    exact .inl ⟨_, rfl, ho⟩
  | disconnect header =>
    obtain ⟨r'', eff, hr'', ho⟩ := handleDisconnect_outcome h agentId
    obtain ⟨rfl, rfl⟩ := Prod.mk.inj (Except.ok.inj (hr''.symm.trans hd))
    exact .inl ⟨_, rfl, ho⟩
  | statsReply m =>
    obtain ⟨r'', hr'', hd⟩ := bind_eq_ok_iff.mp hd
    obtain ⟨rfl, rfl⟩ := Prod.mk.inj (Except.ok.inj hd)
    refine .inr ⟨rfl, updateBsFromAgent_refreshed (.statsReply m) hr'', fun id => ?_⟩
    split <;> simp
  | ueStateChange m => exact .inr ⟨rfl, handleUeStateChange_cases hd⟩
  | sfTrigger m => exact .inr ⟨rfl, refreshed_of_map (.sfTrigger m) hd⟩
  | enbConfigReply m => exact .inr ⟨rfl, refreshed_of_map (.eNBConfigReply m) hd⟩
  | ueConfigReply m => exact .inr ⟨rfl, refreshed_of_map (.ueConfigReply m) hd⟩
  | lcConfigReply m => exact .inr ⟨rfl, refreshed_of_map (.lcConfigReply m) hd⟩
  | echoRequest header =>
    obtain ⟨rfl, rfl⟩ := Prod.mk.inj (Except.ok.inj hd)
    exact .inr ⟨rfl, .unchanged, by simp [handleEchoRequest]⟩
  | controlDelReq m =>
    obtain ⟨rfl, rfl⟩ := Prod.mk.inj (Except.ok.inj hd)
    refine .inr ⟨rfl, .unchanged, fun id => ?_⟩
    rw [handleControlDelegationRequest]
    split <;> simp
  | _ =>
    obtain ⟨rfl, rfl⟩ := Prod.mk.inj (Except.ok.inj hd)
    exact .inr ⟨rfl, .unchanged, by simp⟩

/-! ## What all messages keep -/

namespace Refreshed

theorem pendingAgents (h : Refreshed r r') : r'.pendingAgents = r.pendingAgents := by
  cases h <;> rfl

theorem agentConfigs (h : Refreshed r r') : r'.agentConfigs = r.agentConfigs := by
  cases h <;> rfl

/-- The base stations are the same ones, with the same agents. -/
theorem agents (h : Refreshed r r') (b : UInt64) :
    (r'.eNBConfigs[b]?).map EnbRibInfo.agents = (r.eNBConfigs[b]?).map EnbRibInfo.agents := by
  cases h with
  | unchanged => rfl
  | @updated c bs bs' input hbs hstep =>
    rw [Std.ExtTreeMap.getElem?_insert]
    by_cases hc : compare c b = .eq
    · rw [if_pos hc, ← Std.LawfulEqCmp.eq_of_compare hc, hbs]
      exact congrArg some (EnbRibInfo.step_same hstep).2
    · rw [if_neg hc]

/-- The ids of the base stations are the same. -/
theorem mem_iff (h : Refreshed r r') (b : UInt64) :
    b ∈ r'.eNBConfigs ↔ b ∈ r.eNBConfigs := by
  simp only [Std.ExtTreeMap.mem_iff_isSome_getElem?]
  have hagents := congrArg Option.isSome (h.agents b)
  rw [Option.isSome_map, Option.isSome_map] at hagents
  rw [hagents]

theorem exists_bs (h : Refreshed r r') {b : UInt64} {bs' : EnbRibInfo}
    (hbs : r'.eNBConfigs[b]? = some bs') :
    ∃ bs, r.eNBConfigs[b]? = some bs ∧ bs.agents = bs'.agents := by
  have hagents := h.agents b
  rw [hbs] at hagents
  exact Option.map_eq_some_iff.mp hagents.symm

theorem memberOf_iff (h : Refreshed r r') {b : UInt64} {x : ℕ} {a : AgentInfo} :
    r'.MemberOf b x a ↔ r.MemberOf b x a := by
  have hiff : ∀ s : Rib, s.MemberOf b x a ↔
      ∃ agents, (s.eNBConfigs[b]?).map EnbRibInfo.agents = some agents ∧ agents[x]? = some a := by
    intro s
    simp [MemberOf]
  rw [hiff, hiff, h.agents]

theorem live_iff (h : Refreshed r r') {x : ℕ} {a : AgentInfo} : r'.Live x a ↔ r.Live x a := by
  have hmember : (∃ (b : UInt64) (bs : EnbRibInfo), r'.eNBConfigs[b]? = some bs ∧
      bs.agents[x]? = some a) ↔ ∃ (b : UInt64) (bs : EnbRibInfo), r.eNBConfigs[b]? = some bs ∧
      bs.agents[x]? = some a := exists_congr fun b => h.memberOf_iff
  rw [Live, Live, hmember, h.pendingAgents, h.agentConfigs]

theorem eq_none (h : Refreshed r r') {b : UInt64} (hnone : r.eNBConfigs[b]? = none) :
    r'.eNBConfigs[b]? = none := by
  have hagents := h.agents b
  rw [hnone] at hagents
  exact Option.map_eq_none_iff.mp hagents

theorem inv (h : Refreshed r r') (hinv : Inv r) : Inv r' where
  baseStation b bs' hbs' := by
    obtain ⟨bs, hbs, hagents⟩ := h.exists_bs hbs'
    have hsound := hinv.baseStation b bs hbs
    exact
      { nonempty := hagents ▸ hsound.nonempty
        members := hagents ▸ hsound.members
        orthogonal := hagents ▸ hsound.orthogonal
        covers := hagents ▸ hsound.covers }
  pending_orthogonal b := by
    rw [Rib.pendingOf, h.pendingAgents]
    exact hinv.pending_orthogonal b
  pending_new x a ha := h.eq_none (hinv.pending_new x a (h.pendingAgents ▸ ha))
  active id p hp := h.memberOf_iff.mpr (hinv.active id p (h.agentConfigs ▸ hp))
  active_agentId id p hp := hinv.active_agentId id p (h.agentConfigs ▸ hp)
  bsId_ne_zero b bs' hbs' := by
    obtain ⟨bs, hbs, _⟩ := h.exists_bs hbs'
    exact hinv.bsId_ne_zero b bs hbs
  pending_bsId_ne_zero x a ha := hinv.pending_bsId_ne_zero x a (h.pendingAgents ▸ ha)
  object_unique x a c ha hc := hinv.object_unique x a c (h.live_iff.mp ha) (h.live_iff.mp hc)

end Refreshed

/-! ## The base stations after a message -/

theorem sendToBs_eq {r : Rib} {b : UInt64} {bs : EnbRibInfo} (hbs : r.eNBConfigs[b]? = some bs)
    (msg : FlexranMessage) :
    sendToBs r b msg = bs.agents.toList.map fun a => .sendMsg a.2.agentId msg := by
  rw [sendToBs, getBs, hbs]

theorem mem_sendToBs {r : Rib} {b : UInt64} {msg : FlexranMessage} {f : Effect} :
    f ∈ sendToBs r b msg ↔ ∃ x a, r.MemberOf b x a ∧ f = .sendMsg a.agentId msg := by
  rw [sendToBs, getBs]
  cases hbs : r.eNBConfigs[b]? with
  | none => simp [MemberOf, hbs]
  | some bs => simp [MemberOf, hbs, eq_comm]

theorem sendMsg_of_mem_triggerBsConfig {r : Rib} {b : UInt64} {f : Effect}
    (hf : f ∈ triggerBsConfig r b) : ∃ id msg, f = .sendMsg id msg := by
  simp only [triggerBsConfig, List.mem_append, mem_sendToBs] at hf
  rcases hf with (⟨x, a, _, rfl⟩ | ⟨x, a, _, rfl⟩) | ⟨x, a, _, rfl⟩ <;> exact ⟨_, _, rfl⟩

theorem mem_eNBConfigs_form {r : Rib} {b c : UInt64} (hnew : r.eNBConfigs[c]? = none) :
    b ∈ (r.form c).eNBConfigs ↔ c = b ∨ b ∈ r.eNBConfigs := by
  simp only [Std.ExtTreeMap.mem_iff_isSome_getElem?, getElem?_eNBConfigs_form]
  by_cases hb : b = c
  · simp [hb, hnew]
  · simp [hb, Ne.symm hb]

theorem mem_eNBConfigs_dissolved {r r' : Rib} {p : AgentPtr} {bs : EnbRibInfo}
    (hd : Dissolved r p bs r') {b : UInt64} :
    b ∈ r'.eNBConfigs ↔ p.2.bsId ≠ b ∧ b ∈ r.eNBConfigs := by
  rw [hd.eNBConfigs, Std.ExtTreeMap.mem_erase]
  simp

/-- The containers agree after every message. -/
theorem Inv.dispatchMessage (h : Inv r) {agentId : ℤ} {msg : FlexranMessage} {endpoint : String}
    {want : ℕ} {effects : List Effect}
    (hd : dispatchMessage r agentId msg endpoint want = .ok (r', effects)) : Inv r' := by
  rcases dispatchMessage_cases h hd with ⟨e, _, ho⟩ | ⟨_, hrefreshed, _⟩
  · exact ho.inv h
  · exact hrefreshed.inv h

/-! ## Properties of all base stations -/

section ForAllBs

/-- The property holds of every base station, under its key. -/
def ForAllBs (P : UInt64 → EnbRibInfo → Prop) (r : Rib) : Prop :=
  ∀ (b : UInt64) bs, r.eNBConfigs[b]? = some bs → P b bs

variable {P : UInt64 → EnbRibInfo → Prop}
  (hform : ∀ b bs, EnbRibInfo.make b bs.agents = .ok bs → P b bs)
  (hstep : ∀ b bs input bs', P b bs → bs.step input = .ok bs' → P b bs')

include hform in
theorem forAllBs_form (h : ForAllBs P r) (b : UInt64) : ForAllBs P (r.form b) := by
  intro c bs hbs
  rw [getElem?_eNBConfigs_form] at hbs
  split at hbs
  next hc =>
    obtain rfl := Option.some.inj hbs
    rw [hc.1]
    exact hform b _ (EnbRibInfo.make_eq_ok_iff.mpr
      ⟨fun x a ha => (getElem?_pendingOf.mp ha).2, rfl⟩)
  next => exact h c bs hbs

include hform in
theorem Outcome.forAllBs {e : RibEvent} {effects : List Effect} (ho : Outcome r e r' effects)
    (h : ForAllBs P r) : ForAllBs P r' := by
  cases ho with
  | rejected _ => exact h
  | waiting _ _ _ _ => exact h
  | formed x _ _ _ => exact forAllBs_form hform (r := r.pend x _) h _
  | dissolved _ _ hd =>
    intro b bs hbs
    rw [hd.getElem?_eNBConfigs] at hbs
    split at hbs
    · exact absurd hbs (by simp)
    · exact h b bs hbs
  | withdrawn _ _ _ _ => exact h
  | unknown _ _ => exact h

include hstep in
theorem Refreshed.forAllBs (hr : Refreshed r r') (h : ForAllBs P r) : ForAllBs P r' := by
  cases hr with
  | unchanged => exact h
  | @updated b bs bs' input hbs hinput =>
    intro c bs'' hc
    rw [Std.ExtTreeMap.getElem?_insert] at hc
    split at hc
    next heq =>
      rw [← Option.some.inj hc, ← Std.LawfulEqCmp.eq_of_compare heq]
      exact hstep b bs input bs' (h b bs hbs) hinput
    next => exact h c bs'' hc

include hform hstep in
/-- What new base stations satisfy and updates keep holds of all base stations. -/
theorem forAllBs_dispatchMessage (hinv : Inv r) (h : ForAllBs P r) {agentId : ℤ}
    {msg : FlexranMessage} {endpoint : String} {want : ℕ} {effects : List Effect}
    (hd : dispatchMessage r agentId msg endpoint want = .ok (r', effects)) : ForAllBs P r' := by
  rcases dispatchMessage_cases hinv hd with ⟨e, _, ho⟩ | ⟨_, hrefreshed, _⟩
  · exact ho.forAllBs hform h
  · exact hrefreshed.forAllBs hstep h

end ForAllBs

/-- Every base station stays in a state that messages can lead to, so that the applications
that walk over the RIB find no null pointer. -/
theorem bsReachable_dispatchMessage (hinv : Inv r) (h : BsReachable r) {agentId : ℤ}
    {msg : FlexranMessage} {endpoint : String} {want : ℕ} {effects : List Effect}
    (hd : dispatchMessage r agentId msg endpoint want = .ok (r', effects)) : BsReachable r' :=
  forAllBs_dispatchMessage (P := fun _ bs => bs.Reachable)
    (fun b bs hmake => ⟨b, bs.agents, bs, [], hmake, rfl⟩)
    (fun _ _ _ _ hbs hstep => hbs.step hstep) hinv h hd

/-- Base stations are stored under their ids. -/
def BsNamed (r : Rib) : Prop := ∀ (b : UInt64) bs, r.eNBConfigs[b]? = some bs → bs.bsId = b

theorem bsNamed_dispatchMessage (hinv : Inv r) (h : BsNamed r) {agentId : ℤ}
    {msg : FlexranMessage} {endpoint : String} {want : ℕ} {effects : List Effect}
    (hd : dispatchMessage r agentId msg endpoint want = .ok (r', effects)) : BsNamed r' :=
  forAllBs_dispatchMessage (P := fun b bs => bs.bsId = b)
    (fun b bs hmake => by rw [(EnbRibInfo.make_eq_ok_iff.mp hmake).2])
    (fun _ _ _ _ hbs hstep => (EnbRibInfo.step_same hstep).1.trans hbs) hinv h hd

/-! ## Runs -/

/-- A message of an agent, with the address of its socket and where the allocator would like to
put an agent object. -/
structure Received where
  agentId : ℤ
  msg : FlexranMessage
  endpoint : String := ""
  want : ℕ := 0

/-- The RIB after a message. -/
def receive (r : Rib) (e : Received) : Except Fault Rib := do
  let (r, _) ← dispatchMessage r e.agentId e.msg e.endpoint e.want
  return r

theorem sound_empty : Inv {} ∧ BsReachable {} :=
  ⟨inv_empty, fun _ _ hbs => absurd hbs (by simp)⟩

theorem sound_receive {e : Received} (h : Inv r ∧ BsReachable r) (hstep : receive r e = .ok r') :
    Inv r' ∧ BsReachable r' := by
  obtain ⟨⟨r'', effects⟩, hd, ht⟩ := bind_eq_ok_iff.mp hstep
  obtain rfl := Except.ok.inj ht
  exact ⟨h.1.dispatchMessage hd, bsReachable_dispatchMessage h.1 h.2 hd⟩

/-- In every state of a run the containers agree and the base stations are in states that messages
lead to. -/
theorem run_receive_sound {events : List Received} (hrun : run receive {} events = .ok r) :
    Inv r ∧ BsReachable r :=
  run_invariant (I := fun r => Inv r ∧ BsReachable r) (fun _ _ _ h hstep => sound_receive h hstep)
    sound_empty hrun

end FlexRan.Rib
