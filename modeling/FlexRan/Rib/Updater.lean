import FlexRan.Rib.Rib

/-!
# The RIB updater

The dispatcher of agent messages and its handlers.  A handler changes the RIB and asks the
rest of the controller for something: to send a message, to release a connection, to run the
subscribers of an event.  These requests are the `Effect`s of the call, in order.

The handlers of hello and disconnect messages are the only ones that move agents.
`Outcome` is the relation between the states before and after, with one constructor for each
exit of the two.

## Main definitions

* `handleHello`, `handleDisconnect`, ..., `dispatchMessage`: the handlers.
* `RibEvent`, `ribStep`: runs of hello and disconnect messages.
* `Outcome`: the exits of a step.
-/
namespace FlexRan.Rib

set_option linter.dupNamespace false

open Lib Lib.Message Protocol

inductive Effect
  | sendMsg (agentId : ℤ) (msg : FlexranMessage)
  | releaseConnection (agentId : ℤ)
  | bsAdd (bsId : UInt64)
  | bsRemove (bsId : UInt64)
  | ueConnect (bsId : UInt64) (rnti : UInt32)
  | ueUpdate (bsId : UInt64) (rnti : UInt32)
  | ueDisconnect (bsId : UInt64) (rnti : UInt32)
  | controlDelReq (bsId : UInt64) (msg : FlexControlDelegationRequest)

/-! ## Requests -/

/-- `requests_manager::send_message`: send to all agents of a base station. -/
def sendToBs (r : Rib) (bsId : UInt64) (msg : FlexranMessage) : List Effect :=
  match r.getBs bsId with
  | none => []
  | some bs => bs.agents.toList.map fun a => .sendMsg a.2.agentId msg

/-- Ask for the eNB, UE and LC configurations. The version of the last header is never set. -/
def triggerBsConfig (r : Rib) (bsId : UInt64) : List Effect :=
  sendToBs r bsId
    { msgDir := some .initiatingMessage
      msg := .enbConfigRequest
        (some { type := some flptGetEnbConfigRequest, version := some 0, xid := some 0 }) } ++
  sendToBs r bsId
    { msgDir := some .initiatingMessage
      msg := .ueConfigRequest
        (some { type := some flptGetUeConfigRequest, version := some 0, xid := some 1 }) } ++
  sendToBs r bsId
    { msgDir := some .initiatingMessage
      msg := .lcConfigRequest (some { type := some flptGetLcConfigRequest, xid := some 2 }) }

def handleNewConnection (agentId : ℤ) : List Effect :=
  [.sendMsg agentId
    { msgDir := some .initiatingMessage
      msg := .hello
        { header := some { type := some flptHello, version := some 0, xid := some 0 } } }]

/-! ## Hello -/

def bsIdOffset : ℤ := 10000

/-- What an agent that lists no capabilities is assumed to have. -/
def defaultCapabilities : List BsCapability :=
  [.lophy, .hiphy, .lomac, .himac, .rlc, .pdcp, .rrc, .sdap]

/-- The copy of a hello message with the values of old agents filled in. -/
def fillHello (agentId : ℤ) (hello : FlexHello) : FlexHello :=
  { hello with
    bsId := if hello.bsId.getD 0 = 0 then some (UInt64.ofInt (bsIdOffset + agentId))
      else hello.bsId
    capabilities := if hello.capabilities = [] then defaultCapabilities
      else hello.capabilities }

/-- The addresses of all agent objects that are alive. -/
def Rib.liveAddresses (r : Rib) : List ℕ :=
  r.pendingAgents.toList.map Prod.fst ++
  r.eNBConfigs.toList.flatMap (fun e => e.2.agents.toList.map Prod.fst) ++
  r.agentConfigs.toList.map (fun e => e.2.1)

/-- `endpoint` is the address of the agent's socket; `want` is where the allocator would like
to put the agent object. -/
def handleHello (r : Rib) (agentId : ℤ) (helloMsg : FlexHello) (dir : FlexranDirection)
    (endpoint : String) (want : ℕ) : Except Fault (Rib × List Effect) := do
  if dir ≠ .successfulOutcome then return (r, [.releaseConnection agentId])
  let helloCopy := fillHello agentId helloMsg
  let capabilities ← AgentCapabilities.ofProto helloCopy.capabilities
  let agent : AgentPtr := (freshAddr want r.liveAddresses,
    { agentId := agentId, bsId := helloCopy.bsId.getD 0, capabilities := capabilities
      splits := helloCopy.splits, portIp := endpoint })
  if (r.getBs agent.2.bsId).isSome then return (r, [.releaseConnection agentId])
  let (added, r) := r.addPendingAgent agent
  if !added then return (r, [.releaseConnection agentId])
  let (complete, r) ← r.newENBConfigEntry agent.2.bsId
  if complete then return (r, triggerBsConfig r agent.2.bsId ++ [.bsAdd agent.2.bsId])
  else return (r, [])

/-! ## Disconnect -/

def handleDisconnect (r : Rib) (agentId : ℤ) : Except Fault (Rib × List Effect) := do
  let bsId := r.getBsId agentId
  if bsId > 0 then
    let (removed, r) ← r.removeENBConfigEntry agentId
    return (r, (if removed then [.bsRemove bsId] else []) ++ [.releaseConnection agentId])
  else if r.agentIsPending agentId then
    return (r.removePendingAgent agentId, [.releaseConnection agentId])
  else return (r, [.releaseConnection agentId])

/-! ## Other messages -/

/-- Change the state of the base station of an agent; an unknown agent changes nothing. -/
def updateBsFromAgent (r : Rib) (agentId : ℤ) (f : EnbRibInfo → Except Fault EnbRibInfo) :
    Except Fault Rib :=
  match r.getBsFromAgent agentId with
  | none => .ok r
  | some bs => do
    let bs' ← f bs
    return { r with eNBConfigs := r.eNBConfigs.insert (r.getBsId agentId) bs' }

def handleEchoRequest (agentId : ℤ) (header : Option FlexHeader) : List Effect :=
  [.sendMsg agentId
    { msgDir := some .successfulOutcome
      msg := .echoReply (some
        { type := some flptEchoReply, version := some 0
          xid := some ((header.bind FlexHeader.xid).getD 0) }) }]

def handleSfTrigger (r : Rib) (agentId : ℤ) (m : FlexSfTrigger) : Except Fault Rib :=
  updateBsFromAgent r agentId (·.updateSubframe m)

def handleEnbConfigReply (r : Rib) (agentId : ℤ) (m : FlexEnbConfigReply) : Except Fault Rib :=
  updateBsFromAgent r agentId fun bs => .ok (bs.updateENBConfig m)

def handleUeConfigReply (r : Rib) (agentId : ℤ) (m : FlexUeConfigReply) : Except Fault Rib :=
  updateBsFromAgent r agentId fun bs => .ok (bs.updateUEConfig m)

def handleLcConfigReply (r : Rib) (agentId : ℤ) (m : FlexLcConfigReply) : Except Fault Rib :=
  updateBsFromAgent r agentId fun bs => .ok (bs.updateLCConfig m)

/-- An agent without a base station is told to stop reporting. -/
def handleStatsReply (r : Rib) (agentId : ℤ) (m : FlexStatsReply) :
    Except Fault (Rib × List Effect) := do
  let r' ← updateBsFromAgent r agentId (·.updateMacStats m)
  return (r',
    if (r.getBsFromAgent agentId).isSome then [] else
      [.sendMsg agentId
        { msgDir := some .initiatingMessage
          msg := .statsRequest
            { header := some
                { type := some flptStatsRequest, version := some 0
                  xid := some ((m.header.bind FlexHeader.xid).getD 0) }
              type := some .completeStats
              completeStatsRequest := some { reportFrequency := some .off } } }])

def handleUeStateChange (r : Rib) (agentId : ℤ) (m : FlexUeStateChange) :
    Except Fault (Rib × List Effect) := do
  let r' ← updateBsFromAgent r agentId fun bs => .ok (bs.updateUEConfigStateChange m)
  match r.getBsFromAgent agentId with
  | none => return (r', [])
  | some bs =>
    let rnti := EnbRibInfo.rntiOf (m.config.getD defaultInstance)
    let type := m.type.getD 0
    return (r',
      if type = EnbRibInfo.fluescActivated then
        .ueConnect bs.bsId rnti :: triggerBsConfig r' bs.bsId
      else if type = EnbRibInfo.fluescUpdated then [.ueUpdate bs.bsId rnti]
      else if type = EnbRibInfo.fluescDeactivated then [.ueDisconnect bs.bsId rnti]
      else [])

def handleControlDelegationRequest (r : Rib) (agentId : ℤ) (m : FlexControlDelegationRequest) :
    List Effect :=
  let bsId := r.getBsId agentId
  if bsId = 0 then [] else [.controlDelReq bsId m]

/-- `dispatch_message`, after the message has been parsed. -/
def dispatchMessage (r : Rib) (agentId : ℤ) (inMessage : FlexranMessage) (endpoint : String)
    (want : ℕ) : Except Fault (Rib × List Effect) :=
  match inMessage.msg with
  | .hello m => handleHello r agentId m (inMessage.msgDir.getD .notSet) endpoint want
  | .echoRequest header => .ok (r, handleEchoRequest agentId header)
  | .statsReply m => handleStatsReply r agentId m
  | .sfTrigger m => (·, []) <$> handleSfTrigger r agentId m
  | .enbConfigReply m => (·, []) <$> handleEnbConfigReply r agentId m
  | .ueConfigReply m => (·, []) <$> handleUeConfigReply r agentId m
  | .lcConfigReply m => (·, []) <$> handleLcConfigReply r agentId m
  | .ueStateChange m => handleUeStateChange r agentId m
  | .disconnect _ => handleDisconnect r agentId
  | .controlDelReq m => .ok (r, handleControlDelegationRequest r agentId m)
  -- an echo reply only updates the time of the last message
  | .echoReply _ | .statsRequest _ | .enbConfigRequest _ | .ueConfigRequest _
  | .lcConfigRequest _ | .controlDelegation _ | .agentReconfiguration _ | .rrcTriggering _
  | .hoCommand _ | .other _ | .notSet => .ok (r, [])

/-! ## Runs of hello and disconnect messages -/

inductive RibEvent
  | hello (agentId : ℤ) (m : FlexHello) (dir : FlexranDirection) (endpoint : String) (want : ℕ)
  | disconnect (agentId : ℤ)

/-- The handler call of an event. -/
def handleEvent (r : Rib) : RibEvent → Except Fault (Rib × List Effect)
  | .hello agentId m dir endpoint want => handleHello r agentId m dir endpoint want
  | .disconnect agentId => handleDisconnect r agentId

def ribStep (r : Rib) (e : RibEvent) : Except Fault Rib := Prod.fst <$> handleEvent r e

/-! ## Specifications of the two handlers -/

theorem fillHello_capabilities_ne_nil (agentId : ℤ) (m : FlexHello) :
    (fillHello agentId m).capabilities ≠ [] := by
  by_cases h : m.capabilities = []
  · simp [fillHello, h, defaultCapabilities]
  · simp [fillHello, h]

/-- The agent a hello message announces. -/
def helloAgent (agentId : ℤ) (m : FlexHello) (endpoint : String) : AgentInfo where
  agentId := agentId
  bsId := (fillHello agentId m).bsId.getD 0
  capabilities :=
    .ofList (fillHello agentId m).capabilities (fillHello_capabilities_ne_nil agentId m)
  splits := (fillHello agentId m).splits
  portIp := endpoint

variable {r : Rib}

namespace Rib

/-- The object `a` at address `x` is in one of the containers. -/
def Live (r : Rib) (x : ℕ) (a : AgentInfo) : Prop :=
  r.pendingAgents[x]? = some a ∨
  (∃ (b : UInt64) (bs : EnbRibInfo), r.eNBConfigs[b]? = some bs ∧ bs.agents[x]? = some a) ∨
  ∃ id : ℤ, r.agentConfigs[id]? = some (x, a)

theorem mem_liveAddresses {x : ℕ} : x ∈ r.liveAddresses ↔ ∃ a, r.Live x a := by
  simp only [liveAddresses, List.mem_append, List.mem_map, List.mem_flatMap, Prod.exists,
    exists_and_right, exists_eq_right, Live, exists_or,
    Std.ExtTreeMap.mem_toList_iff_getElem?_eq_some]
  constructor
  · rintro ((h | ⟨b, bs, hb, a, ha⟩) | ⟨id, a, ha⟩)
    · exact .inl h
    · exact .inr (.inl ⟨a, b, bs, hb, ha⟩)
    · exact .inr (.inr ⟨a, id, ha⟩)
  · rintro (h | ⟨a, b, bs, hb, ha⟩ | ⟨a, id, ha⟩)
    · exact .inl (.inl h)
    · exact .inl (.inr ⟨b, bs, hb, a, ha⟩)
    · exact .inr ⟨id, a, ha⟩

/-- The state after the agent at `x` has become pending. -/
def pend (r : Rib) (x : ℕ) (a : AgentInfo) : Rib :=
  { r with pendingAgents := r.pendingAgents.insertIfNew x a }

theorem getElem?_pend {x y : ℕ} {a : AgentInfo} (hfresh : ∀ b, ¬ r.Live x b) :
    (r.pend x a).pendingAgents[y]? = if y = x then some a else r.pendingAgents[y]? := by
  have hmem : x ∉ r.pendingAgents := by
    intro hx
    exact hfresh r.pendingAgents[x] (Or.inl (Std.ExtTreeMap.getElem?_eq_some_getElem hx))
  rw [pend, Std.ExtTreeMap.getElem?_insertIfNew]
  by_cases hy : y = x
  · simp [hy, hmem]
  · simp [hy, Ne.symm hy]

/-- A hello of an agent is accepted: the agent becomes pending. -/
structure Accepts (r : Rib) (dir : FlexranDirection) (a : AgentInfo) : Prop where
  successful : dir = .successfulOutcome
  new_bs : r.eNBConfigs[a.bsId]? = none
  admissible : r.Admissible a

end Rib

open Rib

/-- What handling an event does: one constructor for each exit of the two handlers. -/
inductive Outcome (r : Rib) : RibEvent → Rib → List Effect → Prop
  | rejected {agentId m dir endpoint want}
      (h : ¬ r.Accepts dir (helloAgent agentId m endpoint)) :
      Outcome r (.hello agentId m dir endpoint want) r [.releaseConnection agentId]
  | waiting {agentId m dir endpoint want} (x : ℕ)
      (haccepts : r.Accepts dir (helloAgent agentId m endpoint)) (hfresh : ∀ b, ¬ r.Live x b)
      (h : ¬ Covers ((r.pend x (helloAgent agentId m endpoint)).pendingOf
        (helloAgent agentId m endpoint).bsId)) :
      Outcome r (.hello agentId m dir endpoint want) (r.pend x (helloAgent agentId m endpoint)) []
  | formed {agentId m dir endpoint want} (x : ℕ)
      (haccepts : r.Accepts dir (helloAgent agentId m endpoint)) (hfresh : ∀ b, ¬ r.Live x b)
      (h : Covers ((r.pend x (helloAgent agentId m endpoint)).pendingOf
        (helloAgent agentId m endpoint).bsId)) :
      Outcome r (.hello agentId m dir endpoint want)
        ((r.pend x (helloAgent agentId m endpoint)).form (helloAgent agentId m endpoint).bsId)
        (triggerBsConfig
          ((r.pend x (helloAgent agentId m endpoint)).form (helloAgent agentId m endpoint).bsId)
          (helloAgent agentId m endpoint).bsId ++ [.bsAdd (helloAgent agentId m endpoint).bsId])
  | dissolved {agentId p bs r'} (hp : r.agentConfigs[agentId]? = some p)
      (hbs : r.eNBConfigs[p.2.bsId]? = some bs) (h : Dissolved r p bs r') :
      Outcome r (.disconnect agentId) r' [.bsRemove p.2.bsId, .releaseConnection agentId]
  | withdrawn {agentId} (x : ℕ) {a : AgentInfo} (hnone : r.agentConfigs[agentId]? = none)
      (ha : r.pendingAgents[x]? = some a) (hid : a.agentId = agentId) :
      Outcome r (.disconnect agentId) { r with pendingAgents := r.pendingAgents.erase x }
        [.releaseConnection agentId]
  | unknown {agentId} (hnone : r.agentConfigs[agentId]? = none)
      (hnot : ∀ (x : ℕ) a, r.pendingAgents[x]? = some a → a.agentId ≠ agentId) :
      Outcome r (.disconnect agentId) r [.releaseConnection agentId]

theorem handleHello_rejected {agentId : ℤ} {m : FlexHello} {dir : FlexranDirection}
    {endpoint : String} {want : ℕ} (h : ¬ r.Accepts dir (helloAgent agentId m endpoint)) :
    handleHello r agentId m dir endpoint want = .ok (r, [.releaseConnection agentId]) := by
  by_cases hdir : dir = .successfulOutcome
  · by_cases hbs : r.eNBConfigs[(helloAgent agentId m endpoint).bsId]? = none
    · have hadd := addPendingAgent_of_not_admissible (r := r)
        (freshAddr want r.liveAddresses, helloAgent agentId m endpoint)
        (fun hadm => h ⟨hdir, hbs, hadm⟩)
      simp only [helloAgent] at hadd hbs
      simp [handleHello, hdir, AgentCapabilities.ofProto, fillHello_capabilities_ne_nil, getBs,
        hbs, hadd, bind, Except.bind, pure, Except.pure]
    · obtain ⟨bs, hbs⟩ := Option.ne_none_iff_exists'.mp hbs
      simp only [helloAgent] at hbs
      simp [handleHello, hdir, AgentCapabilities.ofProto, fillHello_capabilities_ne_nil, getBs,
        hbs, bind, Except.bind, pure, Except.pure]
  · simp [handleHello, hdir, pure, Except.pure]

theorem handleHello_accepted {agentId : ℤ} {m : FlexHello} {dir : FlexranDirection}
    {endpoint : String} {want : ℕ} (h : r.Accepts dir (helloAgent agentId m endpoint)) :
    handleHello r agentId m dir endpoint want =
      (do
        let (complete, r) ←
          (r.pend (freshAddr want r.liveAddresses)
            (helloAgent agentId m endpoint)).newENBConfigEntry (helloAgent agentId m endpoint).bsId
        if complete then
          return (r, triggerBsConfig r (helloAgent agentId m endpoint).bsId ++
            [.bsAdd (helloAgent agentId m endpoint).bsId])
        else return (r, [])) := by
  have hadd := addPendingAgent_of_admissible (r := r)
    (freshAddr want r.liveAddresses, helloAgent agentId m endpoint) h.admissible
  have hbs := h.new_bs
  simp only [helloAgent] at hadd hbs
  simp [handleHello, h.successful, AgentCapabilities.ofProto, fillHello_capabilities_ne_nil, getBs,
    hbs, hadd, pend, helloAgent, bind, Except.bind]

end FlexRan.Rib
