import FlexRan.Lib.OrdMap
import FlexRan.Lib.Run
import FlexRan.Rib.AgentInfo
import FlexRan.Rib.UeMacRibInfo

/-!
# State of a base station

`EnbRibInfo` holds the configuration and the statistics of one base station, merged from the
messages of the agents that make it up.  Each handler of an agent's message is a function on
this state; the time of the last message is not part of the model.

## Main definitions

* `EnbRibInfo.make`: the constructor; it refuses agents of another base station.
* `updateENBConfig`, `updateUEConfig`, `updateUEConfigStateChange`, `updateLCConfig`,
  `updateSubframe`, `updateMacStats`: the handlers.
* `EnbRibInfo.Reachable`: the states a sequence of messages leads to.
-/
namespace FlexRan.Rib

open Lib Lib.Message Protocol

/-- `ueMacInfo` maps an RNTI to a pointer; a null pointer is `none`. -/
structure EnbRibInfo where
  bsId : UInt64
  agents : SharedSet AgentInfo
  currentFrame : Option UInt16 := none
  currentSubframe : Option UInt16 := none
  eNBConfig : FlexEnbConfigReply := {}
  ueConfig : FlexUeConfigReply := {}
  lcConfig : FlexLcConfigReply := {}
  ueMacInfo : Std.ExtTreeMap UInt32 (Option UeMacRibInfo) := ∅
  cellMacInfo : Fin maxNumCC → CellMacRibInfo := fun _ => {}

/-- `clear_repeated_if_present`: clear the repeated fields of `dst` that `src` has elements
of. Singular fields are skipped. -/
def clearRepeatedIfPresent {μ : Type} [Reflection μ] (dst src : μ) : μ :=
  (Reflection.repeatedFields (μ := μ)).foldl
    (fun d f => if Reflection.fieldSize src f = 0 then d else Reflection.clearField d f) dst

namespace EnbRibInfo

/-- The constructor throws on the first agent that belongs to another base station. -/
def make (bsId : UInt64) (agents : SharedSet AgentInfo) : Except Fault EnbRibInfo :=
  match agents.toList.find? fun e => e.2.bsId != bsId with
  | none => .ok { bsId := bsId, agents := agents }
  | some (_, a) => .error (.runtimeError ("invalid bs_id " ++ toString a.bsId ++ " from agent " ++
      toString a.agentId ++ " for BS " ++ toString bsId))

/-! ## eNB configuration -/

/-- One round of the loop of `update_eNB_config`. -/
def mergeCellConfig (dst src : FlexCellConfig) : FlexCellConfig :=
  let dst := clearRepeatedIfPresent dst src
  let dst := if src.sliceConfig.isSome then { dst with sliceConfig := none } else dst
  mergeFrom dst src

/-- The loop over the cells both messages have. -/
def mergeCellConfigs : List FlexCellConfig → List FlexCellConfig → List FlexCellConfig
  | d :: ds, s :: ss => mergeCellConfig d s :: mergeCellConfigs ds ss
  | ds, _ => ds

def updateENBConfig (bs : EnbRibInfo) (update : FlexEnbConfigReply) : EnbRibInfo :=
  if bs.eNBConfig.cellConfig.length = 0 then { bs with eNBConfig := update }
  else
    { bs with eNBConfig :=
      { bs.eNBConfig with
        cellConfig := mergeCellConfigs bs.eNBConfig.cellConfig update.cellConfig
        s1ap := some (update.s1ap.getD defaultInstance)
        loadedApps := update.loadedApps
        loadedMacObjects := update.loadedMacObjects } }

/-! ## UE configuration -/

/-- `rnti()` of an entry; an unset field reads as 0. -/
def rntiOf (c : FlexUeConfig) : UInt32 := c.rnti.getD 0

/-- Merge a UE configuration with its repeated fields replaced, those of `info` included. -/
def mergeUeConfig (dst src : FlexUeConfig) : FlexUeConfig :=
  let dst := clearRepeatedIfPresent dst src
  let dst := match src.info with
    | none => dst
    | some info =>
      { dst with info := some (clearRepeatedIfPresent (dst.info.getD defaultInstance) info) }
  mergeFrom dst src

/-- Merge a UE configuration with its own repeated fields replaced. -/
def mergeUeStateChange (dst src : FlexUeConfig) : FlexUeConfig :=
  mergeFrom (clearRepeatedIfPresent dst src) src

/-- One round of the loop of `update_UE_config`: entries for unknown UEs are skipped. -/
def mergeUeEntry (ues : List FlexUeConfig) (src : FlexUeConfig) : List FlexUeConfig :=
  match ues.findIdx? fun c => rntiOf c == rntiOf src with
  | none => ues
  | some i => ues.modify i fun dst => mergeUeConfig dst src

/-- `update_UE_config` for a `flex_ue_config_reply`. -/
def updateUEConfig (bs : EnbRibInfo) (update : FlexUeConfigReply) : EnbRibInfo :=
  { bs with ueConfig :=
    { bs.ueConfig with ueConfig := update.ueConfig.foldl mergeUeEntry bs.ueConfig.ueConfig } }

def fluescUpdated : UInt32 := 0
def fluescActivated : UInt32 := 1
def fluescDeactivated : UInt32 := 2

/-- `update_UE_config` for a `flex_ue_state_change`. -/
def updateUEConfigStateChange (bs : EnbRibInfo) (change : FlexUeStateChange) : EnbRibInfo :=
  let config := change.config.getD defaultInstance
  let rnti := rntiOf config
  let ues := bs.ueConfig.ueConfig
  let it := ues.findIdx? fun c => rntiOf c == rnti
  let type := change.type.getD 0
  if type = fluescActivated then
    match it with
    | none =>
      { bs with
        ueConfig := { bs.ueConfig with ueConfig := ues ++ [config] }
        ueMacInfo := bs.ueMacInfo.insertIfNew rnti (some { rnti := rnti }) }
    | some i =>
      { bs with ueConfig :=
        { bs.ueConfig with ueConfig := ues.modify i fun dst => mergeUeStateChange dst config } }
  else if type = fluescDeactivated then
    match it with
    | none => bs
    | some i =>
      let lcs := bs.lcConfig.lcUeConfig
      { bs with
        ueConfig := { bs.ueConfig with ueConfig := ues.eraseIdx i }
        ueMacInfo := bs.ueMacInfo.erase rnti
        lcConfig := match lcs.findIdx? fun c => c.rnti.getD 0 == rnti with
          | none => bs.lcConfig
          | some j => { bs.lcConfig with lcUeConfig := lcs.eraseIdx j } }
  else if type = fluescUpdated then
    match it with
    | none => bs
    | some i =>
      { bs with ueConfig :=
        { bs.ueConfig with ueConfig := ues.modify i fun dst => mergeUeStateChange dst config } }
  else bs

def updateLCConfig (bs : EnbRibInfo) (update : FlexLcConfigReply) : EnbRibInfo :=
  if update.lcUeConfig.length = 0 then bs else { bs with lcConfig := update }

/-! ## Subframes and statistics -/

/-- `get_frame` of a 16-bit SFN/SF value: the upper twelve bits. -/
def getFrame (sfnSf : UInt32) : UInt16 := ((sfnSf &&& 0xFFF0) >>> 4).toUInt16

/-- `get_subframe`: the lower four bits. -/
def getSubframe (sfnSf : UInt32) : UInt16 := (sfnSf &&& 0xF).toUInt16

/-- Apply an update to the MAC state of a UE. An RNTI without an entry is ignored; a null
entry is dereferenced. -/
def withUeMacInfo (bs : EnbRibInfo) (rnti : UInt32)
    (f : UeMacRibInfo → Except Fault UeMacRibInfo) : Except Fault EnbRibInfo :=
  match bs.ueMacInfo[rnti]? with
  | none => .ok bs
  | some none => .error .nullDereference
  | some (some ue) => do
    let ue' ← f ue
    return { bs with ueMacInfo := bs.ueMacInfo.insert rnti (some ue') }

def updateSubframe (bs : EnbRibInfo) (trigger : FlexSfTrigger) : Except Fault EnbRibInfo := do
  let sfnSf := (trigger.sfnSf.getD 0).toUInt16.toUInt32
  let bs := { bs with
    currentFrame := some (getFrame sfnSf), currentSubframe := some (getSubframe sfnSf) }
  let bs ← trigger.dlInfo.foldlM
    (fun bs info => bs.withUeMacInfo (info.rnti.getD 0) (·.updateDlSfInfo info)) bs
  trigger.ulInfo.foldlM
    (fun bs info => bs.withUeMacInfo (info.rnti.getD 0) (·.updateUlSfInfo info)) bs

/-- One round of the loop over the cell reports. -/
def updateCellMacInfo (bs : EnbRibInfo) (i : ℕ) (report : FlexCellStatsReport) :
    Except Fault EnbRibInfo :=
  if h : i < maxNumCC then
    .ok { bs with
      cellMacInfo := Function.update bs.cellMacInfo ⟨i, h⟩
        ((bs.cellMacInfo ⟨i, h⟩).updateCellStatsReport report) }
  else .error .outOfBounds

def updateMacStats (bs : EnbRibInfo) (reply : FlexStatsReply) : Except Fault EnbRibInfo := do
  let bs ← reply.ueReport.foldlM
    (fun bs report => bs.withUeMacInfo (report.rnti.getD 0)
      fun ue => .ok (ue.updateMacStatsReport report)) bs
  reply.cellReport.zipIdx.foldlM (fun bs e => bs.updateCellMacInfo e.2 e.1) bs

/-- `get_ue_mac_info`: a null pointer for an unknown RNTI. -/
def getUeMacInfo (bs : EnbRibInfo) (rnti : UInt32) : Option UeMacRibInfo :=
  bs.ueMacInfo[rnti]?.getD none

/-! ## Runs -/

/-- A message that changes the state of a base station. -/
inductive Input
  | eNBConfigReply (m : FlexEnbConfigReply)
  | ueConfigReply (m : FlexUeConfigReply)
  | lcConfigReply (m : FlexLcConfigReply)
  | ueStateChange (m : FlexUeStateChange)
  | sfTrigger (m : FlexSfTrigger)
  | statsReply (m : FlexStatsReply)

def step (bs : EnbRibInfo) : Input → Except Fault EnbRibInfo
  | .eNBConfigReply m => .ok (bs.updateENBConfig m)
  | .ueConfigReply m => .ok (bs.updateUEConfig m)
  | .lcConfigReply m => .ok (bs.updateLCConfig m)
  | .ueStateChange m => .ok (bs.updateUEConfigStateChange m)
  | .sfTrigger m => bs.updateSubframe m
  | .statsReply m => bs.updateMacStats m

/-- A base station as constructed, and everything messages make of it without a fault. -/
def Reachable (bs : EnbRibInfo) : Prop :=
  ∃ bsId agents fresh inputs, make bsId agents = .ok fresh ∧ run step fresh inputs = .ok bs

theorem make_eq_ok_iff {bsId : UInt64} {agents : SharedSet AgentInfo} {bs : EnbRibInfo} :
    make bsId agents = .ok bs ↔
      (∀ (x : ℕ) a, agents[x]? = some a → a.bsId = bsId) ∧
        bs = { bsId := bsId, agents := agents } := by
  rw [make]
  split
  · rename_i h
    simp only [List.find?_eq_none, bne_iff_ne, ne_eq, not_not, Prod.forall, mem_toList_iff] at h
    simp only [Except.ok.injEq, eq_comm (a := bs)]
    exact ⟨fun hbs => ⟨h, hbs⟩, And.right⟩
  · rename_i x a h
    have hmem := List.mem_of_find?_eq_some h
    have hne := List.find?_some h
    simp only [reduceCtorEq, false_iff, not_and]
    intro hall
    simp [hall x a (mem_toList_iff.mp hmem)] at hne

end EnbRibInfo
end FlexRan.Rib
