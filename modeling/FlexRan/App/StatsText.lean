import FlexRan.Rib.JsonDump

/-!
# Plain texts of the statistics

The RIB can also be printed for people.  The walk is that of the JSON texts: over the base
stations, and over the agents and UEs of each, whose MAC state is dereferenced without a check.
The texts are not meant to be read back; the id of a base station is appended as a single
character where its MAC state is printed.

## Main definitions

* `DebugPrinter`: the texts of messages.
* `dumpStatsToString`, `dumpMacStatsToString`, `dumpConfigsToString`: the texts of the RIB.
* `allStatsToString`, `allEnbConfigsToString`, `allMacConfigsToString`: those of the manager.
-/
namespace FlexRan

namespace Rib

set_option linter.dupNamespace false

open Lib Protocol Rib App.Log

/-- `DebugString` of the messages that are printed. -/
structure DebugPrinter where
  enbConfigReply : FlexEnbConfigReply → String
  ueConfigReply : FlexUeConfigReply → String
  lcConfigReply : FlexLcConfigReply → String
  ueStatsReport : FlexUeStatsReport → String

/-- The printer of messages in which no field is set. -/
def DebugPrinter.empty : DebugPrinter where
  enbConfigReply _ := ""
  ueConfigReply _ := ""
  lcConfigReply _ := ""
  ueStatsReport _ := ""

/-! ## Agents -/

/-- The loop of `to_string` over a list of enumerators. -/
def namesToString (names : List String) : String :=
  overwriteLast (names.foldl (fun s name => s ++ (name ++ ",")) "[") ']'

/-- `agent_capabilities::to_string`. -/
protected def AgentCapabilities.toString (c : AgentCapabilities) : String :=
  namesToString (c.caps.map BsCapability.name)

/-- `agent_splits::to_string`. -/
def splitsToString (splits : List BsSplit) : String :=
  if splits.length < 1 then "[]" else namesToString (splits.map BsSplit.name)

/-- `agent_info::to_string`. -/
protected def AgentInfo.toString (a : AgentInfo) : String :=
  "agent ID " ++ toString a.agentId ++ (" (" ++ a.portIp ++ ")") ++
    (" for BS " ++ toString a.bsId.toNat) ++ (", capabilities: " ++ a.capabilities.toString) ++
    (", splits: " ++ splitsToString a.splits)

section Dump

variable (p : DebugPrinter)

/-! ## Base stations -/

/-- The table of the HARQ processes below the report. -/
def UeMacRibInfo.dumpStatsToString (ue : UeMacRibInfo) : String :=
  ("Rnti: " ++ toString ue.rnti.toNat ++ "\n") ++ p.ueStatsReport ue.macStatsReport ++ "\n" ++
    "Harq status" ++ "\n" ++
    String.join ((List.finRange 8).map fun i => "  |   " ++ toString i.val) ++ "   |   " ++ "\n" ++
    " " ++
    String.join ((List.finRange 8).map fun i => " | " ++ if ue.acks i then "ACK" else "NACK") ++
    "  |" ++ "\n"

/-- `dump_stats_to_string` through a pointer. -/
def dumpUeToString (ue : Option UeMacRibInfo) : Except Fault String :=
  match ue with
  | none => .error .nullDereference
  | some ue => .ok (ue.dumpStatsToString p)

/-- `str += bs_id_` appends the number as a `char`. -/
def EnbRibInfo.dumpMacStatsToString (bs : EnbRibInfo) : Except Fault String := do
  let ueStats ← bs.ueMacInfo.toList.mapM fun e => dumpUeToString p e.2
  return "UE MAC stats for BS " ++ String.singleton (Char.ofUInt8 bs.bsId.toUInt8) ++ "\n" ++
    String.join (ueStats.map (· ++ "\n"))

/-- The agents and the three configurations. -/
def EnbRibInfo.dumpConfigsToString (bs : EnbRibInfo) : String :=
  ("configs for BS " ++ toString bs.bsId.toNat ++ "\n") ++
    String.join (bs.agents.toList.map fun a => a.2.toString ++ "\n") ++
    p.enbConfigReply bs.eNBConfig ++ "\n" ++ p.ueConfigReply bs.ueConfig ++ "\n" ++
    p.lcConfigReply bs.lcConfig ++ "\n"

namespace Rib

/-- A base station follows the other. -/
def dumpAllMacStatsToString (r : Rib) : Except Fault String := do
  let macStats ← r.eNBConfigs.toList.mapM fun e => e.2.dumpMacStatsToString p
  return String.join (macStats.map (· ++ "\n"))

def dumpAllENBConfigurationsToString (r : Rib) : String :=
  String.join (r.eNBConfigs.toList.map fun e => e.2.dumpConfigsToString p ++ "\n")

end Rib

end Dump

end Rib

namespace App.Stats

open Lib Protocol Rib Rib.Rib Log

variable (p : DebugPrinter)

/-! ## The manager -/

/-- The configurations under a headline. -/
def allEnbConfigsToString (r : Rib) : String :=
  "**************************\n" ++ "* BS/Cell Configurations *\n" ++
    "**************************\n" ++ r.dumpAllENBConfigurationsToString p

/-- The MAC states under a headline. -/
def allMacConfigsToString (r : Rib) : Except Fault String := do
  let macStats ← r.dumpAllMacStatsToString p
  return "***************\n" ++ "UE statistics\n" ++ "****************\n" ++ macStats

/-- Configurations and MAC states. -/
def allStatsToString (r : Rib) : Except Fault String := do
  let macConfigs ← allMacConfigsToString p r
  return allEnbConfigsToString p r ++ "\n\n\n" ++ macConfigs ++ "\n"

/-! ## No null pointer is found -/

section Printed

variable {p : DebugPrinter} {r : Rib} {bs : EnbRibInfo}

/-- Every pointer to a MAC state can be followed. -/
theorem dumpMacStatsToString_ok (h : EnbRibInfo.UeInv bs) :
    ∃ s, bs.dumpMacStatsToString p = .ok s := by
  have hues : ∀ e ∈ bs.ueMacInfo.toList, ∃ s, dumpUeToString p e.2 = .ok s := by
    rintro ⟨rnti, v⟩ he
    have hv := Std.ExtTreeMap.mem_toList_iff_getElem?_eq_some.mp he
    obtain ⟨ue, rfl⟩ := Option.ne_none_iff_exists'.mp (h.nonnull rnti v hv)
    exact ⟨_, rfl⟩
  obtain ⟨texts, htexts⟩ := mapM_ok hues
  exact ⟨_, by rw [EnbRibInfo.dumpMacStatsToString, htexts]; rfl⟩

/-- The MAC states of all UEs are printed. -/
theorem allMacConfigsToString_ok (h : BsReachable r) :
    ∃ s, allMacConfigsToString p r = .ok s := by
  have hbss : ∀ e ∈ r.eNBConfigs.toList, ∃ s, e.2.dumpMacStatsToString p = .ok s := by
    intro e he
    have hbs := Std.ExtTreeMap.mem_toList_iff_getElem?_eq_some.mp he
    exact dumpMacStatsToString_ok (EnbRibInfo.ueInv_of_reachable (h e.1 e.2 hbs))
  obtain ⟨texts, htexts⟩ := mapM_ok hbss
  exact ⟨_, by rw [allMacConfigsToString, dumpAllMacStatsToString, htexts]; rfl⟩

theorem allStatsToString_ok (h : BsReachable r) : ∃ s, allStatsToString p r = .ok s := by
  obtain ⟨s, hs⟩ := allMacConfigsToString_ok (p := p) h
  exact ⟨_, by rw [allStatsToString, hs]; rfl⟩

end Printed

end App.Stats

end FlexRan
