import FlexRan.Lib.History
import FlexRan.Rib.UeMacRibInfo

/-!
# Sections of a UE statistics report

The report kept of a UE is a record of twelve sections.  Each report that comes in sets the
sections whose bits its flags have, and the RNTI.  Three sections are repeated, two are numbers and
seven are sub-messages; all of them behave as registers: whatever the sequence of reports, a section
has the value that was sent for it last.

## Main definitions

* `FlexUeStatsType.Value`, `FlexUeStatsType.value`: what a section holds, an absent one read as
  default.
* `FlexUeStatsType.carried`: the value a report sets a section to.
* `statsAfter_lastWriter`: the sections after any sequence of reports.
-/
namespace FlexRan

open Lib Protocol Rib

namespace Protocol.FlexUeStatsType

/-- The type of a section; sub-messages are compared as messages, repeated ones as lists. -/
abbrev Value : FlexUeStatsType → Type
  | bsr => List UInt32
  | phr | macCeBs => UInt32
  | rlcBs | gtpStats => List RawMessage
  | dlCqi | pbs | ulCqi | macStats | pdcpStats | s1apStats | rrcMeasurements => RawMessage

/-- A section of a report. -/
def value : (f : FlexUeStatsType) → FlexUeStatsReport → f.Value
  | bsr, r => r.bsr
  | phr, r => r.phr.getD 0
  | rlcBs, r => r.rlcReport
  | macCeBs, r => r.pendingMacCes.getD 0
  | dlCqi, r => r.dlCqiReport.getD ⟨[]⟩
  | pbs, r => r.pbr.getD ⟨[]⟩
  | ulCqi, r => r.ulCqiReport.getD ⟨[]⟩
  | macStats, r => r.macStats.getD ⟨[]⟩
  | pdcpStats, r => r.pdcpStats.getD ⟨[]⟩
  | gtpStats, r => r.gtpStats
  | s1apStats, r => r.s1apStats.getD ⟨[]⟩
  | rrcMeasurements, r => r.rrcMeasurements.getD ⟨[]⟩

/-- The section of a report whose flags have its bit. -/
def carried (f : FlexUeStatsType) (r : FlexUeStatsReport) : Option f.Value :=
  if f.isSet (r.flags.getD 0) then some (f.value r) else none

/-- A report sets the sections it carries and leaves the others alone. -/
theorem value_updateMacStatsReport (f : FlexUeStatsType) (s : UeMacRibInfo)
    (r : FlexUeStatsReport) :
    f.value (s.updateMacStatsReport r).macStatsReport =
      (f.carried r).getD (f.value s.macStatsReport) := by
  by_cases h : f.isSet (r.flags.getD 0)
  · rw [carried, if_pos h, Option.getD_some]
    cases f <;> simp [value, UeMacRibInfo.updateMacStatsReport, copySection, h]
  · rw [carried, if_neg h, Option.getD_none]
    cases f <;> simp [value, UeMacRibInfo.updateMacStatsReport, h]

/-- From any state, each section is the one that was carried last. -/
theorem value_foldl_updateMacStatsReport (f : FlexUeStatsType) (reports : List FlexUeStatsReport)
    (s : UeMacRibInfo) :
    f.value (reports.foldl UeMacRibInfo.updateMacStatsReport s).macStatsReport =
      (last? f.carried reports).getD (f.value s.macStatsReport) :=
  foldl_register (fun s => f.value s.macStatsReport) (value_updateMacStatsReport f) reports s

end Protocol.FlexUeStatsType

namespace Rib

/-- The report kept of a UE since it was activated. -/
def statsAfter (rnti : UInt32) (reports : List FlexUeStatsReport) : FlexUeStatsReport :=
  (reports.foldl UeMacRibInfo.updateMacStatsReport { rnti := rnti }).macStatsReport

theorem rnti_statsAfter (rnti : UInt32) (reports : List FlexUeStatsReport)
    (report : FlexUeStatsReport) :
    (statsAfter rnti (reports ++ [report])).rnti.getD 0 = report.rnti.getD 0 := by
  rw [statsAfter, List.foldl_append]
  rfl

/-- After any sequence of reports each section has the value of the last report whose flags have
its bit, or its default, and the RNTI is that of the last report. -/
theorem statsAfter_lastWriter (rnti : UInt32) (reports : List FlexUeStatsReport) :
    (∀ f : FlexUeStatsType,
      f.value (statsAfter rnti reports) = (last? f.carried reports).getD (f.value {})) ∧
    ∀ report ∈ reports.getLast?,
      (statsAfter rnti reports).rnti.getD 0 = report.rnti.getD 0 := by
  refine ⟨fun f => f.value_foldl_updateMacStatsReport reports { rnti := rnti }, ?_⟩
  intro report hlast
  obtain ⟨init, rfl⟩ := List.getLast?_eq_some_iff.mp hlast
  exact rnti_statsAfter rnti init report

end Rib

end FlexRan
