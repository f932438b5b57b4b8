import FlexRan.Fault
import FlexRan.Protocol.Message

/-!
# MAC state of a UE and of a cell

What the controller keeps of the MAC reports of one UE: the merged statistics report and the
fixed-size HARQ and uplink arrays.  The array indices come from the agent; a write outside an
array is a fault.
-/
namespace FlexRan.Rib

open Protocol

abbrev maxNumCC : ℕ := 2
abbrev maxNumHarq : ℕ := 8
abbrev maxNumTB : ℕ := 2
abbrev maxNumLC : ℕ := 11

structure UeMacRibInfo where
  rnti : UInt32
  macStatsReport : FlexUeStatsReport := {}
  harqStats : Fin maxNumCC → Fin maxNumHarq → Fin maxNumTB → UInt8 := fun _ _ _ => 0
  activeHarq : Fin maxNumCC → Fin maxNumHarq → Fin maxNumTB → Bool := fun _ _ _ => true
  uplinkReceptionStats : Fin maxNumCC → UInt8 := fun _ => 0
  ulReceptionData : Fin maxNumCC → Fin maxNumLC → UInt8 := fun _ _ => 0
  tpc : Option UInt8 := none

namespace UeMacRibInfo

/-- One round of the loop of `update_dl_sf_info`: two array writes at the same index. -/
def writeHarq (s : UeMacRibInfo) (ccId harqId : UInt8) (i : ℕ) (status : UInt32) :
    Except Fault UeMacRibInfo :=
  if h : ccId.toNat < maxNumCC ∧ harqId.toNat < maxNumHarq ∧ i < maxNumTB then
    let cc : Fin maxNumCC := ⟨ccId.toNat, h.1⟩
    let harq : Fin maxNumHarq := ⟨harqId.toNat, h.2.1⟩
    let tb : Fin maxNumTB := ⟨i, h.2.2⟩
    .ok { s with
      harqStats := Function.update s.harqStats cc
        (Function.update (s.harqStats cc) harq
          (Function.update (s.harqStats cc harq) tb status.toUInt8))
      activeHarq := Function.update s.activeHarq cc
        (Function.update (s.activeHarq cc) harq
          (Function.update (s.activeHarq cc harq) tb true)) }
  else .error .outOfBounds

def updateDlSfInfo (s : UeMacRibInfo) (dlInfo : FlexDlInfo) : Except Fault UeMacRibInfo :=
  let ccId := (dlInfo.servCellIndex.getD 0).toUInt8
  let harqId := (dlInfo.harqProcessId.getD 0).toUInt8
  dlInfo.harqStatus.zipIdx.foldlM (fun s e => s.writeHarq ccId harqId e.2 e.1) s

/-- One round of the loop of `update_ul_sf_info`. -/
def writeUlReception (s : UeMacRibInfo) (ccId : UInt8) (i : ℕ) (data : UInt32) :
    Except Fault UeMacRibInfo :=
  if h : ccId.toNat < maxNumCC ∧ i < maxNumLC then
    let cc : Fin maxNumCC := ⟨ccId.toNat, h.1⟩
    .ok { s with
      ulReceptionData := Function.update s.ulReceptionData cc
        (Function.update (s.ulReceptionData cc) ⟨i, h.2⟩ data.toUInt8) }
  else .error .outOfBounds

def updateUlSfInfo (s : UeMacRibInfo) (ulInfo : FlexUlInfo) : Except Fault UeMacRibInfo :=
  let ccId := (ulInfo.servCellIndex.getD 0).toUInt8
  if h : ccId.toNat < maxNumCC then
    let s := { s with
      tpc := some (ulInfo.tpc.getD 0).toUInt8
      uplinkReceptionStats := Function.update s.uplinkReceptionStats ⟨ccId.toNat, h⟩
        (ulInfo.receptionStatus.getD 0).toUInt8 }
    ulInfo.ulReception.zipIdx.foldlM (fun s e => s.writeUlReception ccId e.2 e.1) s
  else .error .outOfBounds

end UeMacRibInfo

/-! ## Statistics reports -/

/-- `mutable_x()->CopyFrom(report.x())`: an absent section is read as the default instance. -/
def copySection (x : Option RawMessage) : Option RawMessage := some (x.getD ⟨[]⟩)

def UeMacRibInfo.updateMacStatsReport (s : UeMacRibInfo) (report : FlexUeStatsReport) :
    UeMacRibInfo :=
  let flags := report.flags.getD 0
  let old := s.macStatsReport
  { s with macStatsReport :=
    { old with
      rnti := some (report.rnti.getD 0)
      bsr := if FlexUeStatsType.bsr.isSet flags then report.bsr else old.bsr
      phr := if FlexUeStatsType.phr.isSet flags then some (report.phr.getD 0) else old.phr
      rlcReport := if FlexUeStatsType.rlcBs.isSet flags then report.rlcReport else old.rlcReport
      pendingMacCes :=
        if FlexUeStatsType.macCeBs.isSet flags then some (report.pendingMacCes.getD 0)
        else old.pendingMacCes
      dlCqiReport :=
        if FlexUeStatsType.dlCqi.isSet flags then copySection report.dlCqiReport
        else old.dlCqiReport
      pbr := if FlexUeStatsType.pbs.isSet flags then copySection report.pbr else old.pbr
      ulCqiReport :=
        if FlexUeStatsType.ulCqi.isSet flags then copySection report.ulCqiReport
        else old.ulCqiReport
      pdcpStats :=
        if FlexUeStatsType.pdcpStats.isSet flags then copySection report.pdcpStats
        else old.pdcpStats
      rrcMeasurements :=
        if FlexUeStatsType.rrcMeasurements.isSet flags then copySection report.rrcMeasurements
        else old.rrcMeasurements
      macStats :=
        if FlexUeStatsType.macStats.isSet flags then copySection report.macStats else old.macStats
      gtpStats := if FlexUeStatsType.gtpStats.isSet flags then report.gtpStats else old.gtpStats
      s1apStats :=
        if FlexUeStatsType.s1apStats.isSet flags then copySection report.s1apStats
        else old.s1apStats } }

structure CellMacRibInfo where
  cellStatsReport : FlexCellStatsReport := {}

def CellMacRibInfo.updateCellStatsReport (s : CellMacRibInfo) (report : FlexCellStatsReport) :
    CellMacRibInfo :=
  if FlexCellStatsType.noiseInterference.isSet (report.flags.getD 0) then
    { s with cellStatsReport :=
      { s.cellStatsReport with noiseInterReport := copySection report.noiseInterReport } }
  else s

end FlexRan.Rib
