import FlexRan.Lib.Proto

/-!
# Configuration messages

The eNB, UE and logical-channel configurations an agent reports, field by field as the
protocol files have them.  Singular scalar fields of one type that no function tells apart are
grouped: `FlexCellConfig.scalar` maps the name of such a field to its value.  A message whose
fields no modelled function reads is kept as its serialized bytes (`RawMessage`).
-/
namespace FlexRan.Protocol

open Lib Lib.Message

/-- A message no modelled function looks into, by its serialized bytes. -/
structure RawMessage where
  wire : List UInt8
deriving DecidableEq

structure FlexHeader where
  version : Option UInt32 := none
  type : Option UInt32 := none
  xid : Option UInt32 := none
deriving DecidableEq

/-! ## Cells -/

inductive SiField | sfn | sib1Length | siWindowLength
deriving DecidableEq

structure FlexSiMessage where
  periodicity : Option UInt32 := none
  length : Option UInt32 := none
deriving DecidableEq

@[ext] structure FlexSiConfig where
  scalar : SiField → Option UInt32 := fun _ => none
  siMessage : List FlexSiMessage := []

instance : Message FlexSiConfig where
  defaultInstance := {}
  mergeFrom dst src :=
    { scalar := mergeFrom dst.scalar src.scalar
      siMessage := mergeRepeated dst.siMessage src.siMessage }
  LeavesIn src m := LeavesIn src.scalar m.scalar ∧ RepeatedIn src.siMessage m.siMessage

inductive FlexSliceAlgorithm | none | static | nvs
deriving DecidableEq

structure FlexSliceStatic where
  posLow : Option UInt32 := Option.none
  posHigh : Option UInt32 := Option.none
deriving DecidableEq

structure FlexSlice where
  id : Option UInt32 := none
  label : Option String := none
  scheduler : Option String := none
  static : Option FlexSliceStatic := none
deriving DecidableEq

@[ext] structure FlexSliceDlUlConfig where
  algorithm : Option FlexSliceAlgorithm := none
  slices : List FlexSlice := []
  scheduler : Option String := none
deriving DecidableEq

instance : Message FlexSliceDlUlConfig where
  defaultInstance := {}
  mergeFrom dst src :=
    { algorithm := mergeScalar dst.algorithm src.algorithm
      slices := mergeRepeated dst.slices src.slices
      scheduler := mergeScalar dst.scheduler src.scheduler }
  LeavesIn src m := ScalarIn src.algorithm m.algorithm ∧ RepeatedIn src.slices m.slices ∧
    ScalarIn src.scheduler m.scheduler

@[ext] structure FlexSliceConfig where
  dl : Option FlexSliceDlUlConfig := none
  ul : Option FlexSliceDlUlConfig := none
deriving DecidableEq

instance : Message FlexSliceConfig where
  defaultInstance := {}
  mergeFrom dst src := { dl := mergeMessage dst.dl src.dl, ul := mergeMessage dst.ul src.ul }
  LeavesIn src m := MessageIn src.dl m.dl ∧ MessageIn src.ul m.ul

structure FlexPlmn where
  mcc : Option UInt32 := none
  mnc : Option UInt32 := none
  mncLength : Option UInt32 := none
deriving DecidableEq

/-- The singular `uint32` fields of `flex_cell_config`. -/
inductive CellField
  | phyCellId | puschHoppingOffset | hoppingMode | nSb | phichResource | phichDuration
  | initNrPDCCHOFDMSym | dlBandwidth | ulBandwidth | ulCyclicPrefixLength
  | dlCyclicPrefixLength | antennaPortsCount | duplexMode | subframeAssignment
  | specialSubframePatterns | prachConfigIndex | prachFreqOffset | raResponseWindowSize
  | macContentionResolutionTimer | maxHARQMsg3Tx | n1PUCCHAN | deltaPUCCHShift | nRBCqi
  | srsSubframeConfig | srsBwConfig | srsMacUpPts | enable64QAM | carrierIndex | dlFreq
  | ulFreq | eutraBand
deriving DecidableEq

inductive PowerField | dlPdschPower | ulPuschPower
deriving DecidableEq

/-- The repeated `uint32` fields of `flex_cell_config`. -/
inductive MbsfnField
  | mbsfnSubframeConfigRfperiod | mbsfnSubframeConfigRfoffset | mbsfnSubframeConfigSfalloc
deriving DecidableEq

@[ext] structure FlexCellConfig where
  scalar : CellField → Option UInt32 := fun _ => none
  power : PowerField → Option Int32 := fun _ => none
  x2HoNetControl : Option Bool := none
  mbsfn : MbsfnField → List UInt32 := fun _ => []
  plmnId : List FlexPlmn := []
  siConfig : Option FlexSiConfig := none
  sliceConfig : Option FlexSliceConfig := none

instance : Message FlexCellConfig where
  defaultInstance := {}
  mergeFrom dst src :=
    { scalar := mergeFrom dst.scalar src.scalar
      power := mergeFrom dst.power src.power
      x2HoNetControl := mergeScalar dst.x2HoNetControl src.x2HoNetControl
      mbsfn := fun f => mergeRepeated (dst.mbsfn f) (src.mbsfn f)
      plmnId := mergeRepeated dst.plmnId src.plmnId
      siConfig := mergeMessage dst.siConfig src.siConfig
      sliceConfig := mergeMessage dst.sliceConfig src.sliceConfig }
  LeavesIn src m :=
    LeavesIn src.scalar m.scalar ∧ LeavesIn src.power m.power ∧
    ScalarIn src.x2HoNetControl m.x2HoNetControl ∧
    (∀ f, RepeatedIn (src.mbsfn f) (m.mbsfn f)) ∧ RepeatedIn src.plmnId m.plmnId ∧
    MessageIn src.siConfig m.siConfig ∧ MessageIn src.sliceConfig m.sliceConfig

/-- The repeated fields of `flex_cell_config`. -/
inductive CellRepeated
  | mbsfn (f : MbsfnField)
  | plmnId
deriving DecidableEq

instance : Reflection FlexCellConfig where
  RepeatedField := CellRepeated
  repeatedFields := [.mbsfn .mbsfnSubframeConfigRfperiod, .mbsfn .mbsfnSubframeConfigRfoffset,
    .mbsfn .mbsfnSubframeConfigSfalloc, .plmnId]
  fieldSize m
    | .mbsfn f => (m.mbsfn f).length
    | .plmnId => m.plmnId.length
  clearField m
    | .mbsfn f => { m with mbsfn := Function.update m.mbsfn f [] }
    | .plmnId => { m with plmnId := [] }

/-! ## Base stations -/

structure FlexGummei where
  plmn : Option FlexPlmn := none
  mmeGroupId : Option UInt32 := none
  mmeCode : Option UInt32 := none
deriving DecidableEq

inductive FlexMmeState | disconnected | waiting | connected | overload
deriving DecidableEq

structure FlexS1apMme where
  s1Ip : Option String := none
  name : Option String := none
  state : Option FlexMmeState := none
  servedGummeis : List FlexGummei := []
  requestedPlmns : List FlexPlmn := []
  relCapacity : Option UInt32 := none
deriving DecidableEq

structure FlexS1apConfig where
  pending : Option UInt32 := none
  connected : Option UInt32 := none
  enbS1Ip : Option String := none
  enbName : Option String := none
  mme : List FlexS1apMme := []
deriving DecidableEq

instance : Message FlexS1apConfig where
  defaultInstance := {}
  mergeFrom dst src :=
    { pending := mergeScalar dst.pending src.pending
      connected := mergeScalar dst.connected src.connected
      enbS1Ip := mergeScalar dst.enbS1Ip src.enbS1Ip
      enbName := mergeScalar dst.enbName src.enbName
      mme := mergeRepeated dst.mme src.mme }
  LeavesIn src m := ScalarIn src.pending m.pending ∧ ScalarIn src.connected m.connected ∧
    ScalarIn src.enbS1Ip m.enbS1Ip ∧ ScalarIn src.enbName m.enbName ∧ RepeatedIn src.mme m.mme

structure FlexEnbConfigReply where
  header : Option FlexHeader := none
  eNBId : Option UInt64 := none
  cellConfig : List FlexCellConfig := []
  deviceSpec : Option UInt32 := none
  s1ap : Option FlexS1apConfig := none
  loadedApps : List String := []
  loadedMacObjects : List String := []

/-! ## UEs -/

inductive DrxField
  | onDurationTimer | drxInactivityTimer | drxRetransmissionTimer | longDrxCycle
  | longDrxCycleStartOffset | shortDrxCycle | drxShortCycleTimer
deriving DecidableEq

inductive SpsField
  | semiPersistentSchedIntervalUL | semiPersistentSchedIntervalDL | numOfConfSpsProc
  | implicitReleaseAfter
deriving DecidableEq

@[ext] structure FlexSpsConfig where
  scalar : SpsField → Option UInt32 := fun _ => none
  n1PUCCHANPersistentElement : List UInt32 := []

instance : Message FlexSpsConfig where
  defaultInstance := {}
  mergeFrom dst src :=
    { scalar := mergeFrom dst.scalar src.scalar
      n1PUCCHANPersistentElement :=
        mergeRepeated dst.n1PUCCHANPersistentElement src.n1PUCCHANPersistentElement }
  LeavesIn src m := LeavesIn src.scalar m.scalar ∧
    RepeatedIn src.n1PUCCHANPersistentElement m.n1PUCCHANPersistentElement

inductive SrField | srAction | schedInterval | dsrTransMax
deriving DecidableEq

inductive CqiField | cqiAction | cqiSchedInterval | riSchedInterval
deriving DecidableEq

inductive CapabilityField | halfDuplex | intraSFHopping | type2Sb1 | ueCategory | resAllocType1
deriving DecidableEq

inductive ScellField | carrierIndex | scellIndex | useCcs | schedCellIndex | pdschStart
deriving DecidableEq

inductive MeasField
  | offsetFreqServing | offsetFreqNeighbouring | filterCoefficientRsrp | filterCoefficientRsrq
deriving DecidableEq

inductive MeasEvent | periodical | a1 | a2 | a3 | a4 | a5
deriving DecidableEq

/-- The fields of the six event messages; each event uses some of them. -/
inductive EventField
  | thresholdRsrp | thresholdRsrp1 | thresholdRsrp2 | a3Offset | reportOnLeave | hysteresis
  | timeToTrigger | maxReportCells
deriving DecidableEq

/-- `flex_measurement_event`: one optional sub-message for each event. -/
@[ext] structure FlexMeasurementEvent where
  event : MeasEvent → Option (EventField → Option Int64) := fun _ => none

instance : Message FlexMeasurementEvent where
  defaultInstance := {}
  mergeFrom dst src := { event := fun e => mergeMessage (dst.event e) (src.event e) }
  LeavesIn src m := ∀ e, MessageIn (src.event e) (m.event e)

@[ext] structure FlexMeasurementInfo where
  scalar : MeasField → Option Int64 := fun _ => none
  cellIndividualOffset : List Int64 := []
  event : Option FlexMeasurementEvent := none

instance : Message FlexMeasurementInfo where
  defaultInstance := {}
  mergeFrom dst src :=
    { scalar := mergeFrom dst.scalar src.scalar
      cellIndividualOffset := mergeRepeated dst.cellIndividualOffset src.cellIndividualOffset
      event := mergeMessage dst.event src.event }
  LeavesIn src m := LeavesIn src.scalar m.scalar ∧
    RepeatedIn src.cellIndividualOffset m.cellIndividualOffset ∧ MessageIn src.event m.event

instance : Reflection FlexMeasurementInfo where
  RepeatedField := Unit
  repeatedFields := [()]
  fieldSize m _ := m.cellIndividualOffset.length
  clearField m _ := { m with cellIndividualOffset := [] }

/-- The singular `uint32` fields of `flex_ue_config` other than the RNTI and the slices. -/
inductive UeField
  | timeAlignmentTimer | measGapConfigPattern | measGapConfigSfOffset | transmissionMode
  | ueTransmissionAntenna | ttiBundling | maxHARQTx | betaOffsetACKIndex | betaOffsetRIIndex
  | betaOffsetCQIIndex | ackNackSimultaneousTrans | simultaneousAckNackCqi
  | aperiodicCqiRepMode | tddAckNackFeedback | ackNackRepetitionFactor | extendedBsrSize
  | caSupport | crossCarrierSchedSupport | pcellCarrierIndex | scellDeactivationTimer
deriving DecidableEq

inductive BitrateField | ueAggregatedMaxBitrateUL | ueAggregatedMaxBitrateDL
deriving DecidableEq

@[ext] structure FlexUeConfig where
  rnti : Option UInt32 := none
  imsi : Option UInt64 := none
  dlSliceId : Option UInt32 := none
  ulSliceId : Option UInt32 := none
  scalar : UeField → Option UInt32 := fun _ => none
  bitrate : BitrateField → Option UInt64 := fun _ => none
  drxConfig : Option (DrxField → Option UInt32) := none
  spsConfig : Option FlexSpsConfig := none
  srConfig : Option (SrField → Option UInt32) := none
  cqiConfig : Option (CqiField → Option UInt32) := none
  capabilities : Option (CapabilityField → Option UInt32) := none
  scellConfig : List (ScellField → Option UInt32) := []
  info : Option FlexMeasurementInfo := none

instance : Message FlexUeConfig where
  defaultInstance := {}
  mergeFrom dst src :=
    { rnti := mergeScalar dst.rnti src.rnti
      imsi := mergeScalar dst.imsi src.imsi
      dlSliceId := mergeScalar dst.dlSliceId src.dlSliceId
      ulSliceId := mergeScalar dst.ulSliceId src.ulSliceId
      scalar := mergeFrom dst.scalar src.scalar
      bitrate := mergeFrom dst.bitrate src.bitrate
      drxConfig := mergeMessage dst.drxConfig src.drxConfig
      spsConfig := mergeMessage dst.spsConfig src.spsConfig
      srConfig := mergeMessage dst.srConfig src.srConfig
      cqiConfig := mergeMessage dst.cqiConfig src.cqiConfig
      capabilities := mergeMessage dst.capabilities src.capabilities
      scellConfig := mergeRepeated dst.scellConfig src.scellConfig
      info := mergeMessage dst.info src.info }
  LeavesIn src m :=
    ScalarIn src.rnti m.rnti ∧ ScalarIn src.imsi m.imsi ∧
    ScalarIn src.dlSliceId m.dlSliceId ∧ ScalarIn src.ulSliceId m.ulSliceId ∧
    LeavesIn src.scalar m.scalar ∧ LeavesIn src.bitrate m.bitrate ∧
    MessageIn src.drxConfig m.drxConfig ∧ MessageIn src.spsConfig m.spsConfig ∧
    MessageIn src.srConfig m.srConfig ∧ MessageIn src.cqiConfig m.cqiConfig ∧
    MessageIn src.capabilities m.capabilities ∧ RepeatedIn src.scellConfig m.scellConfig ∧
    MessageIn src.info m.info

instance : Reflection FlexUeConfig where
  RepeatedField := Unit
  repeatedFields := [()]
  fieldSize m _ := m.scellConfig.length
  clearField m _ := { m with scellConfig := [] }

structure FlexUeConfigReply where
  header : Option FlexHeader := none
  ueConfig : List FlexUeConfig := []

structure FlexUeStateChange where
  header : Option FlexHeader := none
  type : Option UInt32 := none
  config : Option FlexUeConfig := none

/-! ## Logical channels -/

inductive LcField
  | lcid | lcg | direction | qosBearerType | qci | eRABMaxBitrateUL | eRABMaxBitrateDL
  | eRABGuaranteedBitrateUL | eRABGuaranteedBitrateDL
deriving DecidableEq

structure FlexLcUeConfig where
  rnti : Option UInt32 := none
  lcConfig : List (LcField → Option UInt64) := []

structure FlexLcConfigReply where
  header : Option FlexHeader := none
  lcUeConfig : List FlexLcUeConfig := []

/-! ## Lawfulness -/

instance : LawfulMessage FlexSliceDlUlConfig where
  mergeFrom_defaultInstance s := by simp [mergeFrom, defaultInstance]
  leavesIn_refl s := ⟨scalarIn_refl _, repeatedIn_refl _, scalarIn_refl _⟩

instance : LawfulMessage FlexSliceConfig where
  mergeFrom_defaultInstance s := by simp [mergeFrom, defaultInstance]
  leavesIn_refl s := ⟨messageIn_refl _, messageIn_refl _⟩

instance : LawfulMessage FlexSiConfig where
  mergeFrom_defaultInstance s := by simp [mergeFrom, defaultInstance]
  leavesIn_refl s := ⟨leavesIn_refl _, repeatedIn_refl _⟩

instance : IdempotentMessage FlexMeasurementEvent where
  mergeFrom_twice d s :=
    FlexMeasurementEvent.ext (funext fun e => mergeMessage_twice (d.event e) (s.event e))

instance : LawfulMessage FlexS1apConfig where
  mergeFrom_defaultInstance s := by simp [mergeFrom, defaultInstance]
  leavesIn_refl s := ⟨scalarIn_refl _, scalarIn_refl _, scalarIn_refl _, scalarIn_refl _,
    repeatedIn_refl _⟩

end FlexRan.Protocol
