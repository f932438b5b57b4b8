import FlexRan.Protocol.Config

/-!
# Protocol messages

The messages the controller and its agents exchange.  `FlexranMessage` is the envelope: a
direction and one of the message bodies.  Bodies the dispatcher does not act on are one case.
-/
namespace FlexRan.Protocol

/-! ## Message types -/

def flptHello : UInt32 := 0
def flptEchoReply : UInt32 := 2
def flptStatsRequest : UInt32 := 3
def flptGetEnbConfigRequest : UInt32 := 7
def flptGetUeConfigRequest : UInt32 := 9
def flptGetLcConfigRequest : UInt32 := 11
def flptGetEnbConfigReply : UInt32 := 8
def flptDelegateControl : UInt32 := 15
def flptReconfigureAgent : UInt32 := 16
def flptRrcTriggering : UInt32 := 17
def flptDisconnect : UInt32 := 20
def flptHoCommand : UInt32 := 21

/-! ## Hello -/

inductive BsCapability
  | lophy | hiphy | lomac | himac | rlc | pdcp | sdap | rrc | s1ap
deriving DecidableEq

inductive BsSplit | f1 | nFAPI | if4 | if4p5 | if5
deriving DecidableEq

structure FlexHello where
  header : Option FlexHeader := none
  bsId : Option UInt64 := none
  capabilities : List BsCapability := []
  splits : List BsSplit := []
deriving DecidableEq

/-! ## Statistics and subframe triggers -/

inductive FlexStatsReportFreq | once | periodical | continuous | off
deriving DecidableEq

inductive FlexCellStatsType | noiseInterference
deriving DecidableEq

/-- The number of the enumerator, one bit of `cellReportFlags`. -/
def FlexCellStatsType.number : FlexCellStatsType → UInt32
  | noiseInterference => 1

def FlexCellStatsType.isSet (f : FlexCellStatsType) (flags : UInt32) : Bool :=
  flags &&& f.number != 0

inductive FlexUeStatsType
  | bsr | phr | rlcBs | macCeBs | dlCqi | pbs | ulCqi | macStats | pdcpStats | gtpStats
  | s1apStats | rrcMeasurements
deriving DecidableEq

/-- The number of the enumerator, one bit of `ueReportFlags` and of the flags of a report. -/
def FlexUeStatsType.number : FlexUeStatsType → UInt32
  | bsr => 1
  | phr => 2
  | rlcBs => 4
  | macCeBs => 8
  | dlCqi => 16
  | pbs => 32
  | ulCqi => 64
  | macStats => 128
  | pdcpStats => 1024
  | gtpStats => 2048
  | s1apStats => 4096
  | rrcMeasurements => 65536

def FlexUeStatsType.isSet (f : FlexUeStatsType) (flags : UInt32) : Bool := f.number &&& flags != 0

/-- The agents read the flags; the lists of reports are for the northbound interface. -/
structure FlexCompleteStatsRequest where
  reportFrequency : Option FlexStatsReportFreq := none
  sf : Option UInt32 := none
  cellReportFlags : Option UInt32 := none
  ueReportFlags : Option UInt32 := none
  cellReports : List FlexCellStatsType := []
  ueReports : List FlexUeStatsType := []
deriving DecidableEq

structure FlexCompleteStatsRequestRepeated where
  reports : List FlexCompleteStatsRequest := []
deriving DecidableEq

inductive FlexStatsType | completeStats | cellStats | ueStats
deriving DecidableEq

structure FlexStatsRequest where
  header : Option FlexHeader := none
  type : Option FlexStatsType := none
  completeStatsRequest : Option FlexCompleteStatsRequest := none
deriving DecidableEq

structure FlexUeStatsReport where
  rnti : Option UInt32 := none
  flags : Option UInt32 := none
  bsr : List UInt32 := []
  phr : Option UInt32 := none
  rlcReport : List RawMessage := []
  pendingMacCes : Option UInt32 := none
  dlCqiReport : Option RawMessage := none
  pbr : Option RawMessage := none
  ulCqiReport : Option RawMessage := none
  rrcMeasurements : Option RawMessage := none
  pdcpStats : Option RawMessage := none
  macStats : Option RawMessage := none
  gtpStats : List RawMessage := []
  s1apStats : Option RawMessage := none
deriving DecidableEq

structure FlexCellStatsReport where
  carrierIndex : Option UInt32 := none
  flags : Option UInt32 := none
  noiseInterReport : Option RawMessage := none
deriving DecidableEq

structure FlexStatsReply where
  header : Option FlexHeader := none
  ueReport : List FlexUeStatsReport := []
  cellReport : List FlexCellStatsReport := []
deriving DecidableEq

structure FlexDlInfo where
  rnti : Option UInt32 := none
  harqProcessId : Option UInt32 := none
  harqStatus : List UInt32 := []
  servCellIndex : Option UInt32 := none
deriving DecidableEq

structure FlexUlInfo where
  rnti : Option UInt32 := none
  ulReception : List UInt32 := []
  receptionStatus : Option UInt32 := none
  tpc : Option UInt32 := none
  servCellIndex : Option UInt32 := none
deriving DecidableEq

structure FlexSfTrigger where
  header : Option FlexHeader := none
  sfnSf : Option UInt32 := none
  dlInfo : List FlexDlInfo := []
  ulInfo : List FlexUlInfo := []
deriving DecidableEq

/-! ## The envelope -/

inductive FlexranDirection
  | notSet | initiatingMessage | successfulOutcome | unsuccessfulOutcome
deriving DecidableEq

inductive FlexControlDelegationType | macDlUeScheduler | agentControlApp
deriving DecidableEq

structure FlexControlDelegation where
  header : Option FlexHeader := none
  delegationType : Option FlexControlDelegationType := none
  payload : Option (List UInt8) := none
  name : Option String := none
deriving DecidableEq

structure FlexControlDelegationRequest where
  header : Option FlexHeader := none
  delegationType : Option FlexControlDelegationType := none
  name : Option String := none
deriving DecidableEq

/-! ## Commands of the controller -/

/-- The parameters, in the order of their keys. -/
structure FlexAgentReconfigurationSubsystem where
  name : Option String := none
  behavior : Option String := none
  params : List (String × RawMessage) := []
deriving DecidableEq

structure FlexAgentReconfigurationSystem where
  system : Option String := none
  subsystems : List FlexAgentReconfigurationSubsystem := []
deriving DecidableEq

structure FlexAgentReconfiguration where
  header : Option FlexHeader := none
  policy : Option String := none
  systems : List FlexAgentReconfigurationSystem := []
deriving DecidableEq

structure FlexRrcTriggering where
  header : Option FlexHeader := none
  rrcTrigger : Option String := none
  measInfo : Option FlexMeasurementInfo := none

structure FlexHoCommand where
  header : Option FlexHeader := none
  rnti : Option UInt32 := none
  targetPhyCellId : Option UInt32 := none
deriving DecidableEq

/-- The bodies of `flexran_message`. The dispatcher only warns about those in `other` and about
a message without a body. -/
inductive FlexranBody
  | notSet
  | hello (m : FlexHello)
  | echoRequest (header : Option FlexHeader)
  | echoReply (header : Option FlexHeader)
  | statsRequest (m : FlexStatsRequest)
  | statsReply (m : FlexStatsReply)
  | sfTrigger (m : FlexSfTrigger)
  | enbConfigRequest (header : Option FlexHeader)
  | enbConfigReply (m : FlexEnbConfigReply)
  | ueConfigRequest (header : Option FlexHeader)
  | ueConfigReply (m : FlexUeConfigReply)
  | lcConfigRequest (header : Option FlexHeader)
  | lcConfigReply (m : FlexLcConfigReply)
  | ueStateChange (m : FlexUeStateChange)
  | controlDelegation (m : FlexControlDelegation)
  | agentReconfiguration (m : FlexAgentReconfiguration)
  | rrcTriggering (m : FlexRrcTriggering)
  | hoCommand (m : FlexHoCommand)
  | disconnect (header : Option FlexHeader)
  | controlDelReq (m : FlexControlDelegationRequest)
  | other (m : RawMessage)

structure FlexranMessage where
  msgDir : Option FlexranDirection := none
  msg : FlexranBody := .notSet

end FlexRan.Protocol
