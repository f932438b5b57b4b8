import FlexRan.App.Component
import FlexRan.Lib.Signal

/-!
# RRC triggering

Requests of the northbound interface hand a UE over to another base station, change its
measurements, or decide who initiates handovers.  The source and the target of a handover may be
named by the physical cell id of cell 0 instead of the id of the base station.

The application also compares the physical cell id of each new base station with those of the
others, once its configuration has been received.

## Main definitions

* `RrcTriggering`: the base stations that have to be checked and those that have been.
* `checkPhyCellId`: the check.
* `parsePhysicalCellId`: the first base station with a physical cell id.
* `rrcReconf`, `rrcHo`, `rrcX2HoNetControl`: the requests.
-/
namespace FlexRan.App.Rrc

open Lib Lib.Operation Protocol Rib

/-- The base stations that wait for the check are those of an unordered set. -/
structure RrcTriggering where
  setCheckPhyCellId : List UInt64 := []
  mapPhyCellId : Std.ExtTreeMap UInt64 ℤ := ∅
  /-- The slots of the check in the event system, with the tick they start at. -/
  taskTick : Signal ℕ := {}
  lastTick : ℕ := 0
  tickCheckPhyCellId : Option ℕ := none

/-! ## The check of the physical cell ids -/

namespace RrcTriggering

def tickConnected (s : RrcTriggering) : Bool := s.tickCheckPhyCellId.any s.taskTick.connected

def bsAdded (bsId : UInt64) (s : RrcTriggering) : RrcTriggering :=
  let s : RrcTriggering :=
    if bsId ∈ s.setCheckPhyCellId then s
    else { s with setCheckPhyCellId := s.setCheckPhyCellId ++ [bsId] }
  if s.tickConnected then s
  else { s with
    taskTick := s.taskTick.connect s.lastTick
    tickCheckPhyCellId := some s.taskTick.next }

def bsRemoved (bsId : UInt64) (s : RrcTriggering) : RrcTriggering :=
  { s with mapPhyCellId := s.mapPhyCellId.erase bsId }

/-- The physical cell id of cell 0, if it has been received. -/
def phyCellId? (r : Rib) (bsId : UInt64) : Option ℤ := do
  let bs ← r.getBs bsId
  let cell ← bs.eNBConfig.cellConfig[0]?
  let pcId ← cell.scalar .phyCellId
  return pcId.toInt32.toInt

/-- What is left to check, what has been checked, and the pairs that have been compared: the
physical cell id of each is compared with all that have been checked before. -/
def checkLoop (r : Rib) : List UInt64 → Std.ExtTreeMap UInt64 ℤ →
    List UInt64 × Std.ExtTreeMap UInt64 ℤ × List (UInt64 × UInt64)
  | [], checked => ([], checked, [])
  | bsId :: bss, checked =>
    match phyCellId? r bsId with
    | some pcId =>
      let (left, checked', compared) := checkLoop r bss (checked.insertIfNew bsId pcId)
      (left, checked', checked.keys.map (bsId, ·) ++ compared)
    | none =>
      let (left, checked', compared) := checkLoop r bss checked
      (bsId :: left, checked', compared)

/-- The tick is disconnected when nothing is left to check. -/
def checkPhyCellId (r : Rib) (s : RrcTriggering) : RrcTriggering :=
  let (left, checked, _) := checkLoop r s.setCheckPhyCellId s.mapPhyCellId
  let s := { s with setCheckPhyCellId := left, mapPhyCellId := checked }
  if left.isEmpty then { s with taskTick := s.taskTick.close s.tickCheckPhyCellId } else s

end RrcTriggering

/-! ## Names of base stations -/

/-- An empty string stands for the last base station. -/
def parseBsId (r : Rib) (s : String) : Except Abort UInt64 :=
  if s.isEmpty then r.parseEnbAgentId "-1" else r.parseBsId s

/-- The loop over the base stations: the first whose cell 0 has the physical cell id. -/
def findPhysicalCell (r : Rib) (pcId : UInt32) : List UInt64 → Except Abort UInt64
  | [] => .ok 0
  | b :: bs => match r.getBs b with
    | none => .error (.fault .nullDereference)
    | some info => do
      let cell ← info.cellConfig 0
      if pcId = (cell.scalar .phyCellId).getD 0 then return b
      else findPhysicalCell r pcId bs

/-- The largest physical cell id. -/
def maxPhysCellId : UInt32 := 503

def parsePhysicalCellId (r : Rib) (s : String) : Except Abort UInt64 :=
  match stoi s with
  | .error .invalidArgument => .ok 0
  | .error .outOfRange => .error .outOfRange
  | .ok v =>
    let pcId := UInt32.ofInt v
    if pcId > maxPhysCellId then .ok 0
    else findPhysicalCell r pcId r.getAvailableBaseStations

/-- A base station id, else a physical cell id. -/
def parseBsOrCell (r : Rib) (s : String) : Except Abort UInt64 := do
  let bsId ← r.parseBsId s
  if bsId = 0 then parsePhysicalCellId r s else return bsId

/-! ## Messages -/

def pushConfig (bsId : UInt64) (rrcInfo : FlexMeasurementInfo) : Op RrcTriggering Unit :=
  sendMessage bsId
    { msgDir := some .initiatingMessage
      msg := .rrcTriggering
        { header := some { type := some flptRrcTriggering, version := some 0, xid := some 0 }
          measInfo := some rrcInfo } }

def pushHo (sBsId : UInt64) (rnti targetPhyCellId : UInt32) : Op RrcTriggering Unit :=
  sendMessage sBsId
    { msgDir := some .initiatingMessage
      msg := .hoCommand
        { header := some { type := some flptHoCommand, version := some 0, xid := some 0 }
          rnti := some rnti, targetPhyCellId := some targetPhyCellId } }

def pushX2HoNetControl (bsId : UInt64) (x2HoNetControl : Bool) : Op RrcTriggering Unit :=
  sendMessage bsId
    { msgDir := some .initiatingMessage
      msg := .enbConfigReply
        { header := some { type := some flptGetEnbConfigReply, version := some 0, xid := some 0 }
          cellConfig := [{ x2HoNetControl := some x2HoNetControl }] } }

/-! ## Requests -/

/-- Whether the request was accepted, and the reason left in `errorReason`. -/
def rrcReconf (parse : String → Option FlexMeasurementInfo) (bs config errorReason : String) :
    Op RrcTriggering (Bool × String) := do
  let bsId ← ofRib fun r => parseBsId r bs
  if bsId = 0 then return (false, "can not find BS")
  else match parse config with
    | none => return (false, "ProtoBuf parser error")
    | some rrcInfo =>
      pushConfig bsId rrcInfo
      return (true, errorReason)

/-- The second half of `rrc_ho`: the target is resolved and the command is sent. -/
def handOver (sBsId : UInt64) (rnti : UInt32) (tbs errorReason : String) :
    Op RrcTriggering (Bool × String) := do
  let tBsId ← ofRib fun r => parseBsOrCell r tbs
  if tBsId = 0 then return (false, "can not find target BS")
  else if sBsId = tBsId then
    return (false, "can not hand over to source BS (target is source)")
  else
    let tCell ← ofBs tBsId fun bs => bs.cellConfig 0
    pushHo sBsId rnti ((tCell.scalar .phyCellId).getD 0)
    -- the id of the source cell is only logged
    let _ ← ofBs sBsId fun bs => bs.cellConfig 0
    return (true, errorReason)

def rrcHo (sbs ue tbs errorReason : String) : Op RrcTriggering (Bool × String) := do
  let sBsId ← ofRib fun r => parseBsOrCell r sbs
  if sBsId = 0 then return (false, "can not find source BS")
  else
    let sCell ← ofBs sBsId fun bs => bs.cellConfig 0
    if sCell.x2HoNetControl.getD false = false then return (false, "BS is not under NetControl")
    else
      let found ← ofBs sBsId fun bs => bs.parseRntiImsi ue
      match found with
      | none => return (false, "can not find UE")
      | some rnti => handOver sBsId rnti tbs errorReason

def rrcX2HoNetControl (bs : String) (x2HoNetControl : Bool) (errorReason : String) :
    Op RrcTriggering (Bool × String) := do
  let bsId ← ofRib fun r => r.parseEnbAgentId bs
  if bsId = 0 then return (false, "can not find BS")
  else
    pushX2HoNetControl bsId x2HoNetControl
    return (true, errorReason)

end FlexRan.App.Rrc
