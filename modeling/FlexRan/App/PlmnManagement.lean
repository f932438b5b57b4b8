import FlexRan.App.Component

/-!
# PLMN management

Requests of the northbound interface add an MME to a base station, remove one, or replace the
PLMN list of its cell.  A request is checked entry by entry and sent as a whole.

## Main definitions

* `addMme`, `removeMme`, `changePlmn`: the requests.
-/
namespace FlexRan.App.Plmn

open Lib Lib.Operation Protocol Rib

/-- The application has no state of its own. -/
abbrev PlmnManagement := Unit

def requireBs (bs : String) : Op PlmnManagement UInt64 := do
  let bsId ← ofRib fun r => r.parseBsId bs
  throwIf (bsId = 0) (.invalidArgument ("cannot find BS " ++ bs))
  return bsId

/-- `JsonStringToMessage` or an exception. -/
def requireMessage {μ : Type} (parse : String → Option μ) (config : String) :
    Op PlmnManagement μ :=
  match parse config with
  | none => throw (.invalidArgument "Protobuf parser error")
  | some m => pure m

def pushMmeConfig (bsId : UInt64) (s1ap : FlexS1apConfig) : Op PlmnManagement Unit :=
  sendMessage bsId
    { msgDir := some .initiatingMessage
      msg := .enbConfigReply { header := some reconfigurationHeader, s1ap := some s1ap } }

/-! ## MMEs -/

/-- The addresses of the MMEs of a base station; an unset address reads as empty. -/
def mmeAddresses (bs : EnbRibInfo) : List String :=
  (bs.eNBConfig.s1ap.getD {}).mme.map fun mme => mme.s1Ip.getD ""

/-- The single MME of a request. -/
def requireOneMme (s1ap : FlexS1apConfig) : Op PlmnManagement Unit := do
  throwIf (s1ap.mme.length = 0) (.invalidArgument "no MME present")
  throwIf (s1ap.mme.length > 1) (.invalidArgument "only one MME allowed")

/-- The address of an MME of a request, and whether the base station has one there. -/
def mmeIp (bsId : UInt64) (mme : FlexS1apMme) : Op PlmnManagement (String × Bool) := do
  throwIf (mme.s1Ip = none) (.invalidArgument "no S1Ip for MME")
  let ip := mme.s1Ip.getD ""
  let ipPresent ← ofBs bsId fun bs => .ok ((mmeAddresses bs).contains ip)
  return (ip, ipPresent)

/-- One round of the loop of `add_mme`. -/
def addedMme (bsId : UInt64) (mme : FlexS1apMme) : Op PlmnManagement FlexS1apMme := do
  let (ip, ipPresent) ← mmeIp bsId mme
  throwIf (ipPresent = true) (.invalidArgument ("MME at IP " ++ ip ++ " already present"))
  throwIf (mme.requestedPlmns.length > 0) (.invalidArgument "requested PLMNs not supported yet")
  return { mme with state := none, servedGummeis := [], relCapacity := none }

/-- One round of the loop of `remove_mme`. -/
def removedMme (bsId : UInt64) (mme : FlexS1apMme) : Op PlmnManagement FlexS1apMme := do
  let (ip, ipPresent) ← mmeIp bsId mme
  throwIf (ipPresent = false) (.invalidArgument ("no MME at IP " ++ ip ++ " present"))
  return { mme with
    state := some .disconnected, servedGummeis := [], requestedPlmns := [], relCapacity := none }

/-- The two requests differ in what becomes of the MME. -/
def changeMme (change : UInt64 → FlexS1apMme → Op PlmnManagement FlexS1apMme)
    (parse : String → Option FlexS1apConfig) (bs config : String) : Op PlmnManagement Unit := do
  let bsId ← requireBs bs
  let s1ap ← requireMessage parse config
  requireOneMme s1ap
  let mme ← s1ap.mme.mapM (change bsId)
  pushMmeConfig bsId { mme := mme }

def addMme : (String → Option FlexS1apConfig) → String → String → Op PlmnManagement Unit :=
  changeMme addedMme

def removeMme : (String → Option FlexS1apConfig) → String → String → Op PlmnManagement Unit :=
  changeMme removedMme

/-! ## PLMNs -/

/-- One round of the loop of `change_plmn`. The length of the MNC is read as a truth value. -/
def checkPlmn (p : FlexPlmn) : Op PlmnManagement Unit := do
  let mnc := p.mnc.getD 0
  let mncLength := p.mncLength.getD 0
  throwIf (p.mcc = none ∨ p.mnc = none ∨ mncLength = 0)
    (.invalidArgument "Need MCC, MNC, and MNC length")
  throwIf (p.mcc.getD 0 > 999) (.invalidArgument "MCC cannot be greater than 99")
  throwIf (mncLength < 2 ∨ mncLength > 3)
    (.invalidArgument "MNC length can only be in range [2,3]")
  throwIf (mncLength = 2 ∧ mnc > 99)
    (.invalidArgument "MNC cannot be greater than 99 for MNC length 2")
  throwIf (mncLength = 3 ∧ mnc > 999)
    (.invalidArgument "MNC cannot be greater than 999 for MNC length 2")

def changePlmn (parse : String → Option FlexCellConfig) (bs config : String) :
    Op PlmnManagement Unit := do
  let bsId ← requireBs bs
  let cc ← requireMessage parse config
  throwIf (cc.plmnId.length < 1 ∨ cc.plmnId.length > 6)
    (.invalidArgument "length of PLMN list must be within [1,6]")
  forM cc.plmnId checkPlmn
  pushCellConfig bsId { plmnId := cc.plmnId }

end FlexRan.App.Plmn
