import FlexRan.App.Applications
import FlexRan.App.PlmnManagement
import FlexRan.App.Recordings
import FlexRan.App.RrcTriggering
import FlexRan.App.StatsJson
import FlexRan.App.StatsText
import FlexRan.North.Call

/-!
# The calls

The northbound interface has a call for each request of each application.  Most of them follow one
of four patterns: the text of the request is given to an operation that throws, an operation says
whether it is accepted and why not, a setting of the exporter is changed, or something is read.

## Main definitions

* `policyCall`, `reasonCall`, `settingCall`: the patterns.
* `Libraries`: the parsers, printers and regular expressions the calls use.
* `RecorderCalls`: the calls of the recorder, one of which has the name of another call.
-/
namespace FlexRan.North

open Lib Lib.Operation Protocol App Rib
open Log (ElasticSearch)
open NetStore (NetstoreLoader)
open Rrc (RrcTriggering)
open Rrm (RrmManagement RegexEngine)
open Stats (StatsManager)

variable {α ρ : Type}

/-! ## Patterns -/

/-- The answer to an empty text. -/
def refuseEmpty (tail : String) : Call α Unit :=
  send .badRequest (errorObject "empty request body" ++ tail)

/-- The operation throws if it does not accept the text. -/
def tryPolicy (app : Op α Unit) : Call α Unit := do
  let result ← attempt app
  answerAttempt "\x7b \"status\": \"Ok\" \x7d\n" result

/-- A call that gives the text of its request to an operation that throws. -/
def policyCall (app : String → String → Op α Unit) (id : Option String) (body : String) :
    Call α Unit :=
  let bs := id.getD "-1"
  if body.length = 0 then refuseEmpty "\n" else tryPolicy (app bs body)

/-- The operation says whether it accepts and gives a reason. -/
def reasonCall (app : Op α (Bool × String)) (tail : String) : Call α Unit := do
  let result ← ofApp app
  if result.1 then send .ok "" else send .badRequest (errorObject result.2 ++ tail)

/-- The text that is asked for, or an error; `known` says whether there is one. -/
def textCall (app : Op α (Bool × String)) : Call α Unit := do
  let result ← ofApp app
  if result.1 then send .ok result.2 else send .badRequest (errorObject result.2)

/-- A request to the exporter. -/
def setting (change : ElasticSearch → Bool × ElasticSearch) : Op ElasticSearch Bool := do
  let w ← get
  set { w with app := (change w.app).2 }
  return (change w.app).1

/-- A call that changes a setting; the exporter says whether it has. -/
def settingCall (change : ElasticSearch → Bool × ElasticSearch) (error : String) :
    Call ElasticSearch Unit := do
  let accepted ← ofApp (setting change)
  if accepted then send .ok ""
  else send .badRequest ("\x7b \"error\": \"" ++ error ++ "\"\x7d")

/-- Something is read from the RIB and sent. -/
def answerText (f : Rib → Except Fault String) : Call α Unit := do
  let resp ← ofApp (ofRib fun r => (f r).mapError Abort.fault)
  send .ok resp

/-! ## Radio resource management -/

/-- The requests under one path, by their methods, with what they are for. -/
structure ApiPath where
  value : String
  routes : List (String × String)

/-- `Pistache::Rest::Description`, as far as it is listed. -/
structure Description where
  title : String
  version : String
  paths : List ApiPath

/-- Strings, which protobuf, the regular expressions and the locale give a meaning, and what the
router knows of the calls. -/
structure Libraries (ρ : Type) where
  engine : RegexEngine ρ
  sliceConfig : String → Option FlexSliceConfig
  cellConfig : String → Option FlexCellConfig
  ueConfigReply : String → Option FlexUeConfigReply
  s1apConfig : String → Option FlexS1apConfig
  measurementInfo : String → Option FlexMeasurementInfo
  statsRequests : Stats.Parser
  printStatsRequests : FlexCompleteStatsRequestRepeated → Option String
  agentReconfiguration : String → Option FlexAgentReconfigurationSubsystem
  printer : MessagePrinter
  debug : DebugPrinter
  localtime : ℤ → Tm
  description : Description

/-- Parsers that accept nothing, and regular expressions without special characters. -/
def plainLibraries : Libraries String where
  engine := plainRegex
  sliceConfig _ := none
  cellConfig _ := none
  ueConfigReply _ := none
  s1apConfig _ := none
  measurementInfo _ := none
  statsRequests := ⟨fun _ => none, fun _ _ h => nomatch h⟩
  printStatsRequests _ := none
  agentReconfiguration _ := none
  printer := .braces
  debug := .empty
  localtime := epochTime
  description :=
    { title := "FlexRAN NB API", version := "2.0"
      paths := [⟨"/capabilities", [("GET", "list active REST endpoints")]⟩] }

/-- The RNTIs of UEs are printed, too. -/
def rntiLibraries : Libraries String := { plainLibraries with printer := .rntis }

variable (lib : Libraries ρ)

/-- `POST /slice/enb/:id?`. -/
def applySliceConfig : Option String → String → Call (RrmManagement ρ) Unit :=
  policyCall fun bs policy => Rrm.applySliceConfigPolicy lib.sliceConfig bs policy

/-- `DELETE /slice/enb/:id?`. -/
def removeSliceConfig : Option String → String → Call (RrmManagement ρ) Unit :=
  policyCall fun bs policy => Rrm.removeSlice lib.sliceConfig bs policy

/-- `POST /ue_slice_assoc/enb/:id?`. -/
def changeUeSliceAssoc : Option String → String → Call (RrmManagement ρ) Unit :=
  policyCall fun bs policy => Rrm.changeUeSliceAssociation lib.ueConfigReply bs policy

/-- The slices of the two directions. An unknown direction is answered, but does not end the
call. -/
def parseDirection (sliceId : UInt32) (dir : String) : Call (RrmManagement ρ) (Int32 × Int32) :=
  let slice := sliceId.toInt32
  if dir = "both" then pure (slice, slice)
  else if dir = "dl" then pure (slice, -1)
  else if dir = "ul" then pure (-1, slice)
  else do
    send .badRequest (errorObject ("unrecognized direction '" ++ dir ++ "'"))
    return (-1, -1)

/-- `POST /auto_ue_slice_assoc/enb/:id?/slice/:slice_id/:dir?`. -/
def autoUeSliceAssoc (id : Option String) (sliceId : UInt32) (dir : Option String)
    (body : String) : Call (RrmManagement ρ) Unit := do
  let bs := id.getD "-1"
  let (dlSliceId, ulSliceId) ← parseDirection sliceId (dir.getD "both")
  if body.length = 0 then refuseEmpty ""
  else tryPolicy (Rrm.autoUeSliceAssociation lib.engine bs body dlSliceId ulSliceId)

/-- The base station of an id, or the last one. -/
def idOrLastBs (id : Option String) : Op (RrmManagement ρ) UInt64 :=
  ofRib fun r => match id with
    | some id => r.parseEnbAgentId id
    | none => .ok (Rrm.getLastBs r)

/-- `POST /conf/enb/:id?`. -/
def cellReconfiguration (id : Option String) (body : String) : Call (RrmManagement ρ) Unit := do
  let bsId ← ofApp (idOrLastBs id)
  if bsId = 0 then send .badRequest (errorObject "can not find BS")
  else if body.length = 0 then refuseEmpty ""
  else reasonCall (Rrm.applyCellConfigPolicy lib.cellConfig bsId body "") ""

/-- `POST /yaml/:id?`; the text is passed on as it is. -/
def yamlCompat (id : Option String) (body : String) : Call (RrmManagement ρ) Unit := do
  let bsId ← ofApp (idOrLastBs id)
  if bsId = 0 then send .notFound "Policy not set (no such BS)\n"
  else if body.length = 0 then send .notFound "Policy not set (body is empty)\n"
  else
    ofApp (Rrm.reconfigureAgentString bsId body)
    send .ok ("Set the policy to BS " ++ toString bsId ++ "\n")

/-! ## PLMN management -/

/-- `POST /mme/enb/:id?`. -/
def addMme : Option String → String → Call Plmn.PlmnManagement Unit :=
  policyCall fun bs policy => Plmn.addMme lib.s1apConfig bs policy

/-- `DELETE /mme/enb/:id?`. -/
def removeMme : Option String → String → Call Plmn.PlmnManagement Unit :=
  policyCall fun bs policy => Plmn.removeMme lib.s1apConfig bs policy

/-- `POST /plmn/enb/:id?`. -/
def changePlmn : Option String → String → Call Plmn.PlmnManagement Unit :=
  policyCall fun bs policy => Plmn.changePlmn lib.cellConfig bs policy

/-! ## RRC triggering -/

/-- `POST /rrc/reconf/enb/:id?`. -/
def rrcReconf (id : Option String) (body : String) : Call RrcTriggering Unit :=
  let bs := id.getD ""
  if body.length = 0 then refuseEmpty "\n"
  else reasonCall (Rrc.rrcReconf lib.measurementInfo bs body "") "\n"

/-- `POST /rrc/ho/senb/:sid/ue/:ue/tenb/:tid`. -/
def rrcHo (senb ue tenb : String) : Call RrcTriggering Unit :=
  reasonCall (Rrc.rrcHo senb ue tenb "") "\n"

/-- `POST /rrc/x2_ho_net_control/enb/:id/:bool`. -/
def rrcX2HoNetControl (enb : String) (x2HoNetControl : Bool) : Call RrcTriggering Unit :=
  reasonCall (Rrc.rrcX2HoNetControl enb x2HoNetControl "") "\n"

/-! ## Statistics -/

/-- `GET /stats_manager/:type?`, for people. -/
def obtainStats (type : Option String) : Call StatsManager Unit :=
  let type := type.getD "all"
  if type = "all" then answerText (Stats.allStatsToString lib.debug)
  else if type = "enb_config" then
    answerText fun r => .ok (Stats.allEnbConfigsToString lib.debug r)
  else if type = "mac_stats" then answerText (Stats.allMacConfigsToString lib.debug)
  else send .badRequest "invalid statistics type\n"

/-- `GET /stats/:type?`. -/
def obtainJsonStats (now : Int64) (type : Option String) : Call StatsManager Unit :=
  let type := type.getD "all"
  if type = "all" then answerText (Stats.allStatsToJsonString lib.printer lib.localtime now)
  else if type = "enb_config" then
    answerText fun r => .ok (Stats.allENBConfigsToJsonString lib.printer lib.localtime now r)
  else if type = "mac_stats" then
    answerText (Stats.allMacConfigsToJsonString lib.printer lib.localtime now)
  else send .badRequest "\x7b \"error\": \"invalid statistics type\"\x7d"

/-- `GET /stats/enb/:id/:type?`. -/
def obtainJsonStatsEnb (now : Int64) (id : String) (type : Option String) :
    Call StatsManager Unit := do
  let bsId ← ofApp (ofRib fun r => r.parseEnbAgentId id)
  let type := type.getD "all"
  if bsId = 0 then send .badRequest (errorObject "can not find agent")
  else if type = "all" then
    answerText fun r =>
      Prod.snd <$> Stats.statsByBsIdToJsonString lib.printer lib.localtime now r bsId
  else if type = "enb_config" then
    answerText fun r =>
      .ok (Stats.enbConfigsByBsIdToJsonString lib.printer lib.localtime now r bsId).2
  else if type = "mac_stats" then
    answerText fun r =>
      Prod.snd <$> Stats.macConfigsByBsIdToJsonString lib.printer lib.localtime now r bsId
  else send .badRequest (errorObject "invalid statistics type")

/-- The UE has been looked up, with its base station. -/
def answerUe : Option (UInt32 × UInt64) → Call StatsManager Unit
  | none => send .badRequest (errorObject "invalid UE ID")
  | some (rnti, bsId) =>
    answerText fun r =>
      Prod.snd <$> Stats.ueStatsByRntiByBsIdToJsonString lib.printer r rnti "" bsId

/-- `GET /stats/ue/:id_ue` and `GET /stats/enb/:id_enb/ue/:id_ue`. -/
def obtainJsonStatsUe (idEnb : Option String) (idUe : String) : Call StatsManager Unit :=
  match idEnb with
  | some id => do
    let bsId ← ofApp (ofRib fun r => r.parseEnbAgentId id)
    if bsId = 0 then send .badRequest (errorObject "can not find BS")
    else
      let found ← ofApp (ofRib fun r => Stats.parseRntiImsi r bsId idUe)
      answerUe lib (found.map (·, bsId))
  | none => do
    let found ← ofApp (ofRib fun r => Stats.parseRntiImsiFindBs r idUe)
    answerUe lib found

/-- `GET /stats/conf/enb/:id?/`. -/
def getStatsReq (id : Option String) : Call StatsManager Unit :=
  textCall (Stats.getStatsRequests lib.printStatsRequests (id.getD "-1"))

/-- `POST /stats/conf/enb/:id?/`. -/
def setStatsReq (id : Option String) (body : String) : Call StatsManager Unit :=
  let bs := id.getD "-1"
  if body.length = 0 then refuseEmpty "\n"
  else reasonCall (Stats.setStatsRequests lib.statsRequests bs body "") "\n"

/-! ## The NetStore -/

/-- The messages of the loader are those of the controller. -/
def ofLoader (f : Rib → NetstoreLoader → Except Abort NetstoreLoader) : Op NetstoreLoader Unit := do
  let w ← get
  let s ← lift id (f w.rib w.app)
  set { w with app := s, effects := w.effects ++ s.effects.drop w.app.effects.length }

/-- `GET /netstore/app/:id`. -/
def appDlTrigger (canInit : Bool) (id : String) : Call NetstoreLoader Unit := do
  ofApp (ofLoader fun _ s => .ok (s.triggerAppRequest canInit id))
  send .ok ("requested '" ++ id ++ "'\n")

/-- `DELETE /netstore/app/:id`. -/
def appRmTrigger (id : String) : Call NetstoreLoader Unit := do
  ofApp (ofLoader fun r s => .ok (s.triggerAppStop r id))
  send .ok ("requested removal of app '" ++ id ++ "'\n")

/-- `POST /netstore/app/:id`. -/
def appConfTrigger (id body : String) : Call NetstoreLoader Unit := do
  let result ← attempt (ofLoader fun r s =>
    s.triggerAppReconfig lib.agentReconfiguration r id body)
  answerAttempt ("requested reconfiguration of app '" ++ id ++ "'\n") result

/-! ## The recorder -/

namespace RecorderCalls

/-- `recorder::start_meas`, with its result and the id it sets.  Memory that can not be reserved is
an exception, which leaves an empty dump behind. -/
def requestJob (now : Int64) (duration : UInt32) (type : String) (reserves : Bool) :
    Op Log.Archive (Bool × String) := do
  let w ← get
  let req := w.app.measRequest duration type reserves
  let (id, recorder) ← lift .fault (Log.startMeas w.rib now req w.app.recorder)
  set { w with
    app := { w.app with recorder := recorder, files := w.app.touched duration type } }
  throwIf (id = none ∧ req.Passes) (.fault .badAlloc)
  return (id.isSome, id.getD "")

/-- `POST /record/:type?/:duration?`. -/
def startMeas (now : Int64) (type : Option String) (duration : Option UInt32) (reserves : Bool) :
    Call Log.Archive Unit := do
  let result ← ofApp (requestJob now (duration.getD 1000) (type.getD "all") reserves)
  if result.1 then send .ok ("\x7b\"id\":" ++ result.2 ++ "\x7d")
  else send .conflict "\x7b\"error\":\"Can not handle request at the moment\"\x7d"

/-- A `std::string` of bytes: each is the character of its number. -/
def bytesText (bytes : List UInt8) : String := String.ofList (bytes.map Char.ofUInt8)

/-- `GET /record/:id`. -/
def obtainJsonStats (id : String) : Call Log.Archive Unit := do
  let download ← ofApp (do return (← get).app.obtainJsonStats id)
  match download with
  | .content bytes => send .ok (bytesText bytes)
  | .refused error => send .badRequest error

end RecorderCalls

/-! ## The list of the calls -/

/-- The methods of a path. -/
def ApiPath.text (path : ApiPath) : String :=
  "\"" ++ path.value ++ "\":\x7b" ++
    joinComma (path.routes.map fun (method, description) =>
      "\"" ++ method ++ "\":" ++ ("\x7b\"description\":\"" ++ description ++ "\"\x7d")) ++
    "\x7d"

/-- `GET /capabilities`. -/
def listApi : Call α Unit :=
  let desc := lib.description
  send .ok ("\x7b\"info\":\x7b\"title\":\"" ++ desc.title ++ "\",\"version\":\"" ++
    desc.version ++ "\"\x7d,\"paths\":\x7b" ++ joinComma (desc.paths.map ApiPath.text) ++
    "\x7d\x7d\n")

/-! ## The exporter -/

/-- `std::put_time` with the format `%F %T`. -/
def putDateTime (tm : Tm) : String :=
  toString (tm.year + 1900) ++ "-" ++ padded 2 (tm.mon + 1) ++ "-" ++ padded 2 tm.mday ++ " " ++
    padded 2 tm.hour ++ ":" ++ padded 2 tm.min ++ ":" ++ padded 2 tm.sec

/-- The state of the exporter as a JSON object. -/
def statusText (s : ElasticSearch) : String :=
  "\x7b\"active\":" ++ (if s.isActive then "true" else "false") ++
    (if s.isActive then
      ",\"activeSince\":\"" ++
        putDateTime (lib.localtime (s.activeSince.toInt.tdiv 1000000000)) ++ "\""
    else "") ++
    ",\"sentPackets\":" ++ toString s.sentPackets ++
    ",\"endpoint\":[" ++ joinComma (s.endpoints.map fun ep => "\"" ++ ep ++ "\"") ++
    "],\"intervalStats\":" ++ toString s.freqStats ++
    ",\"intervalConfig\":" ++ toString s.freqConfig ++
    ",\"batchStatsMaxSize\":" ++ toString s.batchStats.maxNo ++
    ",\"batchConfigMaxSize\":" ++ toString s.batchConfig.maxNo ++ "\x7d"

/-- `GET /elasticmon/`. -/
def status : Call ElasticSearch Unit := do
  let s ← ofApp (do return (← get).app)
  send .ok (statusText lib s)

/-- `POST /elasticmon/endpoint/:ep`. -/
def addEndpoint (ep : String) : Call ElasticSearch Unit :=
  settingCall (ElasticSearch.addEndpoint ep) "illegal endpoint or already present"

/-- `DELETE /elasticmon/endpoint/:ep`; the transfers that are waited for come to their ends. -/
def removeEndpoint (waited : List (Log.Transfer × ℕ)) (ep : String) : Call ElasticSearch Unit :=
  settingCall (ElasticSearch.removeEndpoint waited ep) "is the endpoint present?"

/-- `POST /elasticmon/interval/stats/:itvl`. -/
def setFreqStats (freq : ℤ) : Call ElasticSearch Unit :=
  settingCall (ElasticSearch.setFreqStats freq) "Is the interval in the range 0<=dt<=1000?"

/-- `POST /elasticmon/interval/config/:itvl`. -/
def setFreqConfig (freq : ℤ) : Call ElasticSearch Unit :=
  settingCall (ElasticSearch.setFreqConfig freq) "Is the interval in the range 0<=dt?"

/-- `POST /elasticmon/batch/stats/:size`. -/
def setBatchStatsSize (size : ℤ) : Call ElasticSearch Unit :=
  settingCall (ElasticSearch.setBatchStatsMaxSize size)
    "Is the batch size in the range 1<=size<=1000?"

/-- `POST /elasticmon/batch/config/:size`. -/
def setBatchConfigSize (size : ℤ) : Call ElasticSearch Unit :=
  settingCall (ElasticSearch.setBatchConfigMaxSize size)
    "Is the batch size in the range 1<=size<=1000?"

/-- `POST /elasticmon/enable`. -/
def enable (now : Int64) : Call ElasticSearch Unit :=
  settingCall (ElasticSearch.enableLogging now) "could not enable logging"

/-- `POST /elasticmon/disable`, which can not be refused. -/
def disable (waited : List (Log.Transfer × ℕ)) : Call ElasticSearch Unit :=
  settingCall (fun s => (true, s.disableLogging waited)) "could not disable logging"

end FlexRan.North
