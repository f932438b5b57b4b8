import FlexRan.App.Component

/-!
# The statistics manager

The manager keeps, for each base station, the list of statistics reports its agents are asked
for; the position in the list is the transaction id of the request.  A new base station is asked
for a default report.  The northbound interface replaces the list: all old requests are turned
off, then the new ones are sent and stored.

## Main definitions

* `bsAdd`, `bsRemove`: the subscribers of the events of the RIB updater.
* `setStatsRequests`: the request of the northbound interface.
* `StatsEvent`, `statsStep`: runs of the RIB updater, the manager and requests to it.
-/
namespace FlexRan.App.Stats

open Lib Lib.Operation Protocol Rib Rib.Rib

structure StatsManager where
  bsList : Std.ExtTreeMap UInt64 FlexCompleteStatsRequestRepeated := ∅

/-! ## Messages -/

def defaultStatsRequest : FlexCompleteStatsRequestRepeated where
  reports :=
    [{ reportFrequency := some .periodical
       sf := some 100
       cellReports := [.noiseInterference]
       ueReports := [.phr, .dlCqi, .bsr, .rlcBs, .macCeBs, .ulCqi, .rrcMeasurements, .pdcpStats,
         .macStats, .gtpStats, .s1apStats] }]

/-- What an agent is asked for a report: the lists of reports are turned into flags. -/
def completeStatsRequest (req : FlexCompleteStatsRequest) : FlexCompleteStatsRequest where
  reportFrequency := some (req.reportFrequency.getD .once)
  sf := some (req.sf.getD 0)
  cellReportFlags := some (req.cellReports.foldl (fun flags f => flags ||| f.number) 0)
  ueReportFlags := some (req.ueReports.foldl (fun flags f => flags ||| f.number) 0)

def offRequest : FlexCompleteStatsRequest := { reportFrequency := some .off }

def statsRequestMsg (xid : UInt32) (req : FlexCompleteStatsRequest) : FlexranMessage where
  msgDir := some .initiatingMessage
  msg := .statsRequest
    { header := some { type := some flptStatsRequest, version := some 0, xid := some xid }
      type := some .completeStats
      completeStatsRequest := some req }

def pushCompleteStatsRequest (bsId : UInt64) (xid : UInt32) (req : FlexCompleteStatsRequest) :
    Op StatsManager Unit :=
  sendMessage bsId (statsRequestMsg xid (completeStatsRequest req))

def removeCompleteStatsRequest (bsId : UInt64) (xid : UInt32) : Op StatsManager Unit :=
  sendMessage bsId (statsRequestMsg xid offRequest)

/-! ## Subscribers -/

/-- Change the stored lists. -/
def modifyBsList (f : Std.ExtTreeMap UInt64 FlexCompleteStatsRequestRepeated →
    Std.ExtTreeMap UInt64 FlexCompleteStatsRequestRepeated) : Op StatsManager Unit :=
  modify fun w => { w with app := { bsList := f w.app.bsList } }

def bsAdd (bsId : UInt64) : Op StatsManager Unit := do
  forM defaultStatsRequest.reports fun r => pushCompleteStatsRequest bsId 0 r
  modifyBsList fun bsList => bsList.insertIfNew bsId defaultStatsRequest

def bsRemove (bsId : UInt64) : Op StatsManager Unit :=
  modifyBsList fun bsList => bsList.erase bsId

/-- The events the manager has subscribed to. -/
def subscribers : Effect → Op StatsManager Unit
  | .bsAdd bsId => bsAdd bsId
  | .bsRemove bsId => bsRemove bsId
  | _ => pure ()

/-! ## Requests of the northbound interface -/

/-- The parser of JSON requests. The size of a repeated field is an `int`. -/
structure Parser where
  parse : String → Option FlexCompleteStatsRequestRepeated
  size_lt : ∀ s proto, parse s = some proto → proto.reports.length < 2 ^ 31

/-- Turn all old requests off and forget them. -/
def removeOldRequests (bsId : UInt64) : Op StatsManager Unit := do
  let w ← get
  match w.app.bsList[bsId]? with
  | none => pure ()
  | some reqs =>
    forM (List.range reqs.reports.length) fun xid =>
      removeCompleteStatsRequest bsId (UInt32.ofNat xid)
    modifyBsList fun bsList => bsList.insert bsId { reqs with reports := [] }

/-- Send a new request and store it; the iterator may be past the end. -/
def sendNewRequest (bsId : UInt64) (r : FlexCompleteStatsRequest × ℕ) : Op StatsManager Unit := do
  pushCompleteStatsRequest bsId (UInt32.ofNat r.2) r.1
  let w ← get
  match w.app.bsList[bsId]? with
  | none => throw (.fault .endDereference)
  | some reqs =>
    modifyBsList fun bsList => bsList.insert bsId { reqs with reports := reqs.reports ++ [r.1] }

/-- Whether the request was accepted, and the reason left in `errorReason`. -/
def setStatsRequests (parser : Parser) (bs policy errorReason : String) :
    Op StatsManager (Bool × String) := do
  let bsId ← ofRib fun rib => rib.parseEnbAgentId bs
  if bsId = 0 then return (false, "can not find BS")
  else match parser.parse policy with
    | none => return (false, "ProtoBuf parser error")
    | some proto =>
      removeOldRequests bsId
      forM proto.reports.zipIdx (sendNewRequest bsId)
      return (true, errorReason)

/-- The answer with its text, or the reason of the refusal. -/
def getStatsRequests (print : FlexCompleteStatsRequestRepeated → Option String) (bs : String) :
    Op StatsManager (Bool × String) := do
  let bsId ← ofRib fun rib => rib.parseEnbAgentId bs
  let w ← get
  match w.app.bsList[bsId]? with
  | none => return (false, "can not find BS")
  | some reqs => match print reqs with
    | none => return (false, "ProtoBuf parser error")
    | some resp => return (true, resp)

/-! ## Runs -/

/-- A hello or disconnect message, a statistics reply, or a request of the northbound
interface. -/
inductive StatsEvent
  | agent (e : RibEvent)
  | statsReply (agentId : ℤ) (m : FlexStatsReply)
  | setStatsRequests (bs policy : String)

/-- An event is handled as a whole. -/
def handleStatsEvent (parser : Parser) : StatsEvent → Op StatsManager Unit
  | .agent e => handle subscribers fun r => handleEvent r e
  | .statsReply agentId m => handle subscribers fun r => handleStatsReply r agentId m
  | .setStatsRequests bs policy => do
    let _ ← setStatsRequests parser bs policy ""

def statsStep (parser : Parser) (w : World StatsManager) (e : StatsEvent) :
    Except Fault (World StatsManager) :=
  settle (handleStatsEvent parser e) w

/-- The controller at its start. -/
def initial : World StatsManager := { app := {} }

/-! ## Specifications of the operations -/

variable {α : Type} {w : World StatsManager} {bsId : UInt64}

/-- A loop that sends messages to one base station. -/
theorem exec_forM_sendMessage {ι : Type} (bsId : UInt64) (msg : ι → FlexranMessage) (l : List ι)
    (w : World α) :
    exec (forM l fun i => sendMessage bsId (msg i)) w =
      (.ok (),
        { w with effects := w.effects ++ l.flatMap fun i => sendToBs w.rib bsId (msg i) }) := by
  induction l generalizing w with
  | nil => simp
  | cons i l ih =>
    have hi : exec (sendMessage bsId (msg i)) w =
        (.ok (), { w with effects := w.effects ++ sendToBs w.rib bsId (msg i) }) :=
      exec_sendMessage bsId (msg i) w
    rw [exec_forM_cons (f := fun i => sendMessage bsId (msg i)) hi, ih, List.flatMap_cons,
      List.append_assoc]

/-- The requests for the reports of a list. -/
def requestEffects (r : Rib) (bsId : UInt64) (reports : List FlexCompleteStatsRequest) :
    List Effect :=
  reports.zipIdx.flatMap fun e =>
    sendToBs r bsId (statsRequestMsg (UInt32.ofNat e.2) (completeStatsRequest e.1))

/-- The requests that turn `n` reports off. -/
def offEffects (r : Rib) (bsId : UInt64) (n : ℕ) : List Effect :=
  (List.range n).flatMap fun xid => sendToBs r bsId (statsRequestMsg (UInt32.ofNat xid) offRequest)

theorem exec_bsAdd (bsId : UInt64) (w : World StatsManager) :
    exec (bsAdd bsId) w = (.ok (),
      { w with
        app := { bsList := w.app.bsList.insertIfNew bsId defaultStatsRequest }
        effects := w.effects ++ requestEffects w.rib bsId defaultStatsRequest.reports }) := by
  have hloop := exec_forM_sendMessage bsId
    (fun r => statsRequestMsg 0 (completeStatsRequest r)) defaultStatsRequest.reports w
  exact exec_bind_of_ok hloop

theorem exec_bsRemove (bsId : UInt64) (w : World StatsManager) :
    exec (bsRemove bsId) w =
      (.ok (), { w with app := { bsList := w.app.bsList.erase bsId } }) := rfl

/-- The state after an effect has been asked for and the manager has seen it. -/
def notified (w : World StatsManager) (e : Effect) : World StatsManager :=
  match e with
  | .bsAdd b =>
    { w with
      app := { bsList := w.app.bsList.insertIfNew b defaultStatsRequest }
      effects := w.effects ++ [.bsAdd b] ++ requestEffects w.rib b defaultStatsRequest.reports }
  | .bsRemove b =>
    { w with
      app := { bsList := w.app.bsList.erase b }
      effects := w.effects ++ [.bsRemove b] }
  | e => { w with effects := w.effects ++ [e] }

theorem exec_raise (e : Effect) (w : World StatsManager) :
    exec (raise subscribers e) w = (.ok (), notified w e) := by
  cases e with
  | bsAdd b =>
    rw [raise, exec_bind_of_ok (exec_modify _ w)]
    exact exec_bsAdd b _
  | bsRemove b =>
    rw [raise, exec_bind_of_ok (exec_modify _ w)]
    exact exec_bsRemove b _
  | _ => rfl

theorem exec_forM_subscribers (effects : List Effect) (w : World StatsManager) :
    exec (forM effects (raise subscribers)) w = (.ok (), effects.foldl notified w) := by
  induction effects generalizing w with
  | nil => rfl
  | cons e effects ih => rw [exec_forM_cons (exec_raise e w), ih, List.foldl_cons]

/-- Effects other than the manager's events are only recorded. -/
theorem foldl_notified {effects : List Effect} (w : World StatsManager)
    (h : ∀ b, Effect.bsAdd b ∉ effects ∧ Effect.bsRemove b ∉ effects) :
    effects.foldl notified w = { w with effects := w.effects ++ effects } := by
  induction effects generalizing w with
  | nil => simp
  | cons e effects ih =>
    have he : notified w e = { w with effects := w.effects ++ [e] } := by
      cases e with
      | bsAdd b => exact absurd (List.mem_cons_self) (h b).1
      | bsRemove b => exact absurd (List.mem_cons_self) (h b).2
      | _ => rfl
    have htail := fun b => (h b).imp (mt (List.mem_cons_of_mem e)) (mt (List.mem_cons_of_mem e))
    rw [List.foldl_cons, he, ih _ htail, List.append_assoc, List.singleton_append]

theorem exec_removeOldRequests {reqs : FlexCompleteStatsRequestRepeated}
    (h : w.app.bsList[bsId]? = some reqs) :
    exec (removeOldRequests bsId) w = (.ok (),
      { w with
        app := { bsList := w.app.bsList.insert bsId {} }
        effects := w.effects ++ offEffects w.rib bsId reqs.reports.length }) := by
  have hloop := exec_forM_sendMessage bsId
    (fun xid => statsRequestMsg (UInt32.ofNat xid) offRequest) (List.range reqs.reports.length) w
  rw [removeOldRequests, exec_bind_of_ok (exec_get w), h]
  exact exec_bind_of_ok hloop

theorem exec_sendNewRequest (r : FlexCompleteStatsRequest × ℕ)
    {reqs : FlexCompleteStatsRequestRepeated} (h : w.app.bsList[bsId]? = some reqs) :
    exec (sendNewRequest bsId r) w = (.ok (),
      { w with
        app := { bsList := w.app.bsList.insert bsId { reports := reqs.reports ++ [r.1] } }
        effects := w.effects ++
          sendToBs w.rib bsId (statsRequestMsg (UInt32.ofNat r.2) (completeStatsRequest r.1)) }) := by
  rw [sendNewRequest, pushCompleteStatsRequest, exec_bind_of_ok (exec_sendMessage _ _ w),
    exec_bind_of_ok (exec_get _)]
  dsimp only
  rw [h]
  rfl

theorem insert_insert_self {m : Std.ExtTreeMap UInt64 FlexCompleteStatsRequestRepeated}
    {a b : FlexCompleteStatsRequestRepeated} :
    (m.insert bsId a).insert bsId b = m.insert bsId b := by
  apply Std.ExtTreeMap.ext_getElem?
  intro k
  simp only [Std.ExtTreeMap.getElem?_insert]
  split <;> rfl

/-- The loop over the new requests, once the old ones are forgotten. -/
theorem exec_forM_sendNewRequest (reports old : List FlexCompleteStatsRequest) (n : ℕ)
    (w : World StatsManager) {bsList : Std.ExtTreeMap UInt64 FlexCompleteStatsRequestRepeated}
    (h : w.app = { bsList := bsList.insert bsId { reports := old } }) :
    exec (forM (reports.zipIdx n) (sendNewRequest bsId)) w = (.ok (),
      { w with
        app := { bsList := bsList.insert bsId { reports := old ++ reports } }
        effects := w.effects ++ (reports.zipIdx n).flatMap fun e =>
          sendToBs w.rib bsId (statsRequestMsg (UInt32.ofNat e.2) (completeStatsRequest e.1)) }) := by
  induction reports generalizing w n old with
  | nil => simp [← h]
  | cons r reports ih =>
    have hget : w.app.bsList[bsId]? = some { reports := old } := by
      rw [h, Std.ExtTreeMap.getElem?_insert_self]
    have hstep := exec_sendNewRequest (r, n) hget
    rw [List.zipIdx_cons, exec_forM_cons hstep]
    rw [ih (old ++ [r]) (n + 1) _ (by rw [h, insert_insert_self])]
    simp only [List.append_assoc, List.singleton_append, List.flatMap_cons]

/-- A request whose base station is listed. -/
theorem exec_setStatsRequests {parser : Parser} {bs policy : String} (errorReason : String)
    {proto reqs : FlexCompleteStatsRequestRepeated} (hbs : w.rib.parseEnbAgentId bs = .ok bsId)
    (hne : bsId ≠ 0) (hparse : parser.parse policy = some proto)
    (h : w.app.bsList[bsId]? = some reqs) :
    exec (setStatsRequests parser bs policy errorReason) w = (.ok (true, errorReason),
      { w with
        app := { bsList := w.app.bsList.insert bsId proto }
        effects := w.effects ++ (offEffects w.rib bsId reqs.reports.length ++
          requestEffects w.rib bsId proto.reports) }) := by
  have hremove := exec_removeOldRequests h
  have hsend := exec_forM_sendNewRequest proto.reports [] 0
    { w with
      app := { bsList := w.app.bsList.insert bsId {} }
      effects := w.effects ++ offEffects w.rib bsId reqs.reports.length } rfl
  rw [setStatsRequests, exec_bind_of_ok (exec_ofRib_ok hbs), if_neg hne, hparse]
  dsimp only
  rw [exec_bind_of_ok hremove, exec_bind_of_ok hsend, exec_pure, List.append_assoc]
  rfl

/-- A request that is rejected sends nothing and changes nothing. -/
theorem exec_setStatsRequests_rejected {parser : Parser} {bs policy : String}
    (errorReason : String)
    (h : ∀ b, w.rib.parseEnbAgentId bs = .ok b → b ≠ 0 → parser.parse policy = none) :
    ∃ result, exec (setStatsRequests parser bs policy errorReason) w = (result, w) ∧
      (result = .error .outOfRange ∨ ∃ reason, result = .ok (false, reason)) := by
  rw [setStatsRequests]
  cases hbs : w.rib.parseEnbAgentId bs with
  | error e =>
    obtain rfl := parseEnbAgentId_error hbs
    rw [exec_bind_of_error (exec_ofRib_error hbs)]
    exact ⟨_, rfl, .inl rfl⟩
  | ok b =>
    rw [exec_bind_of_ok (exec_ofRib_ok hbs)]
    by_cases hb : b = 0
    · rw [if_pos hb]
      exact ⟨_, rfl, .inr ⟨_, rfl⟩⟩
    · rw [if_neg hb, h b hbs hb]
      exact ⟨_, rfl, .inr ⟨_, rfl⟩⟩

end FlexRan.App.Stats
