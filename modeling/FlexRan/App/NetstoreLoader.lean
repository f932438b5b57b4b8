import FlexRan.App.ReceiveBuffer
import FlexRan.Lib.Signal
import FlexRan.Rib.Dispatch

/-!
# Downloads from the NetStore

An object is requested in two transfers: the list of all objects, and the object if it is listed.
The transfers are driven by slots of the tick signal.  All of them share one multi handle, one
receive buffer and the two connections that are closed when a transfer is done, so that requests
which overlap read and push the data of each other.  A request that is made when the one before
is through gets what it asked for.

libcurl decides when pieces of a body arrive and when a transfer is done; it says so through the
events of `curlMultiPerform`.

## Main definitions

* `transferEvent`: libcurl receives a piece of a body or finishes a transfer.
* `processList`, `processRetrieve`: the slots of the tick signal.
* `netstoreStep`: requests and ticks in any order.
* `Traced`: a push is what a request asked for.
* `Alone`: no other request is under way, and bodies fit in the buffer.
-/
namespace FlexRan.App.NetStore

open Lib Protocol Rib

structure NetRequest where
  id : String
  xid : UInt32
  type : FlexControlDelegationType
deriving DecidableEq

/-- A transfer, with the number of the request it is for and what has come of its body. -/
structure Transfer where
  handle : ℕ
  url : List UInt8
  request : ℕ
  body : List UInt8 := []
  /-- The write callback has not taken everything. -/
  aborted : Bool := false

/-- A transfer is done. -/
structure CurlMsg where
  transfer : Transfer
  code : ℤ

/-- The multi handle and the buffer its transfers write to. -/
structure Multi where
  receive : ReceiveBuffer := {}
  nextHandle : ℕ := 0
  transfers : List Transfer := []
  messages : List CurlMsg := []

inductive Phase
  | list
  | retrieve
deriving DecidableEq

/-- The function bound to a slot, with its arguments. -/
structure Slot where
  phase : Phase
  request : NetRequest
  number : ℕ

/-- One execution of `push_code` by `process_retrieve`. -/
structure Push where
  bsId : UInt64
  xid : UInt32
  objectName : String
  data : List UInt8
  type : FlexControlDelegationType

/-- The last three fields are the history: all requests, the transfers that are done and the
objects that have been pushed. -/
structure NetstoreLoader where
  multi : Multi := {}
  taskTick : Signal Slot := {}
  tickList : Option ℕ := none
  tickRetrieve : Option ℕ := none
  /-- The number of the next tick. -/
  t : ℕ := 0
  effects : List Effect := []
  requests : List NetRequest := []
  completed : List CurlMsg := []
  pushes : List Push := []

/-! ## libcurl -/

inductive TransferEvent
  | write (handle : ℕ) (p : List UInt8)
  | done (handle : ℕ) (code : ℤ)

/-- What happens during a call of `curl_multi_perform`, and whether it returns `CURLM_OK` and
`curl_easy_init` works afterwards. -/
structure Perform where
  events : List TransferEvent := []
  ok : Bool := true
  canInit : Bool := true

/-- An event of a transfer that is not in flight is none. -/
def transferEvent (m : Multi) : TransferEvent → Multi
  | .write handle p =>
    if m.transfers.any fun x => x.handle = handle ∧ x.aborted = false then
      let (taken, receive) := m.receive.callback p
      { m with
        receive := receive
        transfers := m.transfers.map fun x =>
          if x.handle = handle then
            { x with body := x.body ++ p, aborted := decide (taken ≠ p.length) }
          else x }
    else m
  | .done handle code =>
    { m with
      transfers := m.transfers.filter fun x => x.handle ≠ handle
      messages := m.messages ++
        (m.transfers.filter fun x => x.handle = handle).map fun x => ⟨x, code⟩ }

def curlMultiPerform (events : List TransferEvent) (m : Multi) : Multi :=
  events.foldl transferEvent m

/-- `send_rest_request`: libcurl sees the address as a C string. -/
def sendRestRequest (canInit : Bool) (addr : String) (number : ℕ) (m : Multi) : Multi :=
  if canInit then
    { m with
      nextHandle := m.nextHandle + 1
      transfers := m.transfers ++
        [{ handle := m.nextHandle, url := cString (bytes addr), request := number }] }
  else m

/-- The next transfer starts at the start of the buffer. -/
def Multi.resetBuffer (m : Multi) : Multi := { m with receive := { m.receive with bufpos := 0 } }

/-! ## Messages to the agents -/

/-- `push_code`; no data is a null pointer. -/
def pushCode (r : Rib) (bsId : UInt64) (xid : UInt32) (objectName : String) (data : List UInt8)
    (type : FlexControlDelegationType) : List Effect :=
  sendToBs r bsId
    { msgDir := some .initiatingMessage
      msg := .controlDelegation
        { header := some { type := some flptDelegateControl, version := some 0, xid := some xid }
          delegationType := some type
          payload := if data.isEmpty then none else some data
          name := some objectName } }

/-- `push_app_reconfiguration`. The header is made, but not put into the message. -/
def pushAppReconfiguration (r : Rib) (bsId : UInt64) (objectName action : String)
    (params : List (String × RawMessage)) : List Effect :=
  sendToBs r bsId
    { msgDir := some .initiatingMessage
      msg := .agentReconfiguration
        { systems :=
            [{ system := some "app"
               subsystems :=
                [{ name := some objectName, behavior := some action, params := params }] }] } }

/-! ## Slots of the tick signal -/

namespace NetstoreLoader

def conn (s : NetstoreLoader) : Phase → Option ℕ
  | .list => s.tickList
  | .retrieve => s.tickRetrieve

/-- Close the connection that was made last in a phase. -/
def disconnect (phase : Phase) (s : NetstoreLoader) : NetstoreLoader :=
  match s.conn phase with
  | none => s
  | some c => { s with taskTick := s.taskTick.disconnect c }

def resetBuffer (s : NetstoreLoader) : NetstoreLoader := { s with multi := s.multi.resetBuffer }

/-- The loop over the messages of the multi handle. -/
def readMessages (phase : Phase) (received : NetstoreLoader → Except Fault NetstoreLoader) :
    List CurlMsg → NetstoreLoader → Except Fault NetstoreLoader
  | [], s => .ok s
  | m :: rest, s =>
    let s := disconnect phase
      { s with multi := { s.multi with messages := rest }, completed := s.completed ++ [m] }
    if m.code ≠ 200 then .ok s.resetBuffer
    else do
      let s ← received s
      readMessages phase received rest s

/-- What the two phases have in common. -/
def process (phase : Phase) (received : NetstoreLoader → Except Fault NetstoreLoader)
    (net : Perform) (s : NetstoreLoader) : Except Fault NetstoreLoader :=
  let s := { s with multi := curlMultiPerform net.events s.multi }
  if net.ok = false then .ok (s.disconnect phase)
  else readMessages phase received s.multi.messages s

def processRetrieve (r : Rib) (net : Perform) (slot : Slot) (s : NetstoreLoader) :
    Except Fault NetstoreLoader :=
  s.process .retrieve
    (fun s =>
      let data := s.multi.receive.data
      let { id, xid, type } := slot.request
      .ok <| resetBuffer
        { s with
          effects := s.effects ++ r.getAvailableBaseStations.flatMap fun bsId =>
            pushCode r bsId xid id data type ++
              if type = .agentControlApp then pushAppReconfiguration r bsId id "start" [] else []
          pushes := s.pushes ++ r.getAvailableBaseStations.map fun bsId =>
            { bsId := bsId, xid := xid, objectName := id, data := data, type := type } })
    net

def processList (net : Perform) (slot : Slot) (s : NetstoreLoader) :
    Except Fault NetstoreLoader :=
  s.process .list
    (fun s => do
      let (found, receive) ← s.multi.receive.checkList (bytes slot.request.id)
      let s := resetBuffer { s with multi := { s.multi with receive := receive } }
      if found then
        return { s with
          multi := s.multi |> sendRestRequest net.canInit
            ("localhost:8080/retrieve/" ++ slot.request.id) slot.number
          tickRetrieve := some s.taskTick.next
          taskTick := s.taskTick.connect { slot with phase := .retrieve } }
      else return s)
    net

/-- Slots are made by `subscribe_task_tick` with start 0 and period 10 or 1. -/
def tickSlot (r : Rib) (net : ℕ → Perform) (c : ℕ) (slot : Slot) (s : NetstoreLoader) :
    Except Fault NetstoreLoader :=
  match slot.phase with
  | .list => if s.t % 10 = 0 then s.processList (net c) slot else .ok s
  | .retrieve => if s.t % 1 = 0 then s.processRetrieve r (net c) slot else .ok s

/-! ## Requests -/

/-- Ask for the list, on behalf of a request. -/
def request (canInit : Bool) (req : NetRequest) (s : NetstoreLoader) : NetstoreLoader :=
  { s with
    multi := s.multi |> sendRestRequest canInit "localhost:8080/list" s.requests.length
    tickList := some s.taskTick.next
    taskTick := s.taskTick.connect { phase := .list, request := req, number := s.requests.length }
    requests := s.requests ++ [req] }

def triggerAppRequest (canInit : Bool) (id : String) (s : NetstoreLoader) : NetstoreLoader :=
  s.request canInit { id := id, xid := 0, type := .agentControlApp }

def processControlDelReq (canInit : Bool) (msg : FlexControlDelegationRequest)
    (s : NetstoreLoader) : NetstoreLoader :=
  s.request canInit
    { id := msg.name.getD "", xid := (msg.header.bind FlexHeader.xid).getD 0
      type := msg.delegationType.getD .macDlUeScheduler }

def triggerAppStop (r : Rib) (id : String) (s : NetstoreLoader) : NetstoreLoader :=
  { s with
    effects := s.effects ++ r.getAvailableBaseStations.flatMap fun bsId =>
      pushAppReconfiguration r bsId id "stop" [] ++ pushCode r bsId 0 id [] .agentControlApp }

/-- The text is parsed before anything is sent. -/
def triggerAppReconfig (parse : String → Option FlexAgentReconfigurationSubsystem) (r : Rib)
    (id policy : String) (s : NetstoreLoader) : Except Abort NetstoreLoader :=
  match parse policy with
  | none => .error (.invalidArgument "Protobuf parser error")
  | some sub => .ok { s with
      effects := s.effects ++ r.getAvailableBaseStations.flatMap fun bsId =>
        pushAppReconfiguration r bsId id "reconfig" sub.params }

end NetstoreLoader

inductive NetstoreEvent
  | triggerAppRequest (canInit : Bool) (id : String)
  | processControlDelReq (canInit : Bool) (msg : FlexControlDelegationRequest)
  | triggerAppStop (r : Rib) (id : String)
  /-- A tick, with what libcurl does in each of the slots. -/
  | tick (r : Rib) (net : ℕ → Perform)

def netstoreStep (s : NetstoreLoader) : NetstoreEvent → Except Fault NetstoreLoader
  | .triggerAppRequest canInit id => .ok (s.triggerAppRequest canInit id)
  | .processControlDelReq canInit msg => .ok (s.processControlDelReq canInit msg)
  | .triggerAppStop r id => .ok (s.triggerAppStop r id)
  | .tick r net => do
    let s ← emit NetstoreLoader.taskTick (NetstoreLoader.tickSlot r net) s
    return { s with t := s.t + 1 }

/-! ## What is pushed -/

/-- The list of a request contained an object. -/
def Listed (completed : List CurlMsg) (number : ℕ) (id : String) : Prop :=
  ∃ m ∈ completed, m.transfer.request = number ∧
    m.transfer.url = bytes "localhost:8080/list" ∧ HasLine m.transfer.body (bytes id)

/-- Some request asked for the object, for the same delegation: its list contained the object, and
the data is the body of the object it retrieved. -/
def Traced (requests : List NetRequest) (completed : List CurlMsg) (p : Push) : Prop :=
  ∃ number, requests[number]? = some ⟨p.objectName, p.xid, p.type⟩ ∧
    Listed completed number p.objectName ∧
    ∃ m ∈ completed, m.transfer.request = number ∧
      m.transfer.url = bytes ("localhost:8080/retrieve/" ++ p.objectName) ∧
      m.transfer.body = p.data

def Undisturbed (s : NetstoreLoader) : Prop := ∀ p ∈ s.pushes, Traced s.requests s.completed p

/-- No request is under way. -/
def Idle (s : NetstoreLoader) : Prop :=
  s.multi.transfers = [] ∧ s.multi.messages = [] ∧ s.taskTick.slots = []

instance (s : NetstoreLoader) : Decidable (Idle s) := inferInstanceAs (Decidable (_ ∧ _ ∧ _))

/-- The number of bytes that libcurl offers. -/
def offered (events : List TransferEvent) : ℕ :=
  (events.map fun
    | .write _ p => p.length
    | .done _ _ => 0).sum

/-- A request is made when no other one is under way, for an id that is a C string; and what a tick
brings fits in the buffer. -/
def Alone (s : NetstoreLoader) : NetstoreEvent → Prop
  | .triggerAppRequest _ id => Idle s ∧ 0 ∉ bytes id
  | .processControlDelReq _ msg => Idle s ∧ 0 ∉ bytes (msg.name.getD "")
  | .triggerAppStop _ _ => True
  | .tick _ net => ∀ e ∈ s.taskTick.slots,
      offered (net e.1).events + s.multi.receive.bufpos + 1 ≤ bufSize

instance : ∀ s e, Decidable (Alone s e)
  | s, .triggerAppRequest _ id => inferInstanceAs (Decidable (Idle s ∧ 0 ∉ bytes id))
  | s, .processControlDelReq _ msg =>
    inferInstanceAs (Decidable (Idle s ∧ 0 ∉ bytes (msg.name.getD "")))
  | _, .triggerAppStop _ _ => inferInstanceAs (Decidable True)
  | s, .tick _ net => inferInstanceAs (Decidable (∀ e ∈ s.taskTick.slots,
      offered (net e.1).events + s.multi.receive.bufpos + 1 ≤ bufSize))

/-! ## One transfer -/

namespace Multi

variable {m : Multi} {x : Transfer} {msg : CurlMsg}

/-- The transfers that have not been reported yet. -/
def unreported (m : Multi) : List Transfer := m.transfers ++ m.messages.map CurlMsg.transfer

/-- The multi handle has at most one transfer, and the buffer holds its body. -/
inductive Single : Multi → Prop
  | none {m : Multi} (htransfers : m.transfers = []) (hmessages : m.messages = [])
      (hbufpos : m.receive.bufpos = 0) : Single m
  | inFlight {m : Multi} {x : Transfer} (htransfers : m.transfers = [x])
      (hmessages : m.messages = []) (hbody : m.receive.Holds x.body) : Single m
  | done {m : Multi} {msg : CurlMsg} (htransfers : m.transfers = [])
      (hmessages : m.messages = [msg]) (hbody : m.receive.Holds msg.transfer.body) : Single m

/-- All transfers are for one request and one address. -/
def OnlyFor (m : Multi) (number : ℕ) (url : List UInt8) : Prop :=
  ∀ x ∈ m.unreported, x.request = number ∧ x.url = url

variable {number : ℕ} {url : List UInt8} {e : TransferEvent}

theorem transferEvent_of_nil (h : m.transfers = []) (e : TransferEvent) :
    transferEvent m e = m := by
  cases e with
  | write handle p => simp [transferEvent, h]
  | done handle code =>
    simp only [transferEvent, h, List.filter_nil, List.map_nil, List.append_nil]
    rw [← h]

theorem transferEvent_write (h : m.transfers = [x]) (hlive : x.aborted = false)
    (p : List UInt8) : transferEvent m (.write x.handle p) =
      { m with
        receive := (m.receive.callback p).2
        transfers := [{ x with
          body := x.body ++ p, aborted := decide ((m.receive.callback p).1 ≠ p.length) }] } := by
  have hany : m.transfers.any fun y => y.handle = x.handle ∧ y.aborted = false := by
    simp [h, hlive]
  rw [transferEvent, if_pos hany]
  simp only [h, List.map_cons, List.map_nil, if_true]

theorem transferEvent_done (h : m.transfers = [x]) (code : ℤ) :
    transferEvent m (.done x.handle code) =
      { m with transfers := [], messages := m.messages ++ [⟨x, code⟩] } := by
  simp [transferEvent, h]

/-- Events of other transfers change nothing. -/
theorem transferEvent_of_ne (h : m.transfers = [x])
    (hother : match e with
      | .write handle _ => ¬ (x.handle = handle ∧ x.aborted = false)
      | .done handle _ => x.handle ≠ handle) : transferEvent m e = m := by
  cases e with
  | write handle p =>
    have hany : ¬ (m.transfers.any fun x => x.handle = handle ∧ x.aborted = false) := by
      simpa [h] using hother
    rw [transferEvent, if_neg hany]
  | done handle code =>
    simp only [ne_eq] at hother
    simp [transferEvent, h, hother]
    rw [← h]

/-- The next event of a transfer that is alone. -/
theorem Single.transferEvent (h : Single m) (honly : m.OnlyFor number url)
    (hfits : offered [e] + m.receive.bufpos + 1 ≤ bufSize) :
    Single (transferEvent m e) ∧ (transferEvent m e).OnlyFor number url ∧
      (transferEvent m e).receive.bufpos ≤ offered [e] + m.receive.bufpos := by
  cases h with
  | none htransfers hmessages hbufpos =>
    rw [transferEvent_of_nil htransfers]
    exact ⟨.none htransfers hmessages hbufpos, honly, by omega⟩
  | done htransfers hmessages hbody =>
    rw [transferEvent_of_nil htransfers]
    exact ⟨.done htransfers hmessages hbody, honly, by omega⟩
  | @inFlight x htransfers hmessages hbody =>
    have hx := honly x (by simp [unreported, htransfers])
    cases e with
    | write handle p =>
      by_cases hactive : x.handle = handle ∧ x.aborted = false
      · obtain ⟨rfl, hlive⟩ := hactive
        have hfits : p.length + m.receive.bufpos + 1 ≤ bufSize := by simpa [offered] using hfits
        obtain ⟨htaken, hholds⟩ := ReceiveBuffer.callback_of_fits hbody hfits
        rw [transferEvent_write htransfers hlive]
        refine ⟨.inFlight rfl hmessages hholds, ?_, ?_⟩
        · simpa [OnlyFor, unreported, hmessages] using hx
        · have hbufpos := hholds.bufpos
          rw [List.length_append, ← hbody.bufpos] at hbufpos
          simp only [hbufpos, offered, List.map_cons, List.map_nil, List.sum_cons, List.sum_nil]
          omega
      · rw [transferEvent_of_ne htransfers hactive]
        exact ⟨.inFlight htransfers hmessages hbody, honly, by omega⟩
    | done handle code =>
      by_cases hhandle : x.handle = handle
      · obtain rfl := hhandle
        rw [transferEvent_done htransfers, hmessages, List.nil_append]
        refine ⟨.done rfl rfl hbody, ?_, by dsimp only; omega⟩
        simpa [OnlyFor, unreported] using hx
      · rw [transferEvent_of_ne htransfers hhandle]
        exact ⟨.inFlight htransfers hmessages hbody, honly, by omega⟩

/-- What libcurl does with a transfer that is alone. -/
theorem Single.curlMultiPerform {events : List TransferEvent} (h : Single m)
    (honly : m.OnlyFor number url) (hfits : offered events + m.receive.bufpos + 1 ≤ bufSize) :
    Single (curlMultiPerform events m) ∧ (curlMultiPerform events m).OnlyFor number url := by
  induction events generalizing m with
  | nil => exact ⟨h, honly⟩
  | cons e events ih =>
    have hsplit : offered (e :: events) = offered [e] + offered events := by simp [offered]
    obtain ⟨hsingle, honly', hbufpos⟩ := h.transferEvent honly (e := e) (by omega)
    exact ih hsingle honly' (by omega)

/-- A transfer is begun. -/
theorem single_sendRestRequest (htransfers : m.transfers = []) (hmessages : m.messages = [])
    (hbufpos : m.receive.bufpos = 0) (canInit : Bool) {addr : String} (haddr : 0 ∉ bytes addr)
    (number : ℕ) : Single (sendRestRequest canInit addr number m) ∧
      (sendRestRequest canInit addr number m).OnlyFor number (bytes addr) := by
  rw [sendRestRequest]
  split
  · refine ⟨.inFlight (x := ⟨m.nextHandle, cString (bytes addr), number, [], false⟩) ?_ hmessages
      (ReceiveBuffer.holds_nil hbufpos), ?_⟩
    · rw [htransfers, List.nil_append]
    · simp [OnlyFor, unreported, htransfers, hmessages, cString_of_notMem haddr]
  · exact ⟨.none htransfers hmessages hbufpos, by simp [OnlyFor, unreported, htransfers, hmessages]⟩

end Multi

/-! ## Runs of requests that are alone -/

theorem Traced.mono {requests : List NetRequest} {completed : List CurlMsg} {p : Push}
    (h : Traced requests completed p) (more : List NetRequest) (done : List CurlMsg) :
    Traced (requests ++ more) (completed ++ done) p := by
  obtain ⟨number, hrequest, ⟨l, hl, hlist⟩, c, hc, hbody⟩ := h
  exact ⟨number, List.getElem?_append_left (List.getElem?_eq_some_iff.mp hrequest).1 ▸ hrequest,
    ⟨l, List.mem_append_left _ hl, hlist⟩, c, List.mem_append_left _ hc, hbody⟩

/-- The address a slot waits for. -/
def Slot.url (slot : Slot) : List UInt8 :=
  match slot.phase with
  | .list => bytes "localhost:8080/list"
  | .retrieve => bytes ("localhost:8080/retrieve/" ++ slot.request.id)

namespace NetstoreLoader

variable {s t : NetstoreLoader} {c : ℕ} {slot : Slot} {r : Rib} {net : Perform}

/-- The slot waits for the transfer of its request, and closes its own connection. -/
structure Serves (s : NetstoreLoader) (c : ℕ) (slot : Slot) : Prop where
  request : s.requests[slot.number]? = some slot.request
  cString : 0 ∉ bytes slot.request.id
  conn : s.conn slot.phase = some c
  only : s.multi.OnlyFor slot.number slot.url
  listed : slot.phase = .retrieve → Listed s.completed slot.number slot.request.id

structure Inv (s : NetstoreLoader) : Prop where
  undisturbed : Undisturbed s
  single : s.multi.Single
  slots : s.taskTick.slots = [] ∨ ∃ c slot, s.taskTick.slots = [(c, slot)] ∧ s.Serves c slot

theorem inv_initial : Inv {} :=
  ⟨(fun _ hp => nomatch hp), .none rfl rfl rfl, .inl rfl⟩

theorem zero_notMem_list : (0 : UInt8) ∉ bytes "localhost:8080/list" := by decide +kernel

theorem zero_notMem_retrieve {id : String} (h : 0 ∉ bytes id) :
    (0 : UInt8) ∉ bytes ("localhost:8080/retrieve/" ++ id) := by
  have hprefix : (0 : UInt8) ∉ bytes "localhost:8080/retrieve/" := by decide +kernel
  rw [bytes_append]
  exact fun hmem => (List.mem_append.mp hmem).elim hprefix h

theorem Inv.request (h : s.Inv) (hidle : Idle s) (canInit : Bool) {req : NetRequest}
    (hid : 0 ∉ bytes req.id) : (s.request canInit req).Inv := by
  obtain ⟨htransfers, hmessages, hslots⟩ := hidle
  have hbufpos : s.multi.receive.bufpos = 0 := by
    cases h.single with
    | none _ _ hbufpos => exact hbufpos
    | inFlight htransfers' => simp [htransfers] at htransfers'
    | done _ hmessages' => simp [hmessages] at hmessages'
  obtain ⟨hsingle, honly⟩ :=
    Multi.single_sendRestRequest htransfers hmessages hbufpos canInit zero_notMem_list
      s.requests.length
  refine ⟨fun p hp => ?_, hsingle, .inr ⟨s.taskTick.next, ⟨.list, req, s.requests.length⟩, ?_,
    ?_, hid, rfl, honly, fun h => nomatch h⟩⟩
  · have := (h.undisturbed p hp).mono [req] []
    rwa [List.append_nil] at this
  · rw [NetstoreLoader.request, Signal.connect, hslots, List.nil_append]
  · exact List.getElem?_concat_length

/-- The transfer of a request is done and its slot is closed. -/
structure Delivered (s : NetstoreLoader) (slot : Slot) (body : List UInt8) : Prop where
  undisturbed : Undisturbed s
  idle : Idle s
  holds : s.multi.receive.Holds body
  request : s.requests[slot.number]? = some slot.request
  cString : 0 ∉ bytes slot.request.id
  listed : slot.phase = .retrieve → Listed s.completed slot.number slot.request.id
  completed : ∃ m ∈ s.completed, m.transfer.request = slot.number ∧ m.transfer.url = slot.url ∧
    m.transfer.body = body

theorem disconnect_of_conn {phase : Phase} (h : s.conn phase = some c) :
    s.disconnect phase = { s with taskTick := s.taskTick.disconnect c } := by
  rw [disconnect, h]

theorem disconnect_singleton {g : Signal Slot} (h : g.slots = [(c, slot)]) :
    (g.disconnect c).slots = [] := by
  simp [Signal.disconnect, h]

/-- The buffer is free for the next transfer. -/
theorem Inv.of_idle (hundisturbed : Undisturbed s) (hidle : Idle s)
    (hbufpos : s.multi.receive.bufpos = 0) : s.Inv :=
  ⟨hundisturbed, .none hidle.1 hidle.2.1 hbufpos, .inl hidle.2.2⟩

/-- A slot does nothing, or it gives up, or its transfer is done. -/
theorem Inv.process (h : s.Inv) (hslots : s.taskTick.slots = [(c, slot)])
    (hserves : s.Serves c slot)
    (hfits : offered net.events + s.multi.receive.bufpos + 1 ≤ bufSize)
    {received : NetstoreLoader → Except Fault NetstoreLoader}
    (hreceived : ∀ s body t, s.Delivered slot body → received s = .ok t → t.Inv)
    (hstep : s.process slot.phase received net = .ok t) : t.Inv := by
  obtain ⟨hsingle, honly⟩ := h.single.curlMultiPerform hserves.only hfits
  rw [NetstoreLoader.process] at hstep
  generalize curlMultiPerform net.events s.multi = m at hsingle honly hstep
  have hconn : ({ s with multi := m } : NetstoreLoader).conn slot.phase = some c := hserves.conn
  split at hstep
  · obtain rfl := Except.ok.inj hstep
    rw [disconnect_of_conn hconn]
    exact ⟨h.undisturbed, hsingle, .inl (disconnect_singleton hslots)⟩
  · have hwaits : ({ s with multi := m } : NetstoreLoader).Serves c slot :=
      ⟨hserves.request, hserves.cString, hconn, honly, hserves.listed⟩
    have hread := hsingle
    cases hread with
    | none _ hmessages _ =>
      rw [hmessages] at hstep
      obtain rfl := Except.ok.inj hstep
      exact ⟨h.undisturbed, hsingle, .inr ⟨c, slot, hslots, hwaits⟩⟩
    | inFlight _ hmessages _ =>
      rw [hmessages] at hstep
      obtain rfl := Except.ok.inj hstep
      exact ⟨h.undisturbed, hsingle, .inr ⟨c, slot, hslots, hwaits⟩⟩
    | @done msg htransfers hmessages hbody =>
      have hconn' : ({ s with
          multi := { m with messages := [] }, completed := s.completed ++ [msg] } :
          NetstoreLoader).conn slot.phase = some c := hserves.conn
      have hundisturbed : ∀ p ∈ s.pushes, Traced s.requests (s.completed ++ [msg]) p := by
        intro p hp
        have := (h.undisturbed p hp).mono [] [msg]
        rwa [List.append_nil] at this
      rw [hmessages, readMessages, disconnect_of_conn hconn'] at hstep
      dsimp only at hstep
      split at hstep
      · obtain rfl := Except.ok.inj hstep
        exact .of_idle hundisturbed ⟨htransfers, rfl, disconnect_singleton hslots⟩ rfl
      · rw [bind_eq_ok_iff] at hstep
        obtain ⟨u, hu, hstep⟩ := hstep
        obtain rfl := Except.ok.inj hstep
        obtain ⟨hnumber, hurl⟩ := honly msg.transfer (by simp [Multi.unreported, hmessages])
        refine hreceived _ msg.transfer.body u ?_ hu
        exact {
          undisturbed := hundisturbed
          idle := ⟨htransfers, rfl, disconnect_singleton hslots⟩
          holds := hbody
          request := hserves.request
          cString := hserves.cString
          listed := fun hphase => by
            obtain ⟨l, hl, hlist⟩ := hserves.listed hphase
            exact ⟨l, List.mem_append_left _ hl, hlist⟩
          completed := ⟨msg, by simp, hnumber, hurl, rfl⟩ }

/-- The object is pushed as it was retrieved. -/
theorem Inv.processRetrieve (h : s.Inv) (hslots : s.taskTick.slots = [(c, slot)])
    (hserves : s.Serves c slot) (hphase : slot.phase = .retrieve)
    (hfits : offered net.events + s.multi.receive.bufpos + 1 ≤ bufSize)
    (hstep : s.processRetrieve r net slot = .ok t) : t.Inv := by
  rw [NetstoreLoader.processRetrieve, ← hphase] at hstep
  refine h.process hslots hserves hfits (fun s body t hdelivered ht => ?_) hstep
  obtain rfl := Except.ok.inj ht
  refine .of_idle (fun p hp => ?_) hdelivered.idle rfl
  rcases List.mem_append.mp hp with hp | hp
  · exact hdelivered.undisturbed p hp
  · obtain ⟨bsId, -, rfl⟩ := List.mem_map.mp hp
    obtain ⟨m, hm, hnumber, hurl, hbody⟩ := hdelivered.completed
    rw [Slot.url, hphase] at hurl
    refine ⟨slot.number, hdelivered.request, hdelivered.listed hphase, m, hm, hnumber, hurl, ?_⟩
    rw [hbody]
    exact (ReceiveBuffer.data_of_holds hdelivered.holds).symm

/-- The object is retrieved only if it is listed. -/
theorem Inv.processList (h : s.Inv) (hslots : s.taskTick.slots = [(c, slot)])
    (hserves : s.Serves c slot) (hphase : slot.phase = .list)
    (hfits : offered net.events + s.multi.receive.bufpos + 1 ≤ bufSize)
    (hstep : s.processList net slot = .ok t) : t.Inv := by
  rw [NetstoreLoader.processList, ← hphase] at hstep
  refine h.process hslots hserves hfits (fun s body t hdelivered ht => ?_) hstep
  obtain ⟨htransfers, hmessages, hslots⟩ := hdelivered.idle
  rw [bind_eq_ok_iff] at ht
  obtain ⟨⟨found, receive⟩, hcheck, ht⟩ := ht
  cases found with
  | false =>
    obtain rfl := Except.ok.inj ht
    exact .of_idle hdelivered.undisturbed hdelivered.idle rfl
  | true =>
    obtain rfl := Except.ok.inj ht
    obtain ⟨m, hm, hnumber, hurl, hbody⟩ := hdelivered.completed
    rw [Slot.url, hphase] at hurl
    have hline := ReceiveBuffer.hasLine_of_checkList hdelivered.holds hdelivered.cString hcheck
    obtain ⟨hsingle, honly⟩ := Multi.single_sendRestRequest
      (m := { s.multi with receive := { receive with bufpos := 0 } }) htransfers hmessages rfl
      net.canInit (zero_notMem_retrieve hdelivered.cString) slot.number
    refine ⟨hdelivered.undisturbed, hsingle, .inr ⟨s.taskTick.next,
      { slot with phase := .retrieve }, ?_, hdelivered.request, hdelivered.cString, rfl, honly,
      fun _ => ⟨m, hm, hnumber, hurl, hbody ▸ hline⟩⟩⟩
    exact congrArg (· ++ [(s.taskTick.next, { slot with phase := Phase.retrieve })]) hslots

theorem Inv.tickSlot {net : ℕ → Perform} (h : s.Inv) (hslots : s.taskTick.slots = [(c, slot)])
    (hserves : s.Serves c slot)
    (hfits : offered (net c).events + s.multi.receive.bufpos + 1 ≤ bufSize)
    (hstep : tickSlot r net c slot s = .ok t) : t.Inv := by
  rw [NetstoreLoader.tickSlot] at hstep
  cases hphase : slot.phase with
  | list =>
    simp only [hphase] at hstep
    split at hstep
    · exact h.processList hslots hserves hphase hfits hstep
    · exact Except.ok.inj hstep ▸ h
  | retrieve =>
    simp only [hphase] at hstep
    split at hstep
    · exact h.processRetrieve hslots hserves hphase hfits hstep
    · exact Except.ok.inj hstep ▸ h

/-- Neither the messages sent nor the time matter. -/
theorem Inv.frame (h : s.Inv) (effects : List Effect) (n : ℕ) :
    Inv { s with effects := effects, t := n } :=
  ⟨h.undisturbed, h.single, h.slots.imp (fun hnil => hnil) fun ⟨c, slot, hslots, hserves⟩ =>
    ⟨c, slot, hslots, hserves.request, hserves.cString, hserves.conn, hserves.only,
      hserves.listed⟩⟩

theorem Inv.step (h : s.Inv) {e : NetstoreEvent} (halone : Alone s e)
    (hstep : netstoreStep s e = .ok t) : t.Inv := by
  cases e with
  | triggerAppRequest canInit id =>
    obtain rfl := Except.ok.inj hstep
    exact h.request halone.1 canInit halone.2
  | processControlDelReq canInit msg =>
    obtain rfl := Except.ok.inj hstep
    exact h.request halone.1 canInit halone.2
  | triggerAppStop r id =>
    obtain rfl := Except.ok.inj hstep
    exact h.frame _ _
  | tick r net =>
    rw [netstoreStep, bind_eq_ok_iff] at hstep
    obtain ⟨u, hu, hstep⟩ := hstep
    obtain rfl := Except.ok.inj hstep
    refine Inv.frame ?_ _ _
    rcases h.slots with hslots | ⟨c, slot, hslots, hserves⟩
    · rw [emit_nil hslots] at hu
      exact Except.ok.inj hu ▸ h
    · rw [emit_singleton hslots] at hu
      exact h.tickSlot hslots hserves (halone (c, slot) (by simp [hslots])) hu

end NetstoreLoader

/-- As long as requests are alone, every object that is pushed is what a request asked for. -/
theorem undisturbed_of_alone {events : List NetstoreEvent} {s : NetstoreLoader}
    (h : EachStep netstoreStep {} Alone events) (hrun : run netstoreStep {} events = .ok s) :
    Undisturbed s :=
  (run_invariant_of_eachStep (fun _ _ _ hs halone hstep => hs.step halone hstep)
    NetstoreLoader.inv_initial h hrun).undisturbed

/-! ## The messages of a push -/

/-- What `push_code` sends for a push. -/
def Push.message (p : Push) : FlexControlDelegation where
  header := some { type := some flptDelegateControl, version := some 0, xid := some p.xid }
  delegationType := some p.type
  payload := if p.data.isEmpty then none else some p.data
  name := some p.objectName

/-- Each push has been sent to all agents of its base station, in a RIB of which `P` holds, and code
has been sent for pushes only. -/
structure Logged (P : Rib → Prop) (s : NetstoreLoader) : Prop where
  sent : ∀ p ∈ s.pushes, ∃ r, P r ∧ p.bsId ∈ r.eNBConfigs ∧ ∀ x a, r.MemberOf p.bsId x a →
    .sendMsg a.agentId ⟨some .initiatingMessage, .controlDelegation p.message⟩ ∈ s.effects
  pushed : ∀ id dir m, .sendMsg id ⟨dir, .controlDelegation m⟩ ∈ s.effects →
    m.payload = none ∨ ∃ p ∈ s.pushes, m = p.message

section Logged

variable {P : Rib → Prop} {s t : NetstoreLoader} {r : Rib}

theorem Logged.congr (h : Logged P s) (heffects : t.effects = s.effects)
    (hpushes : t.pushes = s.pushes) : Logged P t :=
  ⟨by rw [heffects, hpushes]; exact h.sent, by rw [heffects, hpushes]; exact h.pushed⟩

theorem logged_initial : Logged P {} :=
  ⟨fun _ hp => (nomatch hp), fun _ _ _ hm => (nomatch hm)⟩

theorem sendMsg_mem_pushCode {b : UInt64} {p : Push} {id : ℤ} {dir : Option FlexranDirection}
    {m : FlexControlDelegation} :
    .sendMsg id ⟨dir, .controlDelegation m⟩ ∈ pushCode r b p.xid p.objectName p.data p.type ↔
      ∃ x a, r.MemberOf b x a ∧ id = a.agentId ∧ dir = some .initiatingMessage ∧ m = p.message := by
  rw [pushCode, mem_sendToBs]
  constructor
  · rintro ⟨x, a, ha, heq⟩
    cases heq
    exact ⟨x, a, ha, rfl, rfl, rfl⟩
  · rintro ⟨x, a, ha, rfl, rfl, rfl⟩
    exact ⟨x, a, ha, rfl⟩

theorem notMem_pushAppReconfiguration {b : UInt64} {id : ℤ} {dir : Option FlexranDirection}
    {m : FlexControlDelegation} {objectName action : String}
    {params : List (String × RawMessage)} :
    .sendMsg id ⟨dir, .controlDelegation m⟩ ∉
      pushAppReconfiguration r b objectName action params := by
  rw [pushAppReconfiguration, mem_sendToBs]
  rintro ⟨x, a, -, heq⟩
  cases heq

theorem Logged.disconnect (h : Logged P s) (phase : Phase) : Logged P (s.disconnect phase) := by
  rw [NetstoreLoader.disconnect]
  split
  · exact h
  · exact h.congr rfl rfl

theorem Logged.readMessages {phase : Phase}
    {received : NetstoreLoader → Except Fault NetstoreLoader}
    (hreceived : ∀ s t, Logged P s → received s = .ok t → Logged P t) (messages : List CurlMsg)
    (h : Logged P s) (hstep : NetstoreLoader.readMessages phase received messages s = .ok t) :
    Logged P t := by
  induction messages generalizing s with
  | nil => exact Except.ok.inj hstep ▸ h
  | cons m messages ih =>
    rw [NetstoreLoader.readMessages] at hstep
    have hclosed := (h.congr (t := { s with
      multi := { s.multi with messages := messages }, completed := s.completed ++ [m] })
      rfl rfl).disconnect phase
    split at hstep
    · obtain rfl := Except.ok.inj hstep
      exact hclosed.congr rfl rfl
    · obtain ⟨u, hu, hstep⟩ := bind_eq_ok_iff.mp hstep
      exact ih (hreceived _ _ hclosed hu) hstep

theorem Logged.process {phase : Phase} {received : NetstoreLoader → Except Fault NetstoreLoader}
    {net : Perform} (hreceived : ∀ s t, Logged P s → received s = .ok t → Logged P t)
    (h : Logged P s) (hstep : s.process phase received net = .ok t) : Logged P t := by
  have hperformed := h.congr (t := { s with multi := curlMultiPerform net.events s.multi }) rfl rfl
  rw [NetstoreLoader.process] at hstep
  split at hstep
  · obtain rfl := Except.ok.inj hstep
    exact hperformed.disconnect phase
  · exact hperformed.readMessages hreceived _ hstep

/-- The data is pushed to all base stations. -/
theorem Logged.processRetrieve (hr : P r) {net : Perform} {slot : Slot} (h : Logged P s)
    (hstep : s.processRetrieve r net slot = .ok t) : Logged P t := by
  refine Logged.process (fun s t h ht => ?_) h hstep
  obtain rfl := Except.ok.inj ht
  refine Logged.congr (s := { s with effects := _, pushes := _ }) ⟨?_, ?_⟩ rfl rfl
  · intro p hp
    rcases List.mem_append.mp hp with hp | hp
    · obtain ⟨r', hr', hb, hsent⟩ := h.sent p hp
      exact ⟨r', hr', hb, fun x a ha => List.mem_append_left _ (hsent x a ha)⟩
    · obtain ⟨b, hb, rfl⟩ := List.mem_map.mp hp
      refine ⟨r, hr, Rib.mem_availableBaseStations.mp hb, fun x a ha => ?_⟩
      refine List.mem_append_right _ (List.mem_flatMap.mpr ⟨b, hb, List.mem_append_left _ ?_⟩)
      exact sendMsg_mem_pushCode.mpr ⟨x, a, ha, rfl, rfl, rfl⟩
  · intro id dir m hm
    rcases List.mem_append.mp hm with hm | hm
    · refine (h.pushed id dir m hm).imp_right ?_
      rintro ⟨p, hp, hmessage⟩
      exact ⟨p, List.mem_append_left _ hp, hmessage⟩
    · obtain ⟨b, hb, hm⟩ := List.mem_flatMap.mp hm
      rcases List.mem_append.mp hm with hm | hm
      · obtain ⟨-, -, -, -, -, hmessage⟩ := (sendMsg_mem_pushCode
          (p := ⟨b, slot.request.xid, slot.request.id, s.multi.receive.data, slot.request.type⟩)).mp hm
        exact .inr ⟨_, List.mem_append_right _ (List.mem_map.mpr ⟨b, hb, rfl⟩), hmessage⟩
      · split at hm
        · exact absurd hm notMem_pushAppReconfiguration
        · cases hm

theorem Logged.processList {net : Perform} {slot : Slot} (h : Logged P s)
    (hstep : s.processList net slot = .ok t) : Logged P t := by
  refine Logged.process (fun s t h ht => ?_) h hstep
  obtain ⟨⟨found, receive⟩, -, ht⟩ := bind_eq_ok_iff.mp ht
  cases found with
  | false =>
    obtain rfl := Except.ok.inj ht
    exact h.congr rfl rfl
  | true =>
    obtain rfl := Except.ok.inj ht
    exact h.congr rfl rfl

theorem Logged.tickSlot (hr : P r) {net : ℕ → Perform} {c : ℕ} {slot : Slot} (h : Logged P s)
    (hstep : NetstoreLoader.tickSlot r net c slot s = .ok t) : Logged P t := by
  rw [NetstoreLoader.tickSlot] at hstep
  cases hphase : slot.phase with
  | list =>
    simp only [hphase] at hstep
    split at hstep
    · exact h.processList hstep
    · exact Except.ok.inj hstep ▸ h
  | retrieve =>
    simp only [hphase] at hstep
    split at hstep
    · exact h.processRetrieve hr hstep
    · exact Except.ok.inj hstep ▸ h

/-- An application is stopped without data. -/
theorem Logged.triggerAppStop (h : Logged P s) (r : Rib) (id : String) :
    Logged P (s.triggerAppStop r id) where
  sent p hp := by
    obtain ⟨r', hr', hb, hsent⟩ := h.sent p hp
    exact ⟨r', hr', hb, fun x a ha => List.mem_append_left _ (hsent x a ha)⟩
  pushed agentId dir m hm := by
    rcases List.mem_append.mp hm with hm | hm
    · exact h.pushed agentId dir m hm
    · obtain ⟨b, -, hm⟩ := List.mem_flatMap.mp hm
      rcases List.mem_append.mp hm with hm | hm
      · exact absurd hm notMem_pushAppReconfiguration
      · obtain ⟨-, -, -, -, -, rfl⟩ :=
          (sendMsg_mem_pushCode (p := ⟨b, 0, id, [], .agentControlApp⟩)).mp hm
        exact .inl rfl

/-- **What is noted as pushed is what has been sent.** In every run the agents of the base stations
of a tick have been sent each push, and code has been sent for pushes only. -/
theorem logged_of_run {events : List NetstoreEvent} (hrun : run netstoreStep {} events = .ok s) :
    Logged (fun r => ∃ net, .tick r net ∈ events) s := by
  refine run_invariant_of_eachStep (G := fun _ e => e ∈ events) (fun s e t h he hstep => ?_)
    logged_initial (eachStep_of_forall (fun _ he _ => he) _) hrun
  cases e with
  | triggerAppRequest canInit id =>
    obtain rfl := Except.ok.inj hstep
    exact h.congr rfl rfl
  | processControlDelReq canInit msg =>
    obtain rfl := Except.ok.inj hstep
    exact h.congr rfl rfl
  | triggerAppStop r id =>
    obtain rfl := Except.ok.inj hstep
    exact h.triggerAppStop r id
  | tick r net =>
    obtain ⟨u, hu, hstep⟩ := bind_eq_ok_iff.mp hstep
    obtain rfl := Except.ok.inj hstep
    have hlogged := emit_invariant
      (fun c slot s t (hs : Logged _ s) hcall => hs.tickSlot ⟨net, he⟩ hcall) h hu
    exact hlogged.congr rfl rfl

end Logged

/-! ## Two requests -/

def oneBs : Rib :=
  { eNBConfigs := (∅ : Std.ExtTreeMap UInt64 EnbRibInfo).insert 1 { bsId := 1, agents := ∅ } }

/-- The list is received in the first tick, the object in the other two. -/
def oneRequest : List NetstoreEvent :=
  [.triggerAppRequest true "a",
    .tick oneBs fun _ => { events := [.write 0 (bytes "a\nb\n"), .done 0 200] },
    .tick oneBs fun _ => { events := [.write 1 [1, 2]] },
    .tick oneBs fun _ => { events := [.write 1 [3], .done 1 200] }]

/-- The list of the second request arrives while the object of the first is being retrieved. -/
def twoRequests : List NetstoreEvent :=
  [.triggerAppRequest true "a", .triggerAppRequest true "b",
    .tick oneBs fun _ => { events := [.write 0 (bytes "a\nb\n"), .done 0 200] },
    .tick oneBs fun _ => { events := [.write 1 (bytes "a\nb\n"), .done 1 200] }]

theorem undisturbed_oneRequest : ∃ s, run netstoreStep {} oneRequest = .ok s ∧
    s.pushes.map Push.data = [[1, 2, 3]] ∧ Undisturbed s := by
  have hrun : (run netstoreStep {} oneRequest).map (fun s => s.pushes.map Push.data) =
      .ok [[1, 2, 3]] := by decide +kernel
  cases hs : run netstoreStep {} oneRequest with
  | error f => exact nomatch (congrArg (Except.map _) hs).symm.trans hrun
  | ok s =>
    rw [hs] at hrun
    exact ⟨s, rfl, Except.ok.inj hrun, undisturbed_of_alone (by decide +kernel) hs⟩

/-- The list is pushed as the object. -/
theorem not_undisturbed_twoRequests :
    ∃ s, run netstoreStep {} twoRequests = .ok s ∧ ¬ Undisturbed s := by
  have hrun : (run netstoreStep {} twoRequests).map (fun s =>
      s.pushes.any fun p => s.completed.all fun m =>
        m.transfer.url ≠ bytes ("localhost:8080/retrieve/" ++ p.objectName)) =
      .ok true := by decide +kernel
  cases hs : run netstoreStep {} twoRequests with
  | error f => exact nomatch (congrArg (Except.map _) hs).symm.trans hrun
  | ok s =>
    rw [hs] at hrun
    obtain ⟨p, hp, hall⟩ := List.any_eq_true.mp (Except.ok.inj hrun)
    refine ⟨s, rfl, fun hundisturbed => ?_⟩
    obtain ⟨_, _, _, m, hm, _, hurl, _⟩ := hundisturbed p hp
    exact of_decide_eq_true (List.all_eq_true.mp hall m hm) hurl

end FlexRan.App.NetStore
