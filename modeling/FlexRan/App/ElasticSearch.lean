import FlexRan.App.Log
import FlexRan.Lib.Signal

/-!
# The exporter to Elasticsearch

While logging is enabled the exporter is subscribed to the task tick, for the statistics, the
configuration and the transfers of curl, and to the UEs that leave.  It keeps a connection of each
subscription, and counts as active while one of the first two is connected.

## Main definitions

* `ElasticSearch`: the state of the exporter, with the slots it has in the event system.
* `enableLogging`, `disableLogging`, `setFreqStats`, `setFreqConfig`, `addEndpoint`,
  `removeEndpoint`: the requests.
* `elasticStep`: one request or one tick.
-/
namespace FlexRan.App.Log

open Lib Protocol Rib

/-- The callbacks of the task tick. -/
inductive TickCallback
  | processStats
  | processConfig
  | processCurl
deriving DecidableEq

/-- What is subscribed to the task tick: a callback, its period and the tick it starts at. -/
structure TickSlot where
  callback : TickCallback
  period : ℕ
  start : ℕ

/-- A transfer of curl: the address and the data. -/
structure Transfer where
  url : String
  postFields : String
deriving DecidableEq

/-- `enabled` is the history: whether logging has been enabled and not disabled since. -/
structure ElasticSearch where
  endpoints : List String := ["localhost:9200"]
  activeSince : Int64 := 0
  sentPackets : ℤ := 0
  freqStats : ℤ := 100
  freqConfig : ℤ := 5000
  batchStats : StatsBatch := {}
  batchConfig : StatsBatch := { maxNo := 5 }
  /-- The transfers of the multi handle. -/
  transfers : List Transfer := []
  /-- The slots of the exporter in the event system. -/
  taskTick : Signal TickSlot := {}
  ueDisconnectSignal : Signal Unit := {}
  lastTick : ℕ := 0
  tickStats : Option ℕ := none
  ueDisconnectConn : Option ℕ := none
  tickConfig : Option ℕ := none
  tickCurl : Option ℕ := none
  enabled : Bool := false

namespace ElasticSearch

/-! ## Transfers -/

/-- A transfer to each endpoint. -/
def triggerSend (data : String) (s : ElasticSearch) : ElasticSearch :=
  { s with transfers := s.transfers ++ s.endpoints.map fun addr => ⟨addr ++ "/_bulk", data⟩ }

/-- The finished transfers with their response codes are counted and freed. -/
def curlReleaseHandles (done : List (Transfer × ℕ)) (s : ElasticSearch) : ElasticSearch :=
  { s with
    sentPackets := s.sentPackets + done.countP fun d => d.2 = 200
    transfers := done.foldl (fun l d => l.erase d.1) s.transfers }

/-- All transfers are finished, or curl has a problem. -/
def waitCurlEnd (done : List (Transfer × ℕ)) (s : ElasticSearch) : ElasticSearch :=
  s.curlReleaseHandles done

def initialiseBatchStats (s : ElasticSearch) : ElasticSearch :=
  { s with batchStats := { s.batchStats with currentNo := 0, data := "" } }

def initialiseBatchConfig (s : ElasticSearch) : ElasticSearch :=
  { s with batchConfig := { s.batchConfig with currentNo := 0, data := "" } }

/-! ## Subscriptions -/

def tickConnected (s : ElasticSearch) (conn : Option ℕ) : Bool := conn.any s.taskTick.connected

def isActive (s : ElasticSearch) : Bool :=
  s.tickConnected s.tickConfig || s.tickConnected s.tickStats

def disconnectTick (s : ElasticSearch) (conn : Option ℕ) : ElasticSearch :=
  { s with taskTick := s.taskTick.close conn }

def disconnectUe (s : ElasticSearch) : ElasticSearch :=
  { s with ueDisconnectSignal := s.ueDisconnectSignal.close s.ueDisconnectConn }

/-- Subscribe a callback to the task tick from the last tick on. -/
def subscribeTick (s : ElasticSearch) (callback : TickCallback) (freq : ℤ) : ElasticSearch :=
  { s with taskTick := s.taskTick.connect ⟨callback, freq.toNat, s.lastTick⟩ }

def disableLogging (waited : List (Transfer × ℕ)) (s : ElasticSearch) : ElasticSearch :=
  let s := s.disconnectTick s.tickConfig
  let s := s.disconnectTick s.tickStats
  let s := s.disconnectUe
  let s := s.disconnectTick s.tickCurl
  { s.waitCurlEnd waited with enabled := false }

def enableLogging (now : Int64) (s : ElasticSearch) : Bool × ElasticSearch :=
  if s.isActive then (false, s)
  else if s.freqConfig = 0 ∧ s.freqStats = 0 then (false, s)
  else
    let s := { s with activeSince := now, sentPackets := 0 }
    let s := s.initialiseBatchStats.initialiseBatchConfig
    let s : ElasticSearch :=
      if s.freqConfig > 0 then
        { s.subscribeTick .processConfig s.freqConfig with tickConfig := some s.taskTick.next }
      else s
    let s : ElasticSearch :=
      if s.freqStats > 0 then
        { s.subscribeTick .processStats s.freqStats with
          tickStats := some s.taskTick.next
          ueDisconnectSignal := s.ueDisconnectSignal.connect ()
          ueDisconnectConn := some s.ueDisconnectSignal.next }
      else s
    (true, { s with
      taskTick := s.taskTick.connect ⟨.processCurl, 20, 0⟩
      tickCurl := some s.taskTick.next
      enabled := true })

/-- The callback that is subscribed is that of the configuration. -/
def setFreqStats (freq : ℤ) (s : ElasticSearch) : Bool × ElasticSearch :=
  if freq < 0 ∨ freq > 1000 then (false, s)
  else
    let s := { s with freqStats := freq }
    if s.isActive then
      let s := s.disconnectTick s.tickStats
      if s.freqStats > 0 then
        (true, { s.subscribeTick .processConfig s.freqStats with
          tickStats := some s.taskTick.next })
      else (true, s)
    else (true, s)

def setFreqConfig (freq : ℤ) (s : ElasticSearch) : Bool × ElasticSearch :=
  if freq < 0 then (false, s)
  else
    let s := { s with freqConfig := freq }
    if s.isActive then
      let s := s.disconnectTick s.tickConfig
      if s.freqConfig > 0 then
        (true, { s.subscribeTick .processConfig s.freqConfig with
          tickConfig := some s.taskTick.next })
      else (true, s)
    else (true, s)

def setBatchStatsMaxSize (size : ℤ) (s : ElasticSearch) : Bool × ElasticSearch :=
  if size < 1 ∨ size > 1000 then (false, s)
  else (true, { s with batchStats := { s.batchStats with maxNo := size } })

def setBatchConfigMaxSize (size : ℤ) (s : ElasticSearch) : Bool × ElasticSearch :=
  if size < 1 ∨ size > 1000 then (false, s)
  else (true, { s with batchConfig := { s.batchConfig with maxNo := size } })

/-! ## Endpoints -/

/-- Four numbers, with dots between them. -/
def isIpAddress (host : List Char) : Bool :=
  let parts := host.splitOn '.'
  parts.length == 4 && parts.all fun part => !part.isEmpty && part.all Char.isDigit

def isHostname (host : List Char) : Bool :=
  !host.isEmpty && host.all fun c => c.isAlphanum || c == '-'

/-- A host followed by a port. -/
def isEndpoint (ep : String) : Bool :=
  match ep.toList.splitOn ':' with
  | [host, port] =>
    (isIpAddress host || isHostname host) && !port.isEmpty && port.all Char.isDigit
  | _ => false

def addEndpoint (ep : String) (s : ElasticSearch) : Bool × ElasticSearch :=
  if !isEndpoint ep then (false, s)
  else if ep ∈ s.endpoints then (false, s)
  else (true, { s with endpoints := s.endpoints ++ [ep] })

/-- Logging ends with the last endpoint. -/
def removeEndpoint (waited : List (Transfer × ℕ)) (ep : String) (s : ElasticSearch) :
    Bool × ElasticSearch :=
  if ep ∈ s.endpoints then
    let s := { s with endpoints := s.endpoints.erase ep }
    if s.endpoints.length = 0 ∧ s.isActive then (true, s.disableLogging waited) else (true, s)
  else (false, s)

/-! ## Callbacks -/

/-- The number of listed UEs of all base stations. -/
def ueCount (r : Rib) : Except Fault ℕ := do
  let counts ← r.getAvailableBaseStations.mapM fun bsId =>
    match r.getBs bsId with
    | none => .error .nullDereference
    | some bs => .ok bs.ueConfig.ueConfig.length
  return counts.sum

/-- The batch is sent off when the last UE has left. -/
def ueDisconnect (r : Rib) (s : ElasticSearch) : Except Fault ElasticSearch := do
  let count ← ueCount r
  if count = 0 then return (s.triggerSend s.batchStats.data).initialiseBatchStats else return s

/-- All slots of the signal are called. -/
def ueDisconnected (r : Rib) (s : ElasticSearch) : Except Fault ElasticSearch :=
  emit ueDisconnectSignal (fun _ _ => ueDisconnect r) s

/-- What a tick finds outside: the RIB, the time and what curl reports. -/
structure TickOutside where
  rib : Rib
  dateTime : String
  performOk : Bool
  done : List (Transfer × ℕ)
  waited : List (Transfer × ℕ)

section Callbacks

variable (dumpStats : UeMacRibInfo → String) (dumpConfigs : Rib → String)

def processStats (o : TickOutside) (s : ElasticSearch) : Except Fault ElasticSearch := do
  let (batch, full?) ← Log.processStats dumpStats o.dateTime o.rib s.batchStats
  let s' := { s with batchStats := batch }
  match full? with
  | some data => return s'.triggerSend data
  | none => return s'

def processConfig (o : TickOutside) (s : ElasticSearch) : ElasticSearch :=
  let text := formatStatisticsToJson o.dateTime (dumpConfigs o.rib) ""
  let batch : StatsBatch := { s.batchConfig with
    data := s.batchConfig.data ++ bulkCreateIndex "enb_config" text
    currentNo := s.batchConfig.currentNo + 1 }
  let s := { s with batchConfig := batch }
  if batch.currentNo ≥ batch.maxNo then (s.triggerSend batch.data).initialiseBatchConfig else s

/-- A problem of curl ends logging. -/
def processCurl (o : TickOutside) (s : ElasticSearch) : ElasticSearch :=
  let s := if o.performOk then s else s.disableLogging o.waited
  s.curlReleaseHandles o.done

/-- A slot is called at its start and after each period. -/
def callTick (o : TickOutside) (t : ℕ) (_ : ℕ) (k : TickSlot) (s : ElasticSearch) :
    Except Fault ElasticSearch :=
  if t ≥ k.start ∧ (t - k.start) % k.period = 0 then
    match k.callback with
    | .processStats => s.processStats dumpStats o
    | .processConfig => .ok (s.processConfig dumpConfigs o)
    | .processCurl => .ok (s.processCurl o)
  else .ok s

end Callbacks

end ElasticSearch

inductive ElasticEvent
  | enableLogging (now : Int64)
  | disableLogging (waited : List (Transfer × ℕ))
  | setFreqStats (freq : ℤ)
  | setFreqConfig (freq : ℤ)
  | setBatchStatsMaxSize (size : ℤ)
  | setBatchConfigMaxSize (size : ℤ)
  | addEndpoint (ep : String)
  | removeEndpoint (waited : List (Transfer × ℕ)) (ep : String)
  | ueDisconnect (rib : Rib)
  | tick (t : ℕ) (o : ElasticSearch.TickOutside)

open ElasticSearch in
def elasticStep (dumpStats : UeMacRibInfo → String) (dumpConfigs : Rib → String)
    (s : ElasticSearch) : ElasticEvent → Except Fault ElasticSearch
  | .enableLogging now => .ok (s.enableLogging now).2
  | .disableLogging waited => .ok (s.disableLogging waited)
  | .setFreqStats freq => .ok (s.setFreqStats freq).2
  | .setFreqConfig freq => .ok (s.setFreqConfig freq).2
  | .setBatchStatsMaxSize size => .ok (s.setBatchStatsMaxSize size).2
  | .setBatchConfigMaxSize size => .ok (s.setBatchConfigMaxSize size).2
  | .addEndpoint ep => .ok (s.addEndpoint ep).2
  | .removeEndpoint waited ep => .ok (s.removeEndpoint waited ep).2
  | .ueDisconnect rib => s.ueDisconnected rib
  | .tick t o => do
    let s ← emit ElasticSearch.taskTick (callTick dumpStats dumpConfigs o t) s
    return { s with lastTick := t }

/-! ## The subscriptions -/

namespace ElasticSearch

/-- The connection kept for a callback. -/
def conn (s : ElasticSearch) : TickCallback → Option ℕ
  | .processStats => s.tickStats
  | .processConfig => s.tickConfig
  | .processCurl => s.tickCurl

def period (s : ElasticSearch) : TickCallback → ℤ
  | .processStats => s.freqStats
  | .processConfig => s.freqConfig
  | .processCurl => 20

/-- While logging is enabled the two ticks are connected if their frequency is not 0; there is at
most one subscription for the transfers and one for the UEs, and none while it is disabled. -/
structure Subscribed (s : ElasticSearch) : Prop where
  stats : s.tickConnected s.tickStats = true ↔ s.enabled = true ∧ 0 < s.freqStats
  statsSlot : ∀ c k, s.tickStats = some c → (c, k) ∈ s.taskTick.slots →
    k.callback = .processStats ∧ k.period = s.freqStats
  config : s.tickConnected s.tickConfig = true ↔ s.enabled = true ∧ 0 < s.freqConfig
  configSlot : ∀ c k, s.tickConfig = some c → (c, k) ∈ s.taskTick.slots →
    k.callback = .processConfig ∧ k.period = s.freqConfig
  curl : (s.taskTick.slots.countP fun e => e.2.callback = .processCurl) ≤ 1
  ue : s.ueDisconnectSignal.slots.length ≤ 1
  off : s.enabled = false →
    (s.taskTick.slots.countP fun e => e.2.callback = .processCurl) = 0 ∧
      s.ueDisconnectSignal.slots = []

/-- The callbacks that are due have a slot with their period, whose connection is kept. -/
structure Ticks (g : Signal TickSlot) (conn : TickCallback → Option ℕ)
    (period : TickCallback → ℤ) (due : TickCallback → Prop) : Prop where
  owned : Owned TickSlot.callback g conn
  periods : ∀ e ∈ g.slots, (e.2.period : ℤ) = period e.2.callback
  live : ∀ k, (∃ e ∈ g.slots, e.2.callback = k) ↔ due k

/-- While logging is enabled the callbacks with a positive period are due. -/
structure Inv (s : ElasticSearch) : Prop where
  ticks : Ticks s.taskTick s.conn s.period fun k => s.enabled = true ∧ 0 < s.period k
  ue : Owned (fun _ => ()) s.ueDisconnectSignal fun _ => s.ueDisconnectConn
  ueOff : s.enabled = false → s.ueDisconnectSignal.slots = []
  freqStats : 0 ≤ s.freqStats
  freqConfig : 0 ≤ s.freqConfig

/-- A frequency of the statistics is set while logging is disabled, or it is off or invalid; one
of the configuration is set while logging is disabled or active, or it is off or invalid. -/
def Harmless (s : ElasticSearch) : ElasticEvent → Prop
  | .setFreqStats freq => s.enabled = true → freq ≤ 0 ∨ 1000 < freq
  | .setFreqConfig freq => s.enabled = true → s.freqStats = 0 → s.freqConfig = 0 → freq ≤ 0
  | _ => True

variable {s : ElasticSearch}

namespace Ticks

variable {g : Signal TickSlot} {conn : TickCallback → Option ℕ} {period : TickCallback → ℤ}
  {due : TickCallback → Prop}

/-- The periods of the callbacks that are not due do not matter. -/
theorem congr (h : Ticks g conn period due) {conn' : TickCallback → Option ℕ}
    {period' : TickCallback → ℤ} {due' : TickCallback → Prop} (hconn : conn' = conn)
    (hdue : ∀ k, due' k ↔ due k) (hperiod : ∀ k, due k → period' k = period k) :
    Ticks g conn' period' due' where
  owned := hconn ▸ h.owned
  periods e he := (h.periods e he).trans (hperiod _ ((h.live _).mp ⟨e, he, rfl⟩)).symm
  live k := (h.live k).trans (hdue k).symm

theorem connect (h : Ticks g conn period due) {k : TickSlot} (hnew : ¬ due k.callback)
    (hperiod : (k.period : ℤ) = period k.callback) :
    Ticks (g.connect k) (Function.update conn k.callback (some g.next)) period
      fun l => due l ∨ l = k.callback where
  owned := h.owned.connect fun e he heq => hnew ((h.live _).mp ⟨e, he, heq⟩)
  periods e he := by
    rcases Owned.mem_connect.mp he with he | rfl
    · exact h.periods e he
    · exact hperiod
  live l := by
    simp only [Owned.mem_connect, or_and_right, exists_or, exists_eq_left, h.live]
    exact or_congr_right eq_comm

theorem close (h : Ticks g conn period due) (l : TickCallback) :
    Ticks (g.close (conn l)) conn period fun k => due k ∧ k ≠ l where
  owned := h.owned.close l
  periods e he := h.periods e (h.owned.mem_close.mp he).1
  live k := by
    simp only [h.owned.mem_close]
    constructor
    · rintro ⟨e, ⟨he, hne⟩, rfl⟩
      exact ⟨(h.live _).mp ⟨e, he, rfl⟩, hne⟩
    · rintro ⟨hdue, hne⟩
      obtain ⟨e, he, rfl⟩ := (h.live k).mpr hdue
      exact ⟨e, ⟨he, hne⟩, rfl⟩

theorem slots_eq_nil (h : Ticks g conn period due) (hnone : ∀ k, ¬ due k) : g.slots = [] :=
  List.eq_nil_iff_forall_not_mem.mpr fun e he => hnone _ ((h.live _).mp ⟨e, he, rfl⟩)

end Ticks

theorem disableLogging_eq (waited : List (Transfer × ℕ)) :
    s.disableLogging waited =
      { s with
        taskTick := ((s.taskTick.close s.tickConfig).close s.tickStats).close s.tickCurl
        ueDisconnectSignal := s.ueDisconnectSignal.close s.ueDisconnectConn
        sentPackets := s.sentPackets + waited.countP fun d => d.2 = 200
        transfers := waited.foldl (fun l d => l.erase d.1) s.transfers
        enabled := false } := by
  simp only [disableLogging, disconnectTick, disconnectUe, waitCurlEnd, curlReleaseHandles]

theorem inv_initial : Inv {} where
  ticks :=
    { owned :=
        { fresh := fun k c h => by cases k <;> simp [conn] at h
          injective := fun k l c h => by cases k <;> simp [conn] at h
          kept := by simp
          nodup := by simp }
      periods := by simp
      live := by simp }
  ue := Owned.empty _
  ueOff := by simp
  freqStats := by simp
  freqConfig := by simp

namespace Inv

theorem connected_iff (h : s.Inv) (k : TickCallback) :
    s.tickConnected (s.conn k) = true ↔ s.enabled = true ∧ 0 < s.period k :=
  (h.ticks.owned.connected_iff k).trans (h.ticks.live k)

theorem isActive_iff (h : s.Inv) :
    s.isActive = true ↔ s.enabled = true ∧ (0 < s.freqStats ∨ 0 < s.freqConfig) := by
  rw [isActive, Bool.or_eq_true]
  refine (or_congr (h.connected_iff .processConfig) (h.connected_iff .processStats)).trans ?_
  rw [← and_or_left, or_comm]
  rfl

/-- What is kept, under the name of its callback. -/
theorem slot (h : s.Inv) {k : TickCallback} {c : ℕ} {slot : TickSlot} (hc : s.conn k = some c)
    (hslot : (c, slot) ∈ s.taskTick.slots) : slot.callback = k ∧ slot.period = s.period k := by
  have hk : slot.callback = k := h.ticks.owned.injective _ _ _ (h.ticks.owned.kept _ hslot) hc
  exact ⟨hk, hk ▸ h.ticks.periods _ hslot⟩

theorem subscribed (h : s.Inv) : s.Subscribed where
  stats := h.connected_iff .processStats
  statsSlot _ _ hc hslot := h.slot (k := .processStats) hc hslot
  config := h.connected_iff .processConfig
  configSlot _ _ hc hslot := h.slot (k := .processConfig) hc hslot
  curl := h.ticks.owned.countP_le_one .processCurl
  ue := by
    have hone := h.ue.countP_le_one ()
    rwa [List.countP_eq_length.mpr (by simp)] at hone
  off hoff := by
    have hnil : s.taskTick.slots = [] := h.ticks.slots_eq_nil fun k hk => by simp [hoff] at hk
    exact ⟨by rw [hnil]; rfl, h.ueOff hoff⟩

/-- What does not concern the subscriptions. -/
theorem congr (h : s.Inv) {t : ElasticSearch} (htick : t.taskTick = s.taskTick)
    (hsignal : t.ueDisconnectSignal = s.ueDisconnectSignal) (hconn : t.conn = s.conn)
    (hue : t.ueDisconnectConn = s.ueDisconnectConn) (hperiod : t.period = s.period)
    (henabled : t.enabled = s.enabled) : t.Inv where
  ticks := by
    rw [htick, hconn, hperiod, henabled]
    exact h.ticks
  ue := by
    rw [hsignal, hue]
    exact h.ue
  ueOff := by
    rw [hsignal, henabled]
    exact h.ueOff
  freqStats := by
    rw [show t.freqStats = s.freqStats from congrFun hperiod .processStats]
    exact h.freqStats
  freqConfig := by
    rw [show t.freqConfig = s.freqConfig from congrFun hperiod .processConfig]
    exact h.freqConfig

theorem disableLogging (h : s.Inv) (waited : List (Transfer × ℕ)) :
    (s.disableLogging waited).Inv := by
  rw [disableLogging_eq]
  refine ⟨?_, h.ue.close (), fun _ => ?_, h.freqStats, h.freqConfig⟩
  · have hclosed := ((h.ticks.close .processConfig).close .processStats).close .processCurl
    refine hclosed.congr (funext fun k => by cases k <;> rfl) (fun k => ?_) fun k _ => ?_
    · cases k <;> simp
    · cases k <;> rfl
  · exact List.eq_nil_iff_forall_not_mem.mpr fun e he => (h.ue.mem_close (i := ()).mp he).2 rfl

theorem enabled_eq_false (h : s.Inv) (hactive : ¬ s.isActive = true)
    (hfreq : 0 < s.freqStats ∨ 0 < s.freqConfig) : s.enabled = false := by
  rw [h.isActive_iff, not_and] at hactive
  exact Bool.eq_false_iff.mpr fun henabled => hactive henabled hfreq

/-- Without logging nothing is due, whatever the periods are. -/
theorem ticks_of_off (h : s.Inv) (hoff : s.enabled = false) (period : TickCallback → ℤ) :
    Ticks s.taskTick s.conn period fun _ => False :=
  h.ticks.congr rfl (fun k => by simp [hoff]) fun k hk => by simp [hoff] at hk

theorem enableLogging (h : s.Inv) (now : Int64) : (s.enableLogging now).2.Inv := by
  rw [ElasticSearch.enableLogging]
  by_cases hactive : s.isActive = true
  · rw [if_pos hactive]
    exact h
  by_cases hzero : s.freqConfig = 0 ∧ s.freqStats = 0
  · rw [if_neg hactive, if_pos hzero]
    exact h
  rw [if_neg hactive, if_neg hzero]
  have hstatsNonneg := h.freqStats
  have hconfigNonneg := h.freqConfig
  have hoff : s.enabled = false := h.enabled_eq_false hactive (by omega)
  have hticks := h.ticks_of_off hoff s.period
  have hue := h.ueOff hoff
  have hueConnect := h.ue.connect (k := ()) (by simp [hue])
  have hueConn : (fun _ => some s.ueDisconnectSignal.next) =
      Function.update (fun _ : Unit => s.ueDisconnectConn) () (some s.ueDisconnectSignal.next) :=
    funext fun _ => by simp
  rw [← hueConn] at hueConnect
  simp only [initialiseBatchStats, initialiseBatchConfig, subscribeTick]
  -- the callbacks are subscribed one after the other, those with the frequency 0 are left out
  by_cases hconfig : s.freqConfig > 0
  · have hone := hticks.connect (k := ⟨.processConfig, s.freqConfig.toNat, s.lastTick⟩) id
      (Int.toNat_of_nonneg hconfigNonneg)
    by_cases hstats : s.freqStats > 0
    · have htwo := hone.connect (k := ⟨.processStats, s.freqStats.toNat, s.lastTick⟩) (by simp)
        (Int.toNat_of_nonneg hstatsNonneg)
      have hthree := htwo.connect (k := ⟨.processCurl, 20, 0⟩) (by simp) rfl
      simp only [hconfig, hstats, if_true]
      refine ⟨hthree.congr (funext fun k => ?_) (fun k => ?_) fun k _ => ?_, hueConnect, nofun,
        hstatsNonneg, hconfigNonneg⟩
      · cases k <;> simp [conn]
      · cases k <;> simp [period, hconfig, hstats]
      · cases k <;> rfl
    · have htwo := hone.connect (k := ⟨.processCurl, 20, 0⟩) (by simp) rfl
      simp only [hconfig, hstats, if_true, if_false]
      refine ⟨htwo.congr (funext fun k => ?_) (fun k => ?_) fun k _ => ?_, h.ue, nofun,
        hstatsNonneg, hconfigNonneg⟩
      · cases k <;> simp [conn]
      · cases k <;> simp [period, hconfig, hstats]
      · cases k <;> rfl
  · have hstats : s.freqStats > 0 := by omega
    have hone := hticks.connect (k := ⟨.processStats, s.freqStats.toNat, s.lastTick⟩) id
      (Int.toNat_of_nonneg hstatsNonneg)
    have htwo := hone.connect (k := ⟨.processCurl, 20, 0⟩) (by simp) rfl
    simp only [hconfig, hstats, if_true, if_false]
    refine ⟨htwo.congr (funext fun k => ?_) (fun k => ?_) fun k _ => ?_, hueConnect, nofun,
      hstatsNonneg, hconfigNonneg⟩
    · cases k <;> simp [conn]
    · cases k <;> simp [period, hconfig, hstats]
    · cases k <;> rfl

/-- A frequency is only remembered while logging is disabled. -/
theorem setFreq_of_off (h : s.Inv) (hoff : s.enabled = false) {freqStats freqConfig : ℤ}
    (hstats : 0 ≤ freqStats) (hconfig : 0 ≤ freqConfig) :
    Inv { s with freqStats := freqStats, freqConfig := freqConfig } :=
  ⟨(h.ticks_of_off hoff s.period).congr rfl (fun k => by simp [hoff]) fun _ h => h.elim, h.ue,
    h.ueOff, hstats, hconfig⟩

theorem setFreqConfig (h : s.Inv) {freq : ℤ}
    (hharmless : s.enabled = true → s.freqStats = 0 → s.freqConfig = 0 → freq ≤ 0) :
    (s.setFreqConfig freq).2.Inv := by
  rw [ElasticSearch.setFreqConfig]
  by_cases hinvalid : freq < 0
  · rw [if_pos hinvalid]
    exact h
  rw [if_neg hinvalid]
  have hfreq : 0 ≤ freq := by omega
  have hactive_iff : isActive { s with freqConfig := freq } = true ↔ s.isActive = true := Iff.rfl
  by_cases hactive : s.isActive = true
  · have henabled := (h.isActive_iff.mp hactive).1
    have hclosed := h.ticks.close .processConfig
    rw [if_pos (hactive_iff.mpr hactive)]
    by_cases hpos : freq > 0
    · simp only [subscribeTick, disconnectTick, hpos, if_true]
      have hperiod : ∀ k, (s.enabled = true ∧ 0 < s.period k) ∧ k ≠ .processConfig →
          period { s with freqConfig := freq } k = s.period k := by
        intro k hk
        cases k with
        | processConfig => exact absurd rfl hk.2
        | _ => rfl
      have hconnected := (hclosed.congr rfl (fun _ => Iff.rfl) hperiod).connect
        (k := ⟨.processConfig, freq.toNat, s.lastTick⟩) (by simp) (Int.toNat_of_nonneg hfreq)
      refine ⟨hconnected.congr (funext fun k => ?_) (fun k => ?_) fun k _ => ?_, h.ue, h.ueOff,
        h.freqStats, hfreq⟩
      · cases k <;> simp [conn]
      · cases k <;> simp [period, henabled, hpos]
      · cases k <;> rfl
    · simp only [disconnectTick, hpos, if_false]
      refine ⟨hclosed.congr rfl (fun k => ?_) fun k hk => ?_, h.ue, h.ueOff, h.freqStats, hfreq⟩
      · cases k <;> simp [period, henabled, hpos]
      · cases k with
        | processConfig => exact absurd rfl hk.2
        | _ => rfl
  · rw [if_neg (mt hactive_iff.mp hactive)]
    rcases Bool.eq_false_or_eq_true s.enabled with henabled | henabled
    · -- both frequencies are off, and so is the new one
      rw [h.isActive_iff, not_and] at hactive
      have hoff := hactive henabled
      have hstats := h.freqStats
      have hconfig := h.freqConfig
      have hle := hharmless henabled (by omega) (by omega)
      have hsame : freq = s.freqConfig := by omega
      rw [hsame]
      exact h.congr rfl rfl rfl rfl rfl rfl
    · exact h.setFreq_of_off henabled h.freqStats hfreq

theorem setFreqStats (h : s.Inv) {freq : ℤ}
    (hharmless : s.enabled = true → freq ≤ 0 ∨ 1000 < freq) : (s.setFreqStats freq).2.Inv := by
  rw [ElasticSearch.setFreqStats]
  by_cases hinvalid : freq < 0 ∨ freq > 1000
  · rw [if_pos hinvalid]
    exact h
  rw [if_neg hinvalid]
  have hfreq : 0 ≤ freq := by omega
  have hactive_iff : isActive { s with freqStats := freq } = true ↔ s.isActive = true := Iff.rfl
  by_cases hactive : s.isActive = true
  · -- the statistics are switched off
    have henabled := (h.isActive_iff.mp hactive).1
    have hpos : ¬ freq > 0 := fun hpos => by
      have := hharmless henabled
      omega
    rw [if_pos (hactive_iff.mpr hactive)]
    simp only [disconnectTick, hpos, if_false]
    refine ⟨(h.ticks.close .processStats).congr rfl (fun k => ?_) fun k hk => ?_, h.ue, h.ueOff,
      hfreq, h.freqConfig⟩
    · cases k <;> simp [period, henabled, hpos]
    · cases k with
      | processStats => exact absurd rfl hk.2
      | _ => rfl
  · rw [if_neg (mt hactive_iff.mp hactive)]
    rcases Bool.eq_false_or_eq_true s.enabled with henabled | henabled
    · rw [h.isActive_iff, not_and] at hactive
      have hoff := hactive henabled
      have hstats := h.freqStats
      have hle := hharmless henabled
      have hsame : freq = s.freqStats := by omega
      rw [hsame]
      exact h.congr rfl rfl rfl rfl rfl rfl
    · exact h.setFreq_of_off henabled hfreq h.freqConfig

theorem triggerSend (h : s.Inv) (data : String) : (s.triggerSend data).Inv :=
  h.congr rfl rfl rfl rfl rfl rfl

theorem initialiseBatchStats (h : s.Inv) : s.initialiseBatchStats.Inv :=
  h.congr rfl rfl rfl rfl rfl rfl

theorem initialiseBatchConfig (h : s.Inv) : s.initialiseBatchConfig.Inv :=
  h.congr rfl rfl rfl rfl rfl rfl

theorem curlReleaseHandles (h : s.Inv) (done : List (Transfer × ℕ)) :
    (s.curlReleaseHandles done).Inv :=
  h.congr rfl rfl rfl rfl rfl rfl

theorem removeEndpoint (h : s.Inv) (waited : List (Transfer × ℕ)) (ep : String) :
    (s.removeEndpoint waited ep).2.Inv := by
  have herased : Inv { s with endpoints := s.endpoints.erase ep } :=
    h.congr rfl rfl rfl rfl rfl rfl
  rw [ElasticSearch.removeEndpoint]
  by_cases hmem : ep ∈ s.endpoints
  · rw [if_pos hmem]
    dsimp only
    split
    · exact herased.disableLogging waited
    · exact herased
  · rw [if_neg hmem]
    exact h

theorem ueDisconnect (h : s.Inv) {r : Rib} {t : ElasticSearch}
    (ht : ElasticSearch.ueDisconnect r s = .ok t) : t.Inv := by
  obtain ⟨count, -, ht⟩ := bind_eq_ok_iff.mp ht
  split at ht
  · exact Except.ok.inj ht ▸ (h.triggerSend _).initialiseBatchStats
  · exact Except.ok.inj ht ▸ h

variable {dumpStats : UeMacRibInfo → String} {dumpConfigs : Rib → String}

theorem processStats (h : s.Inv) {o : TickOutside} {t : ElasticSearch}
    (ht : s.processStats dumpStats o = .ok t) : t.Inv := by
  obtain ⟨⟨batch, full?⟩, -, ht⟩ := bind_eq_ok_iff.mp ht
  have hbatch : Inv { s with batchStats := batch } := h.congr rfl rfl rfl rfl rfl rfl
  cases full? with
  | none => exact Except.ok.inj ht ▸ hbatch
  | some data => exact Except.ok.inj ht ▸ hbatch.triggerSend data

theorem processConfig (h : s.Inv) (o : TickOutside) : (s.processConfig dumpConfigs o).Inv := by
  rw [ElasticSearch.processConfig]
  dsimp only
  split
  · exact triggerSend (h.congr rfl rfl rfl rfl rfl rfl) _ |>.initialiseBatchConfig
  · exact h.congr rfl rfl rfl rfl rfl rfl

theorem processCurl (h : s.Inv) (o : TickOutside) : (s.processCurl o).Inv := by
  rw [ElasticSearch.processCurl]
  split
  · exact h.curlReleaseHandles _
  · exact (h.disableLogging _).curlReleaseHandles _

theorem callTick (h : s.Inv) {o : TickOutside} {t c : ℕ} {k : TickSlot} {s' : ElasticSearch}
    (hs : callTick dumpStats dumpConfigs o t c k s = .ok s') : s'.Inv := by
  rw [ElasticSearch.callTick] at hs
  split at hs
  · cases hk : k.callback with
    | processStats =>
      rw [hk] at hs
      exact h.processStats hs
    | processConfig =>
      rw [hk] at hs
      exact Except.ok.inj hs ▸ h.processConfig o
    | processCurl =>
      rw [hk] at hs
      exact Except.ok.inj hs ▸ h.processCurl o
  · exact Except.ok.inj hs ▸ h

/-- A harmless step keeps the invariant. -/
theorem step (h : s.Inv) {e : ElasticEvent} (hharmless : s.Harmless e) {t : ElasticSearch}
    (ht : elasticStep dumpStats dumpConfigs s e = .ok t) : t.Inv := by
  cases e with
  | enableLogging now => exact Except.ok.inj ht ▸ h.enableLogging now
  | disableLogging waited => exact Except.ok.inj ht ▸ h.disableLogging waited
  | setFreqStats freq => exact Except.ok.inj ht ▸ h.setFreqStats hharmless
  | setFreqConfig freq => exact Except.ok.inj ht ▸ h.setFreqConfig hharmless
  | setBatchStatsMaxSize size =>
    rw [← Except.ok.inj ht, setBatchStatsMaxSize]
    split
    · exact h
    · exact h.congr rfl rfl rfl rfl rfl rfl
  | setBatchConfigMaxSize size =>
    rw [← Except.ok.inj ht, setBatchConfigMaxSize]
    split
    · exact h
    · exact h.congr rfl rfl rfl rfl rfl rfl
  | addEndpoint ep =>
    rw [← Except.ok.inj ht, addEndpoint]
    split_ifs
    · exact h
    · exact h
    · exact h.congr rfl rfl rfl rfl rfl rfl
  | removeEndpoint waited ep => exact Except.ok.inj ht ▸ h.removeEndpoint waited ep
  | ueDisconnect rib => exact emit_invariant (fun _ _ _ _ h hcall => h.ueDisconnect hcall) h ht
  | tick t' o =>
    obtain ⟨u, hu, ht⟩ := bind_eq_ok_iff.mp ht
    have hInv : u.Inv := emit_invariant (fun _ _ _ _ h hcall => h.callTick hcall) h hu
    exact Except.ok.inj ht ▸ hInv.congr rfl rfl rfl rfl rfl rfl

/-- With the frequency of the statistics the configuration is subscribed, or nothing. -/
theorem not_subscribed_setFreqStats (h : s.Inv) {freq : ℤ} (henabled : s.enabled = true)
    (hlow : 0 < freq) (hhigh : freq ≤ 1000) : ¬ (s.setFreqStats freq).2.Subscribed := by
  rw [ElasticSearch.setFreqStats, if_neg (by omega)]
  have hactive_iff : isActive { s with freqStats := freq } = true ↔ s.isActive = true := Iff.rfl
  intro hsub
  by_cases hactive : s.isActive = true
  · rw [if_pos (hactive_iff.mpr hactive)] at hsub
    simp only [subscribeTick, disconnectTick, hlow, if_true] at hsub
    have hslot := hsub.statsSlot (s.taskTick.close s.tickStats).next
      ⟨.processConfig, freq.toNat, s.lastTick⟩ rfl (Owned.mem_connect.mpr (.inr rfl))
    exact absurd hslot.1 TickCallback.noConfusion
  · rw [if_neg (mt hactive_iff.mp hactive)] at hsub
    have hstats := (h.connected_iff .processStats).mp (hsub.stats.mpr ⟨henabled, hlow⟩)
    exact hactive (h.isActive_iff.mpr ⟨henabled, .inl hstats.2⟩)

/-- A frequency of the configuration is not subscribed while both are off. -/
theorem not_subscribed_setFreqConfig (h : s.Inv) {freq : ℤ} (henabled : s.enabled = true)
    (hstats : s.freqStats = 0) (hconfig : s.freqConfig = 0) (hlow : 0 < freq) :
    ¬ (s.setFreqConfig freq).2.Subscribed := by
  have hactive : ¬ s.isActive = true := by
    rw [h.isActive_iff, not_and]
    omega
  have hactive_iff : isActive { s with freqConfig := freq } = true ↔ s.isActive = true := Iff.rfl
  rw [ElasticSearch.setFreqConfig, if_neg (by omega), if_neg (mt hactive_iff.mp hactive)]
  intro hsub
  have hpos := (h.connected_iff .processConfig).mp (hsub.config.mpr ⟨henabled, hlow⟩)
  have hzero : s.period .processConfig = 0 := hconfig
  omega

/-- A step that is not harmless breaks the subscriptions. -/
theorem not_subscribed (h : s.Inv) {e : ElasticEvent} (hnot : ¬ s.Harmless e) :
    ∃ t, elasticStep dumpStats dumpConfigs s e = .ok t ∧ ¬ t.Subscribed := by
  cases e with
  | setFreqStats freq =>
    rw [Harmless, Classical.not_imp, not_or] at hnot
    exact ⟨_, rfl, h.not_subscribed_setFreqStats hnot.1 (by omega) (by omega)⟩
  | setFreqConfig freq =>
    simp only [Harmless, Classical.not_imp] at hnot
    obtain ⟨henabled, hstats, hconfig, hlow⟩ := hnot
    exact ⟨_, rfl, h.not_subscribed_setFreqConfig henabled hstats hconfig (by omega)⟩
  | _ => exact absurd trivial hnot

end Inv

/-- In exactly the runs of harmless steps the subscriptions are those of the enabled ticks, in
every state. -/
theorem always_subscribed_iff (dumpStats : UeMacRibInfo → String) (dumpConfigs : Rib → String)
    (events : List ElasticEvent) :
    Always (elasticStep dumpStats dumpConfigs) {} Subscribed events ↔
      EachStep (elasticStep dumpStats dumpConfigs) {} Harmless events :=
  always_iff_eachStep_of_breaks inv_initial (fun _ h => h.subscribed)
    (fun _ _ _ h hharmless ht => h.step hharmless ht) (fun _ _ h hnot => h.not_subscribed hnot)
    events

/-- Logging is enabled, and the frequency of the statistics is set to 200. -/
def frequencySet : List ElasticEvent := [.enableLogging 0, .setFreqStats 200]

/-- The configuration is exported in the place of the statistics. -/
theorem not_always_subscribed_frequencySet :
    ¬ Always (elasticStep (fun _ => "") fun _ => "") {} Subscribed frequencySet := by
  intro h
  have hInv : (enableLogging 0 {}).2.Inv := inv_initial.enableLogging 0
  exact hInv.not_subscribed_setFreqStats rfl (by decide) (by decide)
    (h frequencySet _ (List.prefix_refl _) rfl)

end ElasticSearch

end FlexRan.App.Log
