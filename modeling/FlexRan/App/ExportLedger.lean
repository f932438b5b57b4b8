import FlexRan.App.ElasticSearch
import FlexRan.Lib.Outbox

/-!
# What the exporter sends

The exporter collects the texts of the statistics and of the configuration, and sends them off in
batches, one body to each endpoint.  A batch that waits while logging is switched off is thrown away
when it is switched on again, and one that is full while there is no endpoint reaches nobody.  Next
to the exporter books are kept of every text and of every transfer: a text is part of one body, or
was thrown away, or waits; the transfers that have been made are one for each batch and endpoint;
and each of them is in the queue of curl until curl reports it as finished.

## Main definitions

* `statsTexts`, `configText`: the texts of one tick.
* `Exporter`, `exporterStep`: the exporter and the books.
* `Accounted`: the data of the exporter are those of the books.
* `bodiesTo`: what has been posted to an endpoint.
-/
namespace FlexRan.App.Log.ElasticSearch

open Lib Protocol Rib

/-! ## Texts and bodies -/

def indexName : TickCallback → String
  | .processStats => "mac_stats"
  | .processConfig => "enb_config"
  | .processCurl => ""

def body (k : TickCallback) (texts : List String) : String :=
  String.join (texts.map (bulkCreateIndex (indexName k)))

/-- One transfer to each recipient. -/
def transfersOf (b : Batch TickCallback String String) : List Transfer :=
  (b.recipients.getD []).map fun addr => ⟨addr ++ "/_bulk", body b.kind b.items⟩

section Texts

variable (dumpStats : UeMacRibInfo → String) (dumpConfigs : Rib → String)

def ueTexts (dateTime : String) (bs : EnbRibInfo) : List String :=
  bs.ueConfig.ueConfig.filterMap fun ue => (bs.getUeMacInfo (EnbRibInfo.rntiOf ue)).map
    fun ueMacInfo => formatStatisticsToJson dateTime "" (dumpStats ueMacInfo)

/-- One text for each UE of each base station. -/
def statsTexts (o : TickOutside) : List String :=
  (o.rib.getAvailableBaseStations.filterMap o.rib.getBs).flatMap (ueTexts dumpStats o.dateTime)

def configText (o : TickOutside) : String :=
  formatStatisticsToJson o.dateTime (dumpConfigs o.rib) ""

end Texts

/-! ## Books -/

structure Books extends Outbox TickCallback String String where
  /-- The transfers that have been put into the queue of curl. -/
  made : List Transfer := []
  /-- The transfers that curl has reported as finished. -/
  finished : List Transfer := []

structure Exporter where
  elastic : ElasticSearch := {}
  books : Books := {}

/-- A call leaves `outbox`, and the transfers `queued` in the place of those of `x`; during the call
curl has reported some. -/
def Exporter.note (x : Exporter) (outbox : Outbox TickCallback String String)
    (queued : List Transfer) (reported : List (Transfer × ℕ)) : Books where
  toOutbox := outbox
  made := x.books.made ++ queued.drop x.elastic.transfers.length
  finished := x.books.finished ++ x.elastic.transfers.bagInter (reported.map Prod.fst)

@[simp]
theorem Exporter.toOutbox_note (x : Exporter) (outbox : Outbox TickCallback String String)
    (queued : List Transfer) (reported : List (Transfer × ℕ)) :
    (x.note outbox queued reported).toOutbox = outbox := rfl

/-- Texts are logged, and a batch that is full is sent to all endpoints. -/
def record (k : TickCallback) (texts : List String) (maxNo : ℤ) (endpoints : List String)
    (books : Outbox TickCallback String String) : Outbox TickCallback String String :=
  let books := books.deposit k texts
  if maxNo ≤ (books.pending k).length then books.close k (some endpoints) else books

section Step

variable (dumpStats : UeMacRibInfo → String) (dumpConfigs : Rib → String)

/-- What curl reports in the callback of the transfers; it waits for them if it has a problem. -/
def curlReports (o : TickOutside) : List (Transfer × ℕ) :=
  (if o.performOk then [] else o.waited) ++ o.done

def recordTick (o : TickOutside) (t : ℕ) (c : ℕ) (k : TickSlot) (x : Exporter) :
    Except Fault Exporter := do
  let s ← callTick dumpStats dumpConfigs o t c k x.elastic
  let books :=
    if t ≥ k.start ∧ (t - k.start) % k.period = 0 then
      match k.callback with
      | .processStats => x.note (record .processStats (statsTexts dumpStats o)
          x.elastic.batchStats.maxNo x.elastic.endpoints x.books.toOutbox) s.transfers []
      | .processConfig => x.note (record .processConfig [configText dumpConfigs o]
          x.elastic.batchConfig.maxNo x.elastic.endpoints x.books.toOutbox) s.transfers []
      | .processCurl => x.note x.books.toOutbox s.transfers (curlReports o)
    else x.books
  return ⟨s, books⟩

def recordDisconnect (r : Rib) (x : Exporter) : Except Fault Exporter := do
  let s ← ElasticSearch.ueDisconnect r x.elastic
  let outbox :=
    if ueCount r = .ok 0 then x.books.toOutbox.close .processStats (some x.elastic.endpoints)
    else x.books.toOutbox
  return ⟨s, x.note outbox s.transfers []⟩

/-- What waits is thrown away when logging is enabled. -/
def requestOutbox (x : Exporter) : ElasticEvent → Outbox TickCallback String String
  | .enableLogging now =>
    if (x.elastic.enableLogging now).1 then
      (x.books.toOutbox.close .processStats none).close .processConfig none
    else x.books.toOutbox
  | _ => x.books.toOutbox

/-- When logging is disabled curl finishes what it can. -/
def requestReports (s : ElasticSearch) : ElasticEvent → List (Transfer × ℕ)
  | .disableLogging waited => waited
  | .removeEndpoint waited ep =>
    if ep ∈ s.endpoints ∧ (s.endpoints.erase ep).length = 0 ∧ s.isActive then waited else []
  | _ => []

def recordRequest (x : Exporter) (s : ElasticSearch) (e : ElasticEvent) : Books :=
  x.note (requestOutbox x e) s.transfers (requestReports x.elastic e)

def exporterStep (x : Exporter) : ElasticEvent → Except Fault Exporter
  | .tick t o => do
    let x ← emit (fun x => x.elastic.taskTick) (recordTick dumpStats dumpConfigs o t) x
    return { x with elastic := { x.elastic with lastTick := t } }
  | .ueDisconnect r =>
    emit (fun x => x.elastic.ueDisconnectSignal) (fun _ _ => recordDisconnect r) x
  | e => do
    let s ← elasticStep dumpStats dumpConfigs x.elastic e
    return ⟨s, recordRequest x s e⟩

end Step

/-! ## The books do not disturb -/

section Projection

variable {dumpStats : UeMacRibInfo → String} {dumpConfigs : Rib → String}

theorem map_elastic_bind (m : Except Fault ElasticSearch) (books : ElasticSearch → Books) :
    (m >>= fun s => .ok ⟨s, books s⟩ : Except Fault Exporter).map Exporter.elastic = m := by
  cases m <;> rfl

theorem map_elastic_exporterStep (x : Exporter) (e : ElasticEvent) :
    (exporterStep dumpStats dumpConfigs x e).map Exporter.elastic =
      elasticStep dumpStats dumpConfigs x.elastic e := by
  cases e with
  | tick t o =>
    have hcall : ∀ c k y, (recordTick dumpStats dumpConfigs o t c k y).map Exporter.elastic =
        callTick dumpStats dumpConfigs o t c k y.elastic := fun c k y => map_elastic_bind _ _
    have hemit : (emit (fun x => x.elastic.taskTick) (recordTick dumpStats dumpConfigs o t) x).map
        Exporter.elastic = emit taskTick (callTick dumpStats dumpConfigs o t) x.elastic :=
      emit_map Exporter.elastic hcall x
    rw [exporterStep, elasticStep, ← hemit]
    cases emit (fun x => x.elastic.taskTick) (recordTick dumpStats dumpConfigs o t) x <;> rfl
  | ueDisconnect r =>
    exact emit_map Exporter.elastic (fun _ _ y => map_elastic_bind _ _) x
  | _ => exact map_elastic_bind _ _

end Projection

/-! ## The data of the exporter -/

/-- The data of a batch are the texts that wait. -/
structure Waits (k : TickCallback) (batch : StatsBatch)
    (books : Outbox TickCallback String String) : Prop where
  data : batch.data = body k (books.pending k)
  currentNo : batch.currentNo = (books.pending k).length

def batchOf (s : ElasticSearch) : TickCallback → StatsBatch
  | .processStats => s.batchStats
  | .processConfig => s.batchConfig
  | .processCurl => {}

/-- Every text is in one batch or waits.  The transfers that have been made are those of the
batches, and each of them is finished or in the queue. -/
structure Exporter.Accounted (x : Exporter) : Prop where
  balanced : x.books.Balanced
  waits : ∀ k, Waits k (x.elastic.batchOf k) x.books.toOutbox
  made : x.books.made = x.books.closed.flatMap transfersOf
  queued : (x.elastic.transfers ++ x.books.finished).Perm x.books.made
  endpoints : x.elastic.endpoints.Nodup
  recipients : ∀ b ∈ x.books.closed, ∀ eps, b.recipients = some eps → eps.Nodup

theorem body_append (k : TickCallback) (texts more : List String) :
    body k (texts ++ more) = body k texts ++ body k more := by
  simp [body, String.join_append]

theorem body_singleton (k : TickCallback) (text : String) :
    body k [text] = bulkCreateIndex (indexName k) text := by
  simp [body]

section Texts

variable {dumpStats : UeMacRibInfo → String} {dateTime : String} {bs : EnbRibInfo} {r : Rib}

theorem foldlM_processUe (ues : List FlexUeConfig) {data data' : String}
    (h : ues.foldlM (processUe dumpStats dateTime bs) data = .ok data') :
    ∃ texts, texts.length = ues.length ∧ data' = data ++ body .processStats texts ∧
      texts = ues.filterMap fun ue => (bs.getUeMacInfo (EnbRibInfo.rntiOf ue)).map
        fun ueMacInfo => formatStatisticsToJson dateTime "" (dumpStats ueMacInfo) := by
  induction ues generalizing data with
  | nil =>
    cases h
    exact ⟨[], rfl, by simp [body], rfl⟩
  | cons ue ues ih =>
    rw [List.foldlM_cons, processUe] at h
    cases hue : bs.getUeMacInfo (EnbRibInfo.rntiOf ue) with
    | none =>
      rw [hue] at h
      cases h
    | some ueMacInfo =>
      rw [hue] at h
      obtain ⟨texts, hlength, hdata, htexts⟩ := ih h
      refine ⟨formatStatisticsToJson dateTime "" (dumpStats ueMacInfo) :: texts, by simp [hlength],
        ?_, by simp [hue, htexts]⟩
      rw [hdata, ← List.singleton_append, body_append, body_singleton, indexName,
        String.append_assoc]

theorem foldlM_processBs (bss : List UInt64) {acc acc' : ℤ × String}
    (h : bss.foldlM (processBs dumpStats dateTime r) acc = .ok acc') :
    let texts := (bss.filterMap r.getBs).flatMap (ueTexts dumpStats dateTime)
    acc'.1 = acc.1 + texts.length ∧ acc'.2 = acc.2 ++ body .processStats texts := by
  induction bss generalizing acc with
  | nil =>
    cases h
    simp [body]
  | cons b bss ih =>
    rw [List.foldlM_cons, processBs] at h
    cases hbs : r.getBs b with
    | none =>
      rw [hbs] at h
      cases h
    | some bs =>
      rw [hbs] at h
      obtain ⟨mid, hmid, h⟩ := bind_eq_ok_iff.mp h
      obtain ⟨data, hdata, hmid⟩ := bind_eq_ok_iff.mp hmid
      cases hmid
      obtain ⟨texts, hlength, rfl, htexts⟩ := foldlM_processUe _ hdata
      have hues : ueTexts dumpStats dateTime bs = texts := htexts.symm
      obtain ⟨hcount, hrest⟩ := ih h
      simp only [List.filterMap_cons, hbs, List.flatMap_cons, hues, List.length_append, body_append]
      constructor
      · rw [hcount, ← hlength]
        push_cast
        ring
      · rw [hrest, String.append_assoc]

/-- The texts of a tick are appended to the batch, which is sent off if it is full. -/
theorem processStats_eq {o : TickOutside} {batch : StatsBatch} {result : StatsBatch × Option String}
    (h : Log.processStats dumpStats o.dateTime o.rib batch = .ok result) :
    let texts := statsTexts dumpStats o
    let data := batch.data ++ body .processStats texts
    result = if batch.currentNo + texts.length ≥ batch.maxNo
      then ({ batch with currentNo := 0, data := "" }, some data)
      else ({ batch with currentNo := batch.currentNo + texts.length, data := data }, none) := by
  rw [Log.processStats] at h
  obtain ⟨acc, hacc, h⟩ := bind_eq_ok_iff.mp h
  obtain ⟨hcount, hdata⟩ := foldlM_processBs _ hacc
  rw [zero_add] at hcount
  dsimp only [statsTexts]
  rw [← hcount, ← hdata]
  dsimp only at h
  split at h
  · rename_i hfull
    rw [if_pos hfull]
    exact (Except.ok.inj h).symm
  · rename_i hfull
    rw [if_neg hfull]
    exact (Except.ok.inj h).symm

end Texts

/-! ## Steps -/

/-- What curl reports leaves the queue and is noted. -/
theorem diff_append_perm {queue finished made : List Transfer} (h : (queue ++ finished).Perm made)
    (reported : List Transfer) :
    (queue.diff reported ++ (finished ++ queue.bagInter reported)).Perm made := by
  have hsplit : (queue.diff reported ++ queue.bagInter reported).Perm queue := by
    rw [← Multiset.coe_eq_coe, ← Multiset.coe_add, ← Multiset.coe_sub, ← Multiset.coe_inter]
    exact Multiset.sub_add_inter _ _
  have hcomm : (finished ++ queue.bagInter reported).Perm (queue.bagInter reported ++ finished) :=
    List.perm_append_comm
  have hswap := hcomm.append_left (queue.diff reported)
  rw [← List.append_assoc _ (queue.bagInter reported)] at hswap
  exact hswap.trans ((hsplit.append_right finished).trans h)

namespace Exporter.Accounted

variable {x : Exporter} {s : ElasticSearch}

theorem initial : Accounted {} where
  balanced := Outbox.balanced_empty
  waits k := by cases k <;> exact ⟨rfl, rfl⟩
  made := rfl
  queued := List.Perm.refl _
  endpoints := by decide
  recipients _ hb := by cases hb

/-- Batches are as before, and transfers have only been finished. -/
theorem frame (h : x.Accounted) (hbatch : ∀ k, (s.batchOf k).data = (x.elastic.batchOf k).data ∧
      (s.batchOf k).currentNo = (x.elastic.batchOf k).currentNo) {reported : List (Transfer × ℕ)}
    (htransfers : s.transfers = x.elastic.transfers.diff (reported.map Prod.fst))
    (hendpoints : s.endpoints.Nodup) :
    Accounted ⟨s, x.note x.books.toOutbox s.transfers reported⟩ where
  balanced := h.balanced
  waits k := ⟨(hbatch k).1.trans (h.waits k).data, (hbatch k).2.trans (h.waits k).currentNo⟩
  made := by
    have hlength : s.transfers.length ≤ x.elastic.transfers.length := by
      rw [htransfers]
      exact (List.diff_sublist _ _).length_le
    rw [note, List.drop_eq_nil_of_le hlength, List.append_nil]
    exact h.made
  queued := by
    have hlength : s.transfers.length ≤ x.elastic.transfers.length := by
      rw [htransfers]
      exact (List.diff_sublist _ _).length_le
    rw [note, List.drop_eq_nil_of_le hlength, List.append_nil, htransfers]
    exact diff_append_perm h.queued _
  endpoints := hendpoints
  recipients := h.recipients

/-- Texts are added to a batch. -/
theorem collect (h : x.Accounted) {k : TickCallback} {texts : List String}
    (hdata : (s.batchOf k).data = (x.elastic.batchOf k).data ++ body k texts)
    (hcurrentNo : (s.batchOf k).currentNo = (x.elastic.batchOf k).currentNo + texts.length)
    (hother : ∀ l, l ≠ k → s.batchOf l = x.elastic.batchOf l)
    (htransfers : s.transfers = x.elastic.transfers)
    (hendpoints : s.endpoints = x.elastic.endpoints) :
    Accounted ⟨s, x.note (x.books.toOutbox.deposit k texts) s.transfers []⟩ where
  balanced := h.balanced.deposit k texts
  waits l := by
    by_cases heq : l = k
    · subst heq
      constructor
      · rw [hdata, (h.waits l).data, ← body_append]
        simp [Outbox.deposit]
      · rw [hcurrentNo, (h.waits l).currentNo]
        simp [Outbox.deposit]
    · rw [hother l heq]
      have hl := h.waits l
      constructor
      · simpa [Outbox.deposit, heq] using hl.data
      · simpa [Outbox.deposit, heq] using hl.currentNo
  made := by
    simpa [note, Outbox.deposit, htransfers] using h.made
  queued := by
    simpa [note, htransfers] using h.queued
  endpoints := hendpoints ▸ h.endpoints
  recipients := h.recipients

/-- A batch is closed after texts have been added to it. -/
theorem ship (h : x.Accounted) {k : TickCallback} (texts : List String)
    {recipients : Option (List String)}
    (hrecipients : ∀ eps, recipients = some eps → eps = x.elastic.endpoints)
    (hdata : (s.batchOf k).data = "") (hcurrentNo : (s.batchOf k).currentNo = 0)
    (hother : ∀ l, l ≠ k → s.batchOf l = x.elastic.batchOf l)
    (htransfers : s.transfers =
      x.elastic.transfers ++ transfersOf ⟨k, x.books.pending k ++ texts, recipients⟩)
    (hendpoints : s.endpoints = x.elastic.endpoints) :
    Accounted ⟨s, x.note ((x.books.toOutbox.deposit k texts).close k recipients)
      s.transfers []⟩ where
  balanced := (h.balanced.deposit k texts).close k recipients
  waits l := by
    by_cases heq : l = k
    · subst heq
      constructor
      · simp [hdata, Outbox.close, body]
      · simp [hcurrentNo, Outbox.close]
    · rw [hother l heq]
      have hl := h.waits l
      constructor
      · simpa [Outbox.close, Outbox.deposit, heq] using hl.data
      · simpa [Outbox.close, Outbox.deposit, heq] using hl.currentNo
  made := by
    simp [note, Outbox.close, Outbox.deposit, htransfers, h.made]
  queued := by
    have hnew := h.queued.append_right (transfersOf ⟨k, x.books.pending k ++ texts, recipients⟩)
    rw [List.append_assoc] at hnew
    simpa [note, htransfers] using (List.perm_append_comm.append_left _).trans hnew
  endpoints := hendpoints ▸ h.endpoints
  recipients b hb eps heps := by
    rcases List.mem_append.mp hb with hb | hb
    · exact h.recipients b hb eps heps
    · obtain rfl := List.mem_singleton.mp hb
      exact hrecipients eps heps ▸ h.endpoints

theorem record_eq (k : TickCallback) (texts : List String) (maxNo : ℤ) (endpoints : List String)
    (books : Outbox TickCallback String String) :
    record k texts maxNo endpoints books =
      if maxNo ≤ (books.pending k).length + texts.length
      then (books.deposit k texts).close k (some endpoints) else books.deposit k texts := by
  have hpending : (books.deposit k texts).pending k = books.pending k ++ texts :=
    Function.update_self k _ books.pending
  rw [record, hpending, List.length_append, Nat.cast_add]

variable {dumpStats : UeMacRibInfo → String} {dumpConfigs : Rib → String}

theorem batchOf_of_ne_processStats {s' : ElasticSearch} (h : s.batchConfig = s'.batchConfig) :
    ∀ l, l ≠ .processStats → s.batchOf l = s'.batchOf l := by
  intro l hl
  cases l with
  | processStats => exact absurd rfl hl
  | processConfig => exact h
  | processCurl => rfl

theorem processStats (h : x.Accounted) {o : TickOutside}
    (hs : x.elastic.processStats dumpStats o = .ok s) :
    Accounted ⟨s, x.note (record .processStats (statsTexts dumpStats o)
      x.elastic.batchStats.maxNo x.elastic.endpoints x.books.toOutbox) s.transfers []⟩ := by
  have hdata : x.elastic.batchStats.data = _ := (h.waits .processStats).data
  have hcurrentNo : x.elastic.batchStats.currentNo = _ := (h.waits .processStats).currentNo
  obtain ⟨⟨batch, full?⟩, hresult, hs⟩ := bind_eq_ok_iff.mp hs
  have heq := processStats_eq hresult
  dsimp only [ge_iff_le] at heq
  rw [hcurrentNo] at heq
  rw [record_eq]
  split_ifs with hfull
  · -- the batch is sent off
    rw [if_pos hfull] at heq
    cases heq
    cases hs
    refine h.ship _ (fun eps heps => (Option.some.inj heps).symm) rfl rfl
      (batchOf_of_ne_processStats rfl) ?_ rfl
    rw [triggerSend, hdata, ← body_append]
    rfl
  · rw [if_neg hfull] at heq
    cases heq
    cases hs
    refine h.collect rfl ?_ (batchOf_of_ne_processStats rfl) rfl rfl
    exact congrArg (· + _) hcurrentNo.symm

theorem batchOf_of_ne_processConfig {s' : ElasticSearch} (h : s.batchStats = s'.batchStats) :
    ∀ l, l ≠ .processConfig → s.batchOf l = s'.batchOf l := by
  intro l hl
  cases l with
  | processStats => exact h
  | processConfig => exact absurd rfl hl
  | processCurl => rfl

theorem processConfig (h : x.Accounted) (o : TickOutside) :
    Accounted ⟨x.elastic.processConfig dumpConfigs o,
      x.note (record .processConfig [configText dumpConfigs o] x.elastic.batchConfig.maxNo
        x.elastic.endpoints x.books.toOutbox)
        (x.elastic.processConfig dumpConfigs o).transfers []⟩ := by
  have hdata : x.elastic.batchConfig.data = _ := (h.waits .processConfig).data
  have hcurrentNo : x.elastic.batchConfig.currentNo = _ := (h.waits .processConfig).currentNo
  have hbody : x.elastic.batchConfig.data ++ bulkCreateIndex "enb_config"
      (formatStatisticsToJson o.dateTime (dumpConfigs o.rib) "") =
        body .processConfig (x.books.pending .processConfig ++ [configText dumpConfigs o]) := by
    rw [hdata, body_append, body_singleton]
    rfl
  have hlength : (([configText dumpConfigs o].length : ℕ) : ℤ) = 1 := rfl
  rw [record_eq, hlength, ← hcurrentNo]
  by_cases hfull : x.elastic.batchConfig.maxNo ≤ x.elastic.batchConfig.currentNo + 1
  · have hs : x.elastic.processConfig dumpConfigs o = initialiseBatchConfig (triggerSend _ _) :=
      if_pos hfull
    rw [if_pos hfull, hs]
    refine h.ship _ (fun eps heps => (Option.some.inj heps).symm) rfl rfl
      (batchOf_of_ne_processConfig rfl) ?_ rfl
    dsimp only [transfersOf]
    rw [← hbody]
    rfl
  · have hs : x.elastic.processConfig dumpConfigs o = _ := if_neg hfull
    rw [if_neg hfull, hs]
    refine h.collect ?_ rfl (batchOf_of_ne_processConfig rfl) rfl rfl
    rw [body_singleton]
    rfl

theorem foldl_erase (done : List (Transfer × ℕ)) (l : List Transfer) :
    done.foldl (fun l d => l.erase d.1) l = l.diff (done.map Prod.fst) := by
  rw [List.diff_eq_foldl, List.foldl_map]

theorem processCurl (h : x.Accounted) (o : TickOutside) :
    Accounted ⟨x.elastic.processCurl o,
      x.note x.books.toOutbox (x.elastic.processCurl o).transfers (curlReports o)⟩ := by
  rw [ElasticSearch.processCurl, curlReports]
  split
  · exact h.frame (fun k => by cases k <;> exact ⟨rfl, rfl⟩) (foldl_erase o.done _) h.endpoints
  · rw [disableLogging_eq]
    refine h.frame (fun k => by cases k <;> exact ⟨rfl, rfl⟩) ?_ h.endpoints
    rw [List.map_append, List.diff_append, ← foldl_erase, ← foldl_erase]
    rfl

theorem disableLogging (h : x.Accounted) (waited : List (Transfer × ℕ)) :
    Accounted ⟨x.elastic.disableLogging waited,
      x.note x.books.toOutbox (x.elastic.disableLogging waited).transfers waited⟩ := by
  rw [disableLogging_eq]
  exact h.frame (fun k => by cases k <;> exact ⟨rfl, rfl⟩) (foldl_erase waited _) h.endpoints

/-- Nothing has been called. -/
theorem unchanged (h : x.Accounted) :
    Accounted ⟨x.elastic, x.note x.books.toOutbox x.elastic.transfers []⟩ :=
  h.frame (fun _ => ⟨rfl, rfl⟩) rfl h.endpoints

theorem recordTick (h : x.Accounted) {o : TickOutside} {t c : ℕ} {slot : TickSlot} {y : Exporter}
    (hy : recordTick dumpStats dumpConfigs o t c slot x = .ok y) : y.Accounted := by
  obtain ⟨s, hs, hy⟩ := bind_eq_ok_iff.mp hy
  cases hy
  rw [callTick] at hs
  split_ifs at hs ⊢
  · cases hslot : slot.callback with
    | processStats =>
      rw [hslot] at hs
      exact h.processStats hs
    | processConfig =>
      rw [hslot] at hs
      cases hs
      exact h.processConfig o
    | processCurl =>
      rw [hslot] at hs
      cases hs
      exact h.processCurl o
  · cases hs
    exact h

/-- The last UE has left. -/
theorem recordDisconnect (h : x.Accounted) {r : Rib} {y : Exporter}
    (hy : recordDisconnect r x = .ok y) : y.Accounted := by
  obtain ⟨s, hs, hy⟩ := bind_eq_ok_iff.mp hy
  obtain ⟨count, hcount, hs⟩ := bind_eq_ok_iff.mp hs
  cases hy
  rw [hcount]
  by_cases hzero : count = 0
  · rw [if_pos hzero] at hs
    cases hs
    rw [if_pos (congrArg Except.ok hzero)]
    have hdata : x.elastic.batchStats.data = _ := (h.waits .processStats).data
    rw [← Outbox.deposit_nil .processStats x.books.toOutbox]
    refine h.ship [] (fun eps heps => (Option.some.inj heps).symm) rfl rfl
      (batchOf_of_ne_processStats rfl) ?_ rfl
    rw [hdata, List.append_nil]
    rfl
  · rw [if_neg hzero] at hs
    cases hs
    rw [if_neg (by simpa using hzero)]
    exact h.unchanged

/-- Logging is not enabled, or the batches begin anew. -/
theorem enableLogging_cases (now : Int64) (s : ElasticSearch) :
    s.enableLogging now = (false, s) ∨
      (s.enableLogging now).1 = true ∧
        (s.enableLogging now).2.batchStats = { s.batchStats with currentNo := 0, data := "" } ∧
        (s.enableLogging now).2.batchConfig = { s.batchConfig with currentNo := 0, data := "" } ∧
        (s.enableLogging now).2.transfers = s.transfers ∧
        (s.enableLogging now).2.endpoints = s.endpoints := by
  rw [ElasticSearch.enableLogging]
  by_cases hactive : s.isActive = true
  · exact .inl (if_pos hactive)
  by_cases hzero : s.freqConfig = 0 ∧ s.freqStats = 0
  · rw [if_neg hactive, if_pos hzero]
    exact .inl rfl
  rw [if_neg hactive, if_neg hzero]
  simp only [initialiseBatchStats, initialiseBatchConfig, subscribeTick]
  refine .inr ⟨trivial, ?_⟩
  by_cases hconfig : s.freqConfig > 0 <;> by_cases hstats : s.freqStats > 0 <;>
    simp [hconfig, hstats]

/-- What waits is thrown away. -/
theorem enableLogging (h : x.Accounted) (now : Int64) :
    Accounted ⟨(x.elastic.enableLogging now).2,
      recordRequest x (x.elastic.enableLogging now).2 (.enableLogging now)⟩ := by
  have hreports : requestReports x.elastic (.enableLogging now) = [] := rfl
  rw [recordRequest, requestOutbox, hreports]
  rcases enableLogging_cases now x.elastic with hfalse | ⟨htrue, hstats, hconfig, htransfers,
    hendpoints⟩
  · rw [hfalse]
    exact h.unchanged
  · rw [if_pos htrue]
    have hfirst : Accounted ⟨x.elastic.initialiseBatchStats,
        x.note (x.books.toOutbox.close .processStats none) x.elastic.transfers []⟩ := by
      rw [← Outbox.deposit_nil .processStats x.books.toOutbox]
      refine h.ship [] (by simp) rfl rfl (batchOf_of_ne_processStats rfl) ?_ rfl
      exact (List.append_nil _).symm
    have hnobody : ∀ eps, (none : Option (List String)) = some eps →
        eps = x.elastic.initialiseBatchStats.endpoints := fun _ h => nomatch h
    have hsecond := hfirst.ship (k := .processConfig) (s := (x.elastic.enableLogging now).2) []
      hnobody (congrArg StatsBatch.data hconfig)
      (congrArg StatsBatch.currentNo hconfig) (batchOf_of_ne_processConfig hstats)
      (htransfers.trans (List.append_nil _).symm) hendpoints
    rw [Outbox.deposit_nil] at hsecond
    simpa [note, initialiseBatchStats] using hsecond

/-- The batches and the transfers are as they were. -/
theorem request (h : x.Accounted) (hbatch : ∀ k, (s.batchOf k).data = (x.elastic.batchOf k).data ∧
      (s.batchOf k).currentNo = (x.elastic.batchOf k).currentNo)
    (htransfers : s.transfers = x.elastic.transfers)
    (hendpoints : s.endpoints.Nodup) :
    Accounted ⟨s, x.note x.books.toOutbox s.transfers []⟩ :=
  h.frame hbatch htransfers hendpoints

theorem removeEndpoint (h : x.Accounted) (waited : List (Transfer × ℕ)) (ep : String) :
    Accounted ⟨(x.elastic.removeEndpoint waited ep).2,
      recordRequest x (x.elastic.removeEndpoint waited ep).2 (.removeEndpoint waited ep)⟩ := by
  by_cases hmem : ep ∈ x.elastic.endpoints
  · by_cases hlast : (x.elastic.endpoints.erase ep).length = 0 ∧ x.elastic.isActive
    · have hs : (x.elastic.removeEndpoint waited ep).2 = ElasticSearch.disableLogging waited
          { x.elastic with endpoints := x.elastic.endpoints.erase ep } := by
        rw [ElasticSearch.removeEndpoint, if_pos hmem]
        exact congrArg Prod.snd (if_pos hlast)
      have hreports : requestReports x.elastic (.removeEndpoint waited ep) = waited :=
        if_pos ⟨hmem, hlast⟩
      rw [recordRequest, hreports, hs, disableLogging_eq]
      exact h.frame (fun k => by cases k <;> exact ⟨rfl, rfl⟩) (foldl_erase waited _)
        (h.endpoints.erase ep)
    · have hs : (x.elastic.removeEndpoint waited ep).2 =
          { x.elastic with endpoints := x.elastic.endpoints.erase ep } := by
        rw [ElasticSearch.removeEndpoint, if_pos hmem]
        exact congrArg Prod.snd (if_neg hlast)
      have hreports : requestReports x.elastic (.removeEndpoint waited ep) = [] :=
        if_neg fun hboth => hlast hboth.2
      rw [recordRequest, hreports, hs]
      exact h.request (fun k => by cases k <;> exact ⟨rfl, rfl⟩) rfl (h.endpoints.erase ep)
  · have hs : (x.elastic.removeEndpoint waited ep).2 = x.elastic := by
      rw [ElasticSearch.removeEndpoint, if_neg hmem]
    have hreports : requestReports x.elastic (.removeEndpoint waited ep) = [] :=
      if_neg fun hboth => hmem hboth.1
    rw [recordRequest, hreports, hs]
    exact h.unchanged

theorem addEndpoint (h : x.Accounted) (ep : String) :
    Accounted ⟨(x.elastic.addEndpoint ep).2,
      x.note x.books.toOutbox (x.elastic.addEndpoint ep).2.transfers []⟩ := by
  rw [ElasticSearch.addEndpoint]
  split_ifs with hinvalid hmem
  · exact h.unchanged
  · exact h.unchanged
  · refine h.request (fun k => by cases k <;> exact ⟨rfl, rfl⟩) rfl ?_
    exact List.nodup_append'.mpr ⟨h.endpoints, List.nodup_singleton ep, by simpa using hmem⟩

theorem step (h : x.Accounted) {e : ElasticEvent} {y : Exporter}
    (hy : exporterStep dumpStats dumpConfigs x e = .ok y) : y.Accounted := by
  cases e with
  | tick t o =>
    obtain ⟨z, hz, hy⟩ := bind_eq_ok_iff.mp hy
    cases hy
    have haccounted : z.Accounted := emit_invariant (fun _ _ _ _ h hcall => h.recordTick hcall) h hz
    exact ⟨haccounted.balanced,
      fun k => ⟨(haccounted.waits k).data, (haccounted.waits k).currentNo⟩, haccounted.made,
      haccounted.queued, haccounted.endpoints, haccounted.recipients⟩
  | ueDisconnect r => exact emit_invariant (fun _ _ _ _ h hcall => h.recordDisconnect hcall) h hy
  | enableLogging now =>
    cases hy
    exact h.enableLogging now
  | disableLogging waited =>
    cases hy
    exact h.disableLogging waited
  | removeEndpoint waited ep =>
    cases hy
    exact h.removeEndpoint waited ep
  | addEndpoint ep =>
    cases hy
    exact h.addEndpoint ep
  | setFreqStats freq =>
    cases hy
    rw [recordRequest, ElasticSearch.setFreqStats]
    dsimp only
    split_ifs <;> exact h.request (fun k => by cases k <;> exact ⟨rfl, rfl⟩) rfl h.endpoints
  | setFreqConfig freq =>
    cases hy
    rw [recordRequest, ElasticSearch.setFreqConfig]
    dsimp only
    split_ifs <;> exact h.request (fun k => by cases k <;> exact ⟨rfl, rfl⟩) rfl h.endpoints
  | setBatchStatsMaxSize size =>
    cases hy
    rw [recordRequest, setBatchStatsMaxSize]
    split <;> exact h.request (fun k => by cases k <;> exact ⟨rfl, rfl⟩) rfl h.endpoints
  | setBatchConfigMaxSize size =>
    cases hy
    rw [recordRequest, setBatchConfigMaxSize]
    split <;> exact h.request (fun k => by cases k <;> exact ⟨rfl, rfl⟩) rfl h.endpoints

end Exporter.Accounted

/-! ## What an endpoint gets -/

/-- The bodies that have been posted to an endpoint. -/
def bodiesTo (ep : String) (made : List Transfer) : List String :=
  (made.filter fun transfer => transfer.url = ep ++ "/_bulk").map Transfer.postFields

theorem bodiesTo_transfersOf (ep : String) (b : Batch TickCallback String String)
    (hnodup : ∀ eps, b.recipients = some eps → eps.Nodup) :
    bodiesTo ep (transfersOf b) =
      if b.recipients.any (ep ∈ ·) then [body b.kind b.items] else [] := by
  rw [bodiesTo, transfersOf]
  cases hrecipients : b.recipients with
  | none => simp
  | some eps =>
    have hurl : ∀ addr : String, addr ++ "/_bulk" = ep ++ "/_bulk" ↔ addr = ep := fun addr =>
      String.append_left_inj _
    simp only [Option.getD_some, List.filter_map, Function.comp_def, hurl, List.filter_eq,
      (hnodup eps hrecipients).count, Option.any_some, decide_eq_true_eq]
    split <;> rfl

/-- An endpoint gets one body for each batch that is closed while it is one. -/
theorem bodiesTo_flatMap (ep : String) (closed : List (Batch TickCallback String String))
    (hrecipients : ∀ b ∈ closed, ∀ eps, b.recipients = some eps → eps.Nodup) :
    bodiesTo ep (closed.flatMap transfersOf) = (closed.filter fun b =>
      b.recipients.any (ep ∈ ·)).map fun b => body b.kind b.items := by
  induction closed with
  | nil => rfl
  | cons b closed ih =>
    have hfirst := bodiesTo_transfersOf ep b (hrecipients b List.mem_cons_self)
    have hrest := ih fun b' hb' => hrecipients b' (List.mem_cons_of_mem _ hb')
    rw [bodiesTo] at hfirst hrest
    rw [bodiesTo, List.flatMap_cons, List.filter_append, List.map_append, hfirst, hrest,
      List.filter_cons]
    split <;> rfl

/-- **Every text is accounted for.** In every run the transfers that have been made and are not
finished are in the queue; an endpoint has been posted one body for each batch that was closed while
it was an endpoint, in their order; each text of a tick is in one batch that was sent, or was thrown
away when logging was switched on again, or waits.  So an endpoint is posted no text twice, and all
but those that wait if it was there at the end of every batch. -/
theorem accounted_of_run {dumpStats : UeMacRibInfo → String} {dumpConfigs : Rib → String}
    {events : List ElasticEvent} {s : ElasticSearch}
    (hrun : run (elasticStep dumpStats dumpConfigs) {} events = .ok s) :
    ∃ books, run (exporterStep dumpStats dumpConfigs) {} events = .ok ⟨s, books⟩ ∧
      Exporter.Accounted ⟨s, books⟩ ∧
      (∀ ep, bodiesTo ep books.made = (books.closed.filter fun b =>
        b.recipients.any (ep ∈ ·)).map fun b => body b.kind b.items) ∧
      ∀ k, (books.sent k ++ books.discarded k ++ books.pending k).Perm (itemsOf k books.logged) ∧
        ∀ ep, (books.received k ep).Sublist (itemsOf k books.logged) ∧
          ((∀ b ∈ books.closed, b.kind = k → b.recipients.any (ep ∈ ·) = true) →
            books.received k ep ++ books.pending k = itemsOf k books.logged) := by
  have hmap : (run (exporterStep dumpStats dumpConfigs) {} events).map Exporter.elastic =
      run (elasticStep dumpStats dumpConfigs) {} events :=
    run_map Exporter.elastic map_elastic_exporterStep {} events
  rw [hrun] at hmap
  cases hx : run (exporterStep dumpStats dumpConfigs) {} events with
  | error f =>
    rw [hx] at hmap
    cases hmap
  | ok x =>
    rw [hx] at hmap
    obtain rfl := Except.ok.inj hmap
    have haccounted : x.Accounted :=
      run_invariant (fun _ _ _ h hstep => h.step hstep) Exporter.Accounted.initial hx
    refine ⟨x.books, rfl, haccounted, fun ep => ?_, fun k => ?_⟩
    · rw [haccounted.made, bodiesTo_flatMap ep _ haccounted.recipients]
    refine ⟨haccounted.balanced.perm k, fun ep => ?_⟩
    exact ⟨haccounted.balanced.received_sublist k ep, haccounted.balanced.received_append_pending⟩

/-- A configuration waits when logging is switched off, and the next two are sent. -/
def configExported : List ElasticEvent :=
  [.setBatchConfigMaxSize 2, .enableLogging 0, .tick 0 ⟨{}, "first", true, [], []⟩,
    .disableLogging [], .enableLogging 1, .tick 5000 ⟨{}, "second", true, [], []⟩,
    .tick 10000 ⟨{}, "third", true, [], []⟩]

theorem accounted_configExported :
    ∃ s, run (elasticStep (fun _ => "") fun _ => "[]") {} configExported = .ok s ∧
      s.transfers.length = 1 ∧
      ∃ books, run (exporterStep (fun _ => "") fun _ => "[]") {} configExported = .ok ⟨s, books⟩ ∧
        (books.discarded .processConfig).length = 1 ∧
        (books.received .processConfig "localhost:9200").length = 2 ∧
        Exporter.Accounted ⟨s, books⟩ ∧
        ∀ ep, bodiesTo ep books.made = (books.closed.filter fun b =>
          b.recipients.any (ep ∈ ·)).map fun b => body b.kind b.items := by
  have hfacts : (run (exporterStep (fun _ => "") fun _ => "[]") {} configExported).map
      (fun x => decide (x.elastic.transfers.length = 1 ∧
        (x.books.discarded .processConfig).length = 1 ∧
        (x.books.received .processConfig "localhost:9200").length = 2)) = .ok true := by
    decide +kernel
  obtain ⟨⟨s, books⟩, hx, htransfers, hdiscarded, hreceived⟩ := exists_ok_of_decide hfacts
  have hrun : run (elasticStep (fun _ => "") fun _ => "[]") {} configExported = .ok s := by
    rw [← run_map Exporter.elastic map_elastic_exporterStep {} configExported, hx]
    rfl
  obtain ⟨books', hbooks, haccounted, hbodies, -⟩ := accounted_of_run hrun
  cases hx.symm.trans hbooks
  exact ⟨s, hrun, htransfers, books, hbooks, hdiscarded, hreceived, haccounted, hbodies⟩

end FlexRan.App.Log.ElasticSearch
