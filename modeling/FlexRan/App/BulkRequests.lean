import FlexRan.App.ExportLedger
import FlexRan.App.StatsJson
import FlexRan.Lib.Lines

/-!
# Bulk requests

A body for the endpoints is a bulk request: pairs of lines, of which the first names the index and
the second is the document.  A newline within a document would shift all pairs after it.  The texts
are put together by string operations on four levels, so that it takes all of them to see that a
body is read as the documents that were logged, and that each of these is a JSON text of the RIB as
it was at the tick.

## Main definitions

* `readBulk`: the pairs of a body.
* `Documents`: what a text says about the RIB of a tick.
* `bulkRequests_of_run`: the bodies of every run.
-/
namespace FlexRan.App.Log.ElasticSearch

open Lib Protocol Rib
open Stats (AllConfigs IsDocument presentable_of_run)

/-! ## Pairs of lines -/

/-- The first of the two lines of `bulk_create_index`. -/
def actionLine (k : TickCallback) : String :=
  "\x7b\"index\":\x7b\"_index\":\"" ++ indexName k ++ "\",\"_type\":\"json\"\x7d\x7d"

def readBulk (body : String) : Option (List (String × String)) := (readLines body).bind pairUp

/-- The value of the first line. -/
def actionJson (k : TickCallback) : Json :=
  .object [("index", .object [("_index", .string (indexName k)), ("_type", .string "json")])]

theorem plain_indexName (k : TickCallback) : plain (indexName k) = true := by
  cases k <;> decide +kernel

theorem text_actionLine (k : TickCallback) : (actionJson k).Text (actionLine k) := by
  have hmembers : MembersText [("_index", .string (indexName k)), ("_type", .string "json")] _ :=
    membersText_cons (by decide +kernel) (text_string (plain_indexName k))
      (membersText_single (by decide +kernel) (text_string (by decide +kernel)))
  have hindex := membersText_single (k := "index") (by decide +kernel) (text_object hmembers)
  refine (text_object hindex).congr ?_
  delta actionLine
  simp

theorem oneLine_of_plain {s : String} (h : plain s = true) : OneLine s := by
  intro hmem
  have hplain := List.all_eq_true.mp h _ hmem
  revert hplain
  decide

theorem oneLine_actionLine (k : TickCallback) : OneLine (actionLine k) := by
  cases k <;> decide +kernel

theorem bulkCreateIndex_eq (k : TickCallback) (text : String) :
    bulkCreateIndex (indexName k) text = unlines [actionLine k, text] := by
  rw [← String.toList_inj]
  delta bulkCreateIndex actionLine unlines
  simp

theorem body_eq_unlines (k : TickCallback) (texts : List String) :
    body k texts = unlines (texts.flatMap fun text => [actionLine k, text]) := by
  induction texts with
  | nil => rfl
  | cons text texts ih =>
    rw [← List.singleton_append, body_append, body_singleton, bulkCreateIndex_eq, ih]
    simp [unlines, String.append_assoc]

/-- A body is read as the texts it was made of, if each of them is one line. -/
theorem readBulk_body {k : TickCallback} {texts : List String}
    (h : ∀ text ∈ texts, OneLine text) :
    readBulk (body k texts) = some (texts.map fun text => (actionLine k, text)) := by
  have hlines : readLines (body k texts) =
      some (texts.flatMap fun text => [actionLine k, text]) := by
    refine readLines_eq_some_iff.mpr ⟨body_eq_unlines k texts, fun line hline => ?_⟩
    obtain ⟨text, htext, hline⟩ := List.mem_flatMap.mp hline
    rcases List.mem_pair.mp hline with rfl | rfl
    · exact oneLine_actionLine k
    · exact h _ htext
  rw [readBulk, hlines]
  exact pairUp_flatMap _ _ texts

/-! ## Texts of one line -/

/-- `MessageToJsonString` adds no whitespace unless it is asked to. -/
structure PrintsOneLine (p : MessagePrinter) : Prop where
  enbConfigReply : ∀ m, OneLine (p.enbConfigReply.messageToJsonString m)
  ueConfigReply : ∀ m, OneLine (p.ueConfigReply.messageToJsonString m)
  lcConfigReply : ∀ m, OneLine (p.lcConfigReply.messageToJsonString m)
  ueStatsReport : ∀ m, OneLine (p.ueStatsReport.messageToJsonString m)

section OneLine

variable {p : MessagePrinter}

theorem oneLine_toString (n : ℕ) : OneLine (toString n) := oneLine_of_plain (plain_repr_nat n)

theorem oneLine_joinComma {texts : List String} (h : ∀ text ∈ texts, OneLine text) :
    OneLine (joinComma texts) := by
  induction texts with
  | nil => decide
  | cons text texts ih =>
    cases texts with
    | nil => exact h text (by simp)
    | cons t texts =>
      rw [joinComma_cons_cons]
      simp only [oneLine_append]
      refine ⟨⟨h text (by simp), by decide⟩, ih fun t ht => h t (List.mem_cons_of_mem _ ht)⟩

theorem oneLine_formatStatisticsToJson {dateTime configurations macStats : String}
    (hdate : plain dateTime = true) (hconfigs : OneLine configurations)
    (hstats : OneLine macStats) :
    OneLine (formatStatisticsToJson dateTime configurations macStats) := by
  have hdate' := oneLine_of_plain hdate
  delta formatStatisticsToJson
  split_ifs <;> simp only [oneLine_append] <;> and_intros <;>
    first | with_reducible assumption | decide +kernel

/-- The statistics of a UE. -/
theorem oneLine_dumpStats (hp : PrintsOneLine p) (ue : UeMacRibInfo) :
    OneLine (ue.dumpStatsToJsonString p) := by
  have hreport := hp.ueStatsReport ue.macStatsReport
  have hrnti := oneLine_toString ue.rnti.toNat
  have hharq : OneLine (joinComma (List.ofFn fun i => harqText (ue.acks i))) := by
    refine oneLine_joinComma fun text htext => ?_
    obtain ⟨i, rfl⟩ := List.mem_ofFn.mp htext
    cases ue.acks i <;> decide +kernel
  delta UeMacRibInfo.dumpStatsToJsonString UeMacRibInfo.formatStatsToJson
  simp only [oneLine_append]
  and_intros <;> first | with_reducible assumption | decide +kernel

theorem oneLine_namesToJson {names : List String} (h : ∀ name ∈ names, plain name = true) :
    OneLine (namesToJson names) := by
  have hloop : ∀ (s : String), OneLine s →
      OneLine (names.foldl (fun s name => s ++ ("\"" ++ name ++ "\",")) s) := by
    induction names with
    | nil => exact fun s hs => hs
    | cons name names ih =>
      intro s hs
      refine ih (fun n hn => h n (List.mem_cons_of_mem _ hn)) _ ?_
      have hname := oneLine_of_plain (h name (by simp))
      simp only [oneLine_append]
      and_intros <;> first | with_reducible assumption | decide +kernel
  rw [namesToJson, overwriteLast, OneLine, String.toList_ofList, List.mem_append, not_or]
  refine ⟨fun hmem => hloop "[" (by decide) (List.mem_of_mem_dropLast hmem), by decide⟩

theorem oneLine_agent {a : AgentInfo} (h : plain a.portIp = true) : OneLine a.toJson := by
  have hagentId : OneLine (toString a.agentId) := oneLine_of_plain (plain_repr_int _)
  have hportIp := oneLine_of_plain h
  have hbsId := oneLine_toString a.bsId.toNat
  have hcaps : OneLine a.capabilities.toJson := by
    refine oneLine_namesToJson fun name hname => ?_
    obtain ⟨cap, -, rfl⟩ := List.mem_map.mp hname
    cases cap <;> decide +kernel
  have hsplits : OneLine (splitsToJson a.splits) := by
    rw [splitsToJson]
    split
    · decide
    · refine oneLine_namesToJson fun name hname => ?_
      obtain ⟨split, -, rfl⟩ := List.mem_map.mp hname
      cases split <;> decide +kernel
  delta AgentInfo.toJson
  simp only [oneLine_append]
  and_intros <;> first | with_reducible assumption | decide +kernel

/-- The configuration of a base station. -/
theorem oneLine_dumpConfigs (hp : PrintsOneLine p) {bs : EnbRibInfo}
    (h : ∀ (x : ℕ) a, bs.agents[x]? = some a → plain a.portIp = true) :
    OneLine (bs.dumpConfigsToJsonString p) := by
  have hbsId := oneLine_toString bs.bsId.toNat
  have hagents : OneLine (joinComma (bs.agents.toList.map fun a => a.2.toJson)) := by
    refine oneLine_joinComma fun text htext => ?_
    obtain ⟨a, ha, rfl⟩ := List.mem_map.mp htext
    exact oneLine_agent (h a.1 a.2 (mem_toList_iff.mp ha))
  have henb := hp.enbConfigReply bs.eNBConfig
  have hue := hp.ueConfigReply bs.ueConfig
  have hlc := hp.lcConfigReply bs.lcConfig
  delta EnbRibInfo.dumpConfigsToJsonString EnbRibInfo.formatConfigsToJson
  simp only [oneLine_append]
  and_intros <;> first | with_reducible assumption | decide +kernel

theorem oneLine_dumpAllConfigs (hp : PrintsOneLine p) {r : Rib} (h : ForAllBs Presentable r) :
    OneLine (r.dumpAllENBConfigurationsToJsonString p) := by
  delta Rib.dumpAllENBConfigurationsToJsonString formatENBConfigurationsToJson formatObjects
  simp only [oneLine_append]
  refine ⟨⟨by decide, oneLine_joinComma fun text htext => ?_⟩, by decide⟩
  rw [List.map_map] at htext
  obtain ⟨e, he, rfl⟩ := List.mem_map.mp htext
  have hbs := Std.ExtTreeMap.mem_toList_iff_getElem?_eq_some.mp he
  simp only [Function.comp_apply, oneLine_append]
  exact ⟨⟨by decide, oneLine_dumpConfigs hp (h e.1 e.2 hbs).endpoints⟩, by decide⟩

end OneLine

/-! ## Documents -/

/-- The document of a UE. -/
def ueDocument (p : MessagePrinter) (dateTime : String) (rnti : UInt32) (ue : UeMacRibInfo) :
    Json :=
  .object [("date_time", .string dateTime),
    ("mac_stats", ueStatsJson p rnti ue.macStatsReport ue.acks)]

/-- The text is a document of a UE that the RIB lists, or of all base stations. -/
def Documents (p : MessagePrinter) (o : TickOutside) (text : String) : TickCallback → Prop
  | .processStats => ∃ (b : UInt64) (bs : EnbRibInfo) (rnti : UInt32) (ue : UeMacRibInfo),
      o.rib.eNBConfigs[b]? = some bs ∧ rnti ∈ EnbRibInfo.rntis bs.ueConfig.ueConfig ∧
      bs.getUeMacInfo rnti = some ue ∧ (ueDocument p o.dateTime rnti ue).Text text
  | .processConfig => ∃ configs, AllConfigs p o.rib configs ∧
      (statisticsJson o.dateTime (some configs) none).Text text
  | .processCurl => False

/-- A tick finds a RIB made of messages, whose agents have printed addresses, and a formatted
time. -/
structure Sees (o : TickOutside) : Prop where
  rib : ∃ received, run receive {} received = .ok o.rib ∧
    ∀ e ∈ received, plain e.endpoint = true
  dateTime : ∃ localtime now, o.dateTime = formatDateTime localtime now

section Sees

variable {p : MessagePrinter} {o : TickOutside}

theorem Sees.presentable (h : Sees o) : ForAllBs Presentable o.rib := by
  obtain ⟨received, hrun, hendpoints⟩ := h.rib
  exact presentable_of_run hrun hendpoints

theorem Sees.plain (h : Sees o) : plain o.dateTime = true := by
  obtain ⟨localtime, now, hdate⟩ := h.dateTime
  rw [hdate]
  exact plain_formatDateTime localtime now

theorem Sees.bsReachable (h : Sees o) : BsReachable o.rib :=
  fun b bs hbs => (h.presentable b bs hbs).reachable

theorem text_ueDocument {dateTime : String} (hdate : Lib.plain dateTime = true) (rnti : UInt32)
    {ue : UeMacRibInfo} (hrnti : ue.rnti = rnti) :
    (ueDocument p dateTime rnti ue).Text
      (formatStatisticsToJson dateTime "" (ue.dumpStatsToJsonString p)) := by
  have hmembers : MembersText [("date_time", .string dateTime),
      ("mac_stats", ueStatsJson p rnti ue.macStatsReport ue.acks)] _ :=
    membersText_cons (by decide +kernel) (text_string hdate)
      (membersText_single (by decide +kernel)
        (text_formatStatsToJson rnti ue.macStatsReport ue.acks))
  refine (text_object hmembers).congr ?_
  have hne : ue.dumpStatsToJsonString p ≠ "" := by
    rw [UeMacRibInfo.dumpStatsToJsonString]
    exact (text_formatStatsToJson ue.rnti ue.macStatsReport ue.acks).ne_empty
  delta formatStatisticsToJson
  rw [if_neg (by simp), if_neg (by simp), if_pos hne, UeMacRibInfo.dumpStatsToJsonString, hrnti]
  simp

/-- The texts of the statistics at a tick. -/
theorem documents_statsTexts (hp : PrintsOneLine p) (h : Sees o) :
    ∀ text ∈ statsTexts (UeMacRibInfo.dumpStatsToJsonString p) o,
      OneLine text ∧ Documents p o text .processStats := by
  intro text htext
  obtain ⟨bs, hbs, htext⟩ := List.mem_flatMap.mp htext
  obtain ⟨c, hc, htext⟩ := List.mem_filterMap.mp htext
  obtain ⟨ue, hue, rfl⟩ := Option.map_eq_some_iff.mp htext
  obtain ⟨b, -, hb⟩ := List.mem_filterMap.mp hbs
  have hpresentable := h.presentable b bs hb
  refine ⟨oneLine_formatStatisticsToJson h.plain (by decide) (oneLine_dumpStats hp ue), b, bs,
    EnbRibInfo.rntiOf c, ue, hb, List.mem_map_of_mem hc, hue, text_ueDocument h.plain _ ?_⟩
  apply EnbRibInfo.rntiInv_of_reachable hpresentable.reachable
  cases hv : bs.ueMacInfo[EnbRibInfo.rntiOf c]? with
  | none => simp [EnbRibInfo.getUeMacInfo, hv] at hue
  | some v => simpa [EnbRibInfo.getUeMacInfo, hv] using hue

theorem documents_configText (hp : PrintsOneLine p) (h : Sees o) :
    OneLine (configText (Rib.dumpAllENBConfigurationsToJsonString p) o) ∧
      Documents p o (configText (Rib.dumpAllENBConfigurationsToJsonString p) o) .processConfig := by
  refine ⟨oneLine_formatStatisticsToJson h.plain (oneLine_dumpAllConfigs hp h.presentable)
    (by decide), ?_⟩
  obtain ⟨configs, hall, hconfigs⟩ := partText_allConfigs (p := p) h.presentable
  exact ⟨configs, hall, text_formatStatisticsToJson h.plain hconfigs rfl (.inl rfl)⟩

end Sees

/-! ## Runs -/

/-- The exporter, with the texts of the RIB. -/
abbrev printedStep (p : MessagePrinter) :
    ElasticSearch → ElasticEvent → Except Fault ElasticSearch :=
  elasticStep (UeMacRibInfo.dumpStatsToJsonString p) (Rib.dumpAllENBConfigurationsToJsonString p)

abbrev printedExport (p : MessagePrinter) : Exporter → ElasticEvent → Except Fault Exporter :=
  exporterStep (UeMacRibInfo.dumpStatsToJsonString p) (Rib.dumpAllENBConfigurationsToJsonString p)

/-- The texts logged so far are documents of ticks. -/
structure Exporter.Logs (p : MessagePrinter) (events : List ElasticEvent) (x : Exporter) :
    Prop where
  accounted : x.Accounted
  documents : ∀ e ∈ x.books.logged,
    OneLine e.2 ∧ ∃ t o, .tick t o ∈ events ∧ Documents p o e.2 e.1

section Step

variable {p : MessagePrinter} {events : List ElasticEvent} {x : Exporter}

theorem logged_record (k : TickCallback) (texts : List String) (maxNo : ℤ)
    (endpoints : List String) (books : Outbox TickCallback String String) :
    (record k texts maxNo endpoints books).logged =
      books.logged ++ texts.map fun text => (k, text) := by
  rw [record]
  split_ifs <;> rfl

theorem callTick_ok {o : TickOutside} (hsees : Sees o) (dumpStats : UeMacRibInfo → String)
    (dumpConfigs : Rib → String) (t c : ℕ) (k : TickSlot) (s : ElasticSearch) :
    ∃ s', callTick dumpStats dumpConfigs o t c k s = .ok s' := by
  rw [callTick]
  split_ifs
  · cases k.callback with
    | processStats =>
      obtain ⟨⟨batch, full?⟩, hresult⟩ :=
        processStats_ok hsees.bsReachable dumpStats o.dateTime s.batchStats
      dsimp only
      rw [ElasticSearch.processStats, hresult]
      cases full? <;> exact ⟨_, rfl⟩
    | processConfig => exact ⟨_, rfl⟩
    | processCurl => exact ⟨_, rfl⟩
  · exact ⟨_, rfl⟩

theorem ueCount_ok (r : Rib) : ∃ count, ueCount r = .ok count := by
  have hsum {x : Except Fault (List ℕ)} (hx : ∃ counts, x = .ok counts) :
      ∃ count, (do let counts ← x; pure counts.sum : Except Fault ℕ) = .ok count := by
    obtain ⟨counts, rfl⟩ := hx
    exact ⟨_, rfl⟩
  refine hsum (mapM_ok fun b hb => ?_)
  obtain ⟨bs, hbs⟩ := exists_bs_of_available hb
  rw [Rib.getBs, hbs]
  exact ⟨_, rfl⟩

theorem ueDisconnect_ok (r : Rib) (s : ElasticSearch) :
    ∃ s', ElasticSearch.ueDisconnect r s = .ok s' := by
  obtain ⟨count, hcount⟩ := ueCount_ok r
  rw [ElasticSearch.ueDisconnect, hcount]
  by_cases hzero : count = 0
  · exact ⟨_, if_pos hzero⟩
  · exact ⟨_, if_neg hzero⟩

/-- A slot is called without a fault, and logs documents only. -/
theorem Exporter.Logs.recordTick (hp : PrintsOneLine p) (h : x.Logs p events) {t₀ : ℕ}
    {o : TickOutside} (ho : .tick t₀ o ∈ events) (hsees : Sees o) (t c : ℕ) (k : TickSlot) :
    ∃ y, ElasticSearch.recordTick (UeMacRibInfo.dumpStatsToJsonString p)
      (Rib.dumpAllENBConfigurationsToJsonString p) o t c k x = .ok y ∧ y.Logs p events := by
  obtain ⟨s, hs⟩ := callTick_ok hsees (UeMacRibInfo.dumpStatsToJsonString p)
    (Rib.dumpAllENBConfigurationsToJsonString p) t c k x.elastic
  obtain ⟨y, hy⟩ : ∃ y, ElasticSearch.recordTick (UeMacRibInfo.dumpStatsToJsonString p)
      (Rib.dumpAllENBConfigurationsToJsonString p) o t c k x = .ok y := by
    rw [ElasticSearch.recordTick, hs]
    exact ⟨_, rfl⟩
  refine ⟨y, hy, h.accounted.recordTick hy, fun e he => ?_⟩
  obtain ⟨s, -, hy⟩ := bind_eq_ok_iff.mp hy
  cases hy
  dsimp only at he
  split_ifs at he
  · cases hk : k.callback with
    | processStats =>
      simp only [hk, Exporter.toOutbox_note, logged_record] at he
      rcases List.mem_append.mp he with he | he
      · exact h.documents e he
      · obtain ⟨text, htext, rfl⟩ := List.mem_map.mp he
        obtain ⟨hline, hdocuments⟩ := documents_statsTexts hp hsees text htext
        exact ⟨hline, t₀, o, ho, hdocuments⟩
    | processConfig =>
      simp only [hk, Exporter.toOutbox_note, logged_record] at he
      rcases List.mem_append.mp he with he | he
      · exact h.documents e he
      · obtain rfl := List.mem_singleton.mp he
        obtain ⟨hline, hdocuments⟩ := documents_configText hp hsees
        exact ⟨hline, t₀, o, ho, hdocuments⟩
    | processCurl =>
      rw [hk] at he
      exact h.documents e he
  · exact h.documents e he

/-- Closing a batch logs nothing. -/
theorem Exporter.Logs.of_logged (h : x.Logs p events) {y : Exporter} (haccounted : y.Accounted)
    (hlogged : y.books.logged = x.books.logged) : y.Logs p events :=
  ⟨haccounted, fun e he => h.documents e (hlogged ▸ he)⟩

theorem Exporter.Logs.recordDisconnect (h : x.Logs p events) (r : Rib) :
    ∃ y, ElasticSearch.recordDisconnect r x = .ok y ∧ y.Logs p events := by
  obtain ⟨s, hs⟩ := ueDisconnect_ok r x.elastic
  obtain ⟨y, hy⟩ : ∃ y, ElasticSearch.recordDisconnect r x = .ok y := by
    rw [ElasticSearch.recordDisconnect, hs]
    exact ⟨_, rfl⟩
  refine ⟨y, hy, h.of_logged (h.accounted.recordDisconnect hy) ?_⟩
  obtain ⟨s, -, hy⟩ := bind_eq_ok_iff.mp hy
  cases hy
  dsimp only
  split_ifs <;> rfl

theorem logged_recordRequest (s : ElasticSearch) (e : ElasticEvent) :
    (recordRequest x s e).logged = x.books.logged := by
  rw [recordRequest, Exporter.toOutbox_note]
  cases e with
  | enableLogging now =>
    rw [requestOutbox]
    split_ifs <;> rfl
  | _ => rfl

/-- Requests call nothing. -/
theorem exporterStep_cases (p : MessagePrinter) (e : ElasticEvent) :
    (∃ t o, e = .tick t o) ∨ (∃ r, e = .ueDisconnect r) ∨
      ∀ x, ∃ s, printedExport p x e = .ok ⟨s, recordRequest x s e⟩ := by
  cases e with
  | tick t o => exact .inl ⟨t, o, rfl⟩
  | ueDisconnect r => exact .inr (.inl ⟨r, rfl⟩)
  | _ => exact .inr (.inr fun x => ⟨_, rfl⟩)

/-- Every event is handled without a fault. -/
theorem Exporter.Logs.step (hp : PrintsOneLine p)
    (hticks : ∀ t o, .tick t o ∈ events → Sees o) (h : x.Logs p events) {e : ElasticEvent}
    (he : e ∈ events) : ∃ y, printedExport p x e = .ok y ∧ y.Logs p events := by
  rcases exporterStep_cases p e with ⟨t, o, rfl⟩ | ⟨r, rfl⟩ | hrequest
  · obtain ⟨y, hy, hlogs⟩ := emit_total
      (fun c k z (hz : Exporter.Logs p events z) => hz.recordTick hp he (hticks t o he) t c k) h
    have hstep : printedExport p x (.tick t o) = .ok _ := bind_eq_ok_iff.mpr ⟨y, hy, rfl⟩
    exact ⟨_, hstep, hlogs.of_logged (h.accounted.step hstep) rfl⟩
  · exact emit_total (fun _ _ z hz => hz.recordDisconnect r) h
  · obtain ⟨s, hstep⟩ := hrequest x
    exact ⟨_, hstep, h.of_logged (h.accounted.step hstep) (logged_recordRequest s e)⟩

end Step

/-- A batch as its recipients read it. -/
structure BulkRequest (p : MessagePrinter) (events : List ElasticEvent)
    (b : Batch TickCallback String String) : Prop where
  pairs : ∀ transfer ∈ transfersOf b,
    readBulk transfer.postFields = some (b.items.map fun text => (actionLine b.kind, text))
  action : (actionJson b.kind).Text (actionLine b.kind)
  documents : ∀ text ∈ b.items, ∃ t o, .tick t o ∈ events ∧ Documents p o text b.kind

theorem Exporter.Logs.bulkRequest {p : MessagePrinter} {events : List ElasticEvent} {x : Exporter}
    (h : x.Logs p events) {b : Batch TickCallback String String} (hb : b ∈ x.books.closed) :
    BulkRequest p events b := by
  have hlogged : ∀ text ∈ b.items, (b.kind, text) ∈ x.books.logged := by
    intro text htext
    have hmem : text ∈ (x.books.batches b.kind).flatMap Batch.items :=
      List.mem_flatMap.mpr ⟨b, List.mem_filter.mpr ⟨hb, by simp⟩, htext⟩
    have hitem : text ∈ itemsOf b.kind x.books.logged := by
      rw [← h.accounted.balanced b.kind]
      exact List.mem_append_left _ hmem
    rw [itemsOf] at hitem
    obtain ⟨⟨k, t⟩, hkt, rfl⟩ := List.mem_map.mp hitem
    obtain ⟨hkt, hk⟩ := List.mem_filter.mp hkt
    obtain rfl : k = b.kind := of_decide_eq_true hk
    exact hkt
  constructor
  · intro transfer htransfer
    obtain ⟨addr, -, rfl⟩ := List.mem_map.mp htransfer
    exact readBulk_body fun text htext => (h.documents _ (hlogged text htext)).1
  · exact text_actionLine b.kind
  · intro text htext
    exact (h.documents _ (hlogged text htext)).2

/-- **What is posted are bulk requests.** In every run in which the ticks find a RIB made of the
messages of agents, no null pointer is dereferenced, every transfer comes from a batch that was
closed, and every such batch is read as its texts: each is a document of the RIB at a tick of the
run. -/
theorem bulkRequests_of_run {p : MessagePrinter} (hp : PrintsOneLine p)
    {events : List ElasticEvent} (hticks : ∀ t o, .tick t o ∈ events → Sees o) :
    ∃ s books, run (printedStep p) {} events = .ok s ∧
      run (printedExport p) {} events = .ok ⟨s, books⟩ ∧
      (∀ transfer ∈ s.transfers, ∃ b ∈ books.closed, transfer ∈ transfersOf b) ∧
      ∀ b ∈ books.closed, BulkRequest p events b := by
  have hinitial : Exporter.Logs p events {} := ⟨Exporter.Accounted.initial, by simp⟩
  have htotal : ∃ x, run (printedExport p) {} events = .ok x ∧ x.Logs p events :=
    run_total_of_eachStep (fun _ _ h he => h.step hp hticks he) hinitial
      (eachStep_of_forall (fun _ he _ => he) _)
  obtain ⟨⟨s, books⟩, hx, hlogs⟩ := htotal
  have hmap : (run (printedExport p) {} events).map Exporter.elastic =
      run (printedStep p) {} events := run_map Exporter.elastic map_elastic_exporterStep {} events
  refine ⟨s, books, ?_, hx, ?_, fun b hb => hlogs.bulkRequest hb⟩
  · rw [← hmap, hx]
    rfl
  · intro transfer htransfer
    have hmade := hlogs.accounted.queued.subset (List.mem_append_left _ htransfer)
    rw [hlogs.accounted.made] at hmade
    exact List.mem_flatMap.mp hmade

/-- The configuration is exported at each tick it is due. -/
def hostExported (r : Rib) : List ElasticEvent :=
  [.setBatchConfigMaxSize 1, .enableLogging 0,
    .tick 0 ⟨r, formatDateTime epochTime 0, true, [], []⟩]

theorem bulkRequests_hostExported : ∃ r s books, run receive {} Stats.helloFromHost = .ok r ∧
    run (printedStep .braces) {} (hostExported r) = .ok s ∧
    run (printedExport .braces) {} (hostExported r) = .ok ⟨s, books⟩ ∧
    (∀ transfer ∈ s.transfers, ∃ b ∈ books.closed, transfer ∈ transfersOf b) ∧
    ∀ b ∈ books.closed, BulkRequest .braces (hostExported r) b := by
  obtain ⟨r, hr, -⟩ := exists_ok_of_decide (p := fun r : Rib => (1 : UInt64) ∈ r.eNBConfigs)
    (x := run receive {} Stats.helloFromHost) (by decide +kernel)
  have hempty : OneLine "\x7b\x7d" := by decide
  have hbraces : PrintsOneLine .braces := by
    constructor <;> exact fun _ => hempty
  have hendpoints : ∀ e ∈ Stats.helloFromHost, plain e.endpoint = true := by decide +kernel
  have hsees : ∀ t o, .tick t o ∈ hostExported r → Sees o := by
    intro t o hmem
    obtain ⟨-, rfl⟩ : t = 0 ∧ o = ⟨r, formatDateTime epochTime 0, true, [], []⟩ := by
      simpa [hostExported] using hmem
    exact ⟨⟨Stats.helloFromHost, hr, hendpoints⟩, epochTime, 0, rfl⟩
  obtain ⟨s, books, hs⟩ := bulkRequests_of_run hbraces hsees
  exact ⟨r, s, books, hr, hs⟩

end FlexRan.App.Log.ElasticSearch
