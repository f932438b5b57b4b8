import FlexRan.Rib.Rib
import FlexRan.Rib.UeState

/-!
# Applications that log UE state

The recorder and the elastic search exporter walk over the listed UEs of the base stations and
dereference the MAC state of each without a check.  `getUeMacInfo` returns a null pointer for
an unknown RNTI, so a check is missing unless every listed UE has a MAC state.

## Main definitions

* `recordChunk`: one base station at one point in time, as the recorder keeps it.
* `processStats`: the statistics batch of the exporter.
* `ueState_of_reachable`: the invariant of the UE state, and neither application faults.
-/
namespace FlexRan.App.Log

open Lib Protocol Rib

/-! ## Recorder -/

/-- The value of a positive acknowledgement. -/
def flhsAck : UInt8 := 0

/-- `mac_harq_info_t`: the MAC report and, for each HARQ process, whether it was acknowledged. -/
structure MacHarqInfo where
  macStatsReport : FlexUeStatsReport
  harqInfos : Fin 8 → Bool

/-- A base station at one point in time, in nanoseconds since the epoch of the system clock. -/
structure BsDump where
  time : Int64
  enbConfig : FlexEnbConfigReply
  ueConfig : FlexUeConfigReply
  lcConfig : FlexLcConfigReply
  ueMacHarqInfos : List MacHarqInfo

/-- All base stations at one point in time. -/
abbrev Chunk := Std.ExtTreeMap UInt64 BsDump

inductive JobType
  | all
  | enb
  | stats
  | bin
deriving DecidableEq

/-- `msEnd` is the first millisecond after the job. -/
structure JobInfo where
  msStart : ℕ
  msEnd : ℕ
  filename : String
  type : JobType
deriving DecidableEq

/-- One round of the loop over the UEs of `record_chunk`. -/
def recordUe (bs : EnbRibInfo) (ue : FlexUeConfig) : Except Fault MacHarqInfo :=
  match bs.getUeMacInfo (EnbRibInfo.rntiOf ue) with
  | none => .error .nullDereference
  | some ueMacInfo => .ok
    { macStatsReport := ueMacInfo.macStatsReport
      harqInfos := fun i => ueMacInfo.harqStats 0 i 0 == flhsAck }

def recordChunk (r : Rib) (t : Int64) (bsId : UInt64) : Except Fault BsDump :=
  match r.getBs bsId with
  | none => .error .nullDereference
  | some bs => do
    let ueMacHarqInfos ← bs.ueConfig.ueConfig.mapM (recordUe bs)
    return { time := t, enbConfig := bs.eNBConfig, ueConfig := bs.ueConfig
             lcConfig := bs.lcConfig, ueMacHarqInfos := ueMacHarqInfos }

/-! ## Elastic search -/

/-- The statistics that wait for being sent. -/
structure StatsBatch where
  currentNo : ℤ := 0
  maxNo : ℤ := 100
  data : String := ""

/-- `bulk_create_index`: two lines of a bulk request. -/
def bulkCreateIndex (index data : String) : String :=
  "\x7b\"index\":\x7b\"_index\":\"" ++ index ++ "\",\"_type\":\"json\"\x7d\x7d\n" ++ data ++ "\n"

/-- `format_statistics_to_json`, for a formatted date and time. -/
def formatStatisticsToJson (dateTime configurations macStats : String) : String :=
  "\x7b\"date_time\":\"" ++ dateTime ++ "\"," ++
    (if configurations ≠ "" then "\"eNB_config\":" ++ configurations else "") ++
    (if configurations ≠ "" ∧ macStats ≠ "" then "," else "") ++
    (if macStats ≠ "" then "\"mac_stats\":" ++ macStats else "") ++ "\x7d"

/-- One round of the inner loop of `process_stats`. `dumpStats` is the JSON text of the MAC
state of a UE. -/
def processUe (dumpStats : UeMacRibInfo → String) (dateTime : String) (bs : EnbRibInfo)
    (data : String) (ue : FlexUeConfig) : Except Fault String :=
  match bs.getUeMacInfo (EnbRibInfo.rntiOf ue) with
  | none => .error .nullDereference
  | some ueMacInfo => .ok (data ++
      bulkCreateIndex "mac_stats" (formatStatisticsToJson dateTime "" (dumpStats ueMacInfo)))

/-- One round of the loop over the base stations: the UEs counted so far, and the data. -/
def processBs (dumpStats : UeMacRibInfo → String) (dateTime : String) (r : Rib)
    (acc : ℤ × String) (bsId : UInt64) : Except Fault (ℤ × String) :=
  match r.getBs bsId with
  | none => .error .nullDereference
  | some bs => do
    let ues := bs.ueConfig.ueConfig
    let data ← ues.foldlM (processUe dumpStats dateTime bs) acc.2
    return (acc.1 + ues.length, data)

/-- The batch afterwards, and the text sent off if the batch was full. -/
def processStats (dumpStats : UeMacRibInfo → String) (dateTime : String) (r : Rib)
    (batch : StatsBatch) : Except Fault (StatsBatch × Option String) := do
  let (ueCount, data) ←
    r.getAvailableBaseStations.foldlM (processBs dumpStats dateTime r) (0, batch.data)
  let currentNo := batch.currentNo + ueCount
  if currentNo ≥ batch.maxNo then return ({ batch with currentNo := 0, data := "" }, some data)
  else return ({ batch with currentNo := currentNo, data := data }, none)

/-! ## No null pointer is dereferenced -/

/-- The states of all base stations are reachable. -/
def BsReachable (r : Rib) : Prop :=
  ∀ (b : UInt64) bs, r.eNBConfigs[b]? = some bs → bs.Reachable

variable {r : Rib} {bs : EnbRibInfo}

theorem exists_bs_of_available {b : UInt64} (h : b ∈ r.getAvailableBaseStations) :
    ∃ bs, r.eNBConfigs[b]? = some bs := by
  obtain ⟨⟨_, bs⟩, hmem, rfl⟩ := List.mem_map.mp h
  exact ⟨bs, Std.ExtTreeMap.mem_toList_iff_getElem?_eq_some.mp hmem⟩

theorem mapM_recordUe (ues : List FlexUeConfig)
    (h : ∀ c ∈ ues, ∃ ue, bs.getUeMacInfo (EnbRibInfo.rntiOf c) = some ue) :
    ∃ infos, ues.mapM (recordUe bs) = .ok infos := by
  induction ues with
  | nil => exact ⟨[], rfl⟩
  | cons c ues ih =>
    obtain ⟨ue, hue⟩ := h c (by simp)
    obtain ⟨infos, hinfos⟩ := ih fun d hd => h d (List.mem_cons_of_mem _ hd)
    rw [List.mapM_cons, recordUe, hue, hinfos]
    exact ⟨_, rfl⟩

theorem recordChunk_ok (h : BsReachable r) (t : Int64) {b : UInt64}
    (hb : b ∈ r.getAvailableBaseStations) : ∃ dump, recordChunk r t b = .ok dump := by
  obtain ⟨bs, hbs⟩ := exists_bs_of_available hb
  have hinv := EnbRibInfo.ueInv_of_reachable (h b bs hbs)
  obtain ⟨infos, hinfos⟩ := mapM_recordUe bs.ueConfig.ueConfig fun c hc => hinv.exists_ueMacInfo hc
  rw [recordChunk, Rib.getBs, hbs]
  simp only [hinfos]
  exact ⟨_, rfl⟩

theorem foldlM_processUe (dumpStats : UeMacRibInfo → String) (dateTime : String)
    (ues : List FlexUeConfig)
    (h : ∀ c ∈ ues, ∃ ue, bs.getUeMacInfo (EnbRibInfo.rntiOf c) = some ue) (data : String) :
    ∃ data', ues.foldlM (processUe dumpStats dateTime bs) data = .ok data' := by
  induction ues generalizing data with
  | nil => exact ⟨data, rfl⟩
  | cons c ues ih =>
    obtain ⟨ue, hue⟩ := h c (by simp)
    rw [List.foldlM_cons, processUe, hue]
    exact ih (fun d hd => h d (List.mem_cons_of_mem _ hd)) _

theorem foldlM_processBs (h : BsReachable r) (dumpStats : UeMacRibInfo → String)
    (dateTime : String) (ids : List UInt64) (hids : ∀ b ∈ ids, ∃ bs, r.eNBConfigs[b]? = some bs)
    (acc : ℤ × String) :
    ∃ acc', ids.foldlM (processBs dumpStats dateTime r) acc = .ok acc' := by
  induction ids generalizing acc with
  | nil => exact ⟨acc, rfl⟩
  | cons b ids ih =>
    obtain ⟨bs, hbs⟩ := hids b (by simp)
    have hinv := EnbRibInfo.ueInv_of_reachable (h b bs hbs)
    obtain ⟨data, hdata⟩ := foldlM_processUe dumpStats dateTime bs.ueConfig.ueConfig
      (fun c hc => hinv.exists_ueMacInfo hc) acc.2
    rw [List.foldlM_cons, processBs, Rib.getBs, hbs]
    simp only [hdata]
    exact ih (fun d hd => hids d (List.mem_cons_of_mem _ hd)) _

theorem processStats_ok (h : BsReachable r) (dumpStats : UeMacRibInfo → String)
    (dateTime : String) (batch : StatsBatch) :
    ∃ res, processStats dumpStats dateTime r batch = .ok res := by
  obtain ⟨⟨ueCount, data⟩, hdata⟩ := foldlM_processBs h dumpStats dateTime
    r.getAvailableBaseStations (fun b hb => exists_bs_of_available hb) (0, batch.data)
  rw [processStats, hdata]
  by_cases hfull : batch.currentNo + ueCount ≥ batch.maxNo
  · exact ⟨_, if_pos hfull⟩
  · exact ⟨_, if_neg hfull⟩

/-- In every reachable state the listed UEs have different RNTIs, which are the keys of the MAC
state, and no MAC state is null; and the two applications walk over a RIB of such base stations
without a fault. -/
theorem ueState_of_reachable :
    (∀ bs : EnbRibInfo, bs.Reachable → bs.UeInv) ∧
    ∀ r : Rib, BsReachable r →
      (∀ t, ∀ b ∈ r.getAvailableBaseStations, ∃ dump, recordChunk r t b = .ok dump) ∧
      ∀ dumpStats dateTime batch, ∃ res, processStats dumpStats dateTime r batch = .ok res :=
  ⟨fun _ h => EnbRibInfo.ueInv_of_reachable h, fun _ h =>
    ⟨fun t _ hb => recordChunk_ok h t hb, fun dumpStats dateTime batch =>
      processStats_ok h dumpStats dateTime batch⟩⟩

/-- A UE becomes active, is updated and reports statistics. -/
def activeUe : List EnbRibInfo.Input :=
  [.ueStateChange { type := some 1, config := some { rnti := some 7 } },
   .ueConfigReply { ueConfig := [{ rnti := some 7, imsi := some 1 }] },
   .statsReply { ueReport := [{ rnti := some 7, flags := some 2, phr := some 3 }] }]

theorem recordChunk_activeUe :
    ∃ bs, run EnbRibInfo.step { bsId := 1, agents := ∅ } activeUe = .ok bs ∧ bs.UeInv ∧
      ∃ dump, recordChunk { eNBConfigs := Std.ExtTreeMap.insert ∅ 1 bs } 0 1 = .ok dump := by
  have hmake : EnbRibInfo.make 1 ∅ = .ok { bsId := 1, agents := ∅ } := rfl
  have hok : ∃ bs, run EnbRibInfo.step { bsId := 1, agents := ∅ } activeUe = .ok bs :=
    ⟨_, rfl⟩
  obtain ⟨bs, hbs⟩ := hok
  have hreach : bs.Reachable := ⟨1, ∅, _, activeUe, hmake, hbs⟩
  have hrib : BsReachable { eNBConfigs := Std.ExtTreeMap.insert ∅ 1 bs } := by
    intro b bs' hb
    rw [Std.ExtTreeMap.getElem?_insert] at hb
    split at hb
    · exact Option.some.inj hb ▸ hreach
    · simp at hb
  refine ⟨bs, hbs, ueState_of_reachable.1 bs hreach, ?_⟩
  exact (ueState_of_reachable.2 _ hrib).1 0 1 (by
    simp [Rib.getAvailableBaseStations])

end FlexRan.App.Log
