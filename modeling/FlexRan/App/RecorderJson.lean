import FlexRan.App.RecorderFile
import FlexRan.Rib.JsonText

/-!
# The JSON files of the recorder

The file of a job that is not binary is an array with one document for each chunk.  A chunk without
base stations is left out, but not the comma before it, so that a dump with such a chunk next to
others makes no JSON text at all.

## Main definitions

* `writeJson`, `writeJsonChunk`, `getUeStats`: the writer.
* `DescribesChunk`: the document of a chunk.
* `WritesArray`: the file is the array of the documents of the chunks that are not empty.
-/
namespace FlexRan.App.Log

open Lib Protocol Rib

variable (p : MessagePrinter) (localtime : ℤ → Tm) (type : JobType)

/-! ## Writer -/

def getUeStats (ueMacHarqInfos : List MacHarqInfo) : List String :=
  ueMacHarqInfos.map fun ueMacHarqInfo =>
    let ueConfig := ueMacHarqInfo.macStatsReport
    UeMacRibInfo.formatStatsToJson (ueConfig.rnti.getD 0)
      (p.ueStatsReport.messageToJsonString ueConfig) fun i => harqText (ueMacHarqInfo.harqInfos i)

/-- The texts of the configurations. The agents are not recorded. -/
def chunkConfigurations (chunk : Chunk) : List String :=
  chunk.toList.map fun e =>
    EnbRibInfo.formatConfigsToJson e.1 "\"null\""
      (p.enbConfigReply.messageToJsonString e.2.enbConfig)
      (p.ueConfigReply.messageToJsonString e.2.ueConfig)
      (p.lcConfigReply.messageToJsonString e.2.lcConfig)

def chunkStats (chunk : Chunk) : List String :=
  chunk.toList.map fun e =>
    EnbRibInfo.formatMacStatsToJson e.1 (getUeStats p e.2.ueMacHarqInfos)

/-- Each loop over the chunk looks for an id as long as it has only seen 0. -/
def firstBsId (bsId : UInt64) (chunk : Chunk) : UInt64 :=
  chunk.toList.foldl (fun bsId e => if bsId = 0 then e.1 else bsId) bsId

/-- `write_json_chunk`. -/
def writeJsonChunk (chunk : Chunk) : Except Abort String :=
  if chunk.isEmpty then .ok "" else
    let (bsId, confs) := if type ≠ .stats
      then (firstBsId 0 chunk, formatENBConfigurationsToJson (chunkConfigurations p chunk))
      else (0, "")
    let (bsId, stats) := if type ≠ .enb
      then (firstBsId bsId chunk, formatMacStatsToJson (chunkStats p chunk))
      else (bsId, "")
    match chunk[bsId]? with
    | none => .error .outOfRange
    | some bd => .ok (formatStatisticsToJson (formatDateTime localtime bd.time) confs stats)

/-- The bytes of a text. -/
def textBytes (text : String) : List UInt8 := text.toUTF8.data.toList

def Files.write (files : Files) (filename text : String) : Files :=
  { files with content := Function.update files.content filename (textBytes text) }

/-- The number of chunks written. -/
def writeJson (info : JobInfo) (dump : Dump) (files : Files) : Except Abort (UInt64 × Files) :=
  if files.canOpen info.filename then do
    let texts ← dump.val.mapM (writeJsonChunk p localtime info.type)
    return (UInt64.ofNat dump.val.length,
      files.write info.filename ("[" ++ joinComma texts ++ "]"))
  else return (0, files)

/-! ## Documents -/

/-- The configurations of a chunk, one for each base station. -/
def recordConfigs (chunk : Chunk) : List Json :=
  chunk.toList.map fun e =>
    configsJson p e.1 (.string "null") e.2.enbConfig e.2.ueConfig e.2.lcConfig

/-- The statistics of a chunk, one for each base station, with one entry for each UE. -/
def recordStats (chunk : Chunk) : List Json :=
  chunk.toList.map fun e => macStatsJson e.1 (e.2.ueMacHarqInfos.map fun ue =>
    ueStatsJson p (ue.macStatsReport.rnti.getD 0) ue.macStatsReport ue.harqInfos)

/-- The time is that of one of the records. -/
def DescribesChunk (chunk : Chunk) (j : Json) : Prop :=
  ∃ (b : UInt64) (bd : BsDump), chunk[b]? = some bd ∧
    j = statisticsJson (formatDateTime localtime bd.time)
      (if type ≠ .stats then some (recordConfigs p chunk) else none)
      (if type ≠ .enb then some (recordStats p chunk) else none)

/-- After the call, the file holds the documents of the chunks with base stations, in order. -/
def WritesArray (info : JobInfo) (dump : Dump) (files : Files) : Prop :=
  ∃ n files' text docs, writeJson p localtime info dump files = .ok (n, files') ∧
    files'.content info.filename = textBytes text ∧
    List.Forall₂ (DescribesChunk p localtime info.type)
      (dump.val.filter fun chunk => !chunk.isEmpty) docs ∧
    (Json.array docs).Text text

/-! ## The text of a chunk -/

variable {p localtime type} {chunk : Chunk}

theorem partText_configurations :
    PartText (some (recordConfigs p chunk))
      (formatENBConfigurationsToJson (chunkConfigurations p chunk)) := by
  refine ⟨text_formatObjects ?_, formatObjects_ne_empty _⟩
  rw [recordConfigs, chunkConfigurations, List.forall₂_map_left_iff, List.forall₂_map_right_iff]
  exact List.forall₂_same.mpr fun e _ =>
    text_configs e.1 (text_string (by decide +kernel)) e.2.enbConfig e.2.ueConfig e.2.lcConfig

theorem partText_stats :
    PartText (some (recordStats p chunk)) (formatMacStatsToJson (chunkStats p chunk)) := by
  refine ⟨text_formatObjects ?_, formatObjects_ne_empty _⟩
  rw [recordStats, chunkStats, List.forall₂_map_left_iff, List.forall₂_map_right_iff]
  refine List.forall₂_same.mpr fun e _ => text_macStats e.1 ?_
  rw [getUeStats, List.forall₂_map_left_iff, List.forall₂_map_right_iff]
  exact List.forall₂_same.mpr fun ue _ => text_formatStatsToJson _ _ _

/-- The loop ends with the id it started from or with one of the chunk, and it does not end with
0 unless all ids are 0. -/
theorem foldl_firstBsId (l : List (UInt64 × BsDump)) (bsId : UInt64) :
    l.foldl (fun bsId e => if bsId = 0 then e.1 else bsId) bsId = bsId ∧ (bsId = 0 → l = []) ∨
      l.foldl (fun bsId e => if bsId = 0 then e.1 else bsId) bsId ∈ l.map Prod.fst := by
  induction l generalizing bsId with
  | nil => exact .inl ⟨rfl, fun _ => rfl⟩
  | cons e l ih =>
    rw [List.foldl_cons, List.map_cons]
    by_cases hzero : bsId = 0
    · rw [if_pos hzero]
      rcases ih e.1 with ⟨heq, _⟩ | hmem
      · exact .inr (List.mem_cons.mpr (.inl heq))
      · exact .inr (List.mem_cons_of_mem _ hmem)
    · rw [if_neg hzero]
      rcases ih bsId with ⟨heq, _⟩ | hmem
      · exact .inl ⟨heq, fun h => absurd h hzero⟩
      · exact .inr (List.mem_cons_of_mem _ hmem)

theorem firstBsId_mem {bsId : UInt64} (h : bsId = 0 ∨ bsId ∈ chunk) (hne : chunk.isEmpty = false) :
    firstBsId bsId chunk ∈ chunk := by
  rcases foldl_firstBsId chunk.toList bsId with ⟨heq, hzero⟩ | hmem
  · rw [firstBsId, heq]
    refine h.resolve_left fun h0 => ?_
    have hempty := hzero h0
    rw [← Std.ExtTreeMap.isEmpty_toList, hempty] at hne
    exact absurd hne (by simp)
  · rwa [Std.ExtTreeMap.map_fst_toList_eq_keys, Std.ExtTreeMap.mem_keys] at hmem

theorem writeJsonChunk_of_isEmpty (h : chunk.isEmpty = true) :
    writeJsonChunk p localtime type chunk = .ok "" := by
  rw [writeJsonChunk, if_pos h]

theorem writeJsonChunk_of_nonempty (p : MessagePrinter) (localtime : ℤ → Tm) (type : JobType)
    (hne : chunk.isEmpty = false) :
    ∃ s j, writeJsonChunk p localtime type chunk = .ok s ∧
      DescribesChunk p localtime type chunk j ∧ j.Text s := by
  have hfirst : firstBsId 0 chunk ∈ chunk := firstBsId_mem (.inl rfl) hne
  have hsecond : firstBsId (firstBsId 0 chunk) chunk ∈ chunk := firstBsId_mem (.inr hfirst) hne
  -- with the record that was found, the document is put together from its parts
  have hdocument : ∀ {b confs stats}, b ∈ chunk →
      PartText (if type ≠ .stats then some (recordConfigs p chunk) else none) confs →
      PartText (if type ≠ .enb then some (recordStats p chunk) else none) stats →
      ∃ s j, (match chunk[b]? with
        | none => .error .outOfRange
        | some bd => .ok (formatStatisticsToJson (formatDateTime localtime bd.time) confs stats) :
          Except Abort String) = .ok s ∧ DescribesChunk p localtime type chunk j ∧ j.Text s := by
    intro b confs stats hb hconfs hstats
    rw [Std.ExtTreeMap.mem_iff_isSome_getElem?] at hb
    obtain ⟨bd, hbd⟩ := Option.isSome_iff_exists.mp hb
    rw [hbd]
    refine ⟨_, _, rfl, ⟨b, bd, hbd, rfl⟩,
      text_formatStatisticsToJson (plain_formatDateTime _ _) hconfs hstats ?_⟩
    cases type <;> simp
  rw [writeJsonChunk, if_neg (by simp [hne])]
  cases type with
  | all => exact hdocument hsecond partText_configurations partText_stats
  | enb => exact hdocument hfirst partText_configurations rfl
  | stats => exact hdocument hfirst rfl partText_stats
  | bin => exact hdocument hsecond partText_configurations partText_stats

/-! ## The text of a dump -/

section Array

variable {chunks : List Chunk}

/-- The texts of the chunks are empty or those of the documents. -/
theorem mapM_writeJsonChunk (p : MessagePrinter) (localtime : ℤ → Tm) (type : JobType)
    (chunks : List Chunk) :
    ∃ texts docs, chunks.mapM (writeJsonChunk p localtime type) = .ok texts ∧
      texts.length = chunks.length ∧
      ("" ∈ texts ↔ ∃ chunk ∈ chunks, chunk.isEmpty = true) ∧
      List.Forall₂ (DescribesChunk p localtime type)
        (chunks.filter fun chunk => !chunk.isEmpty) docs ∧
      List.Forall₂ Json.Text docs (texts.filter (· ≠ "")) := by
  induction chunks with
  | nil => exact ⟨[], [], rfl, rfl, by simp, .nil, .nil⟩
  | cons chunk chunks ih =>
    obtain ⟨texts, docs, hmap, hlength, hempty, hdocs, htexts⟩ := ih
    cases hchunk : chunk.isEmpty with
    | true =>
      refine ⟨"" :: texts, docs, ?_, congrArg _ hlength,
        iff_of_true (by simp) ⟨chunk, by simp, hchunk⟩, ?_, by simpa using htexts⟩
      · rw [List.mapM_cons, writeJsonChunk_of_isEmpty hchunk, hmap]
        rfl
      · rw [List.filter_cons_of_neg (by simp [hchunk])]
        exact hdocs
    | false =>
      obtain ⟨s, j, hs, hj, htext⟩ := writeJsonChunk_of_nonempty p localtime type hchunk
      refine ⟨s :: texts, j :: docs, ?_, congrArg _ hlength, ?_, ?_, ?_⟩
      · rw [List.mapM_cons, hs, hmap]
        rfl
      · simp only [List.mem_cons, exists_eq_or_imp, Ne.symm htext.ne_empty, hempty, hchunk,
          Bool.false_eq_true]
      · rw [List.filter_cons_of_pos (by simp [hchunk])]
        exact .cons hj hdocs
      · rw [List.filter_cons_of_pos (by simpa using htext.ne_empty)]
        exact .cons htext htexts

theorem textBytes_injective : Function.Injective textBytes := by
  intro s t h
  have hdata : s.toUTF8.data = t.toUTF8.data := Array.toList_inj.mp h
  exact String.toByteArray_inj.mp (ByteArray.ext hdata)

variable {info : JobInfo} {dump : Dump} {files : Files}

theorem writeJson_eq {texts : List String} (hopen : files.canOpen info.filename = true)
    (hmap : dump.val.mapM (writeJsonChunk p localtime info.type) = .ok texts) :
    writeJson p localtime info dump files = .ok (UInt64.ofNat dump.val.length,
      files.write info.filename ("[" ++ joinComma texts ++ "]")) := by
  rw [writeJson, if_pos hopen, hmap]
  rfl

theorem writesArray_of_nonempty_or_short (p : MessagePrinter) (localtime : ℤ → Tm)
    (hopen : files.canOpen info.filename = true)
    (hcond : (∀ chunk ∈ dump.val, chunk.isEmpty = false) ∨ dump.val.length ≤ 1) :
    WritesArray p localtime info dump files := by
  obtain ⟨texts, docs, hmap, hlength, hempty, hdocs, htexts⟩ :=
    mapM_writeJsonChunk p localtime info.type dump.val
  refine ⟨_, _, _, docs, writeJson_eq hopen hmap, Function.update_self _ _ _, hdocs, ?_⟩
  by_cases hgap : "" ∈ texts
  · -- the only chunk is empty, and nothing stands between the brackets
    have hshort : texts.length ≤ 1 := by
      rw [hlength]
      refine hcond.resolve_left fun hall => ?_
      obtain ⟨chunk, hmem, hchunk⟩ := hempty.mp hgap
      exact absurd hchunk (by simp [hall chunk hmem])
    obtain rfl : texts = [""] := by
      cases texts with
      | nil => exact absurd hgap List.not_mem_nil
      | cons t texts =>
        obtain rfl := List.length_eq_zero_iff.mp (Nat.le_zero.mp (Nat.le_of_succ_le_succ hshort))
        rw [List.mem_singleton.mp hgap]
    obtain rfl : docs = [] := List.forall₂_nil_right_iff.mp htexts
    have hnone : (Json.array []).Text ("[" ++ joinComma [] ++ "]") := text_array .nil
    exact hnone
  · have hall : texts.filter (· ≠ "") = texts :=
      List.filter_eq_self.mpr fun s hs => by simpa using fun h : s = "" => hgap (h ▸ hs)
    rw [hall] at htexts
    exact text_array htexts

/-- What is written then is no JSON text. -/
theorem not_writesArray_of_empty (p : MessagePrinter) (localtime : ℤ → Tm) {chunk : Chunk}
    (hopen : files.canOpen info.filename = true) (hmem : chunk ∈ dump.val)
    (hchunk : chunk.isEmpty = true) (hlong : 2 ≤ dump.val.length) :
    ¬ WritesArray p localtime info dump files := by
  obtain ⟨texts, docs, hmap, hlength, hempty, -, htexts⟩ :=
    mapM_writeJsonChunk p localtime info.type dump.val
  rintro ⟨n, files', text, docs', hrun, hcontent, -, htext⟩
  obtain ⟨-, rfl⟩ := Prod.mk.inj (Except.ok.inj ((writeJson_eq hopen hmap).symm.trans hrun))
  obtain rfl : "[" ++ joinComma texts ++ "]" = text :=
    textBytes_injective (by simpa [Files.write] using hcontent)
  refine not_text_of_mem_empty (fun s hs hne => ?_) (hempty.mpr ⟨chunk, hmem, hchunk⟩)
    (hlength ▸ hlong) _ htext
  exact exists_text_of_mem htexts (List.mem_filter.mpr ⟨hs, by simpa using hne⟩)

/-- **The file is well formed unless the dump has an empty chunk next to other chunks.** -/
theorem writesArray_iff (p : MessagePrinter) (localtime : ℤ → Tm) {info : JobInfo} {dump : Dump}
    {files : Files} (hopen : files.canOpen info.filename = true) :
    WritesArray p localtime info dump files ↔
      (∀ chunk ∈ dump.val, chunk.isEmpty = false) ∨ dump.val.length ≤ 1 := by
  refine ⟨fun h => ?_, writesArray_of_nonempty_or_short p localtime hopen⟩
  by_contra hnot
  obtain ⟨hsome, hlong⟩ := not_or.mp hnot
  refine hsome fun chunk hmem => ?_
  by_contra hchunk
  exact not_writesArray_of_empty p localtime hopen hmem (by simpa using hchunk) (by omega) h

/-- A job of two milliseconds. -/
def jsonJob : JobInfo where
  msStart := 0
  msEnd := 2
  filename := "/tmp/record.0.json"
  type := .all

/-- A base station that has not sent anything yet. -/
def newBs : Chunk :=
  (∅ : Chunk).insert 1
    { time := 0, enbConfig := {}, ueConfig := {}, lcConfig := {}, ueMacHarqInfos := [] }

/-- Another base station, with a UE that has reported statistics. -/
def twoBss : Chunk :=
  newBs.insert 2
    { time := 1000000, enbConfig := {}, ueConfig := { ueConfig := [{ rnti := some 7 }] }
      lcConfig := {}
      ueMacHarqInfos :=
        [{ macStatsReport := { rnti := some 7 }, harqInfos := fun i => decide (i.val = 0) }] }

theorem writesArray_twoBss :
    WritesArray .rntis epochTime jsonJob ⟨[newBs, twoBss], by decide⟩
      { content := fun _ => [], canOpen := fun _ => true } :=
  (writesArray_iff .rntis epochTime rfl).mpr (.inl (by decide +kernel))

/-- The base station connects in the second millisecond of the job: the text starts with a
comma. -/
theorem not_writesArray_lateBs :
    ¬ WritesArray .braces epochTime jsonJob ⟨[∅, newBs], by decide⟩
      { content := fun _ => [], canOpen := fun _ => true } :=
  not_writesArray_of_empty .braces epochTime rfl (List.mem_cons_self) (by simp) (by decide)

end Array

end FlexRan.App.Log
