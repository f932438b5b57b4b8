import FlexRan.App.Recorder
import FlexRan.App.RecorderJson

/-!
# Recordings

A job that has come to its end is written by a thread of its own.  The threads end in any order,
next to further requests and ticks, and a job that is written can be downloaded under the id its
request was answered with.  A request also opens the file of its job, so that it is empty until the
job is written.

With one job at a time every job that has ended is with its thread or can be downloaded, and what
is downloaded is the file of what was recorded.  A binary file is read as it was recorded if the
counts fit their 16 bits; the other files are arrays of documents unless a tick without base
stations was recorded next to others.

## Main definitions

* `Archive`: the recorder with its threads, the finished jobs and the files.
* `archiveStep`: requests, ticks and ends of threads in any order.
* `obtainJsonStats`: the download.
* `IsFileOf`: what a file holds after its job has been written.
-/
namespace FlexRan.App.Log

open Lib Protocol Rib

/-! ## The recorder with its threads -/

structure Archive where
  recorder : Recorder := {}
  /-- The threads that have not ended, with what was moved to them. -/
  writers : List (JobInfo × List Chunk) := []
  finishedJobs : List JobInfo := []
  files : Files

/-- How messages and times are written. -/
structure Formats where
  pb : Protobuf
  printer : MessagePrinter
  localtime : ℤ → Tm

/-- An `ofstream` is opened and closed. -/
def Files.touch (files : Files) (filename : String) : Files :=
  if files.canOpen filename then
    { files with content := Function.update files.content filename [] }
  else files

/-- The first tick of a job that is requested now. -/
def Recorder.nextStart (s : Recorder) : ℕ :=
  match s.currentJob with
  | some job => job.msEnd
  | none => s.lastTick + 2

/-- The file a request opens, if it gets there. -/
def Recorder.opens (s : Recorder) (duration : ℕ) (type : String) : Option String :=
  match jobType? type with
  | none => none
  | some jt => if duration < 1 then none else some (jobFilename s.nextStart jt)

inductive ArchiveEvent
  | startMeas (r : SoundRib) (now : Int64) (duration : UInt32) (type : String) (reserves : Bool)
  | tick (r : SoundRib) (now : Int64)
  | tickDone
  /-- The thread at this place ends. -/
  | writerEnds (i : ℕ)

/-- A request as the file system and the allocator let it pass. -/
def Archive.measRequest (a : Archive) (duration : UInt32) (type : String) (reserves : Bool) :
    MeasRequest where
  duration := duration.toNat
  type := type
  canOpen := (a.recorder.opens duration.toNat type).any a.files.canOpen
  reserves := reserves

/-- The files after a request has opened the one of its job. -/
def Archive.touched (a : Archive) (duration : UInt32) (type : String) : Files :=
  match a.recorder.opens duration.toNat type with
  | some filename => a.files.touch filename
  | none => a.files

/-- What the event is to the recorder. -/
def Archive.recorderEvent? (a : Archive) : ArchiveEvent → Option RecorderEvent
  | .startMeas r now duration type reserves =>
    some (.startMeas r now (a.measRequest duration type reserves))
  | .tick r now => some (.tick r now)
  | .tickDone => some .tickDone
  | .writerEnds _ => none

def Archive.opened (a : Archive) : ArchiveEvent → Files
  | .startMeas _ _ duration type _ => a.touched duration type
  | _ => a.files

section Step

variable (f : Formats)

/-- The file a thread writes. -/
def writeFile (info : JobInfo) (dump : Dump) (files : Files) : Except Abort Files :=
  if info.type = .bin then .ok (writeBinary f.pb info dump files).2
  else Prod.snd <$> writeJson f.printer f.localtime info dump files

/-- `writer_method`, to its end. A vector can not have got as long. -/
def writerMethod (i : ℕ) (a : Archive) : Except Abort Archive :=
  match a.writers[i]? with
  | none => .ok a
  | some (info, dump) =>
    if h : dump.length < 2 ^ 64 then do
      let files ← writeFile f info ⟨dump, h⟩ a.files
      return { a with
        writers := a.writers.eraseIdx i, finishedJobs := a.finishedJobs ++ [info]
        files := files }
    else .error (.fault .badAlloc)

/-- The recorder moves jobs to new threads. -/
def archiveStep (a : Archive) (e : ArchiveEvent) : Except Abort Archive :=
  match e, a.recorderEvent? e with
  | _, some event => do
    let recorder ← (recorderStep a.recorder event).mapError Abort.fault
    return { a with
      recorder := recorder
      writers := a.writers ++ recorder.written.drop a.recorder.written.length
      files := a.opened e }
  | .writerEnds i, none => writerMethod f i a
  | _, none => .ok a

end Step

/-! ## Downloads -/

def Archive.getJobInfo (a : Archive) (id : String) : Option JobInfo :=
  a.finishedJobs.find? fun ji => id == toString ji.msStart

/-- The answer to a download. -/
inductive Download
  | refused (error : String)
  | content (bytes : List UInt8)

def Archive.obtainJsonStats (a : Archive) (id : String) : Download :=
  match a.getJobInfo id with
  | none => .refused "\x7b\"error\":\"Invalid ID (no such job)\"\x7d"
  | some info =>
    if a.files.canOpen info.filename then .content (a.files.content info.filename)
    else .refused
      ("\x7b\"error\":\"Corresponding file " ++ info.filename ++ " could not be opened\"\x7d")

/-! ## What a file holds -/

section File

variable {f : Formats} {info : JobInfo} {files : Files} {dump : List Chunk}

def binaryBytes (pb : Protobuf) (dump : List Chunk) : List UInt8 :=
  leBytes 8 (UInt64.ofNat dump.length).toNat ++ dump.flatMap (writeBinaryChunk pb)

/-- The bytes a thread writes. -/
def IsFileOf (f : Formats) (info : JobInfo) (dump : List Chunk) (bytes : List UInt8) : Prop :=
  if info.type = .bin then bytes = binaryBytes f.pb dump
  else ∃ texts, dump.mapM (writeJsonChunk f.printer f.localtime info.type) = .ok texts ∧
    bytes = textBytes ("[" ++ joinComma texts ++ "]")

/-- The counts fit their fields, and the messages can be serialized and parsed. -/
def Recordable (pb : Protobuf) (chunk : Chunk) : Prop :=
  chunk.size ≤ 65535 ∧ ∀ (b : UInt64) bd, chunk[b]? = some bd →
    pb.RoundTrips bd ∧ bd.ueMacHarqInfos.length ≤ 65535

/-- The array of the documents of the ticks that found base stations. -/
def IsArrayOf (f : Formats) (type : JobType) (dump : List Chunk) (bytes : List UInt8) : Prop :=
  ∃ text docs, bytes = textBytes text ∧
    List.Forall₂ (DescribesChunk f.printer f.localtime type)
      (dump.filter fun chunk => !chunk.isEmpty) docs ∧
    (Json.array docs).Text text

/-- What is found in the file of a job. -/
structure IsRecordingOf (f : Formats) (info : JobInfo) (dump : List Chunk)
    (bytes : List UInt8) : Prop where
  file : IsFileOf f info dump bytes
  bin : info.type = .bin → (∀ chunk ∈ dump, Recordable f.pb chunk) →
    ∀ files filename, files.canOpen filename = true → files.content filename = bytes →
      readBinary f.pb filename files = .ok dump
  json : info.type ≠ .bin → (IsArrayOf f info.type dump bytes ↔
    (∀ chunk ∈ dump, chunk.isEmpty = false) ∨ dump.length ≤ 1)

theorem readBinary_of_binaryBytes {pb : Protobuf} {filename : String}
    (hlength : dump.length < 2 ^ 64) (h : ∀ chunk ∈ dump, Recordable pb chunk)
    (hopen : files.canOpen filename = true)
    (hcontent : files.content filename = binaryBytes pb dump) :
    readBinary pb filename files = .ok dump := by
  have hn : (UInt64.ofNat dump.length).toNat = dump.length := UInt64.toNat_ofNat_of_lt' hlength
  have hdump : Reader.Decodes (readNumber 8 >>= fun n => Reader.times (readBinaryChunk pb) n)
      (binaryBytes pb dump) dump := by
    refine (decodes_uint64 (UInt64.ofNat dump.length)).bind ?_
    rw [hn]
    exact Reader.decodes_times fun chunk hchunk =>
      decodes_readBinaryChunk (h chunk hchunk).1 (h chunk hchunk).2
  have hrun := hdump []
  rw [List.append_nil] at hrun
  rw [readBinary, if_pos hopen, hcontent]
  simp only [hrun]
  rfl

/-- A file is an array if the writer has written one. -/
theorem isArrayOf_iff (hlength : dump.length < 2 ^ 64) {texts : List String}
    (hmap : dump.mapM (writeJsonChunk f.printer f.localtime info.type) = .ok texts) :
    IsArrayOf f info.type dump (textBytes ("[" ++ joinComma texts ++ "]")) ↔
      WritesArray f.printer f.localtime info ⟨dump, hlength⟩ ⟨fun _ => [], fun _ => true⟩ := by
  have hrun : writeJson f.printer f.localtime info ⟨dump, hlength⟩
      ⟨fun _ => [], fun _ => true⟩ = _ := writeJson_eq rfl hmap
  constructor
  · rintro ⟨text, docs, hbytes, hdocs, htext⟩
    exact ⟨_, _, text, docs, hrun, by simp [Files.write, hbytes], hdocs, htext⟩
  · rintro ⟨n, files', text, docs, hrun', hcontent, hdocs, htext⟩
    obtain ⟨-, rfl⟩ := Prod.mk.inj (Except.ok.inj (hrun.symm.trans hrun'))
    exact ⟨text, docs, by simpa [Files.write] using hcontent, hdocs, htext⟩

theorem IsFileOf.isRecordingOf {bytes : List UInt8} (h : IsFileOf f info dump bytes)
    (hlength : dump.length < 2 ^ 64) : IsRecordingOf f info dump bytes where
  file := h
  bin htype hrecordable files filename hopen hcontent := by
    rw [IsFileOf, if_pos htype] at h
    exact readBinary_of_binaryBytes hlength hrecordable hopen (hcontent.trans h)
  json htype := by
    rw [IsFileOf, if_neg htype] at h
    obtain ⟨texts, hmap, rfl⟩ := h
    have hopen : (⟨fun _ => [], fun _ => true⟩ : Files).canOpen info.filename = true := rfl
    rw [isArrayOf_iff hlength hmap]
    refine ⟨fun harray => ?_, fun hcond =>
      writesArray_of_nonempty_or_short f.printer f.localtime hopen hcond⟩
    by_contra hnot
    obtain ⟨hsome, hlong⟩ := not_or.mp hnot
    refine hsome fun chunk hmem => ?_
    by_contra hchunk
    exact not_writesArray_of_empty f.printer f.localtime hopen hmem (by simpa using hchunk)
      (by dsimp only; omega) harray

/-- A thread writes its own file. -/
theorem writeFile_ok (f : Formats) (hopen : files.canOpen info.filename = true)
    (hlength : dump.length < 2 ^ 64) :
    ∃ bytes, IsFileOf f info dump bytes ∧ writeFile f info ⟨dump, hlength⟩ files =
      .ok { files with content := Function.update files.content info.filename bytes } := by
  by_cases htype : info.type = .bin
  · refine ⟨binaryBytes f.pb dump, ?_, ?_⟩
    · rw [IsFileOf, if_pos htype]
    · rw [writeFile, if_pos htype, writeBinary, if_pos hopen]
      rfl
  · obtain ⟨texts, docs, hmap, -⟩ := mapM_writeJsonChunk f.printer f.localtime info.type dump
    refine ⟨textBytes ("[" ++ joinComma texts ++ "]"), ?_, ?_⟩
    · rw [IsFileOf, if_neg htype]
      exact ⟨texts, hmap, rfl⟩
    · rw [writeFile, if_neg htype, writeJson_eq hopen hmap]
      rfl

end File

/-! ## Requests and ticks -/

section Steps

variable {r : Rib} {now : Int64} {s t : Recorder}

/-- What is written stays written. -/
theorem prefix_written_of_tick {conn ms : ℕ} (h : tick r now conn ms s = .ok t) :
    s.written <+: t.written := by
  rw [tick] at h
  split at h
  · exact Except.ok.inj h ▸ List.prefix_refl _
  · obtain ⟨m, -, h⟩ := bind_eq_ok_iff.mp h
    split at h
    · cases h
    · split at h
      · exact Except.ok.inj h ▸ List.prefix_append _ _
      · exact Except.ok.inj h ▸ List.prefix_refl _

theorem prefix_written_of_recorderStep {e : RecorderEvent} (h : recorderStep s e = .ok t) :
    s.written <+: t.written := by
  cases e with
  | startMeas r now req =>
    rw [recorderStep] at h
    rcases startMeas_cases r.2 now req s with ⟨-, heq⟩ | ⟨-, -, heq⟩ | ⟨jt, start, -, -, -, heq⟩ <;>
    · rw [heq] at h
      exact Except.ok.inj h ▸ List.prefix_refl _
  | tick r now =>
    rw [recorderStep] at h
    split at h
    · exact Except.ok.inj h ▸ List.prefix_refl _
    · obtain ⟨m, -, h⟩ := bind_eq_ok_iff.mp h
      obtain ⟨u, hu, h⟩ := bind_eq_ok_iff.mp h
      have hslot : ∀ c start v w, s.written <+: v.written → tickSlot r now c start v = .ok w →
          s.written <+: w.written := by
        intro c start v w hv hw
        rw [tickSlot] at hw
        split at hw
        · exact hv.trans (prefix_written_of_tick hw)
        · exact Except.ok.inj hw ▸ hv
      have hprefix : s.written <+: u.written := emit_invariant hslot (List.prefix_refl _) hu
      exact Except.ok.inj h ▸ hprefix
  | tickDone =>
    rw [recorderStep] at h
    split at h <;> exact Except.ok.inj h ▸ List.prefix_refl _

/-- Jobs are accepted by requests only, for the file that has been opened. -/
theorem mem_accepted_of_startMeas {req : MeasRequest} {id : Option String}
    (h : startMeas r now req s = .ok (id, t)) {job : JobInfo} (hjob : job ∈ t.accepted) :
    job ∈ s.accepted ∨ s.opens req.duration req.type = some job.filename ∧ req.canOpen = true ∧
      job.msEnd - job.msStart = req.duration := by
  rw [startMeas] at h
  rw [Recorder.opens]
  cases htype : jobType? req.type with
  | none =>
    rw [htype] at h
    obtain ⟨-, rfl⟩ := Prod.mk.inj (Except.ok.inj h)
    exact .inl hjob
  | some jt =>
    rw [htype] at h
    dsimp only at h ⊢
    split at h
    · obtain ⟨-, rfl⟩ := Prod.mk.inj (Except.ok.inj h)
      exact .inl hjob
    · rename_i hduration
      obtain ⟨-, -, h⟩ := bind_eq_ok_iff.mp h
      rw [if_neg hduration]
      split at h
      · obtain ⟨-, rfl⟩ := Prod.mk.inj (Except.ok.inj h)
        exact .inl hjob
      · rename_i hopen
        split at h
        · obtain ⟨-, rfl⟩ := Prod.mk.inj (Except.ok.inj h)
          exact .inl hjob
        · obtain ⟨-, rfl⟩ := Prod.mk.inj (Except.ok.inj h)
          refine (List.mem_append.mp hjob).imp_right fun hnew => ?_
          obtain rfl := List.mem_singleton.mp hnew
          exact ⟨rfl, by simpa using hopen, Nat.add_sub_cancel_left _ _⟩

theorem mem_accepted_of_recorderStep (h : s.Inv) {e : RecorderEvent}
    (hstep : recorderStep s e = .ok t) {job : JobInfo} (hjob : job ∈ t.accepted) :
    job ∈ s.accepted ∨ ∃ r now req, e = .startMeas r now req ∧
      s.opens req.duration req.type = some job.filename ∧ req.canOpen = true ∧
      job.msEnd - job.msStart = req.duration := by
  cases e with
  | startMeas r now req =>
    rw [recorderStep] at hstep
    cases hstart : startMeas r now req s with
    | error _ =>
      rw [hstart] at hstep
      cases hstep
    | ok u =>
      rw [hstart] at hstep
      obtain rfl := Except.ok.inj hstep
      exact (mem_accepted_of_startMeas hstart hjob).imp_right fun hnew => ⟨r, now, req, rfl, hnew⟩
  | tick r now =>
    refine .inl ?_
    cases hticking : s.ticking with
    | true =>
      rw [recorderStep, if_pos hticking] at hstep
      exact Except.ok.inj hstep ▸ hjob
    | false =>
      obtain ⟨u, _, hu, -, haccepted, -⟩ := h.tick hticking r now
      obtain rfl := Except.ok.inj (hu.symm.trans hstep)
      exact haccepted ▸ hjob
  | tickDone =>
    refine .inl ?_
    rw [recorderStep] at hstep
    split at hstep <;>
    · obtain rfl := Except.ok.inj hstep
      exact hjob

/-- A request is for a later time than those before. -/
theorem Recorder.Inv.lt_nextStart (h : s.Inv) {job : JobInfo} (hjob : job ∈ s.accepted) :
    job.msStart < s.nextStart := by
  have hlt := (h.named job hjob).1
  obtain ⟨finished, haccepted, -, hended⟩ := h.history
  rw [haccepted] at hjob
  have hordered := haccepted ▸ h.ordered
  rw [Recorder.nextStart]
  cases hcurrent : s.currentJob with
  | none =>
    rw [hcurrent, Option.toList_none, List.append_nil] at hjob
    have hchunks : s.chunks.length ≤ s.lastTick + 2 := by
      rw [h.clock, h.chunks]
      split <;> omega
    have hend := hended job hjob
    dsimp only
    omega
  | some current =>
    rw [hcurrent, Option.toList_some] at hjob hordered
    rcases List.mem_append.mp hjob with hjob | hjob
    · have hbefore := (List.pairwise_append.mp hordered).2.2 job hjob current (by simp)
      have hcurrent' := (h.named current (h.mem_accepted hcurrent)).1
      dsimp only
      omega
    · exact List.mem_singleton.mp hjob ▸ hlt

theorem filename_ne_of_opens (h : s.Inv) {duration : ℕ} {type filename : String}
    (hopens : s.opens duration type = some filename) {job : JobInfo} (hjob : job ∈ s.accepted) :
    job.filename ≠ filename := by
  rw [(h.named job hjob).2]
  rw [Recorder.opens] at hopens
  split at hopens
  · exact nomatch hopens
  · split at hopens
    · exact nomatch hopens
    · rintro rfl
      exact absurd (jobFilename_injective (Option.some.inj hopens)) (h.lt_nextStart hjob).ne'

end Steps

section Archive

variable {f : Formats} {a b : Archive} {e : ArchiveEvent} {job : JobInfo}

/-- A request that does not get to the dump has opened no file. -/
theorem touched_of_not_passes {duration : UInt32} {type : String} {reserves : Bool}
    (h : ¬ (a.measRequest duration type reserves).Passes) : a.touched duration type = a.files := by
  rw [Archive.touched]
  cases hopens : a.recorder.opens duration.toNat type with
  | none => rfl
  | some filename =>
    dsimp only
    rw [Files.touch, if_neg]
    intro hopen
    refine h ⟨?_, ?_, by simp [Archive.measRequest, hopens, hopen]⟩
    · rw [Recorder.opens] at hopens
      change (jobType? type).isSome = true
      cases htype : jobType? type with
      | none => rw [htype] at hopens; exact nomatch hopens
      | some jt => rfl
    · rw [Recorder.opens] at hopens
      change 1 ≤ duration.toNat
      split at hopens
      · exact nomatch hopens
      · split at hopens
        · exact nomatch hopens
        · omega

theorem canOpen_opened (a : Archive) (e : ArchiveEvent) :
    (a.opened e).canOpen = a.files.canOpen := by
  cases e with
  | startMeas r now duration type reserves =>
    rw [Archive.opened, Archive.touched]
    split
    · rw [Files.touch]
      split <;> rfl
    · rfl
  | _ => rfl

/-- A request does not touch the files of other jobs. -/
theorem content_opened (h : a.recorder.Inv) (hjob : job ∈ a.recorder.accepted) :
    (a.opened e).content job.filename = a.files.content job.filename := by
  cases e with
  | startMeas r now duration type reserves =>
    rw [Archive.opened, Archive.touched]
    split
    · rename_i filename hopens
      rw [Files.touch]
      split
      · exact Function.update_of_ne (filename_ne_of_opens h hopens hjob) _ _
      · rfl
    · rfl
  | _ => rfl

theorem archiveStep_of_recorderEvent {event : RecorderEvent}
    (h : a.recorderEvent? e = some event) : archiveStep f a e = (do
      let recorder ← (recorderStep a.recorder event).mapError Abort.fault
      return { a with
        recorder := recorder
        writers := a.writers ++ recorder.written.drop a.recorder.written.length
        files := a.opened e }) := by
  rw [archiveStep.eq_def, h]

/-- The event does no harm to the current job. -/
def Archive.OneAtATime (a : Archive) (e : ArchiveEvent) : Prop :=
  ∀ event, a.recorderEvent? e = some event → Log.OneAtATime a.recorder event

/-- Each job that the recorder has handed over is with one thread or has one file. -/
structure Archive.Inv (f : Formats) (a : Archive) : Prop where
  recorder : a.recorder.Inv
  ledger : ∃ done : List (JobInfo × List Chunk), a.finishedJobs = done.map Prod.fst ∧
    (a.writers ++ done).Perm a.recorder.written ∧
    ∀ d ∈ done, IsFileOf f d.1 d.2 (a.files.content d.1.filename)
  openable : ∀ job ∈ a.recorder.accepted, a.files.canOpen job.filename = true
  short : ∀ job ∈ a.recorder.accepted, job.msEnd - job.msStart < 2 ^ 32

theorem Recorder.Inv.mem_written_iff {s : Recorder} (h : s.Inv) {d : JobInfo × List Chunk} :
    d ∈ s.written ↔ d.1 ∈ s.accepted ∧ d.1.msEnd ≤ s.chunks.length ∧
      d.2 = recorded s.chunks d.1 := by
  rw [h.complete.written, List.mem_map]
  constructor
  · rintro ⟨job, hjob, rfl⟩
    obtain ⟨haccepted, hended⟩ := List.mem_filter.mp hjob
    exact ⟨haccepted, of_decide_eq_true hended, rfl⟩
  · rintro ⟨haccepted, hended, hrecorded⟩
    exact ⟨d.1, List.mem_filter.mpr ⟨haccepted, decide_eq_true hended⟩, Prod.ext rfl hrecorded.symm⟩

/-- What is written has files of its own. -/
theorem Recorder.Inv.nodup_filenames {s : Recorder} (h : s.Inv) :
    (s.written.map fun d => d.1.filename).Nodup := by
  rw [h.complete.written, List.map_map]
  refine List.Pairwise.map _ (fun _ _ hne => hne) ?_
  exact (h.complete.separate.sublist List.filter_sublist).imp And.right

namespace Archive.Inv

theorem initial (f : Formats) (files : Files) : Archive.Inv f { files := files } where
  recorder := inv_initial
  ledger := ⟨[], rfl, List.Perm.refl _, by simp⟩
  openable _ h := nomatch h
  short _ h := nomatch h

/-- The file of a new job can be opened, and its length has come as a number of 32 bits. -/
theorem openable_of_recorderStep (h : a.Inv f) {event : RecorderEvent}
    (hevent : a.recorderEvent? e = some event) {t : Recorder}
    (ht : recorderStep a.recorder event = .ok t) (hjob : job ∈ t.accepted) :
    a.files.canOpen job.filename = true ∧ job.msEnd - job.msStart < 2 ^ 32 := by
  rcases mem_accepted_of_recorderStep h.recorder ht hjob with
    hjob | ⟨r, now, req, rfl, hopens, hopen, hduration⟩
  · exact ⟨h.openable job hjob, h.short job hjob⟩
  · cases e with
    | startMeas r now duration type reserves =>
      obtain ⟨-, -, rfl⟩ := RecorderEvent.startMeas.inj (Option.some.inj hevent)
      simp only [Archive.measRequest] at hopens hopen hduration
      rw [hopens] at hopen
      exact ⟨hopen, hduration ▸ duration.toNat_lt⟩
    | tick r now => exact nomatch hevent
    | tickDone => exact nomatch hevent
    | writerEnds i => exact nomatch hevent

/-- A request or a tick. -/
theorem recorderEvent (h : a.Inv f) {event : RecorderEvent}
    (hevent : a.recorderEvent? e = some event) (hG : Log.OneAtATime a.recorder event) :
    ∃ b, archiveStep f a e = .ok b ∧ b.Inv f := by
  obtain ⟨t, ht, hInv⟩ := h.recorder.step event hG
  obtain ⟨more, hmore⟩ := prefix_written_of_recorderStep ht
  obtain ⟨done, hfinished, hperm, hfiles⟩ := h.ledger
  refine ⟨_, by rw [archiveStep_of_recorderEvent hevent, ht]; rfl, hInv, ?_, ?_, ?_⟩
  · -- new jobs are with threads, and the files that are written are not touched
    refine ⟨done, hfinished, ?_, fun d hd => ?_⟩
    · dsimp only
      rw [← hmore, List.drop_left, List.append_assoc]
      refine (List.perm_append_comm.append_left _).trans ?_
      rw [← List.append_assoc]
      exact hperm.append_right _
    · have hwritten : d ∈ a.recorder.written := hperm.subset (List.mem_append_right _ hd)
      dsimp only
      rw [content_opened h.recorder (h.recorder.mem_written_iff.mp hwritten).1]
      exact hfiles d hd
  · intro job hjob
    dsimp only
    rw [canOpen_opened]
    exact (h.openable_of_recorderStep hevent ht hjob).1
  · exact fun job hjob => (h.openable_of_recorderStep hevent ht hjob).2

/-- What a thread has been given is as long as its job. -/
theorem length_of_mem_written (h : a.Inv f) {d : JobInfo × List Chunk}
    (hd : d ∈ a.recorder.written) : d.2.length < 2 ^ 64 := by
  obtain ⟨haccepted, hended, hrecorded⟩ := h.recorder.mem_written_iff.mp hd
  rw [hrecorded, Log.length_recorded hended]
  exact (h.short d.1 haccepted).trans (by decide)

/-- A thread ends. -/
theorem writerEnds (h : a.Inv f) {i : ℕ} {d : JobInfo × List Chunk}
    (hi : a.writers[i]? = some d) :
    ∃ b, archiveStep f a (.writerEnds i) = .ok b ∧ b.Inv f ∧ b.recorder = a.recorder ∧
      b.writers = a.writers.eraseIdx i ∧ b.finishedJobs = a.finishedJobs ++ [d.1] := by
  obtain ⟨job, dump⟩ := d
  obtain ⟨done, hfinished, hperm, hfiles⟩ := h.ledger
  have hmem : (job, dump) ∈ a.writers := List.mem_of_getElem? hi
  have hwritten : (job, dump) ∈ a.recorder.written := hperm.subset (List.mem_append_left _ hmem)
  have hlength : dump.length < 2 ^ 64 := h.length_of_mem_written hwritten
  have haccepted := (h.recorder.mem_written_iff.mp hwritten).1
  obtain ⟨bytes, hbytes, hwrite⟩ := writeFile_ok f (h.openable job haccepted) hlength
  refine ⟨{ a with
      writers := a.writers.eraseIdx i, finishedJobs := a.finishedJobs ++ [job]
      files := { a.files with content := Function.update a.files.content job.filename bytes } },
    ?_, ⟨h.recorder, ⟨done ++ [(job, dump)], ?_, ?_, fun d hd => ?_⟩, h.openable, h.short⟩,
    rfl, rfl, rfl⟩
  · rw [archiveStep.eq_def]
    simp only [Archive.recorderEvent?, writerMethod, hi, dif_pos hlength, hwrite]
    rfl
  · rw [List.map_append, ← hfinished]
    rfl
  · -- the job goes from the threads to the files
    obtain ⟨hlt, hget⟩ := List.getElem?_eq_some_iff.mp hi
    refine List.Perm.trans ?_ hperm
    rw [← List.append_assoc]
    refine (List.perm_append_singleton _ _).trans ?_
    rw [← List.cons_append, ← hget]
    exact (List.getElem_cons_eraseIdx_perm hlt).append_right _
  · rcases List.mem_append.mp hd with hd | hd
    · -- another file
      have hnodup := (hperm.map fun d => d.1.filename).nodup_iff.mpr h.recorder.nodup_filenames
      rw [List.map_append] at hnodup
      have hne : d.1.filename ≠ job.filename := fun heq =>
        List.disjoint_of_nodup_append hnodup (List.mem_map_of_mem hmem)
          (heq ▸ List.mem_map_of_mem hd)
      dsimp only
      rw [Function.update_of_ne hne]
      exact hfiles d hd
    · obtain rfl := List.mem_singleton.mp hd
      dsimp only
      rwa [Function.update_self]

/-- Every step with one job at a time succeeds and keeps the invariant. -/
theorem step (h : a.Inv f) (e : ArchiveEvent) (hG : a.OneAtATime e) :
    ∃ b, archiveStep f a e = .ok b ∧ b.Inv f := by
  cases hevent : a.recorderEvent? e with
  | some event => exact h.recorderEvent hevent (hG event hevent)
  | none =>
    cases e with
    | writerEnds i =>
      cases hi : a.writers[i]? with
      | none =>
        have hstay : archiveStep f a (.writerEnds i) = .ok a := by
          rw [archiveStep.eq_def]
          simp [Archive.recorderEvent?, writerMethod, hi]
        exact ⟨a, hstay, h⟩
      | some d =>
        obtain ⟨b, hb, hInv, -⟩ := h.writerEnds hi
        exact ⟨b, hb, hInv⟩
    | startMeas r now duration type reserves => exact nomatch hevent
    | tick r now => exact nomatch hevent
    | tickDone => exact nomatch hevent

end Archive.Inv

/-! ## What can be downloaded -/

/-- What is downloaded for the job is the file of what was recorded. -/
def Archive.Serves (f : Formats) (a : Archive) (job : JobInfo) : Prop :=
  ∃ bytes, a.obtainJsonStats (toString job.msStart) = .content bytes ∧
    IsRecordingOf f job (recorded a.recorder.chunks job) bytes

/-- Every job that has ended is with a thread or can be downloaded, as it was recorded, and nothing
else can be. -/
structure Archive.Sound (f : Formats) (a : Archive) : Prop where
  ended : (a.writers.map Prod.fst ++ a.finishedJobs).Perm
    (a.recorder.accepted.filter fun job => job.msEnd ≤ a.recorder.chunks.length)
  kept : ∀ d ∈ a.writers, d.2 = recorded a.recorder.chunks d.1
  serves : ∀ job ∈ a.finishedJobs, a.Serves f job
  refuses : ∀ id, (∀ job ∈ a.finishedJobs, id ≠ toString job.msStart) →
    a.obtainJsonStats id = .refused "\x7b\"error\":\"Invalid ID (no such job)\"\x7d"

theorem Recorder.Inv.eq_of_msStart {s : Recorder} (h : s.Inv) {job job' : JobInfo}
    (hjob : job ∈ s.accepted) (hjob' : job' ∈ s.accepted) (heq : job.msStart = job'.msStart) :
    job = job' := by
  have hstarts : (s.accepted.map JobInfo.msStart).Nodup :=
    List.Pairwise.map _ (fun _ _ hne => hne) <| h.ordered.imp_of_mem fun {a b} ha _ hab => by
      have := (h.named a ha).1
      omega
  exact List.inj_on_of_nodup_map hstarts hjob hjob' heq

namespace Archive.Inv

theorem accepted_of_finished (h : a.Inv f) (hjob : job ∈ a.finishedJobs) :
    job ∈ a.recorder.accepted ∧ job.msEnd ≤ a.recorder.chunks.length ∧
      IsFileOf f job (recorded a.recorder.chunks job) (a.files.content job.filename) := by
  obtain ⟨done, hfinished, hperm, hfiles⟩ := h.ledger
  rw [hfinished] at hjob
  obtain ⟨d, hd, rfl⟩ := List.mem_map.mp hjob
  obtain ⟨haccepted, hended, hrecorded⟩ :=
    h.recorder.mem_written_iff.mp (hperm.subset (List.mem_append_right _ hd))
  exact ⟨haccepted, hended, hrecorded ▸ hfiles d hd⟩

theorem length_recorded (h : a.Inv f) (hjob : job ∈ a.finishedJobs) :
    (recorded a.recorder.chunks job).length < 2 ^ 64 := by
  obtain ⟨haccepted, hended, -⟩ := h.accepted_of_finished hjob
  rw [Log.length_recorded hended]
  exact (h.short job haccepted).trans (by decide)

theorem serves (h : a.Inv f) (hjob : job ∈ a.finishedJobs) : a.Serves f job := by
  obtain ⟨haccepted, -, hfile⟩ := h.accepted_of_finished hjob
  have hfind : a.getJobInfo (toString job.msStart) = some job := by
    cases hinfo : a.getJobInfo (toString job.msStart) with
    | none =>
      have hnot := List.find?_eq_none.mp hinfo job hjob
      simp at hnot
    | some info =>
      have hid := List.find?_some
        (p := fun ji : JobInfo => toString job.msStart == toString ji.msStart) hinfo
      have hinfo' := (h.accepted_of_finished (List.mem_of_find?_eq_some hinfo)).1
      rw [h.recorder.eq_of_msStart haccepted hinfo' (Nat.repr_injective (beq_iff_eq.mp hid))]
  refine ⟨_, ?_, hfile.isRecordingOf (h.length_recorded hjob)⟩
  rw [Archive.obtainJsonStats, hfind]
  exact if_pos (h.openable job haccepted)

theorem sound (h : a.Inv f) : a.Sound f where
  ended := by
    obtain ⟨done, hfinished, hperm, -⟩ := h.ledger
    have hwritten : a.recorder.written.map Prod.fst =
        a.recorder.accepted.filter fun job => job.msEnd ≤ a.recorder.chunks.length := by
      rw [h.recorder.complete.written, List.map_map]
      exact List.map_id _
    rw [hfinished, ← List.map_append, ← hwritten]
    exact hperm.map Prod.fst
  kept d hd := by
    obtain ⟨done, -, hperm, -⟩ := h.ledger
    exact (h.recorder.mem_written_iff.mp (hperm.subset (List.mem_append_left _ hd))).2.2
  serves _ hjob := h.serves hjob
  refuses id hid := by
    have hnone : a.getJobInfo id = none :=
      List.find?_eq_none.mpr fun job hjob => by simpa using hid job hjob
    rw [Archive.obtainJsonStats, hnone]

end Archive.Inv

/-- **While requests do no harm to the current job**, no event fails, threads may end in any order,
and each job that has ended is with one thread until it can be downloaded: the file is that of what
was recorded. -/
theorem recordings_of_run (f : Formats) {files : Files} {events : List ArchiveEvent}
    (h : EachStep (archiveStep f) { files := files } Archive.OneAtATime events) :
    ∃ a, run (archiveStep f) { files := files } events = .ok a ∧ a.Sound f ∧
      ∀ i d, a.writers[i]? = some d → ∃ b, archiveStep f a (.writerEnds i) = .ok b ∧
        b.Sound f ∧ b.recorder = a.recorder ∧ b.writers = a.writers.eraseIdx i ∧
        b.Serves f d.1 := by
  obtain ⟨a, ha, hInv⟩ :=
    run_total_of_eachStep (fun a e hInv hG => hInv.step e hG) (Archive.Inv.initial f files) h
  refine ⟨a, ha, hInv.sound, fun i d hi => ?_⟩
  obtain ⟨b, hb, hInv', hrecorder, hwriters, hfinished⟩ := hInv.writerEnds hi
  exact ⟨b, hb, hInv'.sound, hrecorder, hwriters, hInv'.serves (by rw [hfinished]; simp)⟩

end Archive

/-! ## Two jobs -/

/-- The serialization of at most one UE, with a short RNTI. -/
def ueCodec : MessageCodec FlexUeConfigReply where
  byteSizeLong m := if m.ueConfig.isEmpty then 0 else 4
  serialize m :=
    match m.ueConfig with
    | [] => some []
    | [ue] => (ue.rnti.filter (· < 128)).map fun rnti => [18, 2, 8, rnti.toUInt8]
    | _ => none
  parse bytes :=
    match bytes with
    | [] => (true, {})
    | [18, 2, 8, rnti] => (rnti < 128, { ueConfig := [{ rnti := some rnti.toUInt32 }] })
    | _ => (false, {})

/-- Messages are not looked at by the printer. -/
def plainFormats : Formats where
  pb := { shortMessages with ueConfigReply := ueCodec }
  printer := .braces
  localtime := epochTime

/-- A base station with one UE, of which there are no reports yet. -/
def hostBs : EnbRibInfo where
  bsId := 1
  agents := ∅
  ueConfig := { ueConfig := [{ rnti := some 7 }] }
  ueMacInfo := (∅ : Std.ExtTreeMap UInt32 (Option UeMacRibInfo)).insert 7 (some { rnti := 7 })

theorem reachable_hostBs : hostBs.Reachable :=
  ⟨1, ∅, { bsId := 1, agents := ∅ },
    [.ueStateChange { type := some 1, config := some { rnti := some 7 } }], rfl, rfl⟩

def hostRib : SoundRib where
  val := { eNBConfigs := Std.ExtTreeMap.insert ∅ 1 hostBs }
  property b bs hbs := by
    rw [Std.ExtTreeMap.getElem?_insert] at hbs
    split at hbs
    · exact Option.some.inj hbs ▸ reachable_hostBs
    · simp at hbs

/-- What is recorded of the base station. -/
def hostDump (now : Int64) : BsDump where
  time := now
  enbConfig := {}
  ueConfig := hostBs.ueConfig
  lcConfig := {}
  ueMacHarqInfos := [{ macStatsReport := {}, harqInfos := fun _ => 0 == flhsAck }]

def hostChunk (now : Int64) : Chunk := (∅ : Chunk).insertIfNew 1 (hostDump now)

theorem recordable_hostChunk (now : Int64) : Recordable plainFormats.pb (hostChunk now) := by
  have hround : plainFormats.pb.RoundTrips (hostDump now) :=
    { enbConfig := ⟨[], rfl, rfl, rfl⟩
      ueConfig := ⟨[18, 2, 8, 7], rfl, rfl, rfl⟩
      lcConfig := ⟨[], rfl, rfl, rfl⟩
      ueStats := fun ue hue => by
        obtain rfl := List.mem_singleton.mp hue
        exact ⟨[], rfl, rfl, rfl⟩ }
  refine ⟨by simp [hostChunk, Std.ExtTreeMap.size_insertIfNew], fun b bd hbd => ?_⟩
  rw [hostChunk, Std.ExtTreeMap.getElem?_insertIfNew] at hbd
  split at hbd
  · obtain rfl := Option.some.inj hbd
    have hlength : (hostDump now).ueMacHarqInfos.length = 1 := rfl
    exact ⟨hround, by omega⟩
  · simp at hbd

def requestOf (duration : UInt32) (type : String) : ArchiveEvent :=
  .startMeas hostRib 0 duration type true

/-- All files are empty. -/
def emptyFiles : Files := ⟨fun _ => [], fun _ => true⟩

/-- A job of one tick, until it has ended. -/
def oneJob : List ArchiveEvent :=
  [requestOf 1 "bin", .tickDone, .tick hostRib 0, .tickDone, .tick hostRib 1, .tickDone,
    .tick hostRib 2]

/-- Another job is requested before the first one is written. -/
def jobAndJob : List ArchiveEvent := oneJob ++ [requestOf 2 "all", .tickDone, .writerEnds 0]

theorem oneAtATime_requestOf {a : Archive} (h : a.recorder.currentJob = none) (duration : UInt32)
    (type : String) : a.OneAtATime (requestOf duration type) := by
  intro event hevent
  obtain rfl := Option.some.inj hevent
  exact fun _ => .inl h

theorem oneAtATime_jobAndJob :
    EachStep (archiveStep plainFormats) { files := emptyFiles } Archive.OneAtATime jobAndJob := by
  have hother : ∀ (a : Archive) (e : ArchiveEvent),
      (∀ r now duration type reserves, e ≠ .startMeas r now duration type reserves) →
      a.OneAtATime e := by
    intro a e he event hevent
    cases e with
    | startMeas r now duration type reserves => exact absurd rfl (he _ _ _ _ _)
    | writerEnds i => exact nomatch hevent
    | _ =>
      obtain rfl := Option.some.inj hevent
      trivial
  have hidle : (run (archiveStep plainFormats) { files := emptyFiles } oneJob).map
      (fun a => a.recorder.currentJob) = .ok none := by
    decide +kernel
  refine eachStep_append.mpr ⟨?_, fun a ha => ?_⟩
  · refine eachStep_cons.mpr ⟨oneAtATime_requestOf rfl _ _, fun a _ => eachStep_of_forall ?_ a⟩
    exact fun e he s => hother s e fun r now duration type reserves heq => by simp [heq] at he
  · rw [ha] at hidle
    refine eachStep_cons.mpr ⟨oneAtATime_requestOf (Except.ok.inj hidle) _ _, fun a _ => ?_⟩
    refine eachStep_of_forall (fun e he s => ?_) a
    exact hother s e fun r now duration type reserves heq => by simp [heq] at he

/-- The first job has recorded its tick, and its thread has ended. -/
theorem finished_jobAndJob {a : Archive}
    (ha : run (archiveStep plainFormats) { files := emptyFiles } jobAndJob = .ok a) :
    ∃ job, a.finishedJobs = [job] ∧ job.type = .bin ∧
      recorded a.recorder.chunks job = [hostChunk 2] := by
  cases ha
  exact ⟨_, rfl, rfl, rfl⟩

theorem recordings_jobAndJob : ∃ a job bytes,
    run (archiveStep plainFormats) { files := emptyFiles } jobAndJob = .ok a ∧
    a.Sound plainFormats ∧ a.finishedJobs = [job] ∧ job.type = .bin ∧
    a.obtainJsonStats (toString job.msStart) = .content bytes ∧
    ∀ files filename, files.canOpen filename = true → files.content filename = bytes →
      readBinary plainFormats.pb filename files = .ok [hostChunk 2] := by
  obtain ⟨a, ha, hsound, -⟩ := recordings_of_run plainFormats oneAtATime_jobAndJob
  obtain ⟨job, hfinished, htype, hrecorded⟩ := finished_jobAndJob ha
  obtain ⟨bytes, hdownload, hrecording⟩ := hsound.serves job (by rw [hfinished]; simp)
  rw [hrecorded] at hrecording
  refine ⟨a, job, bytes, ha, hsound, hfinished, htype, hdownload, hrecording.bin htype ?_⟩
  intro chunk hchunk
  obtain rfl := List.mem_singleton.mp hchunk
  exact recordable_hostChunk 2

end FlexRan.App.Log
