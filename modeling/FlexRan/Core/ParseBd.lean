import FlexRan.App.Recordings

/-!
# Conversion of recordings

`parse-bd` reads a binary recording and writes a JSON file from it, with the writer of the recorder.
The file it makes of a download is the one that the recorder would have written itself, had the job
been requested in that format.  The format `stats` is the exception: it is taken for `enb`.

## Main definitions

* `parseBd`: the program, with its arguments.
* `parseFormat`: the type of the file that is written.
-/
namespace FlexRan.Core

open Lib App.Log

def parseFormat : Option String → JobType
  | none => .all
  | some format =>
    if format = "all" then .all
    else if format = "enb" then .enb
    else if format = "stats" then .enb
    else .all

section Main

variable (f : Formats)

/-- From the input to the output. A vector can not have got as long. -/
def convert (input file : String) (format : Option String) (files : Files) :
    Except Abort (ℕ × Files) := do
  let v ← (readBinary f.pb input files).mapError Abort.fault
  let info : JobInfo := { msStart := 0, msEnd := 0, filename := file, type := parseFormat format }
  if h : v.length < 2 ^ 64 then do
    let (_, files) ← writeJson f.printer f.localtime info ⟨v, h⟩ files
    return (0, files)
  else .error (.fault .badAlloc)

/-- The exit code. Without an output, the name of the file is a null pointer. -/
def parseBd (argv : List String) (files : Files) : Except Abort (ℕ × Files) :=
  match argv with
  | [_, input] => do
    let _ ← (readBinary f.pb input files).mapError Abort.fault
    .error (.fault .nullDereference)
  | [_, input, file] => convert f input file none files
  | [_, input, file, format] => convert f input file (some format) files
  | _ => .ok (1, files)

end Main

variable {f : Formats} {files : Files} {dump : List Chunk} {input file : String}

/-- The output is what a thread of the recorder would write for a job of this type. -/
theorem convert_ok (format : Option String) (hread : readBinary f.pb input files = .ok dump)
    (hlength : dump.length < 2 ^ 64) (hopen : files.canOpen file = true) (job : JobInfo) :
    ∃ bytes, IsFileOf f { job with type := parseFormat format } dump bytes ∧
      convert f input file format files =
        .ok (0, { files with content := Function.update files.content file bytes }) := by
  have htype : parseFormat format ≠ .bin := by
    cases format with
    | none => decide
    | some format =>
      rw [parseFormat]
      split_ifs <;> decide
  obtain ⟨texts, docs, hmap, -⟩ :=
    mapM_writeJsonChunk f.printer f.localtime (parseFormat format) dump
  refine ⟨textBytes ("[" ++ joinComma texts ++ "]"), ?_, ?_⟩
  · rw [IsFileOf, if_neg htype]
    exact ⟨texts, hmap, rfl⟩
  · have hwrite : writeJson f.printer f.localtime
        { msStart := 0, msEnd := 0, filename := file, type := parseFormat format }
        ⟨dump, hlength⟩ files = .ok (UInt64.ofNat dump.length,
          files.write file ("[" ++ joinComma texts ++ "]")) := writeJson_eq hopen hmap
    rw [convert, hread]
    simp only [Except.mapError, bind, Except.bind, dif_pos hlength, hwrite]
    rfl

/-- **A binary recording is downloaded and converted**: with one job at a time, and if the counts
fit their fields, the output is the file the recorder would have written for the same ticks in the
other format, and no other file has changed. -/
theorem parseBd_download (f : Formats) {server : Files} {events : List ArchiveEvent}
    (h : EachStep (archiveStep f) { files := server } Archive.OneAtATime events) :
    ∃ a, run (archiveStep f) { files := server } events = .ok a ∧
      ∀ job ∈ a.finishedJobs, ∃ bytes,
        a.obtainJsonStats (toString job.msStart) = .content bytes ∧
        (job.type = .bin → (∀ chunk ∈ recorded a.recorder.chunks job, Recordable f.pb chunk) →
          ∀ (prName input file : String) (format : Option String) (client : Files),
            client.canOpen input = true → client.content input = bytes →
            client.canOpen file = true →
            ∃ bytes', IsFileOf f { job with type := parseFormat format }
                (recorded a.recorder.chunks job) bytes' ∧
              parseBd f (prName :: input :: file :: format.toList) client =
                .ok (0, { client with content := Function.update client.content file bytes' })) := by
  obtain ⟨a, ha, hInv⟩ :=
    run_total_of_eachStep (fun a e hInv hG => hInv.step e hG) (Archive.Inv.initial f server) h
  refine ⟨a, ha, fun job hjob => ?_⟩
  obtain ⟨bytes, hdownload, hrecording⟩ := hInv.serves hjob
  refine ⟨bytes, hdownload, fun htype hrecordable prName input file format client hinput hbytes
    hfile => ?_⟩
  have hread := hrecording.bin htype hrecordable client input hinput hbytes
  obtain ⟨bytes', hbytes', hconvert⟩ :=
    convert_ok format hread (hInv.length_recorded hjob) hfile job
  refine ⟨bytes', hbytes', ?_⟩
  cases format with
  | none => exact hconvert
  | some format => exact hconvert

/-- A finished binary job of the run is downloaded as `in.bin`. -/
theorem parseBd_jobAndJob : ∃ a job bytes bytes',
    run (archiveStep plainFormats) { files := emptyFiles } jobAndJob = .ok a ∧
    a.finishedJobs = [job] ∧ job.type = .bin ∧
    a.obtainJsonStats (toString job.msStart) = .content bytes ∧
    IsFileOf plainFormats { job with type := .enb } [hostChunk 2] bytes' ∧
    parseBd plainFormats ["parse-bd", "in.bin", "out.json", "enb"]
        ⟨fun _ => bytes, fun _ => true⟩ =
      .ok (0, ⟨Function.update (fun _ => bytes) "out.json" bytes', fun _ => true⟩) := by
  obtain ⟨a, ha, hjobs⟩ := parseBd_download plainFormats oneAtATime_jobAndJob
  obtain ⟨job, hfinished, htype, hrecorded⟩ := finished_jobAndJob ha
  obtain ⟨bytes, hdownload, hconvert⟩ := hjobs job (by rw [hfinished]; simp)
  have hrecordable : ∀ chunk ∈ recorded a.recorder.chunks job,
      Recordable plainFormats.pb chunk := by
    intro chunk hchunk
    rw [hrecorded] at hchunk
    obtain rfl := List.mem_singleton.mp hchunk
    exact recordable_hostChunk 2
  obtain ⟨bytes', hbytes', hrun⟩ := hconvert htype hrecordable "parse-bd" "in.bin" "out.json"
    (some "enb") ⟨fun _ => bytes, fun _ => true⟩ rfl rfl rfl
  rw [hrecorded] at hbytes'
  exact ⟨a, job, bytes, bytes', ha, hfinished, htype, hdownload, hbytes', hrun⟩

end FlexRan.Core
