import FlexRan.App.RecorderFile
import FlexRan.Lib.Format

/-!
# Malformed recorder files

The decoder of the recorder never asks whether a read succeeded.  It allocates a string of
whatever size the file gives before it reads into it, and a number that the file has not enough
bytes for keeps what its memory held.  Here the decoder records the strings it allocates; without
the record it is `readBinary`.

It is therefore safe on a file if and only if the file starts with a complete dump: as many
chunks, base stations and UEs as counted, and messages as long as announced.  A cut or a forged
number anywhere before the end of the dump makes it use a number that was not read.

## Main definitions

* `Decoder.readBinary`: the decoder, with the sizes of the strings it allocates.
* `dumpFormat`: the format of complete dumps.
* `DecodesSafely`: the decoder uses only what the file holds.
-/
namespace FlexRan.App.Log

open Lib Lib.Operation Lib.Reader Protocol

/-! ## The decoder -/

namespace Decoder

open Lib.Decoder

variable {μ : Type}

def readFlexranMessage (c : MessageCodec μ) : Lib.Decoder Fault (Bool × μ) := do
  let n ← ofReader (readNumber 8)
  -- `std::string bytes(n, 0)`
  allocate n
  let bytes ← ofReader (readString n)
  return c.parse bytes

def readUe (pb : Protobuf) : Lib.Decoder Fault MacHarqInfo := do
  let (_, macStatsReport) ← readFlexranMessage pb.ueStatsReport
  let harq ← ofReader (readNumber 1)
  return { macStatsReport := macStatsReport, harqInfos := harqArray (UInt8.ofNat harq) }

def readBinaryUeConfigs (pb : Protobuf) : Lib.Decoder Fault (List MacHarqInfo) := do
  let n ← ofReader (readNumber 2)
  times (readUe pb) n

def readBs (pb : Protobuf) : Lib.Decoder Fault (UInt64 × BsDump) := do
  let bsId ← ofReader (readNumber 8)
  let ns ← ofReader (readNumber 8)
  let (_, enbConfig) ← readFlexranMessage pb.enbConfigReply
  let (_, ueConfig) ← readFlexranMessage pb.ueConfigReply
  let (_, lcConfig) ← readFlexranMessage pb.lcConfigReply
  let ueMacHarqInfos ← readBinaryUeConfigs pb
  return (UInt64.ofNat bsId,
    { time := (UInt64.ofNat ns).toInt64, enbConfig := enbConfig, ueConfig := ueConfig
      lcConfig := lcConfig, ueMacHarqInfos := ueMacHarqInfos })

def readBinaryChunk (pb : Protobuf) : Lib.Decoder Fault Chunk := do
  let n ← ofReader (readNumber 2)
  let bss ← times (readBs pb) n
  return bss.foldl (fun m e => m.insertIfNew e.1 e.2) ∅

def readChunks (pb : Protobuf) : Lib.Decoder Fault (List Chunk) := do
  let n ← ofReader (readNumber 8)
  times (readBinaryChunk pb) n

def readBinary (pb : Protobuf) (filename : String) (files : Files) :
    Except Fault (List Chunk) × Input :=
  if files.canOpen filename then exec (readChunks pb) { rest := files.content filename }
  else (.ok [], { rest := [] })

/-! ### Without the record -/

variable (pb : Protobuf)

theorem unrecorded_readFlexranMessage (c : MessageCodec μ) :
    Unrecorded (readFlexranMessage c) (Log.readFlexranMessage c) :=
  (unrecorded_ofReader _).bind fun _ => Unrecorded.allocate
    ((unrecorded_ofReader _).bind fun bytes => Unrecorded.pure (c.parse bytes))

theorem unrecorded_readUe : Unrecorded (readUe pb) (Log.readUe pb) :=
  (unrecorded_readFlexranMessage _).bind fun _ =>
    (unrecorded_ofReader _).bind fun _ => Unrecorded.pure _

theorem unrecorded_readBinaryUeConfigs :
    Unrecorded (readBinaryUeConfigs pb) (Log.readBinaryUeConfigs pb) :=
  (unrecorded_ofReader _).bind fun n => (unrecorded_readUe pb).times n

theorem unrecorded_readBs : Unrecorded (readBs pb) (Log.readBs pb) :=
  (unrecorded_ofReader _).bind fun _ => (unrecorded_ofReader _).bind fun _ =>
    (unrecorded_readFlexranMessage _).bind fun _ => (unrecorded_readFlexranMessage _).bind fun _ =>
      (unrecorded_readFlexranMessage _).bind fun _ =>
        (unrecorded_readBinaryUeConfigs pb).bind fun _ => Unrecorded.pure _

theorem unrecorded_readBinaryChunk : Unrecorded (readBinaryChunk pb) (Log.readBinaryChunk pb) :=
  (unrecorded_ofReader _).bind fun n => ((unrecorded_readBs pb).times n).bind fun _ =>
    Unrecorded.pure _

theorem unrecorded_readChunks : Unrecorded (readChunks pb) (do
    let n ← readNumber 8
    Reader.times (Log.readBinaryChunk pb) n) :=
  (unrecorded_ofReader _).bind fun n => (unrecorded_readBinaryChunk pb).times n

/-- Without the record, the decoder is the one of the round trip. -/
theorem readBinary_fst (filename : String) (files : Files) :
    (readBinary pb filename files).1 = Log.readBinary pb filename files := by
  rw [readBinary, Log.readBinary]
  by_cases hopen : files.canOpen filename = true
  · rw [if_pos hopen, if_pos hopen, unrecorded_readChunks pb { rest := files.content filename }]
    cases (exec (readChunks pb) { rest := files.content filename }).1 with
    | error e => rfl
    | ok dump => rfl
  · rw [if_neg hopen, if_neg hopen]
    rfl

/-! ### Formats -/

/-- The bytes of a message after their number. -/
def messageFormat : Language UInt8 :=
  { x | ∃ head ∈ bytes 8, ∃ body ∈ bytes (leValue head), head ++ body = x }

def ueFormat : Language UInt8 := messageFormat * bytes 1

/-- The id, the time stamp, the three configurations and the UEs. -/
def bsFormat : Language UInt8 :=
  bytes 8 * (bytes 8 * (messageFormat * (messageFormat * (messageFormat * counted 2 ueFormat))))

def chunkFormat : Language UInt8 := counted 2 bsFormat

/-- The complete dumps. -/
def dumpFormat : Language UInt8 := counted 8 chunkFormat

variable {pb}

theorem exec_readFlexranMessage (c : MessageCodec μ) {s : Input} {head input : List UInt8}
    (hs : s.rest = head ++ input) (hhead : head ∈ bytes 8) :
    exec (readFlexranMessage c) s =
      (.ok (c.parse (input.take (leValue head) ++
        List.replicate (leValue head - input.length) 0)),
        { rest := input.drop (leValue head), allocated := leValue head :: s.allocated }) := by
  have hnumber := exec_number Fault.uninitialised hs
  rw [show head.length = 8 from hhead] at hnumber
  rw [readFlexranMessage, readNumber, exec_bind_of_ok hnumber, exec_allocate_bind,
    exec_bind_of_ok (exec_ofReader_ok rfl)]
  rfl

/-- A string that comes up short leaves nothing to what follows, which needs some bytes. -/
theorem recognises_message_bind {β : Type} {c : MessageCodec μ} {f : Bool × μ → Lib.Decoder Fault β}
    {M : Language UInt8} (hf : ∀ r, Recognises (f r) M) (hM : [] ∉ M) :
    Recognises (readFlexranMessage c >>= f) (messageFormat * M) where
  accepts z hz := by
    obtain ⟨x, ⟨head, hhead, body, hbody, rfl⟩, y, hy, rfl⟩ := Language.mem_mul.mp hz
    obtain ⟨b, hb⟩ := (hf (c.parse body)).accepts y hy
    have hbody : body.length = leValue head := hbody
    refine ⟨b, fun s rest hs => ?_⟩
    rw [List.append_assoc, List.append_assoc] at hs
    have hmessage := exec_readFlexranMessage c hs hhead
    rw [← hbody, List.take_left, List.drop_left,
      Nat.sub_eq_zero_of_le (by rw [List.length_append]; omega), List.replicate_zero,
      List.append_nil] at hmessage
    obtain ⟨t, ht, htrest, hbounded⟩ := hb
      { rest := y ++ rest, allocated := body.length :: s.allocated } rest rfl
    refine ⟨t, (exec_bind_of_ok hmessage).trans ht, htrest, fun k hk => ?_⟩
    rw [List.length_append, List.length_append]
    rcases hbounded k hk with hk | hk
    · rcases List.mem_cons.mp hk with rfl | hk
      · exact .inr (by omega)
      · exact .inl hk
    · exact .inr (by omega)
  sound s b u h := by
    obtain ⟨r, t, hr, hb⟩ := exec_bind_eq_ok_iff.mp h
    have hlength : 8 ≤ s.rest.length := by
      obtain ⟨n, t', hn, -⟩ := exec_bind_eq_ok_iff.mp hr
      exact (run_number_eq_ok_iff.mp (exec_ofReader_eq_ok_iff.mp hn).1).1
    have hhead : s.rest.take 8 ∈ bytes 8 := List.length_take_of_le hlength
    have hmessage := exec_readFlexranMessage c (List.take_append_drop 8 s.rest).symm hhead
    obtain ⟨-, rfl⟩ := Prod.mk.inj (hr.symm.trans hmessage)
    obtain ⟨y, hy, ht⟩ := (hf r).sound _ b u hb
    rcases Nat.lt_or_ge (s.rest.drop 8).length (leValue (s.rest.take 8)) with hshort | hfits
    · -- nothing is left for the rest of the format
      rw [List.drop_eq_nil_of_le hshort.le] at ht
      exact absurd ((List.append_eq_nil_iff.mp ht.symm).1 ▸ hy) hM
    · refine ⟨s.rest.take 8 ++ (s.rest.drop 8).take (leValue (s.rest.take 8)) ++ y,
        Language.append_mem_mul ⟨_, hhead, _, List.length_take_of_le hfits, rfl⟩ hy, ?_⟩
      rw [List.append_assoc, List.append_assoc, ← ht, List.take_append_drop,
        List.take_append_drop]

theorem recognises_readUe : Recognises (readUe pb) ueFormat :=
  recognises_message_bind (fun _ => (recognises_number _ 1).map) (nil_notMem_bytes (by decide))

theorem recognises_readBinaryUeConfigs : Recognises (readBinaryUeConfigs pb) (counted 2 ueFormat) :=
  recognises_readUe.counted _ 2

theorem recognises_readBs : Recognises (readBs pb) bsFormat := by
  have hues : [] ∉ counted 2 ueFormat := nil_notMem_counted (by decide) _
  refine (recognises_number _ 8).bind fun _ => (recognises_number _ 8).bind fun _ => ?_
  refine recognises_message_bind (fun _ => ?_) (nil_notMem_mul (nil_notMem_mul hues))
  refine recognises_message_bind (fun _ => ?_) (nil_notMem_mul hues)
  exact recognises_message_bind (fun _ => recognises_readBinaryUeConfigs.map) hues

theorem recognises_readBinaryChunk : Recognises (readBinaryChunk pb) chunkFormat :=
  Recognises.number_bind (fun n => (recognises_readBs.times n).map) _ 2

theorem recognises_readChunks : Recognises (readChunks pb) dumpFormat :=
  recognises_readBinaryChunk.counted _ 8

end Decoder

/-! ## Safety -/

/-- The decoder comes to an end without having used a number that was not read completely, the
strings it allocates are no longer than the file, and every chunk it returns is what it makes of a
piece of the file. -/
def DecodesSafely (pb : Protobuf) (filename : String) (files : Files) : Prop :=
  ∃ dump s, Decoder.readBinary pb filename files = (.ok dump, s) ∧
    (∀ n ∈ s.allocated, n ≤ (files.content filename).length) ∧
    ∃ head pieces tail, files.content filename = head ++ pieces.flatten ++ tail ∧
      List.Forall₂ (Decodes (readBinaryChunk pb)) pieces dump

section Safety

variable {pb : Protobuf} {filename : String} {files : Files}

/-- The chunks of a complete dump are decoded from its pieces. -/
theorem exists_pieces {x rest : List UInt8} (hx : x ∈ Decoder.dumpFormat) {dump : List Chunk}
    {s : Input} (h : exec (Decoder.readChunks pb) { rest := x ++ rest } = (.ok dump, s)) :
    ∃ head pieces, x = head ++ pieces.flatten ∧
      List.Forall₂ (Decodes (readBinaryChunk pb)) pieces dump := by
  obtain ⟨head, hhead, y, hy, rfl⟩ := hx
  obtain ⟨pieces, rfl, hlength, hpieces⟩ := Language.mem_pow.mp hy
  obtain ⟨chunks, hchunks⟩ := Decoder.recognises_readBinaryChunk.exists_forall₂
    (Decoder.unrecorded_readBinaryChunk pb) hpieces
  refine ⟨head, pieces, rfl, ?_⟩
  have hread := Decoder.unrecorded_readChunks pb { rest := head ++ pieces.flatten ++ rest }
  have hnumber := decodes_leValue Fault.uninitialised head
  rw [show head.length = 8 from hhead] at hnumber
  have htimes := decodes_times_of_forall₂ hchunks
  rw [← hchunks.length_eq, hlength] at htimes
  rw [h] at hread
  have hchunk := hread.symm.trans (hnumber.bind htimes rest)
  obtain ⟨rfl, -⟩ := Prod.mk.inj (Except.ok.inj hchunk)
  exact hchunks

/-- The decoder is safe if and only if the file, if there is one, starts with a complete dump. -/
theorem decodesSafely_iff (pb : Protobuf) (filename : String) (files : Files) :
    DecodesSafely pb filename files ↔ files.canOpen filename = false ∨
      ∃ x ∈ Decoder.dumpFormat, x <+: files.content filename := by
  rw [DecodesSafely, Decoder.readBinary]
  cases hopen : files.canOpen filename with
  | false =>
    refine iff_of_true ⟨[], _, rfl, fun n hn => absurd hn List.not_mem_nil, ?_⟩ (.inl rfl)
    exact ⟨files.content filename, [], [], by simp, .nil⟩
  | true =>
    simp only [if_true, Bool.true_eq_false, false_or]
    constructor
    · rintro ⟨dump, s, hread, -⟩
      obtain ⟨x, hx, hcontent⟩ := Decoder.recognises_readChunks.sound _ dump s hread
      exact ⟨x, hx, s.rest, hcontent.symm⟩
    · rintro ⟨x, hx, rest, hcontent⟩
      have hreads : Decoder.Recognises (Decoder.readChunks pb) Decoder.dumpFormat :=
        Decoder.recognises_readChunks
      obtain ⟨dump, hdump⟩ := hreads.accepts x hx
      obtain ⟨s, hs, -, hbounded⟩ := hdump { rest := files.content filename } rest hcontent.symm
      rw [← hcontent] at hs ⊢
      refine ⟨dump, s, hs, fun n hn => ?_, ?_⟩
      · rw [List.length_append]
        have := (hbounded n hn).resolve_left List.not_mem_nil
        omega
      · obtain ⟨head, pieces, rfl, hpieces⟩ := exists_pieces hx hs
        exact ⟨head, pieces, rest, rfl, hpieces⟩

/-- The beginning of a complete dump is not decoded safely, wherever the dump is cut. -/
theorem not_decodesSafely_of_cut {x : List UInt8} (hx : x ∈ Decoder.dumpFormat)
    (hopen : files.canOpen filename = true) {n : ℕ} (hn : n < x.length)
    (hcut : files.content filename = x.take n) : ¬ DecodesSafely pb filename files := by
  rintro ⟨dump, s, hread, -⟩
  rw [Decoder.readBinary, if_pos hopen] at hread
  have hreads : Decoder.Recognises (Decoder.readChunks pb) Decoder.dumpFormat :=
    Decoder.recognises_readChunks
  obtain ⟨y, hy, hcontent⟩ := hreads.sound _ dump s hread
  have hword : y ++ s.rest = x.take n := hcontent.symm.trans hcut
  have hwhole : y ++ (s.rest ++ x.drop n) = x := by
    rw [← List.append_assoc, hword, List.take_append_drop]
  have hyx : y = x := hreads.eq_of_append_eq hy hx hwhole
  have hlength := congrArg List.length hword
  rw [List.length_append, List.length_take, hyx] at hlength
  omega

end Safety

/-! ## A cut file -/

/-- One chunk is announced, and there the file ends. -/
def cutFiles : Files := ⟨fun _ => [1, 0, 0, 0, 0, 0, 0, 0], fun _ => true⟩

/-- The number of base stations is used although it was not read. -/
theorem not_forall_decodesSafely : ¬ ∀ pb filename files, DecodesSafely pb filename files := by
  intro h
  obtain ⟨dump, s, hread, -⟩ := h shortMessages "/tmp/record.2.json.bin" cutFiles
  have hfault : (Decoder.readBinary shortMessages "/tmp/record.2.json.bin" cutFiles).1 =
      .error .uninitialised := rfl
  exact absurd (hfault.symm.trans (congrArg Prod.fst hread)) (by simp)

end FlexRan.App.Log
