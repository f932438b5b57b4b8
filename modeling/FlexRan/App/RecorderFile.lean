import FlexRan.App.Log
import FlexRan.Lib.Codec

/-!
# The binary format of the recorder

A dump is a list of chunks, one for each millisecond, and a chunk holds one record for each base
station.  On file everything is counted or length-prefixed: the chunks by eight bytes, the base
stations of a chunk and the UEs of a record by two, each message by the eight bytes of its size.
The flags of the HARQ processes of a UE share one byte.

## Main definitions

* `Protobuf`: the serialization of the messages that are recorded.
* `writeBinary`, `readBinary`: a dump on file.
* `Protobuf.RoundTrips`: the messages of a record can be parsed again.
-/
namespace FlexRan.App.Log

open Lib Lib.Reader Protocol

/-! ## Messages -/

/-- The serialization of one type of messages. Parsing always leaves a message, next to whether
the bytes were well formed. -/
structure MessageCodec (μ : Type) where
  byteSizeLong : μ → UInt64
  serialize : μ → Option (List UInt8)
  parse : List UInt8 → Bool × μ

structure Protobuf where
  enbConfigReply : MessageCodec FlexEnbConfigReply
  ueConfigReply : MessageCodec FlexUeConfigReply
  lcConfigReply : MessageCodec FlexLcConfigReply
  ueStatsReport : MessageCodec FlexUeStatsReport

variable {μ : Type}

/-- The bytes that are written, and whether the serialization succeeded. -/
def writeFlexranMessage (c : MessageCodec μ) (m : μ) : List UInt8 × Bool :=
  let size := leBytes 8 (c.byteSizeLong m).toNat
  match c.serialize m with
  | some bytes => (size ++ bytes, true)
  | none => (size, false)

/-- `std::istream::read` into a string of `n` zeros, which may come up short. -/
def readString (n : ℕ) : Reader Fault (List UInt8) := fun input =>
  .ok (input.take n ++ List.replicate (n - input.length) 0, input.drop n)

/-- A number that is read from a stream without enough bytes stays uninitialised. -/
def readNumber (w : ℕ) : Reader Fault ℕ := number .uninitialised w

def readFlexranMessage (c : MessageCodec μ) : Reader Fault (Bool × μ) := do
  let n ← readNumber 8
  let bytes ← readString n
  return c.parse bytes

/-! ## UEs -/

def harqByte (harq : Fin 8 → Bool) : UInt8 :=
  (List.finRange 8).foldl (fun b i => b ||| (harq i).toUInt8 <<< UInt8.ofNat i) 0

def harqArray (b : UInt8) : Fin 8 → Bool :=
  fun j => (b &&& 1 <<< UInt8.ofNat j) >>> UInt8.ofNat j != 0

/-- The loop of `write_binary_ue_configs`; it ends early if a message can not be serialized. -/
def writeUes (pb : Protobuf) : List MacHarqInfo → List UInt8
  | [] => []
  | ue :: ues => match writeFlexranMessage pb.ueStatsReport ue.macStatsReport with
    | (bytes, false) => bytes
    | (bytes, true) => bytes ++ harqByte ue.harqInfos :: writeUes pb ues

def writeBinaryUeConfigs (pb : Protobuf) (ueMacHarqInfos : List MacHarqInfo) : List UInt8 :=
  leBytes 2 (UInt16.ofNat ueMacHarqInfos.length).toNat ++ writeUes pb ueMacHarqInfos

/-- One round of the loop of `read_binary_ue_configs`; a parse error is only logged. -/
def readUe (pb : Protobuf) : Reader Fault MacHarqInfo := do
  let (_, macStatsReport) ← readFlexranMessage pb.ueStatsReport
  let harq ← readNumber 1
  return { macStatsReport := macStatsReport, harqInfos := harqArray (UInt8.ofNat harq) }

def readBinaryUeConfigs (pb : Protobuf) : Reader Fault (List MacHarqInfo) := do
  let n ← readNumber 2
  times (readUe pb) n

/-! ## Base stations -/

/-- The fields of a record after its time stamp; the rest of the chunk is not written if a message
can not be serialized. -/
def writeMessages (pb : Protobuf) (bd : BsDump) : List UInt8 × Bool :=
  match writeFlexranMessage pb.enbConfigReply bd.enbConfig with
  | (enb, false) => (enb, false)
  | (enb, true) => match writeFlexranMessage pb.ueConfigReply bd.ueConfig with
    | (ue, false) => (enb ++ ue, false)
    | (ue, true) => match writeFlexranMessage pb.lcConfigReply bd.lcConfig with
      | (lc, false) => (enb ++ ue ++ lc, false)
      | (lc, true) => (enb ++ ue ++ lc ++ writeBinaryUeConfigs pb bd.ueMacHarqInfos, true)

/-- The loop of `write_binary_chunk`. -/
def writeBss (pb : Protobuf) : List (UInt64 × BsDump) → List UInt8
  | [] => []
  | (bsId, bd) :: bss =>
    let head := leBytes 8 bsId.toNat ++ leBytes 8 bd.time.toUInt64.toNat
    match writeMessages pb bd with
    | (bytes, false) => head ++ bytes
    | (bytes, true) => head ++ bytes ++ writeBss pb bss

def writeBinaryChunk (pb : Protobuf) (chunk : Chunk) : List UInt8 :=
  leBytes 2 (UInt16.ofNat chunk.size).toNat ++ writeBss pb chunk.toList

/-- One round of the loop of `read_binary_chunk`; parse errors are only logged. -/
def readBs (pb : Protobuf) : Reader Fault (UInt64 × BsDump) := do
  let bsId ← readNumber 8
  let ns ← readNumber 8
  let (_, enbConfig) ← readFlexranMessage pb.enbConfigReply
  let (_, ueConfig) ← readFlexranMessage pb.ueConfigReply
  let (_, lcConfig) ← readFlexranMessage pb.lcConfigReply
  let ueMacHarqInfos ← readBinaryUeConfigs pb
  return (UInt64.ofNat bsId,
    { time := (UInt64.ofNat ns).toInt64, enbConfig := enbConfig, ueConfig := ueConfig
      lcConfig := lcConfig, ueMacHarqInfos := ueMacHarqInfos })

def readBinaryChunk (pb : Protobuf) : Reader Fault Chunk := do
  let n ← readNumber 2
  let bss ← times (readBs pb) n
  return bss.foldl (fun m e => m.insertIfNew e.1 e.2) ∅

/-! ## Files -/

/-- The size of a vector is a `size_t`. -/
abbrev Dump := { chunks : List Chunk // chunks.length < 2 ^ 64 }

/-- The contents of the files, and which of them can be opened. -/
structure Files where
  content : String → List UInt8
  canOpen : String → Bool

/-- The number of chunks written. -/
def writeBinary (pb : Protobuf) (info : JobInfo) (dump : Dump) (files : Files) : UInt64 × Files :=
  if files.canOpen info.filename then
    let n := UInt64.ofNat dump.val.length
    let bytes := leBytes 8 n.toNat ++ dump.val.flatMap (writeBinaryChunk pb)
    (n, { files with content := Function.update files.content info.filename bytes })
  else (0, files)

def readBinary (pb : Protobuf) (filename : String) (files : Files) : Except Fault (List Chunk) :=
  if files.canOpen filename then do
    let (dump, _) ← (do
      let n ← readNumber 8
      times (readBinaryChunk pb) n).run (files.content filename)
    return dump
  else return []

/-! ## Round trip -/

/-- The message is serialized to as many bytes as announced, and parsed from them again. -/
def MessageCodec.RoundTrips (c : MessageCodec μ) (m : μ) : Prop :=
  ∃ bytes, c.serialize m = some bytes ∧ (c.byteSizeLong m).toNat = bytes.length ∧
    c.parse bytes = (true, m)

/-- The messages of a record are serialized and parsed. -/
structure Protobuf.RoundTrips (pb : Protobuf) (bd : BsDump) : Prop where
  enbConfig : pb.enbConfigReply.RoundTrips bd.enbConfig
  ueConfig : pb.ueConfigReply.RoundTrips bd.ueConfig
  lcConfig : pb.lcConfigReply.RoundTrips bd.lcConfig
  ueStats : ∀ ue ∈ bd.ueMacHarqInfos, pb.ueStatsReport.RoundTrips ue.macStatsReport

section RoundTrip

variable {pb : Protobuf} {bd : BsDump}

theorem decodes_readString (bytes : List UInt8) :
    Decodes (readString bytes.length) bytes bytes := by
  intro rest
  have hrun : (readString bytes.length).run (bytes ++ rest) =
      .ok ((bytes ++ rest).take bytes.length ++
        List.replicate (bytes.length - (bytes ++ rest).length) 0,
        (bytes ++ rest).drop bytes.length) := rfl
  rw [hrun, List.take_left, List.drop_left, List.length_append, Nat.sub_eq_zero_of_le (by omega),
    List.replicate_zero, List.append_nil]

theorem decodes_uint64 (n : UInt64) : Decodes (readNumber 8) (leBytes 8 n.toNat) n.toNat :=
  decodes_number _ (by simpa using n.toNat_lt)

/-- A count that fits its two bytes. -/
theorem decodes_count {n : ℕ} (h : n ≤ 65535) :
    Decodes (readNumber 2) (leBytes 2 (UInt16.ofNat n).toNat) n := by
  have hn : (UInt16.ofNat n).toNat = n := UInt16.toNat_ofNat_of_lt' (Nat.lt_succ_of_le h)
  rw [hn]
  exact decodes_number _ (by omega)

theorem decodes_readFlexranMessage {c : MessageCodec μ} {m : μ} (h : c.RoundTrips m) :
    (writeFlexranMessage c m).2 = true ∧
      Decodes (readFlexranMessage c) (writeFlexranMessage c m).1 (true, m) := by
  obtain ⟨bytes, hserialize, hsize, hparse⟩ := h
  rw [writeFlexranMessage, hserialize]
  refine ⟨rfl, (decodes_uint64 _).bind ?_⟩
  rw [hsize, ← hparse]
  exact (decodes_readString bytes).bind_pure rfl

/-- Each bit of the byte is the flag that was stored there. -/
theorem harqArray_harqByte (harq : Fin 8 → Bool) : harqArray (harqByte harq) = harq := by
  have hbits : ∀ b₀ b₁ b₂ b₃ b₄ b₅ b₆ b₇ : Bool, ∀ j : Fin 8,
      harqArray (harqByte ![b₀, b₁, b₂, b₃, b₄, b₅, b₆, b₇]) j =
        ![b₀, b₁, b₂, b₃, b₄, b₅, b₆, b₇] j := by decide +kernel
  have hharq : harq = ![harq 0, harq 1, harq 2, harq 3, harq 4, harq 5, harq 6, harq 7] := by
    funext j
    fin_cases j <;> rfl
  rw [hharq]
  exact funext (hbits _ _ _ _ _ _ _ _)

/-- The bytes of one UE. -/
def ueBytes (pb : Protobuf) (ue : MacHarqInfo) : List UInt8 :=
  (writeFlexranMessage pb.ueStatsReport ue.macStatsReport).1 ++ [harqByte ue.harqInfos]

theorem decodes_readUe {ue : MacHarqInfo} (h : pb.ueStatsReport.RoundTrips ue.macStatsReport) :
    Decodes (readUe pb) (ueBytes pb ue) ue := by
  have hbyte : [harqByte ue.harqInfos] = leBytes 1 (harqByte ue.harqInfos).toNat := by
    simp [leBytes]
  rw [ueBytes, hbyte]
  refine (decodes_readFlexranMessage h).2.bind ?_
  have hread : Decodes (readNumber 1) (leBytes 1 (harqByte ue.harqInfos).toNat)
      (harqByte ue.harqInfos).toNat :=
    decodes_number _ (by simpa using (harqByte ue.harqInfos).toNat_lt)
  refine hread.bind_pure ?_
  rw [UInt8.ofNat_toNat, harqArray_harqByte]

theorem writeUes_eq {ues : List MacHarqInfo}
    (h : ∀ ue ∈ ues, pb.ueStatsReport.RoundTrips ue.macStatsReport) :
    writeUes pb ues = ues.flatMap (ueBytes pb) := by
  induction ues with
  | nil => rfl
  | cons ue ues ih =>
    have hok := (decodes_readFlexranMessage (h ue (by simp))).1
    rw [writeUes, List.flatMap_cons, ueBytes, ← ih fun u hu => h u (List.mem_cons_of_mem _ hu)]
    cases hwrite : writeFlexranMessage pb.ueStatsReport ue.macStatsReport with
    | mk bytes ok =>
      rw [hwrite] at hok
      obtain rfl : ok = true := hok
      simp

theorem decodes_readBinaryUeConfigs {ues : List MacHarqInfo} (hlength : ues.length ≤ 65535)
    (h : ∀ ue ∈ ues, pb.ueStatsReport.RoundTrips ue.macStatsReport) :
    Decodes (readBinaryUeConfigs pb) (writeBinaryUeConfigs pb ues) ues := by
  rw [writeBinaryUeConfigs, writeUes_eq h]
  exact (decodes_count hlength).bind (decodes_times fun ue hue => decodes_readUe (h ue hue))

/-- The bytes of one base station. -/
def bsBytes (pb : Protobuf) (e : UInt64 × BsDump) : List UInt8 :=
  leBytes 8 e.1.toNat ++ (leBytes 8 e.2.time.toUInt64.toNat ++ (writeMessages pb e.2).1)

/-- The messages of a record are written to the end. -/
theorem writeMessages_eq (h : pb.RoundTrips bd) : writeMessages pb bd =
    ((writeFlexranMessage pb.enbConfigReply bd.enbConfig).1 ++
      ((writeFlexranMessage pb.ueConfigReply bd.ueConfig).1 ++
        ((writeFlexranMessage pb.lcConfigReply bd.lcConfig).1 ++
          writeBinaryUeConfigs pb bd.ueMacHarqInfos)), true) := by
  have henb := (decodes_readFlexranMessage h.enbConfig).1
  have hue := (decodes_readFlexranMessage h.ueConfig).1
  have hlc := (decodes_readFlexranMessage h.lcConfig).1
  rw [writeMessages]
  cases hwenb : writeFlexranMessage pb.enbConfigReply bd.enbConfig with
  | mk enb ok =>
  cases hwue : writeFlexranMessage pb.ueConfigReply bd.ueConfig with
  | mk ue ok' =>
  cases hwlc : writeFlexranMessage pb.lcConfigReply bd.lcConfig with
  | mk lc ok'' =>
  rw [hwenb] at henb
  rw [hwue] at hue
  rw [hwlc] at hlc
  obtain rfl : ok = true := henb
  obtain rfl : ok' = true := hue
  obtain rfl : ok'' = true := hlc
  simp [List.append_assoc]

theorem decodes_readBs {e : UInt64 × BsDump} (h : pb.RoundTrips e.2)
    (hlength : e.2.ueMacHarqInfos.length ≤ 65535) :
    Decodes (readBs pb) (bsBytes pb e) e := by
  rw [bsBytes, writeMessages_eq h]
  refine (decodes_uint64 e.1).bind ?_
  refine (decodes_uint64 e.2.time.toUInt64).bind ?_
  refine (decodes_readFlexranMessage h.enbConfig).2.bind ?_
  refine (decodes_readFlexranMessage h.ueConfig).2.bind ?_
  refine (decodes_readFlexranMessage h.lcConfig).2.bind ?_
  refine (decodes_readBinaryUeConfigs hlength h.ueStats).bind_pure ?_
  rw [UInt64.ofNat_toNat, UInt64.ofNat_toNat, Int64.toInt64_toUInt64]

theorem writeBss_eq {bss : List (UInt64 × BsDump)} (h : ∀ e ∈ bss, pb.RoundTrips e.2) :
    writeBss pb bss = bss.flatMap (bsBytes pb) := by
  induction bss with
  | nil => rfl
  | cons e bss ih =>
    obtain ⟨b, bd⟩ := e
    have hwrite := writeMessages_eq (h (b, bd) (by simp))
    rw [writeBss, List.flatMap_cons, bsBytes, ← ih fun e he => h e (List.mem_cons_of_mem _ he)]
    cases hmessages : writeMessages pb bd with
    | mk bytes ok =>
      obtain rfl : ok = true := (congrArg Prod.snd (hmessages.symm.trans hwrite))
      simp [List.append_assoc]

theorem decodes_readBinaryChunk {chunk : Chunk} (hsize : chunk.size ≤ 65535)
    (h : ∀ (b : UInt64) bd, chunk[b]? = some bd →
      pb.RoundTrips bd ∧ bd.ueMacHarqInfos.length ≤ 65535) :
    Decodes (readBinaryChunk pb) (writeBinaryChunk pb chunk) chunk := by
  have hentry : ∀ e ∈ chunk.toList, pb.RoundTrips e.2 ∧ e.2.ueMacHarqInfos.length ≤ 65535 :=
    fun e he => h e.1 e.2 (Std.ExtTreeMap.mem_toList_iff_getElem?_eq_some.mp he)
  rw [writeBinaryChunk, writeBss_eq fun e he => (hentry e he).1]
  refine (decodes_count hsize).bind ?_
  rw [← Std.ExtTreeMap.length_toList]
  exact (decodes_times fun e he => decodes_readBs (hentry e he).1 (hentry e he).2).bind_pure
    (foldl_insertIfNew_toList chunk)

/-- A dump whose messages can be serialized and parsed, and whose counts fit their fields, is read
as it was written. -/
theorem readBinary_writeBinary (pb : Protobuf) (files : Files) (info : JobInfo) (dump : Dump)
    (hopen : files.canOpen info.filename = true)
    (hsize : ∀ chunk ∈ dump.val, chunk.size ≤ 65535)
    (hues : ∀ chunk ∈ dump.val, ∀ (b : UInt64) bd, chunk[b]? = some bd →
      bd.ueMacHarqInfos.length ≤ 65535)
    (hproto : ∀ chunk ∈ dump.val, ∀ (b : UInt64) bd, chunk[b]? = some bd → pb.RoundTrips bd) :
    readBinary pb info.filename (writeBinary pb info dump files).2 = .ok dump.val := by
  have hn : (UInt64.ofNat dump.val.length).toNat = dump.val.length :=
    UInt64.toNat_ofNat_of_lt' dump.2
  have hdump := (decodes_uint64 (UInt64.ofNat dump.val.length)).bind (f := times (readBinaryChunk pb))
    (b := dump.val) (y := dump.val.flatMap (writeBinaryChunk pb)) (by
      rw [hn]
      exact decodes_times fun chunk hchunk => decodes_readBinaryChunk (hsize chunk hchunk)
        fun b bd hbd => ⟨hproto chunk hchunk b bd hbd, hues chunk hchunk b bd hbd⟩)
  have hrun := hdump []
  rw [List.append_nil] at hrun
  rw [writeBinary, if_pos hopen, readBinary, if_pos hopen]
  simp only [Function.update_self]
  rw [hrun]
  rfl

end RoundTrip

/-! ## A dump of two chunks -/

/-- The serialization of a message without fields. -/
def emptyCodec (empty : μ) : MessageCodec μ where
  byteSizeLong _ := 0
  serialize _ := some []
  parse bytes := (bytes.isEmpty, empty)

/-- The serialization of a report that has at most a short RNTI. -/
def rntiCodec : MessageCodec FlexUeStatsReport where
  byteSizeLong m := if m.rnti.isSome then 2 else 0
  serialize m := match m.rnti with
    | none => some []
    | some rnti => if rnti < 128 then some [8, rnti.toUInt8] else none
  parse bytes := match bytes with
    | [] => (true, {})
    | [8, rnti] => (rnti < 128, { rnti := some rnti.toUInt32 })
    | _ => (false, {})

def shortMessages : Protobuf where
  enbConfigReply := emptyCodec {}
  ueConfigReply := emptyCodec {}
  lcConfigReply := emptyCodec {}
  ueStatsReport := rntiCodec

/-- One UE, before the epoch; the first and the last HARQ process are acknowledged. -/
def shortRecord : BsDump where
  time := -5
  enbConfig := {}
  ueConfig := {}
  lcConfig := {}
  ueMacHarqInfos :=
    [{ macStatsReport := { rnti := some 7 }, harqInfos := fun i => i == 0 || i == 7 }]

/-- A base station, and then none. -/
def shortDump : Dump := ⟨[Std.ExtTreeMap.insert ∅ 5 shortRecord, ∅], by decide⟩

def shortJob : JobInfo where
  msStart := 2
  msEnd := 4
  filename := "/tmp/record.2.json.bin"
  type := .bin

theorem readBinary_shortDump : readBinary shortMessages shortJob.filename
    (writeBinary shortMessages shortJob shortDump ⟨fun _ => [], fun _ => true⟩).2 =
      .ok shortDump.val := by
  have hchunk : ∀ chunk ∈ shortDump.val, ∀ (b : UInt64) bd, chunk[b]? = some bd →
      bd = shortRecord := by
    intro chunk hchunk b bd hbd
    rcases List.mem_pair.mp hchunk with rfl | rfl
    · rw [Std.ExtTreeMap.getElem?_insert] at hbd
      split at hbd
      · exact (Option.some.inj hbd).symm
      · simp at hbd
    · simp at hbd
  have hrecord : shortMessages.RoundTrips shortRecord :=
    { enbConfig := ⟨[], rfl, rfl, rfl⟩
      ueConfig := ⟨[], rfl, rfl, rfl⟩
      lcConfig := ⟨[], rfl, rfl, rfl⟩
      ueStats := fun ue hue => by
        obtain rfl := List.mem_singleton.mp hue
        exact ⟨[8, 7], rfl, rfl, rfl⟩ }
  refine readBinary_writeBinary shortMessages _ shortJob shortDump rfl ?_ ?_ ?_
  · intro chunk hchunk
    rcases List.mem_pair.mp hchunk with rfl | rfl
    · simp [Std.ExtTreeMap.size_insert]
    · simp
  · intro chunk hmem b bd hbd
    rw [hchunk chunk hmem b bd hbd]
    decide
  · intro chunk hmem b bd hbd
    rw [hchunk chunk hmem b bd hbd]
    exact hrecord

end FlexRan.App.Log
