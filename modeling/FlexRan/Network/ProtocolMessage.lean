import FlexRan.Fault
import FlexRan.Lib.Memory
import FlexRan.Lib.Run

/-!
# Framed messages

A message on the wire is a header of four bytes, the big-endian length of the body, and the
body.  `ProtocolMessage` holds one frame: in a static buffer, or in a heap buffer when the body
is longer than the static one allows.  `TaggedMessage` carries a body and the session it came
from or goes to through the queues.

The buffers are modelled down to the cells, since the same object is used for one frame after
the other: a cell that was never written has no value, a store outside a buffer is a fault.
`allocates n` says whether an allocation of `n` bytes succeeds.

## Main definitions

* `ProtocolMessage.setBodyLength`, `encodeHeader`, `decodeHeader`, `ofMessage`.
* `ProtocolMessage.frame`: the bytes that are sent.
* `TaggedMessage.ofBuffer`, `TaggedMessage.bytes`.
-/
namespace FlexRan.Network

open Lib

def headerLength : ℕ := 4
def maxNormalBodyLength : ℕ := 24000

/-- The buffer in use is the heap buffer if there is one, else the static buffer. -/
structure ProtocolMessage where
  statData : { buf : List Cell // buf.length = headerLength + maxNormalBodyLength }
  heapData : Option (List Cell)
  bodyLength : UInt32

namespace ProtocolMessage

def empty : ProtocolMessage where
  statData := ⟨List.replicate (headerLength + maxNormalBodyLength) none, List.length_replicate⟩
  heapData := none
  bodyLength := 0

def data (m : ProtocolMessage) : List Cell := m.heapData.getD m.statData

/-- `length()`, a 32-bit sum. -/
def length (m : ProtocolMessage) : UInt32 := UInt32.ofNat headerLength + m.bodyLength

/-- Store a byte in the buffer in use. -/
def writeByte (m : ProtocolMessage) (i : ℕ) (b : UInt8) : Except Fault ProtocolMessage :=
  if i < m.data.length then
    match m.heapData with
    | some buf => .ok { m with heapData := some (buf.set i (some b)) }
    | none => .ok { m with statData := ⟨m.statData.val.set i (some b), by simp [m.statData.2]⟩ }
  else .error .outOfBounds

/-- `memcpy` into the buffer in use. -/
def copyIn (m : ProtocolMessage) (off : ℕ) (src : List Cell) : Except Fault ProtocolMessage :=
  if h : off + src.length ≤ m.data.length then
    match hm : m.heapData with
    | some buf => .ok { m with heapData := some (copyCells buf off src) }
    | none => .ok { m with
        statData := ⟨copyCells m.statData off src, by
          rw [length_copyCells (by simpa [data, hm] using h), m.statData.2]⟩ }
  else .error .outOfBounds

def readByte (m : ProtocolMessage) (i : ℕ) : Except Fault UInt8 :=
  match m.data[i]? with
  | none => .error .outOfBounds
  | some none => .error .uninitialised
  | some (some b) => .ok b

/-- A heap buffer is freed, and a new one is allocated where the static buffer is too small.
Both the size of the allocation and the stored length are sums and conversions of machine
integers. -/
def setBodyLength (allocates : ℕ → Bool) (m : ProtocolMessage) (newLength : UInt64) :
    Except Fault ProtocolMessage :=
  if newLength > UInt64.ofNat maxNormalBodyLength then
    let n := (UInt64.ofNat headerLength + newLength).toNat
    if allocates n then
      .ok { m with heapData := some (List.replicate n none), bodyLength := newLength.toUInt32 }
    else .error .badAlloc
  else .ok { m with heapData := none, bodyLength := newLength.toUInt32 }

def encodeHeader (m : ProtocolMessage) (size : UInt64) : Except Fault ProtocolMessage := do
  let m ← m.writeByte 0 (size >>> 24 &&& 255).toUInt8
  let m ← m.writeByte 1 (size >>> 16 &&& 255).toUInt8
  let m ← m.writeByte 2 (size >>> 8 &&& 255).toUInt8
  m.writeByte 3 (size &&& 255).toUInt8

/-- The bytes are promoted to `int` and shifted. -/
def headerValue (b₀ b₁ b₂ b₃ : UInt8) : UInt32 :=
  b₀.toUInt32 <<< 24 ||| b₁.toUInt32 <<< 16 ||| b₂.toUInt32 <<< 8 ||| b₃.toUInt32

/-- The result says whether the header is valid. It is written again since the buffer may be a
new one. -/
def decodeHeader (allocates : ℕ → Bool) (m : ProtocolMessage) :
    Except Fault (Bool × ProtocolMessage) := do
  let b₀ ← m.readByte 0
  let b₁ ← m.readByte 1
  let b₂ ← m.readByte 2
  let b₃ ← m.readByte 3
  let len : Int32 := (headerValue b₀ b₁ b₂ b₃).toInt32
  -- the conversion from `int` to `size_t` extends the sign
  let m ← m.setBodyLength allocates len.toInt64.toUInt64
  let m ← m.encodeHeader len.toInt64.toUInt64
  return (true, m)

/-- `set_message`: copy `size` bytes from `buf`. -/
def setMessage (allocates : ℕ → Bool) (m : ProtocolMessage) (buf : List Cell) (size : UInt64) :
    Except Fault ProtocolMessage := do
  let m ← m.setBodyLength allocates size
  let m ← m.encodeHeader size
  if size.toNat ≤ buf.length then m.copyIn headerLength (buf.take size.toNat)
  else .error .outOfBounds

/-- The constructor from a buffer. -/
def ofMessage (allocates : ℕ → Bool) (buf : List Cell) (size : UInt64) :
    Except Fault ProtocolMessage :=
  empty.setMessage allocates buf size

/-- The first `length()` bytes of the buffer: what `async_write` is given. -/
def frame (m : ProtocolMessage) : Except Fault (List UInt8) :=
  if m.length.toNat ≤ m.data.length then
    match bytesOf (m.data.take m.length.toNat) with
    | some bytes => .ok bytes
    | none => .error .uninitialised
  else .error .outOfBounds

end ProtocolMessage

/-! ## Tagged messages -/

def maxNormalMsgSize : ℕ := 2048

structure TaggedMessage where
  size : UInt64
  tag : ℤ
  pMsg : { buf : List Cell // buf.length = maxNormalMsgSize }
  heap : Option (List Cell)

namespace TaggedMessage

def getSize (m : TaggedMessage) : Int32 := m.size.toUInt32.toInt32

def getMessageContents (m : TaggedMessage) : List Cell := m.heap.getD m.pMsg

/-- The contents as bytes, where all of them are initialised. -/
def bytes (m : TaggedMessage) : Except Fault (List UInt8) :=
  if m.size.toNat ≤ m.getMessageContents.length then
    match bytesOf (m.getMessageContents.take m.size.toNat) with
    | some bytes => .ok bytes
    | none => .error .uninitialised
  else .error .outOfBounds

/-- The constructor that copies `size` bytes from `msg`. -/
def ofBuffer (allocates : ℕ → Bool) (msg : List Cell) (size : UInt64) (tag : ℤ) :
    Except Fault TaggedMessage :=
  if h : size.toNat ≤ msg.length then
    if hsize : size.toNat ≤ maxNormalMsgSize then
      .ok
        { size := size, tag := tag, heap := none
          pMsg := ⟨copyCells (List.replicate maxNormalMsgSize none) 0 (msg.take size.toNat), by
            rw [length_copyCells (by simp; omega), List.length_replicate]⟩ }
    else if allocates size.toNat then
      .ok
        { size := size, tag := tag, heap := some (msg.take size.toNat)
          pMsg := ⟨List.replicate maxNormalMsgSize none, by simp⟩ }
    else .error .badAlloc
  else .error .outOfBounds

/-- The constructor for `size` bytes still to be written. -/
def ofSize (allocates : ℕ → Bool) (size : UInt64) (tag : ℤ) : Except Fault TaggedMessage :=
  let pMsg := ⟨List.replicate maxNormalMsgSize none, List.length_replicate⟩
  if size.toNat > maxNormalMsgSize then
    if allocates size.toNat then
      .ok { size := size, tag := tag, pMsg := pMsg
            heap := some (List.replicate size.toNat none) }
    else .error .badAlloc
  else .ok { size := size, tag := tag, pMsg := pMsg, heap := none }

/-- `SerializeToArray` into the contents. -/
def serializeToArray (m : TaggedMessage) (bytes : List UInt8) : Except Fault TaggedMessage :=
  if h : bytes.length ≤ m.getMessageContents.length then
    match hm : m.heap with
    | some buf => .ok { m with heap := some (copyCells buf 0 (cellsOf bytes)) }
    | none => .ok { m with
        pMsg := ⟨copyCells m.pMsg 0 (cellsOf bytes), by
          rw [length_copyCells (by simpa [getMessageContents, hm] using h), m.pMsg.2]⟩ }
  else .error .outOfBounds

end TaggedMessage

/-! ## Arithmetic of the header -/

section Arithmetic

theorem toNat_headerValue (b₀ b₁ b₂ b₃ : UInt8) :
    (ProtocolMessage.headerValue b₀ b₁ b₂ b₃).toNat = be32Value b₀ b₁ b₂ b₃ := by
  have h₀ := b₀.toNat_lt
  have h₁ := b₁.toNat_lt
  have h₂ := b₂.toNat_lt
  have h₃ := b₃.toNat_lt
  have e₀ : b₀.toNat <<< ((24 : UInt32).toNat % 32) % 2 ^ 32 = b₀.toNat <<< 24 := by
    simp [Nat.shiftLeft_eq]
    omega
  have e₁ : b₁.toNat <<< ((16 : UInt32).toNat % 32) % 2 ^ 32 = b₁.toNat <<< 16 := by
    simp [Nat.shiftLeft_eq]
    omega
  have e₂ : b₂.toNat <<< ((8 : UInt32).toNat % 32) % 2 ^ 32 = b₂.toNat <<< 8 := by
    simp [Nat.shiftLeft_eq]
    omega
  simp only [ProtocolMessage.headerValue, UInt32.toNat_or, UInt32.toNat_shiftLeft,
    UInt8.toNat_toUInt32, e₀, e₁, e₂, Nat.or_assoc]
  -- the shifted bytes do not overlap, so that the disjunctions are sums
  rw [← Nat.shiftLeft_add_eq_or_of_lt h₃ b₂.toNat,
    ← Nat.shiftLeft_add_eq_or_of_lt (by simp only [Nat.shiftLeft_eq]; omega) b₁.toNat,
    ← Nat.shiftLeft_add_eq_or_of_lt (by simp only [Nat.shiftLeft_eq]; omega) b₀.toNat]
  simp only [Nat.shiftLeft_eq, be32Value]
  omega

theorem headerByte (size k : UInt64) (hk : k.toNat < 64) :
    (size >>> k &&& 255).toUInt8 = UInt8.ofNat (size.toNat / 2 ^ k.toNat) := by
  apply UInt8.toNat_inj.mp
  simp [Nat.shiftRight_eq_div_pow, Nat.mod_eq_of_lt hk, Nat.and_two_pow_sub_one_eq_mod _ 8]

/-- A length that is not negative as an `int` survives the conversion to `size_t`. -/
theorem toNat_signExtend {n : UInt32} (h : n.toNat < 2 ^ 31) :
    n.toInt32.toInt64.toUInt64.toNat = n.toNat := by
  have hmsb : n.toBitVec.msb = false := by
    rw [BitVec.msb_eq_decide]
    simpa using h
  have hbits : n.toInt32.toInt64.toUInt64.toBitVec = n.toBitVec.signExtend 64 := rfl
  rw [← UInt64.toNat_toBitVec, hbits, BitVec.signExtend_eq_setWidth_of_msb_false hmsb,
    BitVec.toNat_setWidth]
  exact Nat.mod_eq_of_lt (by simp; omega)

end Arithmetic

/-! ## Specifications -/

/-- Allocations of up to a header and the longest body succeed. -/
def Allocates (allocates : ℕ → Bool) : Prop := ∀ n ≤ 2 ^ 31 + 3, allocates n = true

/-- A heap buffer for a header and a body of length `n` can be allocated, if one is needed. -/
def Fits (allocates : ℕ → Bool) (n : ℕ) : Prop :=
  maxNormalBodyLength < n → allocates (headerLength + n) = true

theorem Allocates.fits {allocates : ℕ → Bool} (h : Allocates allocates) {n : ℕ}
    (hn : n < 2 ^ 31) : Fits allocates n :=
  fun _ => h _ (by simp only [headerLength]; omega)

namespace ProtocolMessage

variable {m : ProtocolMessage} {allocates : ℕ → Bool}

theorem le_length_data_of_heapData_eq_none (h : m.heapData = none) : m.data.length = 24004 := by
  rw [data, h]
  exact m.statData.2

theorem writeByte_spec {i : ℕ} {b : UInt8} (hi : i < m.data.length) :
    ∃ m', m.writeByte i b = .ok m' ∧ m'.data = m.data.set i (some b) ∧
      m'.bodyLength = m.bodyLength := by
  rw [writeByte, if_pos hi]
  cases hm : m.heapData with
  | none => exact ⟨_, rfl, by simp [data, hm], rfl⟩
  | some buf => exact ⟨_, rfl, by simp [data, hm], rfl⟩

theorem copyIn_spec (off : ℕ) (src : List Cell) (h : off + src.length ≤ m.data.length) :
    ∃ m', m.copyIn off src = .ok m' ∧ m'.data = copyCells m.data off src ∧
      m'.bodyLength = m.bodyLength := by
  rw [copyIn, dif_pos h]
  split
  · rename_i buf hm
    exact ⟨_, rfl, by simp [data, hm], rfl⟩
  · rename_i hm
    exact ⟨_, rfl, by simp [data, hm], rfl⟩

theorem readByte_eq {i : ℕ} {b : UInt8} (h : m.data[i]? = some (some b)) :
    m.readByte i = .ok b := by
  rw [readByte, h]

/-- The buffer has room for a header and a body of the length. -/
theorem setBodyLength_spec {size : UInt64} (hfits : Fits allocates size.toNat)
    (hn : size.toNat < 2 ^ 31) :
    ∃ m', m.setBodyLength allocates size = .ok m' ∧
      headerLength + size.toNat ≤ m'.data.length ∧ m'.bodyLength.toNat = size.toNat := by
  have hbody : size.toUInt32.toNat = size.toNat := by
    rw [UInt64.toNat_toUInt32]
    exact Nat.mod_eq_of_lt (by omega)
  have hmax : size > UInt64.ofNat maxNormalBodyLength ↔ 24000 < size.toNat := UInt64.lt_iff_toNat_lt
  have hsum : (UInt64.ofNat headerLength + size).toNat = headerLength + size.toNat := by
    rw [UInt64.toNat_add]
    exact Nat.mod_eq_of_lt (by simp [headerLength]; omega)
  rw [setBodyLength]
  by_cases hbig : size > UInt64.ofNat maxNormalBodyLength
  · rw [if_pos hbig]
    simp only [hsum]
    rw [if_pos (hfits (hmax.mp hbig))]
    exact ⟨_, rfl, by simp [data], hbody⟩
  · rw [if_neg hbig]
    refine ⟨_, rfl, ?_, hbody⟩
    rw [le_length_data_of_heapData_eq_none rfl]
    rw [hmax] at hbig
    simp only [headerLength]
    omega

theorem encodeHeader_spec (hlen : headerLength ≤ m.data.length) (size : UInt64) :
    ∃ m', m.encodeHeader size = .ok m' ∧ cellsOf (be32 size.toNat) <+: m'.data ∧
      m'.data.length = m.data.length ∧ m'.bodyLength = m.bodyLength := by
  have hlen : 4 ≤ m.data.length := hlen
  obtain ⟨m₀, h₀, d₀, l₀⟩ := writeByte_spec (m := m) (i := 0)
    (b := (size >>> 24 &&& 255).toUInt8) (by omega)
  obtain ⟨m₁, h₁, d₁, l₁⟩ := writeByte_spec (m := m₀) (i := 1)
    (b := (size >>> 16 &&& 255).toUInt8) (by rw [d₀, List.length_set]; omega)
  obtain ⟨m₂, h₂, d₂, l₂⟩ := writeByte_spec (m := m₁) (i := 2)
    (b := (size >>> 8 &&& 255).toUInt8) (by rw [d₁, d₀, List.length_set, List.length_set]; omega)
  obtain ⟨m₃, h₃, d₃, l₃⟩ := writeByte_spec (m := m₂) (i := 3) (b := (size &&& 255).toUInt8)
    (by rw [d₂, d₁, d₀, List.length_set, List.length_set, List.length_set]; omega)
  have hlast : (size &&& 255).toUInt8 = UInt8.ofNat size.toNat := by
    simpa using headerByte size 0 (by decide)
  refine ⟨m₃, ?_, ?_, ?_, ?_⟩
  · simp only [encodeHeader, h₀, h₁, h₂, h₃, bind, Except.bind]
  · rw [d₃, d₂, d₁, d₀, headerByte size 24 (by decide), headerByte size 16 (by decide),
      headerByte size 8 (by decide), hlast]
    exact prefix_set_four hlen _ _ _ _
  · rw [d₃, d₂, d₁, d₀]
    simp only [List.length_set]
  · rw [l₃, l₂, l₁, l₀]

/-- Decoding the header of a body of length `n` makes room for the body. -/
theorem decodeHeader_spec {n : ℕ} (hfits : Fits allocates n) (hn : n < 2 ^ 31)
    (h : cellsOf (be32 n) <+: m.data) :
    ∃ m', m.decodeHeader allocates = .ok (true, m') ∧ cellsOf (be32 n) <+: m'.data ∧
      headerLength + n ≤ m'.data.length ∧ m'.bodyLength.toNat = n := by
  have hbyte : ∀ {i b}, (be32 n)[i]? = some b → m.readByte i = .ok b := fun hb =>
    readByte_eq (getElem?_of_isPrefix h (by simp [cellsOf, hb]))
  have hvalue : (headerValue (UInt8.ofNat (n / 2 ^ 24)) (UInt8.ofNat (n / 2 ^ 16))
      (UInt8.ofNat (n / 2 ^ 8)) (UInt8.ofNat n)).toNat = n := by
    rw [toNat_headerValue, be32Value_be32 (by omega)]
  have hsize := toNat_signExtend (hvalue.symm ▸ hn)
  rw [hvalue] at hsize
  obtain ⟨m₁, h₁, hroom, hbody⟩ := setBodyLength_spec (m := m) (hsize.symm ▸ hfits)
    (hsize.symm ▸ hn)
  obtain ⟨m₂, h₂, hheader, hlen, hbody'⟩ := encodeHeader_spec (m := m₁)
    (Nat.le_of_add_right_le hroom) _
  rw [hsize] at hroom hbody
  refine ⟨m₂, ?_, hsize ▸ hheader, hlen ▸ hroom, by rw [hbody', hbody]⟩
  rw [decodeHeader, hbyte (i := 0) rfl, hbyte (i := 1) rfl, hbyte (i := 2) rfl, hbyte (i := 3) rfl]
  simp only [bind, Except.bind, h₁, h₂]
  rfl

/-- A message made from a body is sent as the header and the body. -/
theorem ofMessage_spec (halloc : Allocates allocates) {body : List UInt8} {buf : List Cell}
    (hn : body.length < 2 ^ 31) (h : cellsOf body <+: buf) :
    ∃ m, ofMessage allocates buf (UInt64.ofNat body.length) = .ok m ∧
      m.frame = .ok (be32 body.length ++ body) := by
  have hsize : (UInt64.ofNat body.length).toNat = body.length := by
    rw [UInt64.toNat_ofNat']
    exact Nat.mod_eq_of_lt (by omega)
  obtain ⟨m₁, h₁, hroom, hbody⟩ := setBodyLength_spec (m := empty)
    (hsize.symm ▸ halloc.fits hn) (hsize.symm ▸ hn)
  obtain ⟨m₂, h₂, hheader, hlen, hbody'⟩ := encodeHeader_spec (m := m₁)
    (Nat.le_of_add_right_le hroom) (UInt64.ofNat body.length)
  rw [hsize] at hroom hbody hheader
  obtain ⟨m₃, h₃, hdata, hbody''⟩ := copyIn_spec (m := m₂) headerLength
    (cellsOf body) (by rw [length_cellsOf, hlen]; exact hroom)
  have hframe : cellsOf (be32 body.length ++ body) <+: m₃.data := by
    rw [hdata, cellsOf_append]
    exact prefix_copyCells hheader (cellsOf body)
  have hlength : m₃.length.toNat = (be32 body.length ++ body).length := by
    rw [length, UInt32.toNat_add, hbody'', hbody', hbody, List.length_append, length_be32]
    exact Nat.mod_eq_of_lt (by simp [headerLength]; omega)
  refine ⟨m₃, ?_, ?_⟩
  · have hle := h.length_le
    rw [length_cellsOf] at hle
    rw [ofMessage, setMessage]
    simp only [bind, Except.bind, h₁, h₂, hsize, hle, if_true, take_eq_cellsOf h, h₃]
  · have hle := hframe.length_le
    rw [length_cellsOf] at hle
    rw [frame, hlength, if_pos hle, take_eq_cellsOf hframe, bytesOf_cellsOf]

/-- Allocations only matter in that they may fail. -/
theorem ofMessage_badAlloc_or (allocates : ℕ → Bool) (buf : List Cell) (size : UInt64) :
    ofMessage allocates buf size = .error .badAlloc ∨
      ofMessage allocates buf size = ofMessage (fun _ => true) buf size := by
  have hset : empty.setBodyLength allocates size = .error .badAlloc ∨
      empty.setBodyLength allocates size = empty.setBodyLength (fun _ => true) size := by
    unfold setBodyLength
    by_cases hbig : size > UInt64.ofNat maxNormalBodyLength
    · rw [if_pos hbig, if_pos hbig]
      by_cases hfits : allocates (UInt64.ofNat headerLength + size).toNat = true
      · exact .inr (if_pos hfits)
      · exact .inl (if_neg hfits)
    · simp [hbig]
  unfold ofMessage setMessage
  rcases hset with hset | hset
  · left
    rw [hset]
    rfl
  · right
    rw [hset]

end ProtocolMessage

namespace TaggedMessage

variable {allocates : ℕ → Bool} {t : TaggedMessage} {tag : ℤ} {body : List UInt8}

/-- The message has these contents and this tag. -/
structure Carries (t : TaggedMessage) (tag : ℤ) (body : List UInt8) : Prop where
  tag : t.tag = tag
  getSize : t.getSize.toInt = body.length
  size : t.size.toNat = body.length
  contents : cellsOf body <+: t.getMessageContents

theorem Carries.bytes_eq (h : t.Carries tag body) : t.bytes = .ok body := by
  have hle := h.contents.length_le
  rw [length_cellsOf] at hle
  rw [TaggedMessage.bytes, h.size, if_pos hle, take_eq_cellsOf h.contents, bytesOf_cellsOf]

theorem toInt_getSize {n : ℕ} (hn : n < 2 ^ 31) (h : t.size.toNat = n) :
    t.getSize.toInt = n := by
  have htoNat : t.size.toUInt32.toBitVec.toNat = n := by
    rw [UInt32.toNat_toBitVec, UInt64.toNat_toUInt32, h]
    exact Nat.mod_eq_of_lt (by omega)
  have hbits : t.getSize.toInt = t.size.toUInt32.toBitVec.toInt := rfl
  rw [hbits, BitVec.toInt_eq_toNat_of_lt (by rw [htoNat]; omega), htoNat]

/-- The size is an `int` that is converted to a `size_t`. -/
theorem Carries.toUInt64_getSize (h : t.Carries tag body) (hn : body.length < 2 ^ 31) :
    t.getSize.toInt64.toUInt64 = UInt64.ofNat body.length := by
  have hsize : t.size.toUInt32.toNat = body.length := by
    rw [UInt64.toNat_toUInt32, h.size]
    exact Nat.mod_eq_of_lt (by omega)
  apply UInt64.toNat_inj.mp
  rw [TaggedMessage.getSize, toNat_signExtend (hsize.symm ▸ hn), hsize, UInt64.toNat_ofNat']
  exact (Nat.mod_eq_of_lt (by omega)).symm

theorem ofBuffer_spec (tag : ℤ) (halloc : Allocates allocates) {msg : List Cell}
    (hn : body.length < 2 ^ 31) (h : cellsOf body <+: msg) :
    ∃ t, ofBuffer allocates msg (UInt64.ofNat body.length) tag = .ok t ∧ t.Carries tag body := by
  have hsize : (UInt64.ofNat body.length).toNat = body.length := by
    rw [UInt64.toNat_ofNat']
    exact Nat.mod_eq_of_lt (by omega)
  have hle := h.length_le
  rw [length_cellsOf] at hle
  have htake := take_eq_cellsOf h
  rw [ofBuffer, dif_pos (by rw [hsize]; exact hle)]
  by_cases hsmall : (UInt64.ofNat body.length).toNat ≤ maxNormalMsgSize
  · rw [dif_pos hsmall]
    refine ⟨_, rfl, rfl, toInt_getSize hn hsize, hsize, ?_⟩
    simp only [getMessageContents, Option.getD_none, hsize, htake]
    exact prefix_copyCells List.nil_prefix (cellsOf body)
  · rw [dif_neg hsmall, if_pos (halloc _ (by omega))]
    refine ⟨_, rfl, rfl, toInt_getSize hn hsize, hsize, ?_⟩
    simp only [getMessageContents, Option.getD_some, hsize, htake]
    exact List.prefix_refl _

/-- A message that is serialized into a new tagged message, where that can be allocated. -/
theorem serializeToArray_ofSize_spec (allocates : ℕ → Bool) (tag : ℤ) (hn : body.length < 2 ^ 31) :
    ofSize allocates (UInt64.ofNat body.length) tag = .error .badAlloc ∨
      ∃ t, (ofSize allocates (UInt64.ofNat body.length) tag >>= fun t => t.serializeToArray body) =
        .ok t ∧ t.Carries tag body := by
  have hsize : (UInt64.ofNat body.length).toNat = body.length := by
    rw [UInt64.toNat_ofNat']
    exact Nat.mod_eq_of_lt (by omega)
  rw [ofSize]
  by_cases hbig : (UInt64.ofNat body.length).toNat > maxNormalMsgSize
  · rw [if_pos hbig]
    by_cases hfits : allocates (UInt64.ofNat body.length).toNat = true
    · rw [if_pos hfits]
      have hle : body.length ≤
          (List.replicate (UInt64.ofNat body.length).toNat (none : Cell)).length := by
        rw [List.length_replicate, hsize]
      refine .inr ⟨_, (dif_pos hle).trans rfl, rfl, toInt_getSize hn hsize, hsize, ?_⟩
      exact prefix_copyCells List.nil_prefix (cellsOf body)
    · exact .inl (if_neg hfits)
  · rw [if_neg hbig]
    have hle : body.length ≤ (List.replicate maxNormalMsgSize (none : Cell)).length := by
      rw [List.length_replicate]
      omega
    refine .inr ⟨_, (dif_pos hle).trans rfl, rfl, toInt_getSize hn hsize, hsize, ?_⟩
    exact prefix_copyCells List.nil_prefix (cellsOf body)

end TaggedMessage

end FlexRan.Network
