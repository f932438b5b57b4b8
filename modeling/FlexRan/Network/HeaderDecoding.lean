import FlexRan.Network.ProtocolMessage

/-!
# Decoding arbitrary headers

The four bytes of a header come from the peer.  They are put together as an `int`, which is
converted to a `std::size_t`: a length from `2 ^ 31` on becomes one close to `2 ^ 64`, and the sum
with the length of the header may wrap around.  No header is ever refused.

## Main definitions

* `Requests m n`: a buffer of `n` bytes is requested.
* `Robust allocates m v`: the header is refused, or there is a buffer of the right size.
* `decodeHeader_robust_iff`: the headers that are decoded as they should be.
-/
namespace FlexRan.Network

open Lib

/-- The length of a header from `2 ^ 31` on is negative as an `int`, and huge as a `size_t`. -/
theorem toNat_signExtend_of_ge {n : UInt32} (h : 2 ^ 31 ≤ n.toNat) :
    n.toInt32.toInt64.toUInt64.toNat = 2 ^ 64 - 2 ^ 32 + n.toNat := by
  have hmsb : n.toBitVec.msb = true := by
    rw [BitVec.msb_eq_decide]
    simpa using h
  have hbits : n.toInt32.toInt64.toUInt64.toBitVec = n.toBitVec.signExtend 64 := rfl
  have hlt := n.toNat_lt
  rw [← UInt64.toNat_toBitVec, hbits, BitVec.toNat_signExtend, hmsb, if_pos rfl,
    BitVec.toNat_setWidth, UInt32.toNat_toBitVec, Nat.mod_eq_of_lt (by omega)]
  omega

namespace ProtocolMessage

/-- Whether `n` bytes can be allocated makes a difference. -/
def Requests (m : ProtocolMessage) (n : ℕ) : Prop :=
  m.decodeHeader (fun k => k != n) ≠ m.decodeHeader fun _ => true

/-- The header `v` is refused, or the body length is `v` and the buffer holds the header and has
room for the body; no buffer of another size is requested. -/
structure Robust (allocates : ℕ → Bool) (m : ProtocolMessage) (v : ℕ) : Prop where
  outcome : ∃ valid m', m.decodeHeader allocates = .ok (valid, m') ∧
    (valid = false ∨ m'.bodyLength.toNat = v ∧ headerLength + v ≤ m'.data.length ∧
      cellsOf (be32 v) <+: m'.data)
  requests : ∀ n, Requests m n → n = headerLength + v

/-! ## What is requested -/

variable {m : ProtocolMessage} {b₀ b₁ b₂ b₃ : UInt8}

/-- The length as it is passed on. -/
def extendedLength (b₀ b₁ b₂ b₃ : UInt8) : UInt64 :=
  (headerValue b₀ b₁ b₂ b₃).toInt32.toInt64.toUInt64

theorem decodeHeader_eq (allocates : ℕ → Bool) (h : cellsOf [b₀, b₁, b₂, b₃] <+: m.data) :
    m.decodeHeader allocates = do
      let m ← m.setBodyLength allocates (extendedLength b₀ b₁ b₂ b₃)
      let m ← m.encodeHeader (extendedLength b₀ b₁ b₂ b₃)
      return (true, m) := by
  have h₀ : m.readByte 0 = .ok b₀ := readByte_eq (getElem?_of_isPrefix h rfl)
  have h₁ : m.readByte 1 = .ok b₁ := readByte_eq (getElem?_of_isPrefix h rfl)
  have h₂ : m.readByte 2 = .ok b₂ := readByte_eq (getElem?_of_isPrefix h rfl)
  have h₃ : m.readByte 3 = .ok b₃ := readByte_eq (getElem?_of_isPrefix h rfl)
  rw [decodeHeader, h₀, h₁, h₂, h₃]
  rfl

/-- Writing the header may leave the buffer, but allocates nothing. -/
theorem encodeHeader_ne_badAlloc (m : ProtocolMessage) (size : UInt64) :
    m.encodeHeader size ≠ .error .badAlloc := by
  have hwrite : ∀ (m : ProtocolMessage) i b, m.writeByte i b ≠ .error .badAlloc := by
    intro m i b
    rw [writeByte]
    split
    · split <;> simp
    · simp
  have hbind : ∀ {x : Except Fault ProtocolMessage} {f : ProtocolMessage → Except Fault
      ProtocolMessage}, x ≠ .error .badAlloc → (∀ m, f m ≠ .error .badAlloc) →
      x >>= f ≠ .error .badAlloc := by
    intro x f hx hf
    cases x with
    | error e => exact fun heq => hx (congrArg Except.error (Except.error.inj heq))
    | ok m => exact hf m
  exact hbind (hwrite m _ _) fun m₀ => hbind (hwrite m₀ _ _) fun m₁ =>
    hbind (hwrite m₁ _ _) fun m₂ => hwrite m₂ _ _

/-- The size of the heap buffer for a length, a sum of machine integers. -/
def bufferSize (size : UInt64) : ℕ := (UInt64.ofNat headerLength + size).toNat

theorem lt_maxNormalBodyLength_iff (size : UInt64) :
    size > UInt64.ofNat maxNormalBodyLength ↔ maxNormalBodyLength < size.toNat :=
  UInt64.lt_iff_toNat_lt

theorem setBodyLength_of_lt {size : UInt64} (h : maxNormalBodyLength < size.toNat)
    (allocates : ℕ → Bool) (m : ProtocolMessage) : m.setBodyLength allocates size =
      if allocates (bufferSize size) then
        .ok { m with
          heapData := some (List.replicate (bufferSize size) none), bodyLength := size.toUInt32 }
      else .error .badAlloc :=
  if_pos ((lt_maxNormalBodyLength_iff size).mpr h)

theorem setBodyLength_of_le {size : UInt64} (h : size.toNat ≤ maxNormalBodyLength)
    (allocates : ℕ → Bool) (m : ProtocolMessage) : m.setBodyLength allocates size =
      .ok { m with heapData := none, bodyLength := size.toUInt32 } :=
  if_neg fun hgt => Nat.not_lt.mpr h ((lt_maxNormalBodyLength_iff size).mp hgt)

/-- A heap buffer is requested for long bodies only. -/
theorem requests_iff (h : cellsOf [b₀, b₁, b₂, b₃] <+: m.data) (n : ℕ) :
    Requests m n ↔ maxNormalBodyLength < (extendedLength b₀ b₁ b₂ b₃).toNat ∧
      n = bufferSize (extendedLength b₀ b₁ b₂ b₃) := by
  rw [Requests, decodeHeader_eq _ h, decodeHeader_eq _ h]
  generalize extendedLength b₀ b₁ b₂ b₃ = size
  rcases Nat.lt_or_ge maxNormalBodyLength size.toNat with hlong | hshort
  · rw [setBodyLength_of_lt hlong, setBodyLength_of_lt hlong, if_pos rfl]
    by_cases hn : n = bufferSize size
    · refine iff_of_true (fun heq => ?_) ⟨hlong, hn⟩
      -- without this allocation there is no message
      rw [if_neg (by simp [hn])] at heq
      rcases bind_eq_error_iff.mp heq.symm with hset | ⟨m', _, hrest⟩
      · exact absurd hset (by simp)
      · rcases bind_eq_error_iff.mp hrest with hencode | ⟨_, _, hpure⟩
        · exact encodeHeader_ne_badAlloc m' size hencode
        · exact nomatch hpure
    · refine iff_of_false (fun hne => hne ?_) fun hand => hn hand.2
      rw [if_pos (bne_iff_ne.mpr (Ne.symm hn))]
  · rw [setBodyLength_of_le hshort, setBodyLength_of_le hshort]
    exact iff_of_false (fun hne => hne rfl) fun hand => absurd hand.1 (Nat.not_lt.mpr hshort)

/-! ## Headers that are decoded as they should be -/

theorem toNat_extendedLength_of_lt (h : be32Value b₀ b₁ b₂ b₃ < 2 ^ 31) :
    (extendedLength b₀ b₁ b₂ b₃).toNat = be32Value b₀ b₁ b₂ b₃ := by
  rw [← toNat_headerValue] at h ⊢
  exact toNat_signExtend h

theorem toNat_extendedLength_of_ge (h : 2 ^ 31 ≤ be32Value b₀ b₁ b₂ b₃) :
    (extendedLength b₀ b₁ b₂ b₃).toNat = 2 ^ 64 - 2 ^ 32 + be32Value b₀ b₁ b₂ b₃ := by
  rw [← toNat_headerValue] at h ⊢
  exact toNat_signExtend_of_ge h

theorem bufferSize_eq (size : UInt64) : bufferSize size = (4 + size.toNat) % 2 ^ 64 := by
  rw [bufferSize, UInt64.toNat_add]
  rfl

/-- A negative length requests a buffer of another size. -/
theorem not_robust_of_ge {allocates : ℕ → Bool} (h : cellsOf [b₀, b₁, b₂, b₃] <+: m.data)
    (hv : 2 ^ 31 ≤ be32Value b₀ b₁ b₂ b₃) :
    ¬ Robust allocates m (be32Value b₀ b₁ b₂ b₃) := by
  intro hrobust
  have hlength := toNat_extendedLength_of_ge hv
  have hlt := be32Value_lt b₀ b₁ b₂ b₃
  have hrequested := hrobust.requests _ ((requests_iff h _).mpr ⟨?_, rfl⟩)
  · rw [bufferSize_eq, hlength, headerLength] at hrequested
    omega
  · rw [hlength, maxNormalBodyLength]
    omega

/-- A header is decoded as it should be exactly if its length is not negative as an `int` and the
buffer can be allocated. -/
theorem decodeHeader_robust_iff (allocates : ℕ → Bool) (m : ProtocolMessage)
    (b₀ b₁ b₂ b₃ : UInt8) (h : cellsOf [b₀, b₁, b₂, b₃] <+: m.data) :
    Robust allocates m (be32Value b₀ b₁ b₂ b₃) ↔
      be32Value b₀ b₁ b₂ b₃ < 2 ^ 31 ∧ Fits allocates (be32Value b₀ b₁ b₂ b₃) := by
  constructor
  · intro hrobust
    have hv : be32Value b₀ b₁ b₂ b₃ < 2 ^ 31 := by
      by_contra hge
      exact not_robust_of_ge h (Nat.le_of_not_lt hge) hrobust
    refine ⟨hv, fun hlong => ?_⟩
    by_contra hfull
    have hlength := toNat_extendedLength_of_lt hv
    obtain ⟨valid, m', hdecode, -⟩ := hrobust.outcome
    have hsize : bufferSize (extendedLength b₀ b₁ b₂ b₃) =
        headerLength + be32Value b₀ b₁ b₂ b₃ := by
      rw [bufferSize_eq, hlength, headerLength]
      omega
    rw [decodeHeader_eq _ h, setBodyLength_of_lt (hlength.symm ▸ hlong), hsize, if_neg hfull]
      at hdecode
    obtain ⟨_, hset, -⟩ := bind_eq_ok_iff.mp hdecode
    exact absurd hset (by simp)
  · rintro ⟨hv, hfits⟩
    have hlength := toNat_extendedLength_of_lt hv
    constructor
    case outcome =>
      obtain ⟨m', hdecode, hheader, hroom, hbody⟩ := decodeHeader_spec hfits hv
        (be32_be32Value b₀ b₁ b₂ b₃ ▸ h)
      exact ⟨true, m', hdecode, .inr ⟨hbody, hroom, hheader⟩⟩
    case requests =>
      intro n hn
      obtain ⟨-, rfl⟩ := (requests_iff h n).mp hn
      rw [bufferSize_eq, hlength, headerLength]
      omega

/-- A new message that has received these bytes. -/
def received (b₀ b₁ b₂ b₃ : UInt8) : ProtocolMessage :=
  { empty with
    statData := ⟨cellsOf [b₀, b₁, b₂, b₃] ++ List.replicate maxNormalBodyLength none, by
      rw [List.length_append, length_cellsOf, List.length_replicate]
      rfl⟩ }

theorem received_isPrefix (b₀ b₁ b₂ b₃ : UInt8) :
    cellsOf [b₀, b₁, b₂, b₃] <+: (received b₀ b₁ b₂ b₃).data :=
  List.prefix_append _ _

theorem robust_received : Robust (fun _ => true) (received 0 1 0 0) (be32Value 0 1 0 0) :=
  (decodeHeader_robust_iff (fun _ => true) (received 0 1 0 0) 0 1 0 0
    (received_isPrefix 0 1 0 0)).mpr ⟨by decide, fun _ => rfl⟩

/-- The buffer for a length of -1 has three bytes, and the fourth byte of the header is written
behind it. -/
theorem not_robust_received :
    ¬ Robust (fun _ => true) (received 255 255 255 255) (be32Value 255 255 255 255) ∧
      (received 255 255 255 255).decodeHeader (fun _ => true) = .error .outOfBounds := by
  have h := received_isPrefix 255 255 255 255
  refine ⟨not_robust_of_ge h (by decide), ?_⟩
  have hlong : maxNormalBodyLength < (extendedLength 255 255 255 255).toNat := by decide
  have hsize : bufferSize (extendedLength 255 255 255 255) = 3 := by decide
  rw [decodeHeader_eq _ h, setBodyLength_of_lt hlong, hsize, if_pos rfl]
  rfl

end ProtocolMessage
end FlexRan.Network
