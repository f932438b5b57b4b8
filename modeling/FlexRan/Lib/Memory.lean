import Mathlib

/-!
# Byte buffers with uninitialised cells

A buffer is a list of cells; a cell that was never written has no value.  What a program has
written to a buffer from its start is a prefix of the buffer, and the lemmas say how a prefix
grows by stores and survives.  The second part is the big-endian representation of a length in
four bytes.

## Main definitions

* `Cell`, `cellsOf bytes`: the cells of a fully initialised piece of memory.
* `copyCells buf off src`: the buffer after a copy.
* `be32 n`, `be32Value`: four bytes and the number they stand for.
-/
namespace FlexRan.Lib

/-- A byte of memory; `none` before the first write. -/
abbrev Cell := Option UInt8

def cellsOf (bytes : List UInt8) : List Cell := bytes.map some

@[simp] theorem length_cellsOf (bytes : List UInt8) : (cellsOf bytes).length = bytes.length := by
  simp [cellsOf]

@[simp] theorem cellsOf_append (a b : List UInt8) : cellsOf (a ++ b) = cellsOf a ++ cellsOf b := by
  simp [cellsOf]

/-- The bytes of memory that is initialised throughout. -/
def bytesOf (cells : List Cell) : Option (List UInt8) := cells.mapM id

@[simp] theorem bytesOf_cellsOf (bytes : List UInt8) : bytesOf (cellsOf bytes) = some bytes := by
  induction bytes with
  | nil => rfl
  | cons b bytes ih =>
    rw [cellsOf, List.map_cons, ← cellsOf, bytesOf, List.mapM_cons]
    rw [bytesOf] at ih
    simp [ih]

/-- The buffer after `src` has been copied to offset `off`, where it fits. -/
def copyCells (buf : List Cell) (off : ℕ) (src : List Cell) : List Cell :=
  buf.take off ++ src ++ buf.drop (off + src.length)

theorem length_copyCells {buf : List Cell} {off : ℕ} {src : List Cell}
    (h : off + src.length ≤ buf.length) : (copyCells buf off src).length = buf.length := by
  simp only [copyCells, List.length_append, List.length_take, List.length_drop]
  omega

variable {pre buf : List Cell}

/-- A store right after a prefix extends it. -/
theorem prefix_set (h : pre <+: buf) (hlt : pre.length < buf.length) (c : Cell) :
    pre ++ [c] <+: buf.set pre.length c := by
  obtain ⟨rest, rfl⟩ := h
  cases rest with
  | nil => simp at hlt
  | cons d rest => exact ⟨rest, by simp⟩

/-- A copy right after a prefix extends it. -/
theorem prefix_copyCells (h : pre <+: buf) (src : List Cell) :
    pre ++ src <+: copyCells buf pre.length src := by
  obtain ⟨rest, rfl⟩ := h
  refine ⟨(pre ++ rest).drop (pre.length + src.length), ?_⟩
  rw [copyCells, List.take_left]

/-- Four stores from the start of a buffer. -/
theorem prefix_set_four (hlen : 4 ≤ buf.length) (c₀ c₁ c₂ c₃ : Cell) :
    [c₀, c₁, c₂, c₃] <+: (((buf.set 0 c₀).set 1 c₁).set 2 c₂).set 3 c₃ := by
  match buf, hlen with
  | _ :: _ :: _ :: _ :: rest, _ => exact ⟨rest, rfl⟩

theorem getElem?_of_isPrefix (h : pre <+: buf) {i : ℕ} {c : Cell} (hi : pre[i]? = some c) :
    buf[i]? = some c := by
  obtain ⟨rest, rfl⟩ := h
  rw [List.getElem?_append_left (List.getElem?_eq_some_iff.mp hi).1]
  exact hi

/-- What was written to the start of a buffer can be taken from it. -/
theorem take_eq_cellsOf {bytes : List UInt8} (h : cellsOf bytes <+: buf) :
    buf.take bytes.length = cellsOf bytes := by
  rw [← length_cellsOf]
  exact (List.prefix_iff_eq_take.mp h).symm

/-! ## Big-endian lengths -/

/-- The four bytes of `n`, the most significant one first. -/
def be32 (n : ℕ) : List UInt8 :=
  [UInt8.ofNat (n / 2 ^ 24), UInt8.ofNat (n / 2 ^ 16), UInt8.ofNat (n / 2 ^ 8), UInt8.ofNat n]

def be32Value (b₀ b₁ b₂ b₃ : UInt8) : ℕ :=
  b₀.toNat * 2 ^ 24 + b₁.toNat * 2 ^ 16 + b₂.toNat * 2 ^ 8 + b₃.toNat

@[simp] theorem length_be32 (n : ℕ) : (be32 n).length = 4 := rfl

theorem be32Value_be32 {n : ℕ} (h : n < 2 ^ 32) :
    be32Value (UInt8.ofNat (n / 2 ^ 24)) (UInt8.ofNat (n / 2 ^ 16)) (UInt8.ofNat (n / 2 ^ 8))
      (UInt8.ofNat n) = n := by
  simp only [be32Value, UInt8.toNat_ofNat']
  omega

theorem be32_be32Value (b₀ b₁ b₂ b₃ : UInt8) :
    be32 (be32Value b₀ b₁ b₂ b₃) = [b₀, b₁, b₂, b₃] := by
  have h₀ := b₀.toNat_lt
  have h₁ := b₁.toNat_lt
  have h₂ := b₂.toNat_lt
  have h₃ := b₃.toNat_lt
  simp only [be32, be32Value, List.cons.injEq, ← UInt8.toNat_inj, UInt8.toNat_ofNat', and_true,
    Nat.reducePow]
  omega

theorem be32Value_lt (b₀ b₁ b₂ b₃ : UInt8) : be32Value b₀ b₁ b₂ b₃ < 2 ^ 32 := by
  have h₀ := b₀.toNat_lt
  have h₁ := b₁.toNat_lt
  have h₂ := b₂.toNat_lt
  have h₃ := b₃.toNat_lt
  rw [be32Value]
  omega

end FlexRan.Lib
