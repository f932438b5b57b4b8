import Mathlib

/-!
# Binary input

A reader takes bytes from the front of an input and leaves the rest to the next one.  What has
been written piece by piece is therefore read back piece by piece: `Decodes` says that a reader
takes exactly the bytes of a value and returns the value, whatever follows them, and its rules
follow the structure of the reader.  Numbers are stored in little-endian order.

## Main definitions

* `leBytes w n`, `leValue`: a number in `w` bytes, and the number some bytes stand for.
* `Reader φ α`, `takeBytes`, `times`: readers and the ways to combine them.
* `Decodes m bytes a`: the reader returns `a` on an input that starts with `bytes`.
-/
namespace FlexRan.Lib

/-! ## Numbers -/

/-- The low `w` bytes of a number, the lowest one first. -/
def leBytes : ℕ → ℕ → List UInt8
  | 0, _ => []
  | w + 1, n => UInt8.ofNat n :: leBytes w (n / 256)

def leValue (bytes : List UInt8) : ℕ := bytes.foldr (fun b n => b.toNat + 256 * n) 0

@[simp] theorem length_leBytes (w n : ℕ) : (leBytes w n).length = w := by
  induction w generalizing n with
  | zero => rfl
  | succ w ih => rw [leBytes, List.length_cons, ih]

theorem leValue_leBytes {w n : ℕ} (h : n < 256 ^ w) : leValue (leBytes w n) = n := by
  induction w generalizing n with
  | zero =>
    obtain rfl : n = 0 := by simpa using h
    rfl
  | succ w ih =>
    have hrest : n / 256 < 256 ^ w := by
      rw [Nat.div_lt_iff_lt_mul (by decide), ← pow_succ]
      exact h
    have hbyte : (UInt8.ofNat n).toNat = n % 256 := rfl
    calc leValue (leBytes (w + 1) n) = (UInt8.ofNat n).toNat + 256 * leValue (leBytes w (n / 256)) :=
          rfl
      _ = n % 256 + 256 * (n / 256) := by rw [hbyte, ih hrest]
      _ = n := Nat.mod_add_div n 256

/-! ## Readers -/

/-- A reader takes bytes from the front of its input, or fails. -/
abbrev Reader (φ : Type) := StateT (List UInt8) (Except φ)

namespace Reader

variable {φ α β : Type}

/-- The next `n` bytes; fewer are a failure. -/
def takeBytes (short : φ) (n : ℕ) : Reader φ (List UInt8) := fun input =>
  if n ≤ input.length then .ok (input.take n, input.drop n) else .error short

/-- A number of `w` bytes. -/
def number (short : φ) (w : ℕ) : Reader φ ℕ := do
  let bytes ← takeBytes short w
  return leValue bytes

/-- The values of `n` rounds of a reader. -/
def times (m : Reader φ α) : ℕ → Reader φ (List α)
  | 0 => return []
  | n + 1 => do
    let a ← m
    let as ← times m n
    return a :: as

/-- The reader takes the bytes and returns the value, whatever follows them. -/
def Decodes (m : Reader φ α) (bytes : List UInt8) (a : α) : Prop :=
  ∀ rest, m.run (bytes ++ rest) = .ok (a, rest)

theorem Decodes.pure (a : α) : Decodes (Pure.pure a : Reader φ α) [] a := fun _ => rfl

theorem Decodes.bind {m : Reader φ α} {f : α → Reader φ β} {x y : List UInt8} {a : α} {b : β}
    (hm : Decodes m x a) (hf : Decodes (f a) y b) : Decodes (m >>= f) (x ++ y) b := by
  intro rest
  rw [StateT.run_bind, List.append_assoc, hm]
  exact hf rest

/-- A value computed from what has been read. -/
theorem Decodes.bind_pure {m : Reader φ α} {f : α → β} {x : List UInt8} {a : α} {b : β}
    (hm : Decodes m x a) (hb : f a = b) : Decodes (m >>= fun a => Pure.pure (f a)) x b := by
  have h := hm.bind (f := fun a => (Pure.pure (f a) : Reader φ β)) (Decodes.pure (f a))
  rwa [List.append_nil, hb] at h

theorem decodes_takeBytes (short : φ) (bytes : List UInt8) :
    Decodes (takeBytes short bytes.length) bytes bytes := by
  intro rest
  have hlength : bytes.length ≤ (bytes ++ rest).length := by simp
  have hrun : (takeBytes short bytes.length).run (bytes ++ rest) =
      .ok ((bytes ++ rest).take bytes.length, (bytes ++ rest).drop bytes.length) := if_pos hlength
  rw [hrun, List.take_left, List.drop_left]

/-- The value of any bytes. -/
theorem decodes_leValue (short : φ) (bytes : List UInt8) :
    Decodes (number short bytes.length) bytes (leValue bytes) :=
  (decodes_takeBytes short bytes).bind_pure rfl

theorem decodes_number (short : φ) {w n : ℕ} (h : n < 256 ^ w) :
    Decodes (number short w) (leBytes w n) n := by
  have hvalue := decodes_leValue short (leBytes w n)
  rwa [length_leBytes, leValue_leBytes h] at hvalue

theorem run_number_eq_ok_iff {short : φ} {w n : ℕ} {input rest : List UInt8} :
    (number short w).run input = .ok (n, rest) ↔
      w ≤ input.length ∧ n = leValue (input.take w) ∧ rest = input.drop w := by
  have htake : (takeBytes short w).run input = if w ≤ input.length then
      .ok (input.take w, input.drop w) else .error short := rfl
  have hrun : (number short w).run input = if w ≤ input.length then
      .ok (leValue (input.take w), input.drop w) else .error short := by
    rw [number, StateT.run_bind, htake]
    split <;> rfl
  rw [hrun]
  by_cases h : w ≤ input.length
  · simp [h, eq_comm]
  · simp [h]

/-- A list of values whose bytes stand one after the other. -/
theorem decodes_times_of_forall₂ {m : Reader φ α} {pieces : List (List UInt8)} {as : List α}
    (h : List.Forall₂ (Decodes m) pieces as) :
    Decodes (times m as.length) pieces.flatten as := by
  induction h with
  | nil => exact Decodes.pure []
  | cons ha _ ih =>
    rw [List.flatten_cons]
    exact ha.bind (ih.bind_pure rfl)

/-- A list whose elements are written one after the other. -/
theorem decodes_times {m : Reader φ α} {write : α → List UInt8} {l : List α}
    (h : ∀ a ∈ l, Decodes m (write a) a) : Decodes (times m l.length) (l.flatMap write) l := by
  rw [List.flatMap_def]
  exact decodes_times_of_forall₂ (List.forall₂_map_left_iff.mpr (List.forall₂_same.mpr h))

end Reader
end FlexRan.Lib
