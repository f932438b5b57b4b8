import FlexRan.Lib.Codec
import FlexRan.Lib.Operation

/-!
# Formats

A format is a language of byte strings: numbers of a fixed width, sequences of formats, and lists
whose number of elements comes first.  A decoder recognises a format if it succeeds exactly on the
inputs that start with one of its words, and takes that word.  The rules follow the structure of
the decoder, so that the inputs a decoder is safe on can be read off its program.

A decoder also records the sizes of the strings it allocates.  Without the record it is a reader.

## Main definitions

* `Input`, `Decoder φ α`: what is left of the input, and operations on it.
* `Recognises m L`: the decoder takes a word of `L` or fails.
* `Unrecorded m r`: without the record, the decoder is the reader `r`.
* `bytes w`, `counted w L`: formats.
-/
namespace FlexRan.Lib

open Operation Reader

/-! ## Decoders -/

/-- What is left of an input, and the sizes of the strings that have been allocated. -/
structure Input where
  rest : List UInt8
  allocated : List ℕ := []

abbrev Decoder (φ : Type) := Operation Input φ

namespace Decoder

variable {φ α β : Type}

/-- A reader as a decoder. -/
def ofReader (m : Reader φ α) : Decoder φ α := do
  let s ← get
  match m.run s.rest with
  | .ok (a, rest) =>
    set { s with rest := rest }
    return a
  | .error e => throw e

def allocate (n : ℕ) : Decoder φ Unit :=
  modify fun s => { s with allocated := n :: s.allocated }

/-- The values of `n` rounds of a decoder. -/
def times (m : Decoder φ α) : ℕ → Decoder φ (List α)
  | 0 => return []
  | n + 1 => do
    let a ← m
    let as ← times m n
    return a :: as

section Primitives

variable {m : Reader φ α} {s : Input}

theorem exec_ofReader_ok {a : α} {rest : List UInt8} (h : m.run s.rest = .ok (a, rest)) :
    exec (ofReader m) s = (.ok a, { s with rest := rest }) := by
  rw [ofReader, exec_bind_of_ok (exec_get s)]
  simp only [h]
  rfl

theorem exec_ofReader_error {e : φ} (h : m.run s.rest = .error e) :
    exec (ofReader m) s = (.error e, s) := by
  rw [ofReader, exec_bind_of_ok (exec_get s)]
  simp only [h]
  rfl

theorem exec_ofReader_eq_ok_iff {a : α} {t : Input} :
    exec (ofReader m) s = (.ok a, t) ↔
      m.run s.rest = .ok (a, t.rest) ∧ t.allocated = s.allocated := by
  cases h : m.run s.rest with
  | error e =>
    rw [exec_ofReader_error h]
    simp
  | ok r =>
    obtain ⟨b, rest⟩ := r
    rw [exec_ofReader_ok h, Prod.mk.injEq, Except.ok.injEq, Except.ok.injEq, Prod.mk.injEq]
    constructor
    · rintro ⟨rfl, rfl⟩
      exact ⟨⟨rfl, rfl⟩, rfl⟩
    · rintro ⟨⟨rfl, rfl⟩, hallocated⟩
      exact ⟨rfl, by rw [← hallocated]⟩

theorem exec_allocate_bind (n : ℕ) (f : Unit → Decoder φ β) (s : Input) :
    exec (allocate n >>= f) s = exec (f ()) { s with allocated := n :: s.allocated } := rfl

end Primitives

/-! ## Without the record -/

/-- The decoder is the reader, but for the record. -/
def Unrecorded (m : Decoder φ α) (r : Reader φ α) : Prop :=
  ∀ s, r.run s.rest = (exec m s).1.map fun a => (a, (exec m s).2.rest)

theorem Unrecorded.pure (a : α) : Unrecorded (Pure.pure a : Decoder φ α) (Pure.pure a) :=
  fun _ => rfl

theorem unrecorded_ofReader (r : Reader φ α) : Unrecorded (ofReader r) r := by
  intro s
  cases h : r.run s.rest with
  | error e => rw [exec_ofReader_error h]; rfl
  | ok a => rw [exec_ofReader_ok h]; rfl

theorem Unrecorded.bind {m : Decoder φ α} {r : Reader φ α} {f : α → Decoder φ β}
    {g : α → Reader φ β} (hm : Unrecorded m r) (hf : ∀ a, Unrecorded (f a) (g a)) :
    Unrecorded (m >>= f) (r >>= g) := by
  intro s
  rw [StateT.run_bind, hm s, exec_bind]
  cases exec m s with
  | mk result t =>
    cases result with
    | error e => rfl
    | ok a => exact hf a t

theorem Unrecorded.allocate {n : ℕ} {f : Unit → Decoder φ β} {r : Reader φ β}
    (hf : Unrecorded (f ()) r) : Unrecorded (Decoder.allocate n >>= f) r :=
  fun s => hf { s with allocated := n :: s.allocated }

theorem Unrecorded.times {m : Decoder φ α} {r : Reader φ α} (hm : Unrecorded m r) (n : ℕ) :
    Unrecorded (times m n) (Reader.times r n) := by
  induction n with
  | zero => exact Unrecorded.pure []
  | succ n ih => exact hm.bind fun a => ih.bind fun as => Unrecorded.pure (a :: as)

/-! ## Recognition -/

/-- The sizes recorded since `s` do not exceed `n`. -/
def Bounded (n : ℕ) (s t : Input) : Prop := ∀ k ∈ t.allocated, k ∈ s.allocated ∨ k ≤ n

/-- The decoder takes a word of the format from the front of the input, or fails. What it returns
depends on the word only, and no string it allocates is longer than the word. -/
structure Recognises (m : Decoder φ α) (L : Language UInt8) : Prop where
  accepts : ∀ x ∈ L, ∃ a, ∀ s rest, s.rest = x ++ rest →
    ∃ t, exec m s = (.ok a, t) ∧ t.rest = rest ∧ Bounded x.length s t
  sound : ∀ s a t, exec m s = (.ok a, t) → ∃ x ∈ L, s.rest = x ++ t.rest

theorem Recognises.pure (a : α) : Recognises (Pure.pure a : Decoder φ α) 1 where
  accepts x hx := by
    obtain rfl := (Language.mem_one x).mp hx
    exact ⟨a, fun s rest hs => ⟨s, rfl, hs, fun k hk => .inl hk⟩⟩
  sound s b t h := by
    obtain ⟨-, rfl⟩ := Prod.mk.inj h
    exact ⟨[], Language.nil_mem_one, rfl⟩

theorem Bounded.trans {k n : ℕ} {s t u : Input} (h₁ : Bounded k s t) (h₂ : Bounded n t u) :
    Bounded (k + n) s u := by
  intro i hi
  rcases h₂ i hi with hi | hi
  · exact (h₁ i hi).imp_right fun h => by omega
  · exact .inr (by omega)

theorem Recognises.bind {m : Decoder φ α} {f : α → Decoder φ β} {L M : Language UInt8}
    (hm : Recognises m L) (hf : ∀ a, Recognises (f a) M) : Recognises (m >>= f) (L * M) where
  accepts z hz := by
    obtain ⟨x, hx, y, hy, rfl⟩ := Language.mem_mul.mp hz
    obtain ⟨a, ha⟩ := hm.accepts x hx
    obtain ⟨b, hb⟩ := (hf a).accepts y hy
    refine ⟨b, fun s rest hs => ?_⟩
    obtain ⟨t, ht, htrest, hbounded⟩ := ha s (y ++ rest) (by rw [hs, List.append_assoc])
    obtain ⟨u, hu, hurest, hbounded'⟩ := hb t rest htrest
    refine ⟨u, (exec_bind_of_ok ht).trans hu, hurest, ?_⟩
    rw [List.length_append]
    exact hbounded.trans hbounded'
  sound s b u h := by
    obtain ⟨a, t, ha, hb⟩ := exec_bind_eq_ok_iff.mp h
    obtain ⟨x, hx, hs⟩ := hm.sound s a t ha
    obtain ⟨y, hy, ht⟩ := (hf a).sound t b u hb
    exact ⟨x ++ y, Language.append_mem_mul hx hy, by rw [hs, ht, List.append_assoc]⟩

/-- No word of the format is the beginning of another one. -/
theorem Recognises.eq_of_append_eq {m : Decoder φ α} {L : Language UInt8} (hm : Recognises m L)
    {x y rest : List UInt8} (hx : x ∈ L) (hy : y ∈ L) (h : x ++ rest = y) : x = y := by
  obtain ⟨a, ha⟩ := hm.accepts x hx
  obtain ⟨b, hb⟩ := hm.accepts y hy
  obtain ⟨t, ht, htrest, -⟩ := ha { rest := y } rest h.symm
  obtain ⟨u, hu, hurest, -⟩ := hb { rest := y } [] (List.append_nil y).symm
  obtain ⟨-, rfl⟩ := Prod.mk.inj (ht.symm.trans hu)
  rw [← h, ← htrest, hurest, List.append_nil]

/-- A value computed from what has been decoded. -/
theorem Recognises.map {m : Decoder φ α} {f : α → β} {L : Language UInt8} (hm : Recognises m L) :
    Recognises (m >>= fun a => Pure.pure (f a)) L := by
  have h := hm.bind fun a => Recognises.pure (f a)
  rwa [mul_one] at h

theorem Recognises.times {m : Decoder φ α} {L : Language UInt8} (hm : Recognises m L) (n : ℕ) :
    Recognises (times m n) (L ^ n) := by
  induction n with
  | zero => exact Recognises.pure []
  | succ n ih =>
    rw [pow_succ']
    exact hm.bind fun a => ih.map

/-- The words of `w` bytes. -/
def bytes (w : ℕ) : Language UInt8 := { x | x.length = w }

/-- A number of `w` bytes, and as many words of a format. -/
def counted (w : ℕ) (L : Language UInt8) : Language UInt8 :=
  { x | ∃ head ∈ bytes w, ∃ y ∈ L ^ leValue head, head ++ y = x }

theorem exec_number (short : φ) {s : Input} {head rest : List UInt8}
    (hs : s.rest = head ++ rest) : exec (ofReader (number short head.length)) s =
      (.ok (leValue head), { s with rest := rest }) := by
  refine exec_ofReader_ok (run_number_eq_ok_iff.mpr ⟨?_, ?_, ?_⟩)
  · rw [hs, List.length_append]
    exact Nat.le_add_right _ _
  · rw [hs, List.take_left]
  · rw [hs, List.drop_left]

/-- What follows a number may depend on it. -/
theorem Recognises.number_bind {f : ℕ → Decoder φ β} {M : ℕ → Language UInt8}
    (hf : ∀ n, Recognises (f n) (M n)) (short : φ) (w : ℕ) :
    Recognises (ofReader (number short w) >>= f)
      { x | ∃ head ∈ bytes w, ∃ y ∈ M (leValue head), head ++ y = x } where
  accepts z hz := by
    obtain ⟨head, rfl, y, hy, rfl⟩ := hz
    obtain ⟨b, hb⟩ := (hf (leValue head)).accepts y hy
    refine ⟨b, fun s rest hs => ?_⟩
    rw [List.append_assoc] at hs
    obtain ⟨t, ht, htrest, hbounded⟩ := hb { s with rest := y ++ rest } rest rfl
    refine ⟨t, (exec_bind_of_ok (exec_number _ hs)).trans ht, htrest, fun k hk => ?_⟩
    rw [List.length_append]
    exact (hbounded k hk).imp_right fun h => by omega
  sound s b u h := by
    obtain ⟨n, t, hn, hb⟩ := exec_bind_eq_ok_iff.mp h
    obtain ⟨hread, -⟩ := exec_ofReader_eq_ok_iff.mp hn
    obtain ⟨hlength, rfl, hrest⟩ := run_number_eq_ok_iff.mp hread
    obtain ⟨y, hy, ht⟩ := (hf _).sound t b u hb
    refine ⟨s.rest.take w ++ y, ⟨_, List.length_take_of_le hlength, y, hy, rfl⟩, ?_⟩
    rw [List.append_assoc, ← ht, hrest, List.take_append_drop]

theorem recognises_number (short : φ) (w : ℕ) :
    Recognises (ofReader (number short w)) (bytes w) := by
  have h := Recognises.number_bind (fun n => Recognises.pure n) short w
  have hformat : { x | ∃ head ∈ bytes w, ∃ y ∈ (1 : Language UInt8), head ++ y = x } = bytes w := by
    ext x
    constructor
    · rintro ⟨head, hhead, y, hy, rfl⟩
      obtain rfl := (Language.mem_one y).mp hy
      rwa [List.append_nil]
    · exact fun hx => ⟨x, hx, [], Language.nil_mem_one, List.append_nil x⟩
  rwa [bind_pure, hformat] at h

theorem Recognises.counted {m : Decoder φ α} {L : Language UInt8} (hm : Recognises m L)
    (short : φ) (w : ℕ) :
    Recognises (ofReader (number short w) >>= fun n => Decoder.times m n) (counted w L) :=
  Recognises.number_bind (fun n => hm.times n) short w

theorem nil_notMem_counted {w : ℕ} (hw : w ≠ 0) (L : Language UInt8) : [] ∉ counted w L := by
  rintro ⟨head, rfl, y, -, h⟩
  exact hw (List.length_eq_zero_iff.mpr (List.append_eq_nil_iff.mp h).1)

theorem nil_notMem_bytes {w : ℕ} (hw : w ≠ 0) : [] ∉ bytes w := fun h => hw h.symm

theorem nil_notMem_mul {L M : Language UInt8} (hM : [] ∉ M) : [] ∉ L * M := by
  rw [Language.mem_mul]
  rintro ⟨x, -, y, hy, h⟩
  exact hM ((List.append_eq_nil_iff.mp h).2 ▸ hy)

/-! ### What the reader makes of it -/

section Reading

variable {m : Decoder φ α} {r : Reader φ α} {L : Language UInt8}

/-- The reader decodes every word of the format. -/
theorem Recognises.exists_decodes (hm : Recognises m L) (hr : Unrecorded m r) {x : List UInt8}
    (hx : x ∈ L) : ∃ a, Decodes r x a := by
  obtain ⟨a, ha⟩ := hm.accepts x hx
  refine ⟨a, fun rest => ?_⟩
  obtain ⟨t, ht, htrest, -⟩ := ha { rest := x ++ rest } rest rfl
  have hread := hr { rest := x ++ rest }
  rw [ht, htrest] at hread
  exact hread

theorem Recognises.exists_forall₂ (hm : Recognises m L) (hr : Unrecorded m r)
    {pieces : List (List UInt8)} (h : ∀ x ∈ pieces, x ∈ L) :
    ∃ as, List.Forall₂ (Decodes r) pieces as := by
  induction pieces with
  | nil => exact ⟨[], .nil⟩
  | cons x pieces ih =>
    obtain ⟨a, ha⟩ := hm.exists_decodes hr (h x (by simp))
    obtain ⟨as, has⟩ := ih fun y hy => h y (List.mem_cons_of_mem _ hy)
    exact ⟨a :: as, .cons ha has⟩

end Reading

end Decoder
end FlexRan.Lib
