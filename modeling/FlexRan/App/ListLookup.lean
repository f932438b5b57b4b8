import FlexRan.App.ReceiveBuffer
import FlexRan.Lib.Operation
import FlexRan.Lib.Split

/-!
# Searching the list of the NetStore

The search for an id walks through the receive buffer in place.  Here each read and each write of
the buffer is an operation that records its position, so that it can be told which part of the
buffer a search touches.  Without the record it is the search of the receive buffer.

Nothing stops the search for the end of a line but a newline.  The text may not end with one: if
what follows the last newline is longer than the id, the search goes on past the received bytes,
and if it is as long as the id it is not looked at.

## Main definitions

* `Recorded.checkList`: the search, with the positions it reads and writes.
* `lines`, `lastLine`: the lines of a text, and what follows its last newline.
* `received`: the buffer after a transfer.
* `ExactLookup`: the search stays within the text and finds its lines.
-/
namespace FlexRan.App.NetStore

open Lib Lib.Operation

/-! ## The search, access by access -/

/-- The contents of the buffer, and the positions that have been read or written. -/
structure Recorded where
  buf : ℕ → UInt8
  touched : List ℕ := []

namespace Recorded

def readAt (i : ℕ) : Operation Recorded Fault UInt8 := do
  let s ← get
  set { s with touched := i :: s.touched }
  return s.buf i

def writeAt (i : ℕ) (c : UInt8) : Operation Recorded Fault Unit :=
  modify fun s => { buf := ReceiveBuffer.copy s.buf i [c], touched := i :: s.touched }

/-- `while (*newpos != delimiter) newpos++`; the fuel is what is left of the buffer. -/
def findDelimiter : ℕ → ℕ → Operation Recorded Fault ℕ
  | 0, _ => throw .outOfBounds
  | fuel + 1, newpos => do
    let c ← readAt newpos
    if c = delimiter then return newpos else findDelimiter fuel (newpos + 1)

/-- `strcmp(pos, s) == 0`, for the characters of `s` before its null character. -/
def strcmp : ℕ → List UInt8 → Operation Recorded Fault Bool
  | pos, [] => do
    let c ← readAt pos
    return c == 0
  | pos, d :: s => do
    let c ← readAt pos
    if c ≠ d then return false else if c = 0 then return true else strcmp (pos + 1) s

/-- `current_len == len && strcmp(pos, id.c_str()) == 0`. -/
def isLine (id : List UInt8) (pos newpos : ℕ) : Operation Recorded Fault Bool :=
  if newpos - pos = id.length then strcmp pos id else pure false

def checkLines (id : List UInt8) (bufpos : ℕ) : ℕ → ℕ → Operation Recorded Fault Bool
  | 0, _ => return false
  | fuel + 1, pos =>
    if pos + id.length + 1 ≤ bufpos then do
      let newpos ← findDelimiter (bufSize - pos) pos
      writeAt newpos 0
      let equal ← isLine id pos newpos
      if equal then return true else checkLines id bufpos fuel (newpos + 1)
    else return false

def checkList (id : List UInt8) (b : ReceiveBuffer) : Except Fault Bool × Recorded :=
  exec (checkLines id b.bufpos b.bufpos 0) { buf := b.buf }

/-! ### Memory -/

/-- The list stands in the buffer from a position on. -/
def Stored (buf : ℕ → UInt8) : ℕ → List UInt8 → Prop
  | _, [] => True
  | pos, c :: l => buf pos = c ∧ Stored buf (pos + 1) l

variable {buf buf' : ℕ → UInt8} {s : Recorded} {id l rest : List UInt8} {fuel pos n : ℕ}

theorem stored_append :
    Stored buf pos (l ++ rest) ↔ Stored buf pos l ∧ Stored buf (pos + l.length) rest := by
  induction l generalizing pos with
  | nil => simp [Stored]
  | cons c l ih =>
    rw [List.cons_append, Stored, Stored, ih, and_assoc, List.length_cons,
      Nat.add_assoc pos 1, Nat.add_comm 1]

theorem Stored.congr (h : Stored buf pos l)
    (hbuf : ∀ i, pos ≤ i → i < pos + l.length → buf' i = buf i) : Stored buf' pos l := by
  induction l generalizing pos with
  | nil => trivial
  | cons c l ih =>
    rw [List.length_cons] at hbuf
    exact ⟨(hbuf pos le_rfl (by omega)).trans h.1,
      ih h.2 fun i hle hlt => hbuf i (by omega) (by omega)⟩

/-- What is read of a memory is stored there. -/
theorem stored_map_range (buf : ℕ → UInt8) (pos n : ℕ) :
    Stored buf pos ((List.range n).map fun i => buf (pos + i)) := by
  induction n generalizing pos with
  | zero => trivial
  | succ n ih =>
    rw [List.range_succ_eq_map, List.map_cons, List.map_map]
    refine ⟨rfl, ?_⟩
    have htail : ((fun i => buf (pos + i)) ∘ Nat.succ) = fun i => buf (pos + 1 + i) :=
      funext fun i => congrArg buf (by simp; omega)
    rw [htail]
    exact ih (pos + 1)

theorem Stored.mem (h : Stored buf pos l) {i : ℕ} (hle : pos ≤ i) (hlt : i < pos + l.length) :
    buf i ∈ l := by
  induction l generalizing pos with
  | nil => exact absurd hlt (by simpa using hle)
  | cons c l ih =>
    rcases Nat.eq_or_lt_of_le hle with rfl | hlt'
    · exact h.1 ▸ List.mem_cons_self
    · exact List.mem_cons_of_mem _ (ih h.2 hlt' (by rw [List.length_cons] at hlt; omega))

theorem stored_of_holds {b : ReceiveBuffer} {body : List UInt8} (h : b.Holds body) :
    Stored b.buf 0 body := by
  rw [← ReceiveBuffer.data_of_holds h, ReceiveBuffer.data]
  simpa using stored_map_range b.buf 0 b.bufpos

theorem cString_cons (c : UInt8) (l : List UInt8) :
    cString (c :: l) = if c = 0 then [] else c :: cString l := by
  by_cases hc : c = 0 <;> simp [cString, hc]

/-! ### Specifications of the accesses -/

/-- No position after `n` has been read or written. -/
def Within (n : ℕ) (s : Recorded) : Prop := ∀ i ∈ s.touched, i ≤ n

theorem Within.touch (h : s.Within n) {i : ℕ} (hi : i ≤ n) (buf : ℕ → UInt8) :
    Within n { buf := buf, touched := i :: s.touched } :=
  List.forall_mem_cons.mpr ⟨hi, h⟩

theorem exec_readAt_bind {β : Type} (i : ℕ) (f : UInt8 → Operation Recorded Fault β)
    (s : Recorded) :
    exec (readAt i >>= f) s = exec (f (s.buf i)) { s with touched := i :: s.touched } := rfl

theorem exec_writeAt_bind {β : Type} (i : ℕ) (c : UInt8) (f : Unit → Operation Recorded Fault β)
    (s : Recorded) : exec (writeAt i c >>= f) s =
      exec (f ()) { buf := ReceiveBuffer.copy s.buf i [c], touched := i :: s.touched } := rfl

/-- The scan does not write, and without the record it is the one of the receive buffer. -/
theorem exec_findDelimiter (fuel pos : ℕ) (s : Recorded) :
    ∃ t, exec (findDelimiter fuel pos) s =
      (ReceiveBuffer.findDelimiter s.buf fuel pos, { s with touched := t }) := by
  induction fuel generalizing pos s with
  | zero => exact ⟨s.touched, rfl⟩
  | succ fuel ih =>
    rw [findDelimiter, exec_readAt_bind, ReceiveBuffer.findDelimiter]
    split
    · exact ⟨_, rfl⟩
    · exact ih (pos + 1) { s with touched := pos :: s.touched }

/-- A line that ends with a newline is read up to it. -/
theorem exec_findDelimiter_line (hstored : Stored s.buf pos (l ++ [delimiter]))
    (hline : delimiter ∉ l) (hfuel : l.length < fuel) (hwithin : s.Within n)
    (hn : pos + l.length ≤ n) :
    ∃ t, exec (findDelimiter fuel pos) s = (.ok (pos + l.length), { s with touched := t }) ∧
      Within n { s with touched := t } := by
  induction l generalizing pos s fuel with
  | nil =>
    obtain ⟨fuel, rfl⟩ := Nat.exists_eq_succ_of_ne_zero (Nat.ne_of_gt hfuel)
    rw [findDelimiter, exec_readAt_bind, if_pos hstored.1]
    exact ⟨_, rfl, hwithin.touch hn s.buf⟩
  | cons c l ih =>
    obtain ⟨fuel, rfl⟩ := Nat.exists_eq_succ_of_ne_zero (Nat.ne_of_gt (by omega : 0 < fuel))
    simp only [List.length_cons] at hfuel hn ⊢
    obtain ⟨hc, hline⟩ := not_or.mp (mt List.mem_cons.mpr hline)
    rw [findDelimiter, exec_readAt_bind, if_neg (hstored.1.symm ▸ Ne.symm hc),
      Nat.add_comm l.length, ← Nat.add_assoc]
    exact ih (s := { s with touched := pos :: s.touched }) hstored.2 hline (by omega)
      (hwithin.touch (by omega) s.buf) (by omega)

/-- `strcmp` compares the two C strings, and it reads no further than the null character. -/
theorem exec_strcmp (hstored : Stored s.buf pos (l ++ [0])) (hlength : l.length = id.length) :
    ∃ t, exec (strcmp pos id) s =
      (.ok (decide (cString l = cString id)), { s with touched := t }) ∧
      ∀ n, pos + l.length ≤ n → s.Within n → Within n { s with touched := t } := by
  induction id generalizing pos s l with
  | nil =>
    obtain rfl := List.length_eq_zero_iff.mp hlength
    have hpos : s.buf pos = 0 := hstored.1
    rw [strcmp, exec_readAt_bind, hpos]
    exact ⟨_, rfl, fun n hn hwithin => hwithin.touch hn s.buf⟩
  | cons d id ih =>
    obtain ⟨c, l, rfl⟩ := List.exists_cons_of_length_eq_add_one hlength
    have hpos : s.buf pos = c := hstored.1
    have htouch : ∀ n, pos + (c :: l).length ≤ n → s.Within n →
        Within n { s with touched := pos :: s.touched } := fun n hn hwithin =>
      hwithin.touch (by omega) s.buf
    rw [strcmp, exec_readAt_bind, hpos, cString_cons, cString_cons]
    by_cases hne : c = d
    · subst hne
      rw [if_neg (not_not.mpr rfl)]
      by_cases hzero : c = 0
      · simp only [if_pos hzero, decide_true]
        exact ⟨_, rfl, htouch⟩
      · simp only [if_neg hzero, List.cons.injEq, true_and]
        obtain ⟨t, ht, hwithin⟩ := ih (s := { s with touched := pos :: s.touched }) hstored.2
          (Nat.succ.inj hlength)
        exact ⟨t, ht, fun n hn hs => hwithin n (by rw [List.length_cons] at hn; omega)
          (htouch n hn hs)⟩
    · rw [if_pos hne]
      have hdiff : (if c = 0 then [] else c :: cString l) ≠
          if d = 0 then [] else d :: cString id := by
        split_ifs with hc hd hd
        · exact absurd (hc.trans hd.symm) hne
        · exact (List.cons_ne_nil _ _).symm
        · exact List.cons_ne_nil _ _
        · exact fun h => hne (List.cons.inj h).1
      rw [decide_eq_false hdiff]
      exact ⟨_, rfl, htouch⟩

/-- The bytes of a line, once the newline has been overwritten. -/
theorem stored_copy (h : Stored buf pos l) :
    Stored (ReceiveBuffer.copy buf (pos + l.length) [0]) pos (l ++ [0]) := by
  rw [stored_append]
  exact ⟨h.congr fun i _ hi => ReceiveBuffer.copy_of_lt hi, ReceiveBuffer.copy_singleton _ _,
    trivial⟩

/-! ### Without the record -/

/-- The result and the buffer afterwards. -/
def unrecorded {α : Type} (r : Except Fault α × Recorded) : Except Fault (α × (ℕ → UInt8)) :=
  r.1.map fun a => (a, r.2.buf)

/-- A round from the end of the line on. -/
theorem unrecorded_round {fuel pos len : ℕ} {id l : List UInt8} {s : Recorded}
    (ih : ∀ pos s, unrecorded (exec (checkLines id n fuel pos) s) =
      ReceiveBuffer.checkLines id n fuel pos s.buf)
    (hl : l = (List.range len).map fun i => s.buf (pos + i)) (t : List ℕ) :
    unrecorded (exec (do
      let equal ← isLine id pos (pos + len)
      if equal then return true else checkLines id n fuel (pos + len + 1))
      { buf := ReceiveBuffer.copy s.buf (pos + len) [0], touched := t }) =
    if len = id.length ∧ cString l = cString id then
      .ok (true, ReceiveBuffer.copy s.buf (pos + len) [0])
    else ReceiveBuffer.checkLines id n fuel (pos + len + 1)
      (ReceiveBuffer.copy s.buf (pos + len) [0]) := by
  have hlength : l.length = len := by rw [hl, List.length_map, List.length_range]
  have hstored : Stored s.buf pos l := hl ▸ stored_map_range s.buf pos len
  rw [isLine, Nat.add_sub_cancel_left]
  by_cases hlen : len = id.length
  · rw [if_pos hlen]
    obtain ⟨u, hu, -⟩ := exec_strcmp (s := { s with
      buf := ReceiveBuffer.copy s.buf (pos + len) [0], touched := t })
      (hlength ▸ stored_copy hstored) (hlength.trans hlen)
    rw [exec_bind_of_ok hu]
    by_cases heq : cString l = cString id
    · rw [decide_eq_true heq, if_pos rfl, if_pos ⟨hlen, heq⟩]
      rfl
    · rw [decide_eq_false heq, if_neg (by simp), if_neg fun h => heq h.2]
      exact ih _ _
  · rw [if_neg hlen, if_neg fun h => hlen h.1]
    exact ih _ _

/-- Without the record, the search is the one of the receive buffer. -/
theorem unrecorded_checkLines (id : List UInt8) (n fuel pos : ℕ) (s : Recorded) :
    unrecorded (exec (checkLines id n fuel pos) s) =
      ReceiveBuffer.checkLines id n fuel pos s.buf := by
  induction fuel generalizing pos s with
  | zero => rfl
  | succ fuel ih =>
    rw [checkLines, ReceiveBuffer.checkLines]
    split
    · obtain ⟨t, ht⟩ := exec_findDelimiter (bufSize - pos) pos s
      cases hfind : ReceiveBuffer.findDelimiter s.buf (bufSize - pos) pos with
      | error e =>
        rw [exec_bind_of_error (ht.trans (by rw [hfind]))]
        rfl
      | ok newpos =>
        obtain ⟨len, rfl⟩ := Nat.exists_eq_add_of_le (ReceiveBuffer.findDelimiter_spec hfind).1
        rw [exec_bind_of_ok (ht.trans (by rw [hfind])), exec_writeAt_bind]
        refine (unrecorded_round ih rfl _).trans ?_
        have hsegment : (List.range len).map (fun i => ReceiveBuffer.copy s.buf (pos + len) [0]
            (pos + i)) = (List.range len).map fun i => s.buf (pos + i) :=
          List.map_congr_left fun i hi => ReceiveBuffer.copy_of_lt (by
            have := List.mem_range.mp hi
            omega)
        rw [← hsegment]
        simp only [bind, Except.bind, Nat.add_sub_cancel_left]
        rfl
    · rfl

theorem unrecorded_checkList (id : List UInt8) (b : ReceiveBuffer) :
    b.checkList id =
      (unrecorded (checkList id b)).map fun r => (r.1, { b with buf := r.2 }) := by
  rw [checkList, unrecorded_checkLines, ReceiveBuffer.checkList]
  cases ReceiveBuffer.checkLines id b.bufpos b.bufpos 0 b.buf with
  | error e => rfl
  | ok r => rfl

/-! ### One round -/

/-- A round passes one line, whose newline becomes a null character. -/
theorem exec_checkLines_line (fuel : ℕ) (hid : 0 ∉ id)
    (hstored : Stored s.buf pos (l ++ delimiter :: rest)) (hline : delimiter ∉ l)
    (hbound : pos + id.length + 1 ≤ n) (hl : pos + l.length < n) (hn : n < bufSize)
    (hwithin : s.Within n) :
    ∃ s', s'.Within n ∧ (∀ i, pos + l.length < i → s'.buf i = s.buf i) ∧
      exec (checkLines id n (fuel + 1) pos) s =
        if l = id then (.ok true, s') else exec (checkLines id n fuel (pos + l.length + 1)) s' := by
  have hscan : Stored s.buf pos (l ++ [delimiter]) := by
    rw [stored_append] at hstored ⊢
    exact ⟨hstored.1, hstored.2.1, trivial⟩
  obtain ⟨t, ht, htwithin⟩ := exec_findDelimiter_line hscan hline
    (by omega : l.length < bufSize - pos) hwithin hl.le
  have hround : exec (checkLines id n (fuel + 1) pos) s =
      exec (do
        let equal ← isLine id pos (pos + l.length)
        if equal then return true else checkLines id n fuel (pos + l.length + 1))
      { buf := ReceiveBuffer.copy s.buf (pos + l.length) [0]
        touched := (pos + l.length) :: t } := by
    rw [checkLines, if_pos hbound, exec_bind_of_ok ht]
    exact exec_writeAt_bind _ _ _ _
  have hwrite := htwithin.touch hl.le (ReceiveBuffer.copy s.buf (pos + l.length) [0])
  have hafter : ∀ i, pos + l.length < i →
      ReceiveBuffer.copy s.buf (pos + l.length) [0] i = s.buf i := fun i hi =>
    ReceiveBuffer.copy_of_ge (by simpa using hi)
  rw [hround, isLine, Nat.add_sub_cancel_left]
  by_cases hlength : l.length = id.length
  · obtain ⟨u, hu, huwithin⟩ := exec_strcmp (s := { s with
      buf := ReceiveBuffer.copy s.buf (pos + l.length) [0], touched := (pos + l.length) :: t })
      (stored_copy (stored_append.mp hstored).1) hlength
    refine ⟨_, huwithin n hl.le hwrite, hafter, ?_⟩
    rw [if_pos hlength, exec_bind_of_ok hu]
    by_cases heq : l = id
    · rw [if_pos heq, heq, decide_eq_true rfl]
      rfl
    · rw [if_neg heq, decide_eq_false fun h => heq (eq_of_cString_eq hid hlength h)]
      rfl
  · refine ⟨_, hwrite, hafter, ?_⟩
    rw [if_neg hlength, if_neg fun heq => hlength (congrArg List.length heq),
      exec_bind_of_ok (exec_pure _ _)]
    rfl

/-- The search ends where the id does not fit any more. -/
theorem exec_checkLines_end (hbound : ¬ pos + id.length + 1 ≤ n) :
    exec (checkLines id n fuel pos) s = (.ok false, s) := by
  cases fuel with
  | zero => rfl
  | succ fuel =>
    rw [checkLines, if_neg hbound]
    rfl

/-! ### What is touched stays touched -/

/-- The record grows. -/
def Grows (s s' : Recorded) : Prop := s.touched ⊆ s'.touched

theorem Grows.refl (s : Recorded) : Grows s s := List.Subset.refl _

theorem Grows.trans (s t u : Recorded) (h₁ : Grows s t) (h₂ : Grows t u) : Grows s u :=
  List.Subset.trans h₁ h₂

theorem grows_readAt (i : ℕ) : Keeps Grows (readAt i) := fun _ => List.subset_cons_self _ _

theorem grows_writeAt (i : ℕ) (c : UInt8) : Keeps Grows (writeAt i c) :=
  fun _ => List.subset_cons_self _ _

theorem grows_findDelimiter (fuel pos : ℕ) : Keeps Grows (findDelimiter fuel pos) := by
  induction fuel generalizing pos with
  | zero => exact Keeps.throw Grows.refl _
  | succ fuel ih =>
    refine Keeps.bind Grows.trans (grows_readAt pos) fun c => ?_
    split
    · exact Keeps.pure Grows.refl _
    · exact ih (pos + 1)

theorem grows_strcmp (pos : ℕ) (id : List UInt8) : Keeps Grows (strcmp pos id) := by
  induction id generalizing pos with
  | nil => exact Keeps.bind Grows.trans (grows_readAt pos) fun c => Keeps.pure Grows.refl _
  | cons d id ih =>
    refine Keeps.bind Grows.trans (grows_readAt pos) fun c => ?_
    split
    · exact Keeps.pure Grows.refl _
    · split
      · exact Keeps.pure Grows.refl _
      · exact ih (pos + 1)

/-- What a round does once it has found the end of the line. -/
theorem grows_round {next : Operation Recorded Fault Bool} (hnext : Keeps Grows next)
    (id : List UInt8) (pos newpos : ℕ) :
    Keeps Grows (do
      writeAt newpos 0
      let equal ← isLine id pos newpos
      if equal then return true else next) := by
  refine Keeps.bind Grows.trans (grows_writeAt _ _) fun _ => ?_
  refine Keeps.bind Grows.trans ?_ fun equal => ?_
  · rw [isLine]
    split
    · exact grows_strcmp pos id
    · exact Keeps.pure Grows.refl _
  · split
    · exact Keeps.pure Grows.refl _
    · exact hnext

theorem grows_checkLines (id : List UInt8) (n fuel pos : ℕ) :
    Keeps Grows (checkLines id n fuel pos) := by
  induction fuel generalizing pos with
  | zero => exact Keeps.pure Grows.refl _
  | succ fuel ih =>
    rw [checkLines]
    split
    · exact Keeps.bind Grows.trans (grows_findDelimiter _ _) fun newpos =>
        grows_round (ih (newpos + 1)) id pos newpos
    · exact Keeps.pure Grows.refl _

/-- A scan that returns has read every position without a newline, and the next one. -/
theorem touched_of_findDelimiter {k newpos : ℕ} {s' : Recorded}
    (h : exec (findDelimiter fuel pos) s = (.ok newpos, s')) (hle : pos ≤ k)
    (hbefore : ∀ i, pos ≤ i → i < k → s.buf i ≠ delimiter) : k ∈ s'.touched := by
  induction fuel generalizing pos s with
  | zero => exact absurd (congrArg Prod.fst h) (by simp [findDelimiter])
  | succ fuel ih =>
    have hread : pos ∈ s'.touched := by
      rw [findDelimiter, exec_readAt_bind] at h
      have hgrows : Keeps Grows (if s.buf pos = delimiter then pure pos
          else findDelimiter fuel (pos + 1)) := by
        split
        · exact Keeps.pure Grows.refl _
        · exact grows_findDelimiter _ _
      have hsub := hgrows { s with touched := pos :: s.touched }
      rw [h] at hsub
      exact hsub List.mem_cons_self
    rcases Nat.eq_or_lt_of_le hle with rfl | hlt
    · exact hread
    · rw [findDelimiter, exec_readAt_bind, if_neg (hbefore pos le_rfl hlt)] at h
      exact ih h (by omega) fun i hi hik => hbefore i (by omega) hik

/-- A last line that is longer than the id makes the scan leave the text. -/
theorem not_within_of_overrun {found : Bool} {s' : Recorded} (hstored : Stored s.buf pos l)
    (hline : delimiter ∉ l) (hend : pos + l.length = n) (hzero : s.buf n = 0)
    (hlong : id.length < l.length) (hfuel : n ≤ fuel + pos)
    (h : exec (checkLines id n fuel pos) s = (.ok found, s')) : ¬ s'.Within n := by
  obtain ⟨fuel, rfl⟩ := Nat.exists_eq_succ_of_ne_zero (Nat.ne_of_gt (by omega : 0 < fuel))
  rw [checkLines, if_pos (by omega : pos + id.length + 1 ≤ n)] at h
  obtain ⟨newpos, s₁, hscan, h⟩ := exec_bind_eq_ok_iff.mp h
  have hnewline : ∀ i, pos ≤ i → i < n + 1 → s.buf i ≠ delimiter := by
    intro i hle hlt
    rcases Nat.lt_or_ge i n with hi | hi
    · exact fun hd => hline (hd ▸ hstored.mem hle (by omega))
    · obtain rfl : i = n := by omega
      rw [hzero]
      decide
  have htouched := touched_of_findDelimiter hscan (by omega : pos ≤ n + 1) hnewline
  have hgrows := grows_round (grows_checkLines id n fuel (newpos + 1)) id pos newpos s₁
  rw [h] at hgrows
  exact fun hwithin => absurd (hwithin (n + 1) (hgrows htouched)) (by omega)

/-! ### All lines -/

/-- How the search of a text with these lines ends. The last one has no newline. -/
structure Answers (id : List UInt8) (n : ℕ) (ls : List (List UInt8))
    (result : Except Fault Bool × Recorded) : Prop where
  found : id ∈ ls.dropLast → ∃ s, result = (.ok true, s) ∧ s.Within n
  missing : id ∉ ls.dropLast → (ls.getLastD []).length ≤ id.length →
    ∃ s, result = (.ok false, s) ∧ s.Within n
  overrun : id ∉ ls.dropLast → id.length < (ls.getLastD []).length →
    ∀ found s, result = (.ok found, s) → ¬ s.Within n

theorem Answers.of_line {ls : List (List UInt8)} (hne : ls ≠ []) (hwithin : s.Within n) :
    Answers id n (id :: ls) (.ok true, s) where
  found _ := ⟨s, rfl, hwithin⟩
  missing h := absurd (List.dropLast_cons_of_ne_nil hne ▸ List.mem_cons_self) h
  overrun h := absurd (List.dropLast_cons_of_ne_nil hne ▸ List.mem_cons_self) h

theorem Answers.cons {ls : List (List UInt8)} {result : Except Fault Bool × Recorded}
    (h : Answers id n ls result) (hne : ls ≠ []) (hl : l ≠ id) : Answers id n (l :: ls) result := by
  have hmem : id ∈ (l :: ls).dropLast ↔ id ∈ ls.dropLast := by
    rw [List.dropLast_cons_of_ne_nil hne, List.mem_cons, or_iff_right (Ne.symm hl)]
  have hlast : (l :: ls).getLastD [] = ls.getLastD [] := by
    obtain ⟨m, ms, rfl⟩ := List.exists_cons_of_ne_nil hne
    simp only [List.getLastD_cons]
  exact
    { found := fun hid => h.found (hmem.mp hid)
      missing := fun hid => hlast ▸ h.missing (mt hmem.mpr hid)
      overrun := fun hid => hlast ▸ h.overrun (mt hmem.mpr hid) }

/-- Nothing is left that the id could be. -/
theorem Answers.of_short {ls : List (List UInt8)} (hwithin : s.Within n)
    (hshort : ([delimiter].intercalate ls).length ≤ id.length) :
    Answers id n ls (.ok false, s) where
  found h := absurd (length_lt_of_mem_dropLast h) (not_lt.mpr hshort)
  missing _ _ := ⟨s, rfl, hwithin⟩
  overrun _ h := absurd ((length_getLastD_le delimiter ls).trans hshort) (not_le.mpr h)

/-- Induction on the lines; each round passes one of them. -/
theorem checkLines_answers {ls : List (List UInt8)} (hid : 0 ∉ id) (hne : ls ≠ [])
    (hlines : ∀ l ∈ ls, delimiter ∉ l) (hstored : Stored s.buf pos ([delimiter].intercalate ls))
    (hend : pos + ([delimiter].intercalate ls).length = n) (hn : n < bufSize)
    (hzero : [delimiter].intercalate ls ≠ [] → s.buf n = 0) (hfuel : n ≤ fuel + pos)
    (hwithin : s.Within n) : Answers id n ls (exec (checkLines id n fuel pos) s) := by
  induction ls generalizing s fuel pos with
  | nil => exact absurd rfl hne
  | cons l ls ih =>
    by_cases hbound : pos + id.length + 1 ≤ n
    · obtain ⟨hl, hls⟩ := List.forall_mem_cons.mp hlines
      by_cases hlast : ls = []
      · -- what follows the last newline: the scan stays within it only if it is the id's length
        subst hlast
        rw [List.intercalate_singleton] at hstored hend hzero
        have hlong : id.length < l.length := by omega
        refine ⟨fun h => absurd h (by simp), fun _ hlen => absurd hlen (not_le.mpr hlong),
          fun _ _ found s' h => ?_⟩
        exact not_within_of_overrun hstored hl hend
          (hzero (List.ne_nil_of_length_pos (by omega))) hlong hfuel h
      · rw [List.intercalate_cons_of_ne_nil hlast, List.append_assoc, List.singleton_append]
          at hstored hend hzero
        rw [List.length_append, List.length_cons] at hend
        obtain ⟨fuel, rfl⟩ := Nat.exists_eq_succ_of_ne_zero (Nat.ne_of_gt (by omega : 0 < fuel))
        obtain ⟨s', hs', hafter, hround⟩ :=
          exec_checkLines_line fuel hid hstored hl hbound (by omega) hn hwithin
        rw [hround]
        by_cases heq : l = id
        · rw [if_pos heq, heq]
          exact Answers.of_line hlast hs'
        · rw [if_neg heq]
          have hrest := (stored_append.mp hstored).2.2
          exact (ih hlast hls (hrest.congr fun i hi _ => hafter i hi) (by omega)
            (fun _ => (hafter n (by omega)).trans (hzero (by simp))) (by omega) hs').cons hlast heq
    · rw [exec_checkLines_end hbound]
      exact Answers.of_short hwithin (by omega)

end Recorded

/-! ## Transfers -/

/-- The lines of a text; the last one is what follows the last newline. -/
def lines (text : List UInt8) : List (List UInt8) := text.splitOn delimiter

def lastLine (text : List UInt8) : List UInt8 := (lines text).getLastD []

/-- The buffer after the pieces of a body have been received one by one. -/
def received (b : ReceiveBuffer) (pieces : List (List UInt8)) : ReceiveBuffer :=
  pieces.foldl (fun b p => (b.callback p).2) b

/-- The search touches only the received bytes and the null character after them, and it finds
exactly the lines. -/
def ExactLookup (b : ReceiveBuffer) (id : List UInt8) : Prop :=
  ∃ found s, Recorded.checkList id b = (.ok found, s) ∧ s.Within b.bufpos ∧
    (found = true ↔ id ∈ lines b.data)

section Transfers

variable {b : ReceiveBuffer} {body id : List UInt8} {pieces : List (List UInt8)}

theorem received_holds (hb : b.Holds body) (hfits : body.length + pieces.flatten.length < bufSize) :
    (received b pieces).Holds (body ++ pieces.flatten) := by
  induction pieces generalizing b body with
  | nil => simpa [received] using hb
  | cons p pieces ih =>
    rw [List.flatten_cons, List.length_append] at hfits
    have hfirst := (ReceiveBuffer.callback_of_fits (p := p) hb (by rw [hb.bufpos]; omega)).2
    rw [List.flatten_cons, ← List.append_assoc]
    exact ih hfirst (by rw [List.length_append]; omega)

/-- Each piece leaves a null character behind. -/
theorem callback_terminated (b : ReceiveBuffer) (p : List UInt8) :
    (b.callback p).2.buf (b.callback p).2.bufpos = 0 :=
  ReceiveBuffer.copy_singleton _ _

theorem received_terminated (hne : pieces ≠ []) :
    (received b pieces).buf (received b pieces).bufpos = 0 := by
  rw [received, ← List.dropLast_append_getLast hne, List.foldl_concat]
  exact callback_terminated _ _

theorem mem_lines_iff (text id : List UInt8) :
    id ∈ lines text ↔ id ∈ (lines text).dropLast ∨ lastLine text = id := by
  have hne : lines text ≠ [] := List.splitOn_ne_nil delimiter text
  have hlast : lastLine text = (lines text).getLast hne := by
    rw [lastLine, List.getLastD_eq_getLast?, List.getLast?_eq_some_getLast hne, Option.getD_some]
  conv_lhs => rw [← List.dropLast_append_getLast hne]
  rw [List.mem_append, List.mem_singleton, hlast, eq_comm (a := id)]

/-- How the search of a received text ends. -/
theorem received_answers (hb : b.bufpos = 0) (hfits : pieces.flatten.length < bufSize)
    (hid : 0 ∉ id) : Recorded.Answers id pieces.flatten.length (lines pieces.flatten)
      (Recorded.checkList id (received b pieces)) := by
  have hholds : (received b pieces).Holds pieces.flatten :=
    received_holds (ReceiveBuffer.holds_nil hb) (by simpa using hfits)
  have htext : [delimiter].intercalate (lines pieces.flatten) = pieces.flatten :=
    List.intercalate_splitOn delimiter
  rw [Recorded.checkList, hholds.bufpos]
  refine Recorded.checkLines_answers hid (List.splitOn_ne_nil _ _)
    (fun l hl => notMem_of_mem_splitOn hl) ?_ ?_ hfits (fun hne => ?_) le_rfl
    (fun i hi => absurd hi List.not_mem_nil)
  · rw [htext]
    exact Recorded.stored_of_holds hholds
  · rw [htext, Nat.zero_add]
  · rw [htext] at hne
    rw [← hholds.bufpos]
    exact received_terminated fun hnil => hne (by rw [hnil, List.flatten_nil])

/-- The search is exact if and only if the id is a line that ends with a newline, or what follows
the last newline is neither the id nor longer than it. -/
theorem exactLookup_iff (hb : b.bufpos = 0) (hfits : pieces.flatten.length < bufSize)
    (hid : 0 ∉ id) : ExactLookup (received b pieces) id ↔
      id ∈ (lines pieces.flatten).dropLast ∨
        (lastLine pieces.flatten ≠ id ∧ (lastLine pieces.flatten).length ≤ id.length) := by
  have hanswers := received_answers (b := b) hb hfits hid
  have hholds : (received b pieces).Holds pieces.flatten :=
    received_holds (ReceiveBuffer.holds_nil hb) (by simpa using hfits)
  rw [ExactLookup, ReceiveBuffer.data_of_holds hholds, hholds.bufpos]
  constructor
  · rintro ⟨found, s, hrun, hwithin, hfound⟩
    by_cases hline : id ∈ (lines pieces.flatten).dropLast
    · exact .inl hline
    · rcases Nat.lt_or_ge id.length (lastLine pieces.flatten).length with hlong | hlength
      · exact absurd hwithin (hanswers.overrun hline hlong found s hrun)
      · obtain ⟨s', hmissing, -⟩ := hanswers.missing hline hlength
        obtain rfl : found = false := Except.ok.inj (congrArg Prod.fst (hrun.symm.trans hmissing))
        refine .inr ⟨fun hlast => ?_, hlength⟩
        exact absurd (hfound.mpr ((mem_lines_iff _ _).mpr (.inr hlast))) (by simp)
  · intro h
    by_cases hline : id ∈ (lines pieces.flatten).dropLast
    · obtain ⟨s, hrun, hwithin⟩ := hanswers.found hline
      exact ⟨true, s, hrun, hwithin, iff_of_true rfl ((mem_lines_iff _ _).mpr (.inl hline))⟩
    · obtain ⟨hlast, hlength⟩ := h.resolve_left hline
      obtain ⟨s, hrun, hwithin⟩ := hanswers.missing hline hlength
      refine ⟨false, s, hrun, hwithin, iff_of_false (by simp) fun hmem => ?_⟩
      exact ((mem_lines_iff _ _).mp hmem).elim hline hlast

end Transfers

/-! ## Lists with and without a final newline -/

/-- An earlier transfer has left the text `cc` and a newline in the memory. -/
def usedBuffer : ReceiveBuffer := { received {} [[99, 99, 10]] with bufpos := 0 }

theorem exactLookup_twoLines : ExactLookup (received usedBuffer [[98, 98], [10, 97, 10]]) [97] :=
  (exactLookup_iff rfl (by decide) (by decide)).mpr
    (.inl (by simp [lines, List.splitOn_cons_eq_if_modifyHead, delimiter]))

/-- The only line of the text `a` is not found. -/
theorem not_forall_exactLookup : ¬ ∀ (b : ReceiveBuffer) (pieces : List (List UInt8))
    (id : List UInt8), b.bufpos = 0 → pieces.flatten.length < bufSize → id ≠ [] →
      delimiter ∉ id → 0 ∉ id → ExactLookup (received b pieces) id := by
  intro h
  obtain ⟨found, s, hrun, -, hfound⟩ :=
    h usedBuffer [[97]] [97] rfl (by decide) (by decide) (by decide) (by decide)
  have hmissing : (Recorded.checkList [97] (received usedBuffer [[97]])).1 = .ok false := by
    decide +kernel
  obtain rfl : found = false := Except.ok.inj ((congrArg Prod.fst hrun).symm.trans hmissing)
  have hdata : (received usedBuffer [[97]]).data = [97] := by decide +kernel
  rw [hdata] at hfound
  exact absurd (hfound.mpr (by
    simp [lines, List.splitOn_cons_eq_if_modifyHead, delimiter])) (by simp)

end FlexRan.App.NetStore
