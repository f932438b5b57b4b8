import FlexRan.Fault
import FlexRan.Lib.Run

/-!
# The receive buffer of the NetStore

All transfers append what they receive to one global buffer.  The list of the objects in the
NetStore is searched in place: every newline that is passed becomes the end of a C string.

## Main definitions

* `ReceiveBuffer.callback`: a piece of a body is received.
* `ReceiveBuffer.checkList`: is there a line that is the given id?
* `ReceiveBuffer.Holds body`: the buffer holds the body.
* `HasLine`: a line of a text.
-/
namespace FlexRan.App.NetStore

open Lib

/-- `BUFSIZE`. -/
def bufSize : ℕ := 10000000

def delimiter : UInt8 := 10

/-- The bytes of a `std::string`. -/
def bytes (s : String) : List UInt8 := s.toByteArray.data.toList

/-- What functions on C strings see of a string. -/
def cString (l : List UInt8) : List UInt8 := l.takeWhile fun c => c != 0

structure ReceiveBuffer where
  buf : ℕ → UInt8 := fun _ => 0
  bufpos : ℕ := 0

namespace ReceiveBuffer

/-- `memcpy` to a position of the buffer. -/
def copy (buf : ℕ → UInt8) (pos : ℕ) (src : List UInt8) : ℕ → UInt8 :=
  fun i => if pos ≤ i then (src[i - pos]?).getD (buf i) else buf i

/-- The number of bytes taken, and the buffer with a null character after them. -/
def callback (p : List UInt8) (b : ReceiveBuffer) : ℕ × ReceiveBuffer :=
  let nmemb :=
    if p.length + b.bufpos + 1 > bufSize then bufSize - b.bufpos - 1 else p.length
  (nmemb,
    { buf := copy (copy b.buf b.bufpos (p.take nmemb)) (b.bufpos + nmemb) [0]
      bufpos := b.bufpos + nmemb })

/-- `while (*newpos != delimiter) newpos++`; the fuel is what is left of the buffer. -/
def findDelimiter (buf : ℕ → UInt8) : ℕ → ℕ → Except Fault ℕ
  | 0, _ => .error .outOfBounds
  | fuel + 1, newpos =>
    if buf newpos = delimiter then .ok newpos else findDelimiter buf fuel (newpos + 1)

/-- The loop of `check_list` from a position on. Every round moves the position, so that there are
at most `bufpos` of them. -/
def checkLines (id : List UInt8) (bufpos : ℕ) : ℕ → ℕ → (ℕ → UInt8) →
    Except Fault (Bool × (ℕ → UInt8))
  | 0, _, buf => .ok (false, buf)
  | fuel + 1, pos, buf =>
    if pos + id.length + 1 ≤ bufpos then do
      let newpos ← findDelimiter buf (bufSize - pos) pos
      let currentLen := newpos - pos
      let buf := copy buf newpos [0]
      -- `strcmp` stops at the null character that was just written
      if currentLen = id.length ∧
          cString ((List.range currentLen).map fun i => buf (pos + i)) = cString id then
        return (true, buf)
      else checkLines id bufpos fuel (newpos + 1) buf
    else .ok (false, buf)

def checkList (id : List UInt8) (b : ReceiveBuffer) : Except Fault (Bool × ReceiveBuffer) := do
  let (found, buf) ← checkLines id b.bufpos b.bufpos 0 b.buf
  return (found, { b with buf := buf })

end ReceiveBuffer

/-- The bytes received. -/
def ReceiveBuffer.data (b : ReceiveBuffer) : List UInt8 := (List.range b.bufpos).map b.buf

/-! ## Texts -/

/-- The text `line` stands between two newlines, or at the start or the end of the text. -/
def HasLine (text line : List UInt8) : Prop :=
  delimiter ∉ line ∧ ∃ pre post, text = pre ++ (line ++ post) ∧
    (pre = [] ∨ pre.getLast? = some delimiter) ∧ (post = [] ∨ post.head? = some delimiter)

theorem bytes_append (s t : String) : bytes (s ++ t) = bytes s ++ bytes t := by
  simp [bytes, String.toByteArray_append, ByteArray.data_append]

theorem cString_of_notMem {l : List UInt8} (h : 0 ∉ l) : cString l = l :=
  List.takeWhile_eq_self_iff.mpr fun c hc => by
    have : c ≠ 0 := fun hz => h (hz ▸ hc)
    simpa using this

/-- A C string that is as long as the memory it is in has no null character. -/
theorem eq_of_cString_eq {l id : List UInt8} (hid : 0 ∉ id) (hlength : l.length = id.length)
    (h : cString l = cString id) : l = id := by
  rw [cString_of_notMem hid] at h
  have hstart : id <+: l := h ▸ List.takeWhile_prefix _
  exact (hstart.eq_of_length hlength.symm).symm

namespace ReceiveBuffer

variable {b b' : ReceiveBuffer} {body p id : List UInt8} {buf buf' : ℕ → UInt8}

/-- The buffer up to its position is the body. -/
structure Holds (b : ReceiveBuffer) (body : List UInt8) : Prop where
  bufpos : b.bufpos = body.length
  buf : ∀ i < body.length, body[i]? = some (b.buf i)

theorem holds_nil (h : b.bufpos = 0) : b.Holds [] := ⟨h, fun _ hi => absurd hi (by simp)⟩

theorem data_of_holds (h : b.Holds body) : b.data = body := by
  refine List.ext_getElem (by simp [data, h.bufpos]) fun i h₁ h₂ => ?_
  simp only [data, List.getElem_map, List.getElem_range]
  exact ((List.getElem_eq_iff h₂).mpr (h.buf i h₂)).symm

theorem copy_of_lt {pos i : ℕ} {src : List UInt8} (h : i < pos) :
    copy buf pos src i = buf i := by
  rw [copy, if_neg (by omega)]

theorem copy_getElem {pos i : ℕ} {src : List UInt8} (h : i < src.length) :
    copy buf pos src (pos + i) = src[i] := by
  rw [copy, if_pos (by omega), Nat.add_sub_cancel_left, List.getElem?_eq_getElem h,
    Option.getD_some]

theorem copy_singleton (pos : ℕ) (c : UInt8) : copy buf pos [c] pos = c := by
  rw [copy, if_pos le_rfl, Nat.sub_self, List.getElem?_cons_zero, Option.getD_some]

theorem copy_of_ge {pos i : ℕ} {src : List UInt8} (h : pos + src.length ≤ i) :
    copy buf pos src i = buf i := by
  rw [copy, if_pos (by omega), List.getElem?_eq_none (by omega), Option.getD_none]

/-- A piece that fits is taken as a whole and appended. -/
theorem callback_of_fits (hb : b.Holds body) (hfits : p.length + b.bufpos + 1 ≤ bufSize) :
    (b.callback p).1 = p.length ∧ (b.callback p).2.Holds (body ++ p) := by
  have hnmemb : ¬ p.length + body.length + 1 > bufSize := by have := hb.bufpos; omega
  simp only [callback, hb.bufpos, if_neg hnmemb, List.take_length]
  refine ⟨trivial, by simp, fun i hi => ?_⟩
  rw [List.length_append] at hi
  dsimp only
  rw [copy_of_lt hi]
  rcases Nat.lt_or_ge i body.length with hlt | hge
  · rw [copy_of_lt hlt, List.getElem?_append_left hlt, hb.buf i hlt]
  · obtain ⟨k, rfl⟩ := Nat.exists_eq_add_of_le hge
    rw [copy_getElem (by omega), List.getElem?_append_right hge, Nat.add_sub_cancel_left,
      List.getElem?_eq_getElem]

theorem findDelimiter_spec {fuel pos newpos : ℕ} (h : findDelimiter buf fuel pos = .ok newpos) :
    pos ≤ newpos ∧ buf newpos = delimiter ∧ ∀ i, pos ≤ i → i < newpos → buf i ≠ delimiter := by
  induction fuel generalizing pos with
  | zero => exact nomatch h
  | succ fuel ih =>
    rw [findDelimiter] at h
    split at h
    next hpos =>
      obtain rfl := Except.ok.inj h
      exact ⟨le_rfl, hpos, fun i h₁ h₂ => by omega⟩
    next hpos =>
      obtain ⟨hle, hnewpos, hbefore⟩ := ih h
      refine ⟨by omega, hnewpos, fun i h₁ h₂ => ?_⟩
      rcases Nat.eq_or_lt_of_le h₁ with rfl | hlt
      · exact hpos
      · exact hbefore i hlt h₂

/-- A line of the buffer, found from its start on. -/
theorem hasLine_of_segment {pos : ℕ} (hbound : pos + id.length < body.length)
    (hstart : pos = 0 ∨ body[pos - 1]? = some delimiter)
    (hend : body[pos + id.length]? = some delimiter)
    (hsegment : ∀ i (h : i < id.length), body[pos + i]? = some id[i])
    (hid : delimiter ∉ id) : HasLine body id := by
  have hline : (body.drop pos).take id.length = id := by
    refine List.ext_getElem (by simp; omega) fun i h₁ h₂ => ?_
    rw [List.getElem_take, List.getElem_drop]
    exact (List.getElem_eq_iff _).mpr (hsegment i h₂)
  refine ⟨hid, body.take pos, body.drop (pos + id.length), ?_, ?_, .inr ?_⟩
  · conv_lhs => rw [← List.take_append_drop pos body,
      ← List.take_append_drop id.length (body.drop pos), hline, List.drop_drop]
  · rcases Nat.eq_zero_or_pos pos with h | hpos
    · exact .inl (by rw [h, List.take_zero])
    · rw [List.getLast?_eq_getElem?, List.length_take, Nat.min_eq_left (by omega),
        List.getElem?_take_of_lt (by omega)]
      exact .inr (hstart.resolve_left (by omega))
  · rw [List.head?_drop, hend]

/-- A line is found only if it is there. What lies before the position may have been overwritten. -/
theorem hasLine_of_checkLines {fuel pos : ℕ} (hid : 0 ∉ id)
    (hbuf : ∀ i, pos ≤ i → i < body.length → body[i]? = some (buf i))
    (hstart : pos < body.length → pos = 0 ∨ body[pos - 1]? = some delimiter)
    (h : checkLines id body.length fuel pos buf = .ok (true, buf')) : HasLine body id := by
  induction fuel generalizing pos buf with
  | zero => simp [checkLines] at h
  | succ fuel ih =>
    rw [checkLines] at h
    split at h
    next hbound =>
      rw [bind_eq_ok_iff] at h
      obtain ⟨newpos, hnewpos, h⟩ := h
      obtain ⟨hle, hdelimiter, hbefore⟩ := findDelimiter_spec hnewpos
      obtain ⟨len, rfl⟩ := Nat.exists_eq_add_of_le hle
      simp only [Nat.add_sub_cancel_left] at h
      split at h
      next hmatch =>
        obtain ⟨rfl, hstring⟩ := hmatch
        have hsegment := eq_of_cString_eq hid (by simp) hstring
        have hat : ∀ i (h : i < id.length), buf (pos + i) = id[i] := by
          intro i hi
          have hget := List.getElem_of_eq hsegment (by simpa using hi)
          rw [List.getElem_map, List.getElem_range, copy_of_lt (by omega)] at hget
          exact hget
        refine hasLine_of_segment (by omega) (hstart (by omega)) ?_ (fun i hi => ?_) ?_
        · rw [hbuf _ (by omega) (by omega), hdelimiter]
        · rw [hbuf _ (by omega) (by omega), hat i hi]
        · intro hmem
          obtain ⟨i, hi, hid⟩ := List.getElem_of_mem hmem
          exact hbefore (pos + i) (by omega) (by omega) ((hat i hi).trans hid)
      next hmatch =>
        refine ih (fun i hi hlt => ?_) (fun hlt => .inr ?_) h
        · rw [copy_of_ge (by simpa using hi), hbuf i (by omega) hlt]
        · rw [Nat.add_sub_cancel, hbuf _ (by omega) (by omega), hdelimiter]
    next hbound => exact nomatch h

/-- `check_list` answers yes only if the id is a line of what was received. -/
theorem hasLine_of_checkList (hb : b.Holds body) (hid : 0 ∉ id)
    (h : b.checkList id = .ok (true, b')) : HasLine body id := by
  rw [checkList, hb.bufpos, bind_eq_ok_iff] at h
  obtain ⟨⟨found, buf⟩, hlines, hpair⟩ := h
  obtain ⟨rfl, -⟩ := Prod.mk.inj (Except.ok.inj hpair)
  exact hasLine_of_checkLines hid (fun i _ hi => hb.buf i hi) (fun _ => .inl rfl) hlines

end ReceiveBuffer
end FlexRan.App.NetStore
