import FlexRan.Network.ProtocolMessage
import FlexRan.Protocol.Message

/-!
# Agent sessions

A session reads frames from its socket into one message object, header and body in turn, and
forwards each body to the RIB.  A read completes when its buffer is full; a read of no bytes
completes at once.  The model receives one byte after the other, so that it covers every way
the stream is cut into segments.

`readFrames_spec` is the round trip: on the concatenation of the frames of some bodies, the
session forwards these bodies, whichever buffers the frames and the messages use.

## Main definitions

* `Env`: allocation, and serialization by the protocol library.
* `ReadState`, `receive`: the reading half of a session.
-/
namespace FlexRan.Network

open Lib Protocol

/-- What a session uses of the world around it. -/
structure Env where
  /-- Whether an allocation of so many bytes succeeds. -/
  allocates : ℕ → Bool
  serialize : FlexranMessage → List UInt8
  /-- The size of a message is an `int`. -/
  serialize_lt : ∀ msg, (serialize msg).length < 2 ^ 31

/-- Serialize a message into a new tagged message. -/
def Env.tagged (env : Env) (msg : FlexranMessage) (tag : ℤ) : Except Fault TaggedMessage := do
  let bytes := env.serialize msg
  let tm ← TaggedMessage.ofSize env.allocates (UInt64.ofNat bytes.length) tag
  tm.serializeToArray bytes

/-- `generate_disconnect_msg`: the message a session sends on behalf of an agent that is gone. -/
def disconnectMsg : FlexranMessage where
  msg := .disconnect (some { type := some flptDisconnect, version := some 0, xid := some 0 })

inductive ReadPhase | header | body | stopped
deriving DecidableEq

structure ReadState where
  readMsg : ProtocolMessage := .empty
  phase : ReadPhase := .header
  /-- The bytes of the current read that have arrived. -/
  received : ℕ := 0
  /-- The messages handed to `forward_message`, in order. -/
  forwarded : List TaggedMessage := []

inductive SocketEvent
  | byte (b : UInt8)
  | error

namespace ReadState

/-- The part of the message the current read fills: where it starts and how long it is. -/
def buffer (s : ReadState) : ℕ × ℕ :=
  match s.phase with
  | .header => (0, headerLength)
  | .body => (headerLength, s.readMsg.bodyLength.toNat)
  | .stopped => (0, 0)

end ReadState

section Read

variable (env : Env) (sessionId : ℤ)

/-- A connection that is lost is reported, and reading stops. -/
def readFailed (s : ReadState) : Except Fault ReadState := do
  let tm ← env.tagged disconnectMsg sessionId
  return { s with phase := .stopped, forwarded := s.forwarded ++ [tm] }

/-- The completion handler of `do_read_body`. -/
def bodyRead (s : ReadState) : Except Fault ReadState := do
  let th ← TaggedMessage.ofBuffer env.allocates (s.readMsg.data.drop headerLength)
    s.readMsg.bodyLength.toUInt64 sessionId
  return { s with phase := .header, received := 0, forwarded := s.forwarded ++ [th] }

/-- The completion handler of `do_read_header`. -/
def headerRead (s : ReadState) : Except Fault ReadState := do
  let (valid, m) ← s.readMsg.decodeHeader env.allocates
  let s := { s with readMsg := m }
  if valid then
    let s := { s with phase := .body, received := 0 }
    if m.bodyLength = 0 then bodyRead env sessionId s else return s
  else readFailed env sessionId s

def receive (s : ReadState) (e : SocketEvent) : Except Fault ReadState :=
  if s.phase = .stopped then .ok s
  else match e with
    | .error => readFailed env sessionId s
    | .byte b => do
      let (start, length) := s.buffer
      let m ← s.readMsg.writeByte (start + s.received) b
      let s := { s with readMsg := m, received := s.received + 1 }
      if s.received = length then
        match s.phase with
        | .header => headerRead env sessionId s
        | _ => bodyRead env sessionId s
      else return s

/-- The frames of some bodies, one after the other. -/
def framesOf : List (List UInt8) → Except Fault (List UInt8)
  | [] => .ok []
  | body :: bodies => do
    let m ← ProtocolMessage.ofMessage env.allocates (cellsOf body) (UInt64.ofNat body.length)
    return (← m.frame) ++ (← framesOf bodies)

end Read

/-! ## Filling the buffer -/

variable (env : Env) (sessionId : ℤ) {s : ReadState} {pre : List UInt8}

/-- `pre` is what has been received of the current frame. -/
structure Filled (s : ReadState) (pre : List UInt8) : Prop where
  running : s.phase ≠ .stopped
  pos : pre.length = s.buffer.1 + s.received
  cells : cellsOf pre <+: s.readMsg.data
  room : s.buffer.1 + s.buffer.2 ≤ s.readMsg.data.length

/-- What a byte that does not complete the read leaves alone. -/
structure SameRead (s s' : ReadState) : Prop where
  phase : s'.phase = s.phase
  bodyLength : s'.readMsg.bodyLength = s.readMsg.bodyLength
  forwarded : s'.forwarded = s.forwarded

theorem SameRead.refl (s : ReadState) : SameRead s s := ⟨rfl, rfl, rfl⟩

theorem SameRead.trans {s t u : ReadState} (h : SameRead s t) (h' : SameRead t u) : SameRead s u :=
  ⟨h'.phase.trans h.phase, h'.bodyLength.trans h.bodyLength, h'.forwarded.trans h.forwarded⟩

theorem SameRead.buffer {s s' : ReadState} (h : SameRead s s') : s'.buffer = s.buffer := by
  simp only [ReadState.buffer, h.phase, h.bodyLength]

/-- The state a byte leads to before the completion handler runs. -/
theorem Filled.store (h : Filled s pre) (hlt : s.received < s.buffer.2) (b : UInt8) :
    ∃ m, s.readMsg.writeByte (s.buffer.1 + s.received) b = .ok m ∧
      SameRead s { s with readMsg := m, received := s.received + 1 } ∧
      Filled { s with readMsg := m, received := s.received + 1 } (pre ++ [b]) := by
  have hpos := h.pos
  have hroom := h.room
  obtain ⟨m, hm, hdata, hbody⟩ := ProtocolMessage.writeByte_spec (m := s.readMsg)
    (i := s.buffer.1 + s.received) (b := b) (by omega)
  have hsame : SameRead s { s with readMsg := m, received := s.received + 1 } := ⟨rfl, hbody, rfl⟩
  refine ⟨m, hm, hsame, h.running, ?_, ?_, ?_⟩
  · rw [hsame.buffer, List.length_append, List.length_singleton, hpos]
    rfl
  · have hset := prefix_set h.cells (by rw [length_cellsOf]; omega) (some b)
    rw [length_cellsOf, hpos] at hset
    rw [cellsOf_append, hdata]
    exact hset
  · rw [hsame.buffer, hdata, List.length_set]
    exact hroom

theorem receive_byte (h : Filled s pre) (hlt : s.received + 1 < s.buffer.2) (b : UInt8) :
    ∃ s', receive env sessionId s (.byte b) = .ok s' ∧ SameRead s s' ∧
      s'.received = s.received + 1 ∧ Filled s' (pre ++ [b]) := by
  obtain ⟨m, hm, hsame, hfilled⟩ := h.store (Nat.lt_of_succ_lt hlt) b
  refine ⟨_, ?_, hsame, rfl, hfilled⟩
  rw [receive, if_neg h.running]
  simp only [hm, bind, Except.bind, hlt.ne, if_false]
  rfl

/-- Bytes that do not complete the read. -/
theorem run_receive_bytes (bytes : List UInt8) (h : Filled s pre)
    (hlt : s.received + bytes.length < s.buffer.2) :
    ∃ s', run (receive env sessionId) s (bytes.map .byte) = .ok s' ∧ SameRead s s' ∧
      s'.received = s.received + bytes.length ∧ Filled s' (pre ++ bytes) := by
  induction bytes generalizing s pre with
  | nil => exact ⟨s, rfl, .refl s, rfl, by simpa using h⟩
  | cons b bytes ih =>
    rw [List.length_cons] at hlt
    obtain ⟨s₁, h₁, hsame₁, hrec₁, hfilled₁⟩ := receive_byte env sessionId h (by omega) b
    obtain ⟨s₂, h₂, hsame₂, hrec₂, hfilled₂⟩ := ih hfilled₁ (by
      rw [hsame₁.buffer, hrec₁]
      omega)
    refine ⟨s₂, ?_, hsame₁.trans hsame₂, ?_, ?_⟩
    · rw [List.map_cons, run_cons, h₁]
      exact h₂
    · rw [hrec₂, hrec₁, List.length_cons]
      omega
    · simpa using hfilled₂

/-- The byte that completes the read. -/
theorem receive_last (h : Filled s pre) (hlast : s.received + 1 = s.buffer.2) (b : UInt8) :
    ∃ s', receive env sessionId s (.byte b) =
        (match s.phase with
          | .header => headerRead env sessionId s'
          | _ => bodyRead env sessionId s') ∧
      SameRead s s' ∧ Filled s' (pre ++ [b]) := by
  obtain ⟨m, hm, hsame, hfilled⟩ := h.store (by omega) b
  refine ⟨_, ?_, hsame, hfilled⟩
  rw [receive, if_neg h.running]
  simp only [hm, bind, Except.bind, hlast, if_true]

/-! ## One frame -/

/-- Between two frames. -/
structure Idle (s : ReadState) : Prop where
  phase : s.phase = .header
  received : s.received = 0
  room : headerLength ≤ s.readMsg.data.length

theorem Idle.filled (h : Idle s) : Filled s [] where
  running := by simp [h.phase]
  pos := by simp [ReadState.buffer, h.phase, h.received]
  cells := List.nil_prefix
  room := by simpa [ReadState.buffer, h.phase] using h.room

/-- The body has arrived: it is forwarded, and the session waits for the next frame. -/
theorem bodyRead_spec (halloc : Allocates env.allocates) {body : List UInt8}
    (hn : body.length < 2 ^ 31) (hlen : s.readMsg.bodyLength.toNat = body.length)
    (hcells : cellsOf (be32 body.length ++ body) <+: s.readMsg.data) :
    ∃ s' t, bodyRead env sessionId s = .ok s' ∧ Idle s' ∧ t.Carries sessionId body ∧
      s'.forwarded = s.forwarded ++ [t] := by
  have hsize : s.readMsg.bodyLength.toUInt64 = UInt64.ofNat body.length := by
    apply UInt64.toNat_inj.mp
    rw [UInt32.toNat_toUInt64, hlen, UInt64.toNat_ofNat']
    exact (Nat.mod_eq_of_lt (by omega)).symm
  have hbody : cellsOf body <+: s.readMsg.data.drop headerLength := by
    obtain ⟨rest, hrest⟩ := hcells
    rw [← hrest, cellsOf_append, List.append_assoc]
    exact ⟨rest, rfl⟩
  obtain ⟨t, ht, hcarries⟩ := TaggedMessage.ofBuffer_spec sessionId halloc hn hbody
  refine ⟨{ s with phase := .header, received := 0, forwarded := s.forwarded ++ [t] }, t, ?_,
    ⟨rfl, rfl, ?_⟩, hcarries, rfl⟩
  · rw [bodyRead, hsize, ht]
    rfl
  · have hle := hcells.length_le
    simp only [length_cellsOf, List.length_append, length_be32] at hle
    simp only [headerLength]
    omega

/-- The header has arrived: the session reads the body, which may be empty. -/
theorem run_header (halloc : Allocates env.allocates) {n : ℕ} (hn : n < 2 ^ 31) (h : Idle s) :
    ∃ m, run (receive env sessionId) s ((be32 n).map .byte) =
        (if n = 0 then bodyRead env sessionId { s with readMsg := m, phase := .body, received := 0 }
          else .ok { s with readMsg := m, phase := .body, received := 0 }) ∧
      cellsOf (be32 n) <+: m.data ∧ headerLength + n ≤ m.data.length ∧ m.bodyLength.toNat = n := by
  have hbuf : s.buffer = (0, 4) := by simp [ReadState.buffer, h.phase, headerLength]
  -- three bytes, and the one that completes the read
  obtain ⟨s₁, h₁, hsame₁, hrec₁, hfilled₁⟩ := run_receive_bytes env sessionId
    [UInt8.ofNat (n / 2 ^ 24), UInt8.ofNat (n / 2 ^ 16), UInt8.ofNat (n / 2 ^ 8)] h.filled
    (by simp [hbuf, h.received])
  obtain ⟨s₂, h₂, hsame₂, hfilled₂⟩ := receive_last env sessionId hfilled₁
    (by simp [hrec₁, hsame₁.buffer, hbuf, h.received]) (UInt8.ofNat n)
  obtain ⟨m, hm, hcells, hroom, hlen⟩ :=
    ProtocolMessage.decodeHeader_spec (halloc.fits hn) hn hfilled₂.cells
  refine ⟨m, ?_, hcells, hroom, hlen⟩
  have hstate : ({ s₂ with readMsg := m, phase := .body, received := 0 } : ReadState) =
      { s with readMsg := m, phase := .body, received := 0 } := by
    rw [ReadState.mk.injEq]
    exact ⟨rfl, rfl, rfl, (hsame₁.trans hsame₂).forwarded⟩
  have hzero : m.bodyLength = 0 ↔ n = 0 := by
    rw [← hlen, ← UInt32.toNat_inj]
    rfl
  have hsplit : be32 n = [UInt8.ofNat (n / 2 ^ 24), UInt8.ofNat (n / 2 ^ 16),
      UInt8.ofNat (n / 2 ^ 8)] ++ [UInt8.ofNat n] := rfl
  rw [hsplit, List.map_append, run_append, h₁]
  change (run (receive env sessionId) s₁ [.byte (UInt8.ofNat n)]) = _
  rw [run_cons, h₂, hsame₁.phase.trans h.phase]
  simp only [headerRead, hm, bind, Except.bind, if_true, hstate, hzero]
  by_cases hn0 : n = 0
  · rw [if_pos hn0, if_pos hn0]
    cases bodyRead env sessionId { s with readMsg := m, phase := .body, received := 0 } <;> rfl
  · rw [if_neg hn0, if_neg hn0]
    rfl

/-- The header has been decoded and no byte of the body has arrived. -/
theorem filled_header {m : ProtocolMessage} {n : ℕ} (hcells : cellsOf (be32 n) <+: m.data)
    (hroom : headerLength + n ≤ m.data.length) (hlen : m.bodyLength.toNat = n) :
    Filled { s with readMsg := m, phase := .body, received := 0 } (be32 n) where
  running := by simp
  pos := rfl
  cells := hcells
  room := by simpa [ReadState.buffer, hlen] using hroom

/-- One frame is read: its body is forwarded. -/
theorem run_frame (halloc : Allocates env.allocates) {body : List UInt8}
    (hn : body.length < 2 ^ 31) (h : Idle s) :
    ∃ s' t, run (receive env sessionId) s ((be32 body.length ++ body).map .byte) = .ok s' ∧
      Idle s' ∧ t.Carries sessionId body ∧ s'.forwarded = s.forwarded ++ [t] := by
  obtain ⟨m, hrun, hcells, hroom, hlen⟩ := run_header env sessionId halloc hn h
  have hfilled : Filled { s with readMsg := m, phase := .body, received := 0 } (be32 body.length) :=
    filled_header hcells hroom hlen
  rw [List.map_append, run_append, hrun]
  obtain rfl | ⟨init, last, rfl⟩ := List.eq_nil_or_concat body
  · -- an empty body is complete with the header
    obtain ⟨s', t, hread, hidle, hcarries, hforwarded⟩ := bodyRead_spec env sessionId
      (s := { s with readMsg := m, phase := .body, received := 0 }) halloc hn hlen
      (by simpa using hcells)
    refine ⟨s', t, ?_, hidle, hcarries, hforwarded⟩
    rw [if_pos List.length_nil, hread]
    rfl
  · rw [List.concat_eq_append] at *
    have hlength : (init ++ [last]).length = init.length + 1 := by simp
    have hbuf : ReadState.buffer { s with readMsg := m, phase := .body, received := 0 } =
        (headerLength, init.length + 1) := by
      rw [← hlength, ← hlen]
      rfl
    obtain ⟨s₁, h₁, hsame₁, hrec₁, hfilled₁⟩ := run_receive_bytes env
      sessionId init hfilled (by simp [hbuf])
    obtain ⟨s₂, h₂, hsame₂, hfilled₂⟩ := receive_last env sessionId hfilled₁
      (by simp [hrec₁, hsame₁.buffer, hbuf]) last
    have hsame := hsame₁.trans hsame₂
    obtain ⟨s', t, hread, hidle, hcarries, hforwarded⟩ := bodyRead_spec env sessionId
      halloc hn (hsame.bodyLength ▸ hlen) (by simpa using hfilled₂.cells)
    refine ⟨s', t, ?_, hidle, hcarries, by rw [hforwarded, hsame.forwarded]⟩
    rw [if_neg (by simp), List.map_append]
    change run (receive env sessionId) _ _ = _
    rw [run_append, h₁]
    change run (receive env sessionId) s₁ [.byte last] = _
    rw [run_cons, h₂, hsame₁.phase]
    simp only [hread]
    rfl

/-! ## The round trip -/

theorem framesOf_cons (halloc : Allocates env.allocates) {body : List UInt8}
    (hn : body.length < 2 ^ 31) {bodies : List (List UInt8)} {frames : List UInt8}
    (h : framesOf env bodies = .ok frames) :
    framesOf env (body :: bodies) = .ok (be32 body.length ++ body ++ frames) := by
  obtain ⟨m, hm, hframe⟩ := ProtocolMessage.ofMessage_spec halloc hn
    (List.prefix_refl (cellsOf body))
  rw [framesOf, hm]
  simp only [bind, Except.bind, hframe, h]
  rfl

/-- From a session that waits for a frame. -/
theorem run_frames (halloc : Allocates env.allocates) (bodies : List (List UInt8))
    (hn : ∀ body ∈ bodies, body.length < 2 ^ 31) (h : Idle s) :
    ∃ frames s' sent, framesOf env bodies = .ok frames ∧
      run (receive env sessionId) s (frames.map .byte) = .ok s' ∧ Idle s' ∧
      s'.forwarded = s.forwarded ++ sent ∧
      List.Forall₂ (fun t body => t.Carries sessionId body) sent bodies := by
  induction bodies generalizing s with
  | nil => exact ⟨[], s, [], rfl, rfl, h, by simp, .nil⟩
  | cons body bodies ih =>
    obtain ⟨s₁, t, h₁, hidle₁, hcarries, hforwarded₁⟩ := run_frame env sessionId halloc
      (hn body List.mem_cons_self) h
    obtain ⟨frames, s₂, sent, hframes, h₂, hidle₂, hforwarded₂, hsent⟩ := ih
      (fun b hb => hn b (List.mem_cons_of_mem _ hb)) hidle₁
    refine ⟨_, s₂, t :: sent, framesOf_cons env halloc (hn body List.mem_cons_self) hframes, ?_,
      hidle₂, ?_, .cons hcarries hsent⟩
    · rw [List.map_append, run_append, h₁]
      exact h₂
    · rw [hforwarded₂, hforwarded₁, List.append_assoc]
      rfl

/-- A new session that receives the frames of some bodies forwards these bodies in their order,
and waits for the next frame. -/
theorem readFrames_spec (env : Env) (sessionId : ℤ) (halloc : Allocates env.allocates)
    (bodies : List (List UInt8)) (hn : ∀ body ∈ bodies, body.length < 2 ^ 31) :
    ∃ frames s, framesOf env bodies = .ok frames ∧
      run (receive env sessionId) {} (frames.map .byte) = .ok s ∧
      List.Forall₂ (fun t body => t.tag = sessionId ∧ t.getSize.toInt = body.length ∧
        t.bytes = .ok body) s.forwarded bodies ∧
      s.phase = .header ∧ s.received = 0 := by
  have hidle : Idle {} := by
    refine ⟨rfl, rfl, ?_⟩
    rw [ProtocolMessage.le_length_data_of_heapData_eq_none rfl]
    decide
  obtain ⟨frames, s, sent, hframes, hrun, hidle', hforwarded, hsent⟩ := run_frames env
    sessionId halloc bodies hn hidle
  refine ⟨frames, s, hframes, hrun, ?_, hidle'.phase, hidle'.received⟩
  rw [hforwarded]
  exact hsent.imp fun t body h => ⟨h.tag, h.getSize, h.bytes_eq⟩

/-- Memory never runs out, and all messages are serialized alike. -/
def freeEnv : Env := ⟨fun _ => true, fun _ => [], fun _ => by decide⟩

/-- A body for the heap buffers between an empty body and a short one. -/
theorem readFrames_heapBetweenStatic :
    ∃ frames s, framesOf freeEnv [[], List.replicate 24001 7, [1, 2]] = .ok frames ∧
      run (receive freeEnv 5) {} (frames.map .byte) = .ok s ∧
      List.Forall₂ (fun t body => t.tag = 5 ∧ t.getSize.toInt = body.length ∧
        t.bytes = .ok body) s.forwarded [[], List.replicate 24001 7, [1, 2]] ∧
      s.phase = .header ∧ s.received = 0 :=
  readFrames_spec freeEnv 5 (fun _ _ => rfl) _ (by
    simp only [List.mem_cons, List.not_mem_nil, or_false, forall_eq_or_imp, forall_eq,
      List.length_replicate, List.length_nil, List.length_cons]
    decide)

end FlexRan.Network
