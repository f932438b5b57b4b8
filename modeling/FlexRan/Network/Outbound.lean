import FlexRan.Network.AgentSession
import FlexRan.Lib.OrdMap

/-!
# The way out

A message for an agent is pushed to a bounded queue by any thread, which then posts a handler
to the io service.  The handlers run one at a time; each pops a message and delivers it to the
session of its tag, which writes one message after the other to its socket.

`run_outboundStep_delivered` says that along every interleaving no handler finds the queue empty
and no session writes two messages at once, and that the bytes on a socket are the frames of the
messages for it, in the order of the queue.  Which messages these are is a matter of the states in
which the senders and the handlers run: a step notes it from the state before, not from what the
functions do.

## Main definitions

* `Session`, `Session.deliver`, `Session.writeComplete`: the writing half of a session.
* `Outbound`, `outboundStep`: the queue, the handlers and the sessions.
* `Outbound.accepting`, `Outbound.popping`: what a step notes.
* `Delivered`: what holds in every state.
-/
namespace FlexRan.Network

open Lib Protocol

def queueCapacity : ℕ := 10000

/-- An `async_write` that has not completed. -/
structure Write where
  buffer : List UInt8
  /-- How many bytes the socket has taken. -/
  written : ℕ := 0

structure Session where
  writeQueue : List ProtocolMessage := []
  /-- The writes in flight; nothing in the code says that there is at most one. -/
  outstanding : List Write := []
  /-- The bytes the socket has taken, over all writes. -/
  sent : List UInt8 := []

namespace Session

/-- `do_write`, up to the start of the write. -/
def doWrite (s : Session) : Except Fault Session :=
  match s.writeQueue with
  | [] => .error .emptyContainer
  | m :: _ => do
    let buffer ← m.frame
    return { s with outstanding := s.outstanding ++ [{ buffer := buffer }] }

/-- The size is an `int` that becomes a `size_t`. -/
def deliver (allocates : ℕ → Bool) (s : Session) (msg : TaggedMessage) :
    Except Fault Session := do
  let writeInProgress := !s.writeQueue.isEmpty
  let m ← ProtocolMessage.ofMessage allocates msg.getMessageContents msg.getSize.toInt64.toUInt64
  let s := { s with writeQueue := s.writeQueue ++ [m] }
  if !writeInProgress then s.doWrite else return s

/-- The socket takes one more byte of the `i`-th write in flight. -/
def writeSome (s : Session) (i : ℕ) : Session :=
  match s.outstanding[i]? with
  | none => s
  | some w =>
    match w.buffer[w.written]? with
    | none => s
    | some b => { s with
        outstanding := s.outstanding.set i { w with written := w.written + 1 }
        sent := s.sent ++ [b] }

/-- The completion handler of the `i`-th write in flight, once the buffer has been written. -/
def writeComplete (s : Session) (i : ℕ) : Except Fault Session :=
  match s.outstanding[i]? with
  | none => .ok s
  | some w =>
    if w.written < w.buffer.length then .ok s
    else
      let s := { s with outstanding := s.outstanding.eraseIdx i }
      match s.writeQueue with
      | [] => .error .emptyContainer
      | _ :: rest =>
        let s := { s with writeQueue := rest }
        if !rest.isEmpty then s.doWrite else .ok s

end Session

/-- A message that a handler has popped. -/
structure Popped where
  msg : TaggedMessage
  /-- Whether there was a session with the tag of the message when it was popped. -/
  registered : Bool

structure Outbound where
  outQueue : List TaggedMessage := []
  /-- How many threads have pushed a message and not yet posted the handler for it. -/
  sending : ℕ := 0
  /-- How many handlers have been posted and not run. -/
  posted : ℕ := 0
  sessions : Std.ExtTreeMap ℤ Session := ∅
  nextId : ℤ := 0
  /-- The messages pushed while there was room, with their tags. -/
  accepted : List (ℤ × FlexranMessage) := []
  popped : List Popped := []

inductive OutboundEvent
  /-- A thread calls `send_msg`; the call gets to the push. -/
  | push (msg : FlexranMessage) (agentTag : ℤ)
  /-- A thread that has pushed posts the handler. -/
  | post
  /-- The io service runs a posted handler. -/
  | forwardMsgToAgent
  | accept
  | writeSome (sessionId : ℤ) (i : ℕ)
  | writeComplete (sessionId : ℤ) (i : ℕ)

section Step

variable (env : Env)

/-- `send_msg` up to the push. A message that finds no room is dropped, which the caller is
told. -/
def sendMsg (s : Outbound) (msg : FlexranMessage) (agentTag : ℤ) : Except Fault Outbound := do
  let tm ← env.tagged msg agentTag
  if s.outQueue.length < queueCapacity then
    return { s with outQueue := s.outQueue ++ [tm], sending := s.sending + 1 }
  else return s

def sendMsgToAgent (s : Outbound) (msg : TaggedMessage) : Except Fault Outbound :=
  match s.sessions[msg.tag]? with
  | none => .ok s
  | some session => do
    let session ← session.deliver env.allocates msg
    return { s with sessions := s.sessions.insert msg.tag session }

/-- The pointer that `pop` would set is used even where the queue is empty. -/
def forwardMsgToAgent (s : Outbound) : Except Fault Outbound :=
  match s.outQueue with
  | [] => .error .uninitialised
  | msg :: outQueue => sendMsgToAgent env { s with outQueue := outQueue } msg

/-- The part of the completion handler of `do_accept` that registers the session. -/
def accept (s : Outbound) : Outbound :=
  { s with sessions := s.sessions.insert s.nextId {}, nextId := s.nextId + 1 }

def onSession (s : Outbound) (sessionId : ℤ) (f : Session → Except Fault Session) :
    Except Fault Outbound :=
  match s.sessions[sessionId]? with
  | none => .ok s
  | some session => do
    let session ← f session
    return { s with sessions := s.sessions.insert sessionId session }

/-- A push is accepted while there is room. -/
def Outbound.accepting (s : Outbound) (msg : FlexranMessage) (agentTag : ℤ) :
    List (ℤ × FlexranMessage) :=
  if s.outQueue.length < queueCapacity then [(agentTag, msg)] else []

/-- The next handler pops the first message, which is for a session or for nobody. -/
def Outbound.popping (s : Outbound) : List Popped :=
  s.outQueue.head?.toList.map fun msg => ⟨msg, s.sessions.contains msg.tag⟩

def outboundStep (s : Outbound) : OutboundEvent → Except Fault Outbound
  | .push msg agentTag => do
    let t ← sendMsg env s msg agentTag
    return { t with accepted := s.accepted ++ s.accepting msg agentTag }
  | .post =>
    if s.sending = 0 then .ok s
    else .ok { s with sending := s.sending - 1, posted := s.posted + 1 }
  | .forwardMsgToAgent =>
    if s.posted = 0 then .ok s
    else do
      let t ← forwardMsgToAgent env { s with posted := s.posted - 1 }
      return { t with popped := s.popped ++ s.popping }
  | .accept => .ok (accept s)
  | .writeSome sessionId i => onSession s sessionId fun session => .ok (session.writeSome i)
  | .writeComplete sessionId i => onSession s sessionId fun session => session.writeComplete i

end Step

/-! ## What is delivered -/

/-- The frame of a message: the big-endian length, and the body. -/
def TaggedMessage.frame (t : TaggedMessage) : List UInt8 :=
  match t.bytes with
  | .ok body => be32 body.length ++ body
  | .error _ => []

/-- The frames of the messages popped for a session while it was registered. -/
def Outbound.framesFor (s : Outbound) (sessionId : ℤ) : List UInt8 :=
  (s.popped.filter fun p => p.registered && p.msg.tag = sessionId).flatMap fun p => p.msg.frame

structure SessionDelivered (s : Outbound) (sessionId : ℤ) (session : Session) : Prop where
  sent : session.sent <+: s.framesFor sessionId
  /-- Once all writes have completed, nothing is missing. -/
  drained : session.outstanding = [] → session.sent = s.framesFor sessionId
  atMostOne : session.outstanding.length ≤ 1
  writing : session.outstanding ≠ [] ↔ session.writeQueue ≠ []

structure Delivered (env : Env) (s : Outbound) : Prop where
  /-- The accepted messages are those popped and those in the queue, in this order. -/
  fifo : List.Forall₂ (fun (t : TaggedMessage) a => t.Carries a.1 (env.serialize a.2))
    (s.popped.map Popped.msg ++ s.outQueue) s.accepted
  /-- There is a message for each handler that is posted or will be. -/
  handlers : s.outQueue.length = s.sending + s.posted
  /-- The connections accepted so far, and no others, have sessions. -/
  registered : ∀ id, id ∈ s.sessions ↔ 0 ≤ id ∧ id < s.nextId
  sessions : ∀ (id : ℤ) session, s.sessions[id]? = some session → SessionDelivered s id session

/-! ## The writes of a session -/

/-- The write queue, the writes in flight, and the bytes still to be written. -/
inductive Writing : List ProtocolMessage → List Write → List UInt8 → Prop
  | idle : Writing [] [] []
  | busy {m ms w frames} (front : m.frame = .ok w.buffer) (le : w.written ≤ w.buffer.length)
      (tail : List.Forall₂ (fun (m : ProtocolMessage) f => m.frame = .ok f) ms frames) :
      Writing (m :: ms) [w] (w.buffer.drop w.written ++ frames.flatten)

/-- All bytes the session has taken on are `total`. -/
def Session.Inv (s : Session) (total : List UInt8) : Prop :=
  ∃ rest, Writing s.writeQueue s.outstanding rest ∧ total = s.sent ++ rest

namespace Session

variable {s : Session} {total : List UInt8}

theorem inv_empty : Session.Inv {} [] := ⟨[], .idle, rfl⟩

theorem doWrite_eq {m : ProtocolMessage} {ms : List ProtocolMessage} {f : List UInt8}
    (hq : s.writeQueue = m :: ms) (hf : m.frame = .ok f) :
    s.doWrite = .ok { s with outstanding := s.outstanding ++ [{ buffer := f }] } := by
  rw [doWrite, hq]
  simp only [hf]
  rfl

theorem Inv.deliver (allocates : ℕ → Bool) (h : s.Inv total) {t : TaggedMessage} {tag : ℤ}
    {body : List UInt8} (hn : body.length < 2 ^ 31) (ht : t.Carries tag body) :
    (∃ s', s.deliver allocates t = .ok s' ∧ s'.Inv (total ++ (be32 body.length ++ body))) ∨
      s.deliver allocates t = .error .badAlloc := by
  have halloc : Allocates fun _ => true := fun _ _ => rfl
  obtain ⟨m, hm, hf⟩ := ProtocolMessage.ofMessage_spec halloc hn ht.contents
  obtain ⟨rest, hwriting, rfl⟩ := h
  rw [Session.deliver]
  rw [ht.toUInt64_getSize hn]
  rcases ProtocolMessage.ofMessage_badAlloc_or allocates t.getMessageContents
    (UInt64.ofNat body.length) with hbad | hsame
  · right
    rw [hbad]
    rfl
  · left
    rw [hsame, hm]
    obtain ⟨queue, outstanding, sent⟩ := s
    cases hwriting with
    | idle =>
      -- nothing was in flight: the write starts at once
      refine ⟨{ writeQueue := [m], outstanding := [{ buffer := be32 body.length ++ body }],
                sent := sent }, ?_, _, .busy hf (Nat.zero_le _) .nil, by simp⟩
      exact doWrite_eq (s := { writeQueue := [m], sent := sent }) rfl hf
    | busy front le tail =>
      exact ⟨_, rfl, _, .busy front le (List.rel_append tail (.cons hf .nil)), by simp⟩

theorem Inv.writeSome (h : s.Inv total) (i : ℕ) : (s.writeSome i).Inv total := by
  obtain ⟨rest, hwriting, rfl⟩ := h
  obtain ⟨queue, outstanding, sent⟩ := s
  cases hwriting with
  | idle => exact ⟨[], .idle, rfl⟩
  | @busy m ms w frames front le tail =>
    cases i with
    | succ i => exact ⟨_, .busy front le tail, rfl⟩
    | zero =>
      cases hb : w.buffer[w.written]? with
      | none =>
        have hsame : Session.writeSome ⟨m :: ms, [w], sent⟩ 0 = ⟨m :: ms, [w], sent⟩ := by
          simp [Session.writeSome, hb]
        rw [hsame]
        exact ⟨_, .busy front le tail, rfl⟩
      | some b =>
        obtain ⟨hlt, hget⟩ := List.getElem?_eq_some_iff.mp hb
        refine ⟨w.buffer.drop (w.written + 1) ++ frames.flatten, ?_, ?_⟩
        · simpa [Session.writeSome, hb] using
            Writing.busy (w := { w with written := w.written + 1 }) front hlt tail
        · simp [Session.writeSome, hb, List.drop_eq_getElem_cons hlt, hget]

theorem Inv.writeComplete (h : s.Inv total) (i : ℕ) :
    ∃ s', s.writeComplete i = .ok s' ∧ s'.Inv total := by
  obtain ⟨rest, hwriting, rfl⟩ := h
  obtain ⟨queue, outstanding, sent⟩ := s
  cases hwriting with
  | idle => exact ⟨_, rfl, [], .idle, rfl⟩
  | @busy m ms w frames front le tail =>
    cases i with
    | succ i => exact ⟨_, rfl, _, .busy front le tail, rfl⟩
    | zero =>
      by_cases hlt : w.written < w.buffer.length
      · refine ⟨_, ?_, _, .busy front le tail, rfl⟩
        simp [Session.writeComplete, hlt]
      · have hdone : w.buffer.drop w.written = [] := List.drop_of_length_le (by omega)
        cases tail with
        | nil =>
          refine ⟨{ sent := sent }, ?_, [], .idle, by simp [hdone]⟩
          simp [Session.writeComplete, hlt]
        | @cons m' f ms frames hf tail =>
          refine ⟨{ writeQueue := m' :: ms, outstanding := [{ buffer := f }], sent := sent }, ?_,
            _, .busy hf (Nat.zero_le _) tail, by simp [hdone]⟩
          simp only [Session.writeComplete, List.getElem?_cons_zero, if_neg hlt]
          exact doWrite_eq (s := { writeQueue := m' :: ms, sent := sent }) rfl hf

theorem Inv.atMostOne (h : s.Inv total) : s.outstanding.length ≤ 1 := by
  obtain ⟨rest, hwriting, -⟩ := h
  generalize s.writeQueue = queue, s.outstanding = outstanding at hwriting
  cases hwriting with
  | idle => exact Nat.zero_le 1
  | busy => exact le_refl 1

theorem Inv.writing (h : s.Inv total) : s.outstanding ≠ [] ↔ s.writeQueue ≠ [] := by
  obtain ⟨rest, hwriting, -⟩ := h
  generalize s.writeQueue = queue, s.outstanding = outstanding at hwriting
  cases hwriting with
  | idle => simp
  | busy => simp

theorem Inv.sent (h : s.Inv total) : s.sent <+: total := by
  obtain ⟨rest, -, rfl⟩ := h
  exact List.prefix_append _ _

theorem Inv.drained (h : s.Inv total) (hnone : s.outstanding = []) : s.sent = total := by
  obtain ⟨rest, hwriting, rfl⟩ := h
  rw [hnone] at hwriting
  generalize s.writeQueue = queue at hwriting
  cases hwriting with
  | idle => simp

end Session

/-! ## The system -/

/-- A handler is posted for each message in the queue, and each session is on its way to all
frames of the messages popped for it. -/
structure OutboundInv (env : Env) (s : Outbound) : Prop where
  fifo : List.Forall₂ (fun (t : TaggedMessage) a => t.Carries a.1 (env.serialize a.2))
    (s.popped.map Popped.msg ++ s.outQueue) s.accepted
  handlers : s.outQueue.length = s.sending + s.posted
  first : 0 ≤ s.nextId
  registered : ∀ id, id ∈ s.sessions ↔ 0 ≤ id ∧ id < s.nextId
  sessions : ∀ (id : ℤ) session, s.sessions[id]? = some session → session.Inv (s.framesFor id)
  known : ∀ p ∈ s.popped, p.registered = true → p.msg.tag ∈ s.sessions

variable {env : Env} {s : Outbound}

theorem OutboundInv.delivered (h : OutboundInv env s) : Delivered env s where
  fifo := h.fifo
  handlers := h.handlers
  registered := h.registered
  sessions id session hid :=
    { sent := (h.sessions id session hid).sent
      drained := (h.sessions id session hid).drained
      atMostOne := (h.sessions id session hid).atMostOne
      writing := (h.sessions id session hid).writing }

theorem outboundInv_empty (env : Env) : OutboundInv env {} where
  fifo := .nil
  handlers := rfl
  first := le_refl 0
  registered id := by
    have hnot : id ∉ ({} : Outbound).sessions := by simp
    have hnone : ¬ (0 ≤ id ∧ id < 0) := by omega
    exact iff_of_false hnot hnone
  sessions := by simp
  known := by simp

theorem TaggedMessage.Carries.frame_eq {t : TaggedMessage} {tag : ℤ} {body : List UInt8}
    (h : t.Carries tag body) : t.frame = be32 body.length ++ body := by
  rw [TaggedMessage.frame, h.bytes_eq]

/-- Each message that was popped or waits was serialized. -/
theorem exists_carries {msgs : List TaggedMessage} {accepted : List (ℤ × FlexranMessage)}
    (h : List.Forall₂ (fun (t : TaggedMessage) a => t.Carries a.1 (env.serialize a.2)) msgs
      accepted) :
    ∀ t ∈ msgs, ∃ tag body, body.length < 2 ^ 31 ∧ t.Carries tag body := by
  induction h with
  | nil => simp
  | cons ht _ ih => exact List.forall_mem_cons.mpr ⟨⟨_, _, env.serialize_lt _, ht⟩, ih⟩

theorem tagged_spec (env : Env) (msg : FlexranMessage) (tag : ℤ) :
    env.tagged msg tag = .error .badAlloc ∨
      ∃ t, env.tagged msg tag = .ok t ∧ t.Carries tag (env.serialize msg) := by
  rcases TaggedMessage.serializeToArray_ofSize_spec env.allocates tag (env.serialize_lt msg) with
    hbad | hok
  · left
    rw [Env.tagged, hbad]
    rfl
  · exact .inr hok

/-- Popping a message adds its frame to those of its session, if that is registered. -/
theorem framesFor_popped {s' : Outbound} {p : Popped} (hs : s'.popped = s.popped ++ [p]) (id : ℤ) :
    s'.framesFor id =
      s.framesFor id ++ if p.registered = true ∧ p.msg.tag = id then p.msg.frame else [] := by
  rw [Outbound.framesFor, Outbound.framesFor, hs, List.filter_append, List.flatMap_append]
  by_cases hp : p.registered = true ∧ p.msg.tag = id
  · simp [hp]
  · rw [if_neg hp, List.filter_cons_of_neg (by simpa using hp)]
    rfl

/-- There are no frames for the session that is accepted next. -/
theorem OutboundInv.framesFor_nextId (h : OutboundInv env s) : s.framesFor s.nextId = [] := by
  rw [Outbound.framesFor, List.filter_eq_nil_iff.mpr, List.flatMap_nil]
  intro p hp hsome
  rw [Bool.and_eq_true, decide_eq_true_eq] at hsome
  have hlt := ((h.registered _).mp (h.known p hp hsome.1)).2
  rw [hsome.2] at hlt
  exact lt_irrefl _ hlt

/-- What each step does under the invariant: it keeps it, unless memory runs out. -/
def Kept (env : Env) (result : Except Fault Outbound) : Prop :=
  (∃ s', result = .ok s' ∧ OutboundInv env s') ∨ ∃ f, result = .error f ∧ f = .badAlloc

theorem OutboundInv.sendMsg (h : OutboundInv env s) (msg : FlexranMessage) (agentTag : ℤ) :
    Kept env (outboundStep env s (.push msg agentTag)) := by
  rw [Kept, outboundStep, Network.sendMsg, Outbound.accepting]
  rcases tagged_spec env msg agentTag with hbad | ⟨t, ht, hcarries⟩
  · right
    rw [hbad]
    exact ⟨_, rfl, rfl⟩
  · left
    rw [ht]
    by_cases hroom : s.outQueue.length < queueCapacity
    · refine ⟨{ s with
        outQueue := s.outQueue ++ [t], sending := s.sending + 1
        accepted := s.accepted ++ [(agentTag, msg)] }, ?_, ?_, ?_, h.first, h.registered,
        h.sessions, h.known⟩
      · simp only [bind, Except.bind, if_pos hroom]
        rfl
      · rw [← List.append_assoc]
        exact List.rel_append h.fifo (.cons hcarries .nil)
      · have hhandlers := h.handlers
        simp only [List.length_append, List.length_singleton]
        omega
    · refine ⟨s, ?_, h⟩
      simp only [bind, Except.bind, if_neg hroom, List.append_nil]
      rfl

theorem OutboundInv.post (h : OutboundInv env s) : Kept env (outboundStep env s .post) := by
  left
  by_cases hnone : s.sending = 0
  · exact ⟨s, if_pos hnone, h⟩
  · refine ⟨_, if_neg hnone, h.fifo, ?_, h.first, h.registered, h.sessions, h.known⟩
    have hhandlers := h.handlers
    simp only
    omega

/-- Replacing one session, where the totals of the others stay. -/
theorem inv_insert {sessions : Std.ExtTreeMap ℤ Session} {total total' : ℤ → List UInt8} {id : ℤ}
    {session : Session}
    (h : ∀ (i : ℤ) (session : Session), sessions[i]? = some session → session.Inv (total i))
    (hnew : session.Inv (total' id)) (hsame : ∀ i ≠ id, total' i = total i) :
    ∀ (i : ℤ) (session' : Session), (sessions.insert id session)[i]? = some session' →
      session'.Inv (total' i) := by
  intro i session' hi
  rw [Std.ExtTreeMap.getElem?_insert] at hi
  by_cases hid : id = i
  · subst hid
    rw [if_pos Std.ReflCmp.compare_self] at hi
    exact Option.some.inj hi ▸ hnew
  · rw [if_neg (mt Std.LawfulEqCmp.eq_of_compare hid)] at hi
    rw [hsame i (Ne.symm hid)]
    exact h i session' hi

theorem mem_insert_iff {sessions : Std.ExtTreeMap ℤ Session} {id : ℤ} {old : Session}
    (hold : sessions[id]? = some old) (session : Session) (i : ℤ) :
    i ∈ sessions.insert id session ↔ i ∈ sessions := by
  rw [Std.ExtTreeMap.mem_insert, or_iff_right_of_imp]
  intro hi
  rw [← Std.LawfulEqCmp.eq_of_compare hi, Std.ExtTreeMap.mem_iff_isSome_getElem?, hold]
  rfl

section Pop

variable {t : TaggedMessage} {rest : List TaggedMessage} (h : OutboundInv env s)
  (hqueue : s.outQueue = t :: rest) (hposted : s.posted ≠ 0)
include h hqueue

theorem OutboundInv.fifo_pop (b : Bool) :
    List.Forall₂ (fun (t : TaggedMessage) a => t.Carries a.1 (env.serialize a.2))
      ((s.popped ++ [Popped.mk t b]).map Popped.msg ++ rest) s.accepted := by
  have hfifo := h.fifo
  rw [hqueue] at hfifo
  simpa using hfifo

include hposted

theorem OutboundInv.handlers_pop : rest.length = s.sending + (s.posted - 1) := by
  have hhandlers := h.handlers
  rw [hqueue, List.length_cons] at hhandlers
  omega

/-- A message without a session is discarded. -/
theorem OutboundInv.discard :
    OutboundInv env { s with
      outQueue := rest, posted := s.posted - 1, popped := s.popped ++ [⟨t, false⟩] } where
  fifo := h.fifo_pop hqueue false
  handlers := h.handlers_pop hqueue hposted
  first := h.first
  registered := h.registered
  sessions id session hid := by
    rw [framesFor_popped (s := s) rfl, if_neg (fun hp => Bool.false_ne_true hp.1), List.append_nil]
    exact h.sessions id session hid
  known p hp hreg := by
    rcases List.mem_append.mp hp with hp | hp
    · exact h.known p hp hreg
    · rw [List.mem_singleton.mp hp] at hreg
      exact absurd hreg Bool.false_ne_true

/-- A message with a session is on its way once the session has taken on its frame. -/
theorem OutboundInv.pass {session session' : Session}
    (hsession : s.sessions[t.tag]? = some session)
    (hinv : session'.Inv (s.framesFor t.tag ++ t.frame)) :
    OutboundInv env { s with
      outQueue := rest, posted := s.posted - 1, popped := s.popped ++ [⟨t, true⟩]
      sessions := s.sessions.insert t.tag session' } where
  fifo := h.fifo_pop hqueue true
  handlers := h.handlers_pop hqueue hposted
  first := h.first
  registered id := (mem_insert_iff hsession session' id).trans (h.registered id)
  sessions := by
    refine inv_insert h.sessions ?_ fun i hi => ?_
    · rw [framesFor_popped (s := s) rfl, if_pos ⟨rfl, rfl⟩]
      exact hinv
    · rw [framesFor_popped (s := s) rfl, if_neg (fun hp => hi hp.2.symm), List.append_nil]
  known p hp hreg := by
    refine (mem_insert_iff hsession session' p.msg.tag).mpr ?_
    rcases List.mem_append.mp hp with hp | hp
    · exact h.known p hp hreg
    · rw [List.mem_singleton.mp hp, Std.ExtTreeMap.mem_iff_isSome_getElem?, hsession]
      rfl

end Pop

/-- A handler that runs finds the message that its thread has pushed, or an older one. -/
theorem OutboundInv.forwardMsgToAgent (h : OutboundInv env s) :
    Kept env (outboundStep env s .forwardMsgToAgent) := by
  rw [outboundStep]
  by_cases hposted : s.posted = 0
  · rw [if_pos hposted]
    exact .inl ⟨s, rfl, h⟩
  · rw [if_neg hposted, Network.forwardMsgToAgent, Outbound.popping]
    cases hqueue : s.outQueue with
    | nil =>
      have hhandlers := h.handlers
      rw [hqueue, List.length_nil] at hhandlers
      omega
    | cons t rest =>
      obtain ⟨tag, body, hn, ht⟩ := exists_carries h.fifo t (by simp [hqueue])
      dsimp only
      rw [Network.sendMsgToAgent]
      dsimp only
      cases hsession : s.sessions[t.tag]? with
      | none =>
        have hunknown : s.sessions.contains t.tag = false := by
          rw [Std.ExtTreeMap.contains_eq_isSome_getElem?, hsession]
          rfl
        rw [List.head?_cons, Option.toList_some, List.map_singleton, hunknown]
        exact .inl ⟨_, rfl, h.discard hqueue hposted⟩
      | some session =>
        have hknown : s.sessions.contains t.tag = true := by
          rw [Std.ExtTreeMap.contains_eq_isSome_getElem?, hsession]
          rfl
        rw [List.head?_cons, Option.toList_some, List.map_singleton, hknown]
        rcases (h.sessions t.tag session hsession).deliver env.allocates hn ht with
          ⟨session', hdeliver, hinv⟩ | hbad
        · rw [← ht.frame_eq] at hinv
          simp only [hdeliver]
          exact .inl ⟨_, rfl, h.pass hqueue hposted hsession hinv⟩
        · simp only [hbad]
          exact .inr ⟨_, rfl, rfl⟩

theorem OutboundInv.accept (h : OutboundInv env s) : OutboundInv env (accept s) where
  fifo := h.fifo
  handlers := h.handlers
  first := Int.le_trans h.first (Int.le_of_lt (Int.lt_succ _))
  registered id := by
    have hfirst := h.first
    rw [Network.accept, Std.ExtTreeMap.mem_insert, h.registered,
      Std.LawfulEqCmp.compare_eq_iff_eq]
    dsimp only
    omega
  sessions := by
    refine inv_insert h.sessions ?_ fun _ _ => rfl
    have hnil : (Network.accept s).framesFor s.nextId = [] := h.framesFor_nextId
    rw [hnil]
    exact Session.inv_empty
  known p hp hreg := Std.ExtTreeMap.mem_insert.mpr (.inr (h.known p hp hreg))

theorem OutboundInv.onSession (h : OutboundInv env s) (id : ℤ)
    {f : Session → Except Fault Session}
    (hf : ∀ session total, session.Inv total → ∃ session', f session = .ok session' ∧
      session'.Inv total) :
    Kept env (onSession s id f) := by
  left
  rw [Network.onSession]
  cases hid : s.sessions[id]? with
  | none => exact ⟨s, rfl, h⟩
  | some session =>
    obtain ⟨session', hf', hinv⟩ := hf session _ (h.sessions id session hid)
    refine ⟨{ s with sessions := s.sessions.insert id session' }, by simp only [hf']; rfl, ?_⟩
    exact
      { fifo := h.fifo
        handlers := h.handlers
        first := h.first
        registered := fun i => (mem_insert_iff hid session' i).trans (h.registered i)
        sessions := inv_insert h.sessions hinv fun _ _ => rfl
        known := fun p hp hreg =>
          (mem_insert_iff hid session' p.msg.tag).mpr (h.known p hp hreg) }

theorem OutboundInv.step (h : OutboundInv env s) (e : OutboundEvent) :
    Kept env (outboundStep env s e) := by
  cases e with
  | push msg agentTag => exact h.sendMsg msg agentTag
  | post => exact h.post
  | forwardMsgToAgent => exact h.forwardMsgToAgent
  | accept => exact .inl ⟨_, rfl, h.accept⟩
  | writeSome id i => exact h.onSession id fun session _ hinv => ⟨_, rfl, hinv.writeSome i⟩
  | writeComplete id i => exact h.onSession id fun session _ hinv => hinv.writeComplete i

/-- Along every interleaving, up to an allocation that fails, the messages are popped in the
order in which they were accepted, and every session writes the frames of its messages one
after the other. -/
theorem run_outboundStep_delivered (env : Env) (events : List OutboundEvent) :
    (∃ s, run (outboundStep env) {} events = .ok s ∧ Delivered env s) ∨
      run (outboundStep env) {} events = .error .badAlloc := by
  rcases run_ok_or_error (fun s e (h : OutboundInv env s) => h.step e) (outboundInv_empty env)
    events with ⟨s, hs, hinv⟩ | ⟨f, hf, rfl⟩
  · exact .inl ⟨s, hs, hinv.delivered⟩
  · exact .inr hf

/-- Echo requests have a body of two bytes. -/
def shortEnv : Env where
  allocates _ := true
  serialize msg := match msg.msg with
    | .echoRequest _ => [8, 1]
    | _ => []
  serialize_lt msg := by split <;> decide

/-- Of two messages the first is popped before there is a session, the second one is written, and
a third one waits behind it. -/
def threeSent : List OutboundEvent :=
  [.push { msg := .echoRequest none } 0, .post, .forwardMsgToAgent, .accept,
   .push { msg := .echoRequest none } 0, .post, .push disconnectMsg 0, .post, .forwardMsgToAgent,
   .forwardMsgToAgent] ++ List.replicate 6 (.writeSome 0 0) ++ [.writeComplete 0 0, .writeSome 0 0]

theorem delivered_threeSent : ∃ s session, run (outboundStep shortEnv) {} threeSent = .ok s ∧
    s.sessions[(0 : ℤ)]? = some session ∧ session.sent = [0, 0, 0, 2, 8, 1, 0] ∧
    s.popped.map Popped.registered = [false, true, true] ∧ Delivered shortEnv s := by
  have hresult : (run (outboundStep shortEnv) {} threeSent).map (fun s => decide (
      s.sessions[(0 : ℤ)]?.map Session.sent = some [0, 0, 0, 2, 8, 1, 0] ∧
        s.popped.map Popped.registered = [false, true, true])) = .ok true := by
    decide +kernel
  obtain ⟨s, hs, hsent, hpopped⟩ := exists_ok_of_decide hresult
  obtain ⟨session, hsession, hbytes⟩ := Option.map_eq_some_iff.mp hsent
  rcases run_outboundStep_delivered shortEnv threeSent with ⟨t, ht, hdelivered⟩ | hbad
  · obtain rfl := Except.ok.inj (ht.symm.trans hs)
    exact ⟨t, session, hs, hsession, hbytes, hpopped, hdelivered⟩
  · cases hbad.symm.trans hs

end FlexRan.Network
