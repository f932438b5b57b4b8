import FlexRan.Network.Outbound

/-!
# Both halves of a session

What a session writes, the reading half of a session reads back: the bytes that the socket of a
session has taken, given to the read loop, make it forward messages that were accepted for that
session, in their order, each once, with the bytes they were serialized to.  This holds along
every interleaving of senders, handlers, accepted connections and partial writes, also in the
middle of a frame; once all writes have completed, no message is missing.

## Main definitions

* `Outbound.messagesFor`: the accepted messages that were popped for a registered session.
* `ReadsBack`: what the read loop makes of the bytes.
-/
namespace FlexRan.Network

open Lib Protocol

/-! ## The read loop on a part of the stream -/

section Read

variable {env : Env} {sessionId : ℤ} {s s' : ReadState}

/-- The messages that have been forwarded stay. -/
theorem forwarded_prefix_readFailed (h : readFailed env sessionId s = .ok s') :
    s.forwarded <+: s'.forwarded := by
  obtain ⟨tm, _, h⟩ := bind_eq_ok_iff.mp h
  exact Except.ok.inj h ▸ List.prefix_append _ _

theorem forwarded_prefix_bodyRead (h : bodyRead env sessionId s = .ok s') :
    s.forwarded <+: s'.forwarded := by
  obtain ⟨th, _, h⟩ := bind_eq_ok_iff.mp h
  exact Except.ok.inj h ▸ List.prefix_append _ _

theorem forwarded_prefix_headerRead (h : headerRead env sessionId s = .ok s') :
    s.forwarded <+: s'.forwarded := by
  obtain ⟨⟨valid, m⟩, _, h⟩ := bind_eq_ok_iff.mp h
  cases valid with
  | false => exact forwarded_prefix_readFailed (s := { s with readMsg := m }) h
  | true =>
    simp only [if_true] at h
    split at h
    · exact forwarded_prefix_bodyRead
        (s := { s with readMsg := m, phase := .body, received := 0 }) h
    · exact Except.ok.inj h ▸ List.prefix_refl _

theorem forwarded_prefix_receive {e : SocketEvent} (h : receive env sessionId s e = .ok s') :
    s.forwarded <+: s'.forwarded := by
  rw [receive.eq_def] at h
  split at h
  · exact Except.ok.inj h ▸ List.prefix_refl _
  · cases e with
    | error => exact forwarded_prefix_readFailed h
    | byte b =>
      simp only at h
      obtain ⟨m, _, h⟩ := bind_eq_ok_iff.mp h
      by_cases hlast : s.received + 1 = s.buffer.2
      · rw [if_pos hlast] at h
        cases hphase : s.phase with
        | header =>
          simp only [hphase] at h
          have hpre := forwarded_prefix_headerRead h
          exact hpre
        | body =>
          simp only [hphase] at h
          have hpre := forwarded_prefix_bodyRead h
          exact hpre
        | stopped =>
          simp only [hphase] at h
          have hpre := forwarded_prefix_bodyRead h
          exact hpre
      · rw [if_neg hlast] at h
        exact Except.ok.inj h ▸ List.prefix_refl _

/-- A part of a stream that can be read can be read, and forwards a part of the messages. -/
theorem run_receive_of_prefix {bytes frames : List UInt8} (hpre : bytes <+: frames)
    (hrun : run (receive env sessionId) s (frames.map .byte) = .ok s') :
    ∃ u, run (receive env sessionId) s (bytes.map .byte) = .ok u ∧
      u.forwarded <+: s'.forwarded := by
  obtain ⟨rest, rfl⟩ := hpre
  rw [List.map_append, run_append, bind_eq_ok_iff] at hrun
  obtain ⟨u, hu, hrest⟩ := hrun
  refine ⟨u, hu, ?_⟩
  exact run_invariant (I := fun t : ReadState => u.forwarded <+: t.forwarded)
    (fun _ _ _ h ht => h.trans (forwarded_prefix_receive ht)) (List.prefix_refl _) hrest

end Read

/-! ## The messages of a session -/

/-- The accepted messages whose handler has found the session they are for. -/
def Outbound.messagesFor (s : Outbound) (sessionId : ℤ) : List FlexranMessage :=
  (s.popped.zip s.accepted).filterMap fun e =>
    if e.1.registered ∧ e.2.1 = sessionId then some e.2.2 else none

/-- The read loop gets a part of the messages from the bytes, and all of them once nothing is
outstanding. -/
def ReadsBack (env peer : Env) (s : Outbound) (sessionId : ℤ) (session : Session) : Prop :=
  ∃ read msgs, run (receive peer sessionId) {} (session.sent.map .byte) = .ok read ∧
    List.Forall₂ (fun (t : TaggedMessage) msg => t.Carries sessionId (env.serialize msg))
      read.forwarded msgs ∧
    msgs <+: s.messagesFor sessionId ∧
    (session.outstanding = [] → msgs = s.messagesFor sessionId)

variable {env : Env} {s : Outbound}

/-- The frames of the popped messages are those of the messages of the session. -/
theorem framesFor_eq {sessionId : ℤ} {popped : List Popped} {queue : List TaggedMessage}
    {accepted : List (ℤ × FlexranMessage)}
    (h : List.Forall₂ (fun (t : TaggedMessage) a => t.Carries a.1 (env.serialize a.2))
      (popped.map Popped.msg ++ queue) accepted) :
    (popped.filter fun p => p.registered && p.msg.tag = sessionId).flatMap (fun p => p.msg.frame) =
      ((popped.zip accepted).filterMap fun e =>
        if e.1.registered ∧ e.2.1 = sessionId then some e.2.2 else none).flatMap
          fun msg => be32 (env.serialize msg).length ++ env.serialize msg := by
  induction popped generalizing accepted with
  | nil => simp
  | cons p popped ih =>
    obtain ⟨a, rest, hcarries, hrest, rfl⟩ := List.forall₂_cons_left_iff.mp h
    rw [List.zip_cons_cons, List.filter_cons, List.filterMap_cons]
    by_cases hp : p.registered = true ∧ a.1 = sessionId
    · have hkeep : (p.registered && decide (p.msg.tag = sessionId)) = true := by
        simpa [hcarries.tag] using hp
      rw [if_pos hkeep, if_pos hp, List.flatMap_cons, List.flatMap_cons, hcarries.frame_eq,
        ih hrest]
    · have hdrop : ¬ (p.registered && decide (p.msg.tag = sessionId)) = true := by
        simpa [hcarries.tag] using hp
      rw [if_neg hdrop, if_neg hp, ih hrest]

theorem idle_initial : Idle {} where
  phase := rfl
  received := rfl
  room := by
    rw [ProtocolMessage.le_length_data_of_heapData_eq_none rfl]
    decide

/-- The frames of some messages, one after the other. -/
def wire (env : Env) (msgs : List FlexranMessage) : List UInt8 :=
  msgs.flatMap fun msg => be32 (env.serialize msg).length ++ env.serialize msg

theorem framesOf_eq_wire (env : Env) {peer : Env} (halloc : Allocates peer.allocates)
    (msgs : List FlexranMessage) :
    framesOf peer (msgs.map env.serialize) = .ok (wire env msgs) := by
  induction msgs with
  | nil => rfl
  | cons msg msgs ih => exact framesOf_cons peer halloc (env.serialize_lt msg) ih

/-- The read loop forwards messages in the order of their frames. -/
theorem run_receive_wire (env : Env) {peer : Env} (halloc : Allocates peer.allocates)
    (sessionId : ℤ) (msgs : List FlexranMessage) :
    ∃ read, run (receive peer sessionId) {} ((wire env msgs).map .byte) = .ok read ∧
      List.Forall₂ (fun (t : TaggedMessage) msg => t.Carries sessionId (env.serialize msg))
        read.forwarded msgs := by
  obtain ⟨frames, read, sent, hbytes, hrun, -, hforwarded, hsent⟩ := run_frames peer sessionId
    halloc (msgs.map env.serialize) (fun body hbody => by
      obtain ⟨msg, _, rfl⟩ := List.mem_map.mp hbody
      exact env.serialize_lt msg) idle_initial
  obtain rfl := Except.ok.inj ((framesOf_eq_wire env halloc msgs).symm.trans hbytes)
  refine ⟨read, hrun, ?_⟩
  rw [hforwarded]
  exact List.forall₂_map_right_iff.mp hsent

/-- A part of a list, where the whole of it is matched. -/
theorem exists_prefix_forall₂ {α β : Type} {R : α → β → Prop} {l l' : List α} {m : List β}
    (hpre : l <+: l') (h : List.Forall₂ R l' m) : ∃ m', m' <+: m ∧ List.Forall₂ R l m' := by
  obtain ⟨rest, rfl⟩ := hpre
  refine ⟨m.take l.length, List.take_prefix _ _, ?_⟩
  simpa using List.forall₂_take l.length h

/-- What has been delivered to a session can be read back. -/
theorem readsBack_of_delivered {peer : Env} (hdelivered : Delivered env s)
    (halloc : Allocates peer.allocates) {id : ℤ} {session : Session}
    (hid : s.sessions[id]? = some session) : ReadsBack env peer s id session := by
  have hsession := hdelivered.sessions id session hid
  have hwire : s.framesFor id = wire env (s.messagesFor id) := framesFor_eq hdelivered.fifo
  obtain ⟨whole, hwhole, hforwarded⟩ := run_receive_wire env halloc id (s.messagesFor id)
  obtain ⟨read, hread, hpre⟩ := run_receive_of_prefix (hwire ▸ hsession.sent) hwhole
  obtain ⟨msgs, hmsgs, hmatch⟩ := exists_prefix_forall₂ hpre hforwarded
  refine ⟨read, msgs, hread, hmatch, hmsgs, fun hnone => ?_⟩
  -- all bytes have been written: the read loop has seen the whole stream
  rw [hsession.drained hnone, hwire, hwhole] at hread
  obtain rfl := Except.ok.inj hread
  exact hmsgs.eq_of_length (hmatch.length_eq.symm.trans hforwarded.length_eq)

theorem OutboundInv.of_step {t : Outbound} (h : OutboundInv env s) {e : OutboundEvent}
    (hstep : outboundStep env s e = .ok t) : OutboundInv env t := by
  rcases h.step e with ⟨u, hu, hinv⟩ | ⟨f, hf, -⟩
  · exact Except.ok.inj (hu.symm.trans hstep) ▸ hinv
  · exact absurd (hstep.symm.trans hf) (by simp)

/-- In every state of every interleaving the reading half of a session gets back from the bytes
on the socket what the writing half was given: the messages accepted for the session, in their
order and each once. -/
theorem run_outboundStep_readsBack (env peer : Env) (halloc : Allocates peer.allocates)
    {events : List OutboundEvent} (hrun : run (outboundStep env) {} events = .ok s) (id : ℤ)
    (session : Session) (hid : s.sessions[id]? = some session) :
    ReadsBack env peer s id session := by
  have hinv : OutboundInv env s :=
    run_invariant (fun _ _ _ h hstep => h.of_step hstep) (outboundInv_empty env) hrun
  exact readsBack_of_delivered hinv.delivered halloc hid

/-- A message is sent to a session before it has been accepted and again afterwards, and the
second one is partly written. -/
def sentTwice : List OutboundEvent :=
  [.push disconnectMsg 0, .post, .forwardMsgToAgent, .accept, .push disconnectMsg 0, .post,
   .forwardMsgToAgent, .writeSome 0 0, .writeSome 0 0]

theorem readsBack_sentTwice : ∃ s session, run (outboundStep freeEnv) {} sentTwice = .ok s ∧
    s.sessions[(0 : ℤ)]? = some session ∧ ReadsBack freeEnv freeEnv s 0 session := by
  obtain ⟨s, hs, hsome⟩ := exists_ok_of_decide
    (p := fun s : Outbound => (s.sessions[(0 : ℤ)]?).isSome = true)
    (x := run (outboundStep freeEnv) {} sentTwice) (by decide +kernel)
  obtain ⟨session, hsession⟩ := Option.isSome_iff_exists.mp hsome
  exact ⟨s, session, hs, hsession,
    run_outboundStep_readsBack freeEnv freeEnv (fun _ _ => rfl) hs 0 session hsession⟩

end FlexRan.Network
