import FlexRan.Network.Loopback
import FlexRan.Network.Reading
import FlexRan.Rib.Dispatch

/-!
# Echo requests

An echo request of an agent takes the whole way through the controller: the session reads it from
its socket byte by byte, it waits in the queue to the updater, the updater answers it, the answer
waits in the queue to the network thread, and the session writes its frame in parts.  All sessions,
the updater and the threads of the applications do so at the same time.  What an agent reads is
nevertheless plain: its replies answer the requests it has sent, in their order, each at most once
and with the identifier of the request.

## Main definitions

* `Duplex`, `duplexHandlers`: the updater and the interface it sends through.
* `duplexStep`: both directions of all sessions.
* `requestXid?`, `replyXid?`: the identifiers of requests and replies.
* `echoed_of_run`: what the agents read.
-/
namespace FlexRan.Network

open Lib Protocol Rib

/-! ## Both directions -/

structure Duplex where
  rib : Rib := {}
  outbound : Outbound := {}

/-- An effect of a handler: a call of `send_msg` pushes the message and posts the handler.  The
release of a connection removes its session in the source.  It is left out here: the session stays
registered and may still write, which the source does not do then, and nothing else is changed. -/
def perform (env : Env) (s : Outbound) : Effect → Except Fault Outbound
  | .sendMsg agentId msg => run (outboundStep env) s [.push msg agentId, .post]
  | _ => .ok s

/-- The handlers of the updater, with the messages they send. -/
def duplexHandlers (env : Env) (parse : List UInt8 → FlexranMessage) :
    Handlers Duplex Outside where
  handleNewConnection _ d agentId := do
    let outbound ← (handleNewConnection agentId).foldlM (perform env) d.outbound
    return { d with outbound := outbound }
  dispatchMessage c d tm := do
    let bytes ← tm.bytes
    let (rib, effects) ← dispatchMessage d.rib tm.tag (parse bytes) c.endpoint c.want
    let outbound ← effects.foldlM (perform env) d.outbound
    return { rib := rib, outbound := outbound }

inductive DuplexEvent
  | accept
  | socket (sessionId : ℕ) (e : SocketEvent)
  | writeError (sessionId : ℕ)
  | updateRib
  | nextMessage (c : Outside)
  /-- The thread of an application calls `send_msg`. -/
  | push (msg : FlexranMessage) (agentTag : ℤ)
  | post
  | forwardMsgToAgent
  | writeSome (sessionId : ℤ) (i : ℕ)
  | writeComplete (sessionId : ℤ) (i : ℕ)

namespace DuplexEvent

/-- What an event is for the sessions that read, the queue and the updater. -/
def inward : DuplexEvent → Option (ReceptionEvent Outside)
  | accept => some .accept
  | socket sessionId e => some (.socket sessionId e)
  | writeError sessionId => some (.writeError sessionId)
  | updateRib => some .updateRib
  | nextMessage c => some (.nextMessage c)
  | push _ _ | post | forwardMsgToAgent | writeSome _ _ | writeComplete _ _ => none

/-- What an event is for the queue to the network thread and the sessions that write. -/
def outward : DuplexEvent → Option OutboundEvent
  | accept => some .accept
  | push msg agentTag => some (.push msg agentTag)
  | post => some .post
  | forwardMsgToAgent => some .forwardMsgToAgent
  | writeSome sessionId i => some (.writeSome sessionId i)
  | writeComplete sessionId i => some (.writeComplete sessionId i)
  | socket _ _ | writeError _ | updateRib | nextMessage _ => none

end DuplexEvent

section Step

variable (env : Env) (messagesToCheck : ℤ) (parse : List UInt8 → FlexranMessage)

def receiveInward (s : Reception Duplex) :
    Option (ReceptionEvent Outside) → Except Fault (Reception Duplex)
  | none => .ok s
  | some e => receptionStep env messagesToCheck (duplexHandlers env parse) s e

def sendOutward (s : Reception Duplex) : Option OutboundEvent → Except Fault (Reception Duplex)
  | none => .ok s
  | some e => do
    let outbound ← outboundStep env s.inbound.app.outbound e
    return { s with
      inbound := { s.inbound with app := { s.inbound.app with outbound := outbound } } }

def duplexStep (s : Reception Duplex) (e : DuplexEvent) : Except Fault (Reception Duplex) := do
  let s ← receiveInward env messagesToCheck parse s e.inward
  sendOutward env s e.outward

end Step

/-! ## Requests and replies -/

/-- The identifier of an echo request, as the handler reads it. -/
def requestXid? (msg : FlexranMessage) : Option UInt32 :=
  match msg.msg with
  | .echoRequest header => some ((header.bind FlexHeader.xid).getD 0)
  | _ => none

def replyXid? (msg : FlexranMessage) : Option UInt32 :=
  match msg.msg with
  | .echoReply header => some ((header.bind FlexHeader.xid).getD 0)
  | _ => none

/-- A message of size 0 is no request. -/
def requestOf? (parse : List UInt8 → FlexranMessage) (tm : TaggedMessage) : Option UInt32 :=
  if tm.getSize = 0 then none
  else
    match tm.bytes with
    | .ok bytes => requestXid? (parse bytes)
    | .error _ => none

/-- The replies to an agent among the messages that were accepted. -/
def repliesTo (id : ℤ) (accepted : List (ℤ × FlexranMessage)) : List UInt32 :=
  accepted.filterMap fun a => if a.1 = id then replyXid? a.2 else none

/-- The replies to an agent among some effects. -/
def repliesIn (id : ℤ) (effects : List Effect) : List UInt32 :=
  effects.filterMap fun
    | .sendMsg agentId msg => if agentId = id then replyXid? msg else none
    | _ => none

/-! ## What the updater sends -/

section Updater

variable {r r' : Rib} {agentId id : ℤ} {effects effects' : List Effect}

theorem repliesIn_append : repliesIn id (effects ++ effects') =
    repliesIn id effects ++ repliesIn id effects' := List.filterMap_append ..

theorem repliesIn_sendToBs {b : UInt64} {msg : FlexranMessage} (hmsg : replyXid? msg = none) :
    repliesIn id (sendToBs r b msg) = [] := by
  apply List.filterMap_eq_nil_iff.mpr
  intro e he
  obtain ⟨x, a, _, rfl⟩ := mem_sendToBs.mp he
  simp [hmsg]

theorem repliesIn_triggerBsConfig {b : UInt64} : repliesIn id (triggerBsConfig r b) = [] := by
  rw [triggerBsConfig, repliesIn_append, repliesIn_append, repliesIn_sendToBs rfl,
    repliesIn_sendToBs rfl, repliesIn_sendToBs rfl]
  rfl

theorem repliesIn_handleNewConnection : repliesIn id (handleNewConnection agentId) = [] := by
  simp [handleNewConnection, repliesIn, replyXid?]

theorem repliesIn_outcome {e : RibEvent} (ho : Outcome r e r' effects) :
    repliesIn id effects = [] := by
  cases ho with
  | formed x _ _ _ =>
    rw [repliesIn_append, repliesIn_triggerBsConfig]
    rfl
  | _ => rfl

theorem repliesIn_handleUeStateChange {m : FlexUeStateChange}
    (h : handleUeStateChange r agentId m = .ok (r', effects)) : repliesIn id effects = [] := by
  obtain ⟨r'', _, h⟩ := bind_eq_ok_iff.mp h
  split at h
  · cases h
    rfl
  · cases h
    split_ifs
    · exact repliesIn_triggerBsConfig
    · rfl
    · rfl
    · rfl

/-- The messages whose handlers only update the base station of the agent. -/
theorem repliesIn_of_map {x : Except Fault Rib}
    (h : (·, ([] : List Effect)) <$> x = .ok (r', effects)) : repliesIn id effects = [] := by
  cases x with
  | error f => cases h
  | ok r'' =>
    cases h
    rfl

/-- The updater replies to an echo request, and to nothing else. -/
theorem repliesIn_dispatchMessage (hinv : Rib.Inv r) {msg : FlexranMessage} {endpoint : String}
    {want : ℕ} (hd : dispatchMessage r agentId msg endpoint want = .ok (r', effects)) :
    repliesIn id effects = if agentId = id then (requestXid? msg).toList else [] := by
  have hnone (hmsg : requestXid? msg = none) (h : repliesIn id effects = []) :
      repliesIn id effects = if agentId = id then (requestXid? msg).toList else [] := by
    rw [h, hmsg]
    simp
  rcases dispatchMessage_cases hinv hd with ⟨e, he, ho⟩ | ⟨hkind, -, -⟩
  · refine hnone ?_ (repliesIn_outcome ho)
    obtain ⟨dir, body⟩ := msg
    cases body <;> first | rfl | cases he
  · obtain ⟨dir, body⟩ := msg
    cases body with
    | hello m => cases hkind
    | disconnect header => cases hkind
    | echoRequest header =>
      cases hd
      by_cases hid : agentId = id
      · simp [repliesIn, handleEchoRequest, requestXid?, replyXid?, hid]
      · simp [repliesIn, handleEchoRequest, hid]
    | statsReply m =>
      refine hnone rfl ?_
      obtain ⟨r'', _, hd⟩ := bind_eq_ok_iff.mp hd
      cases hd
      split
      · rfl
      · simp [repliesIn, replyXid?]
    | ueStateChange m => exact hnone rfl (repliesIn_handleUeStateChange hd)
    | sfTrigger m => exact hnone rfl (repliesIn_of_map hd)
    | enbConfigReply m => exact hnone rfl (repliesIn_of_map hd)
    | ueConfigReply m => exact hnone rfl (repliesIn_of_map hd)
    | lcConfigReply m => exact hnone rfl (repliesIn_of_map hd)
    | controlDelReq m =>
      refine hnone rfl ?_
      cases hd
      rw [handleControlDelegationRequest]
      split <;> rfl
    | _ =>
      cases hd
      exact hnone rfl rfl

end Updater

/-! ## What is accepted for sending -/

section Accepted

variable {env : Env} {s t : Outbound} {id : ℤ}

theorem accepted_onSession {sessionId : ℤ} {f : Session → Except Fault Session}
    (h : onSession s sessionId f = .ok t) : t.accepted = s.accepted := by
  rw [onSession] at h
  split at h
  · cases h
    rfl
  · obtain ⟨session, _, h⟩ := bind_eq_ok_iff.mp h
    cases h
    rfl

theorem accepted_forwardMsgToAgent (h : forwardMsgToAgent env s = .ok t) :
    t.accepted = s.accepted := by
  rw [forwardMsgToAgent] at h
  split at h
  · cases h
  · rw [sendMsgToAgent] at h
    split at h
    · cases h
      rfl
    · obtain ⟨session, _, h⟩ := bind_eq_ok_iff.mp h
      cases h
      rfl

/-- At most the message that is pushed has been accepted. -/
theorem repliesTo_push {msg : FlexranMessage} {agentTag : ℤ}
    (h : outboundStep env s (.push msg agentTag) = .ok t) :
    (repliesTo id t.accepted).Sublist
      (repliesTo id s.accepted ++ if agentTag = id then (replyXid? msg).toList else []) := by
  obtain ⟨u, _, h⟩ := bind_eq_ok_iff.mp h
  cases h
  rw [repliesTo, List.filterMap_append, ← repliesTo]
  apply List.Sublist.append_left
  rw [Outbound.accepting]
  split
  · by_cases hid : agentTag = id
    · cases hreply : replyXid? msg <;> simp [hid, hreply]
    · simp [hid]
  · exact List.nil_sublist _

theorem accepted_of_ne_push {e : OutboundEvent} (hne : ∀ msg tag, e ≠ .push msg tag)
    (h : outboundStep env s e = .ok t) : t.accepted = s.accepted := by
  cases e with
  | push msg tag => exact absurd rfl (hne msg tag)
  | post =>
    rw [outboundStep] at h
    split at h
    · cases h
      rfl
    · cases h
      rfl
  | forwardMsgToAgent =>
    rw [outboundStep] at h
    split at h
    · cases h
      rfl
    · obtain ⟨u, hu, h⟩ := bind_eq_ok_iff.mp h
      cases h
      have haccepted := accepted_forwardMsgToAgent hu
      exact haccepted
  | accept =>
    cases h
    rfl
  | writeSome sessionId i => exact accepted_onSession h
  | writeComplete sessionId i => exact accepted_onSession h

theorem repliesTo_perform {e : Effect} (h : perform env s e = .ok t) :
    (repliesTo id t.accepted).Sublist (repliesTo id s.accepted ++ repliesIn id [e]) := by
  cases e with
  | sendMsg agentId msg =>
    obtain ⟨u, hu, h⟩ := bind_eq_ok_iff.mp h
    obtain ⟨v, hv, h⟩ := bind_eq_ok_iff.mp h
    cases h
    rw [accepted_of_ne_push (by simp) hv]
    have hpush : (repliesTo id u.accepted).Sublist _ := repliesTo_push hu
    by_cases hid : agentId = id
    · cases hreply : replyXid? msg with
      | none => simpa [repliesIn, hid, hreply] using hpush
      | some xid => simpa [repliesIn, hid, hreply] using hpush
    · simpa [repliesIn, hid] using hpush
  | _ =>
    cases h
    exact List.sublist_append_left _ _

theorem repliesTo_foldlM_perform {effects : List Effect}
    (h : effects.foldlM (perform env) s = .ok t) :
    (repliesTo id t.accepted).Sublist (repliesTo id s.accepted ++ repliesIn id effects) := by
  induction effects generalizing s with
  | nil =>
    cases h
    exact List.sublist_append_left _ _
  | cons e effects ih =>
    obtain ⟨u, hu, h⟩ := bind_eq_ok_iff.mp h
    rw [← List.singleton_append, repliesIn_append, ← List.append_assoc]
    exact (ih h).trans ((repliesTo_perform hu).append_right _)

theorem outboundInv_foldlM_perform {effects : List Effect} (hinv : OutboundInv env s)
    (h : effects.foldlM (perform env) s = .ok t) : OutboundInv env t := by
  refine run_invariant (I := fun s => OutboundInv env s) ?_ hinv h
  intro s e t hs hstep
  cases e with
  | sendMsg agentId msg => exact run_invariant (fun _ _ _ h hstep => h.of_step hstep) hs hstep
  | _ =>
    cases hstep
    exact hs

theorem filterMap_sublist_filterMap {α β : Type} {f g : α → Option β}
    (h : ∀ a b, f a = some b → g a = some b) (l : List α) :
    (l.filterMap f).Sublist (l.filterMap g) := by
  induction l with
  | nil => exact List.Sublist.refl _
  | cons a l ih =>
    cases hf : f a with
    | none =>
      rw [List.filterMap_cons_none hf]
      exact ih.trans ((List.sublist_cons_self a l).filterMap g)
    | some b =>
      rw [List.filterMap_cons_some hf, List.filterMap_cons_some (h a b hf)]
      exact ih.cons_cons b

/-- The messages of a session are some of those that were accepted. -/
theorem replies_messagesFor (s : Outbound) (id : ℤ) :
    ((s.messagesFor id).filterMap replyXid?).Sublist (repliesTo id s.accepted) := by
  have hzip : ((s.popped.zip s.accepted).map Prod.snd).Sublist s.accepted := by
    rw [List.zip_eq_zip_take_min, List.map_snd_zip (by simp)]
    exact List.take_sublist _ _
  refine List.Sublist.trans ?_ (hzip.filterMap _)
  rw [Outbound.messagesFor, List.filterMap_filterMap, List.filterMap_map]
  apply filterMap_sublist_filterMap
  intro e xid hxid
  by_cases hfor : e.1.registered ∧ e.2.1 = id
  · simpa [hfor] using hxid
  · simp [hfor] at hxid

end Accepted

/-! ## What is handled -/

section Handled

variable {env : Env} {parse : List UInt8 → FlexranMessage}

/-- Handling a message replies to the request it is, if it is one. -/
theorem handle_replies {d d' : Duplex} (hinv : Rib.Inv d.rib) (hout : OutboundInv env d.outbound)
    {c : Outside} {tm : TaggedMessage}
    (h : (duplexHandlers env parse).handle c d tm = .ok d') :
    Rib.Inv d'.rib ∧ OutboundInv env d'.outbound ∧
      ∀ id, (repliesTo id d'.outbound.accepted).Sublist
        (repliesTo id d.outbound.accepted ++ valuesOf (requestOf? parse) id [tm]) := by
  rw [Handlers.handle] at h
  split at h
  · obtain ⟨outbound, hperform, h⟩ := bind_eq_ok_iff.mp h
    cases h
    refine ⟨hinv, outboundInv_foldlM_perform hout hperform, fun id => ?_⟩
    have hreplies : (repliesTo id outbound.accepted).Sublist _ :=
      repliesTo_foldlM_perform hperform
    rw [repliesIn_handleNewConnection, List.append_nil] at hreplies
    exact hreplies.trans (List.sublist_append_left _ _)
  · rename_i hsize
    obtain ⟨bytes, hbytes, h⟩ := bind_eq_ok_iff.mp h
    obtain ⟨⟨rib, effects⟩, hd, h⟩ := bind_eq_ok_iff.mp h
    obtain ⟨outbound, hperform, h⟩ := bind_eq_ok_iff.mp h
    cases h
    refine ⟨hinv.dispatchMessage hd, outboundInv_foldlM_perform hout hperform, fun id => ?_⟩
    have hrequest : requestOf? parse tm = requestXid? (parse bytes) := by
      simp [requestOf?, hsize, hbytes]
    rw [valuesOf_singleton, hrequest, ← repliesIn_dispatchMessage hinv hd]
    exact repliesTo_foldlM_perform hperform

end Handled

/-! ## The invariant -/

/-- The replies accepted so far answer requests that were handled, and these were read. -/
structure DuplexInv (env : Env) (parse : List UInt8 → FlexranMessage) (s : Reception Duplex) :
    Prop where
  rib : Rib.Inv s.inbound.app.rib
  outbound : OutboundInv env s.inbound.app.outbound
  replies : ∀ id, (repliesTo id s.inbound.app.outbound.accepted).Sublist
    (valuesOf (requestOf? parse) id s.inbound.handled)
  requests : Reads (requestOf? parse) s

section Invariant

variable {env : Env} {messagesToCheck : ℤ} {parse : List UInt8 → FlexranMessage}
  {s t : Reception Duplex}

theorem duplexInv_initial (env : Env) (parse : List UInt8 → FlexranMessage) :
    DuplexInv env parse { inbound := { app := {} } } where
  rib := inv_empty
  outbound := outboundInv_empty env
  replies _ := List.Sublist.refl _
  requests := reads_initial _

theorem requestOf?_of_tagged
    (hdisconnect : requestXid? (parse (env.serialize disconnectMsg)) = none)
    {tag : ℤ} {tm : TaggedMessage} (h : env.tagged disconnectMsg tag = .ok tm) :
    requestOf? parse tm = none := by
  rcases tagged_spec env disconnectMsg tag with hbad | ⟨u, hu, hcarries⟩
  · cases hbad.symm.trans h
  · cases hu.symm.trans h
    simp [requestOf?, hcarries.bytes_eq, hdisconnect]

theorem DuplexInv.nextMessage (h : DuplexInv env parse s) {c : Outside}
    {inbound : Inbound Duplex} (hstep : inboundStep env messagesToCheck (duplexHandlers env parse)
      s.inbound (.nextMessage c) = .ok inbound) : DuplexInv env parse (s.pop inbound) := by
  have hrequests := h.requests.nextMessage hstep
  obtain ⟨hinbound, -⟩ := inbound_pop (s := s) inbound
  rcases nextMessage_cases hstep with ⟨happ, hhandled, -, -⟩ | ⟨tm, -, hhandled, hhandle, -⟩
  · refine ⟨?_, ?_, ?_, hrequests⟩
    · rw [hinbound, happ]
      exact h.rib
    · rw [hinbound, happ]
      exact h.outbound
    · rw [hinbound, happ, hhandled]
      exact h.replies
  · obtain ⟨hrib, hout, hreplies⟩ := handle_replies h.rib h.outbound hhandle
    refine ⟨?_, ?_, ?_, hrequests⟩
    · rw [hinbound]
      exact hrib
    · rw [hinbound]
      exact hout
    · intro id
      rw [hinbound, hhandled, valuesOf_append]
      exact (hreplies id).trans ((h.replies id).append_right _)

theorem DuplexInv.inward (hserialize : env.serialize disconnectMsg ≠ [])
    (hdisconnect : requestXid? (parse (env.serialize disconnectMsg)) = none)
    (h : DuplexInv env parse s) {e : Option (ReceptionEvent Outside)}
    (hstep : receiveInward env messagesToCheck parse s e = .ok t) : DuplexInv env parse t := by
  cases e with
  | none =>
    cases hstep
    exact h
  | some e =>
    by_cases hnext : ∃ c, e = .nextMessage c
    · obtain ⟨c, rfl⟩ := hnext
      obtain ⟨inbound, hinbound, hstep⟩ := bind_eq_ok_iff.mp hstep
      cases hstep
      exact h.nextMessage hinbound
    · obtain ⟨happ, hhandled⟩ := kept_of_ne_nextMessage (fun c heq => hnext ⟨c, heq⟩) hstep
      refine ⟨?_, ?_, ?_, ?_⟩
      · rw [happ]
        exact h.rib
      · rw [happ]
        exact h.outbound
      · rw [happ, hhandled]
        exact h.replies
      · exact h.requests.step hserialize (fun _ hsize => if_pos hsize)
          (fun _ _ htagged => requestOf?_of_tagged hdisconnect htagged) hstep

theorem DuplexInv.outward (h : DuplexInv env parse s) {e : Option OutboundEvent}
    (hothers : ∀ msg tag, e = some (.push msg tag) → replyXid? msg = none)
    (hstep : sendOutward env s e = .ok t) : DuplexInv env parse t := by
  cases e with
  | none =>
    cases hstep
    exact h
  | some e =>
    obtain ⟨outbound, hout, hstep⟩ := bind_eq_ok_iff.mp hstep
    cases hstep
    refine ⟨h.rib, h.outbound.of_step hout, fun id => ?_, h.requests⟩
    refine List.Sublist.trans ?_ (h.replies id)
    by_cases hpush : ∃ msg tag, e = .push msg tag
    · obtain ⟨msg, tag, rfl⟩ := hpush
      have hreplies : (repliesTo id outbound.accepted).Sublist _ := repliesTo_push hout
      rw [hothers msg tag rfl] at hreplies
      simpa using hreplies
    · rw [accepted_of_ne_push (fun msg tag heq => hpush ⟨msg, tag, heq⟩) hout]

theorem DuplexInv.step (hserialize : env.serialize disconnectMsg ≠ [])
    (hdisconnect : requestXid? (parse (env.serialize disconnectMsg)) = none)
    (h : DuplexInv env parse s) {e : DuplexEvent}
    (hothers : ∀ msg tag, e = .push msg tag → replyXid? msg = none)
    (hstep : duplexStep env messagesToCheck parse s e = .ok t) : DuplexInv env parse t := by
  obtain ⟨u, hu, hstep⟩ := bind_eq_ok_iff.mp hstep
  refine (h.inward hserialize hdisconnect hu).outward (fun msg tag hpush => ?_) hstep
  apply hothers msg tag
  cases e with
  | push msg' tag' =>
    cases hpush
    rfl
  | _ => cases hpush

end Invariant

/-- In every run, the messages that the agent of a session reads from its socket are the first of
those sent to it, and the echo replies among them answer echo requests that the session has read,
in their order, each at most once and with the identifier of the request. -/
theorem echoed_of_run {env peer : Env} {messagesToCheck : ℤ} {parse : List UInt8 → FlexranMessage}
    (halloc : Allocates peer.allocates) (hserialize : env.serialize disconnectMsg ≠ [])
    (hdisconnect : requestXid? (parse (env.serialize disconnectMsg)) = none)
    {events : List DuplexEvent}
    (hothers : ∀ msg tag, .push msg tag ∈ events → replyXid? msg = none) {s : Reception Duplex}
    (hrun : run (duplexStep env messagesToCheck parse) { inbound := { app := {} } } events = .ok s)
    (id : ℕ) {session : Session}
    (hsession : s.inbound.app.outbound.sessions[(id : ℤ)]? = some session) :
    ∃ read msgs, run (receive peer id) {} (session.sent.map .byte) = .ok read ∧
      List.Forall₂ (fun (t : TaggedMessage) msg => t.Carries id (env.serialize msg))
        read.forwarded msgs ∧
      msgs <+: s.inbound.app.outbound.messagesFor id ∧
      (msgs.filterMap replyXid?).Sublist ((readBy s id).filterMap (requestOf? parse)) := by
  have hinv : DuplexInv env parse s := by
    refine run_invariant_of_eachStep (I := DuplexInv env parse)
      (G := fun _ e => ∀ msg tag, e = DuplexEvent.push msg tag → replyXid? msg = none)
      (fun s e t hinv hmsg hstep => hinv.step hserialize hdisconnect hmsg hstep)
      (duplexInv_initial env parse)
      (eachStep_of_forall (fun e he _ msg tag heq => ?_) _) hrun
    · exact hothers msg tag (heq ▸ he)
  obtain ⟨read, msgs, hread, hmatch, hmsgs, -⟩ :=
    readsBack_of_delivered hinv.outbound.delivered halloc hsession
  refine ⟨read, msgs, hread, hmatch, hmsgs, ?_⟩
  have hreplies := (hmsgs.sublist.filterMap replyXid?).trans (replies_messagesFor _ id)
  have hhandled : (valuesOf (requestOf? parse) id s.inbound.handled).Sublist
      (valuesOf (requestOf? parse) id (s.inbound.handled ++ s.inbound.inQueue)) :=
    (List.sublist_append_left _ _).filterMap _
  exact ((hreplies.trans (hinv.replies id)).trans hhandled).trans (hinv.requests id)

/-! ## One request -/

def controllerHelloBytes : List UInt8 := [0x0a, 8, 0x0a, 6, 8, 0, 0x10, 0, 0x20, 0, 0xa0, 6, 1]

def echoRequestBytes : List UInt8 := [0x12, 8, 0x0a, 6, 8, 0, 0x10, 1, 0x20, 5, 0xa0, 6, 1]

def echoReplyBytes : List UInt8 := [0x1a, 8, 0x0a, 6, 8, 0, 0x10, 2, 0x20, 5, 0xa0, 6, 2]

/-- The messages of one echo are serialized as on the wire. -/
def echoEnv : Env where
  allocates _ := true
  serialize msg := match msg.msg with
    | .hello _ => controllerHelloBytes
    | .echoReply _ => echoReplyBytes
    | .disconnect _ => disconnectBytes
    | _ => []
  serialize_lt msg := by split <;> decide

def parseEcho (bytes : List UInt8) : FlexranMessage :=
  if bytes = echoRequestBytes then
    { msgDir := some .initiatingMessage
      msg := .echoRequest (some { version := some 0, type := some 1, xid := some 5 }) }
  else if bytes = disconnectBytes then disconnectMsg
  else {}

/-- An agent connects and sends a request; the hello and the reply are written to it. -/
def oneEcho : List DuplexEvent :=
  .accept :: (([0, 0, 0, 13] ++ echoRequestBytes).map fun b => .socket 0 (.byte b)) ++
    [.updateRib, .nextMessage ⟨"", 0⟩, .nextMessage ⟨"", 0⟩, .forwardMsgToAgent,
      .forwardMsgToAgent] ++ List.replicate 17 (.writeSome 0 0) ++ [.writeComplete 0 0] ++
    List.replicate 17 (.writeSome 0 0)

theorem echoed_oneEcho : ∃ s session,
    run (duplexStep echoEnv 350 parseEcho) { inbound := { app := {} } } oneEcho = .ok s ∧
    s.inbound.app.outbound.sessions[((0 : ℕ) : ℤ)]? = some session ∧
    ∃ read msgs, run (receive echoEnv (0 : ℕ)) {} (session.sent.map .byte) = .ok read ∧
      List.Forall₂ (fun (t : TaggedMessage) msg => t.Carries (0 : ℕ) (echoEnv.serialize msg))
        read.forwarded msgs ∧
      msgs <+: s.inbound.app.outbound.messagesFor (0 : ℕ) ∧
      (msgs.filterMap replyXid?).Sublist ((readBy s 0).filterMap (requestOf? parseEcho)) := by
  obtain ⟨s, hs, hsome⟩ := exists_ok_of_decide
    (p := fun s : Reception Duplex =>
      (s.inbound.app.outbound.sessions[((0 : ℕ) : ℤ)]?).isSome = true)
    (x := run (duplexStep echoEnv 350 parseEcho) { inbound := { app := {} } } oneEcho)
    (by decide +kernel)
  obtain ⟨session, hsession⟩ := Option.isSome_iff_exists.mp hsome
  refine ⟨s, session, hs, hsession, ?_⟩
  refine echoed_of_run (fun _ _ => rfl) (by decide) (by decide) ?_ hs 0 hsession
  intro msg tag hpush
  simp [oneEcho] at hpush

end FlexRan.Network
