import FlexRan.Network.Reading
import FlexRan.Rib.Registry

/-!
# Registration over the network

The RIB knows nothing of sockets: it is a function of the messages that are dispatched.  Here it
gets them from the sessions, which read their sockets byte by byte, through the queue, which loses
messages, in the calls of `update_rib`.  What is dispatched is part of what was forwarded, in the
same order; an agent registers only with a hello that its session has read, and at most once with
each.  So the roster of base stations is the one of the hellos and disconnects that got through.

## Main definitions

* `messageOf?`, `helloOf?`: the message of an agent in the queue, and whether it is a hello.
* `Dispatched`: the RIB is what the messages handled make of it.
* `registered_of_run`: from the bytes on the sockets to the roster.
-/
namespace FlexRan.Network

open Lib Lib.Assembly Protocol Rib

/-- A message of size 0 is an announcement. -/
def messageOf? (parse : List UInt8 → FlexranMessage) (tm : TaggedMessage) :
    Option FlexranMessage :=
  if tm.getSize = 0 then none
  else
    match tm.bytes with
    | .ok bytes => some (parse bytes)
    | .error _ => none

def helloOf? (msg : FlexranMessage) : Option FlexranMessage :=
  match msg.msg with
  | .hello _ => some msg
  | _ => none

/-- The messages of agents among some that were handled, with the agents. -/
def messagesOf (parse : List UInt8 → FlexranMessage) (tms : List TaggedMessage) :
    List (ℤ × FlexranMessage) :=
  tms.filterMap fun tm => (messageOf? parse tm).map (tm.tag, ·)

/-- The RIB is what the messages handled make of it, and these are some of the messages forwarded,
in their order. -/
structure Dispatched (parse : List UInt8 → FlexranMessage) (s : Inbound Updater)
    (received : List Received) (effects : List Effect) : Prop where
  rib : trace dispatch {} received = .ok (s.app.rib, effects)
  released : s.app.released = releasedBy effects
  messages : received.map (fun e => (e.agentId, e.msg)) = messagesOf parse s.handled
  order : (s.handled ++ s.inQueue).Sublist s.forwarded

/-! ## The updater -/

section Updater

variable {env : Env} {messagesToCheck : ℤ} {parse : List UInt8 → FlexranMessage}
  {s t : Inbound Updater} {received : List Received} {effects : List Effect}

theorem dispatched_empty : Dispatched parse { app := {} } [] [] where
  rib := rfl
  released := rfl
  messages := rfl
  order := List.Sublist.refl _

theorem messagesOf_append (tms tms' : List TaggedMessage) :
    messagesOf parse (tms ++ tms') = messagesOf parse tms ++ messagesOf parse tms' :=
  List.filterMap_append ..

theorem Dispatched.forwardMessage (h : Dispatched parse s received effects) (msg : TaggedMessage) :
    Dispatched parse (forwardMessage s msg) received effects := by
  refine ⟨h.rib, h.released, h.messages, ?_⟩
  rw [Network.forwardMessage]
  dsimp only
  split
  · rw [← List.append_assoc]
    exact h.order.append_right [msg]
  · exact h.order.trans (List.sublist_append_left _ _)

/-- An announcement is answered, and a message of an agent is dispatched. -/
theorem exists_received_of_handle {c : Outside} {u : Updater} {tm : TaggedMessage}
    (hrib : trace dispatch {} received = .ok (s.app.rib, effects))
    (hreleased : s.app.released = releasedBy effects)
    (hhandle : (ribHandlers parse).handle c s.app tm = .ok u) :
    ∃ more out, trace dispatch {} (received ++ more) = .ok (u.rib, effects ++ out) ∧
      u.released = releasedBy (effects ++ out) ∧
      more.map (fun e => (e.agentId, e.msg)) = messagesOf parse [tm] := by
  rw [Handlers.handle] at hhandle
  split at hhandle
  · rename_i hsize
    cases hhandle
    refine ⟨[], [], ?_, ?_, ?_⟩
    · rw [List.append_nil, List.append_nil]
      exact hrib
    · have hnew : releasedBy (handleNewConnection tm.tag) = [] :=
        releasedBy_eq_nil (by simp [handleNewConnection])
      dsimp only [ribHandlers]
      rw [hnew, List.append_nil, List.append_nil, hreleased]
    · simp [messagesOf, messageOf?, hsize]
  · rename_i hsize
    obtain ⟨bytes, hbytes, hhandle⟩ := bind_eq_ok_iff.mp hhandle
    obtain ⟨⟨rib, out⟩, hd, hhandle⟩ := bind_eq_ok_iff.mp hhandle
    cases hhandle
    refine ⟨[⟨tm.tag, parse bytes, c.endpoint, c.want⟩], out, trace_concat hrib hd, ?_, ?_⟩
    · rw [hreleased]
      exact (List.filterMap_append ..).symm
    · simp [messagesOf, messageOf?, hsize, hbytes]

theorem Dispatched.nextMessage (h : Dispatched parse s received effects) {c : Outside}
    (hstep : inboundStep env messagesToCheck (ribHandlers parse) s (.nextMessage c) = .ok t) :
    ∃ received' effects', Dispatched parse t received' effects' := by
  rcases nextMessage_cases hstep with ⟨happ, hhandled, hqueue, hforwarded⟩ |
    ⟨tm, hqueue, hhandled, hhandle, hforwarded⟩
  · refine ⟨received, effects, ?_, ?_, ?_, ?_⟩
    · rw [happ]
      exact h.rib
    · rw [happ]
      exact h.released
    · rw [hhandled]
      exact h.messages
    · rw [hhandled, hforwarded]
      exact (hqueue.append_left _).trans h.order
  · obtain ⟨more, out, hrib, hreleased, hmore⟩ := exists_received_of_handle h.rib h.released hhandle
    refine ⟨received ++ more, effects ++ out, hrib, hreleased, ?_, ?_⟩
    · rw [List.map_append, h.messages, hmore, hhandled, messagesOf_append]
    · rw [hhandled, hforwarded, List.append_assoc, List.singleton_append, ← hqueue]
      exact h.order

theorem Dispatched.step (h : Dispatched parse s received effects) {e : InboundEvent Outside}
    (hstep : inboundStep env messagesToCheck (ribHandlers parse) s e = .ok t) :
    ∃ received' effects', Dispatched parse t received' effects' := by
  cases e with
  | forwardMessage msg =>
    cases hstep
    exact ⟨received, effects, h.forwardMessage msg⟩
  | initializeConnection sessionId =>
    obtain ⟨th, hth⟩ := initializeConnection_eq env s sessionId
    obtain rfl := Except.ok.inj (hth.symm.trans hstep)
    exact ⟨received, effects, h.forwardMessage th⟩
  | updateRib =>
    refine ⟨received, effects, ?_⟩
    rw [inboundStep] at hstep
    split at hstep
    · cases hstep
      exact ⟨h.rib, h.released, h.messages, h.order⟩
    · cases hstep
      exact h
  | nextMessage c => exact h.nextMessage hstep

theorem exists_dispatched {events : List (InboundEvent Outside)}
    (hrun : run (inboundStep env messagesToCheck (ribHandlers parse)) { app := {} } events =
      .ok t) : ∃ received effects, Dispatched parse t received effects := by
  refine run_invariant
    (I := fun s => ∃ received effects, Dispatched parse s received effects) ?_ ?_ hrun
  · rintro s e t ⟨received, effects, h⟩ hstep
    exact h.step hstep
  · exact ⟨[], [], dispatched_empty⟩

/-- The hellos of an agent that were dispatched are those that were handled. -/
theorem Dispatched.hellos (h : Dispatched parse s received effects) (id : ℤ) :
    (received.filterMap fun e => if e.agentId = id then helloOf? e.msg else none) =
      valuesOf (fun tm => (messageOf? parse tm).bind helloOf?) id s.handled := by
  have hpairs : (received.filterMap fun e => if e.agentId = id then helloOf? e.msg else none) =
      (received.map fun e => (e.agentId, e.msg)).filterMap
        fun p => if p.1 = id then helloOf? p.2 else none := by
    rw [List.filterMap_map]
    rfl
  rw [hpairs, h.messages, messagesOf, List.filterMap_filterMap, valuesOf]
  congr 1
  funext tm
  cases messageOf? parse tm <;> simp

end Updater

/-! ## From the sockets to the roster -/

/-- In every run of the sessions, the queue and the updater, the RIB is what the messages that were
handled make of it.  These are some of the messages forwarded, in their order, and each hello among
them is one that the session has read.  As long as no active agent says hello again, the RIB is the
roster of the base stations after these messages, and the announcements are those of the roster. -/
theorem registered_of_run {env : Env} {messagesToCheck : ℤ} {parse : List UInt8 → FlexranMessage}
    (hserialize : env.serialize disconnectMsg ≠ [])
    (hdisconnect : helloOf? (parse (env.serialize disconnectMsg)) = none)
    {events : List (ReceptionEvent Outside)} {s : Reception Updater}
    (hrun : run (receptionStep env messagesToCheck (ribHandlers parse)) { inbound := { app := {} } }
      events = .ok s) :
    ∃ received effects, Dispatched parse s.inbound received effects ∧
      (∀ id : ℕ, (received.filterMap fun e =>
          if e.agentId = (id : ℤ) then helloOf? e.msg else none).Sublist
        ((readBy s id).filterMap fun tm => (messageOf? parse tm).bind helloOf?)) ∧
      (EachStep Rib.receive {} SaysHelloOnce received →
        Represents s.inbound.app.rib
            (behave baseStations.step {} (received.flatMap commandsOf)).1 ∧
          effects.filterMap notice? =
            (behave baseStations.step {} (received.flatMap commandsOf)).2) := by
  obtain ⟨inner, hinner⟩ := exists_run_inbound hrun
  obtain ⟨received, effects, h⟩ := exists_dispatched hinner
  have hreads : Reads (fun tm => (messageOf? parse tm).bind helloOf?) s := by
    refine run_invariant (fun s e t hs hstep => ?_) (reads_initial _) hrun
    refine hs.step hserialize (fun tm hsize => ?_) (fun tag tm htagged => ?_) hstep
    · simp [messageOf?, hsize]
    · rcases tagged_spec env disconnectMsg tag with hbad | ⟨u, hu, hcarries⟩
      · cases hbad.symm.trans htagged
      · cases hu.symm.trans htagged
        by_cases hsize : tm.getSize = 0
        · simp [messageOf?, hsize]
        · simp [messageOf?, hsize, hcarries.bytes_eq, hdisconnect]
  refine ⟨received, effects, h, fun id => ?_, fun honce => ?_⟩
  · rw [h.hellos]
    have hhandled : (valuesOf (fun tm => (messageOf? parse tm).bind helloOf?) id
        s.inbound.handled).Sublist (valuesOf (fun tm => (messageOf? parse tm).bind helloOf?) id
          (s.inbound.handled ++ s.inbound.inQueue)) :=
      (List.sublist_append_left _ _).filterMap _
    exact hhandled.trans (hreads id)
  · obtain ⟨htracks, hnotices⟩ := tracks_of_trace honce h.rib
    exact ⟨htracks.represents, hnotices⟩

/-- An agent connects and sends one hello. -/
def helloRead : List (ReceptionEvent Outside) :=
  .accept :: (([0, 0, 0, 7] ++ helloBytes).map fun b => .socket 0 (.byte b)) ++
    [.updateRib, .nextMessage ⟨"", 0⟩, .nextMessage ⟨"", 0⟩]

theorem registered_helloRead : ∃ s received effects,
    run (receptionStep wireEnv 350 (ribHandlers parseHello)) { inbound := { app := {} } } helloRead =
      .ok s ∧
    Dispatched parseHello s.inbound received effects ∧ received.length = 1 ∧
    Represents s.inbound.app.rib
      (behave baseStations.step {} (received.flatMap commandsOf)).1 := by
  obtain ⟨s, hs, hone⟩ := exists_ok_of_decide
    (p := fun s : Reception Updater => (messagesOf parseHello s.inbound.handled).length = 1)
    (x := run (receptionStep wireEnv 350 (ribHandlers parseHello)) { inbound := { app := {} } }
      helloRead) (by decide +kernel)
  obtain ⟨received, effects, h, -, hroster⟩ :=
    @registered_of_run wireEnv 350 parseHello (by decide) rfl helloRead s hs
  have hlength : received.length = 1 := by
    rw [← hone, ← h.messages, List.length_map]
  obtain ⟨e, rfl⟩ := List.length_eq_one_iff.mp hlength
  have honce : EachStep Rib.receive {} SaysHelloOnce [e] := by
    refine saysHelloOnce_of_inactive (eachStep_cons.mpr ⟨.inl rfl, fun _ _ => ?_⟩)
    exact eachStep_of_forall (fun _ he => absurd he List.not_mem_nil) _
  exact ⟨s, [e], effects, hs, h, hlength, (hroster honce).1⟩

end FlexRan.Network
