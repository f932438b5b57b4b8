import FlexRan.Network.Inbound
import FlexRan.Rib.Dispatch

/-!
# The controller

The controller accepts connections and numbers them; sessions report frames and errors to the
updater, which handles them in the order of the queue.

Handling a message is the only step that touches the RIB, and a message is a hello, a
disconnect, or it leaves all agents where they are.  So the invariants of the RIB hold along
every run, whatever the agents send: `run_controllerStep_sound`.

A session may report something after its release: the updater closes the socket while handlers
of the session wait to be run in the other thread.

## Main definitions

* `Controller`, `controllerStep`: connections, sessions and the updater.
* `event?`, `handle_cases`: what handling a message is.
-/
namespace FlexRan.Network

open Lib Protocol Rib App.Log

structure Controller where
  inbound : Inbound Updater := { app := {} }
  /-- The number of the next session. -/
  nextId : ℤ := 0

inductive ControllerEvent
  | accept
  /-- A session has read a frame. -/
  | frameRead (sessionId : ℤ) (body : List UInt8)
  | readError (sessionId : ℤ)
  | writeError (sessionId : ℤ)
  | updateRib
  | nextMessage (c : Outside)

section Step

variable (env : Env) (messagesToCheck : ℤ) (parse : List UInt8 → FlexranMessage)

def Controller.inboundStep (c : Controller) (e : InboundEvent Outside) :
    Except Fault Controller := do
  let inbound ← Network.inboundStep env messagesToCheck (ribHandlers parse) c.inbound e
  return { c with inbound := inbound }

/-- A message of a session is forwarded, if there has been such a session. -/
def Controller.forward (c : Controller) (sessionId : ℤ) (msg : Except Fault TaggedMessage) :
    Except Fault Controller :=
  if 0 ≤ sessionId ∧ sessionId < c.nextId then do
    let tm ← msg
    c.inboundStep env messagesToCheck parse (.forwardMessage tm)
  else .ok c

def controllerStep (c : Controller) : ControllerEvent → Except Fault Controller
  | .accept => do
    let c ← c.inboundStep env messagesToCheck parse (.initializeConnection c.nextId)
    return { c with nextId := c.nextId + 1 }
  | .frameRead sessionId body =>
    c.forward env messagesToCheck parse sessionId
      (TaggedMessage.ofBuffer env.allocates (cellsOf body) (UInt64.ofNat body.length) sessionId)
  | .readError sessionId | .writeError sessionId =>
    c.forward env messagesToCheck parse sessionId (env.tagged disconnectMsg sessionId)
  | .updateRib => c.inboundStep env messagesToCheck parse .updateRib
  | .nextMessage outside => c.inboundStep env messagesToCheck parse (.nextMessage outside)

end Step

/-! ## One message -/

variable {u u' : Updater} {parse : List UInt8 → FlexranMessage} {c : Outside} {tm : TaggedMessage}

theorem releasedBy_eq_nil {effects : List Effect} (h : ∀ id, .releaseConnection id ∉ effects) :
    releasedBy effects = [] := by
  rw [releasedBy, List.filterMap_eq_nil_iff]
  intro e he
  split
  · exact absurd he (h _)
  · rfl

/-- The event that handling a message is, if that moves agents. -/
def event? (parse : List UInt8 → FlexranMessage) (c : Outside) (tm : TaggedMessage) :
    Option RibEvent :=
  if tm.getSize = 0 then none
  else match tm.bytes with
    | .ok bytes => ribEvent? tm.tag (parse bytes) c.endpoint c.want
    | .error _ => none

/-- The messages the updater handles are hellos and disconnects, and others that leave all
agents where they are. -/
theorem handle_cases (h : Inv u.rib) (hu : (ribHandlers parse).handle c u tm = .ok u') :
    Inv u'.rib ∧
      ((∃ e effects, event? parse c tm = some e ∧ Outcome u.rib e u'.rib effects ∧
          u'.released = u.released ++ releasedBy effects) ∨
        (event? parse c tm = none ∧ u'.released = u.released ∧
          ∀ x a, u'.rib.Live x a ↔ u.rib.Live x a)) := by
  unfold Handlers.handle at hu
  rw [event?]
  split at hu
  · rename_i hsize
    obtain rfl := Except.ok.inj hu
    refine ⟨h, .inr ⟨if_pos hsize, ?_, fun _ _ => Iff.rfl⟩⟩
    rw [releasedBy_eq_nil (by simp [handleNewConnection]), List.append_nil]
  · rename_i hsize
    obtain ⟨bytes, hbytes, hu⟩ := bind_eq_ok_iff.mp hu
    obtain ⟨⟨r', effects⟩, hd, hu⟩ := bind_eq_ok_iff.mp hu
    obtain rfl := Except.ok.inj hu
    refine ⟨h.dispatchMessage hd, ?_⟩
    rw [if_neg hsize, hbytes]
    rcases dispatchMessage_cases h hd with ⟨e, he, ho⟩ | ⟨he, hrefreshed, hnone⟩
    · exact .inl ⟨e, effects, he, ho, rfl⟩
    · refine .inr ⟨he, ?_, fun _ _ => hrefreshed.live_iff⟩
      rw [releasedBy_eq_nil hnone, List.append_nil]

/-- What the dispatcher keeps is kept by the handlers. -/
theorem handle_keeps {P : Rib → Prop}
    (hP : ∀ (r r' : Rib) agentId msg endpoint want effects, Inv r → P r →
      dispatchMessage r agentId msg endpoint want = .ok (r', effects) → P r')
    (hinv : Inv u.rib) (h : P u.rib) (hu : (ribHandlers parse).handle c u tm = .ok u') :
    P u'.rib := by
  rw [Handlers.handle] at hu
  split at hu
  · obtain rfl := Except.ok.inj hu
    exact h
  · obtain ⟨bytes, _, hu⟩ := bind_eq_ok_iff.mp hu
    obtain ⟨⟨r', effects⟩, hd, hu⟩ := bind_eq_ok_iff.mp hu
    obtain rfl := Except.ok.inj hu
    exact hP _ _ _ _ _ _ _ hinv h hd

/-- Hello and disconnect messages are handled without a fault. -/
theorem handle_ok_of_event (h : Inv u.rib) {e : RibEvent} (he : event? parse c tm = some e) :
    ∃ u', (ribHandlers parse).handle c u tm = .ok u' := by
  rw [event?] at he
  split at he
  · exact absurd he (by simp)
  · rename_i hsize
    split at he
    · rename_i bytes hbytes
      obtain ⟨r', effects, hr', _⟩ := handleEvent_outcome h e
      rw [← dispatchMessage_of_ribEvent he] at hr'
      refine ⟨{ rib := r', released := u.released ++ releasedBy effects }, ?_⟩
      rw [Handlers.handle, if_neg hsize]
      simp only [ribHandlers, hbytes, bind, Except.bind, hr']
      rfl
    · exact absurd he (by simp)

/-! ## Runs -/

variable {env : Env} {messagesToCheck : ℤ} {s t : Controller}

theorem inbound_of_inboundStep {e : InboundEvent Outside}
    (hstep : s.inboundStep env messagesToCheck parse e = .ok t) :
    inboundStep env messagesToCheck (ribHandlers parse) s.inbound e = .ok t.inbound := by
  obtain ⟨inbound, hin, hstep⟩ := bind_eq_ok_iff.mp hstep
  rw [← Except.ok.inj hstep]
  exact hin

theorem app_of_forward {sessionId : ℤ} {msg : Except Fault TaggedMessage}
    (hstep : s.forward env messagesToCheck parse sessionId msg = .ok t) :
    t.inbound.app = s.inbound.app := by
  rw [Controller.forward] at hstep
  split at hstep
  · obtain ⟨tm, _, hstep⟩ := bind_eq_ok_iff.mp hstep
    exact app_of_ne_nextMessage (by simp) (inbound_of_inboundStep hstep)
  · rw [← Except.ok.inj hstep]

/-- A step handles the next message of the queue, or it leaves the RIB and the released
connections alone. -/
theorem controllerStep_cases {e : ControllerEvent}
    (hstep : controllerStep env messagesToCheck parse s e = .ok t) :
    (t.inbound.app = s.inbound.app ∧ ∀ c, e = .nextMessage c → s.inbound.next? = none) ∨
      ∃ c tm, e = .nextMessage c ∧ s.inbound.next? = some tm ∧
        (ribHandlers parse).handle c s.inbound.app tm = .ok t.inbound.app := by
  cases e with
  | accept =>
    obtain ⟨s', hs', hstep⟩ := bind_eq_ok_iff.mp hstep
    have happ : s'.inbound.app = s.inbound.app :=
      app_of_ne_nextMessage (by simp) (inbound_of_inboundStep hs')
    rw [← Except.ok.inj hstep]
    exact .inl ⟨happ, by simp⟩
  | frameRead sessionId body => exact .inl ⟨app_of_forward hstep, by simp⟩
  | readError sessionId => exact .inl ⟨app_of_forward hstep, by simp⟩
  | writeError sessionId => exact .inl ⟨app_of_forward hstep, by simp⟩
  | updateRib =>
    exact .inl ⟨app_of_ne_nextMessage (by simp) (inbound_of_inboundStep hstep), by simp⟩
  | nextMessage c =>
    rcases app_of_nextMessage (inbound_of_inboundStep hstep) with ⟨hnone, happ⟩ | ⟨tm, hsome, hu⟩
    · exact .inl ⟨happ, fun _ _ => hnone⟩
    · exact .inr ⟨c, tm, rfl, hsome, hu⟩

theorem controllerStep_inv {e : ControllerEvent} (h : Inv s.inbound.app.rib)
    (hstep : controllerStep env messagesToCheck parse s e = .ok t) : Inv t.inbound.app.rib := by
  rcases controllerStep_cases hstep with ⟨happ, _⟩ | ⟨c, tm, _, _, hu⟩
  · rw [happ]
    exact h
  · exact (handle_cases h hu).1

/-- What the dispatcher keeps holds of the RIB in every state of a run. -/
theorem run_controllerStep_keeps {P : Rib → Prop}
    (hP : ∀ (r r' : Rib) agentId msg endpoint want effects, Inv r → P r →
      dispatchMessage r agentId msg endpoint want = .ok (r', effects) → P r')
    (hempty : P {}) {events : List ControllerEvent}
    (hrun : run (controllerStep env messagesToCheck parse) {} events = .ok t) :
    Inv t.inbound.app.rib ∧ P t.inbound.app.rib := by
  have hkeeps : ∀ (s : Controller) e t, Inv s.inbound.app.rib ∧ P s.inbound.app.rib →
      controllerStep env messagesToCheck parse s e = .ok t →
      Inv t.inbound.app.rib ∧ P t.inbound.app.rib := by
    intro s e t h hstep
    refine ⟨controllerStep_inv h.1 hstep, ?_⟩
    rcases controllerStep_cases hstep with ⟨happ, _⟩ | ⟨c, tm, _, _, hu⟩
    · rw [happ]
      exact h.2
    · exact handle_keeps hP h.1 h.2 hu
  exact run_invariant hkeeps ⟨inv_empty, hempty⟩ hrun

/-- In every state of a run the containers of the RIB agree, and its base stations are in
states that messages lead to. -/
theorem run_controllerStep_sound {events : List ControllerEvent}
    (hrun : run (controllerStep env messagesToCheck parse) {} events = .ok t) :
    Inv t.inbound.app.rib ∧ BsReachable t.inbound.app.rib :=
  run_controllerStep_keeps (fun _ _ _ _ _ _ _ hinv h hd => bsReachable_dispatchMessage hinv h hd)
    (fun b bs hbs => absurd hbs (by simp)) hrun

/-- In every state of a run base stations are stored under their ids. -/
theorem run_controllerStep_bsNamed {events : List ControllerEvent}
    (hrun : run (controllerStep env messagesToCheck parse) {} events = .ok t) :
    Inv t.inbound.app.rib ∧ BsNamed t.inbound.app.rib :=
  run_controllerStep_keeps (fun _ _ _ _ _ _ _ hinv h hd => bsNamed_dispatchMessage hinv h hd)
    (fun b bs hbs => absurd hbs (by simp)) hrun

/-- So the applications that walk over the RIB find no null pointer. -/
theorem applications_ok_of_run {events : List ControllerEvent}
    (hrun : run (controllerStep env messagesToCheck parse) {} events = .ok t) :
    (∀ time, ∀ b ∈ t.inbound.app.rib.getAvailableBaseStations,
      ∃ dump, recordChunk t.inbound.app.rib time b = .ok dump) ∧
    ∀ dumpStats dateTime batch,
      ∃ res, processStats dumpStats dateTime t.inbound.app.rib batch = .ok res :=
  ⟨fun time _ hb => recordChunk_ok (run_controllerStep_sound hrun).2 time hb,
    fun dumpStats dateTime batch =>
      processStats_ok (run_controllerStep_sound hrun).2 dumpStats dateTime batch⟩

end FlexRan.Network
