import FlexRan.Lib.Operation
import FlexRan.Rib.Lookup

/-!
# Applications

An application holds a state of its own, looks into the RIB and asks the rest of the controller
for something.  Its operations are called by the northbound interface and by the events the RIB
updater raises.

## Main definitions

* `World α`: the RIB, the state of an application and everything that has been asked for.
* `Op α`: operations of an application.
* `sendMessage`: send a message to all agents of a base station.
* `handle`: a handler of the RIB updater, with the subscribers of the events it raises.
* `settle`: the state an operation leaves, unless it ran into a fault.
-/
namespace FlexRan.App

open Lib Lib.Operation Protocol Rib

/-- The state `app` of an application next to the RIB, and the effects of the run so far. -/
structure World (α : Type) where
  rib : Rib := {}
  app : α
  effects : List Effect := []

/-- An operation of an application; exceptions and faults abort it. -/
abbrev Op (α : Type) := Operation (World α) Abort

variable {α β : Type}

/-- `requests_manager::send_message`. -/
def sendMessage (bsId : UInt64) (msg : FlexranMessage) : Op α Unit :=
  modify fun w => { w with effects := w.effects ++ sendToBs w.rib bsId msg }

/-- The operation of the RIB on the calling thread; it may throw. -/
def ofRib (f : Rib → Except Abort β) : Op α β := do
  let w ← get
  lift id (f w.rib)

/-- A look at a base station; the pointer to it may be null. -/
def ofBs (bsId : UInt64) (f : EnbRibInfo → Except Abort β) : Op α β :=
  ofRib fun r => match r.getBs bsId with
    | none => .error (.fault .nullDereference)
    | some bs => f bs

/-- The header of a reconfiguration. -/
def reconfigurationHeader : FlexHeader :=
  { type := some flptReconfigureAgent, version := some 0, xid := some 0 }

/-- Send a cell configuration to a base station. -/
def pushCellConfig (bsId : UInt64) (cellConfig : FlexCellConfig) : Op α Unit :=
  sendMessage bsId
    { msgDir := some .initiatingMessage
      msg := .enbConfigReply { header := some reconfigurationHeader, cellConfig := [cellConfig] } }

/-- An effect is asked for; if it is an event, its subscribers run before the next one. -/
def raise (subscribers : Effect → Op α Unit) (e : Effect) : Op α Unit := do
  modify fun w => { w with effects := w.effects ++ [e] }
  subscribers e

/-- Run a handler of the RIB updater and, in order, the subscribers of its events. -/
def handle (subscribers : Effect → Op α Unit)
    (handler : Rib → Except Fault (Rib × List Effect)) : Op α Unit := do
  let w ← get
  let (rib, effects) ← lift .fault (handler w.rib)
  set { w with rib := rib }
  forM effects (raise subscribers)

/-- An exception goes to the caller and leaves the state as it is; a fault ends the run. -/
def settle (m : Op α β) (w : World α) : Except Fault (World α) :=
  match exec m w with
  | (.error (.fault f), _) => .error f
  | (.error .missingCell, _) => .error .outOfBounds
  | (_, w') => .ok w'

/-! ## Specifications -/

@[simp] theorem exec_sendMessage (bsId : UInt64) (msg : FlexranMessage) (w : World α) :
    exec (sendMessage bsId msg) w =
      (.ok (), { w with effects := w.effects ++ sendToBs w.rib bsId msg }) := rfl

theorem exec_ofRib_ok {f : Rib → Except Abort β} {w : World α} {b : β} (h : f w.rib = .ok b) :
    exec (ofRib f) w = (.ok b, w) := by
  rw [ofRib, exec_bind_of_ok (exec_get w), h, exec_lift_ok]

theorem exec_ofRib_error {f : Rib → Except Abort β} {w : World α} {e : Abort}
    (h : f w.rib = .error e) : exec (ofRib f : Op α β) w = (.error e, w) := by
  rw [ofRib, exec_bind_of_ok (exec_get w), h, exec_lift_error, id]

theorem silent_ofRib (f : Rib → Except Abort β) : Silent (ofRib f : Op α β) :=
  Silent.bind (Keeps.get fun _ => rfl) fun _ => Keeps.lift (fun _ => rfl) id _

theorem silent_ofBs (bsId : UInt64) (f : EnbRibInfo → Except Abort β) :
    Silent (ofBs bsId f : Op α β) :=
  silent_ofRib _

theorem settle_of_ok {m : Op α β} {w w' : World α} {b : β} (h : exec m w = (.ok b, w')) :
    settle m w = .ok w' := by
  rw [settle, h]

theorem exec_handle {subscribers : Effect → Op α Unit}
    {handler : Rib → Except Fault (Rib × List Effect)} {w : World α} {rib : Rib}
    {effects : List Effect} (h : handler w.rib = .ok (rib, effects)) :
    exec (handle subscribers handler) w =
      exec (forM effects (raise subscribers)) { w with rib := rib } := by
  rw [handle, exec_bind_of_ok (exec_get w), h]
  rfl

end FlexRan.App
