import FlexRan.App.Component

/-!
# Calls of the northbound interface

A call decodes a request, runs an operation of an application and answers.  The only exception a
call catches is `std::invalid_argument`; any other one leaves it, and nothing is answered then.  An
operation may also read what does not exist, which has no defined meaning; the model ends the call
there.

## Main definitions

* `Response`: a code and a body.
* `Call α`: what a call does to the application and what it has sent to its client.
* `undefined?`: tells undefined behaviour from exceptions.
* `Answered`: the ways a call may end that answers once and has no effect if it refuses.
-/
namespace FlexRan.North

open Lib Lib.Operation App

variable {α β γ : Type}

/-- The codes that are used. -/
inductive Code
  | ok
  | badRequest
  | notFound
  | conflict
deriving DecidableEq

/-- What a client receives. -/
structure Response where
  code : Code
  body : String
deriving DecidableEq

/-- The application, and the responses to the client so far. -/
structure Exchange (α : Type) where
  world : World α
  sent : List Response := []

/-- A call may be ended by an exception or a fault like the operations it runs. -/
abbrev Call (α : Type) := Operation (Exchange α) Abort

/-- `ResponseWriter::send`. -/
def send (code : Code) (body : String) : Call α Unit :=
  modify fun x => { x with sent := x.sent ++ [⟨code, body⟩] }

/-- An operation of the application. -/
def ofApp (m : Op α β) : Call α β :=
  ExceptT.mk fun x =>
    let (result, w) := exec m x.world
    (result, { x with world := w })

/-- `catch (const std::invalid_argument& e)`, with the text of the exception. -/
def catchInvalid : Except Abort β → Except Abort (Except String β)
  | .ok b => .ok (.ok b)
  | .error (.invalidArgument what) => .ok (.error what)
  | .error e => .error e

/-- An operation of the application in a `try` block. -/
def attempt (m : Op α β) : Call α (Except String β) :=
  ExceptT.mk fun x =>
    let (result, w) := exec m x.world
    (catchInvalid result, { x with world := w })

/-- `{ "error": "…" }`. -/
def errorObject (text : String) : String := "\x7b \"error\": \"" ++ text ++ "\" \x7d"

/-- `{ "error:": "…"}`, as the calls answer that catch an exception. -/
def caughtObject (what : String) : String := "\x7b \"error:\": \"" ++ what ++ "\"\x7d\n"

/-- The answer after a `try` block. -/
def answerAttempt (yes : String) : Except String β → Call α Unit
  | .ok _ => send .ok yes
  | .error what => send .badRequest (caughtObject what)

/-! ## Outcomes -/

/-- The undefined behaviour an operation has run into; an exception is none. -/
def undefined? : Abort → Option Fault
  | .invalidArgument _ => none
  | .outOfRange => none
  | .missingCell => some .outOfBounds
  | .fault (.runtimeError _) => none
  | .fault .badAlloc => none
  | .fault f => some f

/-- One response, and no effect unless the code is `Ok`.  Without a response an exception has left
the call, or the operation it runs has no defined meaning. -/
inductive Answered (x : Exchange α) : Except Abort Unit × Exchange α → Prop
  | accepted (w : World α) (body : String) :
      Answered x (.ok (), ⟨w, x.sent ++ [⟨.ok, body⟩]⟩)
  | refused {code : Code} (h : code ≠ .ok) (body : String) :
      Answered x (.ok (), ⟨x.world, x.sent ++ [⟨code, body⟩]⟩)
  | escaped {e : Abort} (h : undefined? e = none) (w : World α) :
      Answered x (.error e, ⟨w, x.sent⟩)
  | undefined {e : Abort} {f : Fault} (h : undefined? e = some f) (w : World α) :
      Answered x (.error e, ⟨w, x.sent⟩)

/-- However it is called, the call ends so. -/
def Answers (m : Call α Unit) : Prop := ∀ x, Answered x (exec m x)

/-- A call that is ended has not answered. -/
theorem Answered.aborted {x : Exchange α} (e : Abort) (w : World α) :
    Answered x (.error e, ⟨w, x.sent⟩) := by
  cases h : undefined? e with
  | none => exact .escaped h w
  | some f => exact .undefined h w

@[simp] theorem exec_send (code : Code) (body : String) (x : Exchange α) :
    exec (send code body) x = (.ok (), { x with sent := x.sent ++ [⟨code, body⟩] }) := rfl

theorem exec_ofApp (m : Op α β) (x : Exchange α) :
    exec (ofApp m) x = ((exec m x.world).1, { x with world := (exec m x.world).2 }) := rfl

/-- A call goes on with the result of an operation. -/
theorem exec_ofApp_bind_ok {m : Op α β} {f : β → Call α γ} {x : Exchange α} {b : β} {w : World α}
    (h : exec m x.world = (.ok b, w)) :
    exec (ofApp m >>= f) x = exec (f b) { x with world := w } := by
  apply exec_bind_of_ok
  rw [exec_ofApp, h]

/-- An operation that is ended ends the call. -/
theorem exec_ofApp_bind_error {m : Op α β} {f : β → Call α γ} {x : Exchange α} {e : Abort}
    {w : World α} (h : exec m x.world = (.error e, w)) :
    exec (ofApp m >>= f) x = (.error e, { x with world := w }) := by
  apply exec_bind_of_error
  rw [exec_ofApp, h]

/-! ## Rules -/

/-- A call that only says yes. -/
theorem Answers.send_ok (body : String) : Answers (send .ok body : Call α Unit) :=
  fun x => .accepted x.world body

/-- A call that only says no. -/
theorem Answers.send_refusal {code : Code} (h : code ≠ .ok) (body : String) :
    Answers (send code body : Call α Unit) :=
  fun _ => .refused h body

/-- A look at the application may come first. -/
theorem Answers.bind_silent {m : Op α β} {f : β → Call α Unit} (hm : Silent m)
    (hf : ∀ b, Answers (f b)) : Answers (ofApp m >>= f) := by
  intro x
  have hw : x.world = (exec m x.world).2 := hm x.world
  cases h : exec m x.world with
  | mk result w =>
    rw [h] at hw
    subst hw
    cases result with
    | error e =>
      rw [exec_ofApp_bind_error h]
      exact .aborted e _
    | ok b =>
      rw [exec_ofApp_bind_ok h]
      exact hf b x

/-- An operation that is always accepted. -/
theorem Answers.bind_op (m : Op α β) (body : String) :
    Answers (ofApp m >>= fun _ => send .ok body) := by
  intro x
  cases h : exec m x.world with
  | mk result w =>
    cases result with
    | error e =>
      rw [exec_ofApp_bind_error h]
      exact .aborted e w
    | ok b =>
      rw [exec_ofApp_bind_ok h]
      exact .accepted w body

/-- The result of an operation tells whether it is accepted; if it is not, it had no effect. -/
theorem Answers.bind_decided {m : Op α β} {accepted : β → Bool} {yes no : β → String}
    {code : Code} (hcode : code ≠ .ok)
    (hm : Atomic (fun r => ∃ b, r = .ok b ∧ accepted b = false) m) :
    Answers (ofApp m >>= fun b => if accepted b then send .ok (yes b) else send code (no b)) := by
  intro x
  have hw := hm x.world
  cases h : exec m x.world with
  | mk result w =>
    rw [h] at hw
    cases result with
    | error e =>
      rw [exec_ofApp_bind_error h]
      exact .aborted e w
    | ok b =>
      rw [exec_ofApp_bind_ok h]
      cases hb : accepted b with
      | true =>
        rw [if_pos rfl, exec_send]
        exact .accepted w _
      | false =>
        have heq : w = x.world := hw ⟨b, rfl, hb⟩
        subst heq
        rw [if_neg (by simp), exec_send]
        exact .refused hcode _

/-- An operation in a `try` block; if an exception is caught, it had no effect. -/
theorem Answers.bind_attempt {m : Op α β} {yes : String}
    (hm : Atomic (fun r => ∃ what, r = .error (.invalidArgument what)) m) :
    Answers (attempt m >>= answerAttempt yes) := by
  intro x
  have hw := hm x.world
  have hexec : exec (attempt m) x =
      (catchInvalid (exec m x.world).1, { x with world := (exec m x.world).2 }) := rfl
  rw [exec_bind, hexec]
  cases h : exec m x.world with
  | mk result w =>
    rw [h] at hw
    cases result with
    | ok b => exact .accepted w yes
    | error e =>
      cases e with
      | invalidArgument what =>
        have heq : w = x.world := hw ⟨what, rfl⟩
        subst heq
        exact .refused (by decide) (caughtObject what)
      | outOfRange => exact .aborted _ w
      | missingCell => exact .aborted _ w
      | fault f => exact .aborted _ w

end FlexRan.North
