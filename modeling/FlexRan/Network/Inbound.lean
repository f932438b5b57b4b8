import FlexRan.Network.Outbound
import FlexRan.Rib.Updater

/-!
# The way in

The sessions push what they receive to a bounded queue; the RIB updater drains the queue in
rounds, a bounded number of messages at a time.  The queue and the loop are generic in the
handlers of a message; `ribHandlers` are those of the updater.

A message that the producer can not push is lost, since the result of the push is ignored.  So
is the message that the loop of `update_rib` pops before it finds that its budget is used up.
`always_lossless_iff` shows that these are the only ways to lose a message.

## Main definitions

* `Inbound`, `inboundStep`: the queue, the updater, and what both have done so far.
* `Updater`, `ribHandlers`: the RIB and the connections released.
* `Lossless`: the messages forwarded are those handled and those in the queue.
* `Roomy`: the guard of a step.
-/
namespace FlexRan.Network

open Lib Protocol Rib

/-- What the updater does with a message. `α` is the state it works on, `χ` stands for what
handling a message takes from outside. -/
structure Handlers (α χ : Type) where
  handleNewConnection : χ → α → ℤ → Except Fault α
  dispatchMessage : χ → α → TaggedMessage → Except Fault α

structure Inbound (α : Type) where
  inQueue : List TaggedMessage := []
  /-- The messages the running `update_rib` may still handle; `none` between two calls. -/
  remMsgs : Option ℤ := none
  /-- The messages given to `forward_message` and made by `initialize_connection`. -/
  forwarded : List TaggedMessage := []
  handled : List TaggedMessage := []
  app : α

inductive InboundEvent (χ : Type)
  | forwardMessage (msg : TaggedMessage)
  | initializeConnection (sessionId : ℤ)
  /-- The task manager calls `update_rib`. -/
  | updateRib
  /-- The loop of `update_rib` evaluates its condition and, if that holds, runs its body. -/
  | nextMessage (c : χ)

section Step

variable {α χ : Type} (env : Env) (messagesToCheck : ℤ) (handlers : Handlers α χ)

/-- The result of the push is ignored. -/
def forwardMessage (s : Inbound α) (msg : TaggedMessage) : Inbound α :=
  { s with
    inQueue := if s.inQueue.length < queueCapacity then s.inQueue ++ [msg] else s.inQueue
    forwarded := s.forwarded ++ [msg] }

def initializeConnection (s : Inbound α) (sessionId : ℤ) : Except Fault (Inbound α) := do
  let th ← TaggedMessage.ofSize env.allocates 0 sessionId
  return forwardMessage s th

/-- The body of the loop. A message of size 0 stands for a new connection. -/
def Handlers.handle (c : χ) (app : α) (tm : TaggedMessage) : Except Fault α :=
  if tm.getSize = 0 then handlers.handleNewConnection c app tm.tag
  else handlers.dispatchMessage c app tm

/-- One round of the loop. The message is popped before the budget is looked at. -/
def nextMessage (s : Inbound α) (remMsgs : ℤ) (c : χ) : Except Fault (Inbound α) :=
  match s.inQueue with
  | [] => .ok { s with remMsgs := none }
  | tm :: inQueue =>
    let s := { s with inQueue := inQueue }
    if remMsgs > 0 then do
      let app ← handlers.handle c s.app tm
      return { s with app := app, handled := s.handled ++ [tm], remMsgs := some (remMsgs - 1) }
    else .ok { s with remMsgs := none }

def inboundStep (s : Inbound α) : InboundEvent χ → Except Fault (Inbound α)
  | .forwardMessage msg => .ok (forwardMessage s msg)
  | .initializeConnection sessionId => initializeConnection env s sessionId
  | .updateRib =>
    match s.remMsgs with
    | none => .ok { s with remMsgs := some messagesToCheck }
    | some _ => .ok s
  | .nextMessage c =>
    match s.remMsgs with
    | none => .ok s
    | some remMsgs => nextMessage handlers s remMsgs c

end Step

/-- The message the next round of the loop handles, if it handles one. -/
def Inbound.next? {α : Type} (s : Inbound α) : Option TaggedMessage :=
  match s.remMsgs, s.inQueue with
  | some remMsgs, tm :: _ => if remMsgs > 0 then some tm else none
  | _, _ => none

/-! ## The handlers of the updater -/

structure Updater where
  rib : Rib := {}
  /-- The connections that have been released. -/
  released : List ℤ := []

/-- The address of the agent's socket, and where the allocator would like to put an object. -/
structure Outside where
  endpoint : String
  want : ℕ

def releasedBy (effects : List Effect) : List ℤ :=
  effects.filterMap fun
    | .releaseConnection agentId => some agentId
    | _ => none

/-- The handlers of the updater, for a parser of messages. -/
def ribHandlers (parse : List UInt8 → FlexranMessage) : Handlers Updater Outside where
  handleNewConnection _ u agentId :=
    .ok { u with released := u.released ++ releasedBy (handleNewConnection agentId) }
  dispatchMessage c u tm := do
    let bytes ← tm.bytes
    let (rib, effects) ← dispatchMessage u.rib tm.tag (parse bytes) c.endpoint c.want
    return { rib := rib, released := u.released ++ releasedBy effects }

/-! ## What a step does to the application -/

variable {α χ : Type} {s t : Inbound α} {handlers : Handlers α χ}

theorem initializeConnection_eq (env : Env) (s : Inbound α) (sessionId : ℤ) :
    ∃ th, initializeConnection env s sessionId = .ok (forwardMessage s th) := ⟨_, rfl⟩

/-- A round of the loop handles the next message, or it leaves the application alone. -/
theorem inboundStep_nextMessage_eq (env : Env) (messagesToCheck : ℤ) (handlers : Handlers α χ)
    (c : χ) :
    (s.next? = none ∧ ∃ t, inboundStep env messagesToCheck handlers s (.nextMessage c) = .ok t ∧
        t.app = s.app) ∨
      ∃ tm rest remMsgs, s.next? = some tm ∧
        inboundStep env messagesToCheck handlers s (.nextMessage c) = (do
          let app ← handlers.handle c s.app tm
          return { s with
            app := app, inQueue := rest, handled := s.handled ++ [tm]
            remMsgs := some (remMsgs - 1) }) := by
  rw [inboundStep, Inbound.next?]
  cases hrem : s.remMsgs with
  | none => exact .inl ⟨rfl, s, rfl, rfl⟩
  | some remMsgs =>
    simp only [nextMessage]
    cases hq : s.inQueue with
    | nil => exact .inl ⟨rfl, _, rfl, rfl⟩
    | cons tm rest =>
      by_cases hpos : remMsgs > 0
      · exact .inr ⟨tm, rest, remMsgs, if_pos hpos, if_pos hpos⟩
      · exact .inl ⟨if_neg hpos, _, if_neg hpos, rfl⟩

/-- A round of the loop, where it does not fault. -/
theorem app_of_nextMessage {env : Env} {messagesToCheck : ℤ} {c : χ}
    (hstep : inboundStep env messagesToCheck handlers s (.nextMessage c) = .ok t) :
    (s.next? = none ∧ t.app = s.app) ∨
      ∃ tm, s.next? = some tm ∧ handlers.handle c s.app tm = .ok t.app := by
  rcases inboundStep_nextMessage_eq (s := s) env messagesToCheck handlers c with
    ⟨hnone, t', ht', happ⟩ | ⟨tm, rest, remMsgs, hsome, heq⟩
  · obtain rfl := Except.ok.inj (ht'.symm.trans hstep)
    exact .inl ⟨hnone, happ⟩
  · obtain ⟨app, happ, hstep⟩ := bind_eq_ok_iff.mp (heq.symm.trans hstep)
    rw [← Except.ok.inj hstep]
    exact .inr ⟨tm, hsome, happ⟩

/-- The other steps leave the application alone, and handle nothing. -/
theorem same_of_ne_nextMessage {env : Env} {messagesToCheck : ℤ} {e : InboundEvent χ}
    (hne : ∀ c, e ≠ .nextMessage c)
    (hstep : inboundStep env messagesToCheck handlers s e = .ok t) :
    t.app = s.app ∧ t.handled = s.handled := by
  cases e with
  | forwardMessage msg =>
    cases hstep
    exact ⟨rfl, rfl⟩
  | initializeConnection sessionId =>
    obtain ⟨th, hth⟩ := initializeConnection_eq env s sessionId
    obtain rfl := Except.ok.inj (hth.symm.trans hstep)
    exact ⟨rfl, rfl⟩
  | updateRib =>
    rw [inboundStep] at hstep
    split at hstep
    · cases hstep
      exact ⟨rfl, rfl⟩
    · cases hstep
      exact ⟨rfl, rfl⟩
  | nextMessage c => exact absurd rfl (hne c)

theorem app_of_ne_nextMessage {env : Env} {messagesToCheck : ℤ} {e : InboundEvent χ}
    (hne : ∀ c, e ≠ .nextMessage c)
    (hstep : inboundStep env messagesToCheck handlers s e = .ok t) : t.app = s.app :=
  (same_of_ne_nextMessage hne hstep).1

theorem nextMessage_cases {env : Env} {messagesToCheck : ℤ} {c : χ}
    (h : inboundStep env messagesToCheck handlers s (.nextMessage c) = .ok t) :
    (t.app = s.app ∧ t.handled = s.handled ∧ t.inQueue.Sublist s.inQueue ∧
        t.forwarded = s.forwarded) ∨
      ∃ tm, s.inQueue = tm :: t.inQueue ∧ t.handled = s.handled ++ [tm] ∧
        handlers.handle c s.app tm = .ok t.app ∧ t.forwarded = s.forwarded := by
  rw [inboundStep] at h
  split at h
  · cases h
    exact .inl ⟨rfl, rfl, List.Sublist.refl _, rfl⟩
  · rw [nextMessage] at h
    split at h
    · cases h
      rename_i hqueue
      exact .inl ⟨rfl, rfl, by simp [hqueue], rfl⟩
    · rename_i tm rest hqueue
      dsimp only at h
      split at h
      · obtain ⟨app, happ, h⟩ := bind_eq_ok_iff.mp h
        cases h
        exact .inr ⟨tm, hqueue, rfl, happ, rfl⟩
      · cases h
        exact .inl ⟨rfl, rfl, by simp [hqueue], rfl⟩

theorem run_kept_of_ne_nextMessage {env : Env} {messagesToCheck : ℤ}
    {events : List (InboundEvent χ)} (hne : ∀ c, .nextMessage c ∉ events)
    (hrun : run (inboundStep env messagesToCheck handlers) s events = .ok t) :
    t.app = s.app ∧ t.handled = s.handled := by
  induction events generalizing s with
  | nil =>
    cases hrun
    exact ⟨rfl, rfl⟩
  | cons e events ih =>
    obtain ⟨u, hu, hrun⟩ := bind_eq_ok_iff.mp hrun
    have hne' : ∀ c, e ≠ .nextMessage c := fun c heq => hne c (heq ▸ List.mem_cons_self)
    obtain ⟨happ, hhandled⟩ := same_of_ne_nextMessage hne' hu
    obtain ⟨happ', hhandled'⟩ := ih (fun c hc => hne c (List.mem_cons_of_mem e hc)) hrun
    exact ⟨happ'.trans happ, hhandled'.trans hhandled⟩

/-! ## Losing messages -/

/-- Each message forwarded is handled, once and in order, or waits in the queue. -/
def Lossless (s : Inbound α) : Prop := s.forwarded = s.handled ++ s.inQueue

/-- A push finds room, and a loop that has used up its budget finds the queue empty. -/
def Roomy (s : Inbound α) : InboundEvent χ → Prop
  | .forwardMessage _ | .initializeConnection _ => s.inQueue.length < queueCapacity
  | .updateRib => True
  | .nextMessage _ => ∀ remMsgs, s.remMsgs = some remMsgs → remMsgs ≤ 0 → s.inQueue = []

theorem lossless_forwardMessage_iff (h : Lossless s) (msg : TaggedMessage) :
    Lossless (forwardMessage s msg) ↔ s.inQueue.length < queueCapacity := by
  rw [Lossless] at *
  by_cases hroom : s.inQueue.length < queueCapacity
  · simp [forwardMessage, hroom, h]
  · simp [forwardMessage, hroom, ← h]

theorem lossless_nextMessage_iff (h : Lossless s) {remMsgs : ℤ} {c : χ}
    (hstep : nextMessage handlers s remMsgs c = .ok t) :
    Lossless t ↔ (remMsgs ≤ 0 → s.inQueue = []) := by
  rw [nextMessage] at hstep
  cases hq : s.inQueue with
  | nil =>
    rw [hq] at hstep
    obtain rfl := Except.ok.inj hstep
    exact iff_of_true (by rw [Lossless, h, hq]) fun _ => rfl
  | cons tm rest =>
    simp only [hq] at hstep
    rw [Lossless, hq] at h
    by_cases hrem : remMsgs > 0
    · rw [if_pos hrem, bind_eq_ok_iff] at hstep
      obtain ⟨app, _, hstep⟩ := hstep
      obtain rfl := Except.ok.inj hstep
      refine iff_of_true ?_ fun hle => absurd hle (not_le.mpr hrem)
      rw [Lossless, h]
      simp
    · rw [if_neg hrem] at hstep
      obtain rfl := Except.ok.inj hstep
      refine iff_of_false ?_ fun himp => absurd (himp (not_lt.mp hrem)) (by simp)
      rw [Lossless, h]
      simp

theorem lossless_iff_roomy {env : Env} {messagesToCheck : ℤ} {e : InboundEvent χ} (h : Lossless s)
    (hstep : inboundStep env messagesToCheck handlers s e = .ok t) : Lossless t ↔ Roomy s e := by
  cases e with
  | forwardMessage msg =>
    obtain rfl := Except.ok.inj hstep
    exact lossless_forwardMessage_iff h msg
  | initializeConnection sessionId =>
    obtain ⟨th, hth⟩ := initializeConnection_eq env s sessionId
    obtain rfl := Except.ok.inj (hth.symm.trans hstep)
    exact lossless_forwardMessage_iff h th
  | updateRib =>
    rw [inboundStep] at hstep
    cases hrem : s.remMsgs with
    | none =>
      rw [hrem] at hstep
      obtain rfl := Except.ok.inj hstep
      exact iff_of_true h trivial
    | some _ =>
      rw [hrem] at hstep
      obtain rfl := Except.ok.inj hstep
      exact iff_of_true h trivial
  | nextMessage c =>
    rw [inboundStep] at hstep
    cases hrem : s.remMsgs with
    | none =>
      rw [hrem] at hstep
      obtain rfl := Except.ok.inj hstep
      exact iff_of_true h fun _ hsome => absurd (hrem.symm.trans hsome) (by simp)
    | some remMsgs =>
      rw [hrem] at hstep
      rw [lossless_nextMessage_iff h hstep]
      simp [Roomy, hrem]

/-- The steps that lose a message do not fault. -/
theorem step_of_not_roomy (env : Env) (messagesToCheck : ℤ) {e : InboundEvent χ}
    (hnot : ¬ Roomy s e) : ∃ t, inboundStep env messagesToCheck handlers s e = .ok t := by
  cases e with
  | forwardMessage msg => exact ⟨_, rfl⟩
  | initializeConnection sessionId => exact ⟨_, rfl⟩
  | updateRib => exact absurd trivial hnot
  | nextMessage c =>
    simp only [Roomy, not_forall] at hnot
    obtain ⟨remMsgs, hrem, hle, hne⟩ := hnot
    simp only [inboundStep, hrem, nextMessage]
    cases hq : s.inQueue with
    | nil => exact absurd hq hne
    | cons tm rest => exact ⟨_, if_neg (not_lt.mpr hle)⟩

/-- Nothing is lost in any state of a run exactly when every push finds room and the budget of
`update_rib` is never used up while messages are left. -/
theorem always_lossless_iff (env : Env) (messagesToCheck : ℤ)
    (handlers : Handlers α χ) (app : α) (events : List (InboundEvent χ)) :
    Always (inboundStep env messagesToCheck handlers) { app := app } Lossless events ↔
      EachStep (inboundStep env messagesToCheck handlers) { app := app } Roomy events := by
  have hempty : Lossless { app := app } := rfl
  exact always_iff_eachStep (I := fun _ => True) trivial hempty (fun _ _ _ _ _ => trivial)
    (fun _ _ _ _ h hstep => lossless_iff_roomy h hstep)
    (fun _ _ _ _ hnot => step_of_not_roomy env messagesToCheck hnot) events

/-- Two connections, and an updater with a budget of one message. -/
def twoConnections : List (InboundEvent Outside) :=
  [.initializeConnection 0, .initializeConnection 1, .updateRib, .nextMessage ⟨"", 0⟩,
   .nextMessage ⟨"", 0⟩]

/-- The message of the second connection is popped and dropped. -/
theorem not_always_lossless_budget :
    ¬ Always (inboundStep freeEnv 1 (ribHandlers fun _ => {})) { app := {} } Lossless
      twoConnections := by
  intro h
  have hlost := h twoConnections _ (List.prefix_refl _) rfl
  have hlen : 2 = 1 := congrArg List.length hlost
  exact absurd hlen (by decide)

end FlexRan.Network
