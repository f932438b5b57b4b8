import FlexRan.Lib.Station
import FlexRan.Network.Inbound

/-!
# Delays and losses on the way in

The updater is a server that works on the queue of messages in rounds, one in each call of
`update_rib`.  Next to the queue and the updater runs a station, which only watches.  So messages
are taken in their order; the updater loses at most one message of `messages_to_check_ + 1`; and a
message that waits is taken within a number of calls that depends on its place, whatever the
sessions push in the meantime.

## Main definitions

* `Watched`, `watchedStep`: the queue and the updater, and the station.
* `Follows`: the station has seen what has happened.
* `inTime_of_run`: the delays and losses.
-/
namespace FlexRan.Network

open Lib Protocol

variable {α χ : Type}

structure Watched (α : Type) where
  inbound : Inbound α
  station : Station TaggedMessage := {}

/-- What a step from `s` to `t` is for the station. A message that finds no room does not arrive. -/
def observed (s t : Inbound α) : InboundEvent χ → List (StationEvent TaggedMessage)
  | .forwardMessage _ | .initializeConnection _ =>
    (t.inQueue.drop s.inQueue.length).map .arrive
  | .updateRib => [.beginRound]
  | .nextMessage _ => [.next]

section Step

variable (env : Env) (messagesToCheck : ℕ) (handlers : Handlers α χ)

def watchedStep (w : Watched α) (e : InboundEvent χ) : Except Fault (Watched α) := do
  let t ← inboundStep env messagesToCheck handlers w.inbound e
  return ⟨t, (observed w.inbound t e).foldl (Station.step messagesToCheck) w.station⟩

end Step

/-- A round of the station is a call of `update_rib`. -/
structure Follows (s : Inbound α) (st : Station TaggedMessage) : Prop where
  queue : st.queue = s.inQueue
  budget : s.remMsgs = st.budget.map Nat.cast
  served : st.served = s.handled
  accepted : st.accepted.Sublist s.forwarded

section Follows

variable {env : Env} {messagesToCheck : ℕ} {handlers : Handlers α χ} {s t : Inbound α}
  {st : Station TaggedMessage}

theorem follows_empty (app : α) : Follows { app := app } {} := ⟨rfl, rfl, rfl, List.Sublist.refl _⟩

theorem map_inbound_watchedStep (w : Watched α) (e : InboundEvent χ) :
    (watchedStep env messagesToCheck handlers w e).map Watched.inbound =
      inboundStep env messagesToCheck handlers w.inbound e := by
  rw [watchedStep]
  cases inboundStep env messagesToCheck handlers w.inbound e <;> rfl

theorem Follows.forwardMessage (h : Follows s st) (msg : TaggedMessage) :
    Follows (Network.forwardMessage s msg)
      ((((Network.forwardMessage s msg).inQueue.drop s.inQueue.length).map .arrive).foldl
        (Station.step messagesToCheck) st) := by
  by_cases hroom : s.inQueue.length < queueCapacity
  · have hqueue : (Network.forwardMessage s msg).inQueue = s.inQueue ++ [msg] := if_pos hroom
    rw [hqueue, List.drop_left]
    refine ⟨?_, h.budget, h.served, h.accepted.append_right [msg]⟩
    rw [hqueue, ← h.queue]
    rfl
  · have hqueue : (Network.forwardMessage s msg).inQueue = s.inQueue := if_neg hroom
    rw [hqueue, List.drop_length]
    exact ⟨h.queue.trans hqueue.symm, h.budget, h.served,
      h.accepted.trans (List.sublist_append_left _ _)⟩

theorem Follows.nextMessage (h : Follows s st) {c : χ}
    (hstep : inboundStep env messagesToCheck handlers s (.nextMessage c) = .ok t) :
    Follows t (st.step messagesToCheck .next) := by
  obtain ⟨queue, budget, accepted, taken, rounds⟩ := st
  obtain ⟨hqueue, hbudget, hserved, haccepted⟩ := h
  dsimp only at hqueue hbudget haccepted
  rw [inboundStep, hbudget] at hstep
  cases budget with
  | none =>
    cases hstep
    exact ⟨hqueue, hbudget, hserved, haccepted⟩
  | some b =>
    simp only [Option.map_some, Network.nextMessage, ← hqueue] at hstep
    cases queue with
    | nil =>
      cases hstep
      exact ⟨rfl, rfl, hserved, haccepted⟩
    | cons tm queue =>
      cases b with
      | zero =>
        cases hstep
        exact ⟨rfl, rfl, by simpa [Station.step, Station.served] using hserved, haccepted⟩
      | succ b =>
        have hpos : ((b + 1 : ℕ) : ℤ) > 0 := by omega
        dsimp only at hstep
        rw [if_pos hpos] at hstep
        obtain ⟨app, -, hstep⟩ := bind_eq_ok_iff.mp hstep
        cases hstep
        refine ⟨rfl, ?_, ?_, haccepted⟩
        · simp [Station.step]
        · rw [← hserved]
          simp [Station.step, Station.served]

theorem Follows.updateRib (h : Follows s st)
    (hstep : inboundStep env messagesToCheck handlers s .updateRib = .ok t) :
    Follows t (st.step messagesToCheck .beginRound) := by
  obtain ⟨queue, budget, accepted, taken, rounds⟩ := st
  obtain ⟨hqueue, hbudget, hserved, haccepted⟩ := h
  rw [inboundStep, hbudget] at hstep
  cases budget with
  | none =>
    cases hstep
    exact ⟨hqueue, rfl, hserved, haccepted⟩
  | some b =>
    cases hstep
    exact ⟨hqueue, hbudget, hserved, haccepted⟩

theorem Follows.step (h : Follows s st) {e : InboundEvent χ}
    (hstep : inboundStep env messagesToCheck handlers s e = .ok t) :
    Follows t ((observed s t e).foldl (Station.step messagesToCheck) st) := by
  cases e with
  | forwardMessage msg =>
    cases hstep
    exact h.forwardMessage msg
  | initializeConnection sessionId =>
    obtain ⟨th, hth⟩ := initializeConnection_eq env s sessionId
    obtain rfl := Except.ok.inj (hth.symm.trans hstep)
    exact h.forwardMessage th
  | updateRib => exact h.updateRib hstep
  | nextMessage c => exact h.nextMessage hstep

/-- A run of the updater, watched from a state the station has followed so far. -/
theorem exists_watched (h : Follows s st) (hst : st.Sound messagesToCheck)
    {events : List (InboundEvent χ)}
    (hrun : run (inboundStep env messagesToCheck handlers) s events = .ok t) :
    ∃ st', run (watchedStep env messagesToCheck handlers) ⟨s, st⟩ events = .ok ⟨t, st'⟩ ∧
      Follows t st' ∧ Station.Since messagesToCheck st st' := by
  have hmap : (run (watchedStep env messagesToCheck handlers) ⟨s, st⟩ events).map
      Watched.inbound = .ok t := (run_map Watched.inbound map_inbound_watchedStep _ _).trans hrun
  cases hwatched : run (watchedStep env messagesToCheck handlers) ⟨s, st⟩ events with
  | error f =>
    rw [hwatched] at hmap
    cases hmap
  | ok w =>
    rw [hwatched] at hmap
    cases hmap
    have hinv : Follows w.inbound w.station ∧ Station.Since messagesToCheck st w.station := by
      refine run_invariant (I := fun w : Watched α => Follows w.inbound w.station ∧
        Station.Since messagesToCheck st w.station) (fun w e u hw hstep => ?_)
        ⟨h, Station.since_self hst⟩ hwatched
      obtain ⟨v, hv, hstep⟩ := bind_eq_ok_iff.mp hstep
      cases hstep
      exact ⟨hw.1.step hv, hw.2.foldl hst _⟩
    exact ⟨w.station, rfl, hinv⟩

end Follows

/-- **Delays and losses.** In every run, and from every state of it on: the messages taken from the
queue are those that found room, in their order; those that were served are those handled; for
each message lost `messages_to_check_` ones have been handled; and in every call of `update_rib`
that begins and ends after the state, `messages_to_check_ + 1` of the waiting messages are taken. A
call that is going on in the state ends first, so one round is not counted then. -/
theorem inTime_of_run (env : Env) (messagesToCheck : ℕ) (handlers : Handlers α χ) (app : α)
    {before after : List (InboundEvent χ)} {s t : Inbound α}
    (hs : run (inboundStep env messagesToCheck handlers) { app := app } before = .ok s)
    (ht : run (inboundStep env messagesToCheck handlers) s after = .ok t) :
    ∃ st st', run (watchedStep env messagesToCheck handlers) ⟨{ app := app }, {}⟩ before =
        .ok ⟨s, st⟩ ∧
      run (watchedStep env messagesToCheck handlers) ⟨s, st⟩ after = .ok ⟨t, st'⟩ ∧
      Follows s st ∧ Follows t st' ∧
      st'.accepted = st'.taken.map Prod.fst ++ t.inQueue ∧
      messagesToCheck * st'.lost.length ≤ t.handled.length ∧
      s.inQueue.take ((st'.rounds - (st.rounds + if s.remMsgs.isSome then 1 else 0)) *
          (messagesToCheck + 1)) <+: (st'.taken.drop st.taken.length).map Prod.fst := by
  have hempty := Station.sound_empty (ι := TaggedMessage) messagesToCheck
  obtain ⟨st, hwatched, hfollows, hsince⟩ := exists_watched (follows_empty app) hempty hs
  obtain ⟨st', hwatched', hfollows', hsince'⟩ := exists_watched hfollows hsince.sound ht
  refine ⟨st, st', hwatched, hwatched', hfollows, hfollows', ?_, ?_, ?_⟩
  · rw [← hfollows'.queue]
    exact hsince'.sound.fifo
  · rw [← hfollows'.served]
    exact (Nat.le_add_right _ _).trans hsince'.sound.losses
  · have hgoing : s.remMsgs.isSome = st.budget.isSome := by
      rw [hfollows.budget, Option.isSome_map]
    rw [hgoing, ← hfollows.queue]
    exact hsince'.take_prefix hsince.sound

/-- Of three connections the first is handled in the first call and the second lost. -/
def threeConnections : List (InboundEvent Outside) :=
  [.initializeConnection 0, .initializeConnection 1, .initializeConnection 2]

/-- The second call finds the third connection and then nothing. -/
def twoRounds : List (InboundEvent Outside) :=
  [.updateRib, .nextMessage ⟨"", 0⟩, .nextMessage ⟨"", 0⟩,
   .updateRib, .nextMessage ⟨"", 0⟩, .nextMessage ⟨"", 0⟩]

theorem inTime_threeConnections : ∃ s t st st',
    run (inboundStep freeEnv (1 : ℕ) (ribHandlers fun _ => {})) { app := {} } threeConnections =
      .ok s ∧
    run (inboundStep freeEnv (1 : ℕ) (ribHandlers fun _ => {})) s twoRounds = .ok t ∧
    Follows s st ∧ Follows t st' ∧ st'.rounds = st.rounds + 2 ∧ st'.lost.length = 1 ∧
    1 * st'.lost.length ≤ t.handled.length ∧
    s.inQueue.take (2 * 2) <+: (st'.taken.drop st.taken.length).map Prod.fst := by
  obtain ⟨s, hs⟩ : ∃ s, run (inboundStep freeEnv (1 : ℕ) (ribHandlers fun _ => {}))
      { app := {} } threeConnections = .ok s := ⟨_, rfl⟩
  obtain ⟨t, ht⟩ : ∃ t, run (inboundStep freeEnv (1 : ℕ) (ribHandlers fun _ => {})) s twoRounds =
      .ok t := by
    cases hs
    exact ⟨_, rfl⟩
  obtain ⟨st, st', hwatched, hwatched', hfollows, hfollows', -, hlosses, htaken⟩ :=
    inTime_of_run freeEnv 1 (ribHandlers fun _ => {}) {} hs ht
  have hrounds : st'.rounds = st.rounds + 2 ∧ st'.lost.length = 1 ∧ s.remMsgs = none := by
    cases hs
    cases ht
    cases hwatched
    cases hwatched'
    exact ⟨rfl, rfl, rfl⟩
  obtain ⟨hrounds, hlost, hrem⟩ := hrounds
  rw [hrounds, hrem] at htaken
  rw [show st.rounds + 2 - (st.rounds + if (none : Option ℤ).isSome then 1 else 0) = 2 from
    Nat.add_sub_cancel_left _ _] at htaken
  exact ⟨s, t, st, st', hs, ht, hfollows, hfollows', hrounds, hlost, hlosses, htaken⟩

end FlexRan.Network
