import FlexRan.Network.Announcement

/-!
# What sessions have read

Nothing comes out of the queue that has not gone into it, so what the updater handles of a session
is part of what the session has read, in the same order.  Announcements and reports of lost
connections are the exceptions: the listener and the writing half of a session push them as well.
A value that can be read off neither of these is therefore handled at most as often as the session
has read it.

For the queue alone, the sessions are a part of the outside that forwards messages.

## Main definitions

* `readBy`, `valuesOf`: what a session has read, and the values of its messages.
* `Reads`: the values that come out of the queue have been read.
* `exists_run_inbound`: the runs of the queue under the runs of the sessions.
-/
namespace FlexRan.Network

open Lib Protocol

variable {α β χ : Type}

/-- What a session has read, and nothing for a session that has not been accepted. -/
def readBy (s : Reception α) (id : ℕ) : List TaggedMessage :=
  (s.sessions[id]?).elim [] ReadState.forwarded

/-- The values of the messages of a session. -/
def valuesOf (f : TaggedMessage → Option β) (id : ℤ) (tms : List TaggedMessage) : List β :=
  tms.filterMap fun tm => if tm.tag = id then f tm else none

def Reads (f : TaggedMessage → Option β) (s : Reception α) : Prop :=
  ∀ id : ℕ, (valuesOf f id (s.inbound.handled ++ s.inbound.inQueue)).Sublist
    ((readBy s id).filterMap f)

/-! ## Values -/

section Values

variable {f : TaggedMessage → Option β} {id : ℤ}

theorem valuesOf_append (tms tms' : List TaggedMessage) :
    valuesOf f id (tms ++ tms') = valuesOf f id tms ++ valuesOf f id tms' :=
  List.filterMap_append ..

theorem valuesOf_singleton (tm : TaggedMessage) :
    valuesOf f id [tm] = if tm.tag = id then (f tm).toList else [] := by
  rw [valuesOf]
  by_cases hid : tm.tag = id
  · cases hvalue : f tm <;> simp [hid, hvalue]
  · simp [hid]

theorem valuesOf_of_none {tm : TaggedMessage} (h : f tm = none) : valuesOf f id [tm] = [] := by
  rw [valuesOf_singleton, h]
  simp

end Values

/-! ## Steps -/

section Step

variable {env : Env} {messagesToCheck : ℤ} {handlers : Handlers α χ} {f : TaggedMessage → Option β}
  {s t : Reception α}

theorem reads_initial (app : α) : Reads f { inbound := { app := app } } :=
  fun _ => List.nil_sublist _

/-- A message is pushed; the session it is from has read it, or it has no value. -/
theorem Reads.push (h : Reads f s) {sessions : List ReadState} {origin : Origin}
    {tm : TaggedMessage}
    (hread : ∀ id : ℕ, ((readBy s id).filterMap f ++ valuesOf f id [tm]).Sublist
      ((readBy { s with sessions := sessions } id).filterMap f)) :
    Reads f ({ s with sessions := sessions }.push origin tm) := by
  intro id
  have hqueue : (s.inbound.handled ++ (forwardMessage s.inbound tm).inQueue).Sublist
      (s.inbound.handled ++ s.inbound.inQueue ++ [tm]) := by
    rw [forwardMessage]
    split
    · rw [List.append_assoc]
    · exact List.sublist_append_left _ _
  have hvalues : (valuesOf f id (s.inbound.handled ++
      (forwardMessage s.inbound tm).inQueue)).Sublist
        (valuesOf f id (s.inbound.handled ++ s.inbound.inQueue ++ [tm])) :=
    hqueue.filterMap _
  rw [valuesOf_append (s.inbound.handled ++ s.inbound.inQueue) [tm]] at hvalues
  exact hvalues.trans (((h id).append_right _).trans (hread id))

theorem Reads.accept (hempty : ∀ tm : TaggedMessage, tm.getSize = 0 → f tm = none)
    (h : Reads f s) (hstep : doAccept env s = .ok t) : Reads f t := by
  obtain ⟨th, hth, hstep⟩ := bind_eq_ok_iff.mp hstep
  cases hstep
  apply h.push
  intro id
  have hnone : f th = none := by
    cases hth
    exact hempty _ rfl
  have hread : readBy { s with sessions := s.sessions ++ [{}] } id = readBy s id := by
    rw [readBy, readBy]
    rcases Nat.lt_trichotomy id s.sessions.length with hlt | heq | hgt
    · simp [List.getElem?_append_left hlt]
    · simp [heq]
    · simp [hgt, Nat.le_of_lt hgt]
  rw [valuesOf_of_none hnone, List.append_nil, hread]

theorem Reads.socket (hserialize : env.serialize disconnectMsg ≠ []) (h : Reads f s)
    {sessionId : ℕ} {e : SocketEvent} (hstep : socketEvent env s sessionId e = .ok t) :
    Reads f t := by
  rw [socketEvent] at hstep
  split at hstep
  · cases hstep
    exact h
  · rename_i session hsession
    obtain ⟨hlt, -⟩ := List.getElem?_eq_some_iff.mp hsession
    obtain ⟨session', hsession', hstep⟩ := bind_eq_ok_iff.mp hstep
    cases hstep
    have hother : ∀ id, sessionId ≠ id →
        readBy { s with sessions := s.sessions.set sessionId session' } id = readBy s id := by
      intro id hne
      rw [readBy, readBy, List.getElem?_set_ne hne]
    have hself : readBy { s with sessions := s.sessions.set sessionId session' } sessionId =
        session'.forwarded := by
      simp [readBy, hlt]
    have hbefore : readBy s sessionId = session.forwarded := by
      simp [readBy, hsession]
    rcases receive_forwards hserialize hsession' with hforwarded | ⟨tm, hforwarded, htag, -⟩
    · rw [hforwarded, List.drop_length, List.foldl_nil]
      intro id
      have hread : readBy { s with sessions := s.sessions.set sessionId session' } id =
          readBy s id := by
        by_cases hid : sessionId = id
        · rw [← hid, hself, hforwarded, hbefore]
        · exact hother id hid
      rw [hread]
      exact h id
    · rw [hforwarded, List.drop_left, List.foldl_cons, List.foldl_nil]
      apply h.push
      intro id
      rw [valuesOf_singleton, htag]
      by_cases hid : sessionId = id
      · rw [← hid, hself, hforwarded, hbefore, if_pos rfl, List.filterMap_append]
        cases hvalue : f tm <;> simp [hvalue]
      · rw [if_neg (by exact_mod_cast hid), List.append_nil, hother id hid]

theorem Reads.writeError
    (hdisconnect : ∀ tag tm, env.tagged disconnectMsg tag = .ok tm → f tm = none)
    (h : Reads f s) {sessionId : ℕ} (hstep : writeFailed env s sessionId = .ok t) :
    Reads f t := by
  rw [writeFailed] at hstep
  split at hstep
  · obtain ⟨tm, htm, hstep⟩ := bind_eq_ok_iff.mp hstep
    cases hstep
    refine h.push fun id => ?_
    rw [valuesOf_of_none (hdisconnect _ tm htm), List.append_nil]
  · cases hstep
    exact h

theorem inbound_pop (inbound : Inbound α) :
    (s.pop inbound).inbound = inbound ∧ (s.pop inbound).sessions = s.sessions := by
  rw [Reception.pop]
  split
  · split <;> exact ⟨rfl, rfl⟩
  · exact ⟨rfl, rfl⟩

theorem Reads.nextMessage (h : Reads f s) {c : χ} {inbound : Inbound α}
    (hstep : inboundStep env messagesToCheck handlers s.inbound (.nextMessage c) = .ok inbound) :
    Reads f (s.pop inbound) := by
  obtain ⟨hinbound, hsessions⟩ := inbound_pop (s := s) inbound
  intro id
  rw [readBy, hsessions, hinbound]
  refine List.Sublist.trans ?_ (h id)
  apply List.Sublist.filterMap
  rcases nextMessage_cases hstep with ⟨-, hhandled, hqueue, -⟩ | ⟨tm, hqueue, hhandled, -, -⟩
  · rw [hhandled]
    exact hqueue.append_left _
  · rw [hhandled, hqueue, List.append_assoc, List.singleton_append]

/-- What comes out of the queue has been read, in every state. -/
theorem Reads.step (hserialize : env.serialize disconnectMsg ≠ [])
    (hempty : ∀ tm : TaggedMessage, tm.getSize = 0 → f tm = none)
    (hdisconnect : ∀ tag tm, env.tagged disconnectMsg tag = .ok tm → f tm = none)
    (h : Reads f s) {e : ReceptionEvent χ}
    (hstep : receptionStep env messagesToCheck handlers s e = .ok t) : Reads f t := by
  cases e with
  | accept => exact h.accept hempty hstep
  | socket sessionId e => exact h.socket hserialize hstep
  | writeError sessionId => exact h.writeError hdisconnect hstep
  | updateRib =>
    obtain ⟨inbound, hinbound, hstep⟩ := bind_eq_ok_iff.mp hstep
    cases hstep
    rw [inboundStep] at hinbound
    split at hinbound
    · cases hinbound
      exact h
    · cases hinbound
      exact h
  | nextMessage c =>
    obtain ⟨inbound, hinbound, hstep⟩ := bind_eq_ok_iff.mp hstep
    cases hstep
    exact h.nextMessage hinbound

/-! ## The queue alone -/

theorem run_forwardMessage (origin : Origin) (tms : List TaggedMessage) (s : Reception α) :
    run (inboundStep env messagesToCheck handlers) s.inbound (tms.map .forwardMessage) =
      .ok (tms.foldl (fun s tm => s.push origin tm) s).inbound := by
  induction tms generalizing s with
  | nil => rfl
  | cons tm tms ih => exact ih (s.push origin tm)

/-- For the queue, an event of the sessions is a number of its own events. -/
theorem exists_run_inbound_of_step {e : ReceptionEvent χ}
    (hstep : receptionStep env messagesToCheck handlers s e = .ok t) :
    ∃ events, run (inboundStep env messagesToCheck handlers) s.inbound events = .ok t.inbound ∧
      ((∀ c, e ≠ .nextMessage c) → ∀ c, .nextMessage c ∉ events) := by
  cases e with
  | accept =>
    obtain ⟨th, hth, hstep⟩ := bind_eq_ok_iff.mp hstep
    cases hstep
    exact ⟨[.forwardMessage th], rfl, by simp⟩
  | socket sessionId e =>
    rw [receptionStep, socketEvent] at hstep
    split at hstep
    · cases hstep
      exact ⟨[], rfl, by simp⟩
    · rename_i session _
      obtain ⟨session', _, hstep⟩ := bind_eq_ok_iff.mp hstep
      cases hstep
      refine ⟨(session'.forwarded.drop session.forwarded.length).map .forwardMessage,
        run_forwardMessage _ _ { s with sessions := s.sessions.set sessionId session' },
        fun _ c hc => ?_⟩
      obtain ⟨tm, _, htm⟩ := List.mem_map.mp hc
      cases htm
  | writeError sessionId =>
    rw [receptionStep, writeFailed] at hstep
    split at hstep
    · obtain ⟨tm, htm, hstep⟩ := bind_eq_ok_iff.mp hstep
      cases hstep
      exact ⟨[.forwardMessage tm], rfl, by simp⟩
    · cases hstep
      exact ⟨[], rfl, by simp⟩
  | updateRib =>
    obtain ⟨inbound, hinbound, hstep⟩ := bind_eq_ok_iff.mp hstep
    cases hstep
    refine ⟨[.updateRib], ?_, by simp⟩
    rw [run_cons, hinbound]
    rfl
  | nextMessage c =>
    obtain ⟨inbound, hinbound, hstep⟩ := bind_eq_ok_iff.mp hstep
    cases hstep
    refine ⟨[.nextMessage c], ?_, fun hne => absurd rfl (hne c)⟩
    rw [run_cons, hinbound, (inbound_pop inbound).1]
    rfl

/-- The run of the queue under a run of the sessions. -/
theorem exists_run_inbound {events : List (ReceptionEvent χ)}
    (hrun : run (receptionStep env messagesToCheck handlers) s events = .ok t) :
    ∃ inner, run (inboundStep env messagesToCheck handlers) s.inbound inner = .ok t.inbound := by
  induction events generalizing s with
  | nil =>
    cases hrun
    exact ⟨[], rfl⟩
  | cons e events ih =>
    obtain ⟨u, hu, hrun⟩ := bind_eq_ok_iff.mp hrun
    obtain ⟨first, hfirst, -⟩ := exists_run_inbound_of_step hu
    obtain ⟨rest, hrest⟩ := ih hrun
    refine ⟨first ++ rest, ?_⟩
    rw [run_append, hfirst]
    exact hrest

/-- Only the loop of the updater handles messages. -/
theorem kept_of_ne_nextMessage {e : ReceptionEvent χ} (hne : ∀ c, e ≠ .nextMessage c)
    (hstep : receptionStep env messagesToCheck handlers s e = .ok t) :
    t.inbound.app = s.inbound.app ∧ t.inbound.handled = s.inbound.handled := by
  obtain ⟨events, hrun, hevents⟩ := exists_run_inbound_of_step hstep
  exact run_kept_of_ne_nextMessage (hevents hne) hrun

end Step

end FlexRan.Network
