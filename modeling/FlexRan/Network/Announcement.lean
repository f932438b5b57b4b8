import FlexRan.Network.Inbound

/-!
# Announcing connections

A new connection is announced to the updater by a message of size 0 in the queue through which
the frames of the agents come.  The updater says hello to the session such a message is from.
A frame whose length field is 0 becomes a message of size 0 as well; the updater takes it for
another announcement.  An announcement can also be lost, like any message: then the frames of
the session are dispatched although it has never been announced.  `announcedFirst_of_intact`
shows that these are the only ways in which a connection is not announced once and first.

All sessions read from their sockets byte by byte.  The handlers of the updater are arbitrary.

## Main definitions

* `Reception`, `receptionStep`: the sessions, the queue and the updater.
* `AnnouncedFirst`: connections are announced once, by the listener, and before anything else.
* `Intact`: the guard of a step.
-/
namespace FlexRan.Network

open Lib Protocol

/-- Who has put a message into the queue, and why. -/
inductive Origin
  /-- `initialize_connection`. -/
  | announcement
  /-- A session has read a frame. -/
  | frame
  /-- A session has lost its connection. -/
  | disconnect
deriving DecidableEq

structure Entry where
  origin : Origin
  msg : TaggedMessage

/-- The queue with the origins of its messages. What the updater has handled and the sessions
whose announcement has been lost are history. -/
structure Reception (α : Type) where
  inbound : Inbound α
  /-- The sessions, by their numbers. -/
  sessions : List ReadState := []
  queue : List Entry := []
  handled : List Entry := []
  lost : List ℤ := []

inductive ReceptionEvent (χ : Type)
  | accept
  | socket (sessionId : ℕ) (e : SocketEvent)
  | writeError (sessionId : ℕ)
  | updateRib
  | nextMessage (c : χ)

section Step

variable {α χ : Type} (env : Env) (messagesToCheck : ℤ) (handlers : Handlers α χ)

namespace Reception

/-- The sessions without an announcement, after a message has been lost. -/
def lose (lost : List ℤ) (e : Entry) : List ℤ :=
  if e.origin = .announcement then lost ++ [e.msg.tag] else lost

/-- A message is pushed, or lost if the queue is full. -/
def push (s : Reception α) (origin : Origin) (tm : TaggedMessage) : Reception α :=
  let room := s.inbound.inQueue.length < queueCapacity
  { s with
    inbound := forwardMessage s.inbound tm
    queue := if room then s.queue ++ [⟨origin, tm⟩] else s.queue
    lost := if room then s.lost else lose s.lost ⟨origin, tm⟩ }

/-- The queue after a round of the loop of `update_rib`. -/
def pop (s : Reception α) (inbound : Inbound α) : Reception α :=
  match s.inbound.remMsgs, s.queue with
  | some remMsgs, e :: rest =>
    if remMsgs > 0 then
      { s with inbound := inbound, queue := rest, handled := s.handled ++ [e] }
    else { s with inbound := inbound, queue := rest, lost := lose s.lost e }
  | _, _ => { s with inbound := inbound }

end Reception

/-- `do_accept`: the session starts to read before it is announced; what it reads is handled by
the same thread, later. -/
def doAccept (s : Reception α) : Except Fault (Reception α) := do
  let th ← TaggedMessage.ofSize env.allocates 0 s.sessions.length
  return { s with sessions := s.sessions ++ [({} : ReadState)] }.push .announcement th

/-- A session receives a byte or an error; what it forwards is pushed. -/
def socketEvent (s : Reception α) (sessionId : ℕ) (e : SocketEvent) :
    Except Fault (Reception α) :=
  match s.sessions[sessionId]? with
  | none => .ok s
  | some session => do
    let session' ← receive env sessionId session e
    -- a session stops reading when it reports that the connection is lost
    let origin := if session'.phase = .stopped then .disconnect else .frame
    return (session'.forwarded.drop session.forwarded.length).foldl
      (fun s tm => s.push origin tm) { s with sessions := s.sessions.set sessionId session' }

def writeFailed (s : Reception α) (sessionId : ℕ) : Except Fault (Reception α) :=
  if sessionId < s.sessions.length then do
    let tm ← env.tagged disconnectMsg sessionId
    return s.push .disconnect tm
  else .ok s

def receptionStep (s : Reception α) : ReceptionEvent χ → Except Fault (Reception α)
  | .accept => doAccept env s
  | .socket sessionId e => socketEvent env s sessionId e
  | .writeError sessionId => writeFailed env s sessionId
  | .updateRib => do
    let inbound ← inboundStep env messagesToCheck handlers s.inbound .updateRib
    return { s with inbound := inbound }
  | .nextMessage c => do
    let inbound ← inboundStep env messagesToCheck handlers s.inbound (.nextMessage c)
    return s.pop inbound

end Step

/-! ## Announced once and first -/

/-- The updater takes the message for a new connection and says hello to its session. -/
def Entry.SaysHello (e : Entry) : Prop := e.msg.getSize = 0

/-- The updater says hello only because of an announcement, at most once to a session, and before
it dispatches a frame of the session. -/
structure AnnouncedFirst (handled : List Entry) : Prop where
  cause : ∀ e ∈ handled, e.SaysHello → e.origin = .announcement
  once : handled.Pairwise fun a b => a.SaysHello → b.SaysHello → a.msg.tag ≠ b.msg.tag
  first : ∀ pre e post, handled = pre ++ e :: post → e.origin = .frame →
    ∃ a ∈ pre, a.SaysHello ∧ a.msg.tag = e.msg.tag

/-- The message the next round of the loop handles, if it handles one. -/
def Reception.next? {α : Type} (s : Reception α) : Option Entry :=
  match s.inbound.remMsgs, s.queue with
  | some remMsgs, e :: _ => if remMsgs > 0 then some e else none
  | _, _ => none

/-- A frame that is handled is not empty, and the announcement of its session has not been
lost. -/
def Intact {α χ : Type} (s : Reception α) : ReceptionEvent χ → Prop
  | .nextMessage _ => ∀ e ∈ s.next?, e.origin = .frame → ¬ e.SaysHello ∧ e.msg.tag ∉ s.lost
  | _ => True

instance (e : Entry) : Decidable e.SaysHello := inferInstanceAs (Decidable (e.msg.getSize = 0))

instance {α χ : Type} : ∀ (s : Reception α) (e : ReceptionEvent χ), Decidable (Intact s e)
  | s, .nextMessage _ => inferInstanceAs (Decidable
      (∀ e ∈ s.next?, e.origin = .frame → ¬ e.SaysHello ∧ e.msg.tag ∉ s.lost))
  | _, .accept | _, .socket _ _ | _, .writeError _ | _, .updateRib => .isTrue trivial

/-! ## What sessions forward -/

variable {α χ : Type} {env : Env} {messagesToCheck : ℤ} {handlers : Handlers α χ}

theorem tagged_size (hserialize : env.serialize disconnectMsg ≠ []) {tag : ℤ} {tm : TaggedMessage}
    (h : env.tagged disconnectMsg tag = .ok tm) : tm.tag = tag ∧ tm.getSize ≠ 0 := by
  rcases tagged_spec env disconnectMsg tag with hbad | ⟨t, ht, hcarries⟩
  · exact nomatch hbad.symm.trans h
  · obtain rfl := Except.ok.inj (ht.symm.trans h)
    refine ⟨hcarries.tag, fun hzero => hserialize (List.length_eq_zero_iff.mp ?_)⟩
    have hsize : (0 : Int32).toInt = (env.serialize disconnectMsg).length :=
      hzero ▸ hcarries.getSize
    exact Int.natCast_eq_zero.mp hsize.symm

theorem ofBuffer_tag {allocates : ℕ → Bool} {buf : List Cell} {size : UInt64} {tag : ℤ}
    {tm : TaggedMessage} (h : TaggedMessage.ofBuffer allocates buf size tag = .ok tm) :
    tm.tag = tag := by
  rw [TaggedMessage.ofBuffer] at h
  split at h
  · split at h
    · rw [← Except.ok.inj h]
    · split at h
      · rw [← Except.ok.inj h]
      · exact absurd h (by simp)
  · exact absurd h (by simp)

/-- A session has forwarded at most one message, which is not empty if the session has stopped. -/
def Forwards (sessionId : ℤ) (r r' : ReadState) : Prop :=
  r'.forwarded = r.forwarded ∨ ∃ tm, r'.forwarded = r.forwarded ++ [tm] ∧ tm.tag = sessionId ∧
    (r'.phase = .stopped → tm.getSize ≠ 0)

section Forwards

variable {sessionId : ℤ} {r r' : ReadState}

theorem readFailed_forwards (hserialize : env.serialize disconnectMsg ≠ [])
    (h : readFailed env sessionId r = .ok r') : Forwards sessionId r r' := by
  obtain ⟨tm, htm, h⟩ := bind_eq_ok_iff.mp h
  obtain rfl := Except.ok.inj h
  obtain ⟨htag, hsize⟩ := tagged_size hserialize htm
  exact .inr ⟨tm, rfl, htag, fun _ => hsize⟩

theorem bodyRead_forwards (h : bodyRead env sessionId r = .ok r') : Forwards sessionId r r' := by
  obtain ⟨tm, htm, h⟩ := bind_eq_ok_iff.mp h
  obtain rfl := Except.ok.inj h
  exact .inr ⟨tm, rfl, ofBuffer_tag htm, fun hphase => nomatch hphase⟩

theorem headerRead_forwards (hserialize : env.serialize disconnectMsg ≠ [])
    (h : headerRead env sessionId r = .ok r') : Forwards sessionId r r' := by
  obtain ⟨⟨valid, m⟩, _, h⟩ := bind_eq_ok_iff.mp h
  dsimp only at h
  split at h
  · split at h
    · exact bodyRead_forwards (r := { r with readMsg := m, phase := .body, received := 0 }) h
    · exact .inl (by rw [← Except.ok.inj h])
  · exact readFailed_forwards hserialize (r := { r with readMsg := m }) h

theorem receive_forwards (hserialize : env.serialize disconnectMsg ≠ []) {e : SocketEvent}
    (h : receive env sessionId r e = .ok r') : Forwards sessionId r r' := by
  cases e with
  | error =>
    rw [receive] at h
    split at h
    · exact .inl (by rw [← Except.ok.inj h])
    · exact readFailed_forwards hserialize h
  | byte b =>
    rw [receive] at h
    split at h
    · exact .inl (by rw [← Except.ok.inj h])
    · cases hbuffer : r.buffer with | mk start length =>
      rw [hbuffer] at h
      obtain ⟨m, _, h⟩ := bind_eq_ok_iff.mp h
      dsimp only at h
      split at h
      · split at h
        · exact headerRead_forwards hserialize
            (r := { r with readMsg := m, received := r.received + 1 }) h
        · exact bodyRead_forwards (r := { r with readMsg := m, received := r.received + 1 }) h
      · exact .inl (by rw [← Except.ok.inj h])

end Forwards

/-! ## The invariant -/

namespace Reception

variable {s t : Reception α} {e : Entry} {tm : TaggedMessage}

/-- The messages that have gone through the queue or are in it, in order. -/
def entries (s : Reception α) : List Entry := s.handled ++ s.queue

/-- A message is from a session; announcements are empty, and reports of lost connections are
not. -/
structure Sound (e : Entry) (sessions : ℕ) : Prop where
  tag : 0 ≤ e.msg.tag ∧ e.msg.tag < sessions
  announcement : e.origin = .announcement → e.SaysHello
  disconnect : e.origin = .disconnect → ¬ e.SaysHello

/-- `b` is no announcement that comes after a message `a` of its session. -/
def InOrder (a b : Entry) : Prop := b.origin = .announcement → a.msg.tag ≠ b.msg.tag

structure Inv (s : Reception α) : Prop where
  queue : s.queue.map Entry.msg = s.inbound.inQueue
  handled : s.handled.map Entry.msg = s.inbound.handled
  sound : ∀ e ∈ s.entries, Sound e s.sessions.length
  ordered : s.entries.Pairwise InOrder
  announced : ∀ i < s.sessions.length, (i : ℤ) ∈ s.lost ∨
    ∃ e ∈ s.entries, e.origin = .announcement ∧ e.msg.tag = i
  announcedFirst : AnnouncedFirst s.handled

theorem inv_initial (app : α) : Inv { inbound := { app := app } } where
  queue := rfl
  handled := rfl
  sound e he := nomatch he
  ordered := .nil
  announced i hi := nomatch hi
  announcedFirst := ⟨(fun _ he => nomatch he), .nil, fun pre e post h => absurd h (by simp)⟩

/-- A message that finds room is appended; otherwise only an announcement leaves a trace. -/
theorem push_cases (s : Reception α) (origin : Origin) (tm : TaggedMessage) :
    (s.inbound.inQueue.length < queueCapacity ∧ s.push origin tm =
        { s with
          inbound := forwardMessage s.inbound tm, queue := s.queue ++ [⟨origin, tm⟩] }) ∨
      (¬ s.inbound.inQueue.length < queueCapacity ∧ s.push origin tm =
        { s with
          inbound := forwardMessage s.inbound tm, lost := lose s.lost ⟨origin, tm⟩ }) := by
  by_cases hroom : s.inbound.inQueue.length < queueCapacity
  · exact .inl ⟨hroom, by rw [push]; simp only [if_pos hroom]⟩
  · exact .inr ⟨hroom, by rw [push]; simp only [if_neg hroom]⟩

theorem Sound.mono {m n : ℕ} (h : Sound e m) (hle : m ≤ n) : Sound e n :=
  ⟨⟨h.tag.1, by have := h.tag.2; omega⟩, h.announcement, h.disconnect⟩

theorem mem_lose {i : ℤ} {lost : List ℤ} (h : i ∈ lost) (e : Entry) : i ∈ lose lost e := by
  rw [lose]
  split
  · exact List.mem_append_left _ h
  · exact h

/-- A message of a session that has been announced, or is announced by it. -/
theorem Inv.push (h : s.Inv) (e : Entry) {sessions : List ReadState}
    (hle : s.sessions.length ≤ sessions.length) (hsound : Sound e sessions.length)
    (hordered : ∀ a ∈ s.entries, InOrder a e)
    (hnew : ∀ i < sessions.length, i < s.sessions.length ∨
      e.origin = .announcement ∧ e.msg.tag = i) :
    Inv ({ s with sessions := sessions }.push e.origin e.msg) := by
  have hannounced : ∀ i < sessions.length, (i : ℤ) ∈ s.lost ∨
      (∃ a ∈ s.entries, a.origin = .announcement ∧ a.msg.tag = i) ∨
      e.origin = .announcement ∧ e.msg.tag = i := by
    intro i hi
    rcases hnew i hi with hold | hannounce
    · exact (h.announced i hold).imp_right .inl
    · exact .inr (.inr hannounce)
  rcases push_cases { s with sessions := sessions } e.origin e.msg with ⟨hroom, hpush⟩ |
    ⟨hroom, hpush⟩
  · have hentries : s.handled ++ (s.queue ++ [e]) = s.entries ++ [e] := by
      rw [entries, List.append_assoc]
    rw [hpush]
    refine ⟨?_, h.handled, ?_, ?_, fun i hi => ?_, h.announcedFirst⟩
    · rw [List.map_append, h.queue, forwardMessage, if_pos hroom]
      rfl
    · rw [entries, hentries]
      intro a ha
      rcases List.mem_append.mp ha with ha | ha
      · exact (h.sound a ha).mono hle
      · obtain rfl := List.mem_singleton.mp ha
        exact hsound
    · rw [entries, hentries, List.pairwise_append]
      exact ⟨h.ordered, List.pairwise_singleton _ _, fun a ha b hb =>
        List.mem_singleton.mp hb ▸ hordered a ha⟩
    · rw [entries, hentries]
      rcases hannounced i hi with hlost | ⟨a, ha, hannounce⟩ | hannounce
      · exact .inl hlost
      · exact .inr ⟨a, List.mem_append_left _ ha, hannounce⟩
      · exact .inr ⟨e, by simp, hannounce⟩
  · rw [hpush]
    refine ⟨?_, h.handled, fun a ha => (h.sound a ha).mono hle, h.ordered, fun i hi => ?_,
      h.announcedFirst⟩
    · rw [h.queue, forwardMessage, if_neg hroom]
    · rcases hannounced i hi with hlost | hannounce | ⟨horigin, htag⟩
      · exact .inl (mem_lose hlost _)
      · exact .inr hannounce
      · refine .inl ?_
        rw [lose, if_pos horigin]
        exact List.mem_append_right _ (List.mem_singleton.mpr htag.symm)

/-- The queue is not touched. -/
theorem Inv.sameQueue (h : s.Inv) {inbound : Inbound α}
    (hqueue : inbound.inQueue = s.inbound.inQueue)
    (hhandled : inbound.handled = s.inbound.handled) : Inv { s with inbound := inbound } :=
  ⟨h.queue.trans hqueue.symm, h.handled.trans hhandled.symm, h.sound, h.ordered, h.announced,
    h.announcedFirst⟩

end Reception

theorem AnnouncedFirst.concat {handled : List Entry} (h : AnnouncedFirst handled) {e : Entry}
    (hcause : e.SaysHello → e.origin = .announcement)
    (honce : ∀ a ∈ handled, a.SaysHello → e.SaysHello → a.msg.tag ≠ e.msg.tag)
    (hfirst : e.origin = .frame → ∃ a ∈ handled, a.SaysHello ∧ a.msg.tag = e.msg.tag) :
    AnnouncedFirst (handled ++ [e]) where
  cause a ha := by
    rcases List.mem_append.mp ha with ha | ha
    · exact h.cause a ha
    · exact List.mem_singleton.mp ha ▸ hcause
  once := by
    rw [List.pairwise_append]
    exact ⟨h.once, List.pairwise_singleton _ _, fun a ha b hb =>
      List.mem_singleton.mp hb ▸ honce a ha⟩
  first pre f post hsplit horigin := by
    obtain rfl | ⟨init, last, rfl⟩ := List.eq_nil_or_concat post
    · obtain ⟨rfl, hlast⟩ := List.append_inj' hsplit rfl
      obtain rfl := List.singleton_inj.mp hlast
      exact hfirst horigin
    · rw [List.concat_eq_append, ← List.cons_append, ← List.append_assoc] at hsplit
      exact h.first pre f init (List.append_inj' hsplit rfl).1 horigin

namespace Reception

variable {s t : Reception α} {e : Entry} {tm : TaggedMessage}

/-- The next message of the queue is handled. -/
theorem Inv.announcedFirst_concat (h : s.Inv) {rest : List Entry} (hqueue : s.queue = e :: rest)
    (hintact : e.origin = .frame → ¬ e.SaysHello ∧ e.msg.tag ∉ s.lost) :
    AnnouncedFirst (s.handled ++ [e]) := by
  have hmem : e ∈ s.entries := by simp [entries, hqueue]
  have hsound := h.sound e hmem
  have hordered := h.ordered
  rw [entries, hqueue, List.pairwise_append, List.pairwise_cons] at hordered
  obtain ⟨-, ⟨hrest, -⟩, hhandled⟩ := hordered
  have hcause : e.SaysHello → e.origin = .announcement := by
    intro hhello
    cases horigin : e.origin with
    | announcement => rfl
    | frame => exact absurd hhello (hintact horigin).1
    | disconnect => exact absurd hhello (hsound.disconnect horigin)
  refine h.announcedFirst.concat hcause (fun a ha _ hhello => ?_) fun hframe => ?_
  · exact hhandled a ha e (by simp) (hcause hhello)
  · -- the announcement is not lost, and it is not behind a frame of its session in the queue
    obtain ⟨i, hi⟩ := Int.eq_ofNat_of_zero_le hsound.tag.1
    have hlt : i < s.sessions.length := by have := hsound.tag.2; omega
    rcases h.announced i hlt with hlost | ⟨a, ha, horigin, htag⟩
    · exact absurd (hi ▸ hlost) (hintact hframe).2
    · rw [entries, hqueue] at ha
      rcases List.mem_append.mp ha with ha | ha
      · exact ⟨a, ha, (h.sound a (List.mem_append_left _ ha)).announcement horigin,
          htag.trans hi.symm⟩
      · rcases List.mem_cons.mp ha with rfl | ha
        · exact nomatch hframe.symm.trans horigin
        · exact absurd (hi.trans htag.symm) (hrest a ha horigin)

theorem pop_of_none (h : s.inbound.remMsgs = none) (inbound : Inbound α) :
    s.pop inbound = { s with inbound := inbound } := by
  rw [pop]
  simp only [h]

theorem pop_of_nil (h : s.queue = []) (inbound : Inbound α) :
    s.pop inbound = { s with inbound := inbound } := by
  rw [pop]
  cases s.inbound.remMsgs <;> simp only [h]

theorem pop_of_cons {remMsgs : ℤ} {rest : List Entry} (hrem : s.inbound.remMsgs = some remMsgs)
    (hqueue : s.queue = e :: rest) (inbound : Inbound α) :
    s.pop inbound =
      if remMsgs > 0 then
        { s with inbound := inbound, queue := rest, handled := s.handled ++ [e] }
      else { s with inbound := inbound, queue := rest, lost := lose s.lost e } := by
  rw [pop]
  simp only [hrem, hqueue]

theorem Inv.nextMessage (h : s.Inv) {c : χ} (hintact : Intact s (.nextMessage c))
    {inbound : Inbound α}
    (hstep : inboundStep env messagesToCheck handlers s.inbound (.nextMessage c) = .ok inbound) :
    (s.pop inbound).Inv := by
  rw [inboundStep] at hstep
  cases hrem : s.inbound.remMsgs with
  | none =>
    rw [hrem] at hstep
    obtain rfl := Except.ok.inj hstep
    rw [pop_of_none hrem]
    exact h
  | some remMsgs =>
    have hinQueue := h.queue
    rw [hrem] at hstep
    rcases hqueue : s.queue with _ | ⟨e, rest⟩
    · rw [hqueue] at hinQueue
      simp only [Network.nextMessage, ← hinQueue, List.map_nil] at hstep
      rw [pop_of_nil hqueue]
      exact h.sameQueue (by rw [← Except.ok.inj hstep, ← hinQueue]; rfl)
        (by rw [← Except.ok.inj hstep])
    · rw [hqueue] at hinQueue
      simp only [Network.nextMessage, ← hinQueue, List.map_cons] at hstep
      rw [pop_of_cons hrem hqueue]
      split at hstep
      next hpos =>
        rw [if_pos hpos]
        obtain ⟨app, _, hstep⟩ := bind_eq_ok_iff.mp hstep
        obtain rfl := Except.ok.inj hstep
        have hentries : s.handled ++ [e] ++ rest = s.entries := by
          rw [entries, hqueue, List.append_assoc, List.singleton_append]
        refine ⟨rfl, ?_, ?_, ?_, ?_, h.announcedFirst_concat hqueue (hintact e ?_)⟩
        · rw [List.map_append, h.handled]
          rfl
        · rw [entries, hentries]
          exact h.sound
        · rw [entries, hentries]
          exact h.ordered
        · rw [entries, hentries]
          exact h.announced
        · rw [next?, hrem, hqueue]
          exact if_pos hpos
      next hpos =>
        rw [if_neg hpos]
        obtain rfl := Except.ok.inj hstep
        have hsublist : (s.handled ++ rest).Sublist s.entries := by
          rw [entries, hqueue]
          exact (List.sublist_cons_self e rest).append_left _
        refine ⟨rfl, h.handled, fun a ha => h.sound a (hsublist.subset ha),
          h.ordered.sublist hsublist, fun i hi => ?_, h.announcedFirst⟩
        rcases h.announced i hi with hlost | ⟨a, ha, horigin, htag⟩
        · exact .inl (mem_lose hlost e)
        · rw [entries, hqueue] at ha
          rcases List.mem_append.mp ha with ha | ha
          · exact .inr ⟨a, List.mem_append_left _ ha, horigin, htag⟩
          · rcases List.mem_cons.mp ha with rfl | ha
            · refine .inl ?_
              rw [lose, if_pos horigin]
              exact List.mem_append_right _ (List.mem_singleton.mpr htag.symm)
            · exact .inr ⟨a, List.mem_append_right _ ha, horigin, htag⟩

/-- A message of a session that exists. -/
theorem Inv.pushSession (h : s.Inv) {origin : Origin} {sessions : List ReadState}
    (hlength : sessions.length = s.sessions.length) (horigin : origin ≠ .announcement)
    (htag : 0 ≤ tm.tag ∧ tm.tag < s.sessions.length)
    (hsize : origin = .disconnect → tm.getSize ≠ 0) :
    Inv ({ s with sessions := sessions }.push origin tm) :=
  h.push ⟨origin, tm⟩ hlength.ge ⟨hlength ▸ htag, fun hannounce => absurd hannounce horigin, hsize⟩
    (fun _ _ hannounce => absurd hannounce horigin) fun _ hi => .inl (hlength ▸ hi)

theorem Inv.doAccept (h : s.Inv) (hstep : doAccept env s = .ok t) : t.Inv := by
  obtain ⟨th, hth, hstep⟩ := bind_eq_ok_iff.mp hstep
  obtain rfl := Except.ok.inj hstep
  obtain rfl := Except.ok.inj hth
  refine h.push ⟨.announcement, _⟩ (by simp) ⟨by simp, fun _ => rfl, fun hne => nomatch hne⟩
    (fun a ha _ => ?_) fun i hi => ?_
  · exact (h.sound a ha).tag.2.ne
  · rw [List.length_append, List.length_singleton] at hi
    rcases Nat.lt_succ_iff_lt_or_eq.mp hi with hlt | rfl
    · exact .inl hlt
    · exact .inr ⟨rfl, rfl⟩

theorem Inv.socketEvent (hserialize : env.serialize disconnectMsg ≠ []) (h : s.Inv)
    {sessionId : ℕ} {e : SocketEvent} (hstep : socketEvent env s sessionId e = .ok t) :
    t.Inv := by
  rw [Network.socketEvent] at hstep
  split at hstep
  · exact Except.ok.inj hstep ▸ h
  · rename_i session hsession
    obtain ⟨hlt, -⟩ := List.getElem?_eq_some_iff.mp hsession
    obtain ⟨session', hsession', hstep⟩ := bind_eq_ok_iff.mp hstep
    obtain rfl := Except.ok.inj hstep
    rcases receive_forwards hserialize hsession' with hforwarded | ⟨tm, hforwarded, htag, hsize⟩
    · rw [hforwarded, List.drop_length, List.foldl_nil]
      have hlength : (s.sessions.set sessionId session').length = s.sessions.length :=
        List.length_set ..
      exact ⟨h.queue, h.handled, fun a ha => hlength.symm ▸ h.sound a ha, h.ordered,
        fun i hi => h.announced i (hlength ▸ hi), h.announcedFirst⟩
    · rw [hforwarded, List.drop_left, List.foldl_cons, List.foldl_nil]
      refine h.pushSession (List.length_set ..) (by split <;> simp)
        (by rw [htag]; omega) fun horigin => hsize ?_
      by_contra hphase
      rw [if_neg hphase] at horigin
      exact nomatch horigin

theorem Inv.writeFailed (hserialize : env.serialize disconnectMsg ≠ []) (h : s.Inv)
    {sessionId : ℕ} (hstep : writeFailed env s sessionId = .ok t) : t.Inv := by
  rw [Network.writeFailed] at hstep
  split at hstep
  · rename_i hlt
    obtain ⟨tm, htm, hstep⟩ := bind_eq_ok_iff.mp hstep
    obtain rfl := Except.ok.inj hstep
    obtain ⟨htag, hsize⟩ := tagged_size hserialize htm
    exact h.pushSession rfl (by simp) (by rw [htag]; omega) fun _ => hsize
  · exact Except.ok.inj hstep ▸ h

theorem Inv.step (hserialize : env.serialize disconnectMsg ≠ []) (h : s.Inv)
    {e : ReceptionEvent χ} (hintact : Intact s e)
    (hstep : receptionStep env messagesToCheck handlers s e = .ok t) : t.Inv := by
  cases e with
  | accept => exact h.doAccept hstep
  | socket sessionId e => exact h.socketEvent hserialize hstep
  | writeError sessionId => exact h.writeFailed hserialize hstep
  | updateRib =>
    obtain ⟨inbound, hinbound, hstep⟩ := bind_eq_ok_iff.mp hstep
    obtain rfl := Except.ok.inj hstep
    rw [inboundStep] at hinbound
    split at hinbound
    · exact h.sameQueue (by rw [← Except.ok.inj hinbound]) (by rw [← Except.ok.inj hinbound])
    · exact h.sameQueue (by rw [← Except.ok.inj hinbound]) (by rw [← Except.ok.inj hinbound])
  | nextMessage c =>
    obtain ⟨inbound, hinbound, hstep⟩ := bind_eq_ok_iff.mp hstep
    obtain rfl := Except.ok.inj hstep
    exact h.nextMessage hintact hinbound

end Reception

/-- As long as no empty frame and no frame of a session whose announcement has been lost is
handled, every session is announced once and first, whatever the agents send. -/
theorem announcedFirst_of_intact (hserialize : env.serialize disconnectMsg ≠ []) (app : α)
    {events : List (ReceptionEvent χ)} {s : Reception α}
    (h : EachStep (receptionStep env messagesToCheck handlers) { inbound := { app := app } } Intact
      events)
    (hrun : run (receptionStep env messagesToCheck handlers) { inbound := { app := app } } events =
      .ok s) :
    s.handled.map Entry.msg = s.inbound.handled ∧ AnnouncedFirst s.handled := by
  have hInv := run_invariant_of_eachStep
    (fun _ _ _ hs hintact hstep => Reception.Inv.step hserialize hs hintact hstep)
    (Reception.inv_initial app) h hrun
  exact ⟨hInv.handled, hInv.announcedFirst⟩

/-! ## One session -/

def disconnectBytes : List UInt8 := [0xa2, 1, 8, 0x0a, 6, 8, 0, 0x10, 20, 0x20, 0]

/-- Memory never runs out; disconnect messages are serialized as on the wire. -/
def wireEnv : Env where
  allocates _ := true
  serialize msg := match msg.msg with
    | .disconnect _ => disconnectBytes
    | _ => []
  serialize_lt msg := by split <;> decide

def parseDisconnect (bytes : List UInt8) : FlexranMessage :=
  if bytes = disconnectBytes then disconnectMsg else {}

abbrev updaterStep : Reception Updater → ReceptionEvent Outside → Except Fault (Reception Updater) :=
  receptionStep wireEnv 350 (ribHandlers parseDisconnect)

/-- A frame of one byte, and the connection is lost. -/
def byteThenError : List (ReceptionEvent Outside) :=
  .accept :: [0, 0, 0, 1, 7].map (fun b => .socket 0 (.byte b)) ++
    [.socket 0 .error, .updateRib, .nextMessage ⟨"", 0⟩, .nextMessage ⟨"", 0⟩, .nextMessage ⟨"", 0⟩]

/-- A frame of no bytes. -/
def emptyFrame : List (ReceptionEvent Outside) :=
  .accept :: [0, 0, 0, 0].map (fun b => .socket 0 (.byte b)) ++
    [.updateRib, .nextMessage ⟨"", 0⟩, .nextMessage ⟨"", 0⟩]

theorem announcedFirst_byteThenError :
    ∃ s, run updaterStep { inbound := { app := {} } } byteThenError = .ok s ∧
      s.handled.map Entry.origin = [.announcement, .frame, .disconnect] ∧
      s.handled.map Entry.msg = s.inbound.handled ∧ AnnouncedFirst s.handled := by
  have hhandled : (run updaterStep { inbound := { app := {} } } byteThenError).map (fun s =>
      s.handled.map Entry.origin) = .ok [.announcement, .frame, .disconnect] := by decide +kernel
  have hintact : EachStep updaterStep { inbound := { app := {} } } Intact byteThenError := by
    decide +kernel
  have hserialize : wireEnv.serialize disconnectMsg ≠ [] := by decide
  cases hs : run updaterStep { inbound := { app := {} } } byteThenError with
  | error f => exact nomatch (congrArg (Except.map _) hs).symm.trans hhandled
  | ok s =>
    rw [hs] at hhandled
    have hfirst := @announcedFirst_of_intact _ _ wireEnv 350 (ribHandlers parseDisconnect)
      hserialize {} byteThenError s hintact
    exact ⟨s, rfl, Except.ok.inj hhandled, hfirst hs⟩

/-- The updater says hello again. -/
theorem not_announcedFirst_emptyFrame :
    ∃ s, run updaterStep { inbound := { app := {} } } emptyFrame = .ok s ∧
      ¬ AnnouncedFirst s.handled := by
  have hhandled : (run updaterStep { inbound := { app := {} } } emptyFrame).map (fun s =>
      s.handled.map fun e => (e.msg.tag, decide e.SaysHello)) = .ok [(0, true), (0, true)] := by
    decide +kernel
  cases hs : run updaterStep { inbound := { app := {} } } emptyFrame with
  | error f => exact nomatch (congrArg (Except.map _) hs).symm.trans hhandled
  | ok s =>
    rw [hs] at hhandled
    refine ⟨s, rfl, fun h => ?_⟩
    have honce : (s.handled.map fun e => (e.msg.tag, decide e.SaysHello)).Pairwise
        fun a b => a.2 = true → b.2 = true → a.1 ≠ b.1 :=
      List.pairwise_map.mpr (h.once.imp fun hab ha hb =>
        hab (of_decide_eq_true ha) (of_decide_eq_true hb))
    simp only [Except.map, Except.ok.injEq] at hhandled
    rw [hhandled] at honce
    simp at honce

end FlexRan.Network
