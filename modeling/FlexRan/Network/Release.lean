import FlexRan.Network.Controller

/-!
# Released connections

A connection is released when its agent has disconnected, and when its hello is refused.  No
later connection has its number, so that the RIB should be free of the agent from then on.

Only the handler of a disconnect cleans up, and only what it finds under the number of the
agent.  A refused hello leaves what the agent had before, and a hello that was already in the
queue is accepted after the release.  `always_leavesNoTrace_iff` says when a run keeps the RIB
clean.

## Main definitions

* `Trace`, `LeavesNoTrace`: what a released connection should not leave.
* `FoundAlone`: the object that a disconnect removes is the only one.
* `CleanEvent`, `CleanStep`: the guard of a step.
-/
namespace FlexRan.Network

open Lib Protocol Rib

/-! ## What a connection leaves behind -/

/-- The agent id occurs among the pending or the active agents, or in a base station. -/
def Trace (r : Rib) (agentId : ℤ) : Prop :=
  (∃ (x : ℕ) (a : AgentInfo), r.pendingAgents[x]? = some a ∧ a.agentId = agentId) ∨
  (∃ p, r.agentConfigs[agentId]? = some p) ∨
  ∃ b x a, r.MemberOf b x a ∧ a.agentId = agentId

def LeavesNoTrace (u : Updater) : Prop := ∀ agentId ∈ u.released, ¬ Trace u.rib agentId

/-- All objects with the agent id are the one that `handle_disconnect` removes: the object of
the active agent, or the pending one if the agent is not active. -/
def FoundAlone (r : Rib) (agentId : ℤ) : Prop :=
  match r.agentConfigs[agentId]? with
  | some p => ∀ x a, r.Live x a → a.agentId = agentId → x = p.1
  | none => (∀ b x a, r.MemberOf b x a → a.agentId ≠ agentId) ∧
      ∀ (x y : ℕ) (a d : AgentInfo), r.pendingAgents[x]? = some a → a.agentId = agentId →
        r.pendingAgents[y]? = some d → d.agentId = agentId → x = y

/-- A hello that is accepted is not from a released agent, a hello that is refused is from an
agent without a trace, and a disconnect removes the only trace of its agent. -/
def CleanEvent (u : Updater) : RibEvent → Prop
  | .hello agentId m dir endpoint _ =>
    (u.rib.Accepts dir (helloAgent agentId m endpoint) → agentId ∉ u.released) ∧
    (¬ u.rib.Accepts dir (helloAgent agentId m endpoint) → ¬ Trace u.rib agentId)
  | .disconnect agentId => FoundAlone u.rib agentId

variable {r r' : Rib} {u u' : Updater} {agentId : ℤ} {parse : List UInt8 → FlexranMessage}
  {c : Outside} {tm : TaggedMessage}

theorem trace_iff_live (h : Inv r) : Trace r agentId ↔ ∃ x a, r.Live x a ∧ a.agentId = agentId := by
  constructor
  · rintro (⟨x, a, ha, hid⟩ | ⟨p, hp⟩ | ⟨b, x, a, ha, hid⟩)
    · exact ⟨x, a, .inl ha, hid⟩
    · exact ⟨p.1, p.2, .inr (.inr ⟨agentId, hp⟩), h.active_agentId agentId p hp⟩
    · exact ⟨x, a, .inr (.inl ⟨b, ha⟩), hid⟩
  · rintro ⟨x, a, ha | ⟨b, ha⟩ | ⟨id, ha⟩, hid⟩
    · exact .inl ⟨x, a, ha, hid⟩
    · exact .inr (.inr ⟨b, x, a, ha, hid⟩)
    · exact .inr (.inr ⟨a.bsId, x, a, h.memberOf_active ha, hid⟩)

theorem trace_congr (h : Inv r) (h' : Inv r') (hlive : ∀ x a, r'.Live x a ↔ r.Live x a) :
    Trace r' agentId ↔ Trace r agentId := by
  rw [trace_iff_live h, trace_iff_live h']
  simp only [hlive]

/-! ## Disconnect -/

/-- Dissolving a base station removes the object of the agent and no other. -/
theorem live_dissolved_iff (h : Inv r) {p : AgentPtr} {bs : EnbRibInfo}
    (hp : r.agentConfigs[agentId]? = some p) (hbs : r.eNBConfigs[p.2.bsId]? = some bs)
    (hd : Rib.Dissolved r p bs r') {x : ℕ} {a : AgentInfo} :
    r'.Live x a ↔ r.Live x a ∧ x ≠ p.1 := by
  have hmember : r.MemberOf p.2.bsId p.1 p.2 := h.memberOf_active hp
  have hpbs : bs.agents[p.1]? = some p.2 := by
    obtain ⟨bs', hbs', hget⟩ := hmember
    rwa [← Option.some.inj (hbs.symm.trans hbs')] at hget
  constructor
  · intro ha
    refine ⟨live_of_dissolved hd hbs ha, ?_⟩
    rintro rfl
    obtain rfl : a = p.2 := h.object_unique p.1 a p.2 (live_of_dissolved hd hbs ha)
      (.inr (.inl ⟨_, hmember⟩))
    rcases ha with ha | ⟨b, c, hc, ha⟩ | ⟨id, ha⟩
    · rcases hd.pending ha with ha | ⟨hne, _⟩
      · rw [h.pending_ne_member hbs hpbs] at ha
        exact absurd ha (by simp)
      · exact hne rfl
    · rw [hd.getElem?_eNBConfigs] at hc
      split at hc
      · exact absurd hc (by simp)
      · rename_i hne
        exact hne (h.bsId_of_memberOf ⟨c, hc, ha⟩).symm
    · obtain ⟨ha, hgone⟩ := (hd.agentConfigs id _).mp ha
      exact hgone p.1 p.2 hpbs (h.active_agentId id p ha)
  · rintro ⟨ha, hne⟩
    -- a member of the base station is pending now, every other object is where it was
    have hmem : ∀ b, r.MemberOf b x a → r'.Live x a := by
      rintro b ⟨c, hc, ha⟩
      by_cases hb : b = p.2.bsId
      · subst hb
        obtain rfl := Option.some.inj (hbs.symm.trans hc)
        left
        rw [hd.pendingAgents, h.pending_ne_member hbs ha, if_neg hne]
        exact ha
      · exact .inr (.inl ⟨b, c, by rw [hd.getElem?_eNBConfigs, if_neg hb]; exact hc, ha⟩)
    rcases ha with ha | ⟨b, ha⟩ | ⟨id, ha⟩
    · left
      rw [hd.pendingAgents, ha]
      rfl
    · exact hmem b ha
    · exact hmem a.bsId (h.memberOf_active ha)

/-- Withdrawing a pending agent removes its object and no other. -/
theorem live_withdrawn_iff (h : Inv r) {x : ℕ} {a : AgentInfo}
    (ha : r.pendingAgents[x]? = some a) {y : ℕ} {d : AgentInfo} :
    Rib.Live { r with pendingAgents := r.pendingAgents.erase x } y d ↔ r.Live y d ∧ y ≠ x := by
  have hmember : ∀ b d, r.MemberOf b y d → y ≠ x := by
    rintro b d ⟨bs, hbs, hd⟩ rfl
    rw [h.pending_ne_member hbs hd] at ha
    exact absurd ha (by simp)
  constructor
  · rintro (hd | ⟨b, hd⟩ | ⟨id, hd⟩)
    · obtain ⟨hne, hd⟩ := getElem?_erase_pending.mp hd
      exact ⟨.inl hd, hne⟩
    · exact ⟨.inr (.inl ⟨b, hd⟩), hmember b d hd⟩
    · exact ⟨.inr (.inr ⟨id, hd⟩), hmember d.bsId d (h.memberOf_active hd)⟩
  · rintro ⟨hd | hd | hd, hne⟩
    · exact .inl (getElem?_erase_pending.mpr ⟨hne, hd⟩)
    · exact .inr (.inl hd)
    · exact .inr (.inr hd)

/-- Where all objects but the one at `x` stay, no trace is left exactly when that was the only
one with the agent id. -/
theorem not_trace_iff_of_removed (h' : Inv r') {x : ℕ}
    (hlive : ∀ y d, r'.Live y d ↔ r.Live y d ∧ y ≠ x) :
    ¬ Trace r' agentId ↔ ∀ y d, r.Live y d → d.agentId = agentId → y = x := by
  rw [trace_iff_live h']
  simp only [hlive, not_exists]
  constructor
  · intro hnone y d hd hid
    by_contra hne
    exact hnone y d ⟨⟨hd, hne⟩, hid⟩
  · rintro honly y d ⟨⟨hd, hne⟩, hid⟩
    exact hne (honly y d hd hid)

theorem foundAlone_iff_of_pending (h : Inv r) (hnone : r.agentConfigs[agentId]? = none) {x : ℕ}
    {a : AgentInfo} (ha : r.pendingAgents[x]? = some a) (hid : a.agentId = agentId) :
    FoundAlone r agentId ↔ ∀ y d, r.Live y d → d.agentId = agentId → y = x := by
  rw [FoundAlone, hnone]
  constructor
  · rintro ⟨hmember, honce⟩ y d (hd | ⟨b, hd⟩ | ⟨id, hd⟩) hdid
    · exact honce y x d a hd hdid ha hid
    · exact absurd hdid (hmember b y d hd)
    · exact absurd hdid (hmember d.bsId y d (h.memberOf_active hd))
  · intro honly
    refine ⟨?_, fun y z d e hd hdid he heid => ?_⟩
    · rintro b y d ⟨bs, hbs, hd⟩ hdid
      obtain rfl := honly y d (.inr (.inl ⟨b, bs, hbs, hd⟩)) hdid
      rw [h.pending_ne_member hbs hd] at ha
      exact absurd ha (by simp)
    · exact (honly y d (.inl hd) hdid).trans (honly z e (.inl he) heid).symm

theorem foundAlone_iff_of_unknown (hnone : r.agentConfigs[agentId]? = none)
    (hnot : ∀ (x : ℕ) a, r.pendingAgents[x]? = some a → a.agentId ≠ agentId) :
    FoundAlone r agentId ↔ ¬ Trace r agentId := by
  rw [FoundAlone, hnone]
  constructor
  · rintro ⟨hmember, -⟩ (⟨x, a, ha, hid⟩ | ⟨p, hp⟩ | ⟨b, x, a, ha, hid⟩)
    · exact hnot x a ha hid
    · exact absurd (hnone.symm.trans hp) (by simp)
    · exact hmember b x a ha hid
  · intro htrace
    exact ⟨fun b x a ha hid => htrace (.inr (.inr ⟨b, x, a, ha, hid⟩)),
      fun x y a d ha hid => absurd hid (hnot x a ha)⟩

/-- A handled disconnect leaves no trace exactly when it found the only one. -/
theorem not_trace_iff_foundAlone (h : Inv r) {effects : List Effect}
    (ho : Outcome r (.disconnect agentId) r' effects) :
    ¬ Trace r' agentId ↔ FoundAlone r agentId := by
  have h' : Inv r' := ho.inv h
  cases ho with
  | dissolved hp hbs hd =>
    rw [not_trace_iff_of_removed h' fun y d => live_dissolved_iff h hp hbs hd, FoundAlone, hp]
  | withdrawn x hnone ha hid =>
    rw [not_trace_iff_of_removed h' fun y d => live_withdrawn_iff h ha,
      foundAlone_iff_of_pending h hnone ha hid]
  | unknown hnone hnot => exact (foundAlone_iff_of_unknown hnone hnot).symm

/-- A disconnect adds no trace of any agent. -/
theorem trace_of_disconnect (h : Inv r) {effects : List Effect}
    (ho : Outcome r (.disconnect agentId) r' effects) {id : ℤ} (ht : Trace r' id) :
    Trace r id := by
  have h' : Inv r' := ho.inv h
  rw [trace_iff_live h'] at ht
  obtain ⟨x, a, ha, hid⟩ := ht
  rw [trace_iff_live h]
  cases ho with
  | dissolved hp hbs hd => exact ⟨x, a, (live_of_dissolved hd hbs ha), hid⟩
  | withdrawn y _ hy _ => exact ⟨x, a, ((live_withdrawn_iff h hy).mp ha).1, hid⟩
  | unknown _ _ => exact ⟨x, a, ha, hid⟩

/-! ## One message -/

/-- An accepted hello adds the trace of its agent and no other. -/
theorem trace_accepted_iff (h : Inv r) {x : ℕ} {a : AgentInfo} (hfresh : ∀ b, ¬ r.Live x b)
    (h' : Inv r') (hlive : ∀ y d, r'.Live y d ↔ (r.pend x a).Live y d) (id : ℤ) :
    Trace r' id ↔ id = a.agentId ∨ Trace r id := by
  rw [trace_iff_live h, trace_iff_live h']
  simp only [hlive, live_pend_iff hfresh]
  constructor
  · rintro ⟨y, d, ⟨rfl, rfl⟩ | hd, hid⟩
    · exact .inl hid.symm
    · exact .inr ⟨y, d, hd, hid⟩
  · rintro (hid | ⟨y, d, hd, hid⟩)
    · exact ⟨x, a, .inl ⟨rfl, rfl⟩, hid.symm⟩
    · exact ⟨y, d, .inr hd, hid⟩

/-- After an accepted hello, no released agent has a trace exactly when the agent of the hello
was not released. -/
theorem leavesNoTrace_accepted_iff (hP : LeavesNoTrace u)
    (htrace : ∀ id, Trace r' id ↔ id = agentId ∨ Trace u.rib id) :
    LeavesNoTrace { rib := r', released := u.released } ↔ agentId ∉ u.released := by
  simp only [LeavesNoTrace, htrace, not_or]
  constructor
  · intro h hmem
    exact (h agentId hmem).1 rfl
  · intro hnot id hid
    exact ⟨fun heq => hnot (heq ▸ hid), hP id hid⟩

/-- After a release that adds no trace, no released agent has a trace exactly when the agent
just released has none. -/
theorem leavesNoTrace_released_iff (hP : LeavesNoTrace u)
    (htrace : ∀ id, Trace r' id → Trace u.rib id) :
    LeavesNoTrace { rib := r', released := u.released ++ [agentId] } ↔ ¬ Trace r' agentId := by
  simp only [LeavesNoTrace, List.mem_append, List.mem_singleton]
  constructor
  · intro h
    exact h agentId (.inr rfl)
  · rintro hnot id (hid | rfl)
    · exact fun ht => hP id hid (htrace id ht)
    · exact hnot

/-- What the two handlers leave, in terms of the state before. -/
theorem leavesNoTrace_outcome_iff (h : Inv u.rib) (hP : LeavesNoTrace u) {e : RibEvent}
    {effects : List Effect} (ho : Outcome u.rib e r' effects) :
    LeavesNoTrace { rib := r', released := u.released ++ releasedBy effects } ↔
      CleanEvent u e := by
  have h' : Inv r' := ho.inv h
  cases e with
  | disconnect agentId =>
    have hreleased : releasedBy effects = [agentId] := by cases ho <;> rfl
    rw [hreleased, leavesNoTrace_released_iff hP fun id => trace_of_disconnect h ho]
    exact not_trace_iff_foundAlone h ho
  | hello agentId m dir endpoint want =>
    cases ho with
    | rejected hnot =>
      have hreleased : releasedBy [.releaseConnection agentId] = [agentId] := rfl
      rw [hreleased, leavesNoTrace_released_iff hP fun _ => id]
      simp [CleanEvent, hnot]
    | waiting x haccepts hfresh hcovers =>
      have htrace := trace_accepted_iff h hfresh h' fun _ _ => Iff.rfl
      have hiff : _ ↔ agentId ∉ u.released := leavesNoTrace_accepted_iff hP htrace
      simpa [CleanEvent, haccepts, releasedBy] using hiff
    | formed x haccepts hfresh hcovers =>
      have hnew : (u.rib.pend x (helloAgent agentId m endpoint)).eNBConfigs[
          (helloAgent agentId m endpoint).bsId]? = none := haccepts.new_bs
      have htrace := trace_accepted_iff h hfresh h' fun _ _ => live_form_iff hnew
      have hreleased : ∀ r b, releasedBy (triggerBsConfig r b ++ [.bsAdd b]) = [] := fun r b =>
        releasedBy_eq_nil fun id => by simp [notMem_triggerBsConfig]
      have hiff : _ ↔ agentId ∉ u.released := leavesNoTrace_accepted_iff hP htrace
      simpa [CleanEvent, haccepts, hreleased] using hiff

theorem leavesNoTrace_handle_iff (h : Inv u.rib) (hP : LeavesNoTrace u)
    (hu : (ribHandlers parse).handle c u tm = .ok u') :
    LeavesNoTrace u' ↔ ∀ e, event? parse c tm = some e → CleanEvent u e := by
  obtain ⟨h', ⟨e, effects, he, ho, hreleased⟩ | ⟨he, hreleased, hlive⟩⟩ := handle_cases h hu
  · have hiff := leavesNoTrace_outcome_iff h hP ho
    rw [← hreleased] at hiff
    simpa [he] using hiff
  · refine iff_of_true ?_ (by simp [he])
    intro id hid
    rw [hreleased] at hid
    rw [trace_congr h h' hlive]
    exact hP id hid

/-! ## Runs -/

/-- The message that is handled next is a clean event, if it is an event. -/
def CleanStep (parse : List UInt8 → FlexranMessage) (c : Controller) : ControllerEvent → Prop
  | .nextMessage outside => ∀ tm e, c.inbound.next? = some tm → event? parse outside tm = some e →
      CleanEvent c.inbound.app e
  | _ => True

section Step

variable {env : Env} {messagesToCheck : ℤ} {s t : Controller}

theorem leavesNoTrace_controllerStep_iff {e : ControllerEvent} (h : Inv s.inbound.app.rib)
    (hP : LeavesNoTrace s.inbound.app)
    (hstep : controllerStep env messagesToCheck parse s e = .ok t) :
    LeavesNoTrace t.inbound.app ↔ CleanStep parse s e := by
  rcases controllerStep_cases hstep with ⟨happ, hnone⟩ | ⟨c, tm, rfl, hsome, hu⟩
  · rw [happ]
    refine iff_of_true hP ?_
    cases e with
    | nextMessage c => simp [CleanStep, hnone c rfl]
    | _ => trivial
  · rw [leavesNoTrace_handle_iff h hP hu]
    refine ⟨fun hclean tm' e htm' he => ?_, fun hclean e he => hclean tm e hsome he⟩
    obtain rfl := Option.some.inj (hsome.symm.trans htm')
    exact hclean e he

/-- A step that leaves a trace does not fault. -/
theorem controllerStep_of_not_cleanStep (env : Env) (messagesToCheck : ℤ) {e : ControllerEvent}
    (h : Inv s.inbound.app.rib) (hnot : ¬ CleanStep parse s e) :
    ∃ t, controllerStep env messagesToCheck parse s e = .ok t := by
  cases e with
  | nextMessage c =>
    simp only [CleanStep, not_forall] at hnot
    obtain ⟨tm, e, hsome, he, _⟩ := hnot
    obtain ⟨u', hu'⟩ := handle_ok_of_event h he
    rcases inboundStep_nextMessage_eq (s := s.inbound) env messagesToCheck (ribHandlers parse) c
      with ⟨hnone, _⟩ | ⟨tm', rest, remMsgs, hsome', heq⟩
    · exact absurd (hnone.symm.trans hsome) (by simp)
    · obtain rfl := Option.some.inj (hsome'.symm.trans hsome)
      rw [hu'] at heq
      rw [controllerStep, Controller.inboundStep, heq]
      exact ⟨_, rfl⟩
  | _ => exact absurd trivial hnot

end Step

/-- No released agent has a trace in the RIB in any state of a run exactly when every message
the updater handles is clean. -/
theorem always_leavesNoTrace_iff (env : Env) (messagesToCheck : ℤ)
    (parse : List UInt8 → FlexranMessage) (events : List ControllerEvent) :
    Always (controllerStep env messagesToCheck parse) {} (fun c => LeavesNoTrace c.inbound.app)
        events ↔
      EachStep (controllerStep env messagesToCheck parse) {} (CleanStep parse) events := by
  have hempty : LeavesNoTrace ({} : Controller).inbound.app := by simp [LeavesNoTrace]
  exact always_iff_eachStep (I := fun c : Controller => Inv c.inbound.app.rib) inv_empty hempty
    (fun _ _ _ h hstep => controllerStep_inv h hstep)
    (fun _ _ _ h hP hstep => leavesNoTrace_controllerStep_iff h hP hstep)
    (fun _ _ h _ hnot => controllerStep_of_not_cleanStep env messagesToCheck h hnot) events

/-- A successful hello for base station 1 on the wire. -/
def helloBytes : List UInt8 := [0x0a, 2, 0x10, 1, 0xa0, 6, 2]

def parseHello (bytes : List UInt8) : FlexranMessage :=
  if bytes = helloBytes then
    { msgDir := some .successfulOutcome, msg := .hello { bsId := some 1 } }
  else {}

/-- An agent says hello twice. -/
def helloTwice : List ControllerEvent :=
  [.accept, .frameRead 0 helloBytes, .frameRead 0 helloBytes, .updateRib, .nextMessage ⟨"", 0⟩,
   .nextMessage ⟨"", 0⟩, .nextMessage ⟨"", 0⟩]

/-- The second hello is refused, since there is the base station of the first one, which is left
as it is. -/
theorem not_always_leavesNoTrace_helloTwice :
    ¬ Always (controllerStep freeEnv 350 parseHello) {} (fun c => LeavesNoTrace c.inbound.app)
      helloTwice := by
  intro h
  have hfacts : (run (controllerStep freeEnv 350 parseHello) {} helloTwice).map (fun c =>
      decide (0 ∈ c.inbound.app.released ∧
        (c.inbound.app.rib.agentConfigs[(0 : ℤ)]?).isSome)) = .ok true := by
    decide +kernel
  obtain ⟨c, hrun, hreleased, hactive⟩ := exists_ok_of_decide hfacts
  obtain ⟨p, hp⟩ := Option.isSome_iff_exists.mp hactive
  exact h helloTwice c (List.prefix_refl _) hrun 0 hreleased (.inr (.inl ⟨p, hp⟩))

end FlexRan.Network
