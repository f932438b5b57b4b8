import FlexRan.App.ElasticSearch
import FlexRan.App.NetstoreLoader
import FlexRan.App.RrmManagement
import FlexRan.App.StatsManager
import FlexRan.Network.Release
import FlexRan.Rib.Isolation

/-!
# All applications

The applications run next to each other.  An event of the RIB updater is given to those that have
subscribed to it: the statistics manager hears of base stations, the radio resource management of
updates of UEs, the NetStore loader of requests of agents and the exporter of UEs that leave.

A message of an agent that is no hello and no disconnect stays within its base station, together
with everything the applications do on its account: `isolated_of_run`.

## Main definitions

* `within`: an operation of one application.
* `subscribers`: what the applications do on an event.
* `Isolated`: the handling of a message of an agent has not reached another base station.
-/
namespace FlexRan.App

open Lib Lib.Operation Protocol Rib Network Log NetStore
open Stats (StatsManager)
open Rrm (RrmManagement RegexEngine)

variable {α β γ ρ : Type}

/-! ## All applications -/

structure Applications (ρ : Type) where
  stats : StatsManager := {}
  rrm : RrmManagement ρ := {}
  netstore : NetstoreLoader := {}
  elastic : ElasticSearch := {}

/-- An operation of one application, whose state is a part of a larger one. -/
def within (view : β → α) (update : α → β → β) (m : Op α γ) : Op β γ :=
  ExceptT.mk fun w =>
    let (result, w') := exec m { rib := w.rib, app := view w.app, effects := w.effects }
    (result, { rib := w'.rib, app := update w'.app w.app, effects := w'.effects })

/-- A request of an agent is passed on, with the messages the loader sends meanwhile. -/
def netstoreSubscriber (canInit : Bool) : Effect → Op NetstoreLoader Unit
  | .controlDelReq _ msg => modify fun w =>
    let s := w.app.processControlDelReq canInit msg
    { w with app := s, effects := w.effects ++ s.effects.drop w.app.effects.length }
  | _ => pure ()

/-- The slots of the exporter are called when a UE leaves. -/
def elasticSubscriber : Effect → Op ElasticSearch Unit
  | .ueDisconnect _ _ => do
    let w ← get
    let s ← lift Abort.fault (w.app.ueDisconnected w.rib)
    modify fun w => { w with app := s }
  | _ => pure ()

/-- The subscribers of all applications, for a library of regular expressions and a libcurl that
can make a handle or can not. -/
def subscribers (engine : RegexEngine ρ) (canInit : Bool) (e : Effect) :
    Op (Applications ρ) Unit := do
  within Applications.stats (fun s a => { a with stats := s }) (Stats.subscribers e)
  within Applications.rrm (fun s a => { a with rrm := s }) (Rrm.subscribers engine e)
  within Applications.netstore (fun s a => { a with netstore := s }) (netstoreSubscriber canInit e)
  within Applications.elastic (fun s a => { a with elastic := s }) (elasticSubscriber e)

/-! ## What the applications do on account of an agent -/

section Confined

variable {r r' : Rib} {agentId : ℤ}

/-- In the RIB `r'` an operation has asked only for what concerns the agent. -/
def Confined (r r' : Rib) (agentId : ℤ) (w w' : World α) : Prop :=
  w.rib = r' → w'.rib = r' ∧
    ∃ sent, w'.effects = w.effects ++ sent ∧ ∀ e ∈ sent, Concerns r agentId e

theorem confined_of_eq {w w' : World α} (hrib : w'.rib = w.rib)
    (heffects : w'.effects = w.effects) : Confined r r' agentId w w' :=
  fun h => ⟨hrib.trans h, [], by simpa using heffects, by simp⟩

theorem confined_refl (w : World α) : Confined r r' agentId w w := confined_of_eq rfl rfl

theorem confined_trans (w₁ w₂ w₃ : World α) (h₁ : Confined r r' agentId w₁ w₂)
    (h₂ : Confined r r' agentId w₂ w₃) : Confined r r' agentId w₁ w₃ := by
  intro h
  obtain ⟨hrib, sent₁, heffects₁, hsent₁⟩ := h₁ h
  obtain ⟨hrib', sent₂, heffects₂, hsent₂⟩ := h₂ hrib
  refine ⟨hrib', sent₁ ++ sent₂, ?_, fun e he => ?_⟩
  · rw [heffects₂, heffects₁, List.append_assoc]
  · exact (List.mem_append.mp he).elim (hsent₁ e) (hsent₂ e)

theorem exec_within (view : β → α) (update : α → β → β) (m : Op α γ) (w : World β) :
    exec (within view update m) w =
      ((exec m { rib := w.rib, app := view w.app, effects := w.effects }).1,
        { rib := (exec m { rib := w.rib, app := view w.app, effects := w.effects }).2.rib
          app := update (exec m { rib := w.rib, app := view w.app, effects := w.effects }).2.app
            w.app
          effects := (exec m { rib := w.rib, app := view w.app, effects := w.effects }).2.effects }) :=
  rfl

theorem confined_within {view : β → α} {update : α → β → β} {m : Op α γ}
    (h : Keeps (Confined r r' agentId) m) :
    Keeps (Confined r r' agentId) (within view update m) := by
  intro w hw
  rw [exec_within]
  exact h { rib := w.rib, app := view w.app, effects := w.effects } hw

theorem confined_bind {m : Op α β} {f : β → Op α γ} (hm : Keeps (Confined r r' agentId) m)
    (hf : ∀ b, Keeps (Confined r r' agentId) (f b)) : Keeps (Confined r r' agentId) (m >>= f) :=
  Keeps.bind confined_trans hm hf

theorem confined_pure (b : β) : Keeps (Confined r r' agentId) (pure b : Op α β) :=
  Keeps.pure confined_refl b

/-- A message to the base station of the agent. -/
theorem confined_sendMessage (hrefreshed : Refreshed r r') (hagent : agentId ∈ r.agentConfigs)
    (msg : FlexranMessage) :
    Keeps (Confined r r' agentId) (sendMessage (r.getBsId agentId) msg : Op α Unit) := by
  intro w hw
  refine ⟨hw, _, rfl, fun e he => ?_⟩
  rw [hw] at he
  exact concerns_sendToBs hrefreshed hagent msg he

/-- The slices of an updated UE are set at its base station. -/
theorem confined_ueAddUpdateSliceAssoc (hrefreshed : Refreshed r r')
    (hagent : agentId ∈ r.agentConfigs) (engine : RegexEngine ρ) (rnti : UInt32) :
    Keeps (Confined r r' agentId)
      (Rrm.ueAddUpdateSliceAssoc engine (r.getBsId agentId) rnti) := by
  refine confined_bind (Keeps.get confined_refl) fun w => ?_
  split
  · exact confined_pure _
  · split
    · exact confined_pure _
    · split
      · exact confined_pure _
      · exact confined_sendMessage hrefreshed hagent _

theorem confined_elasticSubscriber (e : Effect) :
    Keeps (Confined r r' agentId) (elasticSubscriber e) := by
  cases e with
  | ueDisconnect bsId rnti =>
    refine confined_bind (Keeps.get confined_refl) fun w => ?_
    refine confined_bind (Keeps.lift confined_refl _ _) fun s => ?_
    exact fun w => confined_of_eq rfl rfl
  | _ => exact confined_pure _

theorem confined_netstoreSubscriber (canInit : Bool) (e : Effect) :
    Keeps (Confined r r' agentId) (netstoreSubscriber canInit e) := by
  cases e with
  | controlDelReq bsId msg =>
    intro w
    have hsent : (w.app.processControlDelReq canInit msg).effects = w.app.effects := rfl
    refine confined_of_eq rfl ?_
    exact (congrArg (w.effects ++ ·) (by rw [hsent, List.drop_length])).trans
      (List.append_nil w.effects)
  | _ => exact confined_pure _

/-- On an event that concerns the agent, the applications ask only for what concerns it. -/
theorem confined_subscribers (hrefreshed : Refreshed r r') (engine : RegexEngine ρ)
    (canInit : Bool) {e : Effect} (he : Concerns r agentId e) :
    Keeps (Confined r r' agentId) (subscribers engine canInit e) := by
  have hstats : Stats.subscribers e = pure () := by
    cases e with
    | bsAdd bsId => exact he.elim
    | bsRemove bsId => exact he.elim
    | _ => rfl
  have hrrm : Keeps (Confined r r' agentId) (Rrm.subscribers engine e) := by
    cases e with
    | ueUpdate bsId rnti =>
      rw [Rrm.subscribers, he.2]
      exact confined_ueAddUpdateSliceAssoc hrefreshed he.1 engine rnti
    | _ => exact confined_pure _
  refine confined_bind (confined_within ?_) fun _ => confined_bind (confined_within hrrm) fun _ =>
    confined_bind (confined_within (confined_netstoreSubscriber canInit e)) fun _ =>
      confined_within (confined_elasticSubscriber e)
  rw [hstats]
  exact confined_pure _

theorem confined_raise (hrefreshed : Refreshed r r') (engine : RegexEngine ρ) (canInit : Bool)
    {e : Effect} (he : Concerns r agentId e) :
    Keeps (Confined r r' agentId) (raise (subscribers engine canInit) e) := by
  refine confined_bind (fun w hw => ⟨hw, [e], rfl, ?_⟩) fun _ =>
    confined_subscribers hrefreshed engine canInit he
  intro f hf
  obtain rfl := List.mem_singleton.mp hf
  exact he

end Confined

/-! ## Isolation -/

/-- Agents stay where they are. A message of an agent without a base station changes nothing and
is answered to the agent only; any other one may change the base station of the agent, and only
agents of that base station are sent something. -/
structure Isolated (r r' : Rib) (agentId : ℤ) (sent : List Effect) : Prop where
  pendingAgents : r'.pendingAgents = r.pendingAgents
  agentConfigs : r'.agentConfigs = r.agentConfigs
  mem_iff : ∀ b, b ∈ r'.eNBConfigs ↔ b ∈ r.eNBConfigs
  agents : ∀ b : UInt64,
    (r'.eNBConfigs[b]?).map EnbRibInfo.agents = (r.eNBConfigs[b]?).map EnbRibInfo.agents
  unknown : agentId ∉ r.agentConfigs →
    r'.eNBConfigs = r.eNBConfigs ∧ ∀ id msg, .sendMsg id msg ∈ sent → id = agentId
  known : agentId ∈ r.agentConfigs →
    (∀ b, b ≠ r.getBsId agentId → r'.eNBConfigs[b]? = r.eNBConfigs[b]?) ∧
      ∀ id msg, .sendMsg id msg ∈ sent → id = agentId ∨
        ∃ (bs : EnbRibInfo) (x : ℕ) (a : AgentInfo),
          r.eNBConfigs[r.getBsId agentId]? = some bs ∧ bs.agents[x]? = some a ∧ a.agentId = id

theorem isolated_of_ownOnly {r r' : Rib} {agentId : ℤ} {sent : List Effect}
    (h : OwnOnly r r' agentId) (hsent : ∀ e ∈ sent, Concerns r agentId e) :
    Isolated r r' agentId sent where
  pendingAgents := h.refreshed.pendingAgents
  agentConfigs := h.refreshed.agentConfigs
  mem_iff := h.refreshed.mem_iff
  agents := h.refreshed.agents
  unknown hagent :=
    ⟨by rw [h.unknown hagent], fun id msg hmem =>
      (hsent _ hmem).resolve_right fun hcolleague => hagent hcolleague.1⟩
  known _ := ⟨h.others, fun id msg hmem => (hsent _ hmem).imp_right And.right⟩

/-- In every state the controller can reach, handling a message of an agent that is no hello and
no disconnect is isolated, with all that the applications do. -/
theorem isolated_of_run {env : Env} {messagesToCheck : ℤ} {parse : List UInt8 → FlexranMessage}
    {events : List ControllerEvent} {s : Controller}
    (hrun : run (controllerStep env messagesToCheck parse) {} events = .ok s)
    (engine : RegexEngine ρ) (canInit : Bool) (apps : Applications ρ) (effects : List Effect)
    (agentId : ℤ) {msg : FlexranMessage} (hhello : ∀ m, msg.msg ≠ .hello m)
    (hdisconnect : ∀ header, msg.msg ≠ .disconnect header) (endpoint : String) (want : ℕ) :
    ∃ result w sent,
      exec (handle (subscribers engine canInit)
        fun r => dispatchMessage r agentId msg endpoint want) ⟨s.inbound.app.rib, apps, effects⟩ =
        (result, w) ∧
      w.effects = effects ++ sent ∧ Isolated s.inbound.app.rib w.rib agentId sent := by
  obtain ⟨hinv, hnamed⟩ := run_controllerStep_bsNamed hrun
  have hkind : ribEvent? agentId msg endpoint want = none := by
    rw [ribEvent?]
    split
    · exact absurd ‹_› (hhello _)
    · exact absurd ‹_› (hdisconnect _)
    · rfl
  cases hd : dispatchMessage s.inbound.app.rib agentId msg endpoint want with
  | error f =>
    refine ⟨.error (.fault f), ⟨s.inbound.app.rib, apps, effects⟩, [], ?_, by simp,
      isolated_of_ownOnly (.refl _ _) (by simp)⟩
    rw [handle, exec_bind_of_ok (exec_get _), hd]
    rfl
  | ok result =>
    obtain ⟨r', raised⟩ := result
    obtain ⟨hown, hraised⟩ := dispatchMessage_concerns hnamed hkind hd
    rw [exec_handle hd]
    have hconfined := Keeps.forM_of_mem (R := Confined s.inbound.app.rib r' agentId)
      confined_refl confined_trans
      fun e he => confined_raise hown.refreshed engine canInit (hraised e he)
    obtain ⟨hrib, sent, heffects, hsent⟩ := hconfined ⟨r', apps, effects⟩ rfl
    generalize hexec : exec (forM raised (raise (subscribers engine canInit)))
      (⟨r', apps, effects⟩ : World (Applications ρ)) = outcome at hrib heffects
    refine ⟨outcome.1, outcome.2, sent, rfl, heffects, ?_⟩
    rw [hrib]
    exact isolated_of_ownOnly hown hsent

/-- Regular expressions without special characters. -/
def plainRegex : RegexEngine String := ⟨some, fun reg s => decide (reg.toList <:+: s.toList)⟩

/-- An agent becomes base station 1. -/
def oneHello : List ControllerEvent :=
  [.accept, .frameRead 0 helloBytes, .updateRib, .nextMessage ⟨"", 0⟩, .nextMessage ⟨"", 0⟩]

/-- The hello of an agent, up to the id of its base station. -/
def parseHosts : List UInt8 → FlexranMessage
  | [0x0a, 2, 0x10, bsId, 0xa0, 6, 2] =>
    { msgDir := some .successfulOutcome, msg := .hello { bsId := some bsId.toUInt64 } }
  | _ => {}

/-- Two agents become base stations 1 and 2. -/
def twoHosts : List ControllerEvent :=
  [.accept, .frameRead 0 helloBytes, .accept, .frameRead 1 [0x0a, 2, 0x10, 2, 0xa0, 6, 2],
    .updateRib, .nextMessage ⟨"", 0⟩, .nextMessage ⟨"", 0⟩, .nextMessage ⟨"", 0⟩,
    .nextMessage ⟨"", 0⟩]

/-- The agent reports a UE; the base station is asked for its configurations. -/
def ueActivated : FlexranMessage where
  msg := .ueStateChange
    { type := some EnbRibInfo.fluescActivated, config := some { rnti := some 7 } }

/-- The first base station has a UE afterwards, and the second one is left as it is. -/
theorem isolated_ueActivated : ∃ s result w sent,
    run (controllerStep freeEnv 350 parseHosts) {} twoHosts = .ok s ∧
    exec (handle (subscribers plainRegex true)
      fun r => dispatchMessage r 0 ueActivated "" 0) ⟨s.inbound.app.rib, {}, []⟩ = (result, w) ∧
    (w.rib.eNBConfigs[(1 : UInt64)]?.any fun bs => bs.ueConfig.ueConfig.length = 1) = true ∧
    2 ∈ w.rib.eNBConfigs ∧
    w.rib.eNBConfigs[(2 : UInt64)]? = s.inbound.app.rib.eNBConfigs[(2 : UInt64)]? ∧
    w.effects = sent ∧ sent ≠ [] ∧ Isolated s.inbound.app.rib w.rib 0 sent := by
  have hfacts : (run (controllerStep freeEnv 350 parseHosts) {} twoHosts).map (fun s =>
      let w := (exec (handle (subscribers plainRegex true)
        fun r => dispatchMessage r 0 ueActivated "" 0) ⟨s.inbound.app.rib, {}, []⟩).2
      decide (0 ∈ s.inbound.app.rib.agentConfigs ∧ s.inbound.app.rib.getBsId 0 = 1 ∧
        (w.rib.eNBConfigs[(1 : UInt64)]?.any fun bs => bs.ueConfig.ueConfig.length = 1) = true ∧
        2 ∈ w.rib.eNBConfigs ∧ w.effects.length ≠ 0)) = .ok true := by
    decide +kernel
  obtain ⟨s, hrun, hactive, hbs, hue, hother, heffects⟩ := exists_ok_of_decide hfacts
  have hhello : ∀ m, ueActivated.msg ≠ .hello m := by simp [ueActivated]
  obtain ⟨result, w, sent, hexec, hsent, hisolated⟩ :=
    isolated_of_run hrun plainRegex true {} [] 0 hhello (by simp [ueActivated]) "" 0
  rw [hexec] at hue hother heffects
  refine ⟨s, result, w, sent, hrun, hexec, hue, hother, ?_, hsent, ?_, hisolated⟩
  · exact (hisolated.known hactive).1 2 (by rw [hbs]; decide)
  · rintro rfl
    exact heffects (congrArg List.length hsent)

end FlexRan.App
