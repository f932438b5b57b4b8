import FlexRan.App.StatsManager
import FlexRan.Lib.History
import FlexRan.Rib.Dispatch

/-!
# The directory of the statistics manager

The manager keeps its own directory of base stations and learns of changes only from the events
of the RIB updater.  The events of a base station alternate, and the last one tells whether the
base station exists; the directory therefore has the same keys as the RIB between any two
handlers, and a request for a base station that exists always finds its list.

## Main definitions

* `StatsOutcome`: everything an event can do.
* `bsEvents`: the history of a base station.
* `Mirror`: the invariant.
-/
namespace FlexRan.App.Stats

open Lib Lib.Operation Protocol Rib Rib.Rib

variable {parser : Parser} {w w' : World StatsManager} {e : StatsEvent}

/-- Everything an event can do, with one constructor for each kind of exit. -/
inductive StatsOutcome (parser : Parser) (w : World StatsManager) :
    StatsEvent → World StatsManager → Prop
  | kept {e rib effects} (ho : Outcome w.rib e rib effects)
      (hkeys : rib.eNBConfigs = w.rib.eNBConfigs)
      (hquiet : ∀ f ∈ effects, ∃ id, f = .releaseConnection id) :
      StatsOutcome parser w (.agent e)
        { w with rib := rib, effects := w.effects ++ effects }
  | formed {agentId m dir endpoint want a r} (x : ℕ) (ha : helloAgent agentId m endpoint = a)
      (haccepts : w.rib.Accepts dir a) (hfresh : ∀ b, ¬ w.rib.Live x b)
      (hcovers : Covers ((w.rib.pend x a).pendingOf a.bsId))
      (hr : (w.rib.pend x a).form a.bsId = r) :
      StatsOutcome parser w (.agent (.hello agentId m dir endpoint want))
        { rib := r
          app := { bsList := w.app.bsList.insertIfNew a.bsId defaultStatsRequest }
          effects := w.effects ++ (triggerBsConfig r a.bsId ++ [.bsAdd a.bsId] ++
            requestEffects r a.bsId defaultStatsRequest.reports) }
  | dissolved {agentId p bs r} (hp : w.rib.agentConfigs[agentId]? = some p)
      (hbs : w.rib.eNBConfigs[p.2.bsId]? = some bs) (hd : Dissolved w.rib p bs r) :
      StatsOutcome parser w (.agent (.disconnect agentId))
        { rib := r
          app := { bsList := w.app.bsList.erase p.2.bsId }
          effects := w.effects ++ [.bsRemove p.2.bsId, .releaseConnection agentId] }
  | replied {agentId m rib effects}
      (h : handleStatsReply w.rib agentId m = .ok (rib, effects)) :
      StatsOutcome parser w (.statsReply agentId m)
        { w with rib := rib, effects := w.effects ++ effects }
  | accepted {bs policy bsId proto reqs} (hbs : w.rib.parseEnbAgentId bs = .ok bsId)
      (hne : bsId ≠ 0) (hparse : parser.parse policy = some proto)
      (hreqs : w.app.bsList[bsId]? = some reqs) :
      StatsOutcome parser w (.setStatsRequests bs policy)
        { w with
          app := { bsList := w.app.bsList.insert bsId proto }
          effects := w.effects ++ (offEffects w.rib bsId reqs.reports.length ++
            requestEffects w.rib bsId proto.reports) }
  | rejected {bs policy}
      (h : ∀ b, w.rib.parseEnbAgentId bs = .ok b → b ≠ 0 → parser.parse policy = none) :
      StatsOutcome parser w (.setStatsRequests bs policy) w

/-! ## The invariant -/

/-- What an effect says about the base station. -/
def bsEvent? (b : UInt64) : Effect → Option Bool
  | .bsAdd c => if c = b then some true else none
  | .bsRemove c => if c = b then some false else none
  | _ => none

/-- The events of a base station: whether it was added or removed. -/
def bsEvents (b : UInt64) (effects : List Effect) : List Bool := effects.filterMap (bsEvent? b)

structure Mirror (w : World StatsManager) : Prop where
  inv : Inv w.rib
  listed : ∀ b, b ∈ w.app.bsList ↔ b ∈ w.rib.eNBConfigs
  alternates : ∀ b, Alternates (bsEvents b w.effects)
  isOpen_iff : ∀ b, IsOpen (bsEvents b w.effects) ↔ b ∈ w.rib.eNBConfigs

theorem mirror_initial : Mirror initial where
  inv := inv_empty
  listed b := by simp [initial]
  alternates b := alternates_nil
  isOpen_iff b := by simp [initial, bsEvents]

/-- Under the invariant a base station that exists is listed. -/
theorem Mirror.exists_reqs (h : Mirror w) {b : UInt64} {bs : EnbRibInfo}
    (hbs : w.rib.eNBConfigs[b]? = some bs) : ∃ reqs, w.app.bsList[b]? = some reqs := by
  have hmem : b ∈ w.rib.eNBConfigs := Std.ExtTreeMap.mem_iff_isSome_getElem?.mpr (by simp [hbs])
  exact Option.isSome_iff_exists.mp
    (Std.ExtTreeMap.mem_iff_isSome_getElem?.mp ((h.listed b).mpr hmem))

/-! ## Steps -/

theorem notMem_sendMsg {effects : List Effect}
    (h : ∀ e ∈ effects, ∃ id msg, e = .sendMsg id msg) (b : UInt64) :
    Effect.bsAdd b ∉ effects ∧ Effect.bsRemove b ∉ effects := by
  constructor
  · intro hmem
    obtain ⟨id, msg, he⟩ := h _ hmem
    exact absurd he (by simp)
  · intro hmem
    obtain ⟨id, msg, he⟩ := h _ hmem
    exact absurd he (by simp)

theorem foldl_notified_formed (r : Rib) (b : UInt64) (w : World StatsManager) :
    (triggerBsConfig r b ++ [Effect.bsAdd b]).foldl notified { w with rib := r } =
      { rib := r
        app := { bsList := w.app.bsList.insertIfNew b defaultStatsRequest }
        effects := w.effects ++ (triggerBsConfig r b ++ [.bsAdd b] ++
          requestEffects r b defaultStatsRequest.reports) } := by
  rw [List.foldl_append, foldl_notified _ (notMem_sendMsg fun f => sendMsg_of_mem_triggerBsConfig)]
  simp only [List.foldl_cons, List.foldl_nil, notified, List.append_assoc]

theorem statsStep_agent {e : RibEvent} {r : Rib} {effects : List Effect}
    (h : handleEvent w.rib e = .ok (r, effects)) :
    statsStep parser w (.agent e) = .ok (effects.foldl notified { w with rib := r }) := by
  apply settle_of_ok (b := ())
  rw [handleStatsEvent, exec_handle h, exec_forM_subscribers]

theorem outcome_of_agent {e : RibEvent} {r : Rib} {effects : List Effect}
    (ho : Outcome w.rib e r effects) :
    StatsOutcome parser w (.agent e) (effects.foldl notified { w with rib := r }) := by
  have hquiet : ∀ id f, f ∈ [Effect.releaseConnection id] → ∃ id, f = .releaseConnection id :=
    fun id f hf => ⟨id, List.mem_singleton.mp hf⟩
  cases ho with
  | rejected h => exact .kept (.rejected h) rfl (hquiet _)
  | waiting x haccepts hfresh h =>
    rw [List.foldl_nil, ← List.append_nil w.effects]
    exact .kept (.waiting x haccepts hfresh h) rfl (fun f hf => absurd hf List.not_mem_nil)
  | formed x haccepts hfresh h =>
    rw [foldl_notified_formed]
    exact .formed x rfl haccepts hfresh h rfl
  | dissolved hp hbs hd =>
    simp only [List.foldl_cons, List.foldl_nil, notified, List.append_assoc, List.singleton_append]
    exact .dissolved hp hbs hd
  | withdrawn x hnone ha hid => exact .kept (.withdrawn x hnone ha hid) rfl (hquiet _)
  | unknown hnone hnot => exact .kept (.unknown hnone hnot) rfl (hquiet _)

theorem sendMsg_of_handleStatsReply {r r' : Rib} {agentId : ℤ} {m : FlexStatsReply}
    {effects : List Effect} (h : handleStatsReply r agentId m = .ok (r', effects)) :
    ∀ f ∈ effects, ∃ id msg, f = .sendMsg id msg := by
  obtain ⟨r'', _, h⟩ := bind_eq_ok_iff.mp h
  obtain ⟨rfl, rfl⟩ := Prod.mk.inj (Except.ok.inj h)
  intro f hf
  split at hf
  · exact absurd hf (List.not_mem_nil)
  · exact ⟨_, _, List.mem_singleton.mp hf⟩

theorem statsStep_statsReply {agentId : ℤ} {m : FlexStatsReply} {r : Rib} {effects : List Effect}
    (h : handleStatsReply w.rib agentId m = .ok (r, effects)) :
    statsStep parser w (.statsReply agentId m) =
      .ok { w with rib := r, effects := w.effects ++ effects } := by
  apply settle_of_ok (b := ())
  rw [handleStatsEvent, exec_handle h, exec_forM_subscribers,
    foldl_notified _ (notMem_sendMsg (sendMsg_of_handleStatsReply h))]

/-- Under the invariant an event ends in one of the ways listed, unless a reply goes past the
cells of its base station. -/
theorem statsStep_cases (parser : Parser) (h : Mirror w) (e : StatsEvent) :
    (∃ w', statsStep parser w e = .ok w' ∧ StatsOutcome parser w e w') ∨
    ∃ agentId m f, e = .statsReply agentId m ∧ handleStatsReply w.rib agentId m = .error f ∧
      statsStep parser w e = .error f := by
  cases e with
  | agent e =>
    obtain ⟨r, effects, hr, ho⟩ := handleEvent_outcome h.inv e
    exact .inl ⟨_, statsStep_agent hr, outcome_of_agent ho⟩
  | statsReply agentId m =>
    cases hr : handleStatsReply w.rib agentId m with
    | ok result => exact .inl ⟨_, statsStep_statsReply hr, .replied hr⟩
    | error f =>
      refine .inr ⟨agentId, m, f, rfl, hr, ?_⟩
      rw [statsStep, handleStatsEvent, handle, settle, exec_bind_of_ok (exec_get w), hr]
      rfl
  | setStatsRequests bs policy =>
    by_cases hrejected : ∀ b, w.rib.parseEnbAgentId bs = .ok b → b ≠ 0 →
        parser.parse policy = none
    · obtain ⟨result, hexec, hresult⟩ := exec_setStatsRequests_rejected "" hrejected
      refine .inl ⟨w, ?_, .rejected hrejected⟩
      rw [statsStep, handleStatsEvent, settle]
      rcases hresult with rfl | ⟨reason, rfl⟩
      · rw [exec_bind_of_error hexec]
      · rw [exec_bind_of_ok hexec]
        rfl
    · simp only [not_forall] at hrejected
      obtain ⟨b, hb, hne, hparse⟩ := hrejected
      obtain ⟨proto, hproto⟩ := Option.ne_none_iff_exists'.mp hparse
      obtain ⟨bs', hbs'⟩ := h.inv.exists_bs_of_parseEnbAgentId hb hne
      obtain ⟨reqs, hreqs⟩ := h.exists_reqs hbs'
      refine .inl ⟨_, ?_, .accepted hb hne hproto hreqs⟩
      apply settle_of_ok (b := ())
      rw [handleStatsEvent,
        exec_bind_of_ok (exec_setStatsRequests "" hb hne hproto hreqs), exec_pure]

/-! ## What a step keeps -/

theorem bsEvents_append (b : UInt64) (effects effects' : List Effect) :
    bsEvents b (effects ++ effects') = bsEvents b effects ++ bsEvents b effects' :=
  List.filterMap_append

/-- Effects that are not events of base stations leave no trace in their histories. -/
theorem bsEvents_append_quiet {effects' : List Effect} (effects : List Effect)
    (h : ∀ f ∈ effects', (∃ id msg, f = .sendMsg id msg) ∨ ∃ id, f = .releaseConnection id)
    (b : UInt64) : bsEvents b (effects ++ effects') = bsEvents b effects := by
  have hnil : bsEvents b effects' = [] := by
    rw [bsEvents, List.filterMap_eq_nil_iff]
    intro f hf
    rcases h f hf with ⟨id, msg, rfl⟩ | ⟨id, rfl⟩ <;> rfl
  rw [bsEvents_append, hnil, List.append_nil]

theorem sendMsg_of_mem_requestEffects {r : Rib} {b : UInt64}
    {reports : List FlexCompleteStatsRequest} {f : Effect} (hf : f ∈ requestEffects r b reports) :
    ∃ id msg, f = .sendMsg id msg := by
  obtain ⟨e, _, hf⟩ := List.mem_flatMap.mp hf
  obtain ⟨x, a, _, rfl⟩ := mem_sendToBs.mp hf
  exact ⟨_, _, rfl⟩

theorem sendMsg_of_mem_offEffects {r : Rib} {b : UInt64} {n : ℕ} {f : Effect}
    (hf : f ∈ offEffects r b n) : ∃ id msg, f = .sendMsg id msg := by
  obtain ⟨e, _, hf⟩ := List.mem_flatMap.mp hf
  obtain ⟨x, a, _, rfl⟩ := mem_sendToBs.mp hf
  exact ⟨_, _, rfl⟩

/-- The history of a base station once `c` has been added. -/
theorem bsEvents_formed (r : Rib) (b c : UInt64) (effects : List Effect)
    (reports : List FlexCompleteStatsRequest) :
    bsEvents b (effects ++ (triggerBsConfig r c ++ [.bsAdd c] ++ requestEffects r c reports)) =
      bsEvents b effects ++ if c = b then [true] else [] := by
  rw [← List.append_assoc, ← List.append_assoc,
    bsEvents_append_quiet _ fun f hf => .inl (sendMsg_of_mem_requestEffects hf),
    bsEvents_append,
    bsEvents_append_quiet _ fun f hf => .inl (sendMsg_of_mem_triggerBsConfig hf)]
  by_cases hc : c = b
  · simp [bsEvents, bsEvent?, hc]
  · simp [bsEvents, bsEvent?, hc]

/-- The history of a base station once `c` has been removed. -/
theorem bsEvents_dissolved (b c : UInt64) (id : ℤ) (effects : List Effect) :
    bsEvents b (effects ++ [.bsRemove c, .releaseConnection id]) =
      bsEvents b effects ++ if c = b then [false] else [] := by
  rw [bsEvents_append]
  by_cases hc : c = b
  · simp [bsEvents, bsEvent?, hc]
  · simp [bsEvents, bsEvent?, hc]

/-- No base station comes or goes. -/
theorem Mirror.quiet (h : Mirror w) (hinv : Inv w'.rib)
    (hkeys : ∀ b, b ∈ w'.rib.eNBConfigs ↔ b ∈ w.rib.eNBConfigs)
    (hlisted : ∀ b, b ∈ w'.app.bsList ↔ b ∈ w.app.bsList)
    (hevents : ∀ b, bsEvents b w'.effects = bsEvents b w.effects) : Mirror w' where
  inv := hinv
  listed b := by rw [hlisted, hkeys]; exact h.listed b
  alternates b := by rw [hevents]; exact h.alternates b
  isOpen_iff b := by rw [hevents, hkeys]; exact h.isOpen_iff b

/-- Base station `c` comes or goes. -/
theorem Mirror.toggled (h : Mirror w) (c : UInt64) (on : Bool) (hinv : Inv w'.rib)
    (hbefore : c ∈ w.rib.eNBConfigs ↔ on = false)
    (hkeys : ∀ b, b ∈ w'.rib.eNBConfigs ↔ if c = b then on = true else b ∈ w.rib.eNBConfigs)
    (hlisted : ∀ b, b ∈ w'.app.bsList ↔ if c = b then on = true else b ∈ w.app.bsList)
    (hevents : ∀ b, bsEvents b w'.effects = bsEvents b w.effects ++ if c = b then [on] else []) :
    Mirror w' where
  inv := hinv
  listed b := by
    rw [hlisted, hkeys, h.listed b]
  alternates b := by
    rw [hevents]
    by_cases hb : c = b
    · rw [if_pos hb, ← hb]
      cases on with
      | true => exact (h.alternates c).opened (by rw [h.isOpen_iff, hbefore]; simp)
      | false => exact (h.alternates c).closed (by rw [h.isOpen_iff, hbefore])
    · rw [if_neg hb, List.append_nil]
      exact h.alternates b
  isOpen_iff b := by
    rw [hevents, hkeys]
    by_cases hb : c = b
    · rw [if_pos hb, if_pos hb, isOpen_concat]
    · rw [if_neg hb, if_neg hb, List.append_nil]
      exact h.isOpen_iff b

/-- Every exit keeps the invariant. -/
theorem StatsOutcome.mirror (ho : StatsOutcome parser w e w') (h : Mirror w) : Mirror w' := by
  cases ho with
  | kept ho hkeys hquiet =>
    refine h.quiet (ho.inv h.inv) (fun b => by rw [hkeys]) (fun b => .rfl) ?_
    exact bsEvents_append_quiet w.effects fun f hf => .inr (hquiet f hf)
  | @formed agentId m dir endpoint want a r x ha haccepts hfresh hcovers hr =>
    subst hr
    refine h.toggled a.bsId true
      ((h.inv.pend haccepts hfresh).form haccepts.new_bs hcovers) ?_ ?_ ?_ ?_
    · rw [Std.ExtTreeMap.mem_iff_isSome_getElem?, haccepts.new_bs]
      simp
    · intro b
      rw [mem_eNBConfigs_form (r := w.rib.pend x a) haccepts.new_bs]
      by_cases hb : a.bsId = b
      · simp [hb]
      · simp [hb, pend]
    · intro b
      rw [Std.ExtTreeMap.mem_insertIfNew, Std.LawfulEqCmp.compare_eq_iff_eq]
      by_cases hb : a.bsId = b
      · simp [hb]
      · simp [hb]
    · intro b
      exact bsEvents_formed _ _ _ _ _
  | @dissolved agentId p bs r hp hbs hd =>
    refine h.toggled p.2.bsId false (h.inv.dissolved hbs hd) ?_ ?_ ?_ ?_
    · rw [Std.ExtTreeMap.mem_iff_isSome_getElem?, hbs]
      simp
    · intro b
      rw [mem_eNBConfigs_dissolved hd]
      by_cases hb : p.2.bsId = b
      · simp [hb]
      · simp [hb]
    · intro b
      rw [Std.ExtTreeMap.mem_erase]
      by_cases hb : p.2.bsId = b
      · simp [hb]
      · simp [hb]
    · intro b
      exact bsEvents_dissolved _ _ _ _
  | @replied agentId m r effects hr =>
    have hsent := sendMsg_of_handleStatsReply hr
    obtain ⟨r', hr', hr⟩ := bind_eq_ok_iff.mp hr
    obtain ⟨rfl, rfl⟩ := Prod.mk.inj (Except.ok.inj hr)
    have hrefreshed := updateBsFromAgent_refreshed (.statsReply m) hr'
    refine h.quiet (hrefreshed.inv h.inv) hrefreshed.mem_iff (fun b => .rfl) ?_
    exact bsEvents_append_quiet w.effects fun f hf => .inl (hsent f hf)
  | @accepted bs policy c proto reqs hbs hne hparse hreqs =>
    have hmem : c ∈ w.app.bsList := by
      rw [Std.ExtTreeMap.mem_iff_isSome_getElem?, hreqs]
      simp
    refine h.quiet h.inv (fun b => .rfl) (fun b => ?_) (bsEvents_append_quiet w.effects ?_)
    · rw [Std.ExtTreeMap.mem_insert, Std.LawfulEqCmp.compare_eq_iff_eq]
      refine ⟨?_, .inr⟩
      rintro (rfl | hb)
      · exact hmem
      · exact hb
    · intro f hf
      rcases List.mem_append.mp hf with hf | hf
      · exact .inl (sendMsg_of_mem_offEffects hf)
      · exact .inl (sendMsg_of_mem_requestEffects hf)
  | rejected _ => exact h

theorem statsStep_mirror (h : Mirror w) (hstep : statsStep parser w e = .ok w') : Mirror w' := by
  rcases statsStep_cases parser h e with ⟨w'', hw'', ho⟩ | ⟨_, _, f, _, _, hf⟩
  · obtain rfl := Except.ok.inj (hw''.symm.trans hstep)
    exact ho.mirror h
  · exact absurd (hf.symm.trans hstep) (by simp)

theorem run_statsStep_mirror {events : List StatsEvent}
    (hrun : run (statsStep parser) initial events = .ok w) : Mirror w :=
  run_invariant (fun _ _ _ h hstep => statsStep_mirror h hstep) mirror_initial hrun

/-- A request never uses the iterator past the end. -/
theorem Mirror.setStatsRequests_ne_fault (h : Mirror w) (bs policy errorReason : String)
    (f : Fault) : (exec (setStatsRequests parser bs policy errorReason) w).1 ≠ .error (.fault f) := by
  by_cases hrejected : ∀ b, w.rib.parseEnbAgentId bs = .ok b → b ≠ 0 → parser.parse policy = none
  · obtain ⟨result, hexec, hresult⟩ := exec_setStatsRequests_rejected errorReason hrejected
    rw [hexec]
    rcases hresult with rfl | ⟨reason, rfl⟩ <;> simp
  · simp only [not_forall] at hrejected
    obtain ⟨b, hb, hne, hparse⟩ := hrejected
    obtain ⟨proto, hproto⟩ := Option.ne_none_iff_exists'.mp hparse
    obtain ⟨bs', hbs'⟩ := h.inv.exists_bs_of_parseEnbAgentId hb hne
    obtain ⟨reqs, hreqs⟩ := h.exists_reqs hbs'
    rw [exec_setStatsRequests errorReason hb hne hproto hreqs]
    simp

/-- Between any two handlers the events of a base station alternate and tell whether it exists,
the manager lists exactly the base stations of the RIB, and a request that names one finds its
list.  A run without statistics replies does not fault. -/
theorem run_statsStep_faithful (parser : Parser) (events : List StatsEvent) :
    (∀ w, run (statsStep parser) initial events = .ok w →
      (∀ b, Alternates (bsEvents b w.effects) ∧
        (IsOpen (bsEvents b w.effects) ↔ b ∈ w.rib.eNBConfigs)) ∧
      (∀ b, b ∈ w.app.bsList ↔ b ∈ w.rib.eNBConfigs) ∧
      (∀ bs b, w.rib.parseEnbAgentId bs = .ok b → b ≠ 0 →
        ∃ reqs, w.app.bsList[b]? = some reqs) ∧
      ∀ bs policy errorReason f,
        (exec (setStatsRequests parser bs policy errorReason) w).1 ≠ .error (.fault f)) ∧
    ((∀ e ∈ events, ∀ agentId m, e ≠ .statsReply agentId m) →
      ∃ w, run (statsStep parser) initial events = .ok w) := by
  constructor
  · intro w hrun
    have h := run_statsStep_mirror hrun
    refine ⟨fun b => ⟨h.alternates b, h.isOpen_iff b⟩, h.listed, ?_, ?_⟩
    · intro bs b hb hne
      obtain ⟨bs', hbs'⟩ := h.inv.exists_bs_of_parseEnbAgentId hb hne
      exact h.exists_reqs hbs'
    · intro bs policy errorReason f
      exact h.setStatsRequests_ne_fault bs policy errorReason f
  · intro hquiet
    -- from the right: the state before the last event is reached, and its event does not fault
    induction events using List.reverseRecOn with
    | nil => exact ⟨initial, rfl⟩
    | append_singleton events e ih =>
      obtain ⟨w, hw⟩ := ih fun e he => hquiet e (List.mem_append_left _ he)
      rcases statsStep_cases parser (run_statsStep_mirror hw) e with
        ⟨w', hw', _⟩ | ⟨agentId, m, _, he, _⟩
      · exact ⟨w', run_concat_eq_ok.mpr ⟨w, hw, hw'⟩⟩
      · exact absurd he (hquiet e (List.mem_append_right _ (List.mem_singleton_self e)) agentId m)

end FlexRan.App.Stats
