import FlexRan.App.CellAccess
import FlexRan.Rib.Dispatch

/-!
# The slices of UEs

Two requests ask the agents to move UEs to other slices.  A change of the slices of a cell is
followed by the associations that the new slices still allow, if an algorithm has changed; a change
of associations is checked entry by entry and sent as a whole.

## Main definitions

* `Direction`: downlink or uplink.
* `AcceptedChange`, `Preserved`: a change of the slices, and what it leaves of the associations.
* `ListsBoth`: the requests that preserve them.
* `ValidEntry`: an entry of a change of associations that is sent.
-/
namespace FlexRan.App.Rrm

open Lib Lib.Operation Protocol Rib

variable {ρ : Type}

/-! ## Directions -/

inductive Direction | dl | ul
deriving DecidableEq

namespace Direction

instance : Fintype Direction := ⟨{dl, ul}, fun d => by cases d <;> simp⟩

def config : Direction → FlexSliceConfig → Option FlexSliceDlUlConfig
  | dl => FlexSliceConfig.dl
  | ul => FlexSliceConfig.ul

def sliceId : Direction → FlexUeConfig → Option UInt32
  | dl => FlexUeConfig.dlSliceId
  | ul => FlexUeConfig.ulSliceId

def other : Direction → Direction
  | dl => ul
  | ul => dl

end Direction

/-- Cell 0 of a base station; a base station without one is refused by all requests here. -/
def cellOf (r : Rib) (b : UInt64) : FlexCellConfig :=
  ((r.getBs b).bind fun bs => bs.eNBConfig.cellConfig[0]?).getD {}

/-- The UEs of a base station. -/
def uesOf (r : Rib) (b : UInt64) : List FlexUeConfig :=
  ((r.getBs b).map fun bs => bs.ueConfig.ueConfig).getD []

/-- The slices of a direction of cell 0. -/
def current (r : Rib) (b : UInt64) (d : Direction) : FlexSliceDlUlConfig :=
  (d.config ((cellOf r b).sliceConfig.getD {})).getD {}

/-! ## Changes of the slices of a cell -/

/-- What a request asks for in a direction. -/
def requested (m : FlexSliceConfig) (d : Direction) : FlexSliceDlUlConfig := (d.config m).getD {}

def currentAlgorithm (r : Rib) (b : UInt64) (d : Direction) : FlexSliceAlgorithm :=
  (current r b d).algorithm.getD .none

/-- A request without an algorithm keeps it. -/
def requestedAlgorithm (r : Rib) (b : UInt64) (m : FlexSliceConfig) (d : Direction) :
    FlexSliceAlgorithm :=
  (requested m d).algorithm.getD (currentAlgorithm r b d)

def ChangesAlgorithm (r : Rib) (b : UInt64) (m : FlexSliceConfig) (d : Direction) : Prop :=
  currentAlgorithm r b d ≠ requestedAlgorithm r b m d

instance (r : Rib) (b : UInt64) (m : FlexSliceConfig) (d : Direction) :
    Decidable (ChangesAlgorithm r b m d) :=
  inferInstanceAs (Decidable (_ ≠ _))

/-- The slice exists after the request: it is listed, or the direction keeps its slices. -/
def StillExists (r : Rib) (b : UInt64) (m : FlexSliceConfig) (d : Direction) (id : UInt32) : Prop :=
  hasId (requested m d).slices id ∨
    ¬ ChangesAlgorithm r b m d ∧ hasId (current r b d).slices id

/-- The slice of a UE; an unset one reads as 0. -/
def sliceOf (d : Direction) (ue : FlexUeConfig) : UInt32 := (d.sliceId ue).getD 0

/-- No UE whose slice still exists is moved to another one. -/
def Preserved (r : Rib) (b : UInt64) (m : FlexSliceConfig) (sent : List Effect) : Prop :=
  ∀ id msg reply, .sendMsg id msg ∈ sent → msg.msg = .ueConfigReply reply →
    ∀ c ∈ reply.ueConfig, ∀ ue ∈ uesOf r b, EnbRibInfo.rntiOf c = EnbRibInfo.rntiOf ue →
      ∀ d, StillExists r b m d (sliceOf d ue) →
        d.sliceId c = none ∨ d.sliceId c = some (sliceOf d ue)

/-- The request names a base station, is accepted and changes an algorithm. -/
structure AcceptedChange (parse : String → Option FlexSliceConfig) (s policy : String)
    (w : World (RrmManagement ρ)) (b : UInt64) (m : FlexSliceConfig) : Prop where
  resolves : Resolves w.rib s b
  parsed : parse policy = some m
  returned : (exec (applySliceConfigPolicy parse s policy) w).1 = .ok ()
  changes : ∃ d, ChangesAlgorithm w.rib b m d

/-- If the request lists the slice of a UE in one direction, it lists that in the other direction
as well, where the algorithm stays the same and the cell has the slice. Slice 0 does not count. -/
def ListsBoth (r : Rib) (b : UInt64) (m : FlexSliceConfig) : Prop :=
  ∀ ue ∈ uesOf r b, ∀ d : Direction,
    sliceOf d.other ue ≠ 0 → hasId (requested m d.other).slices (sliceOf d.other ue) →
    ¬ ChangesAlgorithm r b m d → sliceOf d ue ≠ 0 → hasId (current r b d).slices (sliceOf d ue) →
    hasId (requested m d).slices (sliceOf d ue)

instance (r : Rib) (b : UInt64) (m : FlexSliceConfig) : Decidable (ListsBoth r b m) :=
  inferInstanceAs (Decidable (∀ ue ∈ uesOf r b, ∀ d : Direction,
    sliceOf d.other ue ≠ 0 → hasId (requested m d.other).slices (sliceOf d.other ue) →
    ¬ ChangesAlgorithm r b m d → sliceOf d ue ≠ 0 → hasId (current r b d).slices (sliceOf d ue) →
    hasId (requested m d).slices (sliceOf d ue)))

/-! ### What is sent -/

section Change

theorem completeDirection_ok {request : Option FlexSliceDlUlConfig}
    {cur config : FlexSliceDlUlConfig} (h : completeDirection request cur = .ok config) :
    config.slices = (request.getD {}).slices ∧
      config.algorithm.getD .none =
        (request.getD {}).algorithm.getD (cur.algorithm.getD .none) := by
  have hverified : ∀ c : FlexSliceDlUlConfig,
      (if c.algorithm.getD .none = .static then
        verifyStaticSliceConfiguration c cur >>= fun _ => pure c else pure c) = .ok config →
      c = config := by
    intro c hc
    split at hc
    · obtain ⟨_, _, hc⟩ := bind_eq_ok_iff.mp hc
      exact Except.ok.inj hc
    · exact Except.ok.inj hc
  rw [completeDirection] at h
  dsimp only at h
  cases halgorithm : (request.getD {}).algorithm with
  | none =>
    rw [halgorithm, Option.isSome_none] at h
    rw [← hverified _ h]
    exact ⟨rfl, rfl⟩
  | some a =>
    rw [halgorithm, Option.isSome_some] at h
    have hconfig := hverified _ h
    rw [if_pos rfl] at hconfig
    rw [← hconfig, halgorithm]
    exact ⟨rfl, rfl⟩

variable {w : World (RrmManagement ρ)} {parse : String → Option FlexSliceConfig}
  {s policy : String} {b : UInt64} {bs : EnbRibInfo} {m : FlexSliceConfig}

theorem exec_requireBs (h : Resolves w.rib s b) : exec (requireBs s) w = (.ok b, w) := by
  rw [(silent_requireBs s).exec_eq, requireBs_eq_ok_iff.mpr h]

theorem uesOf_eq (hbs : w.rib.eNBConfigs[b]? = some bs) : uesOf w.rib b = bs.ueConfig.ueConfig := by
  rw [uesOf, Rib.Rib.getBs, hbs]
  rfl

/-- The messages of an accepted request that changes an algorithm. -/
theorem exec_applySliceConfigPolicy (h : AcceptedChange parse s policy w b m) :
    ∃ dl ul, dl.slices = (requested m .dl).slices ∧ ul.slices = (requested m .ul).slices ∧
      (exec (applySliceConfigPolicy parse s policy) w).2.effects =
        w.effects ++ sendToBs w.rib b
          { msgDir := some .initiatingMessage
            msg := .enbConfigReply
              { header := some reconfigurationHeader
                cellConfig := [{ sliceConfig := some { dl := some dl, ul := some ul } }] } } ++
        if uesOf w.rib b = [] then [] else sendToBs w.rib b
          { msgDir := some .initiatingMessage
            msg := .ueConfigReply
              { header := some reconfigurationHeader
                ueConfig := preservedAssociations dl ul (uesOf w.rib b) } } := by
  obtain ⟨bs, hbs⟩ := h.resolves.exists_bs
  have hreturned := h.returned
  revert hreturned
  rw [applySliceConfigPolicy, exec_bind_of_ok (exec_requireBs h.resolves), requireMessage,
    h.parsed, exec_bind_of_ok (exec_pure _ _)]
  rcases cellConfig_zero_cases hbs with ⟨hcell, -⟩ | ⟨cell, hcell, hfirst, -⟩
  · rw [exec_bind_of_error (exec_ofBs hbs |>.trans (by rw [hcell]))]
    exact fun hreturned => absurd hreturned (by simp)
  have hcellOf : cellOf w.rib b = cell := by simp [cellOf, Rib.Rib.getBs, hbs, hfirst]
  rw [exec_bind_of_ok (exec_ofBs hbs |>.trans (by rw [hcell]))]
  dsimp only
  cases hdl : completeDirection m.dl ((cell.sliceConfig.getD {}).dl.getD {}) with
  | error e =>
    rw [exec_bind_of_error (exec_lift_error _ _ _)]
    exact fun hreturned => absurd hreturned (by simp)
  | ok dl =>
  rw [exec_bind_of_ok (exec_lift_ok _ _ _)]
  cases hul : completeDirection m.ul ((cell.sliceConfig.getD {}).ul.getD {}) with
  | error e =>
    rw [exec_bind_of_error (exec_lift_error _ _ _)]
    exact fun hreturned => absurd hreturned (by simp)
  | ok ul =>
  rw [exec_bind_of_ok (exec_lift_ok _ _ _)]
  obtain ⟨hdlSlices, hdlAlgorithm⟩ := completeDirection_ok hdl
  obtain ⟨hulSlices, hulAlgorithm⟩ := completeDirection_ok hul
  -- one of the directions changes
  have hchange : (decide (((cell.sliceConfig.getD {}).dl.getD {}).algorithm.getD .none ≠
      dl.algorithm.getD .none) || decide (((cell.sliceConfig.getD {}).ul.getD {}).algorithm.getD
        .none ≠ ul.algorithm.getD .none)) = true := by
    rw [hdlAlgorithm, hulAlgorithm]
    obtain ⟨d, hd⟩ := h.changes
    rw [ChangesAlgorithm, requestedAlgorithm, currentAlgorithm, current, hcellOf] at hd
    cases d with
    | dl => exact Bool.or_eq_true_iff.mpr (.inl (decide_eq_true hd))
    | ul => exact Bool.or_eq_true_iff.mpr (.inr (decide_eq_true hd))
  generalize decide (((cell.sliceConfig.getD {}).dl.getD {}).algorithm.getD .none ≠
    dl.algorithm.getD .none) = dlChange at hchange ⊢
  generalize decide (((cell.sliceConfig.getD {}).ul.getD {}).algorithm.getD .none ≠
    ul.algorithm.getD .none) = ulChange at hchange ⊢
  have hsame : ¬ (!dlChange && !ulChange && dl.slices.isEmpty && ul.slices.isEmpty &&
      dl.scheduler.isNone && ul.scheduler.isNone) = true := by
    cases dlChange <;> cases ulChange <;> simp_all
  rw [if_neg hsame]
  by_cases hnone : dl.algorithm.getD .none = .none ∧ dl.slices ≠ [] ∨
      ul.algorithm.getD .none = .none ∧ ul.slices ≠ []
  · rw [exec_bind_of_error (exec_throwIf_pos hnone _ _)]
    exact fun hreturned => absurd hreturned (by simp)
  rw [exec_bind_of_ok (exec_throwIf_neg hnone _ _), pushCellConfigReconfiguration, pushCellConfig,
    exec_bind_of_ok (exec_sendMessage _ _ _)]
  have hlook : ∀ effects, exec (ofBs b fun bs => .ok bs.ueConfig.ueConfig)
      { w with effects := effects } = (.ok bs.ueConfig.ueConfig, { w with effects := effects }) :=
    fun _ => exec_ofBs hbs
  rw [exec_bind_of_ok (hlook _), hchange, Bool.not_true, Bool.false_or, uesOf_eq hbs]
  intro _
  refine ⟨dl, ul, hdlSlices, hulSlices, ?_⟩
  cases bs.ueConfig.ueConfig with
  | nil => simp
  | cons ue ues => simp [pushUeConfigReconfiguration]

/-- The entry of a UE. -/
theorem mem_preservedAssociations {dl ul : FlexSliceDlUlConfig} {ues : List FlexUeConfig}
    {c : FlexUeConfig} : c ∈ preservedAssociations dl ul ues ↔
      ∃ ue ∈ ues, (keptSlice dl.slices ue.dlSliceId ≠ 0 ∨ keptSlice ul.slices ue.ulSliceId ≠ 0) ∧
        c = { rnti := some (EnbRibInfo.rntiOf ue)
              dlSliceId := some (keptSlice dl.slices ue.dlSliceId)
              ulSliceId := some (keptSlice ul.slices ue.ulSliceId) } := by
  rw [preservedAssociations, List.mem_filterMap]
  refine exists_congr fun ue => and_congr_right fun _ => ?_
  dsimp only
  split
  next h => rw [and_iff_right h, Option.some.injEq, eq_comm]
  next h => exact iff_of_false (by simp) fun hc => h hc.1

end Change

section Preservation

variable {r : Rib} {b : UInt64} {m : FlexSliceConfig} {dl ul : FlexSliceDlUlConfig}

/-- The slice of a UE in a new configuration, by direction. -/
def kept (m : FlexSliceConfig) (d : Direction) (ue : FlexUeConfig) : UInt32 :=
  keptSlice (requested m d).slices (d.sliceId ue)

theorem kept_of_listed {d : Direction} {ue : FlexUeConfig}
    (h : hasId (requested m d).slices (sliceOf d ue)) : kept m d ue = sliceOf d ue := if_pos h

theorem kept_of_not_listed {d : Direction} {ue : FlexUeConfig}
    (h : ¬ hasId (requested m d).slices (sliceOf d ue)) : kept m d ue = 0 := if_neg h

/-- A message with the associations preserves them if the request lists both slices of each UE
that it lists one of. -/
theorem preserved_iff_listsBoth (hdistinct : (EnbRibInfo.rntis (uesOf r b)).Nodup)
    (reply : FlexUeConfigReply)
    (hreply : ∀ c, c ∈ reply.ueConfig ↔ ∃ ue ∈ uesOf r b, (kept m .dl ue ≠ 0 ∨ kept m .ul ue ≠ 0) ∧
        c = { rnti := some (EnbRibInfo.rntiOf ue)
              dlSliceId := some (kept m .dl ue), ulSliceId := some (kept m .ul ue) }) :
    (∀ c ∈ reply.ueConfig, ∀ ue ∈ uesOf r b, EnbRibInfo.rntiOf c = EnbRibInfo.rntiOf ue →
      ∀ d, StillExists r b m d (sliceOf d ue) →
        d.sliceId c = none ∨ d.sliceId c = some (sliceOf d ue)) ↔ ListsBoth r b m := by
  have hkept : ∀ (d : Direction) ue, d.sliceId
      { rnti := some (EnbRibInfo.rntiOf ue), dlSliceId := some (kept m .dl ue)
        ulSliceId := some (kept m .ul ue) } = some (kept m d ue) := by
    intro d ue
    cases d <;> rfl
  have hsent : ∀ (d : Direction) ue, (kept m .dl ue ≠ 0 ∨ kept m .ul ue ≠ 0) ↔
      (kept m d ue ≠ 0 ∨ kept m d.other ue ≠ 0) := by
    intro d ue
    cases d with
    | dl => exact Iff.rfl
    | ul => exact or_comm
  constructor
  · intro h ue hue d hother hlisted hsame hne hcurrent
    by_contra hnot
    -- the entry is sent because of the other direction, and resets this one
    have hentry := (hreply _).mpr ⟨ue, hue, (hsent d ue).mpr (.inr ?_), rfl⟩
    · have hmoved := h _ hentry ue hue rfl d (.inr ⟨hsame, hcurrent⟩)
      rw [hkept, kept_of_not_listed hnot] at hmoved
      rcases hmoved with hnone | hzero
      · exact absurd hnone (by simp)
      · exact hne (Option.some.inj hzero).symm
    · rw [kept_of_listed hlisted]
      exact hother
  · intro h c hc ue hue hrnti d hexists
    obtain ⟨ue', hue', hne, rfl⟩ := (hreply c).mp hc
    obtain rfl : ue' = ue := List.inj_on_of_nodup_map hdistinct hue' hue hrnti
    rw [hkept]
    refine .inr (congrArg some ?_)
    by_cases hlisted : hasId (requested m d).slices (sliceOf d ue')
    · exact kept_of_listed hlisted
    · obtain ⟨hsame, hcurrent⟩ := hexists.resolve_left hlisted
      rw [kept_of_not_listed hlisted]
      by_contra hzero
      have hother : kept m d.other ue' ≠ 0 :=
        ((hsent d ue').mp hne).resolve_left (not_not.mpr (kept_of_not_listed hlisted))
      by_cases hlistedOther : hasId (requested m d.other).slices (sliceOf d.other ue')
      · rw [kept_of_listed hlistedOther] at hother
        exact hlisted (h ue' hue d hother hlistedOther hsame (fun heq => hzero heq.symm) hcurrent)
      · exact hother (kept_of_not_listed hlistedOther)

end Preservation

section Sound

variable {w : World (RrmManagement ρ)} {parse : String → Option FlexSliceConfig}
  {s policy : String} {b : UInt64} {m : FlexSliceConfig}

theorem exists_memberOf (hinv : Rib.Inv w.rib) (h : Resolves w.rib s b) :
    ∃ x a, w.rib.MemberOf b x a := by
  obtain ⟨bs, hbs⟩ := h.exists_bs
  obtain ⟨x, a, ha⟩ := (hinv.baseStation b bs hbs).nonempty
  exact ⟨x, a, bs, hbs, ha⟩

theorem distinct_uesOf (hreach : Log.BsReachable w.rib) (h : Resolves w.rib s b) :
    (EnbRibInfo.rntis (uesOf w.rib b)).Nodup := by
  obtain ⟨bs, hbs⟩ := h.exists_bs
  rw [uesOf_eq hbs]
  exact (EnbRibInfo.ueInv_of_reachable (hreach b bs hbs)).distinct

theorem preserved_iff_of_sound (hinv : Rib.Inv w.rib) (hreach : Log.BsReachable w.rib)
    (h : AcceptedChange parse s policy w b m) :
    (∀ sent, (exec (applySliceConfigPolicy parse s policy) w).2.effects = w.effects ++ sent →
      Preserved w.rib b m sent) ↔ ListsBoth w.rib b m := by
  obtain ⟨dl, ul, hdl, hul, heffects⟩ := exec_applySliceConfigPolicy h
  rw [heffects, List.append_assoc]
  simp only [List.append_cancel_left_eq, forall_eq']
  by_cases hues : uesOf w.rib b = []
  · refine iff_of_true (fun id msg reply _ _ c _ ue hue => ?_) fun ue hue => ?_
    · exact absurd hue (by simp [hues])
    · exact absurd hue (by simp [hues])
  rw [if_neg hues, ← preserved_iff_listsBoth (distinct_uesOf hreach h.resolves)
    { header := some reconfigurationHeader
      ueConfig := preservedAssociations dl ul (uesOf w.rib b) }]
  · constructor
    · intro hpreserved
      obtain ⟨x, a, ha⟩ := exists_memberOf hinv h.resolves
      exact hpreserved a.agentId _ _
        (List.mem_append_right _ (mem_sendToBs.mpr ⟨x, a, ha, rfl⟩)) rfl
    · intro hreply id msg reply hmem hmsg
      rcases List.mem_append.mp hmem with hmem | hmem
      · obtain ⟨x, a, -, heq⟩ := mem_sendToBs.mp hmem
        obtain ⟨-, rfl⟩ := Effect.sendMsg.inj heq
        exact absurd hmsg (by simp)
      · obtain ⟨x, a, -, heq⟩ := mem_sendToBs.mp hmem
        obtain ⟨-, rfl⟩ := Effect.sendMsg.inj heq
        obtain rfl := FlexranBody.ueConfigReply.inj hmsg
        exact hreply
  · intro c
    rw [mem_preservedAssociations, hdl, hul]
    rfl

end Sound

/-- A change of the slices leaves the UEs in their slices exactly if it lists both slices of each
UE that it lists one of. -/
theorem preserved_iff {events : List Received} {r : Rib} (hrun : run receive {} events = .ok r)
    {app : RrmManagement ρ} {effects : List Effect} {parse : String → Option FlexSliceConfig}
    {s policy : String} {b : UInt64} {m : FlexSliceConfig}
    (h : AcceptedChange parse s policy ⟨r, app, effects⟩ b m) :
    (∀ sent, (exec (applySliceConfigPolicy parse s policy) ⟨r, app, effects⟩).2.effects =
      effects ++ sent → Preserved r b m sent) ↔ ListsBoth r b m :=
  preserved_iff_of_sound (run_receive_sound hrun).1 (run_receive_sound hrun).2 h

/-- Slice 1 in the downlink and slice 2 in the uplink. -/
def oneSliceEach : FlexSliceConfig where
  dl := some { algorithm := some .static, slices := [{ id := some 1 }] }
  ul := some { algorithm := some .static, slices := [{ id := some 2 }] }

/-- A UE of base station 1 belongs to these slices. -/
def oneUe : List Received :=
  [{ agentId := 0, msg := ⟨some .successfulOutcome, .hello { bsId := some 1 }⟩ },
    { agentId := 0
      msg := ⟨none, .enbConfigReply { cellConfig := [{ sliceConfig := some oneSliceEach }] }⟩ },
    { agentId := 0
      msg := ⟨none, .ueStateChange
        { type := some EnbRibInfo.fluescActivated
          config := some { rnti := some 7, dlSliceId := some 1, ulSliceId := some 2 } }⟩ }]

/-- Another algorithm for the uplink, with the slices of the uplink only. -/
def uplinkOnly : FlexSliceConfig where
  ul := some { algorithm := some .nvs, slices := [{ id := some 2 }] }

/-- Another algorithm for the uplink, with all slices. -/
def bothListed : FlexSliceConfig where
  dl := some { slices := [{ id := some 1, label := some "one" }] }
  ul := some { algorithm := some .nvs, slices := [{ id := some 2 }] }

theorem preserved_bothListed : ∃ r, run receive {} oneUe = .ok r ∧
    ∀ sent, (exec (applySliceConfigPolicy (fun _ => some bothListed) "1" "")
      (⟨r, {}, []⟩ : World (RrmManagement String))).2.effects = [] ++ sent →
        Preserved r 1 bothListed sent := by
  have hfacts : (run receive {} oneUe).map (fun r => decide (
      r.parseBsId "1" = .ok 1 ∧ (exec (applySliceConfigPolicy (fun _ => some bothListed) "1" "")
        (⟨r, {}, []⟩ : World (RrmManagement String))).1 = .ok () ∧
      ChangesAlgorithm r 1 bothListed .ul ∧ ListsBoth r 1 bothListed)) = .ok true := by
    decide +kernel
  obtain ⟨r, hrun, hparse, hreturned, hchanges, hlists⟩ := exists_ok_of_decide hfacts
  exact ⟨r, hrun, (preserved_iff hrun
    ⟨⟨hparse, by decide⟩, rfl, hreturned, .ul, hchanges⟩).mpr hlists⟩

/-- The UE is moved to slice 0 in the downlink. -/
theorem not_preserved_uplinkOnly : ∃ r, run receive {} oneUe = .ok r ∧
    AcceptedChange (fun _ => some uplinkOnly) "1" ""
      (⟨r, {}, []⟩ : World (RrmManagement String)) 1 uplinkOnly ∧
    ¬ ∀ sent, (exec (applySliceConfigPolicy (fun _ => some uplinkOnly) "1" "")
      (⟨r, {}, []⟩ : World (RrmManagement String))).2.effects = [] ++ sent →
        Preserved r 1 uplinkOnly sent := by
  have hfacts : (run receive {} oneUe).map (fun r => decide (
      r.parseBsId "1" = .ok 1 ∧ (exec (applySliceConfigPolicy (fun _ => some uplinkOnly) "1" "")
        (⟨r, {}, []⟩ : World (RrmManagement String))).1 = .ok () ∧
      ChangesAlgorithm r 1 uplinkOnly .ul ∧ ¬ ListsBoth r 1 uplinkOnly)) = .ok true := by
    decide +kernel
  obtain ⟨r, hrun, hparse, hreturned, hchanges, hlists⟩ := exists_ok_of_decide hfacts
  have haccepted : AcceptedChange (fun _ => some uplinkOnly) "1" ""
      (⟨r, {}, []⟩ : World (RrmManagement String)) 1 uplinkOnly :=
    ⟨⟨hparse, by decide⟩, rfl, hreturned, .ul, hchanges⟩
  obtain ⟨hinv, hreach⟩ := run_receive_sound hrun
  exact ⟨r, hrun, haccepted, mt (preserved_iff_of_sound hinv hreach haccepted).mp hlists⟩

/-! ## Changes of the slices of UEs -/

/-- The message with the entries that have been checked. -/
def associationMessage (m : FlexUeConfigReply) (ues : List FlexUeConfig) : FlexranMessage where
  msgDir := some .initiatingMessage
  msg := .ueConfigReply { m with header := some reconfigurationHeader, ueConfig := ues }

/-- The entry of the request, with an RNTI if it only has an IMSI. -/
def FilledIn (c c' : FlexUeConfig) : Prop :=
  c' = c ∨ c.rnti = none ∧ c.imsi.isSome ∧ ∃ rnti, c' = { c with rnti := some rnti }

/-- The entry is for a UE of the base station and for slices that exist. -/
structure ValidEntry (r : Rib) (b : UInt64) (c : FlexUeConfig) : Prop where
  ue : ∃ ue ∈ uesOf r b, c.rnti = some (EnbRibInfo.rntiOf ue) ∧
    ∀ imsi, c.imsi = some imsi → ue.imsi = some imsi
  direction : ∃ d : Direction, (d.sliceId c).isSome
  slices : ∀ (d : Direction) id, d.sliceId c = some id → hasId (current r b d).slices id

/-- A request that returns has sent one message to each agent of the base station, the same to all
of them and with valid entries only; one that does not return has sent nothing. -/
inductive AllOrNothing (parse : String → Option FlexUeConfigReply) (s policy : String)
    (w : World (RrmManagement ρ)) : Except Abort Unit × World (RrmManagement ρ) → Prop
  | all (b : UInt64) (bs : EnbRibInfo) (m : FlexUeConfigReply) (ues : List FlexUeConfig)
      (hresolves : Resolves w.rib s b) (hbs : w.rib.eNBConfigs[b]? = some bs)
      (hagent : ∃ x a, w.rib.MemberOf b x a) (hparsed : parse policy = some m)
      (hfilled : List.Forall₂ FilledIn m.ueConfig ues) (hvalid : ∀ c ∈ ues, ValidEntry w.rib b c) :
      AllOrNothing parse s policy w
        (.ok (), { w with
          effects := w.effects ++ bs.agents.toList.map fun a =>
            .sendMsg a.2.agentId (associationMessage m ues) })
  | nothing (e : Abort) : AllOrNothing parse s policy w (.error e, w)

section Association

variable {w : World (RrmManagement ρ)} {b : UInt64} {bs : EnbRibInfo} {c c' : FlexUeConfig}

theorem hasId_of_requireSlice (hbs : w.rib.eNBConfigs[b]? = some bs) {d : Direction}
    {name : String} {id : UInt32}
    (h : (exec (requireSlice b (EnbRibInfo.hasSlice d.config) name (some id)) w).1 = .ok ()) :
    hasId (current w.rib b d).slices id := by
  rw [requireSlice, (silent_ofBs b _).exec_bind_ok_iff, exec_ofBs hbs] at h
  obtain ⟨found, hfound, hthrow⟩ := h
  have htrue : found = true := by
    by_contra hfalse
    rw [exec_throwIf_pos (Bool.eq_false_of_not_eq_true hfalse)] at hthrow
    exact absurd hthrow (by simp)
  rw [htrue, EnbRibInfo.hasSlice] at hfound
  rcases cellConfig_zero_cases hbs with ⟨hcell, -⟩ | ⟨cell, hcell, hfirst, -⟩
  · rw [hcell] at hfound
    exact absurd hfound (by simp [bind, Except.bind])
  · have hcellOf : cellOf w.rib b = cell := by simp [cellOf, Rib.Rib.getBs, hbs, hfirst]
    rw [hcell] at hfound
    rw [current, hcellOf]
    cases hconfig : cell.sliceConfig with
    | none => simp [bind, Except.bind, pure, Except.pure, hconfig] at hfound
    | some config =>
      cases hd : d.config config with
      | none => simp [bind, Except.bind, pure, Except.pure, hconfig, hd] at hfound
      | some slices =>
        simp only [bind, Except.bind, pure, Except.pure, hconfig, hd, Option.bind_some,
          Except.ok.injEq] at hfound
        rw [Option.getD_some, hd, Option.getD_some]
        exact hfound

theorem verifyRntiImsi_ok (hinv : EnbRibInfo.UeInv bs) (hverify : verifyUeSliceAssocMsg c = .ok ())
    (h : verifyRntiImsi bs c = .ok c') :
    FilledIn c c' ∧ ∃ ue ∈ bs.ueConfig.ueConfig, c'.rnti = some (EnbRibInfo.rntiOf ue) ∧
      ∀ imsi, c'.imsi = some imsi → ue.imsi = some imsi := by
  rw [verifyRntiImsi] at h
  split at h
  · exact absurd h (by simp)
  rename_i hknown
  cases himsi : c.imsi with
  | none =>
    -- the RNTI is known, and there is nothing to compare it with
    rw [himsi] at h
    obtain rfl := Except.ok.inj h
    rw [verifyUeSliceAssocMsg, himsi] at hverify
    cases hrnti : c.rnti with
    | none => simp [hrnti] at hverify
    | some rnti =>
      rw [hrnti] at hknown
      have hmem : rnti ∈ bs.ueMacInfo := by
        by_contra hnot
        refine hknown ⟨rfl, ?_⟩
        rw [Option.getD_some, EnbRibInfo.getUeMacInfo, Std.ExtTreeMap.getElem?_eq_none hnot]
        rfl
      obtain ⟨ue, hue, heq⟩ := List.mem_map.mp ((hinv.keys rnti).mpr hmem)
      exact ⟨.inl rfl, ue, hue, congrArg some heq.symm, by simp [himsi]⟩
  | some imsi =>
    rw [himsi] at h
    dsimp only at h
    cases hget : bs.getRnti imsi with
    | none =>
      rw [hget] at h
      exact absurd h (by simp)
    | some rnti =>
      rw [hget] at h
      dsimp only at h
      split_ifs at h with hzero hmismatch
      rw [← himsi] at h
      obtain rfl := Except.ok.inj h
      obtain ⟨ue, hfind, rfl⟩ := Option.map_eq_some_iff.mp hget
      have hue : ue ∈ bs.ueConfig.ueConfig := List.mem_of_find?_eq_some hfind
      have hsame : ue.imsi = some imsi :=
        beq_iff_eq.mp (List.find?_some (p := fun c : FlexUeConfig => c.imsi == some imsi) hfind)
      refine ⟨?_, ue, hue, rfl, fun imsi' himsi' => ?_⟩
      · cases hrnti : c.rnti with
        | none => exact .inr ⟨hrnti, by simp [himsi], _, rfl⟩
        | some rnti =>
          have hsameRnti : c.rnti = some (EnbRibInfo.rntiOf ue) := by
            by_contra hne
            exact hmismatch ⟨by rw [hrnti]; rfl, hne⟩
          exact .inl (by rw [← hsameRnti])
      · exact hsame.trans (himsi.symm.trans himsi')

/-- The first loop has found the slices of the entry. -/
theorem checkUeEntry_ok (hbs : w.rib.eNBConfigs[b]? = some bs) {i : ℕ}
    (h : (exec (checkUeEntry b (c, i)) w).1 = .ok ()) :
    verifyUeSliceAssocMsg c = .ok () ∧
      ∀ (d : Direction) id, d.sliceId c = some id → hasId (current w.rib b d).slices id := by
  rw [checkUeEntry, (Silent.lift _ _).exec_bind_ok_iff] at h
  obtain ⟨_, hverify, h⟩ := h
  obtain ⟨_, hdl, hul⟩ := (silent_requireSlice b _ _ _).exec_bind_ok_iff.mp h
  refine ⟨?_, fun d id hid => ?_⟩
  · cases hresult : verifyUeSliceAssocMsg c with
    | error e =>
      rw [hresult] at hverify
      exact absurd hverify (by simp)
    | ok _ => rfl
  · cases d with
    | dl =>
      rw [show c.dlSliceId = some id from hid] at hdl
      exact hasId_of_requireSlice (d := .dl) hbs hdl
    | ul =>
      rw [show c.ulSliceId = some id from hid] at hul
      exact hasId_of_requireSlice (d := .ul) hbs hul

theorem resolveUeEntry_ok (hbs : w.rib.eNBConfigs[b]? = some bs) {i : ℕ}
    (h : (exec (resolveUeEntry b (c, i)) w).1 = .ok c') : verifyRntiImsi bs c = .ok c' := by
  have hlook : exec (ofBs b fun bs => .ok (verifyRntiImsi bs c)) w =
      (.ok (verifyRntiImsi bs c), w) := exec_ofBs hbs
  rw [resolveUeEntry, exec_bind_of_ok hlook] at h
  cases hresult : verifyRntiImsi bs c with
  | error e =>
    rw [hresult] at h
    exact absurd h (by simp)
  | ok resolved =>
    rw [hresult] at h
    exact congrArg Except.ok (Except.ok.inj h)

/-- An entry that both loops have let pass. -/
theorem validEntry_of_ok (hbs : w.rib.eNBConfigs[b]? = some bs) (hinv : EnbRibInfo.UeInv bs)
    {i j : ℕ} (hcheck : (exec (checkUeEntry b (c, i)) w).1 = .ok ())
    (hresolve : (exec (resolveUeEntry b (c, j)) w).1 = .ok c') :
    FilledIn c c' ∧ ValidEntry w.rib b c' := by
  obtain ⟨hverify, hslices⟩ := checkUeEntry_ok hbs hcheck
  obtain ⟨hfilled, hue⟩ := verifyRntiImsi_ok hinv hverify (resolveUeEntry_ok hbs hresolve)
  have hsame : ∀ d : Direction, d.sliceId c' = d.sliceId c := by
    intro d
    rcases hfilled with rfl | ⟨-, -, rnti, rfl⟩
    · rfl
    · cases d <;> rfl
  refine ⟨hfilled, ?_, ?_, fun d id hid => hslices d id ((hsame d).symm.trans hid)⟩
  · rw [uesOf_eq hbs]
    exact hue
  · rcases slice_of_verifyUeSliceAssocMsg hverify with hdl | hul
    · exact ⟨.dl, by rw [hsame]; exact hdl⟩
    · exact ⟨.ul, by rw [hsame]; exact hul⟩

end Association

/-- A change of associations is sent as a whole, with valid entries only, or not at all. -/
theorem changeUeSliceAssociation_allOrNothing {events : List Received} {r : Rib}
    (hrun : run receive {} events = .ok r) (app : RrmManagement ρ) (effects : List Effect)
    (parse : String → Option FlexUeConfigReply) (s policy : String) :
    AllOrNothing parse s policy ⟨r, app, effects⟩
      (exec (changeUeSliceAssociation parse s policy) ⟨r, app, effects⟩) := by
  obtain ⟨hinv, hreach⟩ := run_receive_sound hrun
  rw [changeUeSliceAssociation]
  -- the request is parsed
  rcases (silent_requireBs s).exec_bind_cases _ _ with ⟨e, he⟩ | ⟨b, hb, hexec⟩
  · exact he ▸ .nothing e
  rw [hexec]
  rcases (silent_requireMessage parse policy).exec_bind_cases _ _ with ⟨e, he⟩ | ⟨m, hm, hexec⟩
  · exact he ▸ .nothing e
  rw [hexec]
  rcases (Silent.throwIf (m.ueConfig = []) _).exec_bind_cases _ _ with ⟨e, he⟩ | ⟨_, -, hexec⟩
  · exact he ▸ .nothing e
  rw [hexec]
  -- the two loops
  rcases (Silent.forM (silent_checkUeEntry b) _).exec_bind_cases _ _ with
    ⟨e, he⟩ | ⟨_, hcheck, hexec⟩
  · exact he ▸ .nothing e
  rw [hexec]
  rcases (Silent.mapM (silent_resolveUeEntry b) _).exec_bind_cases _ _ with
    ⟨e, he⟩ | ⟨ues, hresolve, hexec⟩
  · exact he ▸ .nothing e
  have hresolves : Resolves r s b := requireBs_eq_ok_iff.mp hb
  obtain ⟨bs, hbs⟩ := hresolves.exists_bs
  rw [hexec, pushUeConfigReconfiguration, exec_sendMessage, sendToBs_eq hbs]
  have hue := EnbRibInfo.ueInv_of_reachable (hreach b bs hbs)
  have hentries := (exec_mapM_ok_iff (silent_resolveUeEntry b)).mp hresolve
  have hchecked := (exec_forM_ok_iff (silent_checkUeEntry b)).mp hcheck
  have hvalid : List.Forall₂ (fun c c' => FilledIn c c' ∧ ValidEntry r b c') m.ueConfig ues := by
    rw [← List.zipIdx_map_fst 0 m.ueConfig, List.forall₂_map_left_iff]
    refine ((List.forall₂_and_left _ _).mpr ⟨hchecked, hentries⟩).imp ?_
    exact fun e c' h => validEntry_of_ok hbs hue h.1 h.2
  refine .all b bs m ues hresolves hbs (exists_memberOf hinv hresolves)
    (requireMessage_eq_ok_iff.mp hm) (hvalid.imp fun _ _ h => h.1) ?_
  have hflipped : List.Forall₂ (fun c' _ => ValidEntry r b c' ∧ True) ues m.ueConfig :=
    (hvalid.imp fun _ _ h => ⟨h.2, trivial⟩).flip
  exact ((List.forall₂_and_left _ _).mp hflipped).1

/-- The UE is moved to slice 1 in the downlink. -/
def moveUe : FlexUeConfigReply where
  ueConfig := [{ rnti := some 7, dlSliceId := some 1 }]

theorem allOrNothing_moveUe : ∃ r, run receive {} oneUe = .ok r ∧
    (exec (changeUeSliceAssociation (fun _ => some moveUe) "1" "")
      (⟨r, {}, []⟩ : World (RrmManagement String))).1 = .ok () ∧
    AllOrNothing (fun _ => some moveUe) "1" "" (⟨r, {}, []⟩ : World (RrmManagement String))
      (exec (changeUeSliceAssociation (fun _ => some moveUe) "1" "") ⟨r, {}, []⟩) := by
  have hreturned : (run receive {} oneUe).map (fun r => decide (
      (exec (changeUeSliceAssociation (fun _ => some moveUe) "1" "")
        (⟨r, {}, []⟩ : World (RrmManagement String))).1 = .ok ())) = .ok true := by
    decide +kernel
  obtain ⟨r, hrun, hreturned⟩ := exists_ok_of_decide hreturned
  exact ⟨r, hrun, hreturned,
    changeUeSliceAssociation_allOrNothing hrun {} [] (fun _ => some moveUe) "1" ""⟩

end FlexRan.App.Rrm
