import FlexRan.Rib.UeUpdates

/-!
# Polling the configuration

The controller asks every base station for its configuration once a second.  An agent whose
configuration has not changed answers with the message it has sent before, and applying it again
should change nothing.  Repeated fields are the ones at risk: they are cleared before they are
merged where `clear_repeated_if_present` sees them, but not within the SI configuration of a cell
and the SPS configuration of a UE, which grow with each answer.

## Main definitions

* `RepeatableENB`, `RepeatableUE`: the messages that may be applied again.
* `polling_iff`: they are exactly the ones that change nothing when they are.
* `siMessages_poll`: the growth of a cell.
-/
namespace FlexRan.Rib

open Lib Lib.Message Protocol

/-! ## Cells -/

theorem replaceRepeated_twice {α : Type} (dst src : List α) :
    replaceRepeated (replaceRepeated dst src) src = replaceRepeated dst src := by
  by_cases h : src = [] <;> simp [replaceRepeated, h]

/-- No cell of the update that is merged into a stored one has SI messages. If there are no stored
cells, those of the first update are there when the second comes, which then sets S1AP as well. -/
structure RepeatableENB (stored update : FlexEnbConfigReply) : Prop where
  siMessage : ∀ (i : ℕ) s, update.cellConfig[i]? = some s →
    stored.cellConfig = [] ∨ i < stored.cellConfig.length → siMessages s = []
  s1ap : stored.cellConfig = [] → update.cellConfig ≠ [] → update.s1ap ≠ none

namespace EnbRibInfo

theorem siMessages_mergeMessage (dst src : Option FlexSiConfig) :
    ((mergeMessage dst src).getD defaultInstance).siMessage =
      mergeRepeated (dst.getD defaultInstance).siMessage
        (src.getD defaultInstance).siMessage := by
  cases src with
  | none => exact (mergeRepeated_nil _).symm
  | some s => rfl

theorem siMessages_mergeCellConfig (d s : FlexCellConfig) :
    siMessages (mergeCellConfig d s) = siMessages d ++ siMessages s := by
  rw [siMessages, mergeCellConfig_eq]
  exact siMessages_mergeMessage d.siConfig s.siConfig

/-- A cell stays the same when it is merged again, but for its SI messages. -/
theorem mergeCellConfig_twice_iff (d s : FlexCellConfig) :
    mergeCellConfig (mergeCellConfig d s) s = mergeCellConfig d s ↔ siMessages s = [] := by
  constructor
  · intro h
    have hsi := congrArg siMessages h
    rwa [siMessages_mergeCellConfig, List.append_right_eq_self] at hsi
  · intro h
    have hsi : mergeMessage (mergeMessage d.siConfig s.siConfig) s.siConfig =
        mergeMessage d.siConfig s.siConfig := by
      cases hs : s.siConfig with
      | none => rfl
      | some si =>
        have hnil : si.siMessage = [] := by simpa [siMessages, hs] using h
        refine congrArg some (FlexSiConfig.ext (mergeFrom_twice _ si.scalar) ?_)
        exact mergeRepeated_twice_iff.mpr hnil
    simp only [mergeCellConfig_eq, mergeFrom_twice, mergeScalar_twice, replaceRepeated_twice, hsi]
    cases s.sliceConfig <;> rfl

/-- Merging into an empty cell. -/
theorem mergeCellConfig_empty (s : FlexCellConfig) : mergeCellConfig {} s = s := by
  rw [mergeCellConfig_eq]
  ext1
  · exact mergeFrom_defaultInstance s.scalar
  · exact mergeFrom_defaultInstance s.power
  · exact none_mergeScalar _
  · funext f
    by_cases h : s.mbsfn f = [] <;> simp [replaceRepeated, h]
  · by_cases h : s.plmnId = [] <;> simp [replaceRepeated, h]
  · exact none_mergeMessage _
  · exact Option.or_none

theorem getElem?_mergeCellConfigs (ds ss : List FlexCellConfig) (i : ℕ) :
    (mergeCellConfigs ds ss)[i]? =
      ds[i]?.map fun d => ss[i]?.elim d (mergeCellConfig d) := by
  induction ds generalizing ss i with
  | nil => rfl
  | cons d ds ih =>
    cases ss with
    | nil => cases h : (d :: ds)[i]? <;> simp [mergeCellConfigs, h]
    | cons s ss =>
      cases i with
      | zero => rfl
      | succ i => simpa [mergeCellConfigs] using ih ss i

/-- Merging the same cells again changes nothing exactly if those that are merged have no SI
messages. -/
theorem mergeCellConfigs_twice_iff (ds ss : List FlexCellConfig) :
    mergeCellConfigs (mergeCellConfigs ds ss) ss = mergeCellConfigs ds ss ↔
      ∀ (i : ℕ) s, ss[i]? = some s → i < ds.length → siMessages s = [] := by
  rw [List.ext_getElem?_iff]
  simp only [getElem?_mergeCellConfigs]
  refine forall_congr' fun i => ?_
  cases hd : ds[i]? with
  | none =>
    refine iff_of_true rfl fun s _ hlt => ?_
    exact absurd hlt (Nat.not_lt.mpr (List.getElem?_eq_none_iff.mp hd))
  | some d =>
    obtain ⟨hlt, -⟩ := List.getElem?_eq_some_iff.mp hd
    cases hs : ss[i]? with
    | none => simp
    | some s => simpa [hlt] using mergeCellConfig_twice_iff d s

theorem mergeCellConfigs_self_iff (ss : List FlexCellConfig) :
    mergeCellConfigs ss ss = ss ↔ ∀ (i : ℕ) s, ss[i]? = some s → siMessages s = [] := by
  -- the cells are the update of empty ones
  have hempty : mergeCellConfigs (List.replicate ss.length {}) ss = ss := by
    rw [mergeCellConfigs_eq_zipWith _ _ (List.length_replicate).symm]
    induction ss with
    | nil => rfl
    | cons s ss ih =>
      rw [List.length_cons, List.replicate_succ, List.zipWith_cons_cons, ih, mergeCellConfig_empty]
  have htwice := mergeCellConfigs_twice_iff (List.replicate ss.length {}) ss
  rw [hempty] at htwice
  rw [htwice]
  refine forall₂_congr fun i s => forall_congr' fun hs => ?_
  obtain ⟨hlt, -⟩ := List.getElem?_eq_some_iff.mp hs
  simp [hlt]

/-! ## Base stations -/

variable {bs : EnbRibInfo} {u : FlexEnbConfigReply}

theorem eNBConfig_updateENBConfig_of_empty (h : bs.eNBConfig.cellConfig = [])
    (u : FlexEnbConfigReply) : (bs.updateENBConfig u).eNBConfig = u := by
  rw [updateENBConfig, if_pos (by simpa using h)]

theorem eNBConfig_updateENBConfig_of_cells (h : bs.eNBConfig.cellConfig ≠ [])
    (u : FlexEnbConfigReply) : (bs.updateENBConfig u).eNBConfig =
      { bs.eNBConfig with
        cellConfig := mergeCellConfigs bs.eNBConfig.cellConfig u.cellConfig
        s1ap := some (u.s1ap.getD defaultInstance)
        loadedApps := u.loadedApps
        loadedMacObjects := u.loadedMacObjects } := by
  rw [updateENBConfig, if_neg (by simpa using h)]

theorem length_mergeCellConfigs (ds ss : List FlexCellConfig) :
    (mergeCellConfigs ds ss).length = ds.length := by
  induction ds generalizing ss with
  | nil => rfl
  | cons d ds ih =>
    cases ss with
    | nil => rfl
    | cons s ss => exact congrArg (· + 1) (ih ss)

theorem updateENBConfig_twice_iff (bs : EnbRibInfo) (u : FlexEnbConfigReply) :
    ((bs.updateENBConfig u).updateENBConfig u).eNBConfig = (bs.updateENBConfig u).eNBConfig ↔
      RepeatableENB bs.eNBConfig u := by
  by_cases hcells : bs.eNBConfig.cellConfig = []
  · -- the first update is copied, the second one is merged into it
    have hfirst := eNBConfig_updateENBConfig_of_empty hcells u
    by_cases hu : u.cellConfig = []
    · rw [eNBConfig_updateENBConfig_of_empty (by rw [hfirst, hu]), hfirst]
      exact iff_of_true rfl ⟨fun i s hs => by simp [hu] at hs, fun _ hne => absurd hu hne⟩
    · rw [eNBConfig_updateENBConfig_of_cells (by rwa [hfirst]), hfirst]
      have hs1ap : some (u.s1ap.getD defaultInstance) = u.s1ap ↔ u.s1ap ≠ none := by
        cases u.s1ap <;> simp
      constructor
      · intro h
        have hself := congrArg FlexEnbConfigReply.cellConfig h
        exact ⟨fun i s hs _ => (mergeCellConfigs_self_iff _).mp hself i s hs,
          fun _ _ => hs1ap.mp (congrArg FlexEnbConfigReply.s1ap h)⟩
      · intro h
        have hself := (mergeCellConfigs_self_iff u.cellConfig).mpr fun i s hs =>
          h.siMessage i s hs (.inl hcells)
        rw [hself, hs1ap.mpr (h.s1ap hcells hu)]
  · have hfirst := eNBConfig_updateENBConfig_of_cells hcells u
    have hcells' : (bs.updateENBConfig u).eNBConfig.cellConfig ≠ [] := by
      rw [hfirst, ← List.length_pos_iff, length_mergeCellConfigs, List.length_pos_iff]
      exact hcells
    rw [eNBConfig_updateENBConfig_of_cells hcells' u, hfirst]
    constructor
    · intro h
      have htwice := congrArg FlexEnbConfigReply.cellConfig h
      exact ⟨fun i s hs hlt => (mergeCellConfigs_twice_iff _ _).mp htwice i s hs
        (hlt.resolve_left hcells), fun hnil => absurd hnil hcells⟩
    · intro h
      have htwice := (mergeCellConfigs_twice_iff bs.eNBConfig.cellConfig u.cellConfig).mpr
        fun i s hs hlt => h.siMessage i s hs (.inr hlt)
      rw [htwice]

/-! ## UEs -/

/-- The list in the SPS configuration of a UE. -/
def spsElements (c : FlexUeConfig) : List UInt32 :=
  (c.spsConfig.getD defaultInstance).n1PUCCHANPersistentElement

/-- No entry for a known UE has such a list. -/
def RepeatableUE (stored : List FlexUeConfig) (update : FlexUeConfigReply) : Prop :=
  ∀ s ∈ update.ueConfig, rntiOf s ∈ rntis stored → spsElements s = []

theorem replaceInfo_twice (dst : Option FlexMeasurementInfo) (src : FlexMeasurementInfo) :
    replaceInfo (some (replaceInfo dst src)) src = replaceInfo dst src := by
  ext1
  · exact mergeFrom_twice _ src.scalar
  · exact replaceRepeated_twice _ _
  · exact mergeMessage_twice _ _

theorem spsElements_mergeUeConfig (d s : FlexUeConfig) :
    spsElements (mergeUeConfig d s) = spsElements d ++ spsElements s := by
  rw [spsElements, spsElements, spsElements, mergeUeConfig_eq]
  cases hs : s.spsConfig with
  | none => simp [mergeFrom, hs, defaultInstance]
  | some sps => simp [mergeFrom, hs, mergeMessage, mergeRepeated]

/-- A UE stays the same when it is merged again, but for its SPS configuration. -/
theorem mergeUeConfig_twice_iff (d s : FlexUeConfig) :
    mergeUeConfig (mergeUeConfig d s) s = mergeUeConfig d s ↔ spsElements s = [] := by
  constructor
  · intro h
    have hsps := congrArg spsElements h
    rwa [spsElements_mergeUeConfig, List.append_right_eq_self] at hsps
  · intro h
    have hsps : mergeMessage (mergeMessage d.spsConfig s.spsConfig) s.spsConfig =
        mergeMessage d.spsConfig s.spsConfig := by
      cases hs : s.spsConfig with
      | none => rfl
      | some sps =>
        have hnil : sps.n1PUCCHANPersistentElement = [] := by simpa [spsElements, hs] using h
        refine congrArg some (FlexSpsConfig.ext (mergeFrom_twice _ sps.scalar) ?_)
        exact mergeRepeated_twice_iff.mpr hnil
    have hinfo : (mergeUeConfig (mergeUeConfig d s) s).info = (mergeUeConfig d s).info := by
      rw [mergeUeConfig_eq, mergeUeConfig_eq]
      cases s.info with
      | none => rfl
      | some info => exact congrArg some (replaceInfo_twice d.info info)
    ext1
    case rnti => simp only [mergeUeConfig_eq, mergeFrom, mergeScalar_twice]
    case imsi => simp only [mergeUeConfig_eq, mergeFrom, mergeScalar_twice]
    case dlSliceId => simp only [mergeUeConfig_eq, mergeFrom, mergeScalar_twice]
    case ulSliceId => simp only [mergeUeConfig_eq, mergeFrom, mergeScalar_twice]
    case spsConfig =>
      simp only [mergeUeConfig_eq]
      exact hsps
    case scellConfig => simp only [mergeUeConfig_eq, replaceRepeated_twice]
    case info => exact hinfo
    case scalar =>
      simp only [mergeUeConfig_eq]
      exact mergeFrom_twice d.scalar s.scalar
    case bitrate =>
      simp only [mergeUeConfig_eq]
      exact mergeFrom_twice d.bitrate s.bitrate
    all_goals
      simp only [mergeUeConfig_eq]
      exact mergeMessage_twice _ _

theorem updateUEConfig_twice_iff (hreach : Reachable bs) {v : FlexUeConfigReply}
    (hv : (rntis v.ueConfig).Nodup) :
    ((bs.updateUEConfig v).updateUEConfig v).ueConfig = (bs.updateUEConfig v).ueConfig ↔
      RepeatableUE bs.ueConfig.ueConfig v := by
  have hkeeps : ∀ dst src, rntiOf dst = rntiOf src →
      rntiOf (mergeUeConfig dst src) = rntiOf dst := fun _ _ => rntiOf_mergeUeConfig
  have htwice := foldl_mergeFirst_twice_iff hkeeps hv (ueInv_of_reachable hreach).distinct
  have hlists : ((bs.updateUEConfig v).updateUEConfig v).ueConfig = (bs.updateUEConfig v).ueConfig ↔
      v.ueConfig.foldl mergeUeEntry (v.ueConfig.foldl mergeUeEntry bs.ueConfig.ueConfig) =
        v.ueConfig.foldl mergeUeEntry bs.ueConfig.ueConfig := by
    constructor
    · exact congrArg FlexUeConfigReply.ueConfig
    · intro h
      simp only [updateUEConfig, h]
  rw [hlists]
  refine htwice.trans ?_
  simp only [mergeUeConfig_twice_iff]
  constructor
  · intro h s hs hmem
    obtain ⟨d, hd, hkey⟩ := List.mem_map.mp hmem
    exact h d hd s hs hkey.symm
  · intro h d hd s hs hkey
    exact h s hs (hkey ▸ List.mem_map_of_mem hd)

/-! ## Many polls -/

/-- An update changes the configuration only. -/
theorem updateENBConfig_eq (bs : EnbRibInfo) (u : FlexEnbConfigReply) :
    bs.updateENBConfig u = { bs with eNBConfig := (bs.updateENBConfig u).eNBConfig } := by
  rw [updateENBConfig]
  split <;> rfl

/-- A repeatable answer changes nothing however often it comes. -/
theorem poll_of_repeatable (h : RepeatableENB bs.eNBConfig u) (n : ℕ) :
    (fun bs => updateENBConfig bs u)^[n + 1] bs = bs.updateENBConfig u := by
  have htwice := (updateENBConfig_twice_iff bs u).mpr h
  rw [Function.iterate_succ_apply]
  apply Function.iterate_fixed
  rw [updateENBConfig_eq, htwice]

/-- An answer adds its SI messages to those of a stored cell each time it comes. -/
theorem siMessages_poll {i : ℕ} {d s : FlexCellConfig} (hd : bs.eNBConfig.cellConfig[i]? = some d)
    (hs : u.cellConfig[i]? = some s) (n : ℕ) :
    ∃ c, ((fun bs => updateENBConfig bs u)^[n] bs).eNBConfig.cellConfig[i]? = some c ∧
      siMessages c = siMessages d ++ (List.replicate n (siMessages s)).flatten := by
  induction n with
  | zero => exact ⟨d, hd, by simp⟩
  | succ n ih =>
    obtain ⟨c, hc, hsi⟩ := ih
    rw [Function.iterate_succ_apply']
    generalize (fun bs => updateENBConfig bs u)^[n] bs = bs' at hc ⊢
    have hcells : bs'.eNBConfig.cellConfig ≠ [] := by
      rintro hnil
      simp [hnil] at hc
    refine ⟨mergeCellConfig c s, ?_, ?_⟩
    · rw [eNBConfig_updateENBConfig_of_cells hcells, getElem?_mergeCellConfigs, hc, hs]
      rfl
    · rw [siMessages_mergeCellConfig, hsi, List.replicate_succ', List.flatten_concat,
        List.append_assoc]

/-! ## Both configurations -/

/-- An update twice is the update once exactly if it is repeatable: for the configuration of the
base station and for that of its UEs. -/
theorem polling_iff (hreach : Reachable bs) :
    (∀ u : FlexEnbConfigReply,
      ((bs.updateENBConfig u).updateENBConfig u).eNBConfig = (bs.updateENBConfig u).eNBConfig ↔
        RepeatableENB bs.eNBConfig u) ∧
    ∀ v : FlexUeConfigReply, (rntis v.ueConfig).Nodup →
      (((bs.updateUEConfig v).updateUEConfig v).ueConfig = (bs.updateUEConfig v).ueConfig ↔
        RepeatableUE bs.ueConfig.ueConfig v) :=
  ⟨updateENBConfig_twice_iff bs, fun _ hv => updateUEConfig_twice_iff hreach hv⟩

/-- A reply without an SPS configuration changes nothing the second time. -/
theorem polling_attachedBs :
    ((attachedBs.updateUEConfig { ueConfig := [{ rnti := some 7, imsi := some 1 }] }).updateUEConfig
        { ueConfig := [{ rnti := some 7, imsi := some 1 }] }).ueConfig =
      (attachedBs.updateUEConfig { ueConfig := [{ rnti := some 7, imsi := some 1 }] }).ueConfig :=
  ((polling_iff reachable_attachedBs).2 { ueConfig := [{ rnti := some 7, imsi := some 1 }] }
    (by decide)).mpr fun s hs _ => by rw [List.mem_singleton.mp hs]; rfl

/-- An answer with one cell that has an SI message. -/
def siAnswer : FlexEnbConfigReply :=
  { cellConfig := [{ siConfig := some { siMessage := [{}] } }], s1ap := some {} }

/-- The second poll doubles the SI messages of a cell. -/
theorem not_repeatable_siAnswer :
    Reachable attachedBs ∧
      ((attachedBs.updateENBConfig siAnswer).updateENBConfig siAnswer).eNBConfig ≠
        (attachedBs.updateENBConfig siAnswer).eNBConfig := by
  refine ⟨reachable_attachedBs, fun h => ?_⟩
  exact absurd (congrArg (fun u => u.cellConfig.map siMessages) h) (by decide)

end EnbRibInfo
end FlexRan.Rib
