import FlexRan.Rib.EnbRibInfo

/-!
# Merging eNB configurations

The agents of a base station each report a part of its configuration.  An update should keep
every field it leaves unset and install every field it sets.  Within a cell this is so, except
for the SI messages: `clear_repeated_if_present` does not go down into sub-messages, so that
they are appended.  At the top level the S1AP configuration is replaced whether the update has
one or not, and the eNB id and the device specification are never replaced.

## Main definitions

* `CellLaw`, `UpdateLaw`: an update of a cell, of an eNB configuration, loses nothing.
* `UpdateCondition`: the updates for which the law holds.
* `DisjointUpdates`: no tracked field is set in both updates.
-/
namespace FlexRan.Rib

open Lib Lib.Message Protocol

/-! ## The law -/

structure CellLaw (stored update result : FlexCellConfig) : Prop where
  scalar : ∀ f, ScalarLaw (stored.scalar f) (update.scalar f) (result.scalar f)
  power : ∀ f, ScalarLaw (stored.power f) (update.power f) (result.power f)
  x2HoNetControl : ScalarLaw stored.x2HoNetControl update.x2HoNetControl result.x2HoNetControl
  mbsfn : ∀ f, RepeatedLaw (stored.mbsfn f) (update.mbsfn f) (result.mbsfn f)
  plmnId : RepeatedLaw stored.plmnId update.plmnId result.plmnId
  siConfig : MessageLaw stored.siConfig update.siConfig result.siConfig
  sliceConfig : MessageLaw stored.sliceConfig update.sliceConfig result.sliceConfig

/-- Every tracked field the update leaves unset keeps its stored value, and every one it sets
has the update's value. -/
structure UpdateLaw (stored update result : FlexEnbConfigReply) : Prop where
  eNBId : ScalarLaw stored.eNBId update.eNBId result.eNBId
  deviceSpec : ScalarLaw stored.deviceSpec update.deviceSpec result.deviceSpec
  s1ap : MessageLaw stored.s1ap update.s1ap result.s1ap
  cells : ∀ (i : ℕ) d s, stored.cellConfig[i]? = some d → update.cellConfig[i]? = some s →
    ∃ c, result.cellConfig[i]? = some c ∧ CellLaw d s c

/-- The SI messages of a cell; none without an SI configuration. -/
def siMessages (c : FlexCellConfig) : List FlexSiMessage :=
  (c.siConfig.getD defaultInstance).siMessage

/-- Ids and device are the stored ones where they are set at all, S1AP is sent along unless
there is nothing in it to lose, and no cell gets SI messages on top of others. -/
structure UpdateCondition (stored update : FlexEnbConfigReply) : Prop where
  eNBId : update.eNBId = none ∨ update.eNBId = stored.eNBId
  deviceSpec : update.deviceSpec = none ∨ update.deviceSpec = stored.deviceSpec
  s1ap : update.s1ap ≠ none ∨ stored.s1ap = some defaultInstance
  siMessage : ∀ (i : ℕ) d s, stored.cellConfig[i]? = some d → update.cellConfig[i]? = some s →
    siMessages s = [] ∨ siMessages d = []

/-! ## Merging a cell -/

/-- Clearing a repeated field the source has elements of, and appending them, replaces it. -/
def replaceRepeated {α : Type} (dst src : List α) : List α := if src = [] then dst else src

section Fields

variable {α : Type}

theorem mergeRepeated_clear (dst src : List α) :
    mergeRepeated (if src = [] then dst else []) src = replaceRepeated dst src := by
  by_cases h : src = [] <;> simp [replaceRepeated, h]

theorem repeatedLaw_replaceRepeated (dst src : List α) :
    RepeatedLaw dst src (replaceRepeated dst src) where
  keeps h := if_pos h
  takes h := if_neg h

/-- Replacing is appending where one of the two lists is empty. -/
theorem replaceRepeated_eq_mergeRepeated_iff {dst src : List α} :
    replaceRepeated dst src = mergeRepeated dst src ↔ src = [] ∨ dst = [] := by
  by_cases h : src = []
  · simp [replaceRepeated, mergeRepeated, h]
  · simp [replaceRepeated, mergeRepeated, h]

theorem replaceRepeated_comm {s t : List α} (h : s = [] ∨ t = []) (d : List α) :
    replaceRepeated (replaceRepeated d s) t = replaceRepeated (replaceRepeated d t) s := by
  rcases h with rfl | rfl <;> simp [replaceRepeated]

theorem mergeScalar_comm {s t : Option α} (h : s = none ∨ t = none) (d : Option α) :
    mergeScalar (mergeScalar d s) t = mergeScalar (mergeScalar d t) s := by
  rcases h with rfl | rfl <;> simp

theorem mergeMessage_comm [Message α] {s t : Option α} (h : s = none ∨ t = none) (d : Option α) :
    mergeMessage (mergeMessage d s) t = mergeMessage (mergeMessage d t) s := by
  rcases h with rfl | rfl <;> simp

theorem or_messageLaw [Message α] [LawfulMessage α] (stored update : Option α) :
    MessageLaw stored update (update.or stored) where
  keeps h := by simp [h]
  takes s h := ⟨s, by simp [h], leavesIn_refl s⟩

end Fields

namespace EnbRibInfo

/-- One round of the loop of `clear_repeated_if_present` on a cell. -/
private def clearIfPresent (src d : FlexCellConfig) (f : CellRepeated) : FlexCellConfig :=
  if Reflection.fieldSize src f = 0 then d else Reflection.clearField d f

private theorem clearIfPresent_mbsfn (src d : FlexCellConfig) (f : MbsfnField) :
    clearIfPresent src d (.mbsfn f) =
      { d with
        mbsfn := Function.update d.mbsfn f (if src.mbsfn f = [] then d.mbsfn f else []) } := by
  by_cases h : src.mbsfn f = []
  · simp [clearIfPresent, Reflection.fieldSize, h]
  · simp [clearIfPresent, Reflection.fieldSize, Reflection.clearField, h]

private theorem clearIfPresent_plmnId (src d : FlexCellConfig) :
    clearIfPresent src d .plmnId =
      { d with plmnId := if src.plmnId = [] then d.plmnId else [] } := by
  by_cases h : src.plmnId = []
  · simp [clearIfPresent, Reflection.fieldSize, h]
  · simp [clearIfPresent, Reflection.fieldSize, Reflection.clearField, h]

theorem clearRepeatedIfPresent_cell (dst src : FlexCellConfig) :
    clearRepeatedIfPresent dst src =
      { dst with
        mbsfn := fun f => if src.mbsfn f = [] then dst.mbsfn f else []
        plmnId := if src.plmnId = [] then dst.plmnId else [] } := by
  have hloop : clearRepeatedIfPresent dst src =
      [CellRepeated.mbsfn .mbsfnSubframeConfigRfperiod, .mbsfn .mbsfnSubframeConfigRfoffset,
        .mbsfn .mbsfnSubframeConfigSfalloc, .plmnId].foldl (clearIfPresent src) dst := rfl
  simp only [hloop, List.foldl_cons, List.foldl_nil, clearIfPresent_mbsfn, clearIfPresent_plmnId]
  congr 1
  funext f
  cases f <;> simp

/-- Merging a cell, field by field. -/
theorem mergeCellConfig_eq (dst src : FlexCellConfig) :
    mergeCellConfig dst src =
      { scalar := mergeFrom dst.scalar src.scalar
        power := mergeFrom dst.power src.power
        x2HoNetControl := mergeScalar dst.x2HoNetControl src.x2HoNetControl
        mbsfn := fun f => replaceRepeated (dst.mbsfn f) (src.mbsfn f)
        plmnId := replaceRepeated dst.plmnId src.plmnId
        siConfig := mergeMessage dst.siConfig src.siConfig
        sliceConfig := src.sliceConfig.or dst.sliceConfig } := by
  rw [mergeCellConfig, clearRepeatedIfPresent_cell]
  simp only [← mergeRepeated_clear]
  cases hslice : src.sliceConfig with
  | none => simp [mergeFrom, hslice]
  | some s => simp [mergeFrom, hslice]

theorem siConfig_messageLaw_iff (stored update : Option FlexSiConfig) :
    MessageLaw stored update (mergeMessage stored update) ↔
      (update.getD defaultInstance).siMessage = [] ∨
        (stored.getD defaultInstance).siMessage = [] := by
  cases update with
  | none =>
    refine iff_of_true ⟨fun _ => rfl, ?_⟩ (.inl rfl)
    intro s hs
    simp at hs
  | some s =>
    rw [Option.getD_some, ← repeatedIn_mergeRepeated_iff]
    constructor
    · intro h
      obtain ⟨t, ht, hleaves⟩ := h.takes s rfl
      obtain rfl := Option.some.inj ht
      exact hleaves.2
    · intro h
      refine ⟨fun hnone => by simp at hnone, fun s' hs' => ?_⟩
      obtain rfl := Option.some.inj hs'
      exact ⟨_, rfl, leavesIn_mergeFrom_scalars _ _, h⟩

/-- Merging a cell loses nothing exactly when no SI messages meet others. -/
theorem cellLaw_mergeCellConfig_iff (d s : FlexCellConfig) :
    CellLaw d s (mergeCellConfig d s) ↔ siMessages s = [] ∨ siMessages d = [] := by
  rw [mergeCellConfig_eq, siMessages, siMessages, ← siConfig_messageLaw_iff]
  constructor
  · intro h
    exact h.siConfig
  · intro h
    exact
      { scalar := fun f => scalarLaw_mergeScalar (d.scalar f) (s.scalar f)
        power := fun f => scalarLaw_mergeScalar (d.power f) (s.power f)
        x2HoNetControl := scalarLaw_mergeScalar _ _
        mbsfn := fun f => repeatedLaw_replaceRepeated _ _
        plmnId := repeatedLaw_replaceRepeated _ _
        siConfig := h
        sliceConfig := or_messageLaw _ _ }

theorem mergeCellConfigs_eq_zipWith (ds ss : List FlexCellConfig) (h : ss.length = ds.length) :
    mergeCellConfigs ds ss = List.zipWith mergeCellConfig ds ss := by
  induction ds generalizing ss with
  | nil => simp [mergeCellConfigs]
  | cons d ds ih =>
    cases ss with
    | nil => simp at h
    | cons s ss => rw [mergeCellConfigs, List.zipWith_cons_cons, ih ss (by simpa using h)]

/-! ## Updating the configuration -/

variable {bs : EnbRibInfo} {u v : FlexEnbConfigReply}

theorem eNBConfig_updateENBConfig (hcells : bs.eNBConfig.cellConfig ≠ [])
    (hu : u.cellConfig.length = bs.eNBConfig.cellConfig.length) :
    (bs.updateENBConfig u).eNBConfig =
      { bs.eNBConfig with
        cellConfig := List.zipWith mergeCellConfig bs.eNBConfig.cellConfig u.cellConfig
        s1ap := some (u.s1ap.getD defaultInstance)
        loadedApps := u.loadedApps
        loadedMacObjects := u.loadedMacObjects } := by
  have hne : bs.eNBConfig.cellConfig.length ≠ 0 := by simpa using hcells
  rw [updateENBConfig, if_neg hne, mergeCellConfigs_eq_zipWith _ _ hu]

/-- The number of cells does not change. -/
theorem length_cellConfig_updateENBConfig (hcells : bs.eNBConfig.cellConfig ≠ [])
    (hu : u.cellConfig.length = bs.eNBConfig.cellConfig.length) :
    (bs.updateENBConfig u).eNBConfig.cellConfig.length = bs.eNBConfig.cellConfig.length := by
  rw [eNBConfig_updateENBConfig hcells hu, List.length_zipWith, hu, min_self]

/-- The S1AP field keeps the law unless an update without it overwrites something. -/
theorem s1ap_messageLaw_iff (stored update : Option FlexS1apConfig) :
    MessageLaw stored update (some (update.getD defaultInstance)) ↔
      update ≠ none ∨ stored = some defaultInstance := by
  cases update with
  | none =>
    simp only [Option.getD_none, ne_eq, not_true_eq_false, false_or]
    constructor
    · intro h
      exact (h.keeps rfl).symm
    · intro h
      exact ⟨fun _ => h.symm, fun s hs => by simp at hs⟩
  | some s =>
    simp only [ne_eq, reduceCtorEq, not_false_eq_true, true_or, iff_true]
    refine ⟨fun h => by simp at h, fun s' hs' => ?_⟩
    obtain rfl := Option.some.inj hs'
    exact ⟨s, rfl, leavesIn_refl s⟩

theorem updateLaw_iff (hcells : bs.eNBConfig.cellConfig ≠ [])
    (hu : u.cellConfig.length = bs.eNBConfig.cellConfig.length) :
    UpdateLaw bs.eNBConfig u (bs.updateENBConfig u).eNBConfig ↔
      UpdateCondition bs.eNBConfig u := by
  rw [eNBConfig_updateENBConfig hcells hu]
  have hcell : ∀ (i : ℕ) d s, bs.eNBConfig.cellConfig[i]? = some d → u.cellConfig[i]? = some s →
      ((∃ c, (List.zipWith mergeCellConfig bs.eNBConfig.cellConfig u.cellConfig)[i]? = some c ∧
        CellLaw d s c) ↔ siMessages s = [] ∨ siMessages d = []) := by
    intro i d s hd hs
    rw [List.getElem?_zipWith, hd, hs, ← cellLaw_mergeCellConfig_iff]
    simp
  constructor
  · intro h
    exact
      { eNBId := scalarLaw_stored_iff.mp h.eNBId
        deviceSpec := scalarLaw_stored_iff.mp h.deviceSpec
        s1ap := (s1ap_messageLaw_iff _ _).mp h.s1ap
        siMessage := fun i d s hd hs => (hcell i d s hd hs).mp (h.cells i d s hd hs) }
  · intro h
    exact
      { eNBId := scalarLaw_stored_iff.mpr h.eNBId
        deviceSpec := scalarLaw_stored_iff.mpr h.deviceSpec
        s1ap := (s1ap_messageLaw_iff _ _).mpr h.s1ap
        cells := fun i d s hd hs => (hcell i d s hd hs).mpr (h.siMessage i d s hd hs) }

/-! ## Two updates -/

end EnbRibInfo

structure DisjointCells (s t : FlexCellConfig) : Prop where
  scalar : ∀ f, s.scalar f = none ∨ t.scalar f = none
  power : ∀ f, s.power f = none ∨ t.power f = none
  x2HoNetControl : s.x2HoNetControl = none ∨ t.x2HoNetControl = none
  mbsfn : ∀ f, s.mbsfn f = [] ∨ t.mbsfn f = []
  plmnId : s.plmnId = [] ∨ t.plmnId = []
  siConfig : s.siConfig = none ∨ t.siConfig = none
  sliceConfig : s.sliceConfig = none ∨ t.sliceConfig = none

/-- No tracked field is set in both updates. -/
structure DisjointUpdates (u v : FlexEnbConfigReply) : Prop where
  eNBId : u.eNBId = none ∨ v.eNBId = none
  deviceSpec : u.deviceSpec = none ∨ v.deviceSpec = none
  s1ap : u.s1ap = none ∨ v.s1ap = none
  cells : ∀ (i : ℕ) s t, u.cellConfig[i]? = some s → v.cellConfig[i]? = some t →
    DisjointCells s t

/-- The tracked fields of two configurations agree. -/
structure SameTracked (a b : FlexEnbConfigReply) : Prop where
  eNBId : a.eNBId = b.eNBId
  deviceSpec : a.deviceSpec = b.deviceSpec
  s1ap : a.s1ap = b.s1ap
  cellConfig : a.cellConfig = b.cellConfig

namespace EnbRibInfo

variable {bs : EnbRibInfo} {u v : FlexEnbConfigReply}

theorem mergeCellConfig_comm {s t : FlexCellConfig} (h : DisjointCells s t) (d : FlexCellConfig) :
    mergeCellConfig (mergeCellConfig d s) t = mergeCellConfig (mergeCellConfig d t) s := by
  simp only [mergeCellConfig_eq]
  congr 1
  · exact funext fun f => mergeScalar_comm (h.scalar f) (d.scalar f)
  · exact funext fun f => mergeScalar_comm (h.power f) (d.power f)
  · exact mergeScalar_comm h.x2HoNetControl _
  · exact funext fun f => replaceRepeated_comm (h.mbsfn f) (d.mbsfn f)
  · exact replaceRepeated_comm h.plmnId _
  · exact mergeMessage_comm h.siConfig _
  · rcases h.sliceConfig with hs | ht
    · simp [hs]
    · simp [ht]

theorem zipWith_mergeCellConfig_comm {ds ss ts : List FlexCellConfig}
    (h : ∀ (i : ℕ) s t, ss[i]? = some s → ts[i]? = some t → DisjointCells s t) :
    List.zipWith mergeCellConfig (List.zipWith mergeCellConfig ds ss) ts =
      List.zipWith mergeCellConfig (List.zipWith mergeCellConfig ds ts) ss := by
  apply List.ext_getElem?
  intro i
  simp only [List.getElem?_zipWith]
  cases hd : ds[i]? with
  | none => rfl
  | some d =>
    cases hs : ss[i]? with
    | none => cases ht : ts[i]? <;> rfl
    | some s =>
      cases ht : ts[i]? with
      | none => rfl
      | some t => exact congrArg some (mergeCellConfig_comm (h i s t hs ht) d)

/-- Disjoint updates commute exactly when they agree on S1AP. -/
theorem sameTracked_comm_iff (hcells : bs.eNBConfig.cellConfig ≠ [])
    (hu : u.cellConfig.length = bs.eNBConfig.cellConfig.length)
    (hv : v.cellConfig.length = bs.eNBConfig.cellConfig.length) (h : DisjointUpdates u v) :
    SameTracked ((bs.updateENBConfig u).updateENBConfig v).eNBConfig
        ((bs.updateENBConfig v).updateENBConfig u).eNBConfig ↔
      u.s1ap.getD defaultInstance = v.s1ap.getD defaultInstance := by
  have hlenu := length_cellConfig_updateENBConfig hcells hu
  have hlenv := length_cellConfig_updateENBConfig hcells hv
  have hpos := List.length_pos_of_ne_nil hcells
  rw [eNBConfig_updateENBConfig (List.ne_nil_of_length_pos (hlenu ▸ hpos)) (hv.trans hlenu.symm),
    eNBConfig_updateENBConfig (List.ne_nil_of_length_pos (hlenv ▸ hpos)) (hu.trans hlenv.symm),
    eNBConfig_updateENBConfig hcells hu, eNBConfig_updateENBConfig hcells hv]
  constructor
  · intro hsame
    exact (Option.some.inj hsame.s1ap).symm
  · intro hs1ap
    exact
      { eNBId := rfl
        deviceSpec := rfl
        s1ap := congrArg some hs1ap.symm
        cellConfig := zipWith_mergeCellConfig_comm h.cells }

/-- For a stored configuration with cells and updates with as many: an update loses nothing
exactly under `UpdateCondition`, and two disjoint updates commute exactly when they agree on
S1AP. -/
theorem updateENBConfig_law_iff (hcells : bs.eNBConfig.cellConfig ≠ []) :
    (∀ u : FlexEnbConfigReply, u.cellConfig.length = bs.eNBConfig.cellConfig.length →
      (UpdateLaw bs.eNBConfig u (bs.updateENBConfig u).eNBConfig ↔
        UpdateCondition bs.eNBConfig u)) ∧
    ∀ u v : FlexEnbConfigReply, u.cellConfig.length = bs.eNBConfig.cellConfig.length →
      v.cellConfig.length = bs.eNBConfig.cellConfig.length → DisjointUpdates u v →
      (SameTracked ((bs.updateENBConfig u).updateENBConfig v).eNBConfig
          ((bs.updateENBConfig v).updateENBConfig u).eNBConfig ↔
        u.s1ap.getD defaultInstance = v.s1ap.getD defaultInstance) :=
  ⟨fun _ hu => updateLaw_iff hcells hu, fun _ _ hu hv h => sameTracked_comm_iff hcells hu hv h⟩

/-- A base station with one cell that has heard of an MME. -/
def connectedBs : EnbRibInfo where
  bsId := 1
  agents := ∅
  eNBConfig :=
    { eNBId := some 1
      cellConfig :=
        [{ scalar := fun f =>
             if f = .phyCellId then some 1 else if f = .dlBandwidth then some 25 else none
           plmnId := [{ mcc := some 208, mnc := some 95 }]
           sliceConfig := some { dl := some { slices := [{ id := some 0 }] } } }]
      s1ap := some { connected := some 1 } }

/-- An agent that runs S1AP changes the bandwidth, the PLMNs and the slices, and sends the first SI
message. -/
def cellUpdate : FlexEnbConfigReply where
  cellConfig :=
    [{ scalar := fun f =>
         if f = .dlBandwidth then some 50 else if f = .eutraBand then some 7 else none
       plmnId := [{ mcc := some 222, mnc := some 1 }]
       siConfig := some { siMessage := [{}] }
       sliceConfig := some { dl := some { slices := [{ id := some 0 }, { id := some 1 }] } } }]
  s1ap := some { enbName := some "host" }

theorem updateLaw_of_s1ap :
    UpdateLaw connectedBs.eNBConfig cellUpdate (connectedBs.updateENBConfig cellUpdate).eNBConfig ∧
      (connectedBs.updateENBConfig cellUpdate).eNBConfig.cellConfig.map (fun c =>
        (c.scalar .phyCellId, c.scalar .dlBandwidth, c.scalar .eutraBand)) =
          [(some 1, some 50, some 7)] := by
  have hcells : connectedBs.eNBConfig.cellConfig ≠ [] := by simp [connectedBs]
  refine ⟨((updateENBConfig_law_iff hcells).1 cellUpdate rfl).mpr ?_, by decide +kernel⟩
  exact
    { eNBId := .inl rfl
      deviceSpec := .inl rfl
      s1ap := .inl (by simp [cellUpdate])
      siMessage := fun i d s hd _ => .inr (by
        have hd := List.mem_of_getElem? hd
        rw [List.mem_singleton.mp hd]
        rfl) }

/-- An update with one cell and nothing else, as an agent without S1AP sends it, overwrites the
stored S1AP configuration. -/
theorem not_updateLaw_without_s1ap :
    ¬ UpdateLaw connectedBs.eNBConfig { cellConfig := [{}] }
      (connectedBs.updateENBConfig { cellConfig := [{}] }).eNBConfig := by
  intro h
  exact absurd (h.s1ap.keeps rfl) (by decide)

end EnbRibInfo
end FlexRan.Rib
