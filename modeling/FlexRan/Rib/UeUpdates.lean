import FlexRan.Rib.ConfigMerge
import FlexRan.Rib.UeState

/-!
# Updates of UEs

A UE configuration reply is a batch of updates that are merged, one after the other, into the first
UE with their RNTI.  Since RNTIs are distinct in every reachable state, a reply with distinct RNTIs
acts on each UE by itself.

A state change does to one UE what a reply with this one entry does, but for the measurement
information, whose offsets it appends to those that are stored.  A UE that leaves is taken out of
the list of UEs and of the MAC state, and the first of its entries out of the list of logical
channels, which comes from another message and may not agree with the list of UEs.

## Main definitions

* `OrderFree`, `updateUEConfig_orderFree`: the effect of a reply.
* `SameUeState`, `updatePaths_iff`: when the two ways to update a UE agree.
* `Forgotten`, `forgotten_iff`: when a UE that leaves leaves no trace.
-/
namespace FlexRan.Rib

open Lib Lib.Message Protocol

namespace EnbRibInfo

variable {bs : EnbRibInfo}

/-! ## Replies -/

/-- What a reply makes of the state. -/
structure OrderFree (bs : EnbRibInfo) (update : FlexUeConfigReply) : Prop where
  perm : ∀ update' : FlexUeConfigReply, update.ueConfig.Perm update'.ueConfig →
    bs.updateUEConfig update' = bs.updateUEConfig update
  rntis : rntis (bs.updateUEConfig update).ueConfig.ueConfig = rntis bs.ueConfig.ueConfig
  ueMacInfo : (bs.updateUEConfig update).ueMacInfo = bs.ueMacInfo
  lcConfig : (bs.updateUEConfig update).lcConfig = bs.lcConfig
  unknown : bs.updateUEConfig { update with
      ueConfig := update.ueConfig.filter fun s =>
        rntiOf s ∈ EnbRibInfo.rntis bs.ueConfig.ueConfig } =
    bs.updateUEConfig update
  others : ∀ (i : ℕ) c, bs.ueConfig.ueConfig[i]? = some c →
    rntiOf c ∉ EnbRibInfo.rntis update.ueConfig →
    (bs.updateUEConfig update).ueConfig.ueConfig[i]? = some c
  merged : ∀ (i : ℕ) c, bs.ueConfig.ueConfig[i]? = some c → ∀ s ∈ update.ueConfig,
    rntiOf s = rntiOf c →
    (bs.updateUEConfig update).ueConfig.ueConfig[i]? = some (mergeUeConfig c s)

/-- The UEs after a reply, UE by UE. -/
theorem ueConfig_updateUEConfig (h : UeInv bs) {update : FlexUeConfigReply}
    (hupdate : (rntis update.ueConfig).Nodup) :
    (bs.updateUEConfig update).ueConfig.ueConfig = bs.ueConfig.ueConfig.map fun c =>
      (update.ueConfig.find? fun s => rntiOf s = rntiOf c).elim c (mergeUeConfig c) :=
  have hkeeps : ∀ dst src, rntiOf dst = rntiOf src →
      rntiOf (mergeUeConfig dst src) = rntiOf dst := fun _ _ => rntiOf_mergeUeConfig
  foldl_mergeFirst_eq_map hkeeps hupdate h.distinct

theorem updateUEConfig_congr {update update' : FlexUeConfigReply}
    (h : (bs.updateUEConfig update).ueConfig.ueConfig =
      (bs.updateUEConfig update').ueConfig.ueConfig) :
    bs.updateUEConfig update = bs.updateUEConfig update' := by
  have heq : update.ueConfig.foldl mergeUeEntry bs.ueConfig.ueConfig =
      update'.ueConfig.foldl mergeUeEntry bs.ueConfig.ueConfig := h
  rw [updateUEConfig, updateUEConfig, heq]

/-- A reply with distinct RNTIs acts on each UE by itself: the order of its entries does not
matter, entries for unknown UEs have no effect, and UEs without an entry stay as they are. -/
theorem updateUEConfig_orderFree (hreach : Reachable bs) (update : FlexUeConfigReply)
    (hupdate : (rntis update.ueConfig).Nodup) : OrderFree bs update := by
  have h := ueInv_of_reachable hreach
  have hget : ∀ (i : ℕ) c, bs.ueConfig.ueConfig[i]? = some c →
      (bs.updateUEConfig update).ueConfig.ueConfig[i]? =
        some ((update.ueConfig.find? fun s => rntiOf s = rntiOf c).elim c (mergeUeConfig c)) := by
    intro i c hc
    rw [ueConfig_updateUEConfig h hupdate, List.getElem?_map, hc, Option.map_some]
  constructor
  case perm =>
    intro update' hperm
    apply updateUEConfig_congr
    exact (foldl_mergeFirst_perm (fun _ _ => rntiOf_mergeUeConfig) hperm hupdate h.distinct).symm
  case rntis => exact rntis_foldl_mergeUeEntry _ _
  case ueMacInfo => rfl
  case lcConfig => rfl
  case unknown =>
    apply updateUEConfig_congr
    rw [ueConfig_updateUEConfig h hupdate, ueConfig_updateUEConfig h]
    · refine List.map_congr_left fun c hc => ?_
      -- an entry with the RNTI of a listed UE is for a known UE
      have hknown : ∀ s, (rntiOf s ∈ rntis bs.ueConfig.ueConfig ∧ rntiOf s = rntiOf c) ↔
          rntiOf s = rntiOf c := by
        intro s
        refine and_iff_right_of_imp fun heq => ?_
        rw [heq]
        exact List.mem_map_of_mem hc
      simp only [List.find?_filter, decide_eq_true_eq, hknown]
    · exact hupdate.sublist (List.filter_sublist.map _)
  case others =>
    intro i c hc hnot
    rw [hget i c hc, List.find?_eq_none.mpr, Option.elim_none]
    intro s hs hkey
    exact hnot (List.mem_map.mpr ⟨s, hs, of_decide_eq_true hkey⟩)
  case merged =>
    intro i c hc s hs hkey
    rw [hget i c hc, (find?_key_iff hupdate).mpr ⟨hs, hkey⟩, Option.elim_some]

/-! ## Merging a UE, field by field -/

theorem clearRepeatedIfPresent_ue (dst src : FlexUeConfig) :
    clearRepeatedIfPresent dst src =
      { dst with scellConfig := if src.scellConfig = [] then dst.scellConfig else [] } := by
  by_cases h : src.scellConfig = [] <;>
    simp [clearRepeatedIfPresent, Reflection.repeatedFields, Reflection.fieldSize,
      Reflection.clearField, h]

theorem clearRepeatedIfPresent_info (dst src : FlexMeasurementInfo) :
    clearRepeatedIfPresent dst src =
      { dst with cellIndividualOffset :=
          if src.cellIndividualOffset = [] then dst.cellIndividualOffset else [] } := by
  by_cases h : src.cellIndividualOffset = [] <;>
    simp [clearRepeatedIfPresent, Reflection.repeatedFields, Reflection.fieldSize,
      Reflection.clearField, h]

/-- The measurement information with the offsets replaced. -/
def replaceInfo (dst : Option FlexMeasurementInfo) (src : FlexMeasurementInfo) :
    FlexMeasurementInfo :=
  { mergeFrom (dst.getD defaultInstance) src with
    cellIndividualOffset := replaceRepeated (dst.getD defaultInstance).cellIndividualOffset
      src.cellIndividualOffset }

theorem mergeUeStateChange_eq (dst src : FlexUeConfig) :
    mergeUeStateChange dst src =
      { mergeFrom dst src with
        scellConfig := replaceRepeated dst.scellConfig src.scellConfig } := by
  rw [mergeUeStateChange, clearRepeatedIfPresent_ue, ← mergeRepeated_clear]
  rfl

theorem mergeUeConfig_eq (dst src : FlexUeConfig) :
    mergeUeConfig dst src =
      { mergeFrom dst src with
        scellConfig := replaceRepeated dst.scellConfig src.scellConfig
        info := match src.info with
          | none => dst.info
          | some info => some (replaceInfo dst.info info) } := by
  rw [mergeUeConfig, clearRepeatedIfPresent_ue, ← mergeRepeated_clear]
  cases hinfo : src.info with
  | none => simp [mergeFrom, hinfo]
  | some info =>
    simp only [clearRepeatedIfPresent_info, replaceInfo, ← mergeRepeated_clear]
    simp [mergeFrom, hinfo, mergeMessage]

/-! ## Two ways to update a UE -/

/-- The measurement offsets of a UE. -/
def offsets (c : FlexUeConfig) : List Int64 :=
  (c.info.getD defaultInstance).cellIndividualOffset

/-- The two merges differ where offsets meet others. -/
theorem mergeUeConfig_eq_mergeUeStateChange_iff (dst src : FlexUeConfig) :
    mergeUeConfig dst src = mergeUeStateChange dst src ↔ offsets src = [] ∨ offsets dst = [] := by
  rw [mergeUeConfig_eq, mergeUeStateChange_eq, offsets, offsets]
  cases hinfo : src.info with
  | none => simp [mergeFrom, hinfo, defaultInstance]
  | some info =>
    rw [Option.getD_some, ← replaceRepeated_eq_mergeRepeated_iff]
    simp [mergeFrom, hinfo, mergeMessage, replaceInfo]

/-- The state change has this type and this configuration. -/
structure IsChange (type : UInt32) (c : FlexUeConfig) (m : FlexUeStateChange) : Prop where
  type : m.type.getD 0 = type
  config : m.config = some c

/-- The containers for UEs are the same. -/
structure SameUeState (a b : EnbRibInfo) : Prop where
  ueConfig : a.ueConfig = b.ueConfig
  ueMacInfo : a.ueMacInfo = b.ueMacInfo
  lcConfig : a.lcConfig = b.lcConfig

/-- A reply with one entry does what an update of this UE does, and what an activation does if the
UE is there. -/
def PathsAgree (bs : EnbRibInfo) (c : FlexUeConfig) : Prop :=
  ∀ reply updated activated, reply.ueConfig = [c] → IsChange fluescUpdated c updated →
    IsChange fluescActivated c activated →
    SameUeState (bs.updateUEConfig reply) (bs.updateUEConfigStateChange updated) ∧
    (rntiOf c ∈ rntis bs.ueConfig.ueConfig →
      SameUeState (bs.updateUEConfig reply) (bs.updateUEConfigStateChange activated))

/-- The state with other UEs. -/
def withUes (bs : EnbRibInfo) (ues : List FlexUeConfig) : EnbRibInfo :=
  { bs with ueConfig := { bs.ueConfig with ueConfig := ues } }

theorem sameUeState_withUes_iff {ues ues' : List FlexUeConfig} :
    SameUeState (bs.withUes ues) (bs.withUes ues') ↔ ues = ues' := by
  constructor
  · intro h
    exact congrArg FlexUeConfigReply.ueConfig h.ueConfig
  · rintro rfl
    exact ⟨rfl, rfl, rfl⟩

variable {c : FlexUeConfig} {m : FlexUeStateChange}

theorem updateUEConfig_single {reply : FlexUeConfigReply} (h : reply.ueConfig = [c]) :
    bs.updateUEConfig reply =
      bs.withUes (mergeFirst rntiOf rntiOf mergeUeConfig bs.ueConfig.ueConfig c) := by
  rw [updateUEConfig, h]
  rfl

theorem updateUEConfigStateChange_updated (h : IsChange fluescUpdated c m) :
    bs.updateUEConfigStateChange m =
      bs.withUes (mergeFirst rntiOf rntiOf mergeUeStateChange bs.ueConfig.ueConfig c) := by
  simp only [updateUEConfigStateChange, h.type, h.config, Option.getD_some, mergeFirst]
  rw [if_neg (by decide), if_neg (by decide), if_pos trivial]
  cases bs.ueConfig.ueConfig.findIdx? fun d => rntiOf d == rntiOf c with
  | none => rfl
  | some i => rfl

theorem updateUEConfigStateChange_activated (h : IsChange fluescActivated c m)
    (hc : rntiOf c ∈ rntis bs.ueConfig.ueConfig) :
    bs.updateUEConfigStateChange m =
      bs.withUes (mergeFirst rntiOf rntiOf mergeUeStateChange bs.ueConfig.ueConfig c) := by
  simp only [updateUEConfigStateChange, h.type, h.config, Option.getD_some, mergeFirst]
  rw [if_pos trivial]
  cases hi : bs.ueConfig.ueConfig.findIdx? fun d => rntiOf d == rntiOf c with
  | none => exact absurd hc (notMem_rntis_of_findIdx?_eq_none hi)
  | some i => rfl

/-- The paths agree exactly if the configuration has no measurement offsets, or the stored one of
the UE has none. -/
theorem pathsAgree_iff (hreach : Reachable bs) (c : FlexUeConfig) :
    PathsAgree bs c ↔ ∀ d ∈ bs.ueConfig.ueConfig, rntiOf d = rntiOf c →
      offsets c = [] ∨ offsets d = [] := by
  have hdistinct := (ueInv_of_reachable hreach).distinct
  have hsame : mergeFirst rntiOf rntiOf mergeUeConfig bs.ueConfig.ueConfig c =
      mergeFirst rntiOf rntiOf mergeUeStateChange bs.ueConfig.ueConfig c ↔
        ∀ d ∈ bs.ueConfig.ueConfig, rntiOf d = rntiOf c → offsets c = [] ∨ offsets d = [] := by
    rw [mergeFirst_eq_map hdistinct, mergeFirst_eq_map hdistinct, List.map_inj_left]
    refine forall₂_congr fun d _ => ?_
    rw [← mergeUeConfig_eq_mergeUeStateChange_iff]
    by_cases hd : rntiOf d = rntiOf c
    · simp [hd]
    · simp [hd]
  rw [← hsame]
  constructor
  · intro h
    have hboth := h { ueConfig := [c] } { type := some fluescUpdated, config := some c }
      { type := some fluescActivated, config := some c } rfl ⟨rfl, rfl⟩ ⟨rfl, rfl⟩
    rw [updateUEConfig_single rfl, updateUEConfigStateChange_updated ⟨rfl, rfl⟩,
      sameUeState_withUes_iff] at hboth
    exact hboth.1
  · intro h reply updated activated hreply hupdated hactivated
    rw [updateUEConfig_single hreply, updateUEConfigStateChange_updated hupdated,
      sameUeState_withUes_iff]
    refine ⟨h, fun hc => ?_⟩
    rw [updateUEConfigStateChange_activated hactivated hc, sameUeState_withUes_iff]
    exact h

/-! ## UEs that leave -/

/-- `rnti()` of an entry for logical channels. -/
def lcRntiOf (c : FlexLcUeConfig) : UInt32 := c.rnti.getD 0

/-- No entry for the RNTI is left, and all others are there as before. -/
structure Forgotten (bs bs' : EnbRibInfo) (rnti : UInt32) : Prop where
  ueConfig : ∀ c ∈ bs'.ueConfig.ueConfig, rntiOf c ≠ rnti
  ueMacInfo : rnti ∉ bs'.ueMacInfo
  lcConfig : ∀ c ∈ bs'.lcConfig.lcUeConfig, lcRntiOf c ≠ rnti
  otherUes : bs'.ueConfig.ueConfig.filter (fun c => rntiOf c != rnti) =
    bs.ueConfig.ueConfig.filter fun c => rntiOf c != rnti
  otherMacInfo : ∀ r : UInt32, r ≠ rnti → bs'.ueMacInfo[r]? = bs.ueMacInfo[r]?
  otherLcs : bs'.lcConfig.lcUeConfig.filter (fun c => lcRntiOf c != rnti) =
    bs.lcConfig.lcUeConfig.filter fun c => lcRntiOf c != rnti

/-- The first match in the three containers is removed, if the first of them has one. -/
theorem updateUEConfigStateChange_deactivated (hm : m.type.getD 0 = fluescDeactivated)
    {rnti : UInt32} (hrnti : rntiOf (m.config.getD defaultInstance) = rnti) :
    bs.updateUEConfigStateChange m =
      if rnti ∈ rntis bs.ueConfig.ueConfig then
        { bs with
          ueConfig := { bs.ueConfig with
            ueConfig := bs.ueConfig.ueConfig.eraseP fun c => rntiOf c == rnti }
          ueMacInfo := bs.ueMacInfo.erase rnti
          lcConfig := { bs.lcConfig with
            lcUeConfig := bs.lcConfig.lcUeConfig.eraseP fun c => lcRntiOf c == rnti } }
      else bs := by
  simp only [updateUEConfigStateChange, hm, hrnti, List.eraseP_eq_eraseIdx, lcRntiOf]
  rw [if_neg (by decide), if_pos trivial]
  split
  · rename_i hi
    rw [if_neg (notMem_rntis_of_findIdx?_eq_none hi)]
  · rename_i i hi
    obtain ⟨hlt, hfound, -⟩ := List.findIdx?_eq_some_iff_getElem.mp hi
    have hmem : rnti ∈ rntis bs.ueConfig.ueConfig :=
      List.mem_map.mpr ⟨_, List.getElem_mem hlt, beq_iff_eq.mp hfound⟩
    rw [if_pos hmem, hi]
    congr 1
    split <;> rename_i hj <;> rw [hj]

/-- A UE that leaves leaves no trace exactly if it has one entry for logical channels at most, or
none where it is not in the list of UEs. -/
theorem forgotten_iff (hreach : Reachable bs) (hm : m.type.getD 0 = fluescDeactivated)
    {rnti : UInt32} (hrnti : rntiOf (m.config.getD defaultInstance) = rnti) :
    Forgotten bs (bs.updateUEConfigStateChange m) rnti ↔
      bs.lcConfig.lcUeConfig.countP (fun c => lcRntiOf c == rnti) ≤
        if rnti ∈ rntis bs.ueConfig.ueConfig then 1 else 0 := by
  have h := ueInv_of_reachable hreach
  rw [updateUEConfigStateChange_deactivated hm hrnti]
  by_cases hmem : rnti ∈ rntis bs.ueConfig.ueConfig
  · rw [if_pos hmem, if_pos hmem, ← eraseP_clean_iff]
    have hues : bs.ueConfig.ueConfig.countP (fun c => rntiOf c == rnti) ≤ 1 := by
      have hcount := List.nodup_iff_count_le_one.mp h.distinct rnti
      rwa [rntis, List.count_eq_countP, List.countP_map] at hcount
    constructor
    · intro hforgotten c hc heq
      exact hforgotten.lcConfig c hc (beq_iff_eq.mp heq)
    · intro hclean
      exact
        { ueConfig := fun c hc heq => (eraseP_clean_iff _).mpr hues c hc (beq_iff_eq.mpr heq)
          ueMacInfo := by simp
          lcConfig := fun c hc heq => hclean c hc (beq_iff_eq.mpr heq)
          otherUes := filter_not_eraseP _
          otherMacInfo := fun r hr => by
            rw [Std.ExtTreeMap.getElem?_erase, if_neg]
            rw [Std.LawfulEqCmp.compare_eq_iff_eq]
            exact hr.symm
          otherLcs := filter_not_eraseP _ }
  · rw [if_neg hmem, if_neg hmem, Nat.le_zero, List.countP_eq_zero]
    constructor
    · intro hforgotten c hc heq
      exact hforgotten.lcConfig c hc (beq_iff_eq.mp heq)
    · intro hnone
      exact
        { ueConfig := fun c hc heq => hmem (List.mem_map.mpr ⟨c, hc, heq⟩)
          ueMacInfo := mt (h.keys rnti).mpr hmem
          lcConfig := fun c hc heq => hnone c hc (beq_iff_eq.mpr heq)
          otherUes := rfl
          otherMacInfo := fun _ _ => rfl
          otherLcs := rfl }

/-! ## A base station with two UEs -/

/-- UE 7 has a measurement offset and is listed twice among the logical channels. -/
def attached : List Input :=
  [.ueStateChange
      { type := some fluescActivated
        config := some { rnti := some 7, info := some { cellIndividualOffset := [3] } } },
    .ueStateChange { type := some fluescActivated, config := some { rnti := some 8 } },
    .lcConfigReply { lcUeConfig := [{ rnti := some 7 }, { rnti := some 8 }, { rnti := some 7 }] }]

/-- The base station after these messages. -/
def attachedBs : EnbRibInfo :=
  { bsId := 1, agents := ∅
    ueConfig := { ueConfig := [{ rnti := some 7, info := some { cellIndividualOffset := [3] } },
      { rnti := some 8 }] }
    ueMacInfo := ((∅ : Std.ExtTreeMap UInt32 (Option UeMacRibInfo)).insertIfNew 7
      (some { rnti := 7 })).insertIfNew 8 (some { rnti := 8 })
    lcConfig := { lcUeConfig := [{ rnti := some 7 }, { rnti := some 8 }, { rnti := some 7 }] } }

theorem reachable_attachedBs : Reachable attachedBs :=
  ⟨1, ∅, { bsId := 1, agents := ∅ }, attached, make_eq_ok_iff.mpr ⟨by simp, rfl⟩, rfl⟩

/-- A reply for an unknown UE and UE 7. -/
theorem orderFree_attachedBs :
    OrderFree attachedBs { ueConfig := [{ rnti := some 9 }, { rnti := some 7, imsi := some 1 }] } :=
  updateUEConfig_orderFree reachable_attachedBs
    { ueConfig := [{ rnti := some 9 }, { rnti := some 7, imsi := some 1 }] } (by decide)

theorem pathsAgree_attachedBs : PathsAgree attachedBs { rnti := some 7, imsi := some 1 } :=
  (pathsAgree_iff reachable_attachedBs { rnti := some 7, imsi := some 1 }).mpr
    fun _ _ _ => .inl rfl

/-- A reply with an offset replaces the stored one, a state change appends it. -/
theorem not_pathsAgree_attachedBs : Reachable attachedBs ∧ ¬ PathsAgree attachedBs
    { rnti := some 7, info := some { cellIndividualOffset := [4] } } := by
  refine ⟨reachable_attachedBs, fun h => ?_⟩
  have hboth := h { ueConfig := [{ rnti := some 7, info := some { cellIndividualOffset := [4] } }] }
    { type := some fluescUpdated
      config := some { rnti := some 7, info := some { cellIndividualOffset := [4] } } }
    { type := some fluescActivated
      config := some { rnti := some 7, info := some { cellIndividualOffset := [4] } } }
    rfl ⟨rfl, rfl⟩ ⟨rfl, rfl⟩
  have hoffsets := congrArg (fun u => u.ueConfig.map offsets) hboth.1.ueConfig
  exact absurd hoffsets (by decide)

theorem forgotten_attachedBs : Forgotten attachedBs
    (attachedBs.updateUEConfigStateChange
      { type := some fluescDeactivated, config := some { rnti := some 8 } }) 8 :=
  (forgotten_iff reachable_attachedBs rfl rfl).mpr (by decide)

/-- The second entry of UE 7 for logical channels is left. -/
theorem not_forgotten_attachedBs : Reachable attachedBs ∧ ¬ Forgotten attachedBs
    (attachedBs.updateUEConfigStateChange
      { type := some fluescDeactivated, config := some { rnti := some 7 } }) 7 := by
  refine ⟨reachable_attachedBs, fun h => ?_⟩
  exact h.lcConfig { rnti := some 7 } (.tail _ (.head _)) rfl

end EnbRibInfo
end FlexRan.Rib
