import FlexRan.Lib.Keyed
import FlexRan.Rib.EnbRibInfo

/-!
# The UE state of a base station

The UEs of a base station are kept twice: as entries of the UE configuration and as keys of the
MAC state.  State changes add and remove UEs in both; all other messages rewrite entries in
place and keep their RNTI.  So the two agree in every reachable state, and the MAC state of a
listed UE is never null.

## Main definitions

* `UeInv`: the entries have different RNTIs, and these are the keys of the MAC state.
* `ueInv_of_reachable`: it holds of every reachable state.
-/
namespace FlexRan.Rib

open Lib Lib.Message Protocol

namespace EnbRibInfo

/-- The RNTIs of the listed UEs. -/
def rntis (ues : List FlexUeConfig) : List UInt32 := ues.map rntiOf

structure UeInv (bs : EnbRibInfo) : Prop where
  distinct : (rntis bs.ueConfig.ueConfig).Nodup
  keys : ∀ rnti, rnti ∈ rntis bs.ueConfig.ueConfig ↔ rnti ∈ bs.ueMacInfo
  nonnull : ∀ (rnti : UInt32) ue, bs.ueMacInfo[rnti]? = some ue → ue ≠ none

variable {bs bs' : EnbRibInfo}

/-! ## Entries keep their RNTI -/

theorem rnti_clearRepeatedIfPresent (dst src : FlexUeConfig) :
    (clearRepeatedIfPresent dst src).rnti = dst.rnti := by
  simp only [clearRepeatedIfPresent, Reflection.repeatedFields, List.foldl_cons, List.foldl_nil]
  split <;> rfl

/-- Merging an entry with the same RNTI keeps the RNTI, whether it is set or read as 0. -/
theorem rntiOf_mergeFrom {dst src : FlexUeConfig} (h : rntiOf dst = rntiOf src) :
    rntiOf (mergeFrom dst src) = rntiOf dst := by
  cases hs : src.rnti with
  | none => simp [rntiOf, mergeFrom, hs]
  | some v =>
    have hsrc : rntiOf (mergeFrom dst src) = rntiOf src := by simp [rntiOf, mergeFrom, hs]
    rw [hsrc, h]

theorem rntiOf_mergeUeStateChange {dst src : FlexUeConfig} (h : rntiOf dst = rntiOf src) :
    rntiOf (mergeUeStateChange dst src) = rntiOf dst := by
  have hclear : rntiOf (clearRepeatedIfPresent dst src) = rntiOf dst := by
    rw [rntiOf, rnti_clearRepeatedIfPresent, rntiOf]
  rw [mergeUeStateChange, rntiOf_mergeFrom (hclear.trans h), hclear]

theorem rntiOf_mergeUeConfig {dst src : FlexUeConfig} (h : rntiOf dst = rntiOf src) :
    rntiOf (mergeUeConfig dst src) = rntiOf dst := by
  have hclear : rntiOf (clearRepeatedIfPresent dst src) = rntiOf dst := by
    rw [rntiOf, rnti_clearRepeatedIfPresent, rntiOf]
  rw [mergeUeConfig]
  cases src.info with
  | none => rw [rntiOf_mergeFrom (hclear.trans h), hclear]
  | some info =>
    rw [rntiOf_mergeFrom (by rw [← h, ← hclear]; rfl), ← hclear]
    rfl

/-- Rewriting the entry found for an RNTI leaves the list of RNTIs alone. -/
theorem rntis_modify {ues : List FlexUeConfig} {rnti : UInt32} {i : ℕ}
    {f : FlexUeConfig → FlexUeConfig} (hf : ∀ c, rntiOf c = rnti → rntiOf (f c) = rntiOf c)
    (hi : ues.findIdx? (fun c => rntiOf c == rnti) = some i) :
    rntis (ues.modify i f) = rntis ues := by
  obtain ⟨hlt, hfound, -⟩ := List.findIdx?_eq_some_iff_getElem.mp hi
  apply List.ext_getElem?
  intro j
  simp only [rntis, List.getElem?_map, List.getElem?_modify]
  by_cases hj : i = j
  · subst hj
    simp [hlt, hf _ (beq_iff_eq.mp hfound)]
  · simp [hj]

/-- An entry of a reply is merged into the first UE with its RNTI. -/
theorem mergeUeEntry_eq : mergeUeEntry = mergeFirst rntiOf rntiOf mergeUeConfig := rfl

theorem rntis_foldl_mergeUeEntry (srcs ues : List FlexUeConfig) :
    rntis (srcs.foldl mergeUeEntry ues) = rntis ues := by
  have hkeeps : ∀ dst src, rntiOf dst = rntiOf src →
      rntiOf (mergeUeConfig dst src) = rntiOf dst := fun _ _ => rntiOf_mergeUeConfig
  rw [mergeUeEntry_eq]
  exact map_key_foldl_mergeFirst hkeeps srcs ues

theorem notMem_rntis_of_findIdx?_eq_none {ues : List FlexUeConfig} {rnti : UInt32}
    (h : ues.findIdx? (fun c => rntiOf c == rnti) = none) : rnti ∉ rntis ues := by
  rw [List.findIdx?_eq_none_iff] at h
  rintro hmem
  obtain ⟨c, hc, rfl⟩ := List.mem_map.mp hmem
  simpa using h c hc

/-! ## The invariant of each handler -/

theorem ueInv_make {bsId : UInt64} {agents : SharedSet AgentInfo} (h : make bsId agents = .ok bs) :
    UeInv bs := by
  obtain ⟨_, rfl⟩ := make_eq_ok_iff.mp h
  exact ⟨by simp [rntis], by simp [rntis], by simp⟩

namespace UeInv

/-- The invariant depends on the two containers only. -/
theorem congr (h : UeInv bs) (hues : rntis bs'.ueConfig.ueConfig = rntis bs.ueConfig.ueConfig)
    (hmac : bs'.ueMacInfo = bs.ueMacInfo) : UeInv bs' := by
  constructor
  · rw [hues]
    exact h.distinct
  · intro rnti
    rw [hues, hmac]
    exact h.keys rnti
  · rw [hmac]
    exact h.nonnull

theorem updateENBConfig (h : UeInv bs) (m : FlexEnbConfigReply) : UeInv (bs.updateENBConfig m) := by
  rw [EnbRibInfo.updateENBConfig]
  split
  · exact h.congr rfl rfl
  · exact h.congr rfl rfl

theorem updateUEConfig (h : UeInv bs) (m : FlexUeConfigReply) : UeInv (bs.updateUEConfig m) :=
  h.congr (rntis_foldl_mergeUeEntry _ _) rfl

theorem updateLCConfig (h : UeInv bs) (m : FlexLcConfigReply) : UeInv (bs.updateLCConfig m) := by
  rw [EnbRibInfo.updateLCConfig]
  split
  · exact h
  · exact h.congr rfl rfl

/-- A new UE gets an entry and a MAC state. -/
theorem activate (h : UeInv bs) {config : FlexUeConfig}
    (hnew : rntiOf config ∉ rntis bs.ueConfig.ueConfig) :
    UeInv { bs with
      ueConfig := { bs.ueConfig with ueConfig := bs.ueConfig.ueConfig ++ [config] }
      ueMacInfo := bs.ueMacInfo.insertIfNew (rntiOf config) (some { rnti := rntiOf config }) } where
  distinct := by
    simp only [rntis, List.map_append, List.map_cons, List.map_nil, List.nodup_append]
    refine ⟨h.distinct, by simp, ?_⟩
    intro a ha b hb
    rw [List.mem_singleton.mp hb]
    rintro rfl
    exact hnew ha
  keys rnti := by
    simp only [rntis, List.map_append, List.map_cons, List.map_nil, List.mem_append,
      List.mem_singleton, Std.ExtTreeMap.mem_insertIfNew, Std.LawfulEqCmp.compare_eq_iff_eq]
    rw [← h.keys, rntis, or_comm, eq_comm]
  nonnull rnti ue hue := by
    rw [Std.ExtTreeMap.getElem?_insertIfNew] at hue
    split at hue
    · obtain rfl := Option.some.inj hue
      simp
    · exact h.nonnull rnti ue hue

/-- A UE that leaves is removed from both containers. -/
theorem deactivate (h : UeInv bs) {rnti : UInt32} {i : ℕ} {lcConfig : FlexLcConfigReply}
    (hi : bs.ueConfig.ueConfig.findIdx? (fun c => rntiOf c == rnti) = some i) :
    UeInv { bs with
      ueConfig := { bs.ueConfig with ueConfig := bs.ueConfig.ueConfig.eraseIdx i }
      ueMacInfo := bs.ueMacInfo.erase rnti
      lcConfig := lcConfig } where
  distinct := by
    simp only [rntis, ← List.eraseIdx_map]
    exact h.distinct.sublist (List.eraseIdx_sublist _ _)
  keys rnti' := by
    obtain ⟨hlt, hfound, -⟩ := List.findIdx?_eq_some_iff_getElem.mp hi
    have hlt' : i < (rntis bs.ueConfig.ueConfig).length := by simpa [rntis] using hlt
    have hget : (rntis bs.ueConfig.ueConfig)[i] = rnti := by
      simpa [rntis] using hfound
    have herase : rntis (bs.ueConfig.ueConfig.eraseIdx i) =
        (rntis bs.ueConfig.ueConfig).erase rnti := by
      rw [rntis, ← List.eraseIdx_map, ← rntis, ← hget, h.distinct.erase_getElem]
    simp only [herase, h.distinct.mem_erase_iff, h.keys, Std.ExtTreeMap.mem_erase,
      ne_eq, Std.LawfulEqCmp.compare_eq_iff_eq, eq_comm (a := rnti)]
  nonnull rnti' ue hue := by
    rw [Std.ExtTreeMap.getElem?_erase] at hue
    split at hue
    · exact absurd hue (by simp)
    · exact h.nonnull rnti' ue hue

theorem updateUEConfigStateChange (h : UeInv bs) (m : FlexUeStateChange) :
    UeInv (bs.updateUEConfigStateChange m) := by
  have hmerge : ∀ {i}, bs.ueConfig.ueConfig.findIdx?
        (fun c => rntiOf c == rntiOf (m.config.getD defaultInstance)) = some i →
      UeInv { bs with ueConfig := { bs.ueConfig with
        ueConfig := bs.ueConfig.ueConfig.modify i fun dst =>
          mergeUeStateChange dst (m.config.getD defaultInstance) } } := fun hi =>
    h.congr (rntis_modify (fun _ hc => rntiOf_mergeUeStateChange hc) hi) rfl
  simp only [EnbRibInfo.updateUEConfigStateChange]
  split
  · split
    · rename_i hi
      exact h.activate (notMem_rntis_of_findIdx?_eq_none hi)
    · rename_i hi
      exact hmerge hi
  · split
    · split
      · exact h
      · rename_i hi
        exact h.deactivate hi
    · split
      · split
        · exact h
        · rename_i hi
          exact hmerge hi
      · exact h

/-- The MAC state of a UE is replaced, never removed. -/
theorem withUeMacInfo (h : UeInv bs) {rnti : UInt32} {f : UeMacRibInfo → Except Fault UeMacRibInfo}
    (hbs : bs.withUeMacInfo rnti f = .ok bs') : UeInv bs' := by
  rw [EnbRibInfo.withUeMacInfo] at hbs
  split at hbs
  · obtain rfl := Except.ok.inj hbs
    exact h
  · exact absurd hbs (by simp)
  · rename_i ue hue
    obtain ⟨ue', _, hbs⟩ := bind_eq_ok_iff.mp hbs
    obtain rfl := Except.ok.inj hbs
    constructor
    · exact h.distinct
    · intro rnti'
      have hmem : rnti ∈ bs.ueMacInfo := by
        rw [Std.ExtTreeMap.mem_iff_isSome_getElem?, hue]
        rfl
      simp only [h.keys, Std.ExtTreeMap.mem_insert, Std.LawfulEqCmp.compare_eq_iff_eq]
      exact ⟨.inr, fun hor => hor.elim (fun heq => heq ▸ hmem) id⟩
    · intro rnti' v hv
      rw [Std.ExtTreeMap.getElem?_insert] at hv
      split at hv
      · obtain rfl := Option.some.inj hv
        simp
      · exact h.nonnull rnti' v hv

/-- A loop keeps the invariant if each round does. -/
private theorem loop {α : Type} {l : List α} {round : EnbRibInfo → α → Except Fault EnbRibInfo}
    (hround : ∀ bs a bs', UeInv bs → round bs a = .ok bs' → UeInv bs') (h : UeInv bs)
    (hbs : l.foldlM round bs = .ok bs') : UeInv bs' :=
  run_invariant hround h hbs

theorem updateSubframe (h : UeInv bs) {m : FlexSfTrigger} (hbs : bs.updateSubframe m = .ok bs') :
    UeInv bs' := by
  obtain ⟨bs₁, hdl, hul⟩ := bind_eq_ok_iff.mp hbs
  -- the frame numbers do not matter
  have h₀ : UeInv { bs with
      currentFrame := some (getFrame (m.sfnSf.getD 0).toUInt16.toUInt32)
      currentSubframe := some (getSubframe (m.sfnSf.getD 0).toUInt16.toUInt32) } := h.congr rfl rfl
  have h₁ : UeInv bs₁ := loop (fun _ _ _ h hb => h.withUeMacInfo hb) h₀ hdl
  exact loop (fun _ _ _ h hb => h.withUeMacInfo hb) h₁ hul

theorem updateCellMacInfo (h : UeInv bs) {i : ℕ} {report : FlexCellStatsReport}
    (hbs : bs.updateCellMacInfo i report = .ok bs') : UeInv bs' := by
  rw [EnbRibInfo.updateCellMacInfo] at hbs
  split at hbs
  · obtain rfl := Except.ok.inj hbs
    exact h.congr rfl rfl
  · exact absurd hbs (by simp)

theorem updateMacStats (h : UeInv bs) {m : FlexStatsReply} (hbs : bs.updateMacStats m = .ok bs') :
    UeInv bs' := by
  obtain ⟨bs₁, hues, hcells⟩ := bind_eq_ok_iff.mp hbs
  have h₁ : UeInv bs₁ := loop (fun _ _ _ h hb => h.withUeMacInfo hb) h hues
  exact loop (fun _ _ _ h hb => h.updateCellMacInfo hb) h₁ hcells

theorem step (h : UeInv bs) {e : Input} (hbs : bs.step e = .ok bs') : UeInv bs' := by
  cases e with
  | eNBConfigReply m => exact Except.ok.inj hbs ▸ h.updateENBConfig m
  | ueConfigReply m => exact Except.ok.inj hbs ▸ h.updateUEConfig m
  | lcConfigReply m => exact Except.ok.inj hbs ▸ h.updateLCConfig m
  | ueStateChange m => exact Except.ok.inj hbs ▸ h.updateUEConfigStateChange m
  | sfTrigger m => exact h.updateSubframe hbs
  | statsReply m => exact h.updateMacStats hbs

/-- The MAC state of a listed UE exists. -/
theorem exists_ueMacInfo (h : UeInv bs) {c : FlexUeConfig} (hc : c ∈ bs.ueConfig.ueConfig) :
    ∃ ue, bs.getUeMacInfo (rntiOf c) = some ue := by
  have hmem := (h.keys (rntiOf c)).mp (List.mem_map_of_mem hc)
  rw [Std.ExtTreeMap.mem_iff_isSome_getElem?] at hmem
  obtain ⟨v, hv⟩ := Option.isSome_iff_exists.mp hmem
  obtain ⟨ue, rfl⟩ := Option.ne_none_iff_exists'.mp (h.nonnull _ v hv)
  exact ⟨ue, by rw [getUeMacInfo, hv]; rfl⟩

end UeInv

theorem ueInv_of_reachable (h : Reachable bs) : UeInv bs := by
  obtain ⟨bsId, agents, fresh, inputs, hfresh, hrun⟩ := h
  exact run_invariant (fun _ _ _ h hb => h.step hb) (ueInv_make hfresh) hrun

end EnbRibInfo
end FlexRan.Rib
