import FlexRan.App.RrcTriggering
import FlexRan.Rib.Updater

/-!
# The search for a physical cell id

The source and the target of a handover may be named by the physical cell id of cell 0.  The
search goes through the base stations in the order of their ids and reads cell 0 of each.  A base
station has no cell between its creation and the first configuration reply, and none after an
empty one; the search does not ask for the number of cells before it reads.

## Main definitions

* `HasCell`: a base station has a cell.
* `Names`: the base station a string names, by its id or by its physical cell id.
* `Searchable`: the search for a physical cell id ends before it comes to a base station without
  a cell.
-/
namespace FlexRan.App

open Lib Protocol Rib Rib.Rib

def HasCell (r : Rib) (b : UInt64) : Prop :=
  ∀ bs, r.eNBConfigs[b]? = some bs → bs.eNBConfig.cellConfig ≠ []

/-- Cell 0 of a base station has the physical cell id. -/
def HasPhysicalCell (r : Rib) (pcId : UInt32) (b : UInt64) : Prop :=
  ∃ bs cell, r.eNBConfigs[b]? = some bs ∧ bs.eNBConfig.cellConfig[0]? = some cell ∧
    (cell.scalar .phyCellId).getD 0 = pcId

/-- The physical cell id in a string that is not the id of a base station. -/
def NamesCellId (r : Rib) (s : String) (pcId : UInt32) : Prop :=
  r.parseBsId s = .ok 0 ∧ ∃ v, stoi s = .ok v ∧ UInt32.ofInt v = pcId ∧ pcId ≤ Rrc.maxPhysCellId

/-- Each base station without a cell comes after one with the physical cell id. -/
def Searchable (r : Rib) (s : String) : Prop :=
  ∀ pcId, NamesCellId r s pcId → ∀ b ∈ r.eNBConfigs, ¬ HasCell r b →
    ∃ c < b, HasPhysicalCell r pcId c

/-- The base station a string names: the one with this id, else the first one with this physical
cell id. -/
inductive Names (r : Rib) (s : String) (b : UInt64) : Prop
  | bsId (h : r.parseBsId s = .ok b) (hne : b ≠ 0)
  | cellId (pcId : UInt32) (h : NamesCellId r s pcId) (hne : b ≠ 0)
      (hcell : HasPhysicalCell r pcId b) (hfirst : ∀ c < b, ¬ HasPhysicalCell r pcId c)

/-! ## The search for a physical cell id -/

section Search

variable {r : Rib} {s : String} {b : UInt64} {pcId : UInt32}

theorem HasPhysicalCell.hasCell (h : HasPhysicalCell r pcId b) : HasCell r b := by
  obtain ⟨bs, cell, hbs, hcell, _⟩ := h
  intro bs' hbs' hnil
  obtain rfl := Option.some.inj (hbs.symm.trans hbs')
  rw [hnil] at hcell
  exact absurd hcell (by simp)

/-- The read of cell 0 of a base station that exists. -/
theorem cellConfig_zero_cases {bs : EnbRibInfo} (hbs : r.eNBConfigs[b]? = some bs) :
    (bs.cellConfig 0 = .error .missingCell ∧ ¬ HasCell r b) ∨
      ∃ cell, bs.cellConfig 0 = .ok cell ∧ bs.eNBConfig.cellConfig[0]? = some cell ∧
        HasCell r b := by
  rw [EnbRibInfo.cellConfig]
  cases hcell : bs.eNBConfig.cellConfig[0]? with
  | none =>
    refine .inl ⟨rfl, fun h => h bs hbs ?_⟩
    simpa using hcell
  | some cell =>
    refine .inr ⟨cell, rfl, rfl, fun bs' hbs' hnil => ?_⟩
    obtain rfl := Option.some.inj (hbs.symm.trans hbs')
    rw [hnil] at hcell
    exact absurd hcell (by simp)

/-- The three ways the loop ends: at a base station without a cell, at the first one with the
physical cell id, or after the last one. -/
theorem findPhysicalCell_cases (r : Rib) (pcId : UInt32) {l : List UInt64}
    (hsorted : l.Pairwise (· < ·)) (hmem : ∀ b ∈ l, b ∈ r.eNBConfigs) :
    (Rrc.findPhysicalCell r pcId l = .error .missingCell ∧
      ∃ b ∈ l, ¬ HasCell r b ∧ ∀ c ∈ l, c < b → ¬ HasPhysicalCell r pcId c) ∨
    (∃ b ∈ l, Rrc.findPhysicalCell r pcId l = .ok b ∧ HasPhysicalCell r pcId b ∧
      ∀ c ∈ l, c < b → HasCell r c ∧ ¬ HasPhysicalCell r pcId c) ∨
    (Rrc.findPhysicalCell r pcId l = .ok 0 ∧
      ∀ b ∈ l, HasCell r b ∧ ¬ HasPhysicalCell r pcId b) := by
  induction l with
  | nil => exact .inr (.inr ⟨rfl, by simp⟩)
  | cons b l ih =>
    rw [List.pairwise_cons] at hsorted
    obtain ⟨bs, hbs⟩ : ∃ bs, r.eNBConfigs[b]? = some bs :=
      ⟨_, Std.ExtTreeMap.getElem?_eq_some_getElem (hmem b (by simp))⟩
    have hself : ∀ c ∈ b :: l, c < b → False := by
      intro c hc hlt
      rcases List.mem_cons.mp hc with rfl | hc
      · exact absurd hlt (UInt64.lt_irrefl _)
      · exact absurd (UInt64.lt_trans (hsorted.1 c hc) hlt) (UInt64.lt_irrefl _)
    simp only [Rrc.findPhysicalCell, getBs, hbs]
    rcases cellConfig_zero_cases hbs with ⟨hmissing, hnot⟩ | ⟨cell, hcell, hget, hhas⟩
    · rw [hmissing]
      exact .inl ⟨rfl, b, by simp, hnot, fun c hc hlt => (hself c hc hlt).elim⟩
    · rw [hcell]
      by_cases hpc : pcId = (cell.scalar .phyCellId).getD 0
      · refine .inr (.inl ⟨b, by simp, if_pos hpc, ⟨bs, cell, hbs, hget, hpc.symm⟩, ?_⟩)
        exact fun c hc hlt => (hself c hc hlt).elim
      · have hnot : ¬ HasPhysicalCell r pcId b := by
          rintro ⟨bs', cell', hbs', hcell', heq⟩
          obtain rfl := Option.some.inj (hbs.symm.trans hbs')
          obtain rfl := Option.some.inj (hget.symm.trans hcell')
          exact hpc heq.symm
        have hrest := ih hsorted.2 fun c hc => hmem c (List.mem_cons_of_mem _ hc)
        have hstep : ((Except.ok cell : Except Abort FlexCellConfig) >>= fun cell =>
            if pcId = (cell.scalar .phyCellId).getD 0 then return b
            else Rrc.findPhysicalCell r pcId l) = Rrc.findPhysicalCell r pcId l := if_neg hpc
        rw [hstep]
        rcases hrest with ⟨heq, c, hc, hcell', hfirst⟩ | ⟨c, hc, heq, hcell', hfirst⟩ | ⟨heq, hall⟩
        · refine .inl ⟨heq, c, List.mem_cons_of_mem _ hc, hcell', fun d hd hlt => ?_⟩
          rcases List.mem_cons.mp hd with rfl | hd
          · exact hnot
          · exact hfirst d hd hlt
        · refine .inr (.inl ⟨c, List.mem_cons_of_mem _ hc, heq, hcell', fun d hd hlt => ?_⟩)
          rcases List.mem_cons.mp hd with rfl | hd
          · exact ⟨hhas, hnot⟩
          · exact hfirst d hd hlt
        · refine .inr (.inr ⟨heq, fun d hd => ?_⟩)
          rcases List.mem_cons.mp hd with rfl | hd
          · exact ⟨hhas, hnot⟩
          · exact hall d hd

theorem pairwise_availableBaseStations (r : Rib) :
    r.getAvailableBaseStations.Pairwise (· < ·) := by
  rw [getAvailableBaseStations, Std.ExtTreeMap.map_fst_toList_eq_keys]
  exact Std.ExtTreeMap.ordered_keys.imp fun h => Std.compare_eq_lt.mp h

theorem HasPhysicalCell.mem (h : HasPhysicalCell r pcId b) : b ∈ r.eNBConfigs := by
  obtain ⟨bs, _, hbs, _⟩ := h
  rw [Std.ExtTreeMap.mem_iff_isSome_getElem?, hbs]
  rfl

theorem NamesCellId.unique {pcId' : UInt32} (h : NamesCellId r s pcId)
    (h' : NamesCellId r s pcId') : pcId' = pcId := by
  obtain ⟨-, v, hv, heq, -⟩ := h
  obtain ⟨-, v', hv', heq', -⟩ := h'
  obtain rfl := Except.ok.inj (hv.symm.trans hv')
  exact heq'.symm.trans heq

/-- A string that is no number up to the limit names no cell. -/
theorem not_names (h : ∀ b, b ≠ 0 → r.parseBsId s ≠ .ok b) (hid : ∀ pcId, ¬ NamesCellId r s pcId) :
    Searchable r s ∧ ∀ c, ¬ Names r s c := by
  refine ⟨fun pcId hp => absurd hp (hid pcId), fun c hc => ?_⟩
  cases hc with
  | bsId hb hne => exact h c hne hb
  | cellId pcId hp => exact hid pcId hp

/-- The three ways the search for a number as a physical cell id ends. -/
theorem findPhysicalCell_names (hname : NamesCellId r s pcId) :
    let found := Rrc.findPhysicalCell r pcId r.getAvailableBaseStations
    (found = .error .missingCell ∧ ¬ Searchable r s) ∨
    (∃ b, b ≠ 0 ∧ found = .ok b ∧ Searchable r s ∧ ∀ c, Names r s c ↔ c = b) ∨
    (found = .ok 0 ∧ Searchable r s ∧ ∀ c, ¬ Names r s c) := by
  have hnot : ∀ b, b ≠ 0 → r.parseBsId s ≠ .ok b :=
    fun b hb h => hb (Except.ok.inj (h.symm.trans hname.1))
  rcases findPhysicalCell_cases r pcId (pairwise_availableBaseStations r)
      (fun b hb => mem_availableBaseStations.mp hb) with
    ⟨heq, b, hb, hcell, hfirst⟩ | ⟨b, hb, heq, hcell, hfirst⟩ | ⟨heq, hall⟩
  · refine .inl ⟨heq, fun hsearch => ?_⟩
    obtain ⟨c, hlt, hc⟩ := hsearch pcId hname b (mem_availableBaseStations.mp hb) hcell
    exact hfirst c (mem_availableBaseStations.mpr hc.mem) hlt hc
  · have hsearch : Searchable r s := by
      intro pcId' hname' c hc hmissing
      obtain rfl := hname.unique hname'
      refine ⟨b, ?_, hcell⟩
      rcases Std.lt_trichotomy b c with hlt | rfl | hgt
      · exact hlt
      · exact absurd hcell.hasCell hmissing
      · exact absurd (hfirst c (mem_availableBaseStations.mpr hc) hgt).1 hmissing
    -- no other base station is the first one with the physical cell id
    have hunique : ∀ c, Names r s c → c = b := by
      intro c hc
      cases hc with
      | bsId h hne => exact absurd h (hnot c hne)
      | cellId pcId' hname' _ hcell' hfirst' =>
        obtain rfl := hname.unique hname'
        rcases Std.lt_trichotomy b c with hlt | rfl | hgt
        · exact absurd hcell (hfirst' b hlt)
        · rfl
        · exact absurd hcell' (hfirst c (mem_availableBaseStations.mpr hcell'.mem) hgt).2
    by_cases hb0 : b = 0
    · subst hb0
      refine .inr (.inr ⟨heq, hsearch, fun c hc => ?_⟩)
      obtain rfl := hunique c hc
      cases hc with
      | bsId _ hne => exact hne rfl
      | cellId _ _ hne => exact hne rfl
    · refine .inr (.inl ⟨b, hb0, heq, hsearch, fun c => ⟨hunique c, ?_⟩⟩)
      rintro rfl
      refine .cellId pcId hname hb0 hcell fun d hd h => ?_
      exact (hfirst d (mem_availableBaseStations.mpr h.mem) hd).2 h
  · refine .inr (.inr ⟨heq, fun pcId' _ b hb hmissing => ?_, fun c hc => ?_⟩)
    · exact absurd (hall b (mem_availableBaseStations.mpr hb)).1 hmissing
    · cases hc with
      | bsId h hne => exact hnot c hne h
      | cellId pcId' hname' _ hcell =>
        obtain rfl := hname.unique hname'
        exact (hall c (mem_availableBaseStations.mpr hcell.mem)).2 hcell

theorem Names.exists_bs (h : Names r s b) : ∃ bs, r.eNBConfigs[b]? = some bs := by
  cases h with
  | bsId h hne => exact exists_bs_of_parseBsId h hne
  | cellId pcId _ _ hcell =>
    obtain ⟨bs, _, hbs, _⟩ := hcell
    exact ⟨bs, hbs⟩

/-- The three ways the name of a base station or of a cell is resolved. -/
theorem parseBsOrCell_cases (r : Rib) (s : String) :
    (Rrc.parseBsOrCell r s = .error .missingCell ∧ ¬ Searchable r s) ∨
    (∃ b, b ≠ 0 ∧ Rrc.parseBsOrCell r s = .ok b ∧ Searchable r s ∧ ∀ c, Names r s c ↔ c = b) ∨
    ((Rrc.parseBsOrCell r s = .ok 0 ∨ Rrc.parseBsOrCell r s = .error .outOfRange) ∧
      Searchable r s ∧ ∀ c, ¬ Names r s c) := by
  cases hb : r.parseBsId s with
  | error e =>
    obtain rfl := parseBsId_error hb
    have hnone : ∀ b, r.parseBsId s ≠ .ok b := fun b h => nomatch hb.symm.trans h
    have hparse : Rrc.parseBsOrCell r s = .error .outOfRange := by rw [Rrc.parseBsOrCell, hb]; rfl
    exact .inr (.inr ⟨.inr hparse, not_names (fun b _ => hnone b) fun _ h => hnone 0 h.1⟩)
  | ok b =>
    have hparse : Rrc.parseBsOrCell r s =
        if b = 0 then Rrc.parsePhysicalCellId r s else .ok b := by rw [Rrc.parseBsOrCell, hb]; rfl
    by_cases hb0 : b = 0
    · subst hb0
      rw [if_pos rfl] at hparse
      have hnot : ∀ c, c ≠ 0 → r.parseBsId s ≠ .ok c :=
        fun c hc h => hc (Except.ok.inj (h.symm.trans hb))
      rw [hparse, Rrc.parsePhysicalCellId]
      cases hv : stoi s with
      | error e =>
        have hid : ∀ pcId, ¬ NamesCellId r s pcId := by
          rintro pcId ⟨-, v, hv', -⟩
          exact nomatch hv.symm.trans hv'
        refine .inr (.inr ⟨?_, not_names hnot hid⟩)
        cases e with
        | invalidArgument => exact .inl rfl
        | outOfRange => exact .inr rfl
      | ok v =>
        dsimp only
        by_cases hmax : UInt32.ofInt v > Rrc.maxPhysCellId
        · have hid : ∀ pcId, ¬ NamesCellId r s pcId := by
            rintro pcId ⟨-, v', hv', rfl, hle⟩
            obtain rfl := Except.ok.inj (hv.symm.trans hv')
            exact absurd hle (UInt32.not_le.mpr hmax)
          rw [if_pos hmax]
          exact .inr (.inr ⟨.inl rfl, not_names hnot hid⟩)
        · rw [if_neg hmax]
          rcases findPhysicalCell_names ⟨hb, v, hv, rfl, UInt32.not_lt.mp hmax⟩ with
            hmissing | hfound | ⟨hzero, hnone⟩
          · exact .inl hmissing
          · exact .inr (.inl hfound)
          · exact .inr (.inr ⟨.inl hzero, hnone⟩)
    · rw [if_neg hb0] at hparse
      refine .inr (.inl ⟨b, hb0, hparse, fun pcId hp => ?_, fun c => ⟨fun hc => ?_, ?_⟩⟩)
      · exact absurd (Except.ok.inj (hb.symm.trans hp.1)) hb0
      · cases hc with
        | bsId h hne => exact Except.ok.inj (h.symm.trans hb)
        | cellId pcId hp => exact absurd (Except.ok.inj (hb.symm.trans hp.1)) hb0
      · rintro rfl
        exact .bsId hb hb0

end Search

end FlexRan.App
