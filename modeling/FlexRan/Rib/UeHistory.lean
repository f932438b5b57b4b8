import FlexRan.Rib.Isolation
import FlexRan.Rib.StatsSections

/-!
# The history of a UE

What the RIB keeps of a UE is spread over arrays and a report that messages of all agents of the
base station write to.  Seen from one UE it is simple: the UE is there if the last thing said of it
was that it came, and each register has the value that was said of it last since then, whatever
else the agents have sent and whatever happened to other UEs and base stations.

## Main definitions

* `signals`: what a message says of a UE.
* `heard`: what has been said of it since it came.
* `Shows`: the registers have the values that were heard last.
* `chronicleStep`: the RIB with the messages each base station has been sent.
-/
namespace FlexRan.Rib

set_option linter.dupNamespace false

open Lib Lib.Message Protocol

namespace UeMacRibInfo

/-! ## Signals -/

inductive Signal
  | activated
  | deactivated
  | dlInfo (m : FlexDlInfo)
  | ulInfo (m : FlexUlInfo)
  | report (m : FlexUeStatsReport)

/-- What the UE has been told since it came; a second activation says nothing new. -/
def hearOne : Option (List Signal) → Signal → Option (List Signal)
  | none, .activated => some []
  | none, _ => none
  | some l, .activated => some l
  | some _, .deactivated => none
  | some l, s => some (l ++ [s])

def heard (l : List Signal) : Option (List Signal) := l.foldl hearOne none

theorem heard_append_singleton (l : List Signal) (s : Signal) :
    heard (l ++ [s]) = hearOne (heard l) s := by
  simp [heard]

/-! ## Registers -/

/-- The section of a report. -/
def sectionOf (f : FlexUeStatsType) : Signal → Option f.Value
  | .report m => f.carried m
  | _ => none

/-- The status of a HARQ process of a component carrier, for each transport block. -/
def harqStatus (cc harq tb : ℕ) : Signal → Option UInt8
  | .dlInfo m =>
    if (m.servCellIndex.getD 0).toUInt8.toNat = cc ∧ (m.harqProcessId.getD 0).toUInt8.toNat = harq
    then (m.harqStatus[tb]?).map UInt32.toUInt8 else none
  | _ => none

def receptionStatus (cc : ℕ) : Signal → Option UInt8
  | .ulInfo m =>
    if (m.servCellIndex.getD 0).toUInt8.toNat = cc then some (m.receptionStatus.getD 0).toUInt8
    else none
  | _ => none

def receptionData (cc lc : ℕ) : Signal → Option UInt8
  | .ulInfo m =>
    if (m.servCellIndex.getD 0).toUInt8.toNat = cc then (m.ulReception[lc]?).map UInt32.toUInt8
    else none
  | _ => none

def powerControl : Signal → Option UInt8
  | .ulInfo m => some (m.tpc.getD 0).toUInt8
  | _ => none

/-- Each register has the value that was heard last. -/
structure Shows (l : List Signal) (ue : UeMacRibInfo) : Prop where
  sections : ∀ f : FlexUeStatsType,
    f.value ue.macStatsReport = (last? (sectionOf f) l).getD (f.value {})
  harqStats : ∀ cc harq tb, ue.harqStats cc harq tb = (last? (harqStatus cc harq tb) l).getD 0
  uplinkReceptionStats : ∀ cc,
    ue.uplinkReceptionStats cc = (last? (receptionStatus cc) l).getD 0
  ulReceptionData : ∀ cc lc, ue.ulReceptionData cc lc = (last? (receptionData cc lc) l).getD 0
  tpc : ue.tpc = last? powerControl l

theorem shows_nil (rnti : UInt32) : Shows [] { rnti := rnti } := by
  constructor <;> intros <;> rfl

/-- What a signal makes of the state. -/
def hear : Signal → UeMacRibInfo → Except Fault UeMacRibInfo
  | .dlInfo m, ue => ue.updateDlSfInfo m
  | .ulInfo m, ue => ue.updateUlSfInfo m
  | .report m, ue => .ok (ue.updateMacStatsReport m)
  | _, ue => .ok ue

/-! ## One signal -/

section Registers

variable {ue ue' : UeMacRibInfo} {m : FlexDlInfo}

theorem harqStats_writeHarq {ccId harqId : UInt8} {i : ℕ} {status : UInt32}
    (h : ue.writeHarq ccId harqId i status = .ok ue') (cc : Fin maxNumCC) (harq : Fin maxNumHarq)
    (tb : Fin maxNumTB) :
    ue'.harqStats cc harq tb =
      (if ccId.toNat = cc ∧ harqId.toNat = harq ∧ i = tb then some status.toUInt8 else none).getD
        (ue.harqStats cc harq tb) := by
  rw [writeHarq] at h
  split at h
  · rename_i hbounds
    cases h
    by_cases hcc : ⟨ccId.toNat, hbounds.1⟩ = cc
    · subst hcc
      by_cases hharq : ⟨harqId.toNat, hbounds.2.1⟩ = harq
      · subst hharq
        by_cases htb : ⟨i, hbounds.2.2⟩ = tb
        · subst htb
          simp
        · simp [Function.update_of_ne (Ne.symm htb), mt Fin.ext htb]
      · simp [Function.update_of_ne (Ne.symm hharq), mt Fin.ext hharq]
    · simp [Function.update_of_ne (Ne.symm hcc), mt Fin.ext hcc]
  · cases h

theorem harqStats_updateDlSfInfo (h : ue.updateDlSfInfo m = .ok ue') (cc : Fin maxNumCC)
    (harq : Fin maxNumHarq) (tb : Fin maxNumTB) :
    ue'.harqStats cc harq tb =
      (harqStatus cc harq tb (.dlInfo m)).getD (ue.harqStats cc harq tb) := by
  have hwrite := fun (s : UeMacRibInfo) (e : UInt32 × ℕ) t
      (hstep : s.writeHarq (m.servCellIndex.getD 0).toUInt8 (m.harqProcessId.getD 0).toUInt8
        e.2 e.1 = .ok t) => harqStats_writeHarq hstep cc harq tb
  have hlast := run_register (fun s : UeMacRibInfo => s.harqStats cc harq tb) hwrite h
  rw [hlast, harqStatus]
  split_ifs with hprocess
  · rw [← last?_zipIdx]
    simp [hprocess]
  · rw [last?_eq_none]
    intro e _
    simp only [ite_eq_right_iff, reduceCtorEq, imp_false]
    intro hwritten
    exact hprocess ⟨hwritten.1, hwritten.2.1⟩

theorem frame_writeHarq {ccId harqId : UInt8} {i : ℕ} {status : UInt32}
    (h : ue.writeHarq ccId harqId i status = .ok ue') :
    ∃ stats active, ue' = { ue with harqStats := stats, activeHarq := active } := by
  rw [writeHarq] at h
  split at h
  · cases h
    exact ⟨_, _, rfl⟩
  · cases h

theorem frame_updateDlSfInfo (h : ue.updateDlSfInfo m = .ok ue') :
    ∃ stats active, ue' = { ue with harqStats := stats, activeHarq := active } := by
  refine run_invariant
    (I := fun s => ∃ stats active, s = { ue with harqStats := stats, activeHarq := active })
    ?_ ⟨_, _, rfl⟩ h
  intro s e t hs hstep
  obtain ⟨_, _, rfl⟩ := hs
  obtain ⟨_, _, rfl⟩ := frame_writeHarq hstep
  exact ⟨_, _, rfl⟩

theorem ulReceptionData_writeUlReception {ccId : UInt8} {i : ℕ} {data : UInt32}
    (h : ue.writeUlReception ccId i data = .ok ue') (cc : Fin maxNumCC) (lc : Fin maxNumLC) :
    ue'.ulReceptionData cc lc =
      (if ccId.toNat = cc ∧ i = lc then some data.toUInt8 else none).getD
        (ue.ulReceptionData cc lc) := by
  rw [writeUlReception] at h
  split at h
  · rename_i hbounds
    cases h
    by_cases hcc : ⟨ccId.toNat, hbounds.1⟩ = cc
    · subst hcc
      by_cases hlc : ⟨i, hbounds.2⟩ = lc
      · subst hlc
        simp
      · simp [Function.update_of_ne (Ne.symm hlc), mt Fin.ext hlc]
    · simp [Function.update_of_ne (Ne.symm hcc), mt Fin.ext hcc]
  · cases h

theorem frame_writeUlReception {ccId : UInt8} {i : ℕ} {data : UInt32}
    (h : ue.writeUlReception ccId i data = .ok ue') :
    ∃ received, ue' = { ue with ulReceptionData := received } := by
  rw [writeUlReception] at h
  split at h
  · cases h
    exact ⟨_, rfl⟩
  · cases h

/-- The status and the power control command are written first, then the data in a loop. -/
theorem updateUlSfInfo_cases {m : FlexUlInfo} (h : ue.updateUlSfInfo m = .ok ue') :
    ∃ received,
      ue' = { ue with
        tpc := some (m.tpc.getD 0).toUInt8
        uplinkReceptionStats := fun cc =>
          (receptionStatus cc (.ulInfo m)).getD (ue.uplinkReceptionStats cc)
        ulReceptionData := received } ∧
      ∀ cc lc, received cc lc =
        (receptionData cc lc (.ulInfo m)).getD (ue.ulReceptionData cc lc) := by
  rw [updateUlSfInfo] at h
  split at h
  · rename_i hbound
    have hframe := run_invariant
      (I := fun s => ∃ received, s = { ue with
        tpc := some (m.tpc.getD 0).toUInt8
        uplinkReceptionStats := Function.update ue.uplinkReceptionStats
          ⟨(m.servCellIndex.getD 0).toUInt8.toNat, hbound⟩ (m.receptionStatus.getD 0).toUInt8
        ulReceptionData := received })
      (fun s e t hs hstep => by
        obtain ⟨_, rfl⟩ := hs
        obtain ⟨_, rfl⟩ := frame_writeUlReception hstep
        exact ⟨_, rfl⟩)
      ⟨_, rfl⟩ h
    obtain ⟨received, rfl⟩ := hframe
    refine ⟨received, ?_, ?_⟩
    · congr 1
      funext cc
      simp only [Function.update_apply, receptionStatus, Fin.ext_iff, eq_comm (a := cc.val)]
      split_ifs <;> rfl
    · intro cc lc
      have hwrite := fun (s : UeMacRibInfo) (e : UInt32 × ℕ) t
          (hstep : s.writeUlReception (m.servCellIndex.getD 0).toUInt8 e.2 e.1 = .ok t) =>
        ulReceptionData_writeUlReception hstep cc lc
      have hlast := run_register (fun s : UeMacRibInfo => s.ulReceptionData cc lc) hwrite h
      rw [receptionData]
      refine hlast.trans ?_
      split_ifs with hcc
      · rw [← last?_zipIdx]
        simp [hcc]
      · rw [last?_eq_none]
        intro e _
        simp only [ite_eq_right_iff, reduceCtorEq, imp_false]
        intro hwritten
        exact hcc hwritten.1
  · cases h

end Registers

/-- A register after one more signal. -/
theorem getD_last?_concat {α : Type} (f : Signal → Option α) (l : List Signal) (s : Signal) (a : α) :
    (last? f (l ++ [s])).getD a = (f s).getD ((last? f l).getD a) := by
  rw [last?_append, last?_singleton]
  cases f s <;> rfl

theorem Shows.hear {l : List Signal} {ue ue' : UeMacRibInfo} {s : Signal} (h : Shows l ue)
    (hs : hear s ue = .ok ue') : Shows (l ++ [s]) ue' := by
  constructor
  · intro f
    rw [getD_last?_concat, ← h.sections]
    cases s with
    | report m =>
      cases hs
      exact f.value_updateMacStatsReport ue m
    | dlInfo m =>
      obtain ⟨_, _, rfl⟩ := frame_updateDlSfInfo hs
      rfl
    | ulInfo m =>
      obtain ⟨_, rfl, -⟩ := updateUlSfInfo_cases hs
      rfl
    | activated => cases hs; rfl
    | deactivated => cases hs; rfl
  · intro cc harq tb
    rw [getD_last?_concat, ← h.harqStats]
    cases s with
    | dlInfo m => exact harqStats_updateDlSfInfo hs cc harq tb
    | ulInfo m =>
      obtain ⟨_, rfl, -⟩ := updateUlSfInfo_cases hs
      rfl
    | _ => cases hs; rfl
  · intro cc
    rw [getD_last?_concat, ← h.uplinkReceptionStats]
    cases s with
    | dlInfo m =>
      obtain ⟨_, _, rfl⟩ := frame_updateDlSfInfo hs
      rfl
    | ulInfo m =>
      obtain ⟨_, rfl, -⟩ := updateUlSfInfo_cases hs
      rfl
    | _ => cases hs; rfl
  · intro cc lc
    rw [getD_last?_concat, ← h.ulReceptionData]
    cases s with
    | dlInfo m =>
      obtain ⟨_, _, rfl⟩ := frame_updateDlSfInfo hs
      rfl
    | ulInfo m =>
      obtain ⟨received, rfl, hreceived⟩ := updateUlSfInfo_cases hs
      exact hreceived cc lc
    | _ => cases hs; rfl
  · rw [last?_append, last?_singleton, ← h.tpc]
    cases s with
    | dlInfo m =>
      obtain ⟨_, _, rfl⟩ := frame_updateDlSfInfo hs
      rfl
    | ulInfo m =>
      obtain ⟨_, rfl, -⟩ := updateUlSfInfo_cases hs
      rfl
    | _ => cases hs; rfl

end UeMacRibInfo

open UeMacRibInfo

/-! ## Messages to a base station -/

namespace EnbRibInfo

/-- What a message says of a UE. -/
def signals (rnti : UInt32) : Input → List Signal
  | .ueStateChange m =>
    if rntiOf (m.config.getD defaultInstance) = rnti then
      if m.type.getD 0 = fluescActivated then [.activated]
      else if m.type.getD 0 = fluescDeactivated then [.deactivated]
      else []
    else []
  | .sfTrigger m =>
    (m.dlInfo.filter fun info => info.rnti.getD 0 == rnti).map .dlInfo ++
      (m.ulInfo.filter fun info => info.rnti.getD 0 == rnti).map .ulInfo
  | .statsReply m => (m.ueReport.filter fun report => report.rnti.getD 0 == rnti).map .report
  | .eNBConfigReply _ | .ueConfigReply _ | .lcConfigReply _ => []

/-- The UE is there if it came and did not leave, with the values that were heard last. -/
def Tells (bs : EnbRibInfo) (rnti : UInt32) (l : List Signal) : Prop :=
  Option.Rel Shows (heard l) (bs.getUeMacInfo rnti)

variable {bs bs' : EnbRibInfo} {rnti : UInt32} {l : List Signal}

theorem Tells.congr (h : bs.Tells rnti l) (hmac : bs'.ueMacInfo = bs.ueMacInfo) :
    bs'.Tells rnti l := by
  rw [Tells, getUeMacInfo, hmac]
  exact h

/-- A signal to the UE that a part of a message has. -/
theorem Tells.withUeMacInfo {s : Signal} (hs : ∀ l, hearOne l s = l.map (· ++ [s]))
    (h : bs.Tells rnti l) {key : UInt32} (hbs : bs.withUeMacInfo key (hear s) = .ok bs') :
    bs'.Tells rnti (l ++ if key == rnti then [s] else []) := by
  rw [EnbRibInfo.withUeMacInfo] at hbs
  by_cases hkey : key = rnti
  · subst hkey
    simp only [beq_self_eq_true, if_true, Tells, heard_append_singleton, hs]
    rw [Tells] at h
    split at hbs
    · rename_i hnone
      cases hbs
      rw [getUeMacInfo, hnone] at h ⊢
      cases hl : heard l with
      | none => exact .none
      | some _ =>
        rw [hl] at h
        cases h
    · cases hbs
    · rename_i ue hue
      obtain ⟨ue', hhear, hbs⟩ := bind_eq_ok_iff.mp hbs
      cases hbs
      rw [getUeMacInfo, hue] at h
      rw [getUeMacInfo, Std.ExtTreeMap.getElem?_insert_self]
      cases hl : heard l with
      | none =>
        rw [hl] at h
        cases h
      | some heard =>
        rw [hl] at h
        cases h with
        | some hshows => exact .some (hshows.hear hhear)
  · simp only [beq_iff_eq, if_neg hkey, List.append_nil]
    split at hbs
    · cases hbs
      exact h
    · cases hbs
    · obtain ⟨ue', _, hbs⟩ := bind_eq_ok_iff.mp hbs
      cases hbs
      rw [Tells, getUeMacInfo, Std.ExtTreeMap.getElem?_insert,
        if_neg fun heq => hkey (Std.LawfulEqCmp.eq_of_compare heq)]
      exact h

/-- The loop over a part of a message. -/
theorem Tells.loop {ε : Type} {signal : ε → Signal} {key : ε → UInt32}
    (hs : ∀ e l, hearOne l (signal e) = l.map (· ++ [signal e])) (h : bs.Tells rnti l)
    {es : List ε}
    (hbs : es.foldlM (fun bs e => bs.withUeMacInfo (key e) (hear (signal e))) bs = .ok bs') :
    bs'.Tells rnti (l ++ (es.filter fun e => key e == rnti).map signal) := by
  induction es generalizing bs l with
  | nil =>
    cases hbs
    simpa using h
  | cons e es ih =>
    obtain ⟨bs₁, hone, hrest⟩ := bind_eq_ok_iff.mp hbs
    have h₁ := ih (h.withUeMacInfo (hs e) hone) hrest
    rw [List.append_assoc] at h₁
    by_cases hkey : key e == rnti
    · simpa [hkey] using h₁
    · simpa [hkey] using h₁

theorem ueMacInfo_updateCellMacInfo {i : ℕ} {report : FlexCellStatsReport}
    (h : bs.updateCellMacInfo i report = .ok bs') : bs'.ueMacInfo = bs.ueMacInfo := by
  rw [updateCellMacInfo] at h
  split at h
  · cases h
    rfl
  · cases h

/-- A UE that is not listed has no MAC state. -/
theorem UeInv.notMem_ueMacInfo (hinv : UeInv bs)
    (hi : bs.ueConfig.ueConfig.findIdx? (fun c => rntiOf c == rnti) = none) :
    rnti ∉ bs.ueMacInfo :=
  mt (hinv.keys rnti).mpr (notMem_rntis_of_findIdx?_eq_none hi)

/-- A UE that is listed has one. -/
theorem UeInv.exists_of_findIdx? (hinv : UeInv bs) {i : ℕ}
    (hi : bs.ueConfig.ueConfig.findIdx? (fun c => rntiOf c == rnti) = some i) :
    ∃ ue, bs.getUeMacInfo rnti = some ue := by
  obtain ⟨hlt, hfound, -⟩ := List.findIdx?_eq_some_iff_getElem.mp hi
  rw [← beq_iff_eq.mp hfound]
  exact hinv.exists_ueMacInfo (List.getElem_mem hlt)

theorem Tells.heard_eq_none (h : bs.Tells rnti l) (hmem : rnti ∉ bs.ueMacInfo) :
    heard l = none := by
  rw [Tells, getUeMacInfo, Std.ExtTreeMap.getElem?_eq_none hmem] at h
  cases hl : heard l with
  | none => rfl
  | some _ =>
    rw [hl] at h
    cases h

theorem Tells.exists_heard (h : bs.Tells rnti l) (hue : ∃ ue, bs.getUeMacInfo rnti = some ue) :
    ∃ told, heard l = some told := by
  obtain ⟨ue, hue⟩ := hue
  rw [Tells, hue] at h
  cases hl : heard l with
  | none =>
    rw [hl] at h
    cases h
  | some told => exact ⟨told, rfl⟩

/-- A UE comes and leaves with its state changes; those of other UEs leave it alone. -/
theorem Tells.updateUEConfigStateChange (h : bs.Tells rnti l) (hinv : UeInv bs)
    (m : FlexUeStateChange) :
    (bs.updateUEConfigStateChange m).Tells rnti (l ++ signals rnti (.ueStateChange m)) := by
  simp only [EnbRibInfo.updateUEConfigStateChange, signals]
  by_cases hrnti : rntiOf (m.config.getD defaultInstance) = rnti
  · simp only [hrnti, if_true]
    split_ifs with hactivated hdeactivated hupdated
    · rw [Tells, heard_append_singleton]
      split
      · rename_i hi
        have hmem := hinv.notMem_ueMacInfo hi
        rw [h.heard_eq_none hmem, getUeMacInfo, Std.ExtTreeMap.getElem?_insertIfNew]
        simp only [hmem, not_false_eq_true, Std.ReflCmp.compare_self, and_self, if_true]
        exact .some (shows_nil rnti)
      · rename_i hi
        obtain ⟨told, htold⟩ := h.exists_heard (hinv.exists_of_findIdx? hi)
        rw [Tells, htold] at h
        rw [htold]
        exact h
    · rw [Tells, heard_append_singleton]
      split
      · rename_i hi
        rw [h.heard_eq_none (hinv.notMem_ueMacInfo hi), getUeMacInfo,
          Std.ExtTreeMap.getElem?_eq_none (hinv.notMem_ueMacInfo hi)]
        exact .none
      · rw [getUeMacInfo, Std.ExtTreeMap.getElem?_erase]
        simp only [Std.ReflCmp.compare_self, if_true, Option.getD_none]
        cases heard l with
        | none => exact .none
        | some _ => exact .none
    · rw [List.append_nil]
      split
      · exact h
      · exact h.congr rfl
    · rw [List.append_nil]
      exact h
  · simp only [hrnti, if_false, List.append_nil]
    split_ifs
    · split
      · rw [Tells, getUeMacInfo, Std.ExtTreeMap.getElem?_insertIfNew]
        simp only [Std.LawfulEqCmp.compare_eq_iff_eq, hrnti, false_and, if_false]
        exact h
      · exact h.congr rfl
    · split
      · exact h
      · rw [Tells, getUeMacInfo, Std.ExtTreeMap.getElem?_erase]
        simp only [Std.LawfulEqCmp.compare_eq_iff_eq, hrnti, if_false]
        exact h
    · split
      · exact h
      · exact h.congr rfl
    · exact h

theorem Tells.updateSubframe (h : bs.Tells rnti l) {m : FlexSfTrigger}
    (hbs : bs.updateSubframe m = .ok bs') : bs'.Tells rnti (l ++ signals rnti (.sfTrigger m)) := by
  obtain ⟨bs₁, hdl, hul⟩ := bind_eq_ok_iff.mp hbs
  rw [signals, ← List.append_assoc]
  refine Tells.loop (fun _ l => by cases l <;> rfl) ?_ hul
  refine Tells.loop (fun _ l => by cases l <;> rfl) ?_ hdl
  -- the frame numbers do not matter
  exact h.congr rfl

theorem Tells.updateMacStats (h : bs.Tells rnti l) {m : FlexStatsReply}
    (hbs : bs.updateMacStats m = .ok bs') : bs'.Tells rnti (l ++ signals rnti (.statsReply m)) := by
  obtain ⟨bs₁, hues, hcells⟩ := bind_eq_ok_iff.mp hbs
  have h₁ : bs₁.Tells rnti (l ++ signals rnti (.statsReply m)) :=
    Tells.loop (fun _ l => by cases l <;> rfl) h hues
  have hmac : bs'.ueMacInfo = bs₁.ueMacInfo :=
    run_invariant (I := fun bs => bs.ueMacInfo = bs₁.ueMacInfo)
      (fun _ _ _ hs hstep => (ueMacInfo_updateCellMacInfo hstep).trans hs) rfl hcells
  exact h₁.congr hmac

theorem Tells.step (h : bs.Tells rnti l) (hinv : UeInv bs) {input : Input}
    (hbs : bs.step input = .ok bs') : bs'.Tells rnti (l ++ signals rnti input) := by
  cases input with
  | eNBConfigReply m =>
    cases hbs
    rw [signals, List.append_nil, updateENBConfig]
    split
    · exact h.congr rfl
    · exact h.congr rfl
  | ueConfigReply m =>
    cases hbs
    rw [signals, List.append_nil]
    exact h.congr rfl
  | lcConfigReply m =>
    cases hbs
    rw [signals, List.append_nil, updateLCConfig]
    split
    · exact h
    · exact h.congr rfl
  | ueStateChange m =>
    cases hbs
    exact h.updateUEConfigStateChange hinv m
  | sfTrigger m => exact h.updateSubframe hbs
  | statsReply m => exact h.updateMacStats hbs

/-- What a UE is told in a sequence of messages. -/
theorem Tells.run_step (h : bs.Tells rnti l) (hreach : bs.Reachable) {inputs : List Input}
    (hrun : run EnbRibInfo.step bs inputs = .ok bs') :
    bs'.Tells rnti (l ++ inputs.flatMap (signals rnti)) := by
  induction inputs generalizing bs l with
  | nil =>
    cases hrun
    simpa using h
  | cons input inputs ih =>
    rw [run_cons] at hrun
    obtain ⟨bs₁, hstep, hrun⟩ := bind_eq_ok_iff.mp hrun
    have h₁ := ih (h.step (ueInv_of_reachable hreach) hstep) (hreach.step hstep) hrun
    rwa [List.append_assoc] at h₁

/-- A UE of a base station as constructed. -/
theorem tells_make {b : UInt64} {agents : SharedSet AgentInfo} (h : make b agents = .ok bs)
    (rnti : UInt32) : bs.Tells rnti [] := by
  obtain ⟨-, rfl⟩ := make_eq_ok_iff.mp h
  rw [Tells, getUeMacInfo, Std.ExtTreeMap.getElem?_empty]
  exact .none

end EnbRibInfo

/-! ## Runs of the RIB -/

open EnbRibInfo Rib App.Log

/-- The message to a base station that a message is. -/
def input? (inMessage : FlexranMessage) : Option EnbRibInfo.Input :=
  match inMessage.msg with
  | .enbConfigReply m => some (.eNBConfigReply m)
  | .ueConfigReply m => some (.ueConfigReply m)
  | .lcConfigReply m => some (.lcConfigReply m)
  | .ueStateChange m => some (.ueStateChange m)
  | .sfTrigger m => some (.sfTrigger m)
  | .statsReply m => some (.statsReply m)
  | _ => none

/-- What a base station is told by a message: one of its agents sent it. -/
def toldBy (r : Rib) (b : UInt64) (e : Received) : List EnbRibInfo.Input :=
  if r.getBsId e.agentId = b then (input? e.msg).toList else []

/-- The RIB with what each base station has been told since it was formed. -/
structure Chronicle where
  rib : Rib := {}
  told : UInt64 → List EnbRibInfo.Input := fun _ => []

def chronicleStep (c : Chronicle) (e : Received) : Except Fault Chronicle := do
  let r ← receive c.rib e
  return { rib := r,
           told := fun b => if b ∈ c.rib.eNBConfigs then c.told b ++ toldBy c.rib b e else [] }

section Messages

variable {r r' : Rib} {agentId : ℤ} {effects : List Effect}

/-- An update of the base station of the agent, seen from any base station. -/
theorem getElem?_updateBsFromAgent (hinv : Inv r) {input : EnbRibInfo.Input}
    (h : updateBsFromAgent r agentId (·.step input) = .ok r') {b : UInt64} {bs' : EnbRibInfo}
    (hbs' : r'.eNBConfigs[b]? = some bs') :
    ∃ bs, r.eNBConfigs[b]? = some bs ∧
      run EnbRibInfo.step bs (if r.getBsId agentId = b then [input] else []) = .ok bs' := by
  rw [updateBsFromAgent] at h
  split at h
  · rename_i hnone
    cases h
    refine ⟨bs', hbs', ?_⟩
    rw [if_neg]
    · rfl
    · rintro rfl
      have hzero := hinv.bsId_ne_zero _ bs' hbs'
      simp [Rib.getBsFromAgent, hzero, Rib.getBs, hbs'] at hnone
  · rename_i bs hbs
    obtain ⟨bs'', hstep, h⟩ := bind_eq_ok_iff.mp h
    cases h
    have hbs := (getBsFromAgent_eq_some hbs).2
    rw [Std.ExtTreeMap.getElem?_insert] at hbs'
    by_cases hb : r.getBsId agentId = b
    · subst hb
      simp only [Std.ReflCmp.compare_self, if_true, Option.some.injEq] at hbs'
      subst hbs'
      refine ⟨bs, hbs, ?_⟩
      rw [if_pos rfl, run_cons, hstep]
      rfl
    · simp only [Std.LawfulEqCmp.compare_eq_iff_eq, hb, if_false] at hbs' ⊢
      exact ⟨bs', hbs', rfl⟩

/-- The messages whose handlers only update the base station of the agent. -/
theorem updateBsFromAgent_of_map {input : EnbRibInfo.Input}
    (h : (·, ([] : List Effect)) <$> updateBsFromAgent r agentId (·.step input) =
      .ok (r', effects)) : updateBsFromAgent r agentId (·.step input) = .ok r' := by
  cases hr : updateBsFromAgent r agentId (·.step input) with
  | error f =>
    rw [hr] at h
    cases h
  | ok r'' =>
    rw [hr] at h
    cases h
    rfl

/-- A message that does not move agents is a message to a base station, or changes nothing. -/
theorem dispatchMessage_input {msg : FlexranMessage} {endpoint : String} {want : ℕ}
    (hkind : ribEvent? agentId msg endpoint want = none)
    (hd : dispatchMessage r agentId msg endpoint want = .ok (r', effects)) :
    (∃ input, input? msg = some input ∧
      updateBsFromAgent r agentId (·.step input) = .ok r') ∨
    (input? msg = none ∧ r' = r) := by
  obtain ⟨dir, body⟩ := msg
  cases body with
  | hello m => cases hkind
  | disconnect header => cases hkind
  | statsReply m =>
    obtain ⟨r'', hr'', hd⟩ := bind_eq_ok_iff.mp hd
    cases hd
    exact .inl ⟨_, rfl, hr''⟩
  | ueStateChange m =>
    obtain ⟨r'', hr'', hd⟩ := bind_eq_ok_iff.mp hd
    refine .inl ⟨_, rfl, hr''.trans ?_⟩
    split at hd
    · cases hd
      rfl
    · cases hd
      rfl
  | sfTrigger m => exact .inl ⟨_, rfl, updateBsFromAgent_of_map hd⟩
  | enbConfigReply m => exact .inl ⟨_, rfl, updateBsFromAgent_of_map hd⟩
  | ueConfigReply m => exact .inl ⟨_, rfl, updateBsFromAgent_of_map hd⟩
  | lcConfigReply m => exact .inl ⟨_, rfl, updateBsFromAgent_of_map hd⟩
  | _ =>
    cases hd
    exact .inr ⟨rfl, rfl⟩

theorem input?_of_ribEvent {msg : FlexranMessage} {endpoint : String} {want : ℕ} {e : RibEvent}
    (he : ribEvent? agentId msg endpoint want = some e) : input? msg = none := by
  obtain ⟨dir, body⟩ := msg
  cases body <;> first | rfl | cases he

/-- When agents move, a base station that is there after it was there before as it is, or is
a new one. -/
theorem Outcome.getElem?_eNBConfigs {e : RibEvent} (ho : Outcome r e r' effects) {b : UInt64}
    {bs : EnbRibInfo} (hbs : r'.eNBConfigs[b]? = some bs) :
    r.eNBConfigs[b]? = some bs ∨ b ∉ r.eNBConfigs ∧ make b bs.agents = .ok bs := by
  cases ho with
  | rejected _ => exact .inl hbs
  | waiting _ _ _ _ => exact .inl hbs
  | @formed _ _ _ _ _ x haccepts hfresh _ =>
    rw [getElem?_eNBConfigs_form] at hbs
    split at hbs
    next hnew =>
      cases hbs
      refine .inr ⟨?_, ?_⟩
      · rw [Std.ExtTreeMap.mem_iff_isSome_getElem?, hnew.1, haccepts.new_bs]
        simp
      · rw [hnew.1]
        exact make_eq_ok_iff.mpr ⟨fun x a ha => (getElem?_pendingOf.mp ha).2, rfl⟩
    next => exact .inl hbs
  | dissolved _ _ hd =>
    rw [hd.getElem?_eNBConfigs] at hbs
    split at hbs
    · cases hbs
    · exact .inl hbs
  | withdrawn _ _ _ _ => exact .inl hbs
  | unknown _ _ => exact .inl hbs

/-- Every base station is new, or it is what it was told made of it. -/
theorem receive_baseStation (hinv : Inv r) {e : Received} (h : receive r e = .ok r') {b : UInt64}
    {bs' : EnbRibInfo} (hbs' : r'.eNBConfigs[b]? = some bs') :
    (b ∉ r.eNBConfigs ∧ make b bs'.agents = .ok bs') ∨
      ∃ bs, r.eNBConfigs[b]? = some bs ∧ run EnbRibInfo.step bs (toldBy r b e) = .ok bs' := by
  obtain ⟨⟨r'', effects⟩, hd, hr''⟩ := bind_eq_ok_iff.mp h
  cases hr''
  rw [toldBy]
  rcases dispatchMessage_cases hinv hd with ⟨event, hevent, ho⟩ | ⟨hkind, -, -⟩
  · rw [input?_of_ribEvent hevent]
    rcases ho.getElem?_eNBConfigs hbs' with hbs | hnew
    · exact .inr ⟨bs', hbs, by split <;> rfl⟩
    · exact .inl hnew
  · right
    rcases dispatchMessage_input hkind hd with ⟨input, hinput, hupdate⟩ | ⟨hinput, rfl⟩
    · rw [hinput]
      exact getElem?_updateBsFromAgent hinv hupdate hbs'
    · rw [hinput]
      exact ⟨bs', hbs', by split <;> rfl⟩

end Messages

/-- The containers agree, and every UE of a base station shows what the base station was told. -/
structure Chronicle.Sound (c : Chronicle) : Prop where
  inv : Inv c.rib
  reachable : BsReachable c.rib
  tells : ∀ (b : UInt64) bs, c.rib.eNBConfigs[b]? = some bs →
    ∀ rnti, bs.Tells rnti ((c.told b).flatMap (signals rnti))

theorem sound_chronicleStep {c c' : Chronicle} {e : Received} (h : c.Sound)
    (hstep : chronicleStep c e = .ok c') : c'.Sound := by
  obtain ⟨r', hr', hc'⟩ := bind_eq_ok_iff.mp hstep
  cases hc'
  obtain ⟨hinv, hreach⟩ := sound_receive ⟨h.inv, h.reachable⟩ hr'
  refine ⟨hinv, hreach, ?_⟩
  intro b bs' hbs' rnti
  dsimp only
  rcases receive_baseStation h.inv hr' hbs' with ⟨hnew, hmake⟩ | ⟨bs, hbs, hrun⟩
  · rw [if_neg hnew]
    exact tells_make hmake rnti
  · have hmem : b ∈ c.rib.eNBConfigs := by
      rw [Std.ExtTreeMap.mem_iff_isSome_getElem?, hbs]
      rfl
    rw [if_pos hmem, List.flatMap_append]
    exact (h.tells b bs hbs rnti).run_step (h.reachable b bs hbs) hrun

theorem sound_empty_chronicle : Chronicle.Sound {} where
  inv := inv_empty
  reachable _ _ hbs := by simp at hbs
  tells _ _ hbs := by simp at hbs

/-- A run of the RIB has a chronicle. -/
theorem exists_chronicle {events : List Received} {r : Rib} (hrun : run receive {} events = .ok r) :
    ∃ told, run chronicleStep {} events = .ok { rib := r, told := told } := by
  have hmap := run_map Chronicle.rib (fun (c : Chronicle) (e : Received) =>
    show (chronicleStep c e).map Chronicle.rib = receive c.rib e by
      rw [chronicleStep]
      cases receive c.rib e <;> rfl) {} events
  rw [hrun] at hmap
  cases hc : run chronicleStep {} events with
  | error f =>
    rw [hc] at hmap
    cases hmap
  | ok c =>
    rw [hc] at hmap
    cases hmap
    exact ⟨c.told, rfl⟩

/-- In every run of the RIB, the MAC state of a UE of a base station is there exactly if the last
thing the base station was told of the UE since it was formed is that it came, and each register
has the value the UE was last told since then, whatever was said to other base stations and of
other UEs. -/
theorem ueHistory_of_run {events : List Received} {r : Rib}
    (hrun : run receive {} events = .ok r) :
    ∃ told, run chronicleStep {} events = .ok { rib := r, told := told } ∧
      ∀ (b : UInt64) bs, r.eNBConfigs[b]? = some bs →
        ∀ rnti, Option.Rel Shows (heard ((told b).flatMap (signals rnti))) (bs.getUeMacInfo rnti) := by
  obtain ⟨told, htold⟩ := exists_chronicle hrun
  refine ⟨told, htold, ?_⟩
  exact (run_invariant (fun _ _ _ h hstep => sound_chronicleStep h hstep)
    sound_empty_chronicle htold).tells

/-- A UE comes and is told of its transmissions and of a report; what an unknown agent and another
UE are told is not heard. -/
def ueComes : List Received :=
  [{ agentId := 0, msg := ⟨some .successfulOutcome, .hello
      { bsId := some 1, capabilities := defaultCapabilities, splits := [.if4p5] }⟩ },
   { agentId := 0, msg := ⟨none, .ueStateChange
      { type := some fluescActivated, config := some { rnti := some 7 } }⟩ },
   { agentId := 0, msg := ⟨none, .sfTrigger
      { dlInfo := [{ rnti := some 7, harqProcessId := some 3, harqStatus := [1, 2] },
          { rnti := some 8, harqStatus := [5] }]
        ulInfo := [{ rnti := some 7, receptionStatus := some 4, tpc := some 1 }] }⟩ },
   { agentId := 3, msg := ⟨none, .sfTrigger
      { ulInfo := [{ rnti := some 7, receptionStatus := some 9 }] }⟩ },
   { agentId := 0, msg := ⟨none, .statsReply
      { ueReport := [{ rnti := some 7, flags := some 3, bsr := [2, 6], phr := some 40 }] }⟩ }]

theorem ueHistory_ueComes : ∃ r told, run chronicleStep {} ueComes = .ok { rib := r, told := told } ∧
    ∀ (b : UInt64) bs, r.eNBConfigs[b]? = some bs →
      ∀ rnti, Option.Rel Shows (heard ((told b).flatMap (signals rnti))) (bs.getUeMacInfo rnti) := by
  have hfacts : (run receive {} ueComes).map (fun r =>
      decide (((r.getBs 1).bind (·.getUeMacInfo 7)).map (fun ue => ue.harqStats 0 3 1) =
        some 2)) = .ok true := by
    decide +kernel
  obtain ⟨r, hrun, -⟩ := exists_ok_of_decide hfacts
  obtain ⟨told, htold⟩ := ueHistory_of_run hrun
  exact ⟨r, told, htold⟩

end FlexRan.Rib
