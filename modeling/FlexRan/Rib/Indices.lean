import FlexRan.Rib.Isolation

/-!
# Indices that agents choose

The HARQ and uplink arrays of a UE and the reports of the cells have fixed sizes, and the handlers
of subframe triggers and statistics replies take the indices from the message.  Two indices are
cut to a byte first, the others count the elements of repeated fields; none is checked.

## Main definitions

* `Fits`: the indices of a message are those of elements.
* `InBounds`: no handler leaves an array.
* `eachStep_inBounds_iff`: the runs in which none ever does.
-/
namespace FlexRan.Rib

set_option linter.dupNamespace false

open Lib Protocol Rib

/-! ## The messages -/

/-- The carrier an entry is for. -/
def carrier (servCellIndex : Option UInt32) : ℕ := (servCellIndex.getD 0).toUInt8.toNat

/-- An entry without HARQ status writes nothing. -/
def FitsDl (m : FlexDlInfo) : Prop :=
  m.harqStatus = [] ∨ carrier m.servCellIndex < maxNumCC ∧
    (m.harqProcessId.getD 0).toUInt8.toNat < maxNumHarq ∧ m.harqStatus.length ≤ maxNumTB

/-- The reception status is written for every entry. -/
def FitsUl (m : FlexUlInfo) : Prop :=
  carrier m.servCellIndex < maxNumCC ∧ m.ulReception.length ≤ maxNumLC

/-- Entries for RNTIs the base station does not know are skipped. -/
def FitsBs (bs : EnbRibInfo) : FlexranBody → Prop
  | .sfTrigger m =>
    (∀ info ∈ m.dlInfo, info.rnti.getD 0 ∈ bs.ueMacInfo → FitsDl info) ∧
      ∀ info ∈ m.ulInfo, info.rnti.getD 0 ∈ bs.ueMacInfo → FitsUl info
  | .statsReply m => m.cellReport.length ≤ maxNumCC
  | _ => True

/-- Messages of agents without a base station are skipped. -/
def Fits (r : Rib) (e : Received) : Prop :=
  ∀ bs, r.getBsFromAgent e.agentId = some bs → FitsBs bs e.msg.msg

/-- No index of the message is outside its array. -/
def InBounds (r : Rib) (e : Received) : Prop := receive r e ≠ .error .outOfBounds

/-! ## Arrays of a UE -/

section Arrays

/-- Indices of a list that stay below a bound. -/
theorem forall_zipIdx_lt_iff {α : Type} {l : List α} {p : Prop} {n : ℕ} :
    (∀ e ∈ l.zipIdx, p ∧ e.2 < n) ↔ l = [] ∨ p ∧ l.length ≤ n := by
  cases l with
  | nil => simp
  | cons a l =>
    rw [or_iff_right (List.cons_ne_nil a l)]
    constructor
    · intro h
      have hlast : ((a :: l)[l.length], l.length) ∈ (a :: l).zipIdx := by
        rw [List.mem_zipIdx_iff_getElem?]
        exact List.getElem?_eq_getElem (by simp)
      exact h _ hlast
    · rintro ⟨hp, hlen⟩ e he
      exact ⟨hp, (List.snd_lt_of_mem_zipIdx he).trans_le (by simpa using hlen)⟩

variable (s : UeMacRibInfo)

theorem guarded_writeHarq (ccId harqId : UInt8) (i : ℕ) (status : UInt32) :
    Guarded (fun _ => True) .outOfBounds
      ((ccId.toNat < maxNumCC ∧ harqId.toNat < maxNumHarq) ∧ i < maxNumTB)
      (s.writeHarq ccId harqId i status) := by
  rw [UeMacRibInfo.writeHarq, and_assoc]
  split
  next h => exact (Guarded.of_ok trivial).congr (iff_of_true trivial h)
  next h => exact Guarded.of_error h

theorem guarded_updateDlSfInfo (m : FlexDlInfo) :
    Guarded (fun _ => True) .outOfBounds (FitsDl m) (s.updateDlSfInfo m) := by
  have hloop := Guarded.run (fun s (e : UInt32 × ℕ) _ => guarded_writeHarq s
    (m.servCellIndex.getD 0).toUInt8 (m.harqProcessId.getD 0).toUInt8 e.2 e.1) (s := s) trivial
    m.harqStatus.zipIdx
  rw [forall_zipIdx_lt_iff, and_assoc] at hloop
  exact hloop

theorem guarded_writeUlReception (ccId : UInt8) (i : ℕ) (data : UInt32) :
    Guarded (fun _ => True) .outOfBounds (ccId.toNat < maxNumCC ∧ i < maxNumLC)
      (s.writeUlReception ccId i data) := by
  rw [UeMacRibInfo.writeUlReception]
  split
  next h => exact (Guarded.of_ok trivial).congr (iff_of_true trivial h)
  next h => exact Guarded.of_error h

theorem guarded_updateUlSfInfo (m : FlexUlInfo) :
    Guarded (fun _ => True) .outOfBounds (FitsUl m) (s.updateUlSfInfo m) := by
  rw [UeMacRibInfo.updateUlSfInfo]
  dsimp only
  split
  next hcc =>
    refine (Guarded.run (fun s (e : UInt32 × ℕ) _ => guarded_writeUlReception s
      (m.servCellIndex.getD 0).toUInt8 e.2 e.1) trivial m.ulReception.zipIdx).congr ?_
    rw [forall_zipIdx_lt_iff, FitsUl]
    refine or_iff_right_of_imp fun hnil => ⟨hcc, by simp [hnil]⟩
  next hcc => exact Guarded.of_error fun h => hcc h.1

end Arrays

/-! ## Handlers of a base station -/

section Handlers

variable {bs : EnbRibInfo}

/-- The base station knows these UEs, and has a MAC state for each. -/
structure Knows (known : UInt32 → Prop) (bs : EnbRibInfo) : Prop where
  keys : ∀ rnti, rnti ∈ bs.ueMacInfo ↔ known rnti
  nonnull : ∀ (rnti : UInt32) ue, bs.ueMacInfo[rnti]? = some ue → ue ≠ none

variable {known : UInt32 → Prop}

theorem guarded_withUeMacInfo (h : Knows known bs) (rnti : UInt32)
    {f : UeMacRibInfo → Except Fault UeMacRibInfo} {Q : Prop}
    (hf : ∀ ue, Guarded (fun _ => True) .outOfBounds Q (f ue)) :
    Guarded (Knows known) .outOfBounds (known rnti → Q) (bs.withUeMacInfo rnti f) := by
  rw [EnbRibInfo.withUeMacInfo]
  cases hue : bs.ueMacInfo[rnti]? with
  | none =>
    refine (Guarded.of_ok h).congr (iff_of_true trivial fun hknown => ?_)
    rw [← h.keys, Std.ExtTreeMap.mem_iff_isSome_getElem?, hue] at hknown
    exact absurd hknown (by simp)
  | some v =>
    cases v with
    | none => exact absurd rfl (h.nonnull rnti none hue)
    | some ue =>
      have hmem : rnti ∈ bs.ueMacInfo := by
        rw [Std.ExtTreeMap.mem_iff_isSome_getElem?, hue]
        rfl
      have hknows : ∀ ue', Knows known
          { bs with ueMacInfo := bs.ueMacInfo.insert rnti (some ue') } := by
        intro ue'
        constructor
        · intro rnti'
          rw [← h.keys, Std.ExtTreeMap.mem_insert, Std.LawfulEqCmp.compare_eq_iff_eq]
          exact or_iff_right_of_imp fun heq => heq ▸ hmem
        · intro rnti' v hv
          rw [Std.ExtTreeMap.getElem?_insert] at hv
          split at hv
          · exact Option.some.inj hv ▸ by simp
          · exact h.nonnull rnti' v hv
      refine ((hf ue).bind fun ue' _ => Guarded.of_ok (hknows ue')).congr ?_
      rw [and_true, forall_prop_of_true ((h.keys rnti).mp hmem)]

theorem guarded_updateSubframe (h : Knows known bs) (m : FlexSfTrigger) :
    Guarded (Knows known) .outOfBounds
      ((∀ info ∈ m.dlInfo, known (info.rnti.getD 0) → FitsDl info) ∧
        ∀ info ∈ m.ulInfo, known (info.rnti.getD 0) → FitsUl info) (bs.updateSubframe m) := by
  refine Guarded.bind (Guarded.run (fun bs info h => ?_) ⟨h.keys, h.nonnull⟩ m.dlInfo)
    fun bs' h' => Guarded.run (fun bs info h => ?_) h' m.ulInfo
  · exact guarded_withUeMacInfo h _ fun ue => guarded_updateDlSfInfo ue info
  · exact guarded_withUeMacInfo h _ fun ue => guarded_updateUlSfInfo ue info

theorem guarded_updateCellMacInfo (h : Knows known bs) (i : ℕ) (report : FlexCellStatsReport) :
    Guarded (Knows known) .outOfBounds (i < maxNumCC) (bs.updateCellMacInfo i report) := by
  rw [EnbRibInfo.updateCellMacInfo]
  split
  next hi => exact (Guarded.of_ok ⟨h.keys, h.nonnull⟩).congr (iff_of_true trivial hi)
  next hi => exact Guarded.of_error hi

theorem guarded_updateMacStats (h : Knows known bs) (m : FlexStatsReply) :
    Guarded (Knows known) .outOfBounds (m.cellReport.length ≤ maxNumCC) (bs.updateMacStats m) := by
  refine (Guarded.bind (Guarded.run (Q := fun _ => True) (fun bs report h => ?_) h m.ueReport)
    fun bs' h' => Guarded.run (I := Knows known)
      (fun bs e h => guarded_updateCellMacInfo h e.2 e.1) h' m.cellReport.zipIdx).congr ?_
  · exact (guarded_withUeMacInfo h _ fun ue => Guarded.of_ok trivial).congr (by simp)
  · have hzip := forall_zipIdx_lt_iff (l := m.cellReport) (p := True) (n := maxNumCC)
    simp only [true_and] at hzip
    rw [hzip]
    refine ⟨fun hlen => ?_, fun hlen => ⟨fun _ _ => trivial, .inr hlen⟩⟩
    rcases hlen.2 with hnil | hlen
    · simp [hnil]
    · exact hlen

end Handlers

/-! ## The dispatcher -/

section Dispatcher

variable {r : Rib} {agentId : ℤ}

/-- The update of the base station of an agent. -/
theorem guarded_updateBsFromAgent {Q : EnbRibInfo → Prop} {f : EnbRibInfo → Except Fault EnbRibInfo}
    (hf : ∀ bs, r.getBsFromAgent agentId = some bs →
      Guarded (fun _ => True) .outOfBounds (Q bs) (f bs)) :
    Guarded (fun _ => True) .outOfBounds (∀ bs, r.getBsFromAgent agentId = some bs → Q bs)
      (updateBsFromAgent r agentId f) := by
  rw [updateBsFromAgent]
  cases hbs : r.getBsFromAgent agentId with
  | none => exact (Guarded.of_ok trivial).congr (iff_of_true trivial (by simp))
  | some bs =>
    refine ((hf bs hbs).bind fun bs' _ => Guarded.of_ok trivial).congr ?_
    simp

/-- An update of a base station that always succeeds. -/
theorem guarded_update (f : EnbRibInfo → EnbRibInfo) :
    Guarded (fun _ => True) .outOfBounds (∀ bs, r.getBsFromAgent agentId = some bs → True)
      (updateBsFromAgent r agentId fun bs => .ok (f bs)) :=
  guarded_updateBsFromAgent fun _ _ => Guarded.of_ok trivial

theorem knows_of_reachable {bs : EnbRibInfo} (h : bs.Reachable) : Knows (· ∈ bs.ueMacInfo) bs :=
  ⟨fun _ => Iff.rfl, (EnbRibInfo.ueInv_of_reachable h).nonnull⟩

/-- In a reachable state a message fails where its indices do not fit, and nowhere else. -/
theorem guarded_dispatchMessage (hinv : Inv r) (hreach : App.Log.BsReachable r) (e : Received) :
    Guarded (fun _ => True) .outOfBounds (Fits r e)
      (dispatchMessage r e.agentId e.msg e.endpoint e.want) := by
  obtain ⟨agentId, ⟨dir, body⟩, endpoint, want⟩ := e
  have hknows : ∀ bs, r.getBsFromAgent agentId = some bs → Knows (· ∈ bs.ueMacInfo) bs :=
    fun bs hbs => knows_of_reachable (hreach _ bs (getBsFromAgent_eq_some hbs).2)
  have hok : ∀ {result : Rib × List Effect}, Guarded (fun _ => True) .outOfBounds
      (∀ bs : EnbRibInfo, r.getBsFromAgent agentId = some bs → True)
      (.ok result : Except Fault (Rib × List Effect)) :=
    (Guarded.of_ok trivial).congr (iff_of_true trivial fun _ _ => trivial)
  cases body with
  | hello m =>
    obtain ⟨r', effects, hd, -⟩ := handleHello_outcome hinv agentId m (dir.getD .notSet) endpoint
      want
    simp only [dispatchMessage]
    rw [hd]
    exact hok
  | disconnect header =>
    obtain ⟨r', effects, hd, -⟩ := handleDisconnect_outcome hinv agentId
    simp only [dispatchMessage]
    rw [hd]
    exact hok
  | sfTrigger m =>
    refine (guarded_updateBsFromAgent fun bs hbs => ?_).map fun _ _ => trivial
    exact (guarded_updateSubframe (hknows bs hbs) m).weaken fun _ _ => trivial
  | statsReply m =>
    refine ((guarded_updateBsFromAgent fun bs hbs => ?_).bind fun r' _ =>
      Guarded.of_ok trivial).congr (iff_of_eq (and_true _))
    exact (guarded_updateMacStats (hknows bs hbs) m).weaken fun _ _ => trivial
  | ueStateChange m =>
    refine ((guarded_update (·.updateUEConfigStateChange m)).bind fun r' _ => ?_).congr
      (iff_of_eq (and_true _))
    cases r.getBsFromAgent agentId <;> exact Guarded.of_ok trivial
  | enbConfigReply m => exact (guarded_update (·.updateENBConfig m)).map fun _ _ => trivial
  | ueConfigReply m => exact (guarded_update (·.updateUEConfig m)).map fun _ _ => trivial
  | lcConfigReply m => exact (guarded_update (·.updateLCConfig m)).map fun _ _ => trivial
  | _ => exact hok

theorem inBounds_iff_fits (hinv : Inv r) (hreach : App.Log.BsReachable r) (e : Received) :
    InBounds r e ↔ Fits r e := by
  have hreceive : Guarded (fun _ => True) .outOfBounds (Fits r e) (receive r e) :=
    ((guarded_dispatchMessage hinv hreach e).bind fun _ _ => Guarded.of_ok trivial).congr
      (iff_of_eq (and_true _))
  exact hreceive.ok_iff

end Dispatcher

/-- In exactly the runs of messages that fit no index is ever out of bounds. -/
theorem eachStep_inBounds_iff (events : List Received) :
    EachStep receive {} InBounds events ↔ EachStep receive {} Fits events :=
  eachStep_congr (I := fun r => Inv r ∧ App.Log.BsReachable r) sound_empty
    (fun _ _ _ h hstep => sound_receive h hstep) (fun _ e h => inBounds_iff_fits h.1 h.2 e) events

/-- An agent becomes base station 1 and reports a UE. -/
def ueReported : List Received :=
  [{ agentId := 0, msg := ⟨some .successfulOutcome, .hello { bsId := some 1 }⟩ },
    { agentId := 0
      msg := ⟨none, .ueStateChange
        { type := some EnbRibInfo.fluescActivated, config := some { rnti := some 7 } }⟩ }]

/-- A HARQ status of the third carrier of the UE. -/
def thirdCarrier : Received where
  agentId := 0
  msg := ⟨none, .sfTrigger
    { dlInfo := [{ rnti := some 7, harqStatus := [0], servCellIndex := some 2 }] }⟩

/-- The arrays have two carriers. -/
theorem not_eachStep_inBounds_thirdCarrier :
    ¬ EachStep receive {} InBounds (ueReported ++ [thirdCarrier]) := by
  intro h
  have hfault : ((run receive {} ueReported).map fun r =>
      (receive r thirdCarrier).map fun _ => ()) = .ok (.error .outOfBounds) := by decide +kernel
  cases hrun : run receive {} ueReported with
  | error f => exact absurd (hrun ▸ hfault) (by simp [Except.map])
  | ok r =>
    rw [hrun] at hfault
    have hinside : InBounds r thirdCarrier := h ueReported _ r (List.prefix_refl _) hrun
    have hmap : (receive r thirdCarrier).map (fun _ => ()) = .error .outOfBounds :=
      Except.ok.inj hfault
    cases hr : receive r thirdCarrier with
    | error f =>
      rw [hr] at hmap
      exact hinside (hr.trans (congrArg Except.error (Except.error.inj hmap)))
    | ok r' => exact absurd (hr ▸ hmap) (by simp [Except.map])

end FlexRan.Rib
