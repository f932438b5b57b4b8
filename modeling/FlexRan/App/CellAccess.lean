import FlexRan.App.Northbound
import FlexRan.App.PhysicalCell

/-!
# Access to cell 0

Several requests read the configuration of cell 0 of a base station without asking for the number
of its cells.  The theorems here say for each request exactly when its reads are in bounds: where
the base station has a cell, or the request ends before the read.

## Main definitions

* `ReadsInBounds`: an operation reads no cell that does not exist.
-/
namespace FlexRan.App

open Lib Lib.Operation Protocol Rib Rib.Rib

variable {α β ρ : Type}

/-- The operation reads a cell that does not exist. -/
def ReadsMissingCell (m : Op α β) (w : World α) : Prop := (exec m w).1 = .error .missingCell

/-- Every read of a cell is in bounds. -/
def ReadsInBounds (m : Op α β) (w : World α) : Prop := ¬ ReadsMissingCell m w

/-! ## Operations that read a cell -/

section Operations

variable {m : Op α β} {w : World α} {b : UInt64}

/-- An abort for another reason than a missing cell. -/
abbrev Other (e : Abort) : Prop := e ≠ .missingCell

/-- Steps that read no cell may come first. -/
theorem readsMissingCell_bind {γ : Type} {f : β → Op α γ} (hm : Silent m) (hother : Fails Other m) :
    ReadsMissingCell (m >>= f) w ↔ ∃ a, (exec m w).1 = .ok a ∧ ReadsMissingCell (f a) w := by
  rw [ReadsMissingCell, exec_bind_error_iff hm, or_iff_right hother.not_error]
  rfl

/-- Steps that read no cell may follow. -/
theorem readsMissingCell_bind_other {γ : Type} {f : β → Op α γ} (hm : Silent m)
    (hf : ∀ a, Fails Other (f a)) : ReadsMissingCell (m >>= f) w ↔ ReadsMissingCell m w := by
  rw [ReadsMissingCell, exec_bind_error_iff hm, or_iff_left]
  · rfl
  · rintro ⟨a, -, ha⟩
    exact (hf a).not_error ha

/-- Two checks in a row that read cell 0 under a condition each. -/
theorem readsMissingCell_both {A B : Op α Unit} {p q n : Prop} (hA : Silent A)
    (hreadA : ReadsMissingCell A w ↔ p ∧ n) (hskip : ¬ p → (exec A w).1 = .ok ())
    (hreadB : ReadsMissingCell B w ↔ q ∧ n) :
    ReadsMissingCell (A >>= fun _ => B) w ↔ (p ∨ q) ∧ n := by
  rw [ReadsMissingCell, exec_bind_error_iff hA]
  constructor
  · rintro (h | ⟨-, -, h⟩)
    · exact ⟨.inl (hreadA.mp h).1, (hreadA.mp h).2⟩
    · exact ⟨.inr (hreadB.mp h).1, (hreadB.mp h).2⟩
  · rintro ⟨h, hn⟩
    by_cases hp : p
    · exact .inl (hreadA.mpr ⟨hp, hn⟩)
    · exact .inr ⟨(), hskip hp, hreadB.mpr ⟨h.resolve_left hp, hn⟩⟩

theorem exec_ofBs {f : EnbRibInfo → Except Abort β} {bs : EnbRibInfo}
    (hbs : w.rib.eNBConfigs[b]? = some bs) : exec (ofBs b f) w = (f bs, w) := by
  rw [ofBs]
  cases hres : f bs with
  | ok a => exact exec_ofRib_ok (by simp only [getBs, hbs, hres])
  | error e => exact exec_ofRib_error (by simp only [getBs, hbs, hres])

theorem fails_ofBs {E : Abort → Prop} {f : EnbRibInfo → Except Abort β}
    (hnull : E (.fault .nullDereference)) (hf : ∀ bs e, f bs = .error e → E e) :
    Fails E (ofBs b f : Op α β) := by
  refine Fails.bind Fails.get fun w => Fails.lift fun e he => ?_
  dsimp only at he
  split at he
  · obtain rfl := Except.error.inj he
    exact hnull
  · exact hf _ e he

/-- The read of cell 0 of a base station that exists. -/
theorem readsMissingCell_cellConfig {bs : EnbRibInfo} (hbs : w.rib.eNBConfigs[b]? = some bs) :
    ReadsMissingCell (ofBs b fun bs => bs.cellConfig 0 : Op α FlexCellConfig) w ↔
      ¬ HasCell w.rib b := by
  rw [ReadsMissingCell, exec_ofBs hbs]
  rcases cellConfig_zero_cases hbs with ⟨heq, hnot⟩ | ⟨cell, heq, -, hhas⟩
  · exact iff_of_true heq hnot
  · exact iff_of_false (by rw [heq]; simp) (not_not.mpr hhas)

theorem readsMissingCell_hasSlice {bs : EnbRibInfo} (hbs : w.rib.eNBConfigs[b]? = some bs)
    (dir : FlexSliceConfig → Option FlexSliceDlUlConfig) (id : UInt32) :
    ReadsMissingCell (ofBs b fun bs => EnbRibInfo.hasSlice dir bs id 0 : Op α Bool) w ↔
      ¬ HasCell w.rib b := by
  rw [ReadsMissingCell, exec_ofBs hbs, EnbRibInfo.hasSlice]
  rcases cellConfig_zero_cases hbs with ⟨heq, hnot⟩ | ⟨cell, heq, -, hhas⟩
  · exact iff_of_true (by rw [heq]; rfl) hnot
  · have hok : ∃ found, EnbRibInfo.hasSlice dir bs id 0 = .ok found := by
      rw [EnbRibInfo.hasSlice, heq]
      cases hdir : cell.sliceConfig.bind dir with
      | none => exact ⟨false, by simp only [bind, Except.bind, hdir]; rfl⟩
      | some s => exact ⟨_, by simp only [bind, Except.bind, hdir]; rfl⟩
    obtain ⟨found, hok⟩ := hok
    rw [EnbRibInfo.hasSlice] at hok
    rw [hok]
    exact iff_of_false (by simp) (not_not.mpr hhas)

end Operations

/-! ## Radio resource management -/

namespace Rrm

variable {w : World (RrmManagement ρ)} {s : String} {b : UInt64}

/-- The id in a request names a base station. -/
def Resolves (r : Rib) (s : String) (b : UInt64) : Prop := r.parseBsId s = .ok b ∧ b ≠ 0

theorem fails_requireBs (s : String) : Fails Other (requireBs s : Op (RrmManagement ρ) UInt64) := by
  refine Fails.bind (Fails.bind Fails.get fun w => Fails.lift fun e he => ?_) fun b =>
    Fails.bind (Fails.throwIf _ (by simp)) fun _ => Fails.pure _
  rw [parseBsId_error he]
  simp

theorem requireBs_eq_ok_iff : (exec (requireBs s) w).1 = .ok b ↔ Resolves w.rib s b := by
  rw [Resolves, requireBs]
  cases hb : w.rib.parseBsId s with
  | error e =>
    rw [exec_bind_of_error (exec_ofRib_error hb)]
    simp
  | ok c =>
    rw [exec_bind_of_ok (exec_ofRib_ok hb)]
    by_cases hc : c = 0
    · rw [exec_bind_of_error (exec_throwIf_pos hc _ _)]
      simp only [reduceCtorEq, Except.ok.injEq, false_iff, not_and, not_not]
      exact fun h => h ▸ hc
    · rw [exec_bind_of_ok (exec_throwIf_neg hc _ _), exec_pure]
      simp only [Except.ok.injEq]
      exact ⟨fun h => ⟨h, h ▸ hc⟩, fun h => h.1⟩

theorem Resolves.exists_bs {r : Rib} (h : Resolves r s b) : ∃ bs, r.eNBConfigs[b]? = some bs :=
  exists_bs_of_parseBsId h.1 h.2

theorem fails_requireMessage {μ : Type} (parse : String → Option μ) (policy : String) :
    Fails Other (requireMessage parse policy : Op (RrmManagement ρ) μ) := by
  rw [requireMessage]
  split
  · exact Fails.throw (by simp)
  · exact Fails.pure _

theorem requireMessage_eq_ok_iff {μ : Type} {parse : String → Option μ} {policy : String} {m : μ} :
    (exec (requireMessage parse policy) w).1 = .ok m ↔ parse policy = some m := by
  rw [requireMessage]
  cases parse policy <;> simp

/-- The beginning of every request: it reads no cell before it has a base station and a
message. -/
theorem readsMissingCell_request {μ : Type} {parse : String → Option μ} {policy : String}
    {f : UInt64 → μ → Op (RrmManagement ρ) Unit} :
    ReadsMissingCell (do
      let b ← requireBs s
      let m ← requireMessage parse policy
      f b m) w ↔
    ∃ b, Resolves w.rib s b ∧ ∃ m, parse policy = some m ∧ ReadsMissingCell (f b m) w := by
  rw [readsMissingCell_bind (silent_requireBs s) (fails_requireBs s)]
  simp only [requireBs_eq_ok_iff,
    readsMissingCell_bind (silent_requireMessage parse policy) (fails_requireMessage parse policy),
    requireMessage_eq_ok_iff]

theorem completeDirection_error {requested : Option FlexSliceDlUlConfig}
    {current : FlexSliceDlUlConfig} {e : Abort}
    (h : completeDirection requested current = .error e) : Other e := by
  have hverify : ∀ c : FlexSliceDlUlConfig,
      (verifyStaticSliceConfiguration c current >>= fun _ => pure c) = .error e → Other e := by
    intro c hc
    cases hv : verifyStaticSliceConfiguration c current with
    | error e' =>
      rw [hv] at hc
      exact Except.error.inj hc ▸ verifyStaticSliceConfiguration_error hv
    | ok _ =>
      rw [hv] at hc
      exact nomatch hc
  rw [completeDirection] at h
  dsimp only at h
  split_ifs at h
  · exact hverify _ h
  · exact nomatch h
  · exact hverify _ h
  · exact nomatch h

/-- A change of slices reads cell 0 if it names a base station and can be parsed. -/
theorem applySliceConfigPolicy_iff (parse : String → Option FlexSliceConfig) (s policy : String) :
    ReadsInBounds (applySliceConfigPolicy parse s policy) w ↔
      ∀ b, Resolves w.rib s b → (parse policy).isSome → HasCell w.rib b := by
  have hmissing : ReadsMissingCell (applySliceConfigPolicy parse s policy) w ↔
      ∃ b, Resolves w.rib s b ∧ ∃ m, parse policy = some m ∧ ¬ HasCell w.rib b := by
    rw [applySliceConfigPolicy, readsMissingCell_request]
    refine exists_congr fun b => and_congr_right fun hb => exists_congr fun m =>
      and_congr_right fun _ => ?_
    obtain ⟨bs, hbs⟩ := hb.exists_bs
    rw [readsMissingCell_bind_other (silent_ofBs b _), readsMissingCell_cellConfig hbs]
    -- nothing else in the request can miss a cell
    intro cell
    refine Fails.bind (Fails.lift fun e he => completeDirection_error he) fun dl => ?_
    refine Fails.bind (Fails.lift fun e he => completeDirection_error he) fun ul => ?_
    dsimp only
    split
    · exact Fails.pure _
    · refine Fails.bind (Fails.throwIf _ (by simp)) fun _ => ?_
      refine Fails.bind (fails_sendMessage _ _) fun _ => ?_
      refine Fails.bind (fails_ofBs (by simp) (by simp)) fun ues => ?_
      split
      · exact Fails.pure _
      · exact fails_sendMessage _ _
  rw [ReadsInBounds, hmissing]
  simp only [not_exists, not_and, not_not, Option.isSome_iff_exists, forall_exists_index]

theorem readsMissingCell_requireSlice {bs : EnbRibInfo} (hbs : w.rib.eNBConfigs[b]? = some bs)
    (dir : FlexSliceConfig → Option FlexSliceDlUlConfig) (name : String) (id : Option UInt32) :
    ReadsMissingCell (requireSlice b (EnbRibInfo.hasSlice dir) name id) w ↔
      id.isSome ∧ ¬ HasCell w.rib b := by
  cases id with
  | none => exact iff_of_false (by rw [requireSlice, ReadsMissingCell]; simp) (by simp)
  | some id =>
    rw [requireSlice, readsMissingCell_bind_other (silent_ofBs b _) fun found =>
      Fails.throwIf _ (by simp), readsMissingCell_hasSlice hbs]
    simp

theorem exec_checkUeEntry_error {entry : FlexUeConfig × ℕ} {reason : String}
    (h : verifyUeSliceAssocMsg entry.1 = .error reason) :
    exec (checkUeEntry b entry) w = (.error (atIndex entry.2 reason), w) := by
  rw [checkUeEntry, h, exec_bind_of_error (exec_lift_error _ _ _)]

theorem slice_of_verifyUeSliceAssocMsg {c : FlexUeConfig}
    (h : verifyUeSliceAssocMsg c = .ok ()) : c.dlSliceId.isSome ∨ c.ulSliceId.isSome := by
  rw [verifyUeSliceAssocMsg] at h
  split_ifs at h with hid hslice
  simpa only [not_and_or, Bool.not_eq_true, Option.isNone_eq_false_iff] using hslice

/-- The first loop reads cell 0 for an entry that is well formed. -/
theorem readsMissingCell_checkUeEntry {bs : EnbRibInfo} (hbs : w.rib.eNBConfigs[b]? = some bs)
    (entry : FlexUeConfig × ℕ) : ReadsMissingCell (checkUeEntry b entry) w ↔
      verifyUeSliceAssocMsg entry.1 = .ok () ∧ ¬ HasCell w.rib b := by
  cases hverify : verifyUeSliceAssocMsg entry.1 with
  | error reason =>
    exact iff_of_false (by rw [ReadsMissingCell, exec_checkUeEntry_error hverify]; simp [atIndex])
      (by simp)
  | ok _ =>
    have hskip : ¬ entry.1.dlSliceId.isSome →
        (exec (requireSlice b EnbRibInfo.hasDlSlice "DL" entry.1.dlSliceId) w).1 = .ok () := by
      intro hnone
      rw [Option.not_isSome_iff_eq_none.mp hnone, requireSlice]
      rfl
    rw [checkUeEntry, hverify, ReadsMissingCell, exec_bind_of_ok (exec_lift_ok _ _ _)]
    refine (readsMissingCell_both (silent_requireSlice b _ _ _)
      (readsMissingCell_requireSlice hbs _ _ _) hskip
      (readsMissingCell_requireSlice hbs _ _ _)).trans ?_
    simp only [slice_of_verifyUeSliceAssocMsg hverify, true_and]

/-- The first loop only misses a cell at its first entry. -/
theorem readsMissingCell_forM_checkUeEntry {bs : EnbRibInfo}
    (hbs : w.rib.eNBConfigs[b]? = some bs) (entries : List (FlexUeConfig × ℕ)) :
    ReadsMissingCell (forM entries (checkUeEntry b)) w ↔
      (∃ entry ∈ entries.head?, verifyUeSliceAssocMsg entry.1 = .ok ()) ∧ ¬ HasCell w.rib b := by
  induction entries with
  | nil => exact iff_of_false (by rw [ReadsMissingCell, exec_forM_nil]; simp) (by simp)
  | cons entry entries ih =>
    have hentry := readsMissingCell_checkUeEntry hbs entry
    rw [List.forM_cons, ReadsMissingCell, exec_bind_error_iff (silent_checkUeEntry b entry)]
    simp only [List.head?_cons, Option.mem_def, Option.some.injEq, exists_eq_left']
    constructor
    · rintro (h | ⟨_, hok, h⟩)
      · exact hentry.mp h
      · -- an entry that passes without a cell would have to be malformed
        have hnot := (ih.mp h).2
        cases hverify : verifyUeSliceAssocMsg entry.1 with
        | error reason =>
          rw [exec_checkUeEntry_error hverify] at hok
          exact nomatch hok
        | ok _ => exact ⟨rfl, hnot⟩
    · exact fun h => .inl (hentry.mpr h)

/-- A change of the slices of UEs reads cell 0 if it names a base station and its first entry is
well formed. -/
theorem changeUeSliceAssociation_iff (parse : String → Option FlexUeConfigReply)
    (s policy : String) :
    ReadsInBounds (changeUeSliceAssociation parse s policy) w ↔
      ∀ b, Resolves w.rib s b → ∀ m, parse policy = some m →
        (∃ c ∈ m.ueConfig.head?, verifyUeSliceAssocMsg c = .ok ()) → HasCell w.rib b := by
  have hmissing : ReadsMissingCell (changeUeSliceAssociation parse s policy) w ↔
      ∃ b, Resolves w.rib s b ∧ ∃ m, parse policy = some m ∧
        (∃ c ∈ m.ueConfig.head?, verifyUeSliceAssocMsg c = .ok ()) ∧ ¬ HasCell w.rib b := by
    rw [changeUeSliceAssociation, readsMissingCell_request]
    refine exists_congr fun b => and_congr_right fun hb => exists_congr fun m =>
      and_congr_right fun _ => ?_
    obtain ⟨bs, hbs⟩ := hb.exists_bs
    by_cases hempty : m.ueConfig = []
    · refine iff_of_false (fun h => ?_) (by simp [hempty])
      rw [ReadsMissingCell, exec_bind_of_error (exec_throwIf_pos hempty _ _)] at h
      exact nomatch h
    · rw [ReadsMissingCell, exec_bind_of_ok (exec_throwIf_neg hempty _ _)]
      refine (readsMissingCell_bind_other (Silent.forM (silent_checkUeEntry b) _)
        fun _ => ?_).trans ?_
      · refine Fails.bind (Fails.mapM (fun entry => ?_) _) fun ues => fails_sendMessage _ _
        refine Fails.bind (fails_ofBs (by simp) (by simp)) fun resolved => ?_
        exact Fails.lift fun e _ => by simp [atIndex]
      · rw [readsMissingCell_forM_checkUeEntry hbs, List.head?_zipIdx]
        simp
  rw [ReadsInBounds, hmissing]
  simp only [not_exists, not_and, not_not]

theorem readsMissingCell_requireRuleSlice {bs : EnbRibInfo}
    (hbs : w.rib.eNBConfigs[b]? = some bs) (dir : FlexSliceConfig → Option FlexSliceDlUlConfig)
    (id : Int32) : ReadsMissingCell (requireRuleSlice b (EnbRibInfo.hasSlice dir) id) w ↔
      (ruleSlice id).isSome ∧ ¬ HasCell w.rib b := by
  rw [requireRuleSlice]
  cases ruleSlice id with
  | none => exact iff_of_false (by rw [ReadsMissingCell]; simp) (by simp)
  | some slice =>
    dsimp only
    rw [readsMissingCell_bind_other (silent_ofBs b _) fun found =>
      Fails.throwIf _ (by simp), readsMissingCell_hasSlice hbs]
    simp

theorem fails_requireImsiReg (engine : RegexEngine ρ) (policy : String) :
    Fails Other (requireImsiReg engine policy) := by
  rw [requireImsiReg]
  split
  · exact Fails.pure _
  · exact Fails.throw (by simp)
  · exact Fails.throw (by simp)

/-- A rule for the slices of UEs reads cell 0 if it names a base station and a slice. -/
theorem autoUeSliceAssociation_iff (engine : RegexEngine ρ) (s policy : String)
    (dlSliceId ulSliceId : Int32) :
    ReadsInBounds (autoUeSliceAssociation engine s policy dlSliceId ulSliceId) w ↔
      ∀ b, Resolves w.rib s b → (ruleSlice dlSliceId).isSome ∨ (ruleSlice ulSliceId).isSome →
        HasCell w.rib b := by
  have hmissing : ReadsMissingCell (autoUeSliceAssociation engine s policy dlSliceId ulSliceId) w ↔
      ∃ b, Resolves w.rib s b ∧
        ((ruleSlice dlSliceId).isSome ∨ (ruleSlice ulSliceId).isSome) ∧ ¬ HasCell w.rib b := by
    rw [autoUeSliceAssociation, readsMissingCell_bind (silent_requireBs s) (fails_requireBs s)]
    simp only [requireBs_eq_ok_iff]
    refine exists_congr fun b => and_congr_right fun hb => ?_
    obtain ⟨bs, hbs⟩ := hb.exists_bs
    have hskip : ¬ (ruleSlice dlSliceId).isSome →
        (exec (requireRuleSlice b EnbRibInfo.hasDlSlice dlSliceId) w).1 = .ok () := by
      intro hnone
      rw [requireRuleSlice, Option.not_isSome_iff_eq_none.mp hnone]
      rfl
    refine readsMissingCell_both (silent_requireRuleSlice b _ _)
      (readsMissingCell_requireRuleSlice hbs _ _) hskip
      ((readsMissingCell_bind_other (silent_requireRuleSlice b _ _) fun _ => ?_).trans
        (readsMissingCell_requireRuleSlice hbs _ _))
    -- nothing after the two checks can miss a cell
    refine Fails.bind (fails_requireImsiReg engine policy) fun regs => ?_
    refine Fails.bind (Fails.modify _) fun _ => ?_
    split
    · exact Fails.pure _
    · refine Fails.bind (fails_ofBs (by simp) (by simp)) fun ues => ?_
      split
      · exact Fails.pure _
      · exact fails_sendMessage _ _
  rw [ReadsInBounds, hmissing]
  simp only [not_exists, not_and, not_not]

end Rrm

/-! ## Handover -/

namespace Rrc

variable {w : World RrcTriggering} {b : UInt64}

/-- The controller decides on the handovers of cell 0. -/
def NetControl (bs : EnbRibInfo) : Prop :=
  ∃ cell, bs.eNBConfig.cellConfig[0]? = some cell ∧ cell.x2HoNetControl.getD false = true

theorem parseRntiImsi_error {bs : EnbRibInfo} {ue : String} {e : Abort}
    (h : bs.parseRntiImsi ue = .error e) : Other e := by
  rw [EnbRibInfo.parseRntiImsi] at h
  split_ifs at h
  · split at h
    · exact nomatch h
    · exact Except.error.inj h ▸ by simp
    · exact nomatch h
  · split at h
    · exact nomatch h
    · exact Except.error.inj h ▸ by simp
    · exact nomatch h

theorem exec_cellConfig {bs : EnbRibInfo} (hbs : w.rib.eNBConfigs[b]? = some bs) :
    (exec (ofBs b fun bs => bs.cellConfig 0) w = (.error .missingCell, w) ∧ ¬ HasCell w.rib b) ∨
      ∃ cell, exec (ofBs b fun bs => bs.cellConfig 0) w = (.ok cell, w) ∧
        bs.eNBConfig.cellConfig[0]? = some cell ∧ HasCell w.rib b := by
  rw [exec_ofBs hbs]
  rcases cellConfig_zero_cases hbs with ⟨heq, hnot⟩ | ⟨cell, heq, hget, hhas⟩
  · exact .inl ⟨by rw [heq], hnot⟩
  · exact .inr ⟨cell, by rw [heq], hget, hhas⟩

/-- The target of a handover has a cell; the cell of the source has been read before. -/
theorem handOver_iff {bs : EnbRibInfo} (hbs : w.rib.eNBConfigs[b]? = some bs)
    (hcell : HasCell w.rib b) (rnti : UInt32) (tbs errorReason : String) :
    ReadsInBounds (handOver b rnti tbs errorReason) w ↔
      Searchable w.rib tbs ∧ ∀ t, Names w.rib tbs t → t ≠ b → HasCell w.rib t := by
  rw [ReadsInBounds, ReadsMissingCell, handOver]
  rcases parseBsOrCell_cases w.rib tbs with ⟨heq, hnot⟩ | ⟨t, ht, heq, hsearch, hnames⟩ |
    ⟨heq | heq, hsearch, hnone⟩
  · rw [exec_bind_of_error (exec_ofRib_error heq)]
    exact iff_of_false (by simp) fun h => hnot h.1
  · rw [exec_bind_of_ok (exec_ofRib_ok heq), if_neg ht]
    have hsimp : (Searchable w.rib tbs ∧ ∀ c, Names w.rib tbs c → c ≠ b → HasCell w.rib c) ↔
        (t ≠ b → HasCell w.rib t) := by
      simp [hsearch, hnames]
    rw [hsimp]
    by_cases hsame : b = t
    · rw [if_pos hsame]
      exact iff_of_true (by simp) fun h => absurd hsame.symm h
    · rw [if_neg hsame]
      obtain ⟨tinfo, htinfo⟩ := ((hnames t).mpr rfl).exists_bs
      rcases exec_cellConfig htinfo with ⟨hread, hnot⟩ | ⟨tCell, hread, -, hhas⟩
      · rw [exec_bind_of_error hread]
        exact iff_of_false (by simp) fun h => hnot (h (Ne.symm hsame))
      · rw [exec_bind_of_ok hread, pushHo, exec_bind_of_ok (exec_sendMessage _ _ _)]
        refine iff_of_true ?_ fun _ => hhas
        -- the message has not changed the RIB
        rcases exec_cellConfig (w := { w with effects := w.effects ++ _ }) hbs with
          ⟨-, hnot⟩ | ⟨sCell, hread', -, -⟩
        · exact absurd hcell hnot
        · rw [exec_bind_of_ok hread']
          simp
  · rw [exec_bind_of_ok (exec_ofRib_ok heq), if_pos rfl]
    exact iff_of_true (by simp) ⟨hsearch, fun t ht => absurd ht (hnone t)⟩
  · rw [exec_bind_of_error (exec_ofRib_error heq)]
    exact iff_of_true (by simp) ⟨hsearch, fun t ht => absurd ht (hnone t)⟩

/-- A handover reads the cells of the base stations it names, and those of others while it
searches for a physical cell id. -/
theorem rrcHo_iff (sbs ue tbs errorReason : String) :
    ReadsInBounds (rrcHo sbs ue tbs errorReason) w ↔
      Searchable w.rib sbs ∧ ∀ b, Names w.rib sbs b → HasCell w.rib b ∧
        ∀ bs, w.rib.eNBConfigs[b]? = some bs → NetControl bs →
          ∀ rnti, bs.parseRntiImsi ue = .ok (some rnti) →
            Searchable w.rib tbs ∧ ∀ t, Names w.rib tbs t → t ≠ b → HasCell w.rib t := by
  rw [ReadsInBounds, ReadsMissingCell, rrcHo]
  rcases parseBsOrCell_cases w.rib sbs with ⟨heq, hnot⟩ | ⟨b, hb, heq, hsearch, hnames⟩ |
    ⟨heq | heq, hsearch, hnone⟩
  · rw [exec_bind_of_error (exec_ofRib_error heq)]
    exact iff_of_false (by simp) fun h => hnot h.1
  · obtain ⟨bs, hbs⟩ := ((hnames b).mpr rfl).exists_bs
    have hsimp : (Searchable w.rib sbs ∧ ∀ c, Names w.rib sbs c → HasCell w.rib c ∧
        ∀ bs, w.rib.eNBConfigs[c]? = some bs → NetControl bs →
          ∀ rnti, bs.parseRntiImsi ue = .ok (some rnti) →
            Searchable w.rib tbs ∧ ∀ t, Names w.rib tbs t → t ≠ c → HasCell w.rib t) ↔
        HasCell w.rib b ∧ (NetControl bs → ∀ rnti, bs.parseRntiImsi ue = .ok (some rnti) →
            Searchable w.rib tbs ∧ ∀ t, Names w.rib tbs t → t ≠ b → HasCell w.rib t) := by
      simp [hsearch, hnames, hbs]
    rw [hsimp, exec_bind_of_ok (exec_ofRib_ok heq), if_neg hb]
    rcases exec_cellConfig hbs with ⟨hread, hnot⟩ | ⟨cell, hread, hget, hhas⟩
    · rw [exec_bind_of_error hread]
      exact iff_of_false (by simp) fun h => hnot h.1
    · rw [exec_bind_of_ok hread]
      by_cases hcontrol : cell.x2HoNetControl.getD false = false
      · rw [if_pos hcontrol]
        refine iff_of_true (by simp) ⟨hhas, ?_⟩
        rintro ⟨cell', hget', hcontrol'⟩
        obtain rfl := Option.some.inj (hget.symm.trans hget')
        exact absurd (hcontrol.symm.trans hcontrol') (by simp)
      · rw [if_neg hcontrol]
        have hnet : NetControl bs := ⟨cell, hget, Bool.eq_true_of_not_eq_false hcontrol⟩
        have hread' := exec_ofBs (w := w) (f := fun bs => bs.parseRntiImsi ue) hbs
        cases hue : bs.parseRntiImsi ue with
        | error e =>
          rw [hue] at hread'
          rw [exec_bind_of_error hread']
          refine iff_of_true ?_ ⟨hhas, fun _ rnti h => nomatch h⟩
          simpa using parseRntiImsi_error hue
        | ok found =>
          rw [hue] at hread'
          rw [exec_bind_of_ok hread']
          cases found with
          | none => exact iff_of_true (by simp) ⟨hhas, fun _ rnti h => nomatch h⟩
          | some rnti =>
            refine (handOver_iff hbs hhas rnti tbs errorReason).trans ?_
            simp [hhas, hnet]
  · rw [exec_bind_of_ok (exec_ofRib_ok heq), if_pos rfl]
    exact iff_of_true (by simp) ⟨hsearch, fun t ht => absurd ht (hnone t)⟩
  · rw [exec_bind_of_error (exec_ofRib_error heq)]
    exact iff_of_true (by simp) ⟨hsearch, fun t ht => absurd ht (hnone t)⟩

end Rrc

/-! ## All requests that read a cell -/

/-- The reads of a request are in bounds exactly when every base station of which it comes to read
cell 0 has a cell. -/
theorem readsInBounds_iff (engine : Rrm.RegexEngine ρ) (w : World (Rrm.RrmManagement ρ))
    (v : World Rrc.RrcTriggering) :
    (∀ parse s policy, ReadsInBounds (Rrm.applySliceConfigPolicy parse s policy) w ↔
      ∀ b, Rrm.Resolves w.rib s b → (parse policy).isSome → HasCell w.rib b) ∧
    (∀ parse s policy, ReadsInBounds (Rrm.changeUeSliceAssociation parse s policy) w ↔
      ∀ b, Rrm.Resolves w.rib s b → ∀ m, parse policy = some m →
        (∃ c ∈ m.ueConfig.head?, Rrm.verifyUeSliceAssocMsg c = .ok ()) → HasCell w.rib b) ∧
    (∀ s policy dlSliceId ulSliceId,
      ReadsInBounds (Rrm.autoUeSliceAssociation engine s policy dlSliceId ulSliceId) w ↔
      ∀ b, Rrm.Resolves w.rib s b →
        (Rrm.ruleSlice dlSliceId).isSome ∨ (Rrm.ruleSlice ulSliceId).isSome → HasCell w.rib b) ∧
    ∀ sbs ue tbs errorReason, ReadsInBounds (Rrc.rrcHo sbs ue tbs errorReason) v ↔
      Searchable v.rib sbs ∧ ∀ b, Names v.rib sbs b → HasCell v.rib b ∧
        ∀ bs, v.rib.eNBConfigs[b]? = some bs → Rrc.NetControl bs →
          ∀ rnti, bs.parseRntiImsi ue = .ok (some rnti) →
            Searchable v.rib tbs ∧ ∀ t, Names v.rib tbs t → t ≠ b → HasCell v.rib t :=
  ⟨Rrm.applySliceConfigPolicy_iff, Rrm.changeUeSliceAssociation_iff,
    Rrm.autoUeSliceAssociation_iff engine, Rrc.rrcHo_iff⟩

/-- An agent with all capabilities says hello; its configuration has not been received yet. -/
def unconfigured : List RibEvent :=
  [.hello 1 { bsId := some 5
              capabilities := [.lophy, .hiphy, .lomac, .himac, .rlc, .pdcp, .sdap, .rrc] }
    .successfulOutcome "" 1]

/-- A request without content changes no slice, but the algorithm in use is read. -/
theorem not_readsInBounds_unconfigured : ∃ r, run ribStep {} unconfigured = .ok r ∧
    ¬ ReadsInBounds (Rrm.applySliceConfigPolicy (fun _ => some {}) "5" "\x7b\x7d")
      { rib := r, app := ({} : Rrm.RrmManagement Unit) } := by
  have hread : (run ribStep {} unconfigured).map (fun r =>
      (exec (Rrm.applySliceConfigPolicy (fun _ => some {}) "5" "\x7b\x7d")
        { rib := r, app := ({} : Rrm.RrmManagement Unit) }).1) = .ok (.error .missingCell) := by
    decide +kernel
  cases hr : run ribStep {} unconfigured with
  | error f => exact nomatch (congrArg (Except.map _) hr).symm.trans hread
  | ok r =>
    rw [hr] at hread
    exact ⟨r, rfl, not_not.mpr (Except.ok.inj hread)⟩

end FlexRan.App
