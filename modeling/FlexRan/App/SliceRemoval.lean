import FlexRan.App.UeSlices

/-!
# Requests to remove slices

A request to remove slices is sent on as a slice configuration; the agent takes an entry with an id
and nothing else as the command to remove this slice.  Before it is sent, the algorithm and the
static parameters are cleared, and every slice must have an id.  The label and the scheduler of a
slice, the scheduler of a direction and slice 0 pass.

## Main definitions

* `PureRemoval`, `RemovesOnly`: the message removes the slices asked for and does nothing else.
* `OnlyIds`: a request that names slices other than 0 by their id.
* `removesOnly_iff`: exactly these requests are sent as pure removals.
-/
namespace FlexRan.App.Rrm

open Lib Lib.Operation Protocol Rib

variable {ρ : Type}

/-- The direction asks for the removal of these slices and nothing else; slice 0 can not be
removed. -/
structure PureRemoval (ids : List (Option UInt32)) (config : FlexSliceDlUlConfig) : Prop where
  algorithm : config.algorithm = none
  scheduler : config.scheduler = none
  slices : config.slices = ids.map fun id => { id := id }
  nonzero : some 0 ∉ ids

/-- The cell configurations that are sent remove the slices of the request. -/
def RemovesOnly (m : FlexSliceConfig) (sent : List Effect) : Prop :=
  ∀ id msg reply, .sendMsg id msg ∈ sent → msg.msg = .enbConfigReply reply →
    ∀ c ∈ reply.cellConfig, ∀ d, PureRemoval ((requested m d).slices.map FlexSlice.id)
      (requested (c.sliceConfig.getD {}) d)

/-- The request names a base station and is accepted. -/
structure AcceptedRemoval (parse : String → Option FlexSliceConfig) (s policy : String)
    (w : World (RrmManagement ρ)) (b : UInt64) (m : FlexSliceConfig) : Prop where
  resolves : Resolves w.rib s b
  parsed : parse policy = some m
  returned : (exec (removeSlice parse s policy) w).1 = .ok ()

/-- Slices other than 0 without label and scheduler, and no scheduler for the direction. -/
structure OnlyIds (config : FlexSliceDlUlConfig) : Prop where
  scheduler : config.scheduler = none
  slices : ∀ s ∈ config.slices, s.label = none ∧ s.scheduler = none ∧ s.id ≠ some 0

theorem pureRemoval_clearedDirection_iff (config : Option FlexSliceDlUlConfig) :
    PureRemoval ((config.getD {}).slices.map FlexSlice.id) (clearedDirection config) ↔
      OnlyIds (config.getD {}) := by
  have hslices : (clearedDirection config).slices =
      ((config.getD {}).slices.map FlexSlice.id).map (fun id => { id := id }) ↔
        ∀ s ∈ (config.getD {}).slices, s.label = none ∧ s.scheduler = none := by
    rw [clearedDirection, List.map_map, List.map_inj_left]
    refine forall₂_congr fun s _ => ?_
    rw [Function.comp_apply, FlexSlice.mk.injEq]
    tauto
  constructor
  · intro h
    refine ⟨h.scheduler, fun s hs => ?_⟩
    obtain ⟨hlabel, hscheduler⟩ := hslices.mp h.slices s hs
    exact ⟨hlabel, hscheduler, fun hzero => h.nonzero (List.mem_map.mpr ⟨s, hs, hzero⟩)⟩
  · intro h
    refine ⟨rfl, h.scheduler, hslices.mpr fun s hs => ⟨(h.slices s hs).1, (h.slices s hs).2.1⟩, ?_⟩
    intro hzero
    obtain ⟨s, hs, hid⟩ := List.mem_map.mp hzero
    exact (h.slices s hs).2.2 hid

section Sent

variable {w : World (RrmManagement ρ)} {parse : String → Option FlexSliceConfig}
  {s policy : String} {b : UInt64} {m : FlexSliceConfig}

/-- The two directions of a request, cleared. -/
def clearedConfig (m : FlexSliceConfig) : FlexSliceConfig where
  dl := some (clearedDirection m.dl)
  ul := some (clearedDirection m.ul)

def removalMessage (m : FlexSliceConfig) : FlexranMessage where
  msgDir := some .initiatingMessage
  msg := .enbConfigReply
    { header := some reconfigurationHeader
      cellConfig := [{ sliceConfig := some (clearedConfig m) }] }

theorem exec_removeSlice (h : AcceptedRemoval parse s policy w b m) :
    (exec (removeSlice parse s policy) w).2.effects =
      w.effects ++ sendToBs w.rib b (removalMessage m) := by
  have hreturned := h.returned
  revert hreturned
  rw [removeSlice, exec_bind_of_ok (exec_requireBs h.resolves), requireMessage, h.parsed,
    exec_bind_of_ok (exec_pure _ _)]
  dsimp only
  by_cases hids : (clearedDirection m.dl).slices.all (fun s => s.id.isSome) ∧
      (clearedDirection m.ul).slices.all fun s => s.id.isSome
  · rw [exec_bind_of_ok (exec_throwIf_neg (not_not.mpr hids) _ _), pushCellConfigReconfiguration,
      pushCellConfig, exec_sendMessage]
    exact fun _ => rfl
  · rw [exec_bind_of_error (exec_throwIf_pos hids _ _)]
    exact fun hreturned => absurd hreturned (by simp)

theorem removesOnly_iff_of_sound (hinv : Rib.Inv w.rib)
    (h : AcceptedRemoval parse s policy w b m) :
    (∀ sent, (exec (removeSlice parse s policy) w).2.effects = w.effects ++ sent →
      RemovesOnly m sent) ↔ ∀ d, OnlyIds (requested m d) := by
  rw [exec_removeSlice h]
  simp only [List.append_cancel_left_eq, forall_eq']
  have hdirections : (∀ d, PureRemoval ((requested m d).slices.map FlexSlice.id)
      (requested (clearedConfig m) d)) ↔
        ∀ d, OnlyIds (requested m d) := by
    refine forall_congr' fun d => ?_
    cases d with
    | dl => exact pureRemoval_clearedDirection_iff m.dl
    | ul => exact pureRemoval_clearedDirection_iff m.ul
  rw [← hdirections]
  constructor
  · intro hremoves
    obtain ⟨x, a, ha⟩ := exists_memberOf hinv h.resolves
    exact hremoves a.agentId _ _ (mem_sendToBs.mpr ⟨x, a, ha, rfl⟩) rfl _
      (List.mem_singleton.mpr rfl)
  · intro hpure id msg reply hmem hmsg c hc
    obtain ⟨x, a, -, heq⟩ := mem_sendToBs.mp hmem
    obtain ⟨-, rfl⟩ := Effect.sendMsg.inj heq
    obtain rfl := FlexranBody.enbConfigReply.inj hmsg
    obtain rfl := List.mem_singleton.mp hc
    exact hpure

end Sent

/-- An accepted request is sent as a pure removal exactly if it names slices other than 0 by their
id only and no scheduler. -/
theorem removesOnly_iff {events : List Received} {r : Rib}
    (hrun : run receive {} events = .ok r) {app : RrmManagement ρ} {effects : List Effect}
    {parse : String → Option FlexSliceConfig} {s policy : String} {b : UInt64}
    {m : FlexSliceConfig} (h : AcceptedRemoval parse s policy ⟨r, app, effects⟩ b m) :
    (∀ sent, (exec (removeSlice parse s policy) ⟨r, app, effects⟩).2.effects = effects ++ sent →
      RemovesOnly m sent) ↔ ∀ d, OnlyIds (requested m d) :=
  removesOnly_iff_of_sound (run_receive_sound hrun).1 h

/-- Slices 1 and 3 of the downlink. -/
def twoIds : FlexSliceConfig where
  dl := some { slices := [{ id := some 1 }, { id := some 3 }] }

/-- The default slice, with a label. -/
def labelledZero : FlexSliceConfig where
  dl := some { slices := [{ id := some 0, label := some "default" }] }

theorem removesOnly_twoIds : ∃ r, run receive {} oneUe = .ok r ∧
    ∀ sent, (exec (removeSlice (fun _ => some twoIds) "1" "")
      (⟨r, {}, []⟩ : World (RrmManagement String))).2.effects = [] ++ sent →
        RemovesOnly twoIds sent := by
  have hfacts : (run receive {} oneUe).map (fun r => decide (
      r.parseBsId "1" = .ok 1 ∧ (exec (removeSlice (fun _ => some twoIds) "1" "")
        (⟨r, {}, []⟩ : World (RrmManagement String))).1 = .ok ())) = .ok true := by
    decide +kernel
  obtain ⟨r, hrun, hparse, hreturned⟩ := exists_ok_of_decide hfacts
  refine ⟨r, hrun, (removesOnly_iff hrun ⟨⟨hparse, by decide⟩, rfl, hreturned⟩).mpr fun d => ?_⟩
  cases d <;> exact ⟨rfl, by decide⟩

/-- The entry for slice 0 is sent with its label. -/
theorem not_removesOnly_labelledZero : ∃ r, run receive {} oneUe = .ok r ∧
    AcceptedRemoval (fun _ => some labelledZero) "1" ""
      (⟨r, {}, []⟩ : World (RrmManagement String)) 1 labelledZero ∧
    ¬ ∀ sent, (exec (removeSlice (fun _ => some labelledZero) "1" "")
      (⟨r, {}, []⟩ : World (RrmManagement String))).2.effects = [] ++ sent →
        RemovesOnly labelledZero sent := by
  have hfacts : (run receive {} oneUe).map (fun r => decide (
      r.parseBsId "1" = .ok 1 ∧ (exec (removeSlice (fun _ => some labelledZero) "1" "")
        (⟨r, {}, []⟩ : World (RrmManagement String))).1 = .ok ())) = .ok true := by
    decide +kernel
  obtain ⟨r, hrun, hparse, hreturned⟩ := exists_ok_of_decide hfacts
  have haccepted : AcceptedRemoval (fun _ => some labelledZero) "1" ""
      (⟨r, {}, []⟩ : World (RrmManagement String)) 1 labelledZero :=
    ⟨⟨hparse, by decide⟩, rfl, hreturned⟩
  refine ⟨r, hrun, haccepted, fun h => ?_⟩
  have hdl := (removesOnly_iff_of_sound (run_receive_sound hrun).1 haccepted).mp h .dl
  exact (hdl.slices _ (List.mem_singleton.mpr rfl)).2.2 rfl

end FlexRan.App.Rrm
