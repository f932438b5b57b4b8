import FlexRan.App.AutoAssociation
import FlexRan.Lib.History
import FlexRan.Rib.UeUpdates

/-!
# Moving UEs by rules

When an agent reports an update of a UE, the rules decide whether the UE is to move to another
slice.  The last rule counts that matches and names another slice than the one the UE is in.  The
command is sent in any case, also without a slice.

## Main definitions

* `Asks`: a rule asks a UE to leave its slice.
* `Commands`, `SendsNothing`: what is sent for a UE.
* `Settled`, `Agree`: what the rules ask of a UE.
* `Followed`: the UE has followed what it was sent.
* `followed_of_report`: the report of an agent with which a UE has followed.
* `settles_iff`: when nothing more is asked for.
-/
namespace FlexRan.App.Rrm

open Lib Lib.Operation Protocol Rib

variable {ρ : Type}

/-- The rules of a direction. -/
def Direction.rules (s : RrmManagement ρ) : Direction → List (ρ × UInt32)
  | .dl => s.dlUeSlice
  | .ul => s.ulUeSlice

/-- A UE of a base station by its RNTI. -/
def ueOf (r : Rib) (b : UInt64) (rnti : UInt32) : Option FlexUeConfig :=
  (uesOf r b).find? fun c => EnbRibInfo.rntiOf c == rnti

/-- The rule matches the UE and is for another slice than `id`. -/
def Asks (engine : RegexEngine ρ) (ue : FlexUeConfig) (id : UInt32) (p : ρ × UInt32) : Prop :=
  matchesUe engine p.1 ue ∧ p.2 ≠ id

instance (engine : RegexEngine ρ) (ue : FlexUeConfig) (id : UInt32) (p : ρ × UInt32) :
    Decidable (Asks engine ue id p) :=
  inferInstanceAs (Decidable (_ ∧ _))

/-- The entry that is sent for a UE with an IMSI. -/
def moveEntry (engine : RegexEngine ρ) (s : RrmManagement ρ) (rnti : UInt32) (ue : FlexUeConfig) :
    Option FlexUeConfig :=
  ue.imsi.map fun imsi =>
    { rnti := some rnti
      dlSliceId := desiredSlice engine s.dlUeSlice imsi ue.dlSliceId
      ulSliceId := desiredSlice engine s.ulUeSlice imsi ue.ulSliceId }

/-- What is sent when a UE is updated. -/
def moves (engine : RegexEngine ρ) (r : Rib) (s : RrmManagement ρ) (b : UInt64) (rnti : UInt32) :
    List Effect :=
  ((ueOf r b rnti).bind (moveEntry engine s rnti)).elim [] fun c =>
    sendToBs r b (commandMessage [c])

/-! ## The entry -/

section Entry

variable {engine : RegexEngine ρ} {s : RrmManagement ρ} {w : World (RrmManagement ρ)}
  {b : UInt64} {rnti imsi : UInt32} {ue c : FlexUeConfig} {d : Direction}

theorem exec_ueAddUpdateSliceAssoc (engine : RegexEngine ρ) (b : UInt64) (rnti : UInt32)
    (w : World (RrmManagement ρ)) : exec (ueAddUpdateSliceAssoc engine b rnti) w =
      (.ok (), { w with effects := w.effects ++ moves engine w.rib w.app b rnti }) := by
  rw [ueAddUpdateSliceAssoc, exec_bind_of_ok (exec_get w), moves, ueOf, uesOf]
  cases w.rib.getBs b with
  | none => simp
  | some bs =>
    dsimp only [Option.map_some, Option.getD_some]
    cases bs.ueConfig.ueConfig.find? fun c => EnbRibInfo.rntiOf c == rnti with
    | none => simp
    | some ue =>
      cases himsi : ue.imsi with
      | none => simp [moveEntry, himsi]
      | some imsi =>
        simp only [Option.bind_some, moveEntry, himsi, Option.map_some, Option.elim_some]
        rfl

/-- The slice a UE is told to move to, as the last of the rules that ask it to leave. -/
theorem desiredSlice_eq (rules : List (ρ × UInt32)) (imsi : UInt64) (id : UInt32) :
    desiredSlice engine rules imsi (some id) =
      last? (fun p => if matchesImsi engine p.1 imsi ∧ id ≠ p.2 then some p.2 else none) rules := by
  rw [← Option.or_none (o := last? _ rules), ← foldl_or, desiredSlice]
  congr 1
  funext desired p
  split <;> rfl

theorem sliceId_moveEntry (h : moveEntry engine s rnti ue = some c) (d : Direction) :
    d.sliceId c = (d.sliceId ue).bind fun id =>
      last? (fun p => if Asks engine ue id p then some p.2 else none) (d.rules s) := by
  obtain ⟨imsi, himsi, rfl⟩ := Option.map_eq_some_iff.mp h
  have hdesired : ∀ rules current, desiredSlice engine rules imsi current =
      current.bind fun id =>
        last? (fun p => if Asks engine ue id p then some p.2 else none) rules := by
    intro rules current
    cases current with
    | none => rfl
    | some id =>
      rw [desiredSlice_eq, Option.bind_some]
      congr 1
      funext p
      simp only [Asks, matchesUe, himsi, Option.any_some, ne_comm (a := id)]
  cases d with
  | dl => exact hdesired _ _
  | ul => exact hdesired _ _

theorem sliceId_moveEntry_eq_none_iff (h : moveEntry engine s rnti ue = some c) :
    d.sliceId c = none ↔
      ∀ id, d.sliceId ue = some id → ∀ p ∈ d.rules s, ¬ Asks engine ue id p := by
  simp [sliceId_moveEntry h, Option.bind_eq_none_iff, last?_eq_none_iff]

/-- The rule that decides, with the rules before and after it. -/
theorem sliceId_moveEntry_eq_some_iff (h : moveEntry engine s rnti ue = some c) {t : UInt32} :
    d.sliceId c = some t ↔ ∃ id, d.sliceId ue = some id ∧ ∃ pre p post,
      d.rules s = pre ++ p :: post ∧ (Asks engine ue id p ∧ p.2 = t) ∧
        ∀ q ∈ post, ¬ Asks engine ue id q := by
  simp [sliceId_moveEntry h, Option.bind_eq_some_iff, last?_eq_some_iff]

end Entry

/-! ## Following a command -/

section Follow

variable (engine : RegexEngine ρ) (b : UInt64) (rnti : UInt32)

/-- What is sent names a slice for the UE. -/
def Commands (w : World (RrmManagement ρ)) : Prop :=
  ∃ sent, (exec (ueAddUpdateSliceAssoc engine b rnti) w).2.effects = w.effects ++ sent ∧
    ∃ id msg reply, .sendMsg id msg ∈ sent ∧ msg.msg = .ueConfigReply reply ∧
      ∃ c ∈ reply.ueConfig, ∃ d : Direction, (d.sliceId c).isSome

/-- Nothing is sent. -/
def SendsNothing (w : World (RrmManagement ρ)) : Prop :=
  (exec (ueAddUpdateSliceAssoc engine b rnti) w).2.effects = w.effects

/-- In `w'` the UE has followed what it is sent in `w`; the rules are the same. -/
structure Followed (w w' : World (RrmManagement ρ)) (ue ue' : FlexUeConfig) : Prop where
  rules : w'.app = w.app
  before : ueOf w.rib b rnti = some ue
  after : ueOf w'.rib b rnti = some ue'
  imsi : ue'.imsi = ue.imsi
  slices : ∀ sent, (exec (ueAddUpdateSliceAssoc engine b rnti) w).2.effects = w.effects ++ sent →
    ∀ id msg reply, .sendMsg id msg ∈ sent → msg.msg = .ueConfigReply reply →
      ∀ c ∈ reply.ueConfig, ∀ d : Direction, d.sliceId ue' = (d.sliceId c).or (d.sliceId ue)

/-- No rule asks the UE to leave a slice that it reports. -/
def Settled (s : RrmManagement ρ) (ue : FlexUeConfig) : Prop :=
  ∀ (d : Direction) id, d.sliceId ue = some id → ∀ p ∈ d.rules s, ¬ Asks engine ue id p

/-- The rules of a direction that match the UE are all for one slice. -/
def Agree (s : RrmManagement ρ) (ue : FlexUeConfig) : Prop :=
  ∀ d : Direction, (d.sliceId ue).isSome → ∀ p ∈ d.rules s, ∀ q ∈ d.rules s,
    matchesUe engine p.1 ue → matchesUe engine q.1 ue → p.2 = q.2

variable {engine b rnti} {w w' : World (RrmManagement ρ)} {ue ue' : FlexUeConfig}

theorem not_asks_of_no_imsi (himsi : ue.imsi = none) (id : UInt32) (p : ρ × UInt32) :
    ¬ Asks engine ue id p := by
  simp [Asks, matchesUe, himsi]

theorem exists_memberOf_of_ueOf (hinv : Rib.Inv w.rib) (hue : ueOf w.rib b rnti = some ue) :
    ∃ x a, w.rib.MemberOf b x a := by
  rw [ueOf, uesOf] at hue
  cases hbs : w.rib.getBs b with
  | none => simp [hbs] at hue
  | some bs =>
    obtain ⟨x, a, ha⟩ := (hinv.baseStation b bs hbs).nonempty
    exact ⟨x, a, bs, hbs, ha⟩

/-- The one message that is sent, to an agent of the base station. -/
theorem sendMsg_mem_moves_iff {s : RrmManagement ρ} {r : Rib} {id : ℤ} {msg : FlexranMessage} :
    .sendMsg id msg ∈ moves engine r s b rnti ↔ ∃ ue c, ueOf r b rnti = some ue ∧
      moveEntry engine s rnti ue = some c ∧ msg = commandMessage [c] ∧
        ∃ x a, r.MemberOf b x a ∧ a.agentId = id := by
  rw [moves]
  cases hue : ueOf r b rnti with
  | none => simp
  | some ue =>
    cases hc : moveEntry engine s rnti ue with
    | none => simp [hc]
    | some c =>
      simp only [Option.bind_some, hc, Option.elim_some, mem_sendToBs, Effect.sendMsg.injEq]
      constructor
      · rintro ⟨x, a, ha, rfl, rfl⟩
        exact ⟨ue, c, rfl, hc, rfl, x, a, ha, rfl⟩
      · rintro ⟨ue', c', hue', hc', rfl, x, a, ha, rfl⟩
        obtain rfl := Option.some.inj hue'
        obtain rfl := Option.some.inj (hc.symm.trans hc')
        exact ⟨x, a, ha, rfl, rfl⟩

theorem commands_iff (hinv : Rib.Inv w.rib) (hue : ueOf w.rib b rnti = some ue) :
    Commands engine b rnti w ↔ ¬ Settled engine w.app ue := by
  simp only [Commands, exec_ueAddUpdateSliceAssoc, List.append_cancel_left_eq, exists_eq_left',
    sendMsg_mem_moves_iff]
  constructor
  · rintro ⟨id, msg, reply, ⟨ue', c, hue', hc, rfl, -⟩, hreply, c', hc', d, hsome⟩ hsettled
    obtain rfl := Option.some.inj (hue.symm.trans hue')
    obtain rfl := FlexranBody.ueConfigReply.inj hreply
    obtain rfl := List.mem_singleton.mp hc'
    rw [(sliceId_moveEntry_eq_none_iff hc).mpr (hsettled d)] at hsome
    exact absurd hsome (by simp)
  · intro hnot
    obtain ⟨x, a, ha⟩ := exists_memberOf_of_ueOf hinv hue
    cases hc : moveEntry engine w.app rnti ue with
    | none =>
      -- without an IMSI no rule matches
      have himsi : ue.imsi = none := Option.map_eq_none_iff.mp hc
      exact absurd (fun _ id _ p _ => not_asks_of_no_imsi himsi id p) hnot
    | some c =>
      refine ⟨a.agentId, _, _, ⟨ue, c, hue, hc, rfl, x, a, ha, rfl⟩, rfl, c,
        List.mem_singleton.mpr rfl, ?_⟩
      by_contra hnone
      refine hnot fun d => (sliceId_moveEntry_eq_none_iff hc).mp ?_
      rw [← Option.not_isSome_iff_eq_none]
      exact fun hsome => hnone ⟨d, hsome⟩

theorem sendsNothing_iff (hinv : Rib.Inv w.rib) (hue : ueOf w.rib b rnti = some ue) :
    SendsNothing engine b rnti w ↔ ue.imsi = none := by
  obtain ⟨x, a, ha⟩ := exists_memberOf_of_ueOf hinv hue
  rw [SendsNothing, exec_ueAddUpdateSliceAssoc]
  dsimp only
  rw [List.append_right_eq_self]
  constructor
  · intro hnil
    cases hc : moveEntry engine w.app rnti ue with
    | none => exact Option.map_eq_none_iff.mp hc
    | some c =>
      have hmem := sendMsg_mem_moves_iff.mpr ⟨ue, c, hue, hc, rfl, x, a, ha, rfl⟩
      rw [hnil] at hmem
      exact absurd hmem (by simp)
  · intro himsi
    simp [moves, hue, moveEntry, himsi]

/-- In the slice it is told to move to, or else in its own, no rule asks the UE to leave exactly if
the rules that match are all for one slice. -/
theorem settled_iff_agree (engine : RegexEngine ρ) (id : UInt32) (rules : List (ρ × UInt32))
    (himsi : ue'.imsi = ue.imsi) :
    (∀ p ∈ rules, ¬ Asks engine ue'
        ((last? (fun p => if Asks engine ue id p then some p.2 else none) rules).getD id) p) ↔
      ∀ p ∈ rules, ∀ q ∈ rules,
        matchesUe engine p.1 ue → matchesUe engine q.1 ue → p.2 = q.2 := by
  have hasks : ∀ id' (p : ρ × UInt32),
      Asks engine ue' id' p ↔ matchesUe engine p.1 ue ∧ p.2 ≠ id' := by
    intro id' p
    rw [Asks, matchesUe, himsi, matchesUe]
  simp only [hasks, not_and, not_not]
  constructor
  · intro h p hp q hq hpm hqm
    rw [h p hp hpm, h q hq hqm]
  · intro h p hp hpm
    cases hlast : last? (fun p => if Asks engine ue id p then some p.2 else none) rules with
    | none =>
      have hnone := last?_eq_none_iff.mp hlast p hp
      by_contra hne
      rw [Option.getD_none] at hne
      rw [if_pos ⟨hpm, hne⟩] at hnone
      exact absurd hnone (by simp)
    | some t =>
      obtain ⟨pre, q, post, rfl, hq, -⟩ := last?_eq_some_iff.mp hlast
      obtain ⟨hqasks, hqt⟩ := Option.ite_none_right_eq_some.mp hq
      rw [Option.getD_some, ← Option.some.inj hqt]
      exact h p hp q (by simp) hpm hqasks.1

/-- A UE that has followed what it is sent is settled exactly if the rules agree. -/
theorem Followed.settled_iff (hinv : Rib.Inv w.rib) (h : Followed engine b rnti w w' ue ue') :
    Settled engine w'.app ue' ↔ Agree engine w.app ue := by
  rw [h.rules]
  cases hc : moveEntry engine w.app rnti ue with
  | none =>
    have himsi : ue.imsi = none := Option.map_eq_none_iff.mp hc
    refine iff_of_true (fun _ id _ p _ => not_asks_of_no_imsi (h.imsi.trans himsi) id p) ?_
    intro d _ p _ q _ hmatch
    simp [matchesUe, himsi] at hmatch
  | some c =>
    obtain ⟨x, a, ha⟩ := exists_memberOf_of_ueOf hinv h.before
    have hslices := h.slices _ (by rw [exec_ueAddUpdateSliceAssoc]) a.agentId _ _
      (sendMsg_mem_moves_iff.mpr ⟨ue, c, h.before, hc, rfl, x, a, ha, rfl⟩) rfl c
      (List.mem_singleton.mpr rfl)
    refine forall_congr' fun d => ?_
    have hslice := hslices d
    rw [sliceId_moveEntry hc] at hslice
    cases hid : d.sliceId ue with
    | none =>
      rw [hid] at hslice
      simp [hslice]
    | some id =>
      rw [hid, Option.bind_some] at hslice
      have hagree := settled_iff_agree engine id (d.rules w.app) h.imsi
      simpa [hslice] using hagree

/-- What a UE that follows is sent next. -/
theorem settles_iff_of_sound (hinv : Rib.Inv w.rib) (hinv' : Rib.Inv w'.rib)
    (h : Followed engine b rnti w w' ue ue') :
    ((Commands engine b rnti w → ¬ Commands engine b rnti w' ∧ SendsNothing engine b rnti w') ↔
        Settled engine w.app ue) ∧
      ((Commands engine b rnti w → ¬ Commands engine b rnti w') ↔ Agree engine w.app ue) := by
  rw [commands_iff hinv h.before, commands_iff hinv' h.after, sendsNothing_iff hinv' h.after,
    not_not, h.settled_iff hinv, h.imsi]
  refine ⟨⟨fun hprop => ?_, fun hsettled hnot => absurd hsettled hnot⟩,
    ⟨fun hprop => ?_, fun hagree _ => hagree⟩⟩
  · by_contra hnot
    exact hnot fun _ id _ p _ => not_asks_of_no_imsi (hprop hnot).2 id p
  · by_contra hnot
    refine hnot (hprop fun hsettled => hnot fun d hsome p hp q hq hpm hqm => ?_)
    -- in a settled direction all rules that match are for the slice of the UE
    obtain ⟨id, hid⟩ := Option.isSome_iff_exists.mp hsome
    have hslice : ∀ p ∈ d.rules w.app, matchesUe engine p.1 ue → p.2 = id := by
      intro p hp hpm
      by_contra hne
      exact hsettled d id hid p hp ⟨hpm, hne⟩
    rw [hslice p hp hpm, hslice q hq hqm]

theorem imsi_mergeUeStateChange (dst src : FlexUeConfig) :
    (EnbRibInfo.mergeUeStateChange dst src).imsi = src.imsi.or dst.imsi := by
  rw [EnbRibInfo.mergeUeStateChange_eq]
  rfl

theorem sliceId_mergeUeStateChange (dst src : FlexUeConfig) (d : Direction) :
    d.sliceId (EnbRibInfo.mergeUeStateChange dst src) = (d.sliceId src).or (d.sliceId dst) := by
  rw [EnbRibInfo.mergeUeStateChange_eq]
  cases d <;> rfl

theorem receive_ueStateChange {r : Rib} {agentId : ℤ} {bs : EnbRibInfo}
    (hbs : r.getBsFromAgent agentId = some bs) (m : FlexUeStateChange) :
    ∃ r', receive r { agentId := agentId, msg := ⟨none, .ueStateChange m⟩ } = .ok r' ∧
      r'.eNBConfigs[r.getBsId agentId]? = some (bs.updateUEConfigStateChange m) := by
  refine ⟨{ r with eNBConfigs :=
      r.eNBConfigs.insert (r.getBsId agentId) (bs.updateUEConfigStateChange m) }, ?_,
    Std.ExtTreeMap.getElem?_insert_self⟩
  simp only [receive, dispatchMessage, handleUeStateChange, updateBsFromAgent, hbs]
  rfl

/-- A UE has followed what it is sent once an agent of its base station has reported just that. -/
theorem followed_of_report {agentId : ℤ} {bs : EnbRibInfo} {c : FlexUeConfig}
    {m : FlexUeStateChange} (hbs : w.rib.getBsFromAgent agentId = some bs)
    (hue : ueOf w.rib (w.rib.getBsId agentId) rnti = some ue)
    (hc : moveEntry engine w.app rnti ue = some c)
    (hm : EnbRibInfo.IsChange EnbRibInfo.fluescUpdated c m) (effects : List Effect) :
    ∃ r', receive w.rib { agentId := agentId, msg := ⟨none, .ueStateChange m⟩ } = .ok r' ∧
      Followed engine (w.rib.getBsId agentId) rnti w ⟨r', w.app, effects⟩ ue
        (EnbRibInfo.mergeUeStateChange ue c) := by
  obtain ⟨-, hget⟩ := getBsFromAgent_eq_some hbs
  have hrnti : EnbRibInfo.rntiOf c = rnti := by
    obtain ⟨imsi, -, rfl⟩ := Option.map_eq_some_iff.mp hc
    rfl
  have himsi : c.imsi = none := by
    obtain ⟨imsi, -, rfl⟩ := Option.map_eq_some_iff.mp hc
    rfl
  obtain ⟨r', hreceive, hget'⟩ := receive_ueStateChange hbs m
  refine ⟨r', hreceive, rfl, hue, ?_, ?_, ?_⟩
  · rw [ueOf, uesOf_eq hget] at hue
    rw [ueOf, uesOf_eq (w := ⟨r', w.app, effects⟩) hget',
      EnbRibInfo.updateUEConfigStateChange_updated hm, ← hrnti]
    rw [← hrnti] at hue
    exact find?_mergeFirst (fun _ _ => EnbRibInfo.rntiOf_mergeUeStateChange) hue
  · rw [imsi_mergeUeStateChange, himsi, Option.none_or]
  · intro sent hsent id msg reply hmem hreply c' hc' d
    rw [exec_ueAddUpdateSliceAssoc] at hsent
    rw [← List.append_cancel_left hsent] at hmem
    obtain ⟨ue', c'', hue', hentry, rfl, -⟩ := sendMsg_mem_moves_iff.mp hmem
    obtain rfl := Option.some.inj (hue.symm.trans hue')
    obtain rfl := Option.some.inj (hc.symm.trans hentry)
    obtain rfl := FlexranBody.ueConfigReply.inj hreply
    obtain rfl := List.mem_singleton.mp hc'
    exact sliceId_mergeUeStateChange ue _ d

end Follow

/-- For a UE that has followed what it was sent, the next run does not name a slice exactly if the
rules that match it in a direction are all for one slice.  It sends nothing only if the UE was
settled in the first place. -/
theorem settles_iff {events events' : List Received} {r r' : Rib}
    (hrun : run receive {} events = .ok r) (hrun' : run receive {} events' = .ok r')
    {engine : RegexEngine ρ} {b : UInt64} {rnti : UInt32} {app app' : RrmManagement ρ}
    {effects effects' : List Effect} {ue ue' : FlexUeConfig}
    (h : Followed engine b rnti ⟨r, app, effects⟩ ⟨r', app', effects'⟩ ue ue') :
    ((Commands engine b rnti ⟨r, app, effects⟩ → ¬ Commands engine b rnti ⟨r', app', effects'⟩ ∧
        SendsNothing engine b rnti ⟨r', app', effects'⟩) ↔ Settled engine app ue) ∧
      ((Commands engine b rnti ⟨r, app, effects⟩ → ¬ Commands engine b rnti ⟨r', app', effects'⟩) ↔
        Agree engine app ue) :=
  settles_iff_of_sound (run_receive_sound hrun).1 (run_receive_sound hrun').1 h

/-- The agent of the UE reports slice 2 in the downlink. -/
def inSliceTwo : Received where
  agentId := 0
  msg := ⟨none, .ueStateChange
    { type := some EnbRibInfo.fluescUpdated
      config := some { rnti := some 7, dlSliceId := some 2 } }⟩

/-- Rules that move the UE from slice 1 to slice 2 are followed. -/
theorem followed_inSliceTwo {s : RrmManagement String}
    (hdl : desiredSlice plainRegex s.dlUeSlice 208950000000031 (some 1) = some 2)
    (hul : desiredSlice plainRegex s.ulUeSlice 208950000000031 (some 2) = none) :
    ∃ r r' ue ue', run receive {} oneImsi = .ok r ∧
      run receive {} (oneImsi ++ [inSliceTwo]) = .ok r' ∧
      (ue.imsi = some 208950000000031 ∧ ue.dlSliceId = some 1) ∧
      Followed plainRegex 1 7 ⟨r, s, []⟩ ⟨r', s, []⟩ ue ue' := by
  have hfacts : (run receive {} oneImsi).map (fun r => decide
      (r.getBsId 0 = 1 ∧ (r.getBsFromAgent 0).isSome ∧
        (ueOf r 1 7).map (fun ue => (ue.imsi, ue.dlSliceId, ue.ulSliceId)) =
          some (some 208950000000031, some 1, some 2))) = .ok true := by decide +kernel
  obtain ⟨r, hrun, hb, hbs, hue⟩ := exists_ok_of_decide hfacts
  obtain ⟨bs, hbs⟩ := Option.isSome_iff_exists.mp hbs
  obtain ⟨ue, hue, hfields⟩ := Option.map_eq_some_iff.mp hue
  simp only [Prod.mk.injEq] at hfields
  obtain ⟨himsi, hdlSlice, hulSlice⟩ := hfields
  have hentry : moveEntry plainRegex s 7 ue = some { rnti := some 7, dlSliceId := some 2 } := by
    rw [moveEntry, himsi, Option.map_some, hdlSlice, hulSlice, hdl, hul]
  have hchange : EnbRibInfo.IsChange EnbRibInfo.fluescUpdated
      { rnti := some 7, dlSliceId := some 2 }
      { type := some EnbRibInfo.fluescUpdated
        config := some { rnti := some 7, dlSliceId := some 2 } } := ⟨rfl, rfl⟩
  obtain ⟨r', hr', h⟩ :=
    followed_of_report (w := ⟨r, s, []⟩) hbs (hb.symm ▸ hue) hentry hchange []
  rw [hb] at h
  exact ⟨r, r', ue, _, hrun, run_concat_eq_ok.mpr ⟨r, hrun, hr'⟩, ⟨himsi, hdlSlice⟩, h⟩

theorem settles_oneRule : ∃ r r' ue ue', run receive {} oneImsi = .ok r ∧
    run receive {} (oneImsi ++ [inSliceTwo]) = .ok r' ∧
    Followed plainRegex 1 7 ⟨r, { dlUeSlice := [("20895", 2)] }, []⟩
      ⟨r', { dlUeSlice := [("20895", 2)] }, []⟩ ue ue' ∧
    (Commands plainRegex 1 7 ⟨r, { dlUeSlice := [("20895", 2)] }, []⟩ →
      ¬ Commands plainRegex 1 7 ⟨r', { dlUeSlice := [("20895", 2)] }, []⟩) := by
  obtain ⟨r, r', ue, ue', hrun, hrun', -, h⟩ :=
    followed_inSliceTwo (s := { dlUeSlice := [("20895", 2)] }) (by decide) (by decide)
  refine ⟨r, r', ue, ue', hrun, hrun', h, (settles_iff hrun hrun' h).2.mpr ?_⟩
  intro d _ p hp q hq _ _
  cases d with
  | dl =>
    rw [List.mem_singleton.mp hp, List.mem_singleton.mp hq]
  | ul => exact absurd hp (by simp [Direction.rules])

/-- The UE is told to go back to slice 1. -/
theorem not_settles_twoRules : ∃ r r' ue ue', run receive {} oneImsi = .ok r ∧
    run receive {} (oneImsi ++ [inSliceTwo]) = .ok r' ∧
    Followed plainRegex 1 7 ⟨r, { dlUeSlice := [("20895", 1), ("31", 2)] }, []⟩
      ⟨r', { dlUeSlice := [("20895", 1), ("31", 2)] }, []⟩ ue ue' ∧
    ¬ (Commands plainRegex 1 7 ⟨r, { dlUeSlice := [("20895", 1), ("31", 2)] }, []⟩ →
      ¬ Commands plainRegex 1 7 ⟨r', { dlUeSlice := [("20895", 1), ("31", 2)] }, []⟩ ∧
        SendsNothing plainRegex 1 7 ⟨r', { dlUeSlice := [("20895", 1), ("31", 2)] }, []⟩) := by
  obtain ⟨r, r', ue, ue', hrun, hrun', ⟨himsi, hdl⟩, h⟩ :=
    followed_inSliceTwo (s := { dlUeSlice := [("20895", 1), ("31", 2)] }) (by decide) (by decide)
  refine ⟨r, r', ue, ue', hrun, hrun', h, fun hprop => ?_⟩
  have hsettled := (settles_iff_of_sound (run_receive_sound hrun).1 (run_receive_sound hrun').1
    h).1.mp hprop
  refine hsettled .dl 1 hdl ("31", 2) (by simp [Direction.rules]) ⟨?_, by decide⟩
  rw [matchesUe, himsi]
  decide

end FlexRan.App.Rrm
