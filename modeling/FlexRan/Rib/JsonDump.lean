import FlexRan.Lib.Split
import FlexRan.Rib.Dispatch
import FlexRan.Rib.JsonText

/-!
# JSON texts of the RIB

The RIB walks over its base stations, and each of them over its agents and UEs.  The lists of an
agent are closed by writing a bracket over the last comma, so that they must not be empty, and the
MAC state of a UE is dereferenced without a check.

## Main definitions

* `AgentInfo.toJson`, `dumpStatsToJsonString`, `dumpMacStatsToJsonString`,
  `dumpConfigsToJsonString` and the functions of `Rib`: the texts.
* `DescribesConfigs`, `DescribesStats`: the values of a base station.
* `live_of_dispatchMessage`: the agents come from hello messages.
* `rntiInv_of_reachable`: the MAC state of a UE knows its RNTI.
-/
namespace FlexRan

namespace Protocol

/-- `flex_bs_capability_Name`. -/
def BsCapability.name : BsCapability → String
  | lophy => "LOPHY" | hiphy => "HIPHY" | lomac => "LOMAC" | himac => "HIMAC" | rlc => "RLC"
  | pdcp => "PDCP" | sdap => "SDAP" | rrc => "RRC" | s1ap => "S1AP"

/-- `flex_bs_split_Name`. -/
def BsSplit.name : BsSplit → String
  | f1 => "F1" | nFAPI => "nFAPI" | if4 => "IF4" | if4p5 => "IF4p5" | if5 => "IF5"

end Protocol

namespace Rib

set_option linter.dupNamespace false

open Lib Protocol Rib App.Log

/-! ## Texts -/

/-- The loop of `to_json` over a list of enumerators. -/
def namesToJson (names : List String) : String :=
  overwriteLast (names.foldl (fun s name => s ++ ("\"" ++ name ++ "\",")) "[") ']'

def AgentCapabilities.toJson (c : AgentCapabilities) : String :=
  namesToJson (c.caps.map BsCapability.name)

/-- `agent_splits::to_json`. -/
def splitsToJson (splits : List BsSplit) : String :=
  if splits.length < 1 then "[]" else namesToJson (splits.map BsSplit.name)

def AgentInfo.toJson (a : AgentInfo) : String :=
  "\x7b" ++ ("\"agent_id\":" ++ toString a.agentId) ++ (",\"ip_port\":\"" ++ a.portIp) ++
    ("\",\"bs_id\":" ++ toString a.bsId.toNat) ++
    (",\"capabilities\":" ++ a.capabilities.toJson) ++ (",\"splits\":" ++ splitsToJson a.splits) ++
    "\x7d"

section Dump

variable (p : MessagePrinter)

theorem maxNumCC_pos : 0 < maxNumCC := by decide

theorem maxNumTB_pos : 0 < maxNumTB := by decide

/-- `harq_stats_[0][i][0] == FLHS_ACK`. -/
def UeMacRibInfo.acks (ue : UeMacRibInfo) (i : Fin 8) : Bool :=
  ue.harqStats ⟨0, maxNumCC_pos⟩ i ⟨0, maxNumTB_pos⟩ == flhsAck

def UeMacRibInfo.dumpStatsToJsonString (ue : UeMacRibInfo) : String :=
  formatStatsToJson ue.rnti (p.ueStatsReport.messageToJsonString ue.macStatsReport)
    fun i => harqText (ue.acks i)

/-- `dump_stats_to_json_string` through a pointer. -/
def dumpUe (ue : Option UeMacRibInfo) : Except Fault String :=
  match ue with
  | none => .error .nullDereference
  | some ue => .ok (ue.dumpStatsToJsonString p)

def EnbRibInfo.dumpMacStatsToJsonString (bs : EnbRibInfo) : Except Fault String := do
  let ueMacStats ← bs.ueMacInfo.toList.mapM fun e => dumpUe p e.2
  return formatMacStatsToJson bs.bsId ueMacStats

def EnbRibInfo.dumpConfigsToJsonString (bs : EnbRibInfo) : String :=
  let agentInfo := "[" ++ joinComma (bs.agents.toList.map fun a => a.2.toJson) ++ "]"
  formatConfigsToJson bs.bsId agentInfo (p.enbConfigReply.messageToJsonString bs.eNBConfig)
    (p.ueConfigReply.messageToJsonString bs.ueConfig)
    (p.lcConfigReply.messageToJsonString bs.lcConfig)

/-- The result says whether the UE was found; otherwise `out` is left alone. -/
def EnbRibInfo.dumpUeSpecStatsByRntiToJsonString (bs : EnbRibInfo) (rnti : UInt32)
    (out : String) : Except Fault (Bool × String) :=
  match bs.ueMacInfo[rnti]? with
  | none => .ok (false, out)
  | some ue => do
    let stats ← dumpUe p ue
    return (true, stats)

namespace Rib

def dumpUeByRntiByBsIdToJsonString (r : Rib) (rnti : UInt32) (out : String) (bsId : UInt64) :
    Except Fault (Bool × String) :=
  match r.eNBConfigs[bsId]? with
  | none => .ok (false, out)
  | some bs => bs.dumpUeSpecStatsByRntiToJsonString p rnti out

def dumpAllMacStatsToJsonString (r : Rib) : Except Fault String := do
  let macStats ← r.eNBConfigs.toList.mapM fun e => e.2.dumpMacStatsToJsonString p
  return formatMacStatsToJson macStats

/-- The result says whether the base station was found; otherwise `out` is left alone. -/
def dumpMacStatsByBsIdToJsonString (r : Rib) (bsId : UInt64) (out : String) :
    Except Fault (Bool × String) :=
  match r.eNBConfigs[bsId]? with
  | none => .ok (false, out)
  | some bs => do
    let macStats ← bs.dumpMacStatsToJsonString p
    return (true, formatMacStatsToJson [macStats])

def dumpAllENBConfigurationsToJsonString (r : Rib) : String :=
  formatENBConfigurationsToJson (r.eNBConfigs.toList.map fun e => e.2.dumpConfigsToJsonString p)

def dumpENBConfigurationsByBsIdToJsonString (r : Rib) (bsId : UInt64) (out : String) :
    Bool × String :=
  match r.eNBConfigs[bsId]? with
  | none => (false, out)
  | some bs => (true, formatENBConfigurationsToJson [bs.dumpConfigsToJsonString p])

end Rib

end Dump

/-! ## Values -/

def namesJson (names : List String) : Json := .array (names.map Json.string)

/-- An agent with all its capabilities and splits. -/
def AgentInfo.json (a : AgentInfo) : Json :=
  .object
    [("agent_id", .number (toString a.agentId)),
     ("ip_port", .string a.portIp),
     ("bs_id", idJson a.bsId.toNat),
     ("capabilities", namesJson (a.capabilities.caps.map BsCapability.name)),
     ("splits", namesJson (a.splits.map BsSplit.name))]

/-- The configuration of the base station, with one object for each agent. -/
def DescribesConfigs (p : MessagePrinter) (r : Rib) (b : UInt64) (j : Json) : Prop :=
  ∃ bs agents, r.eNBConfigs[b]? = some bs ∧
    OnePer (fun x : ℕ => x ∈ bs.agents)
      (fun x i => ∃ a, bs.agents[x]? = some a ∧ i = a.json) agents ∧
    j = configsJson p b (.array agents) bs.eNBConfig bs.ueConfig bs.lcConfig

/-- The statistics of the base station, with one object for each connected UE. -/
def DescribesStats (p : MessagePrinter) (r : Rib) (b : UInt64) (j : Json) : Prop :=
  ∃ bs ues, r.eNBConfigs[b]? = some bs ∧
    OnePer (fun rnti => rnti ∈ EnbRibInfo.rntis bs.ueConfig.ueConfig)
      (fun rnti i => ∃ ue, bs.getUeMacInfo rnti = some ue ∧
        i = ueStatsJson p rnti ue.macStatsReport ue.acks) ues ∧
    j = macStatsJson b ues

/-! ## Agents come from hello messages -/

section Agents

variable {r r' : Rib} {x : ℕ} {a : AgentInfo}

theorem live_of_outcome {e : RibEvent} {effects : List Effect} (ho : Outcome r e r' effects)
    (ha : r'.Live x a) :
    r.Live x a ∨ ∃ agentId m dir endpoint want, e = .hello agentId m dir endpoint want ∧
      a = helloAgent agentId m endpoint := by
  cases ho with
  | rejected _ => exact .inl ha
  | @waiting agentId m dir endpoint want y _ hfresh _ =>
    rcases (live_pend_iff hfresh).mp ha with ⟨_, rfl⟩ | hlive
    · exact .inr ⟨agentId, m, dir, endpoint, want, rfl, rfl⟩
    · exact .inl hlive
  | @formed agentId m dir endpoint want y haccepts hfresh _ =>
    have hnew : (r.pend y (helloAgent agentId m endpoint)).eNBConfigs[
      (helloAgent agentId m endpoint).bsId]? = none := haccepts.new_bs
    rcases (live_pend_iff hfresh).mp ((live_form_iff hnew).mp ha) with ⟨_, rfl⟩ | hlive
    · exact .inr ⟨agentId, m, dir, endpoint, want, rfl, rfl⟩
    · exact .inl hlive
  | dissolved _ hbs hd => exact .inl (live_of_dissolved hd hbs ha)
  | withdrawn y _ _ _ =>
    rcases ha with ha | ha
    · exact .inl (.inl (getElem?_erase_pending.mp ha).2)
    · exact .inl (.inr ha)
  | unknown _ _ => exact .inl ha

/-- The address of a new agent is the one the message came from. -/
theorem live_of_dispatchMessage (hinv : Inv r) {agentId : ℤ} {msg : FlexranMessage}
    {endpoint : String} {want : ℕ} {effects : List Effect}
    (hd : dispatchMessage r agentId msg endpoint want = .ok (r', effects)) (ha : r'.Live x a) :
    r.Live x a ∨ a.portIp = endpoint := by
  rcases dispatchMessage_cases hinv hd with ⟨e, he, ho⟩ | ⟨_, hrefreshed, _⟩
  · refine (live_of_outcome ho ha).imp_right ?_
    rintro ⟨id, m, dir, endpoint', want', rfl, rfl⟩
    obtain ⟨d, body⟩ := msg
    cases body with
    | hello m' =>
      obtain ⟨-, -, -, rfl, -⟩ := RibEvent.hello.inj (Option.some.inj he)
      rfl
    | disconnect header => exact absurd he (by simp [ribEvent?])
    | _ => exact absurd he (by simp [ribEvent?])
  · exact .inl (hrefreshed.live_iff.mp ha)

/-- In a run all agents have addresses that messages came from. -/
theorem endpoint_of_live {events : List Received} (hrun : run receive {} events = .ok r)
    (ha : r.Live x a) : ∃ e ∈ events, a.portIp = e.endpoint := by
  induction events using List.reverseRecOn generalizing r with
  | nil =>
    obtain rfl := Except.ok.inj hrun
    simp [Live] at ha
  | append_singleton events e ih =>
    obtain ⟨s, hs, hstep⟩ := run_concat_eq_ok.mp hrun
    obtain ⟨⟨r'', effects⟩, hd, ht⟩ := bind_eq_ok_iff.mp hstep
    obtain rfl := Except.ok.inj ht
    rcases live_of_dispatchMessage (run_receive_sound hs).1 hd ha with hlive | heq
    · obtain ⟨e', hmem, heq⟩ := ih hs hlive
      exact ⟨e', List.mem_append_left _ hmem, heq⟩
    · exact ⟨e, by simp, heq⟩

end Agents

/-! ## UEs know their RNTI -/

namespace UeMacRibInfo

variable {ue ue' : UeMacRibInfo}

theorem rnti_updateDlSfInfo {m : FlexDlInfo} (h : ue.updateDlSfInfo m = .ok ue') :
    ue'.rnti = ue.rnti := by
  refine run_invariant (I := fun s => s.rnti = ue.rnti) (fun s e t hs hstep => ?_) rfl h
  rw [writeHarq] at hstep
  split at hstep
  · rw [← Except.ok.inj hstep]
    exact hs
  · exact absurd hstep (by simp)

theorem rnti_updateUlSfInfo {m : FlexUlInfo} (h : ue.updateUlSfInfo m = .ok ue') :
    ue'.rnti = ue.rnti := by
  rw [updateUlSfInfo] at h
  split at h
  · refine run_invariant (I := fun s => s.rnti = ue.rnti) (fun s e t hs hstep => ?_) ?_ h
    · rw [writeUlReception] at hstep
      split at hstep
      · rw [← Except.ok.inj hstep]
        exact hs
      · exact absurd hstep (by simp)
    · rfl
  · exact absurd h (by simp)

end UeMacRibInfo

namespace EnbRibInfo

/-- The MAC state of a UE is filed under its RNTI. -/
def RntiInv (bs : EnbRibInfo) : Prop :=
  ∀ (rnti : UInt32) ue, bs.ueMacInfo[rnti]? = some (some ue) → ue.rnti = rnti

variable {bs bs' : EnbRibInfo}

namespace RntiInv

theorem congr (h : RntiInv bs) (hmac : bs'.ueMacInfo = bs.ueMacInfo) : RntiInv bs' := by
  rw [RntiInv, hmac]
  exact h

theorem withUeMacInfo (h : RntiInv bs) {rnti : UInt32}
    {f : UeMacRibInfo → Except Fault UeMacRibInfo}
    (hf : ∀ ue ue', f ue = .ok ue' → ue'.rnti = ue.rnti)
    (hbs : bs.withUeMacInfo rnti f = .ok bs') : RntiInv bs' := by
  rw [EnbRibInfo.withUeMacInfo] at hbs
  split at hbs
  · exact Except.ok.inj hbs ▸ h
  · exact absurd hbs (by simp)
  · rename_i ue hue
    obtain ⟨ue', hue', hbs⟩ := bind_eq_ok_iff.mp hbs
    obtain rfl := Except.ok.inj hbs
    intro rnti' v hv
    rw [Std.ExtTreeMap.getElem?_insert] at hv
    split at hv
    next heq =>
      obtain rfl := Option.some.inj (Option.some.inj hv)
      rw [hf ue _ hue', h rnti ue hue, Std.LawfulEqCmp.eq_of_compare heq]
    next => exact h rnti' v hv

theorem updateUEConfigStateChange (h : RntiInv bs) (m : FlexUeStateChange) :
    RntiInv (bs.updateUEConfigStateChange m) := by
  simp only [EnbRibInfo.updateUEConfigStateChange]
  split
  · split
    · intro rnti ue hue
      rw [Std.ExtTreeMap.getElem?_insertIfNew] at hue
      split at hue
      next hnew =>
        rw [← Option.some.inj (Option.some.inj hue)]
        exact Std.LawfulEqCmp.eq_of_compare hnew.1
      next => exact h rnti ue hue
    · exact h.congr rfl
  · split
    · split
      · exact h
      · intro rnti ue hue
        rw [Std.ExtTreeMap.getElem?_erase] at hue
        split at hue
        · exact absurd hue (by simp)
        · exact h rnti ue hue
    · split
      · split
        · exact h
        · exact h.congr rfl
      · exact h

theorem step (h : RntiInv bs) {e : Input} (hbs : bs.step e = .ok bs') : RntiInv bs' := by
  cases e with
  | eNBConfigReply m =>
    rw [← Except.ok.inj hbs, updateENBConfig]
    split
    · exact h.congr rfl
    · exact h.congr rfl
  | ueConfigReply m => exact Except.ok.inj hbs ▸ h.congr rfl
  | lcConfigReply m =>
    rw [← Except.ok.inj hbs, updateLCConfig]
    split
    · exact h
    · exact h.congr rfl
  | ueStateChange m => exact Except.ok.inj hbs ▸ h.updateUEConfigStateChange m
  | sfTrigger m =>
    obtain ⟨bs₁, hdl, hul⟩ := bind_eq_ok_iff.mp hbs
    -- the frame numbers do not matter
    have h₀ : RntiInv { bs with
        currentFrame := some (getFrame (m.sfnSf.getD 0).toUInt16.toUInt32)
        currentSubframe := some (getSubframe (m.sfnSf.getD 0).toUInt16.toUInt32) } := h.congr rfl
    have h₁ : RntiInv bs₁ := run_invariant
      (fun _ _ _ h hb => h.withUeMacInfo (fun _ _ => UeMacRibInfo.rnti_updateDlSfInfo) hb) h₀ hdl
    exact run_invariant
      (fun _ _ _ h hb => h.withUeMacInfo (fun _ _ => UeMacRibInfo.rnti_updateUlSfInfo) hb) h₁ hul
  | statsReply m =>
    obtain ⟨bs₁, hues, hcells⟩ := bind_eq_ok_iff.mp hbs
    have h₁ : RntiInv bs₁ := run_invariant
      (fun _ _ _ h hb => h.withUeMacInfo (fun _ _ hue => by rw [← Except.ok.inj hue]; rfl) hb)
      h hues
    refine run_invariant (fun s e t hs hb => ?_) h₁ hcells
    rw [updateCellMacInfo] at hb
    split at hb
    · exact Except.ok.inj hb ▸ hs.congr rfl
    · exact absurd hb (by simp)

end RntiInv

theorem rntiInv_of_reachable (h : Reachable bs) : RntiInv bs := by
  obtain ⟨bsId, agents, fresh, inputs, hfresh, hrun⟩ := h
  refine run_invariant (fun _ _ _ h hb => h.step hb) ?_ hrun
  rw [(make_eq_ok_iff.mp hfresh).2]
  intro rnti ue hue
  exact absurd hue (by simp)

end EnbRibInfo

/-! ## The texts are texts of the values -/

section Texts

variable {p : MessagePrinter}

theorem text_namesToJson {names : List String} (hne : names ≠ [])
    (hplain : ∀ name ∈ names, plain name = true) :
    (namesJson names).Text (namesToJson names) := by
  have hloop : names.foldl (fun s name => s ++ ("\"" ++ name ++ "\",")) "[" =
      (names.map fun name => "\"" ++ name ++ "\"").foldl (fun s t => s ++ (t ++ ",")) "[" := by
    rw [List.foldl_map]
    refine List.foldl_ext _ _ _ fun s name _ => ?_
    rw [← String.toList_inj]
    simp
  rw [namesToJson, hloop, overwriteLast_foldl (by simpa using hne)]
  exact text_array_map fun name hname => text_string (hplain name hname)

theorem text_capabilities (c : AgentCapabilities) :
    (namesJson (c.caps.map BsCapability.name)).Text c.toJson := by
  refine text_namesToJson (by simpa using c.nonempty) fun name hname => ?_
  obtain ⟨cap, -, rfl⟩ := List.mem_map.mp hname
  cases cap <;> decide +kernel

theorem text_splits (splits : List BsSplit) :
    (namesJson (splits.map BsSplit.name)).Text (splitsToJson splits) := by
  rw [splitsToJson]
  split
  · obtain rfl : splits = [] := List.length_eq_zero_iff.mp (by omega)
    have hnone : (Json.array []).Text ("[" ++ joinComma [] ++ "]") := text_array .nil
    exact hnone
  next hlen =>
    refine text_namesToJson (fun h => hlen (by simp [List.map_eq_nil_iff.mp h]))
      fun name hname => ?_
    obtain ⟨split, -, rfl⟩ := List.mem_map.mp hname
    cases split <;> decide +kernel

theorem text_agent {a : AgentInfo} (h : plain a.portIp = true) : a.json.Text a.toJson := by
  have hmembers : MembersText [("agent_id", .number (toString a.agentId)),
      ("ip_port", .string a.portIp), ("bs_id", idJson a.bsId.toNat),
      ("capabilities", namesJson (a.capabilities.caps.map BsCapability.name)),
      ("splits", namesJson (a.splits.map BsSplit.name))] _ :=
    membersText_cons (by decide +kernel) (text_number (numberText_toString_int _))
      (membersText_cons (by decide +kernel) (text_string h)
        (membersText_cons (by decide +kernel) (text_idJson _)
          (membersText_cons (by decide +kernel) (text_capabilities _)
            (membersText_single (by decide +kernel) (text_splits _)))))
  refine (text_object hmembers).congr ?_
  delta AgentInfo.toJson
  simp

end Texts

/-! ## Texts of base stations -/

/-- What the texts of a base station rely on. -/
structure Presentable (b : UInt64) (bs : EnbRibInfo) : Prop where
  reachable : bs.Reachable
  bsId : bs.bsId = b
  endpoints : ∀ (x : ℕ) a, bs.agents[x]? = some a → plain a.portIp = true

section BaseStations

variable {p : MessagePrinter} {r : Rib} {b : UInt64} {bs : EnbRibInfo}

theorem text_dumpConfigs (h : Presentable b bs) (hbs : r.eNBConfigs[b]? = some bs) :
    ∃ j, DescribesConfigs p r b j ∧
      j.Text ("\x7b" ++ bs.dumpConfigsToJsonString p ++ "\x7d") := by
  refine ⟨_, ⟨bs, bs.agents.toList.map fun a => a.2.json, hbs, ?_, rfl⟩, ?_⟩
  · refine onePer_of_toList (fun _ => Iff.rfl) ?_
    rw [List.forall₂_map_right_iff]
    exact List.forall₂_same.mpr fun a ha => ⟨a.2, mem_toList_iff.mp ha, rfl⟩
  · rw [EnbRibInfo.dumpConfigsToJsonString, h.bsId]
    refine text_configs b (text_array_map fun a ha => ?_) _ _ _
    exact text_agent (h.endpoints a.1 a.2 (mem_toList_iff.mp ha))

/-- The MAC state of a base station is printed without a fault. -/
theorem text_dumpMacStats (h : Presentable b bs) (hbs : r.eNBConfigs[b]? = some bs) :
    ∃ s j, bs.dumpMacStatsToJsonString p = .ok s ∧ DescribesStats p r b j ∧
      j.Text ("\x7b" ++ s ++ "\x7d") := by
  have hinv : EnbRibInfo.UeInv bs := EnbRibInfo.ueInv_of_reachable h.reachable
  have hues : ∀ e ∈ bs.ueMacInfo.toList, ∃ (s : String) (j : Json), dumpUe p e.2 = .ok s ∧
      (∃ ue, bs.getUeMacInfo e.1 = some ue ∧ j = ueStatsJson p e.1 ue.macStatsReport ue.acks) ∧
      j.Text s := by
    rintro ⟨rnti, v⟩ he
    have hv : bs.ueMacInfo[rnti]? = some v :=
      Std.ExtTreeMap.mem_toList_iff_getElem?_eq_some.mp he
    obtain ⟨ue, rfl⟩ := Option.ne_none_iff_exists'.mp (hinv.nonnull rnti v hv)
    have hrnti : ue.rnti = rnti := EnbRibInfo.rntiInv_of_reachable h.reachable rnti ue hv
    refine ⟨_, _, rfl, ⟨ue, by rw [EnbRibInfo.getUeMacInfo, hv]; rfl, rfl⟩, ?_⟩
    rw [UeMacRibInfo.dumpStatsToJsonString, hrnti]
    exact text_formatStatsToJson rnti ue.macStatsReport ue.acks
  obtain ⟨texts, js, hmap, hdescribes, htexts⟩ := exists_mapM_ok hues
  refine ⟨EnbRibInfo.formatMacStatsToJson bs.bsId texts, _, ?_,
    ⟨bs, js, hbs, onePer_of_toList (fun rnti => (hinv.keys rnti).symm) hdescribes, rfl⟩, ?_⟩
  · rw [EnbRibInfo.dumpMacStatsToJsonString, hmap]
    rfl
  · rw [h.bsId]
    exact text_macStats b htexts

/-- All base stations are printed, in the order of their ids. -/
theorem partText_allConfigs (h : ForAllBs Presentable r) :
    ∃ configs, OnePer (fun b => b ∈ r.eNBConfigs) (DescribesConfigs p r) configs ∧
      PartText (some configs) (r.dumpAllENBConfigurationsToJsonString p) := by
  have hbss : ∀ e ∈ r.eNBConfigs.toList, ∃ j, DescribesConfigs p r e.1 j ∧
      j.Text ("\x7b" ++ e.2.dumpConfigsToJsonString p ++ "\x7d") := by
    intro e he
    have hbs := Std.ExtTreeMap.mem_toList_iff_getElem?_eq_some.mp he
    exact text_dumpConfigs (h e.1 e.2 hbs) hbs
  obtain ⟨js, hjs⟩ := exists_forall₂ hbss
  refine ⟨js, onePer_of_toList (fun _ => Iff.rfl) (hjs.imp fun _ _ hj => hj.1),
    text_formatObjects ?_, formatObjects_ne_empty _⟩
  rw [List.forall₂_map_right_iff]
  exact (hjs.imp fun _ _ hj => hj.2).flip

theorem partText_allStats (h : ForAllBs Presentable r) :
    ∃ s stats, r.dumpAllMacStatsToJsonString p = .ok s ∧
      OnePer (fun b => b ∈ r.eNBConfigs) (DescribesStats p r) stats ∧ PartText (some stats) s := by
  have hbss : ∀ e ∈ r.eNBConfigs.toList, ∃ s j, e.2.dumpMacStatsToJsonString p = .ok s ∧
      DescribesStats p r e.1 j ∧ j.Text ("\x7b" ++ s ++ "\x7d") := by
    intro e he
    have hbs := Std.ExtTreeMap.mem_toList_iff_getElem?_eq_some.mp he
    exact text_dumpMacStats (h e.1 e.2 hbs) hbs
  obtain ⟨texts, js, hmap, hdescribes, htexts⟩ := exists_mapM_ok
    (T := fun (j : Json) s => j.Text ("\x7b" ++ s ++ "\x7d")) hbss
  refine ⟨formatMacStatsToJson texts, js, ?_, onePer_of_toList (fun _ => Iff.rfl) hdescribes,
    text_formatObjects htexts, formatObjects_ne_empty _⟩
  rw [Rib.dumpAllMacStatsToJsonString, hmap]
  rfl

/-- One base station in a list of its own. -/
theorem partText_configsByBsId (h : ForAllBs Presentable r) (hbs : r.eNBConfigs[b]? = some bs)
    (out : String) :
    ∃ s config, r.dumpENBConfigurationsByBsIdToJsonString p b out = (true, s) ∧
      DescribesConfigs p r b config ∧ PartText (some [config]) s := by
  obtain ⟨j, hj, htext⟩ := text_dumpConfigs (h b bs hbs) hbs
  refine ⟨_, j, ?_, hj, text_formatObjects (.cons htext .nil), formatObjects_ne_empty _⟩
  rw [Rib.dumpENBConfigurationsByBsIdToJsonString, hbs]
  rfl

theorem partText_statsByBsId (h : ForAllBs Presentable r) (hbs : r.eNBConfigs[b]? = some bs)
    (out : String) :
    ∃ s stat, r.dumpMacStatsByBsIdToJsonString p b out = .ok (true, s) ∧
      DescribesStats p r b stat ∧ PartText (some [stat]) s := by
  obtain ⟨t, j, ht, hj, htext⟩ := text_dumpMacStats (h b bs hbs) hbs
  refine ⟨_, j, ?_, hj, text_formatObjects (.cons htext .nil), formatObjects_ne_empty _⟩
  simp only [Rib.dumpMacStatsByBsIdToJsonString, hbs, ht]
  rfl

end BaseStations

end Rib
end FlexRan
