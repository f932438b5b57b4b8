import FlexRan.Rib.JsonDump
import FlexRan.Rib.Lookup

/-!
# JSON texts of the statistics manager

The northbound interface asks the statistics manager for the configurations and the statistics of
all base stations, or of one.  The texts of the RIB are put into an object with the date and the
time.  For a base station that does not exist the text is not a JSON text, or the empty object,
and the result says that it was not found.

## Main definitions

* `allStatsToJsonString`, `statsByBsIdToJsonString` and the functions for one of the two parts.
* `WellFormedStatistics`: the texts are documents of the RIB.
* `wellFormedStatistics_of_run`: they are after every run.
-/
namespace FlexRan.App.Stats

open Lib Protocol Rib Rib.Rib Log

variable (p : MessagePrinter) (localtime : ℤ → Tm) (now : Int64)

/-! ## Texts -/

def allStatsToJsonString (r : Rib) : Except Fault String := do
  let macStats ← r.dumpAllMacStatsToJsonString p
  return formatStatisticsToJson (formatDateTime localtime now)
    (r.dumpAllENBConfigurationsToJsonString p) macStats

/-- The result says whether the base station was found. -/
def statsByBsIdToJsonString (r : Rib) (bsId : UInt64) : Except Fault (Bool × String) := do
  let (found, json1) := r.dumpENBConfigurationsByBsIdToJsonString p bsId ""
  if !found then return (false, "\x7b\x7d")
  let (found, json2) ← r.dumpMacStatsByBsIdToJsonString p bsId ""
  if !found then return (false, "\x7b\x7d")
  return (true, formatStatisticsToJson (formatDateTime localtime now) json1 json2)

def allENBConfigsToJsonString (r : Rib) : String :=
  formatStatisticsToJson (formatDateTime localtime now)
    (r.dumpAllENBConfigurationsToJsonString p) ""

def enbConfigsByBsIdToJsonString (r : Rib) (bsId : UInt64) : Bool × String :=
  let (found, json) := r.dumpENBConfigurationsByBsIdToJsonString p bsId ""
  (found, formatStatisticsToJson (formatDateTime localtime now) json "")

def allMacConfigsToJsonString (r : Rib) : Except Fault String := do
  let macStats ← r.dumpAllMacStatsToJsonString p
  return formatStatisticsToJson (formatDateTime localtime now) "" macStats

def macConfigsByBsIdToJsonString (r : Rib) (bsId : UInt64) : Except Fault (Bool × String) := do
  let (found, json) ← r.dumpMacStatsByBsIdToJsonString p bsId ""
  return (found, formatStatisticsToJson (formatDateTime localtime now) "" json)

def ueStatsByRntiByBsIdToJsonString (r : Rib) (rnti : UInt32) (out : String) (bsId : UInt64) :
    Except Fault (Bool × String) :=
  r.dumpUeByRntiByBsIdToJsonString p rnti out bsId

/-! ## Lookup of UEs -/

/-- `parse_rnti_imsi`, through a pointer to the base station. -/
def parseRntiImsi (r : Rib) (bsId : UInt64) (s : String) : Except Abort (Option UInt32) :=
  match r.getBs bsId with
  | none => .error (.fault .nullDereference)
  | some bs => bs.parseRntiImsi s

/-- The loop over the base stations: the first one at which the string names a UE. -/
def findRntiImsi (r : Rib) (s : String) : List UInt64 → Except Abort (Option (UInt32 × UInt64))
  | [] => .ok none
  | b :: bs => do
    let found ← parseRntiImsi r b s
    match found with
    | some rnti => return some (rnti, b)
    | none => findRntiImsi r s bs

def parseRntiImsiFindBs (r : Rib) (s : String) : Except Abort (Option (UInt32 × UInt64)) :=
  findRntiImsi r s r.getAvailableBaseStations

/-! ## Documents -/

/-- One object for each base station. -/
def AllConfigs (r : Rib) (configs : List Json) : Prop :=
  OnePer (fun b => b ∈ r.eNBConfigs) (DescribesConfigs p r) configs

def AllStats (r : Rib) (stats : List Json) : Prop :=
  OnePer (fun b => b ∈ r.eNBConfigs) (DescribesStats p r) stats

/-- The text is the document with these parts. -/
def IsDocument (configs stats : Option (List Json)) (s : String) : Prop :=
  (statisticsJson (formatDateTime localtime now) configs stats).Text s

/-- The base station is found exactly if it exists, and then the text has a property. -/
def Answers (r : Rib) (b : UInt64) (P : String → Prop) (answer : Except Fault (Bool × String)) :
    Prop :=
  ∃ found s, answer = .ok (found, s) ∧ (found = true ↔ b ∈ r.eNBConfigs) ∧ (found = true → P s)

structure WellFormedStatistics (r : Rib) : Prop where
  allStats : ∃ s configs stats, allStatsToJsonString p localtime now r = .ok s ∧
    AllConfigs p r configs ∧ AllStats p r stats ∧
    IsDocument localtime now (some configs) (some stats) s
  allENBConfigs : ∃ configs, AllConfigs p r configs ∧
    IsDocument localtime now (some configs) none (allENBConfigsToJsonString p localtime now r)
  allMacConfigs : ∃ s stats, allMacConfigsToJsonString p localtime now r = .ok s ∧
    AllStats p r stats ∧ IsDocument localtime now none (some stats) s
  statsByBsId : ∀ b, Answers r b
    (fun s => ∃ config stat, DescribesConfigs p r b config ∧ DescribesStats p r b stat ∧
      IsDocument localtime now (some [config]) (some [stat]) s)
    (statsByBsIdToJsonString p localtime now r b)
  enbConfigsByBsId : ∀ b, Answers r b
    (fun s => ∃ config, DescribesConfigs p r b config ∧
      IsDocument localtime now (some [config]) none s)
    (.ok (enbConfigsByBsIdToJsonString p localtime now r b))
  macConfigsByBsId : ∀ b, Answers r b
    (fun s => ∃ stat, DescribesStats p r b stat ∧ IsDocument localtime now none (some [stat]) s)
    (macConfigsByBsIdToJsonString p localtime now r b)

/-! ## The documents of a RIB -/

section Documents

variable {p localtime now} {r : Rib} {b : UInt64} {P : String → Prop}
  {answer : Except Fault (Bool × String)}

theorem answers_of_notFound (hb : r.eNBConfigs[b]? = none) {s : String}
    (h : answer = .ok (false, s)) : Answers r b P answer := by
  refine ⟨false, s, h, iff_of_false (by simp) ?_, fun hfound => absurd hfound (by simp)⟩
  rw [Std.ExtTreeMap.mem_iff_isSome_getElem?, hb]
  simp

theorem answers_of_found {bs : EnbRibInfo} (hb : r.eNBConfigs[b]? = some bs) {s : String}
    (h : answer = .ok (true, s)) (hs : P s) : Answers r b P answer := by
  refine ⟨true, s, h, iff_of_true rfl ?_, fun _ => hs⟩
  rw [Std.ExtTreeMap.mem_iff_isSome_getElem?, hb]
  rfl

theorem isDocument {configs stats : Option (List Json)} {configurations macStats : String}
    (hconfigs : PartText configs configurations) (hstats : PartText stats macStats)
    (hparts : configs.isSome ∨ stats.isSome) :
    IsDocument localtime now configs stats
      (formatStatisticsToJson (formatDateTime localtime now) configurations macStats) :=
  text_formatStatisticsToJson (plain_formatDateTime _ _) hconfigs hstats hparts

theorem wellFormedStatistics (h : ForAllBs Presentable r) :
    WellFormedStatistics p localtime now r where
  allStats := by
    obtain ⟨configs, hall, hconfigs⟩ := partText_allConfigs (p := p) h
    obtain ⟨s, stats, hs, hallStats, hstats⟩ := partText_allStats (p := p) h
    refine ⟨_, configs, stats, ?_, hall, hallStats, isDocument hconfigs hstats (.inl rfl)⟩
    rw [allStatsToJsonString, hs]
    rfl
  allENBConfigs := by
    obtain ⟨configs, hall, hconfigs⟩ := partText_allConfigs (p := p) h
    exact ⟨configs, hall, isDocument hconfigs rfl (.inl rfl)⟩
  allMacConfigs := by
    obtain ⟨s, stats, hs, hallStats, hstats⟩ := partText_allStats (p := p) h
    refine ⟨_, stats, ?_, hallStats, isDocument rfl hstats (.inr rfl)⟩
    rw [allMacConfigsToJsonString, hs]
    rfl
  statsByBsId b := by
    rw [statsByBsIdToJsonString]
    cases hb : r.eNBConfigs[b]? with
    | none =>
      rw [dumpENBConfigurationsByBsIdToJsonString, hb]
      exact answers_of_notFound hb rfl
    | some bs =>
      obtain ⟨json1, config, hjson1, hconfig, htext1⟩ := partText_configsByBsId (p := p) h hb ""
      obtain ⟨json2, stat, hjson2, hstat, htext2⟩ := partText_statsByBsId (p := p) h hb ""
      rw [hjson1, hjson2]
      exact answers_of_found hb rfl
        ⟨config, stat, hconfig, hstat, isDocument htext1 htext2 (.inl rfl)⟩
  enbConfigsByBsId b := by
    rw [enbConfigsByBsIdToJsonString]
    cases hb : r.eNBConfigs[b]? with
    | none =>
      rw [dumpENBConfigurationsByBsIdToJsonString, hb]
      exact answers_of_notFound hb rfl
    | some bs =>
      obtain ⟨json, config, hjson, hconfig, htext⟩ := partText_configsByBsId (p := p) h hb ""
      rw [hjson]
      exact answers_of_found hb rfl ⟨config, hconfig, isDocument htext rfl (.inl rfl)⟩
  macConfigsByBsId b := by
    rw [macConfigsByBsIdToJsonString]
    cases hb : r.eNBConfigs[b]? with
    | none =>
      rw [dumpMacStatsByBsIdToJsonString, hb]
      exact answers_of_notFound hb rfl
    | some bs =>
      obtain ⟨json, stat, hjson, hstat, htext⟩ := partText_statsByBsId (p := p) h hb ""
      rw [hjson]
      exact answers_of_found hb rfl ⟨stat, hstat, isDocument rfl htext (.inr rfl)⟩

end Documents

/-! ## Reachable states -/

/-- What the texts rely on holds after every run. -/
theorem presentable_of_run {events : List Received} {r : Rib}
    (hrun : run receive {} events = .ok r)
    (hendpoints : ∀ e ∈ events, plain e.endpoint = true) : ForAllBs Presentable r := by
  have hnamed : Inv r ∧ BsNamed r := by
    refine run_invariant (I := fun r => Inv r ∧ BsNamed r) (fun s e t h hstep => ?_)
      ⟨inv_empty, fun _ _ hbs => absurd hbs (by simp)⟩ hrun
    obtain ⟨⟨r', effects⟩, hd, ht⟩ := bind_eq_ok_iff.mp hstep
    obtain rfl := Except.ok.inj ht
    exact ⟨h.1.dispatchMessage hd, bsNamed_dispatchMessage h.1 h.2 hd⟩
  intro b bs hbs
  refine ⟨(run_receive_sound hrun).2 b bs hbs, hnamed.2 b bs hbs, fun x a ha => ?_⟩
  obtain ⟨e, he, hendpoint⟩ := endpoint_of_live hrun (.inr (.inl ⟨b, bs, hbs, ha⟩))
  rw [hendpoint]
  exact hendpoints e he

/-- **After every run the texts are documents of the RIB.** The addresses of the agents contain no
quotes and backslashes, and no control characters, as no printed address does. -/
theorem wellFormedStatistics_of_run (p : MessagePrinter) (localtime : ℤ → Tm) (now : Int64)
    {events : List Received} {r : Rib} (hrun : run receive {} events = .ok r)
    (hquotes : ∀ e ∈ events, quote ∉ e.endpoint.toList ∧ backslash ∉ e.endpoint.toList)
    (haddress : ∀ e ∈ events, ∀ c ∈ e.endpoint.toList, ' ' ≤ c) :
    WellFormedStatistics p localtime now r := by
  refine wellFormedStatistics (presentable_of_run hrun fun e he => ?_)
  rw [plain, List.all_eq_true]
  intro c hc
  have hquote : c ≠ quote := fun h => (hquotes e he).1 (h ▸ hc)
  have hbackslash : c ≠ backslash := fun h => (hquotes e he).2 (h ▸ hc)
  simp [isPlain, hquote, hbackslash, haddress e he c hc]

/-- An agent that runs a whole base station. -/
def helloFromHost : List Received :=
  [{ agentId := 0
     msg := ⟨some .successfulOutcome, .hello
       { bsId := some 1, capabilities := defaultCapabilities, splits := [.if4p5] }⟩
     endpoint := "10.0.0.1:36284" }]

/-- Two such agents; the first one has a UE, and reports its statistics. -/
def busyHosts : List Received :=
  helloFromHost ++
    [{ agentId := 1
       msg := ⟨some .successfulOutcome, .hello
         { bsId := some 2, capabilities := defaultCapabilities, splits := [.if4p5] }⟩
       endpoint := "10.0.0.2:36284" },
     { agentId := 0
       msg := ⟨some .successfulOutcome, .ueStateChange
         { type := some EnbRibInfo.fluescActivated, config := some { rnti := some 7 } }⟩ },
     { agentId := 0
       msg := ⟨some .successfulOutcome, .statsReply
         { ueReport := [{ rnti := some 7, flags := some 0 }] }⟩ }]

/-- There are two base stations, and the first one has a UE. -/
def HasHosts (r : Rib) : Prop :=
  r.eNBConfigs.size = 2 ∧
    (r.eNBConfigs[(1 : UInt64)]?.any fun bs => (bs.getUeMacInfo 7).isSome) = true

instance (r : Rib) : Decidable (HasHosts r) := inferInstanceAs (Decidable (_ ∧ _))

theorem run_busyHosts : ∃ r, run receive {} busyHosts = .ok r ∧ HasHosts r :=
  exists_ok_of_decide (by decide +kernel)

theorem wellFormedStatistics_busyHosts : ∃ r, run receive {} busyHosts = .ok r ∧ HasHosts r ∧
    WellFormedStatistics .rntis epochTime 0 r := by
  obtain ⟨r, hrun, hhosts⟩ := run_busyHosts
  exact ⟨r, hrun, hhosts, wellFormedStatistics_of_run .rntis epochTime 0 hrun
    (by simp [busyHosts, helloFromHost, quote, backslash])
    (by simp [busyHosts, helloFromHost])⟩

end FlexRan.App.Stats
