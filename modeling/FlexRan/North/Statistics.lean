import FlexRan.App.PhysicalCell
import FlexRan.North.Calls

/-!
# Answers with statistics

A request for statistics is answered with a document of the base stations or of the UE its path
names, in every state the controller can reach.  It is refused exactly if the path names nothing,
and nothing is answered only if a number in the path is out of range.

## Main definitions

* `Queried`: the ways a call may end that only reads.
* `TypedDocument`, `PlainText`: the document and the text of a type of statistics.
* `NamesUe`, `UeOf`: the UE of a path.
-/
namespace FlexRan.North

open Lib Lib.Operation Protocol App Rib Rib.Rib
open Stats (StatsManager AllConfigs AllStats IsDocument)

variable {α : Type}

/-- A good text is sent, or something is missing and refused, or an exception leaves the call. -/
inductive Queried (good : String → Prop) (missing escapes : Prop) (x : Exchange α) :
    Except Abort Unit × Exchange α → Prop
  | found {s : String} (h : good s) :
      Queried good missing escapes x (.ok (), { x with sent := x.sent ++ [⟨.ok, s⟩] })
  | refused (h : missing) (body : String) :
      Queried good missing escapes x (.ok (), { x with sent := x.sent ++ [⟨.badRequest, body⟩] })
  | escaped (h : escapes) : Queried good missing escapes x (.error .outOfRange, x)

section Query

variable {good : String → Prop} {missing escapes : Prop} {x : Exchange α}

/-- A text that can be made is sent. -/
theorem queried_answerText {f : Rib → Except Fault String} {s : String}
    (hf : f x.world.rib = .ok s) (h : good s) :
    Queried good missing escapes x (exec (answerText f) x) := by
  have hread : exec (ofRib fun r => (f r).mapError Abort.fault) x.world = (.ok s, x.world) :=
    exec_ofRib_ok (by rw [hf]; rfl)
  rw [answerText, exec_ofApp_bind_ok hread]
  exact .found h

theorem queried_send (h : missing) (body : String) :
    Queried good missing escapes x (exec (send .badRequest body) x) :=
  .refused h body

end Query

/-! ## Documents of base stations -/

section Documents

variable (p : MessagePrinter) (localtime : ℤ → Tm) (now : Int64)

/-- The parts a type of statistics consists of. -/
def TypedDocument (type : String) (configs stats : List Json) (s : String) : Prop :=
  (type = "all" ∧ IsDocument localtime now (some configs) (some stats) s) ∨
  (type = "enb_config" ∧ IsDocument localtime now (some configs) none s) ∨
  (type = "mac_stats" ∧ IsDocument localtime now none (some stats) s)

/-- The text for people of a type of statistics. -/
def PlainText (p : DebugPrinter) (r : Rib) (type s : String) : Prop :=
  (type = "all" ∧ Stats.allStatsToString p r = .ok s) ∨
  (type = "enb_config" ∧ s = Stats.allEnbConfigsToString p r) ∨
  (type = "mac_stats" ∧ Stats.allMacConfigsToString p r = .ok s)

/-- The document of all base stations. -/
def AllDocument (r : Rib) (type s : String) : Prop :=
  ∃ configs stats, AllConfigs p r configs ∧ AllStats p r stats ∧
    TypedDocument localtime now type configs stats s

/-- The document of the base station an id stands for. -/
def BsDocument (r : Rib) (id type s : String) : Prop :=
  ∃ b config stat, r.parseEnbAgentId id = .ok b ∧ DescribesConfigs p r b config ∧
    DescribesStats p r b stat ∧ TypedDocument localtime now type [config] [stat] s

/-- The types of statistics there are. -/
def KnownType (type : String) : Prop := type ∈ ["all", "enb_config", "mac_stats"]

/-- The string is the RNTI or the IMSI of a UE of the base station. -/
def NamesUe (r : Rib) (b : UInt64) (s : String) (rnti : UInt32) : Prop :=
  ∃ bs, r.eNBConfigs[b]? = some bs ∧ bs.parseRntiImsi s = .ok (some rnti)

/-- The base station of a path with a UE: the one that is named, or the first that has the UE. -/
def UeAt (r : Rib) (idEnb : Option String) (idUe : String) (b : UInt64) (rnti : UInt32) : Prop :=
  NamesUe r b idUe rnti ∧ match idEnb with
    | some id => r.parseEnbAgentId id = .ok b ∧ b ≠ 0
    | none => ∀ c < b, ∀ other, ¬ NamesUe r c idUe other

/-- The document of the UE of a path; it is a UE that is connected. -/
def UeDocument (r : Rib) (idEnb : Option String) (idUe s : String) : Prop :=
  ∃ b rnti bs ue, UeAt r idEnb idUe b rnti ∧ r.eNBConfigs[b]? = some bs ∧
    rnti ∈ EnbRibInfo.rntis bs.ueConfig.ueConfig ∧ bs.getUeMacInfo rnti = some ue ∧
    (ueStatsJson p rnti ue.macStatsReport ue.acks).Text s

/-- A number in the path of a UE is too large. -/
def UePathOutOfRange (r : Rib) (idEnb : Option String) (idUe : String) : Prop :=
  (∃ id, idEnb = some id ∧ r.parseEnbAgentId id = .error .outOfRange) ∨
  ∃ (b : UInt64) (bs : EnbRibInfo), r.eNBConfigs[b]? = some bs ∧
    bs.parseRntiImsi idUe = .error .outOfRange

end Documents

section Answers

variable {ρ : Type} {lib : Libraries ρ} {now : Int64} {x : Exchange StatsManager}

theorem not_knownType {type : String} (hall : type ≠ "all") (henb : type ≠ "enb_config")
    (hmac : type ≠ "mac_stats") : ¬ KnownType type := by
  simp [KnownType, hall, henb, hmac]

/-- The document of all base stations is never missing. -/
theorem queried_obtainJsonStats (h : ForAllBs Presentable x.world.rib) (type : Option String) :
    Queried (AllDocument lib.printer lib.localtime now x.world.rib (type.getD "all"))
      (¬ KnownType (type.getD "all")) False x (exec (obtainJsonStats lib now type) x) := by
  have hwf : Stats.WellFormedStatistics lib.printer lib.localtime now x.world.rib :=
    Stats.wellFormedStatistics h
  obtain ⟨s, configs, stats, hs, hconfigs, hstats, hdoc⟩ := hwf.allStats
  rw [obtainJsonStats]
  split_ifs with hall henb hmac
  · exact queried_answerText hs ⟨configs, stats, hconfigs, hstats, .inl ⟨hall, hdoc⟩⟩
  · obtain ⟨configs, hconfigs, hdoc⟩ := hwf.allENBConfigs
    exact queried_answerText rfl ⟨configs, stats, hconfigs, hstats, .inr (.inl ⟨henb, hdoc⟩)⟩
  · obtain ⟨s, stats, hs, hstats, hdoc⟩ := hwf.allMacConfigs
    exact queried_answerText hs ⟨configs, stats, hconfigs, hstats, .inr (.inr ⟨hmac, hdoc⟩)⟩
  · exact queried_send (not_knownType hall henb hmac) _

/-! ## Lookups -/

theorem parseRntiImsi_error {bs : EnbRibInfo} {s : String} {e : Abort}
    (h : bs.parseRntiImsi s = .error e) : e = .outOfRange := by
  rw [EnbRibInfo.parseRntiImsi] at h
  split at h <;> split at h <;> first | exact (Except.error.inj h).symm | cases h

/-- The UE of a string has MAC state, and is connected. -/
theorem exists_ue_of_parseRntiImsi {bs : EnbRibInfo} (hinv : EnbRibInfo.UeInv bs) {s : String}
    {rnti : UInt32} (h : bs.parseRntiImsi s = .ok (some rnti)) :
    rnti ∈ EnbRibInfo.rntis bs.ueConfig.ueConfig ∧ ∃ ue, bs.ueMacInfo[rnti]? = some (some ue) := by
  have hmem : rnti ∈ EnbRibInfo.rntis bs.ueConfig.ueConfig := by
    rw [EnbRibInfo.parseRntiImsi] at h
    split at h
    · split at h
      · cases h
      · cases h
      · rename_i v _
        obtain ⟨ue, hue, rfl⟩ := Option.map_eq_some_iff.mp (Except.ok.inj h)
        exact List.mem_map_of_mem (List.mem_of_find?_eq_some hue)
    · split at h
      · cases h
      · cases h
      · have hif := Except.ok.inj h
        split_ifs at hif with hmac
        obtain rfl := Option.some.inj hif
        exact (hinv.keys _).mpr hmac
  refine ⟨hmem, ?_⟩
  have hmac := (hinv.keys rnti).mp hmem
  have hget := Std.ExtTreeMap.getElem?_eq_some_getElem hmac
  obtain ⟨ue, hue⟩ := Option.ne_none_iff_exists'.mp (hinv.nonnull rnti _ hget)
  exact ⟨ue, by rw [hget, hue]⟩

/-- The three ways the loop over the base stations ends. -/
theorem findRntiImsi_cases (r : Rib) (s : String) {l : List UInt64} (hsorted : l.Pairwise (· < ·))
    (hmem : ∀ b ∈ l, b ∈ r.eNBConfigs) :
    (Stats.findRntiImsi r s l = .error .outOfRange ∧
      ∃ (b : UInt64) (bs : EnbRibInfo), r.eNBConfigs[b]? = some bs ∧
        bs.parseRntiImsi s = .error .outOfRange) ∨
    (∃ b ∈ l, ∃ rnti, Stats.findRntiImsi r s l = .ok (some (rnti, b)) ∧ NamesUe r b s rnti ∧
      ∀ c ∈ l, c < b → ∀ other, ¬ NamesUe r c s other) ∨
    (Stats.findRntiImsi r s l = .ok none ∧ ∀ b ∈ l, ∀ rnti, ¬ NamesUe r b s rnti) := by
  induction l with
  | nil => exact .inr (.inr ⟨rfl, by simp⟩)
  | cons b l ih =>
    rw [List.pairwise_cons] at hsorted
    obtain ⟨bs, hbs⟩ : ∃ bs, r.eNBConfigs[b]? = some bs :=
      ⟨_, Std.ExtTreeMap.getElem?_eq_some_getElem (hmem b (by simp))⟩
    have hparse : Stats.parseRntiImsi r b s = bs.parseRntiImsi s := by
      rw [Stats.parseRntiImsi, getBs, hbs]
    cases hfound : bs.parseRntiImsi s with
    | error e =>
      obtain rfl := parseRntiImsi_error hfound
      refine .inl ⟨?_, b, bs, hbs, hfound⟩
      rw [Stats.findRntiImsi, hparse, hfound]
      rfl
    | ok found =>
      cases found with
      | some rnti =>
        refine .inr (.inl ⟨b, by simp, rnti, ?_, ⟨bs, hbs, hfound⟩, fun c hc hlt => ?_⟩)
        · rw [Stats.findRntiImsi, hparse, hfound]
          rfl
        · rcases List.mem_cons.mp hc with rfl | hc
          · exact absurd hlt (UInt64.lt_irrefl _)
          · exact absurd (UInt64.lt_trans (hsorted.1 c hc) hlt) (UInt64.lt_irrefl _)
      | none =>
        have hnot : ∀ rnti, ¬ NamesUe r b s rnti := by
          rintro rnti ⟨bs', hbs', hnames⟩
          obtain rfl := Option.some.inj (hbs.symm.trans hbs')
          cases hfound.symm.trans hnames
        have hstep : Stats.findRntiImsi r s (b :: l) = Stats.findRntiImsi r s l := by
          rw [Stats.findRntiImsi, hparse, hfound]
          rfl
        rw [hstep]
        rcases ih hsorted.2 fun c hc => hmem c (List.mem_cons_of_mem _ hc) with
          hout | ⟨c, hc, rnti, heq, hnames, hfirst⟩ | ⟨heq, hall⟩
        · exact .inl hout
        · refine .inr (.inl ⟨c, List.mem_cons_of_mem _ hc, rnti, heq, hnames, fun d hd hlt => ?_⟩)
          rcases List.mem_cons.mp hd with rfl | hd
          · exact hnot
          · exact hfirst d hd hlt
        · refine .inr (.inr ⟨heq, fun d hd => ?_⟩)
          rcases List.mem_cons.mp hd with rfl | hd
          · exact hnot
          · exact hall d hd

/-! ## Base stations and UEs -/

/-- The text of a base station that exists. -/
theorem answers_eq_found {r : Rib} {b : UInt64} {P : String → Prop}
    {answer : Except Fault (Bool × String)} (h : Stats.Answers r b P answer)
    (hb : b ∈ r.eNBConfigs) : ∃ s, Prod.snd <$> answer = .ok s ∧ P s := by
  obtain ⟨found, s, rfl, hfound, hP⟩ := h
  exact ⟨s, rfl, hP (hfound.mpr hb)⟩

/-- The texts for people are never missing either, and no null pointer is found. -/
theorem queried_obtainStats (h : Log.BsReachable x.world.rib) (type : Option String) :
    Queried (PlainText lib.debug x.world.rib (type.getD "all")) (¬ KnownType (type.getD "all"))
      False x (exec (obtainStats lib type) x) := by
  rw [obtainStats]
  split_ifs with hall henb hmac
  · obtain ⟨s, hs⟩ := Stats.allStatsToString_ok (p := lib.debug) h
    exact queried_answerText hs (.inl ⟨hall, hs⟩)
  · exact queried_answerText rfl (.inr (.inl ⟨henb, rfl⟩))
  · obtain ⟨s, hs⟩ := Stats.allMacConfigsToString_ok (p := lib.debug) h
    exact queried_answerText hs (.inr (.inr ⟨hmac, hs⟩))
  · exact queried_send (not_knownType hall henb hmac) _

/-- The document of one base station is missing if there is no such base station. -/
theorem queried_obtainJsonStatsEnb (hinv : Inv x.world.rib) (h : ForAllBs Presentable x.world.rib)
    (id : String) (type : Option String) :
    Queried (BsDocument lib.printer lib.localtime now x.world.rib id (type.getD "all"))
      (x.world.rib.parseEnbAgentId id = .ok 0 ∨ ¬ KnownType (type.getD "all"))
      (x.world.rib.parseEnbAgentId id = .error .outOfRange) x
      (exec (obtainJsonStatsEnb lib now id type) x) := by
  have hwf : Stats.WellFormedStatistics lib.printer lib.localtime now x.world.rib :=
    Stats.wellFormedStatistics h
  rw [obtainJsonStatsEnb]
  cases hparse : x.world.rib.parseEnbAgentId id with
  | error e =>
    obtain rfl := parseEnbAgentId_error hparse
    rw [exec_ofApp_bind_error (exec_ofRib_error hparse)]
    exact .escaped rfl
  | ok b =>
    rw [exec_ofApp_bind_ok (exec_ofRib_ok hparse)]
    dsimp only
    by_cases hb : b = 0
    · rw [if_pos hb]
      exact queried_send (.inl (by rw [hb])) _
    · have hmem : b ∈ x.world.rib.eNBConfigs := by
        obtain ⟨bs, hbs⟩ := hinv.exists_bs_of_parseEnbAgentId hparse hb
        exact Std.ExtTreeMap.mem_iff_isSome_getElem?.mpr (by rw [hbs]; rfl)
      obtain ⟨s, hs, config, stat, hconfig, hstat, hdoc⟩ :=
        answers_eq_found (hwf.statsByBsId b) hmem
      rw [if_neg hb]
      split_ifs with hall henb hmac
      · exact queried_answerText hs ⟨b, config, stat, hparse, hconfig, hstat, .inl ⟨hall, hdoc⟩⟩
      · obtain ⟨s, hs, config, hconfig, hdoc⟩ := answers_eq_found (hwf.enbConfigsByBsId b) hmem
        exact queried_answerText hs
          ⟨b, config, stat, hparse, hconfig, hstat, .inr (.inl ⟨henb, hdoc⟩)⟩
      · obtain ⟨s, hs, stat, hstat, hdoc⟩ := answers_eq_found (hwf.macConfigsByBsId b) hmem
        exact queried_answerText hs
          ⟨b, config, stat, hparse, hconfig, hstat, .inr (.inr ⟨hmac, hdoc⟩)⟩
      · exact queried_send (.inr (not_knownType hall henb hmac)) _

/-- The text of a UE that has been found. -/
theorem queried_answerUe {missing escapes : Prop} {idEnb : Option String} {idUe : String}
    {b : UInt64} {rnti : UInt32} (h : ForAllBs Presentable x.world.rib)
    (hue : UeAt x.world.rib idEnb idUe b rnti) :
    Queried (UeDocument lib.printer x.world.rib idEnb idUe) missing escapes x
      (exec (answerUe lib (some (rnti, b))) x) := by
  obtain ⟨bs, hbs, hparse⟩ := hue.1
  have hbsReachable := (h b bs hbs).reachable
  obtain ⟨hmem, ue, hget⟩ :=
    exists_ue_of_parseRntiImsi (EnbRibInfo.ueInv_of_reachable hbsReachable) hparse
  have hrnti : ue.rnti = rnti := EnbRibInfo.rntiInv_of_reachable hbsReachable rnti ue hget
  refine queried_answerText (s := ue.dumpStatsToJsonString lib.printer) ?_
    ⟨b, rnti, bs, ue, hue, hbs, hmem, by rw [EnbRibInfo.getUeMacInfo, hget]; rfl, ?_⟩
  · rw [Stats.ueStatsByRntiByBsIdToJsonString, dumpUeByRntiByBsIdToJsonString, hbs]
    dsimp only
    rw [EnbRibInfo.dumpUeSpecStatsByRntiToJsonString, hget]
    rfl
  · rw [UeMacRibInfo.dumpStatsToJsonString, hrnti]
    exact text_formatStatsToJson rnti ue.macStatsReport ue.acks

/-- The document of a UE is missing if nothing has the RNTI or IMSI. -/
theorem queried_obtainJsonStatsUe (hinv : Inv x.world.rib) (h : ForAllBs Presentable x.world.rib)
    (idEnb : Option String) (idUe : String) :
    Queried (UeDocument lib.printer x.world.rib idEnb idUe)
      (∀ b rnti, ¬ UeAt x.world.rib idEnb idUe b rnti)
      (UePathOutOfRange x.world.rib idEnb idUe) x (exec (obtainJsonStatsUe lib idEnb idUe) x) := by
  cases idEnb with
  | none =>
    rw [obtainJsonStatsUe]
    rcases findRntiImsi_cases x.world.rib idUe (pairwise_availableBaseStations x.world.rib)
        fun b hb => mem_availableBaseStations.mp hb with
      ⟨hout, b, bs, hbs, hparse⟩ | ⟨b, hb, rnti, hfound, hnames, hfirst⟩ | ⟨hnone, hall⟩
    · rw [exec_ofApp_bind_error (exec_ofRib_error hout)]
      exact .escaped (.inr ⟨b, bs, hbs, hparse⟩)
    · rw [exec_ofApp_bind_ok (exec_ofRib_ok hfound)]
      refine queried_answerUe h ⟨hnames, fun c hlt other hother => ?_⟩
      obtain ⟨bs, hbs, _⟩ := id hother
      have hc : c ∈ x.world.rib.eNBConfigs :=
        Std.ExtTreeMap.mem_iff_isSome_getElem?.mpr (by rw [hbs]; rfl)
      exact hfirst c (mem_availableBaseStations.mpr hc) hlt other hother
    · rw [exec_ofApp_bind_ok (exec_ofRib_ok hnone)]
      refine queried_send (fun b rnti hue => ?_) _
      obtain ⟨bs, hbs, _⟩ := id hue.1
      have hb : b ∈ x.world.rib.eNBConfigs :=
        Std.ExtTreeMap.mem_iff_isSome_getElem?.mpr (by rw [hbs]; rfl)
      exact hall b (mem_availableBaseStations.mpr hb) rnti hue.1
  | some id =>
    rw [obtainJsonStatsUe]
    cases hparse : x.world.rib.parseEnbAgentId id with
    | error e =>
      obtain rfl := parseEnbAgentId_error hparse
      rw [exec_ofApp_bind_error (exec_ofRib_error hparse)]
      exact .escaped (.inl ⟨id, rfl, hparse⟩)
    | ok b =>
      rw [exec_ofApp_bind_ok (exec_ofRib_ok hparse)]
      by_cases hb : b = 0
      · rw [if_pos hb]
        refine queried_send (fun c rnti hue => ?_) _
        exact hue.2.2 ((Except.ok.inj (hparse.symm.trans hue.2.1)).symm.trans hb)
      · rw [if_neg hb]
        obtain ⟨bs, hbs⟩ := hinv.exists_bs_of_parseEnbAgentId hparse hb
        have hlookup : Stats.parseRntiImsi x.world.rib b idUe = bs.parseRntiImsi idUe := by
          rw [Stats.parseRntiImsi, getBs, hbs]
        cases hfound : bs.parseRntiImsi idUe with
        | error e =>
          obtain rfl := parseRntiImsi_error hfound
          rw [exec_ofApp_bind_error (exec_ofRib_error (hlookup.trans hfound))]
          exact .escaped (.inr ⟨b, bs, hbs, hfound⟩)
        | ok found =>
          rw [exec_ofApp_bind_ok (exec_ofRib_ok (hlookup.trans hfound))]
          cases found with
          | some rnti => exact queried_answerUe h ⟨⟨bs, hbs, hfound⟩, hparse, hb⟩
          | none =>
            refine queried_send (fun c rnti hue => ?_) _
            obtain rfl : b = c := Except.ok.inj (hparse.symm.trans hue.2.1)
            obtain ⟨bs', hbs', hnames⟩ := hue.1
            obtain rfl := Option.some.inj (hbs.symm.trans hbs')
            cases hfound.symm.trans hnames

/-- **In every state that can be reached the requests for statistics are answered with documents.**
The addresses of the agents are printed as they are. -/
theorem statistics_of_run {events : List Received} {w : World StatsManager}
    (hrun : run receive {} events = .ok w.rib)
    (hendpoints : ∀ e ∈ events, plain e.endpoint = true) (lib : Libraries ρ) (now : Int64)
    (sent : List Response) :
    (∀ type, Queried (AllDocument lib.printer lib.localtime now w.rib (type.getD "all"))
      (¬ KnownType (type.getD "all")) False ⟨w, sent⟩
      (exec (obtainJsonStats lib now type) ⟨w, sent⟩)) ∧
    (∀ id type,
      Queried (BsDocument lib.printer lib.localtime now w.rib id (type.getD "all"))
        (w.rib.parseEnbAgentId id = .ok 0 ∨ ¬ KnownType (type.getD "all"))
        (w.rib.parseEnbAgentId id = .error .outOfRange) ⟨w, sent⟩
        (exec (obtainJsonStatsEnb lib now id type) ⟨w, sent⟩)) ∧
    ∀ idEnb idUe, Queried (UeDocument lib.printer w.rib idEnb idUe)
      (∀ b rnti, ¬ UeAt w.rib idEnb idUe b rnti) (UePathOutOfRange w.rib idEnb idUe) ⟨w, sent⟩
      (exec (obtainJsonStatsUe lib idEnb idUe) ⟨w, sent⟩) := by
  have hpresentable := Stats.presentable_of_run hrun hendpoints
  have hinv := (run_receive_sound hrun).1
  exact ⟨fun type => queried_obtainJsonStats (x := ⟨w, sent⟩) hpresentable type,
    fun id type => queried_obtainJsonStatsEnb (x := ⟨w, sent⟩) hinv hpresentable id type,
    fun idEnb idUe => queried_obtainJsonStatsUe (x := ⟨w, sent⟩) hinv hpresentable idEnb idUe⟩

/-- All base stations, the last one, and a UE by its RNTI. -/
theorem statistics_busyHosts : ∃ r, run receive {} Stats.busyHosts = .ok r ∧ Stats.HasHosts r ∧
    Queried (AllDocument MessagePrinter.rntis epochTime 0 r "all") (¬ KnownType "all") False
      ⟨⟨r, {}, []⟩, []⟩ (exec (obtainJsonStats rntiLibraries 0 none) ⟨⟨r, {}, []⟩, []⟩) ∧
    Queried (BsDocument MessagePrinter.rntis epochTime 0 r "-1" "all")
      (r.parseEnbAgentId "-1" = .ok 0 ∨ ¬ KnownType "all")
      (r.parseEnbAgentId "-1" = .error .outOfRange) ⟨⟨r, {}, []⟩, []⟩
      (exec (obtainJsonStatsEnb rntiLibraries 0 "-1" none) ⟨⟨r, {}, []⟩, []⟩) ∧
    Queried (UeDocument MessagePrinter.rntis r none "7") (∀ b rnti, ¬ UeAt r none "7" b rnti)
      (UePathOutOfRange r none "7") ⟨⟨r, {}, []⟩, []⟩
      (exec (obtainJsonStatsUe rntiLibraries none "7") ⟨⟨r, {}, []⟩, []⟩) := by
  obtain ⟨r, hrun, hhosts⟩ := Stats.run_busyHosts
  have hendpoints : ∀ e ∈ Stats.busyHosts, plain e.endpoint = true := by decide +kernel
  obtain ⟨hall, hbs, hue⟩ :=
    statistics_of_run (w := ⟨r, {}, []⟩) hrun hendpoints rntiLibraries 0 []
  exact ⟨r, hrun, hhosts, hall none, hbs "-1" none, hue none "7"⟩

end Answers

end FlexRan.North
