import FlexRan.App.Log
import FlexRan.Lib.Json

/-!
# JSON texts of configurations and statistics

The RIB, the base stations and the UEs each format one level of a document; the statistics manager
and the recorder put the levels together from different sources.  Protocol messages are printed by
protobuf, of which only this is used: what it prints for a message is an object.

## Main definitions

* `MessagePrinter`: the printer of the messages in a document.
* `formatStatsToJson`, `formatMacStatsToJson`, `formatConfigsToJson`: the text of a UE and of a
  base station.
* `ueStatsJson`, `macStatsJson`, `configsJson`, `statisticsJson`: the values they are texts of.
-/
namespace FlexRan.Rib

open Lib Protocol

/-! ## Messages -/

/-- `MessageToJsonString` for one type of messages. -/
structure JsonPrinter (μ : Type) where
  members : μ → List (String × Json)
  messageToJsonString : μ → String
  wellFormed : ∀ m, (Json.object (members m)).Text (messageToJsonString m)

def JsonPrinter.json {μ : Type} (p : JsonPrinter μ) (m : μ) : Json := .object (p.members m)

structure MessagePrinter where
  enbConfigReply : JsonPrinter FlexEnbConfigReply
  ueConfigReply : JsonPrinter FlexUeConfigReply
  lcConfigReply : JsonPrinter FlexLcConfigReply
  ueStatsReport : JsonPrinter FlexUeStatsReport

/-- The printer of messages in which no field is set. -/
def JsonPrinter.braces (μ : Type) : JsonPrinter μ where
  members _ := []
  messageToJsonString _ := "\x7b\x7d"
  wellFormed _ := text_of_value (.emptyObject ws_nil)

def MessagePrinter.braces : MessagePrinter where
  enbConfigReply := .braces _
  ueConfigReply := .braces _
  lcConfigReply := .braces _
  ueStatsReport := .braces _

/-- The members of a message in which at most the RNTI is set. -/
def rntiMembers (rnti : Option UInt32) : List (String × Json) :=
  rnti.toList.map fun rnti => ("rnti", .number (toString rnti.toNat))

def rntiText : Option UInt32 → String
  | none => "\x7b\x7d"
  | some rnti => "\x7b" ++ ("\"" ++ "rnti" ++ "\":" ++ toString rnti.toNat) ++ "\x7d"

theorem text_rntiText (rnti : Option UInt32) :
    (Json.object (rntiMembers rnti)).Text (rntiText rnti) := by
  cases rnti with
  | none => exact text_of_value (.emptyObject ws_nil)
  | some rnti =>
    exact text_object (membersText_single (by decide) (text_number (numberText_toString _)))

/-- The printer of messages in which at most the RNTIs of UEs are set. -/
def MessagePrinter.rntis : MessagePrinter where
  enbConfigReply := .braces _
  ueConfigReply :=
    { members := fun m =>
        if m.ueConfig.isEmpty then []
        else [("ueConfig", .array (m.ueConfig.map fun ue => .object (rntiMembers ue.rnti)))]
      messageToJsonString := fun m =>
        if m.ueConfig.isEmpty then "\x7b\x7d"
        else "\x7b" ++ ("\"" ++ "ueConfig" ++ "\":" ++
          ("[" ++ joinComma (m.ueConfig.map fun ue => rntiText ue.rnti) ++ "]")) ++ "\x7d"
      wellFormed := fun m => by
        split
        · exact text_of_value (.emptyObject ws_nil)
        · exact text_object (membersText_single (by decide)
            (text_array_map fun ue _ => text_rntiText ue.rnti)) }
  lcConfigReply := .braces _
  ueStatsReport := ⟨fun m => rntiMembers m.rnti, fun m => rntiText m.rnti,
    fun m => text_rntiText m.rnti⟩

/-! ## Date and time -/

/-- `std::tm`: the years since 1900, the months since January. -/
structure Tm where
  sec : ℤ
  min : ℤ
  hour : ℤ
  mday : ℤ
  mon : ℤ
  year : ℤ

/-- The first second of the epoch, in Greenwich. -/
def epochTime : ℤ → Tm := fun _ =>
  { sec := 0, min := 0, hour := 0, mday := 1, mon := 0, year := 70 }

/-- A number with zeros in front, up to a width. -/
def padded (width : ℕ) (n : ℤ) : String := String.ofList ((toString n).toList.leftpad width '0')

/-- `std::put_time` with the format `%Y-%m-%dT%H:%M:%S.` -/
def putTime (tm : Tm) : String :=
  toString (tm.year + 1900) ++ "-" ++ padded 2 (tm.mon + 1) ++ "-" ++ padded 2 tm.mday ++ "T" ++
    padded 2 tm.hour ++ ":" ++ padded 2 tm.min ++ ":" ++ padded 2 tm.sec ++ "."

/-- `format_date_time`, of nanoseconds since the epoch. -/
def formatDateTime (localtime : ℤ → Tm) (t : Int64) : String :=
  let ms := (t.toInt.tdiv 1000000).tmod 1000
  let time := t.toInt.tdiv 1000000000
  putTime (localtime time) ++ padded 3 ms

/-! ## Format of a document -/

/-- `ue_mac_rib_info::format_stats_to_json`. -/
def UeMacRibInfo.formatStatsToJson (rnti : UInt32) (macStats : String) (harq : Fin 8 → String) :
    String :=
  "\x7b\"rnti\": " ++ toString rnti.toNat ++ ",\"mac_stats\":" ++ macStats ++ ",\"harq\":[" ++
    joinComma (List.ofFn harq) ++ "]\x7d"

/-- `enb_rib_info::format_mac_stats_to_json`. -/
def EnbRibInfo.formatMacStatsToJson (bsId : UInt64) (ueMacStatsJson : List String) : String :=
  "\"bs_id\":" ++ toString bsId.toNat ++ ",\"ue_mac_stats\":[" ++ joinComma ueMacStatsJson ++ "]"

/-- `enb_rib_info::format_configs_to_json`. -/
def EnbRibInfo.formatConfigsToJson (bsId : UInt64)
    (agentInfoJson eNBConfigJson ueConfigJson lcConfigJson : String) : String :=
  "\"bs_id\":" ++ toString bsId.toNat ++ ",\"agent_info\":" ++ agentInfoJson ++ ",\"eNB\":" ++
    eNBConfigJson ++ ",\"UE\":" ++ ueConfigJson ++ ",\"LC\":" ++ lcConfigJson

/-- A list in which each item gets its braces. -/
def formatObjects (items : List String) : String :=
  "[" ++ joinComma (items.map fun s => "\x7b" ++ s ++ "\x7d") ++ "]"

/-- `Rib::format_mac_stats_to_json`. -/
def formatMacStatsToJson (macStatsJson : List String) : String := formatObjects macStatsJson

def formatENBConfigurationsToJson (enbConfigurationsJson : List String) : String :=
  formatObjects enbConfigurationsJson

/-- `"ACK"` or `"NACK"`, in quotes. -/
def harqText (ack : Bool) : String := if ack then "\"ACK\"" else "\"NACK\""

/-! ## Values -/

def idJson (n : ℕ) : Json := .number (toString n)

/-- A UE. -/
def ueStatsJson (p : MessagePrinter) (rnti : UInt32) (report : FlexUeStatsReport)
    (harq : Fin 8 → Bool) : Json :=
  .object
    [("rnti", idJson rnti.toNat),
     ("mac_stats", p.ueStatsReport.json report),
     ("harq", .array (List.ofFn fun i => .string (if harq i then "ACK" else "NACK")))]

/-- The statistics of a base station. -/
def macStatsJson (bsId : UInt64) (ues : List Json) : Json :=
  .object [("bs_id", idJson bsId.toNat), ("ue_mac_stats", .array ues)]

/-- The configuration of a base station. -/
def configsJson (p : MessagePrinter) (bsId : UInt64) (agentInfo : Json)
    (eNB : FlexEnbConfigReply) (ue : FlexUeConfigReply) (lc : FlexLcConfigReply) : Json :=
  .object
    [("bs_id", idJson bsId.toNat),
     ("agent_info", agentInfo),
     ("eNB", p.enbConfigReply.json eNB),
     ("UE", p.ueConfigReply.json ue),
     ("LC", p.lcConfigReply.json lc)]

/-- A document, with the parts that were asked for. -/
def statisticsJson (dateTime : String) (configs stats : Option (List Json)) : Json :=
  .object (("date_time", .string dateTime) ::
    ((configs.map fun l => ("eNB_config", Json.array l)).toList ++
      (stats.map fun l => ("mac_stats", Json.array l)).toList))

/-! ## The texts are texts of the values -/

section Texts

variable {p : MessagePrinter}

@[simp] theorem plain_padded (width : ℕ) (n : ℤ) : plain (padded width n) = true := by
  have hn : plain (toString n) = true := plain_repr_int n
  rw [plain, List.all_eq_true] at hn ⊢
  rw [padded, String.toList_ofList, List.leftpad]
  refine List.forall_mem_append.mpr ⟨fun c hc => ?_, hn⟩
  rw [List.eq_of_mem_replicate hc]
  decide

theorem plain_formatDateTime (localtime : ℤ → Tm) (t : Int64) :
    plain (formatDateTime localtime t) = true := by
  have hpunct : ∀ s ∈ ["-", "T", ":", "."], plain s = true := by decide +kernel
  simp [formatDateTime, putTime, hpunct "-" (by simp), hpunct "T" (by simp), hpunct ":" (by simp),
    hpunct "." (by simp)]

theorem text_idJson (n : ℕ) : (idJson n).Text (toString n) := text_number (numberText_toString n)

theorem text_harq (harq : Fin 8 → Bool) :
    (Json.array (List.ofFn fun i => .string (if harq i then "ACK" else "NACK"))).Text
      ("[" ++ joinComma (List.ofFn fun i => harqText (harq i)) ++ "]") := by
  rw [List.ofFn_eq_map, List.ofFn_eq_map]
  refine text_array_map fun i _ => ?_
  cases harq i
  · exact text_string (by decide +kernel)
  · exact text_string (by decide +kernel)

theorem text_formatStatsToJson (rnti : UInt32) (report : FlexUeStatsReport) (harq : Fin 8 → Bool) :
    (ueStatsJson p rnti report harq).Text (UeMacRibInfo.formatStatsToJson rnti
      (p.ueStatsReport.messageToJsonString report) fun i => harqText (harq i)) := by
  have hmembers : MembersText [("rnti", idJson rnti.toNat),
      ("mac_stats", p.ueStatsReport.json report),
      ("harq", .array (List.ofFn fun i => .string (if harq i then "ACK" else "NACK")))] _ :=
    membersText_cons (by decide +kernel) (text_space (text_idJson _))
      (membersText_cons (by decide +kernel) (p.ueStatsReport.wellFormed report)
        (membersText_single (by decide +kernel) (text_harq harq)))
  refine (text_object hmembers).congr ?_
  -- the equation lemma would unfold the strings
  delta UeMacRibInfo.formatStatsToJson
  simp

theorem text_macStats (bsId : UInt64) {ues : List Json} {texts : List String}
    (h : List.Forall₂ Json.Text ues texts) :
    (macStatsJson bsId ues).Text
      ("\x7b" ++ EnbRibInfo.formatMacStatsToJson bsId texts ++ "\x7d") := by
  have hmembers : MembersText [("bs_id", idJson bsId.toNat), ("ue_mac_stats", .array ues)] _ :=
    membersText_cons (by decide +kernel) (text_idJson _)
      (membersText_single (by decide +kernel) (text_array h))
  refine (text_object hmembers).congr ?_
  delta EnbRibInfo.formatMacStatsToJson
  simp

theorem text_configs (bsId : UInt64) {agentInfo : Json} {agentInfoJson : String}
    (h : agentInfo.Text agentInfoJson) (eNB : FlexEnbConfigReply) (ue : FlexUeConfigReply)
    (lc : FlexLcConfigReply) :
    (configsJson p bsId agentInfo eNB ue lc).Text
      ("\x7b" ++ EnbRibInfo.formatConfigsToJson bsId agentInfoJson
        (p.enbConfigReply.messageToJsonString eNB) (p.ueConfigReply.messageToJsonString ue)
        (p.lcConfigReply.messageToJsonString lc) ++ "\x7d") := by
  have hmembers : MembersText [("bs_id", idJson bsId.toNat), ("agent_info", agentInfo),
      ("eNB", p.enbConfigReply.json eNB), ("UE", p.ueConfigReply.json ue),
      ("LC", p.lcConfigReply.json lc)] _ :=
    membersText_cons (by decide +kernel) (text_idJson _)
      (membersText_cons (by decide +kernel) h
        (membersText_cons (by decide +kernel) (p.enbConfigReply.wellFormed eNB)
          (membersText_cons (by decide +kernel) (p.ueConfigReply.wellFormed ue)
            (membersText_single (by decide +kernel) (p.lcConfigReply.wellFormed lc)))))
  refine (text_object hmembers).congr ?_
  delta EnbRibInfo.formatConfigsToJson
  simp

theorem text_formatObjects {js : List Json} {items : List String}
    (h : List.Forall₂ (fun (j : Json) s => j.Text ("\x7b" ++ s ++ "\x7d")) js items) :
    (Json.array js).Text (formatObjects items) := by
  refine text_array ?_
  rwa [List.forall₂_map_right_iff]

theorem formatObjects_ne_empty (items : List String) : formatObjects items ≠ "" := by
  delta formatObjects
  simp

/-- The text of a part that was not asked for is empty. -/
def PartText : Option (List Json) → String → Prop
  | none, s => s = ""
  | some l, s => (Json.array l).Text s ∧ s ≠ ""

theorem text_formatStatisticsToJson {dateTime configurations macStats : String}
    {configs stats : Option (List Json)} (hdate : plain dateTime = true)
    (hconfigs : PartText configs configurations) (hstats : PartText stats macStats)
    (hparts : configs.isSome ∨ stats.isSome) :
    (statisticsJson dateTime configs stats).Text
      (App.Log.formatStatisticsToJson dateTime configurations macStats) := by
  have hkey : plain "date_time" = true := by decide +kernel
  have hkey₁ : plain "eNB_config" = true := by decide +kernel
  have hkey₂ : plain "mac_stats" = true := by decide +kernel
  cases configs with
  | none =>
    cases stats with
    | none => simp at hparts
    | some l =>
      obtain rfl : configurations = "" := hconfigs
      have hmembers : MembersText [("date_time", .string dateTime), ("mac_stats", .array l)] _ :=
        membersText_cons hkey (text_string hdate) (membersText_single hkey₂ hstats.1)
      refine (text_object hmembers).congr ?_
      delta App.Log.formatStatisticsToJson
      rw [if_neg (by simp), if_neg (by simp), if_pos hstats.2]
      simp
  | some c =>
    cases stats with
    | none =>
      obtain rfl : macStats = "" := hstats
      have hmembers : MembersText [("date_time", .string dateTime), ("eNB_config", .array c)] _ :=
        membersText_cons hkey (text_string hdate) (membersText_single hkey₁ hconfigs.1)
      refine (text_object hmembers).congr ?_
      delta App.Log.formatStatisticsToJson
      rw [if_pos hconfigs.2, if_neg (by simp), if_neg (by simp)]
      simp
    | some l =>
      have hmembers : MembersText [("date_time", .string dateTime), ("eNB_config", .array c),
          ("mac_stats", .array l)] _ :=
        membersText_cons hkey (text_string hdate)
          (membersText_cons hkey₁ hconfigs.1 (membersText_single hkey₂ hstats.1))
      refine (text_object hmembers).congr ?_
      delta App.Log.formatStatisticsToJson
      rw [if_pos hconfigs.2, if_pos ⟨hconfigs.2, hstats.2⟩,
        if_pos hstats.2]
      simp

end Texts

end FlexRan.Rib
