import FlexRan.App.Applications
import FlexRan.App.UeSlices
import FlexRan.Lib.Keyed

/-!
# Setting rules for the slices of UEs

A list of regular expressions is set as the rules of a slice, and the UEs of a base station that
match are moved to the slice at once.  The rules of other slices stay, and a direction that is not
named stays as it is.  The message for the UEs is made rule by rule, so that a UE gets as many
entries as rules match it.

## Main definitions

* `AcceptedAssociation`: a request with a list of rules is accepted.
* `RulesReplaced`, `OnceEach`, `Replaces`: the list replaces the old one and moves each UE once.
* `replaces_iff`: it does so exactly if no UE matches two rules of the list.
-/
namespace FlexRan.App.Rrm

open Lib Lib.Operation Protocol Rib

variable {ρ : Type}

/-- A rule matches the IMSI of the UE, if it has one. -/
def matchesUe (engine : RegexEngine ρ) (reg : ρ) (ue : FlexUeConfig) : Bool :=
  ue.imsi.any fun imsi => matchesImsi engine reg imsi

/-- The command for a UE. -/
def autoEntry (dlSlice ulSlice : Option UInt32) (ue : FlexUeConfig) : FlexUeConfig where
  rnti := some (EnbRibInfo.rntiOf ue)
  dlSliceId := dlSlice
  ulSliceId := ulSlice

/-! ## The property -/

/-- The rules of the slice are the list, in order, and those of other slices stay; without a slice
all stay. -/
structure RulesReplaced (rules rules' : List (ρ × UInt32)) (slice : Option UInt32)
    (regs : List ρ) : Prop where
  named : ∀ s, slice = some s → (rules'.filter fun p => p.2 == s).map Prod.fst = regs
  others : ∀ s, slice = some s →
    (rules'.filter fun p => p.2 != s) = rules.filter fun p => p.2 != s
  unnamed : slice = none → rules' = rules

/-- One entry for each UE that matches one of the rules, and no other entry. -/
structure OnceEach (engine : RegexEngine ρ) (dlSlice ulSlice : Option UInt32) (regs : List ρ)
    (ues entries : List FlexUeConfig) : Prop where
  once : ∀ ue ∈ ues, (∃ reg ∈ regs, matchesUe engine reg ue) →
    entries.countP (fun c => EnbRibInfo.rntiOf c = EnbRibInfo.rntiOf ue) = 1
  only : ∀ c ∈ entries, ∃ ue ∈ ues, (∃ reg ∈ regs, matchesUe engine reg ue) ∧
    c = autoEntry dlSlice ulSlice ue

/-- What a request makes of the rules, and what it sends. -/
structure Replaces (engine : RegexEngine ρ) (w w' : World (RrmManagement ρ)) (b : UInt64)
    (dlSlice ulSlice : Option UInt32) (regs : List ρ) : Prop where
  dlRules : RulesReplaced w.app.dlUeSlice w'.app.dlUeSlice dlSlice regs
  ulRules : RulesReplaced w.app.ulUeSlice w'.app.ulUeSlice ulSlice regs
  sent : ∃ sent, w'.effects = w.effects ++ sent ∧ ∀ e ∈ sent, ∃ x a msg reply,
    w.rib.MemberOf b x a ∧ e = .sendMsg a.agentId msg ∧ msg.msg = .ueConfigReply reply ∧
      OnceEach engine dlSlice ulSlice regs (uesOf w.rib b) reply.ueConfig

/-- The request names a base station and has a list of rules, and it is accepted. -/
structure AcceptedAssociation (engine : RegexEngine ρ) (s policy : String)
    (dlSliceId ulSliceId : Int32) (w : World (RrmManagement ρ)) (b : UInt64) (regs : List ρ) :
    Prop where
  resolves : Resolves w.rib s b
  parsed : parseImsiReg engine policy = .ok regs
  returned : (exec (autoUeSliceAssociation engine s policy dlSliceId ulSliceId) w).1 = .ok ()

/-! ## Rules -/

theorem setRules_replaced (rules : List (ρ × UInt32)) (slice : Option UInt32) (regs : List ρ) :
    RulesReplaced rules (setRules rules slice regs) slice regs where
  named s h := by
    have hnone : (rules.filter fun p => p.2 ≠ s).filter (fun p => p.2 == s) = [] := by
      rw [List.filter_filter, List.filter_eq_nil_iff]
      simp
    have hall : (regs.map fun r => (r, s)).filter (fun p => p.2 == s) =
        regs.map fun r => (r, s) := by
      rw [List.filter_eq_self]
      simp
    simp only [setRules, h, List.filter_append, hnone, hall, List.nil_append, List.map_map]
    exact List.map_id regs
  others s h := by
    have hnone : (regs.map fun r => (r, s)).filter (fun p => p.2 != s) = [] := by
      rw [List.filter_eq_nil_iff]
      simp
    simp only [setRules, h, List.filter_append, hnone, List.append_nil, List.filter_filter]
    congr 1
    funext p
    by_cases hp : p.2 = s <;> simp [hp]
  unnamed h := by rw [h, setRules]

/-! ## Entries -/

section Entries

variable (engine : RegexEngine ρ) (dlSlice ulSlice : Option UInt32) (regs : List ρ)
  (ues : List FlexUeConfig)

/-- The entries are made in rounds over the UEs, one for each rule. -/
theorem autoAssociations_eq : autoAssociations engine dlSlice ulSlice regs ues =
    regs.flatMap fun reg => ues.filterMap fun ue =>
      if matchesUe engine reg ue then some (autoEntry dlSlice ulSlice ue) else none := by
  rw [autoAssociations]
  congr 1
  funext reg
  congr 1
  funext ue
  cases himsi : ue.imsi <;> simp [matchesUe, autoEntry, himsi]

theorem mem_autoAssociations {c : FlexUeConfig} :
    c ∈ autoAssociations engine dlSlice ulSlice regs ues ↔
      ∃ ue ∈ ues, (∃ reg ∈ regs, matchesUe engine reg ue) ∧ c = autoEntry dlSlice ulSlice ue := by
  simp only [autoAssociations_eq, List.mem_flatMap, List.mem_filterMap,
    Option.ite_none_right_eq_some, Option.some.injEq]
  constructor
  · rintro ⟨reg, hreg, ue, hue, hmatch, rfl⟩
    exact ⟨ue, hue, ⟨reg, hreg, hmatch⟩, rfl⟩
  · rintro ⟨ue, hue, ⟨reg, hreg, hmatch⟩, rfl⟩
    exact ⟨reg, hreg, ue, hue, hmatch, rfl⟩

/-- A UE has as many entries as rules match it. -/
theorem countP_autoAssociations {ues : List FlexUeConfig}
    (hues : (EnbRibInfo.rntis ues).Nodup) {ue : FlexUeConfig} (hue : ue ∈ ues) :
    (autoAssociations engine dlSlice ulSlice regs ues).countP
        (fun c => EnbRibInfo.rntiOf c = EnbRibInfo.rntiOf ue) =
      regs.countP fun reg => matchesUe engine reg ue := by
  have hkey : ∀ (reg : ρ) a c, (if matchesUe engine reg a then some (autoEntry dlSlice ulSlice a)
      else none) = some c → EnbRibInfo.rntiOf c = EnbRibInfo.rntiOf a := by
    intro reg a c hc
    obtain ⟨-, hc⟩ := Option.ite_none_right_eq_some.mp hc
    rw [← Option.some.inj hc]
    rfl
  rw [autoAssociations_eq, countP_flatMap_filterMap_key hues hkey hue]
  congr 1
  funext reg
  by_cases h : matchesUe engine reg ue = true <;> simp [h]

theorem onceEach_autoAssociations_iff {ues : List FlexUeConfig}
    (hues : (EnbRibInfo.rntis ues).Nodup) :
    OnceEach engine dlSlice ulSlice regs ues
        (autoAssociations engine dlSlice ulSlice regs ues) ↔
      ∀ ue ∈ ues, regs.countP (fun reg => matchesUe engine reg ue) ≤ 1 := by
  constructor
  · intro h ue hue
    by_cases hex : ∃ reg ∈ regs, matchesUe engine reg ue
    · rw [← countP_autoAssociations engine dlSlice ulSlice regs hues hue, h.once ue hue hex]
    · have hzero : regs.countP (fun reg => matchesUe engine reg ue) = 0 := by
        rw [List.countP_eq_zero]
        exact fun reg hreg hmatch => hex ⟨reg, hreg, hmatch⟩
      omega
  · intro h
    refine ⟨fun ue hue hex => ?_, fun c hc => (mem_autoAssociations ..).mp hc⟩
    have hpos := List.countP_pos_iff.mpr hex
    have hle := h ue hue
    rw [countP_autoAssociations engine dlSlice ulSlice regs hues hue]
    omega

end Entries

/-! ## Requests -/

section Request

variable {engine : RegexEngine ρ} {s policy : String} {dlSliceId ulSliceId : Int32}
  {w : World (RrmManagement ρ)} {b : UInt64} {regs : List ρ}

/-- The message with commands for UEs. -/
def commandMessage (ues : List FlexUeConfig) : FlexranMessage where
  msgDir := some .initiatingMessage
  msg := .ueConfigReply { header := some reconfigurationHeader, ueConfig := ues }

/-- The state after an accepted request. -/
theorem exec_autoUeSliceAssociation
    (h : AcceptedAssociation engine s policy dlSliceId ulSliceId w b regs) :
    (exec (autoUeSliceAssociation engine s policy dlSliceId ulSliceId) w).2 =
      { rib := w.rib
        app :=
          { dlUeSlice := setRules w.app.dlUeSlice (ruleSlice dlSliceId) regs
            ulUeSlice := setRules w.app.ulUeSlice (ruleSlice ulSliceId) regs }
        effects := w.effects ++
          let ues := autoAssociations engine (ruleSlice dlSliceId) (ruleSlice ulSliceId) regs
            (uesOf w.rib b)
          if ues.isEmpty then [] else sendToBs w.rib b (commandMessage ues) } := by
  obtain ⟨bs, hbs⟩ := h.resolves.exists_bs
  have hreturned := h.returned
  revert hreturned
  rw [autoUeSliceAssociation, exec_bind_of_ok (exec_requireBs h.resolves)]
  rcases (silent_requireRuleSlice b EnbRibInfo.hasDlSlice dlSliceId).exec_bind_cases _ w with
    ⟨e, heq⟩ | ⟨_, -, heq⟩
  · rw [heq]
    exact fun hreturned => absurd hreturned (by simp)
  rw [heq]
  rcases (silent_requireRuleSlice b EnbRibInfo.hasUlSlice ulSliceId).exec_bind_cases _ w with
    ⟨e, heq⟩ | ⟨_, -, heq⟩
  · rw [heq]
    exact fun hreturned => absurd hreturned (by simp)
  rw [heq, requireImsiReg, h.parsed, exec_bind_of_ok (exec_pure _ _),
    exec_bind_of_ok (exec_modify _ _), uesOf_eq hbs]
  intro _
  generalize hrules : ({ dlUeSlice := setRules w.app.dlUeSlice (ruleSlice dlSliceId) regs
                         ulUeSlice := setRules w.app.ulUeSlice (ruleSlice ulSliceId) regs } :
    RrmManagement ρ) = app
  cases regs with
  | nil => simp [autoAssociations]
  | cons reg regs =>
    rw [if_neg (by simp)]
    have hlook : ∀ (f : EnbRibInfo → List FlexUeConfig),
        exec (ofBs b fun bs => .ok (f bs)) { w with app := app } =
          (.ok (f bs), { w with app := app }) :=
      fun _ => exec_ofBs hbs
    rw [exec_bind_of_ok (hlook _)]
    generalize autoAssociations engine (ruleSlice dlSliceId) (ruleSlice ulSliceId) (reg :: regs)
      bs.ueConfig.ueConfig = ues
    cases ues with
    | nil => simp
    | cons ue ues => rfl

theorem replaces_iff_of_sound (hinv : Rib.Inv w.rib) (hreach : Log.BsReachable w.rib)
    (h : AcceptedAssociation engine s policy dlSliceId ulSliceId w b regs) :
    Replaces engine w (exec (autoUeSliceAssociation engine s policy dlSliceId ulSliceId) w).2 b
        (ruleSlice dlSliceId) (ruleSlice ulSliceId) regs ↔
      ∀ ue ∈ uesOf w.rib b, regs.countP (fun reg => matchesUe engine reg ue) ≤ 1 := by
  have hues := distinct_uesOf hreach h.resolves
  rw [exec_autoUeSliceAssociation h,
    ← onceEach_autoAssociations_iff engine (ruleSlice dlSliceId) (ruleSlice ulSliceId) regs hues]
  constructor
  · intro hreplaces
    obtain ⟨sent, heffects, hsent⟩ := hreplaces.sent
    obtain rfl := List.append_cancel_left heffects
    by_cases hempty : (autoAssociations engine (ruleSlice dlSliceId) (ruleSlice ulSliceId) regs
        (uesOf w.rib b)).isEmpty
    · -- nothing is sent, as no UE matches
      rw [List.isEmpty_iff] at hempty
      refine ⟨fun ue hue ⟨reg, hreg, hmatch⟩ => ?_, by simp [hempty]⟩
      have hmem := (mem_autoAssociations engine (ruleSlice dlSliceId) (ruleSlice ulSliceId) regs
        (uesOf w.rib b)).mpr ⟨ue, hue, ⟨reg, hreg, hmatch⟩, rfl⟩
      rw [hempty] at hmem
      exact absurd hmem (by simp)
    · obtain ⟨x, a, ha⟩ := exists_memberOf hinv h.resolves
      dsimp only at hsent
      rw [if_neg hempty] at hsent
      obtain ⟨_, _, _, reply, -, heq, hmsg, honce⟩ := hsent _ (mem_sendToBs.mpr ⟨x, a, ha, rfl⟩)
      obtain ⟨-, rfl⟩ := Effect.sendMsg.inj heq
      obtain rfl := FlexranBody.ueConfigReply.inj hmsg
      exact honce
  · intro honce
    refine ⟨setRules_replaced .., setRules_replaced .., _, rfl, fun e he => ?_⟩
    dsimp only at he
    split at he
    · exact absurd he (by simp)
    · obtain ⟨x, a, ha, rfl⟩ := mem_sendToBs.mp he
      exact ⟨x, a, _, _, ha, rfl, rfl, honce⟩

end Request

/-- An accepted request replaces the rules of the slices it names.  It moves each UE that matches
once exactly if no UE matches two rules of the list. -/
theorem replaces_iff {events : List Received} {r : Rib}
    (hrun : run receive {} events = .ok r) {engine : RegexEngine ρ} {s policy : String}
    {dlSliceId ulSliceId : Int32} {app : RrmManagement ρ} {effects : List Effect} {b : UInt64}
    {regs : List ρ}
    (h : AcceptedAssociation engine s policy dlSliceId ulSliceId ⟨r, app, effects⟩ b regs) :
    Replaces engine ⟨r, app, effects⟩
        (exec (autoUeSliceAssociation engine s policy dlSliceId ulSliceId) ⟨r, app, effects⟩).2 b
        (ruleSlice dlSliceId) (ruleSlice ulSliceId) regs ↔
      ∀ ue ∈ uesOf r b, regs.countP (fun reg => matchesUe engine reg ue) ≤ 1 :=
  replaces_iff_of_sound (run_receive_sound hrun).1 (run_receive_sound hrun).2 h

/-- The agent of the UE reports its IMSI. -/
def oneImsi : List Received :=
  oneUe ++ [{ agentId := 0
              msg := ⟨none, .ueStateChange
                { type := some EnbRibInfo.fluescUpdated
                  config := some { rnti := some 7, imsi := some 208950000000031 } }⟩ }]

theorem replaces_oneImsi : ∃ r, run receive {} oneImsi = .ok r ∧
    Replaces plainRegex ⟨r, {}, []⟩
      (exec (autoUeSliceAssociation plainRegex "1" "[20895,32]" 1 2) ⟨r, {}, []⟩).2
      1 (ruleSlice 1) (ruleSlice 2) ["20895", "32"] := by
  have hfacts : (run receive {} oneImsi).map (fun r => decide (r.parseBsId "1" = .ok 1 ∧
      parseImsiReg plainRegex "[20895,32]" = .ok ["20895", "32"] ∧
      (exec (autoUeSliceAssociation plainRegex "1" "[20895,32]" 1 2)
        (⟨r, {}, []⟩ : World (RrmManagement String))).1 = .ok () ∧
      ∀ ue ∈ uesOf r 1, ["20895", "32"].countP (fun reg => matchesUe plainRegex reg ue) ≤ 1)) =
        .ok true := by
    decide +kernel
  obtain ⟨r, hrun, hparse, hpolicy, hreturned, hmatches⟩ := exists_ok_of_decide hfacts
  exact ⟨r, hrun, (replaces_iff hrun ⟨⟨hparse, by decide⟩, hpolicy, hreturned⟩).mpr hmatches⟩

/-- The UE matches two rules of the list and gets two entries. -/
theorem not_replaces_oneImsi : ∃ r, run receive {} oneImsi = .ok r ∧
    AcceptedAssociation plainRegex "1" "[20895,31]" 1 2 ⟨r, {}, []⟩ 1 ["20895", "31"] ∧
    ¬ Replaces plainRegex ⟨r, {}, []⟩
      (exec (autoUeSliceAssociation plainRegex "1" "[20895,31]" 1 2) ⟨r, {}, []⟩).2
      1 (ruleSlice 1) (ruleSlice 2) ["20895", "31"] := by
  have hfacts : (run receive {} oneImsi).map (fun r => decide (r.parseBsId "1" = .ok 1 ∧
      parseImsiReg plainRegex "[20895,31]" = .ok ["20895", "31"] ∧
      (exec (autoUeSliceAssociation plainRegex "1" "[20895,31]" 1 2)
        (⟨r, {}, []⟩ : World (RrmManagement String))).1 = .ok () ∧
      ¬ ∀ ue ∈ uesOf r 1, ["20895", "31"].countP (fun reg => matchesUe plainRegex reg ue) ≤ 1)) =
        .ok true := by
    decide +kernel
  obtain ⟨r, hrun, hparse, hpolicy, hreturned, hmatches⟩ := exists_ok_of_decide hfacts
  obtain ⟨hinv, hreach⟩ := run_receive_sound hrun
  have haccepted : AcceptedAssociation plainRegex "1" "[20895,31]" 1 2
      (⟨r, {}, []⟩ : World (RrmManagement String)) 1 ["20895", "31"] :=
    ⟨⟨hparse, by decide⟩, hpolicy, hreturned⟩
  exact ⟨r, hrun, haccepted, mt (replaces_iff_of_sound hinv hreach haccepted).mp hmatches⟩

end FlexRan.App.Rrm
