import FlexRan.App.BandCheck
import FlexRan.App.Component
import FlexRan.App.SliceAdmission
import FlexRan.Lib.Split

/-!
# Radio resource management

Requests of the northbound interface change the slices of a cell, the slices UEs belong to, and
the configuration of a cell.  UEs may also be associated to slices by rules, regular expressions
over their IMSI; the rules are applied to the UEs that exist when a rule is set, and to a UE
whenever its agent reports an update of it.

## Main definitions

* `RegexEngine`: the regular expressions of the standard library.
* `applySliceConfigPolicy`, `removeSlice`, `changeUeSliceAssociation`,
  `autoUeSliceAssociation`, `applyCellConfigPolicy`: the requests.
* `ueAddUpdateSliceAssoc`, `subscribers`: what happens when a UE is updated.
-/
namespace FlexRan.App.Rrm

open Lib Lib.Operation Protocol Rib

/-- `std::regex` with the grammar of `grep`: whether a text is a regular expression, and whether
it matches a part of a string. -/
structure RegexEngine (ρ : Type) where
  compile : String → Option ρ
  search : ρ → String → Bool

/-- The rules for the two directions: the UEs that match belong to the slice. -/
structure RrmManagement (ρ : Type) where
  dlUeSlice : List (ρ × UInt32) := []
  ulUeSlice : List (ρ × UInt32) := []

variable {ρ : Type}

/-! ## Lists of regular expressions -/

/-- Why a list is refused: a text for the caller, or a fault. -/
inductive ListError
  | reason (what : String)
  | fault (f : Fault)
deriving DecidableEq

/-- Positions are of type `int`. If the one of the last character does not fit, it becomes negative
and nothing is taken off, or it becomes an earlier one. -/
@[irreducible] def beginEndSpace (s : List Char) : List Char :=
  let l := ((s.length : ℤ) - 1).bmod (2 ^ 32)
  if l < -1 then s else trim isSpace (s.take (l + 1).toNat)

/-- One round of the loop of `split`. The last character of an empty token is out of bounds. -/
def parseToken (part : List Char) : Except ListError (List Char) :=
  let token := beginEndSpace part
  match token.head?, token.getLast? with
  | some first, some last =>
    if (first == '"') != (last == '"') then .error (.reason "unbalanced \"\"")
    else
      let token := if first == '"' then (token.drop 1).take (token.length - 2) else token
      if token.any Char.isAlpha then .error (.reason "alpha character detected") else .ok token
  | _, _ => .error (.fault .outOfBounds)

def split (s : String) : Except ListError (List String) :=
  let str := beginEndSpace s.toList
  match str.head?, str.getLast? with
  | some first, some last =>
    if first ≠ '[' then .error (.reason "expected '['")
    else if last ≠ ']' then .error (.reason "expected ']'")
    else do
      let tokens ← (((str.drop 1).take (str.length - 2)).splitOn ',').mapM parseToken
      return (tokens.filter fun t => !t.isEmpty).map String.ofList
  | _, _ => .error (.reason "empty string")

def parseImsiReg (engine : RegexEngine ρ) (s : String) : Except ListError (List ρ) := do
  let list ← split s
  list.mapM fun item => match engine.compile item with
    | some reg => .ok reg
    | none => .error (.reason ("bad format of regex " ++ item))

/-! ## Messages -/

def reconfigureAgentString (bsId : UInt64) (policy : String) : Op (RrmManagement ρ) Unit :=
  sendMessage bsId
    { msgDir := some .initiatingMessage
      msg := .agentReconfiguration
        { header := some reconfigurationHeader, policy := some policy } }

def pushCellConfigReconfiguration (bsId : UInt64) (cellConfig : FlexCellConfig) :
    Op (RrmManagement ρ) Unit :=
  pushCellConfig bsId cellConfig

def pushUeConfigReconfiguration (bsId : UInt64) (ueConfig : FlexUeConfigReply) :
    Op (RrmManagement ρ) Unit :=
  sendMessage bsId
    { msgDir := some .initiatingMessage
      msg := .ueConfigReply { ueConfig with header := some reconfigurationHeader } }

/-- `get_last_bs`; 0 is none. -/
def getLastBs (r : Rib) : UInt64 := r.getAvailableBaseStations.getLast?.getD 0

/-- The base station a request names; 0 is none. -/
def requireBs (bs : String) : Op (RrmManagement ρ) UInt64 := do
  let bsId ← ofRib fun r => r.parseBsId bs
  throwIf (bsId = 0) (.invalidArgument ("BS " ++ bs ++ " does not exist"))
  return bsId

/-- `JsonStringToMessage` or an exception. -/
def requireMessage {μ : Type} (parse : String → Option μ) (policy : String) :
    Op (RrmManagement ρ) μ :=
  match parse policy with
  | none => throw (.invalidArgument "Protobuf parser error")
  | some m => pure m

/-! ## Slices of a cell -/

/-- The configuration of one direction with the algorithm filled in, checked if it is static. -/
def completeDirection (requested : Option FlexSliceDlUlConfig) (current : FlexSliceDlUlConfig) :
    Except Abort FlexSliceDlUlConfig := do
  let config := requested.getD {}
  let config := if config.algorithm.isSome then config
    else { config with algorithm := some (current.algorithm.getD .none) }
  if config.algorithm.getD .none = .static then
    verifyStaticSliceConfiguration config current
  return config

/-- The slice of a UE if the new configuration has it, else 0. -/
def keptSlice (slices : List FlexSlice) (id : Option UInt32) : UInt32 :=
  if hasId slices (id.getD 0) then id.getD 0 else 0

/-- The associations that survive a change of the algorithm. -/
def preservedAssociations (dl ul : FlexSliceDlUlConfig) (ues : List FlexUeConfig) :
    List FlexUeConfig :=
  ues.filterMap fun ue =>
    let did := keptSlice dl.slices ue.dlSliceId
    let uid := keptSlice ul.slices ue.ulSliceId
    if did ≠ 0 ∨ uid ≠ 0 then
      some { rnti := some (EnbRibInfo.rntiOf ue), dlSliceId := some did, ulSliceId := some uid }
    else none

def applySliceConfigPolicy (parse : String → Option FlexSliceConfig) (bs policy : String) :
    Op (RrmManagement ρ) Unit := do
  let bsId ← requireBs bs
  let sliceConfig ← requireMessage parse policy
  let cell ← ofBs bsId fun bs => bs.cellConfig 0
  let current := cell.sliceConfig.getD {}
  let currentDl := current.dl.getD {}
  let currentUl := current.ul.getD {}
  let dl ← lift id (completeDirection sliceConfig.dl currentDl)
  let ul ← lift id (completeDirection sliceConfig.ul currentUl)
  let dlAlgorithm := dl.algorithm.getD .none
  let ulAlgorithm := ul.algorithm.getD .none
  let dlChange : Bool := currentDl.algorithm.getD .none ≠ dlAlgorithm
  let ulChange : Bool := currentUl.algorithm.getD .none ≠ ulAlgorithm
  if !dlChange && !ulChange && dl.slices.isEmpty && ul.slices.isEmpty && dl.scheduler.isNone &&
      ul.scheduler.isNone then
    return ()
  else
    throwIf (dlAlgorithm = .none ∧ dl.slices ≠ [] ∨ ulAlgorithm = .none ∧ ul.slices ≠ [])
      (.invalidArgument "no slice algorithm, but slices present")
    pushCellConfigReconfiguration bsId { sliceConfig := some { dl := some dl, ul := some ul } }
    let ues ← ofBs bsId fun bs => .ok bs.ueConfig.ueConfig
    if !(dlChange || ulChange) || ues.isEmpty then return ()
    else pushUeConfigReconfiguration bsId { ueConfig := preservedAssociations dl ul ues }

/-- The direction of a request to remove slices: neither an algorithm nor static parameters. -/
def clearedDirection (requested : Option FlexSliceDlUlConfig) : FlexSliceDlUlConfig :=
  let config := requested.getD {}
  { config with
    algorithm := none, slices := config.slices.map fun s => { s with static := none } }

def removeSlice (parse : String → Option FlexSliceConfig) (bs policy : String) :
    Op (RrmManagement ρ) Unit := do
  let bsId ← requireBs bs
  let sliceConfig ← requireMessage parse policy
  let dl := clearedDirection sliceConfig.dl
  let ul := clearedDirection sliceConfig.ul
  throwIf (¬ (dl.slices.all (fun s => s.id.isSome) ∧ ul.slices.all (fun s => s.id.isSome)))
    (.invalidArgument "all slices must have an ID and no params")
  pushCellConfigReconfiguration bsId { sliceConfig := some { dl := some dl, ul := some ul } }

/-! ## Slices of UEs -/

def verifyUeSliceAssocMsg (c : FlexUeConfig) : Except String Unit :=
  if c.rnti.isNone ∧ c.imsi.isNone then .error "Missing RNTI or IMSI"
  else if c.dlSliceId.isNone ∧ c.ulSliceId.isNone then .error "No DL or UL slice ID"
  else .ok ()

/-- The entry with its RNTI filled in from the IMSI. -/
def verifyRntiImsi (bs : EnbRibInfo) (c : FlexUeConfig) : Except String FlexUeConfig :=
  if c.rnti.isSome ∧ bs.getUeMacInfo (c.rnti.getD 0) = none then
    .error ("a UE with RNTI" ++ toString (c.rnti.getD 0) ++ " does not exist")
  else match c.imsi with
    | none => .ok c
    | some imsi => match bs.getRnti imsi with
      | none => .error ("IMSI " ++ toString imsi ++ " is not present")
      | some rnti =>
        if rnti = 0 then .error ("found invalid RNTI 0 for IMSI " ++ toString imsi)
        else if c.rnti.isSome ∧ c.rnti ≠ some rnti then .error "RNTI-IMSI mismatch"
        else .ok { c with rnti := some rnti }

/-- The slice an entry asks for exists in cell 0; one body for the two directions. -/
def requireSlice (bsId : UInt64) (hasSlice : EnbRibInfo → UInt32 → ℕ → Except Abort Bool)
    (name : String) (id : Option UInt32) : Op (RrmManagement ρ) Unit :=
  match id with
  | none => pure ()
  | some id => do
    let found ← ofBs bsId fun bs => hasSlice bs id 0
    throwIf (found = false)
      (.invalidArgument (name ++ " slice " ++ toString id ++ " does not exist"))

/-- The reason of a check of the entry at `i`. -/
def atIndex (i : ℕ) (reason : String) : Abort :=
  .invalidArgument (reason ++ " in UE-slice association at index " ++ toString i)

/-- One round of the first loop of `change_ue_slice_association`. -/
def checkUeEntry (bsId : UInt64) (entry : FlexUeConfig × ℕ) : Op (RrmManagement ρ) Unit := do
  lift (atIndex entry.2) (verifyUeSliceAssocMsg entry.1)
  requireSlice bsId EnbRibInfo.hasDlSlice "DL" entry.1.dlSliceId
  requireSlice bsId EnbRibInfo.hasUlSlice "UL" entry.1.ulSliceId

/-- One round of the second loop. -/
def resolveUeEntry (bsId : UInt64) (entry : FlexUeConfig × ℕ) :
    Op (RrmManagement ρ) FlexUeConfig := do
  let resolved ← ofBs bsId fun bs => .ok (verifyRntiImsi bs entry.1)
  lift (atIndex entry.2) resolved

def changeUeSliceAssociation (parse : String → Option FlexUeConfigReply) (bs policy : String) :
    Op (RrmManagement ρ) Unit := do
  let bsId ← requireBs bs
  let ueConfigReply ← requireMessage parse policy
  throwIf (ueConfigReply.ueConfig = []) (.invalidArgument "missing UE configuration")
  forM ueConfigReply.ueConfig.zipIdx (checkUeEntry bsId)
  let ues ← ueConfigReply.ueConfig.zipIdx.mapM (resolveUeEntry bsId)
  pushUeConfigReconfiguration bsId { ueConfigReply with ueConfig := ues }

/-- A slice id of a rule; a negative one stands for none. -/
def ruleSlice (id : Int32) : Option UInt32 := if id ≥ 0 then some id.toUInt32 else none

/-- Replace the rules of a slice. -/
def setRules (rules : List (ρ × UInt32)) (slice : Option UInt32) (regs : List ρ) :
    List (ρ × UInt32) :=
  match slice with
  | none => rules
  | some slice => rules.filter (fun p => p.2 ≠ slice) ++ regs.map fun r => (r, slice)

/-- `std::regex_search` in the decimal digits of the IMSI. -/
def matchesImsi (engine : RegexEngine ρ) (reg : ρ) (imsi : UInt64) : Bool :=
  engine.search reg (toString imsi)

/-- The UEs that match one of the rules, once for each. -/
def autoAssociations (engine : RegexEngine ρ) (dlSlice ulSlice : Option UInt32) (regs : List ρ)
    (ues : List FlexUeConfig) : List FlexUeConfig :=
  regs.flatMap fun r => ues.filterMap fun ue => match ue.imsi with
    | none => none
    | some imsi =>
      if matchesImsi engine r imsi then
        some { rnti := some (EnbRibInfo.rntiOf ue), dlSliceId := dlSlice, ulSliceId := ulSlice }
      else none

/-- The slice of a rule exists in cell 0. -/
def requireRuleSlice (bsId : UInt64) (hasSlice : EnbRibInfo → UInt32 → ℕ → Except Abort Bool)
    (id : Int32) : Op (RrmManagement ρ) Unit :=
  match ruleSlice id with
  | none => pure ()
  | some slice => do
    let found ← ofBs bsId fun bs => hasSlice bs slice 0
    throwIf (found = false) (.invalidArgument ("no slice " ++ toString id ++ " present"))

/-- The list of regular expressions or an exception. -/
def requireImsiReg (engine : RegexEngine ρ) (policy : String) : Op (RrmManagement ρ) (List ρ) :=
  match parseImsiReg engine policy with
  | .ok regs => pure regs
  | .error (.reason what) =>
    throw (.invalidArgument ("error while parsing regex list: " ++ what))
  | .error (.fault f) => throw (.fault f)

def autoUeSliceAssociation (engine : RegexEngine ρ) (bs policy : String)
    (dlSliceId ulSliceId : Int32) : Op (RrmManagement ρ) Unit := do
  let bsId ← requireBs bs
  requireRuleSlice bsId EnbRibInfo.hasDlSlice dlSliceId
  requireRuleSlice bsId EnbRibInfo.hasUlSlice ulSliceId
  let regs ← requireImsiReg engine policy
  modify fun w => { w with app :=
    { dlUeSlice := setRules w.app.dlUeSlice (ruleSlice dlSliceId) regs
      ulUeSlice := setRules w.app.ulUeSlice (ruleSlice ulSliceId) regs } }
  if regs.isEmpty then return ()
  else
    let ues ← ofBs bsId fun bs => .ok (autoAssociations engine (ruleSlice dlSliceId)
      (ruleSlice ulSliceId) regs bs.ueConfig.ueConfig)
    if ues.isEmpty then return ()
    else pushUeConfigReconfiguration bsId { ueConfig := ues }

/-! ## Updates of UEs -/

/-- The slice a UE is moved to: that of the last rule that matches and asks for another one. -/
def desiredSlice (engine : RegexEngine ρ) (rules : List (ρ × UInt32)) (imsi : UInt64)
    (current : Option UInt32) : Option UInt32 :=
  match current with
  | none => none
  | some id =>
    rules.foldl (fun desired p =>
      if matchesImsi engine p.1 imsi ∧ id ≠ p.2 then some p.2 else desired) none

def ueAddUpdateSliceAssoc (engine : RegexEngine ρ) (bsId : UInt64) (rnti : UInt32) :
    Op (RrmManagement ρ) Unit := do
  let w ← get
  match w.rib.getBs bsId with
  | none => return ()
  | some bs =>
    match bs.ueConfig.ueConfig.find? fun c => EnbRibInfo.rntiOf c == rnti with
    | none => return ()
    | some ue =>
      match ue.imsi with
      | none => return ()
      | some imsi =>
        pushUeConfigReconfiguration bsId
          { ueConfig := [{ rnti := some rnti
                           dlSliceId := desiredSlice engine w.app.dlUeSlice imsi ue.dlSliceId
                           ulSliceId := desiredSlice engine w.app.ulUeSlice imsi ue.ulSliceId }] }

/-- The event the application has subscribed to. -/
def subscribers (engine : RegexEngine ρ) : Effect → Op (RrmManagement ρ) Unit
  | .ueUpdate bsId rnti => ueAddUpdateSliceAssoc engine bsId rnti
  | _ => pure ()

/-! ## Configuration of a cell -/

/-- Refuse with a reason. -/
def refuseIf (c : Bool) (reason : String) : Except String Unit :=
  if c then .error reason else .ok ()

/-- The fields of a cell configuration that a restart can not set, with the reasons. -/
def unsupportedFields (c : FlexCellConfig) : List (Bool × String) :=
  let has := fun (f : CellField) => (c.scalar f).isSome
  let filled := fun (f : MbsfnField) => !(c.mbsfn f).isEmpty
  [(has .phyCellId, "setting phy_cell_id not supported"),
   (has .puschHoppingOffset, "setting pusch_hopping_offset not supported"),
   (has .hoppingMode, "setting hopping_mode not supported"),
   (has .nSb, "setting n_sb not supported"),
   (has .phichResource, "setting phich_resource not supported"),
   (has .phichDuration, "setting phich_durationnot supported"),
   (has .initNrPDCCHOFDMSym, "setting init_nr_pdcch_ofdm_sym not supported"),
   (c.siConfig.isSome, "setting si_config not supported"),
   (has .ulCyclicPrefixLength, "setting ul_cyclic_prefix_length not supported"),
   (has .dlCyclicPrefixLength, "setting dl_cyclic_prefix_length not supported"),
   (has .antennaPortsCount, "setting antenna_ports_count not supported"),
   (has .duplexMode, "setting duplex_mode not supported"),
   (has .subframeAssignment, "setting subframe_assignment not supported"),
   (has .specialSubframePatterns, "setting special_subframe_patterns not supported"),
   (filled .mbsfnSubframeConfigRfperiod, "setting mbsfn_subframe_config_rfperiod not supported"),
   (filled .mbsfnSubframeConfigRfoffset, "setting mbsfn_subframe_config_rfoffset not supported"),
   (filled .mbsfnSubframeConfigSfalloc, "setting mbsfn_subframe_config_sfalloc not supported"),
   (has .prachConfigIndex, "setting prach_config_index not supported"),
   (has .prachFreqOffset, "setting prach_freq_offset not supported"),
   (has .raResponseWindowSize, "setting ra_response_window_size not supported"),
   (has .macContentionResolutionTimer, "setting mac_contention_resolution_timer not supported"),
   (has .maxHARQMsg3Tx, "setting max_harq_msg3tx not supported"),
   (has .n1PUCCHAN, "setting n1pucch_an not supported"),
   (has .deltaPUCCHShift, "setting deltapucch_shift not supported"),
   (has .nRBCqi, "setting nrb_cqi not supported"),
   (has .srsSubframeConfig, "setting srs_subframe_config not supported"),
   (has .srsBwConfig, "setting srs_bw_config not supported"),
   (has .srsMacUpPts, "setting srs_mac_up_pts not supported"),
   (has .enable64QAM, "setting enable_64qam not supported"),
   (has .carrierIndex, "setting not supported yet, defaults to 0"),
   (c.sliceConfig.isSome, "setting slice_config not supported, use another end point")]

/-- The frequencies are multiplied as 32-bit numbers; band and bandwidth are cut to a byte. -/
def verifyCellConfigForRestart (c : FlexCellConfig) : Except String Unit := do
  let value := fun (f : CellField) => (c.scalar f).getD 0
  let missing := fun (f : CellField) => (c.scalar f).isNone
  forM (unsupportedFields c) fun e => refuseIf e.1 e.2
  refuseIf (missing .eutraBand) "eutra_band must be present"
  refuseIf (missing .dlFreq || missing .ulFreq) "both dl_freq and ul_freq must be present"
  refuseIf (missing .dlBandwidth || missing .ulBandwidth)
    "both dl_bandwidth and ul_bandwidth must be present"
  refuseIf (value .dlBandwidth != value .ulBandwidth)
    "dl_bandwidth and ul_bandwidth must be the same (6, 15, 25, 50, 100)"
  refuseIf (!c.plmnId.isEmpty) "setting PLMNs not supported"
  checkEutraBandwidth (value .dlBandwidth).toUInt8
  checkEutraBand (value .eutraBand).toUInt8 (value .ulFreq * 1000000).toUInt64
    (value .dlFreq * 1000000).toUInt64 (value .dlBandwidth).toUInt8 true

/-- Whether the request was accepted, and the reason left in `errorReason`. -/
def applyCellConfigPolicy (parse : String → Option FlexCellConfig) (bsId : UInt64)
    (policy errorReason : String) : Op (RrmManagement ρ) (Bool × String) := do
  let w ← get
  if (w.rib.getBs bsId).isNone then return (false, "BS does not exist")
  else match parse policy with
    | none => return (false, "ProtoBuf parser error")
    | some cellConfig => match verifyCellConfigForRestart cellConfig with
      | .error reason => return (false, reason)
      | .ok _ =>
        pushCellConfigReconfiguration bsId cellConfig
        return (true, errorReason)

end FlexRan.App.Rrm
