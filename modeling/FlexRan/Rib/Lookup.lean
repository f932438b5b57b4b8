import FlexRan.Lib.Strto
import FlexRan.Rib.Soundness

/-!
# Lookups of the northbound interface

Requests name base stations and UEs by strings: the last base station, an agent id, a base
station id, an RNTI or an IMSI.  A string that is not a number resolves to nothing; a number
that no `long long` holds escapes as an exception.

## Main definitions

* `Rib.parseEnbAgentId`, `Rib.parseBsId`: the base station a string names, 0 if there is none.
* `EnbRibInfo.parseRntiImsi`: the RNTI a string names at a base station.
* `EnbRibInfo.hasDlSlice`, `EnbRibInfo.hasUlSlice`: the slices of a cell.
-/
namespace FlexRan.Rib

set_option linter.dupNamespace false

open Lib Protocol

/-! ## Base stations -/

namespace Rib

def agentIdLengthLimit : ℕ := 4

/-- The number in a string, hexadecimal with the prefix `0x`. -/
def parseNumber (s : String) : Except StoError ℤ :=
  if s.toList.take 2 = ['0', 'x'] then stoll s 16 else stoll s 10

/-- The last key of the base stations. -/
def lastBs (r : Rib) : UInt64 := r.eNBConfigs.maxKey?.getD 0

/-- A string shorter than the limit is the id of an agent, an `int`. -/
def parseEnbAgentId (r : Rib) (s : String) : Except Abort UInt64 :=
  if s = "-1" then .ok r.lastBs
  else match parseNumber s with
    | .error .invalidArgument => .ok 0
    | .error .outOfRange => .error .outOfRange
    | .ok v =>
      let enbId := UInt64.ofInt v
      if s.utf8ByteSize < agentIdLengthLimit then .ok (r.getBsId ((enbId.toNat : ℤ).bmod (2 ^ 32)))
      else if (r.getBs enbId).isSome then .ok enbId else .ok 0

def parseBsId (r : Rib) (s : String) : Except Abort UInt64 :=
  if s = "-1" then .ok r.lastBs
  else match parseNumber s with
    | .error .invalidArgument => .ok 0
    | .error .outOfRange => .error .outOfRange
    | .ok v =>
      let enbId := UInt64.ofInt v
      if (r.getBs enbId).isSome then .ok enbId else .ok 0

end Rib

/-! ## UEs and cells -/

namespace EnbRibInfo

def rntiIdLengthLimit : ℕ := 6

/-- The RNTI of the first UE with the IMSI. -/
def getRnti (bs : EnbRibInfo) (imsi : UInt64) : Option UInt32 :=
  (bs.ueConfig.ueConfig.find? fun c => c.imsi == some imsi).map rntiOf

/-- A string of at least the limit is an IMSI. -/
def parseRntiImsi (bs : EnbRibInfo) (s : String) : Except Abort (Option UInt32) :=
  if s.utf8ByteSize ≥ rntiIdLengthLimit then
    match stoll s 10 with
    | .error .invalidArgument => .ok none
    | .error .outOfRange => .error .outOfRange
    | .ok v => .ok (bs.getRnti (UInt64.ofInt v))
  else
    match stoi s with
    | .error .invalidArgument => .ok none
    | .error .outOfRange => .error .outOfRange
    | .ok v =>
      let rnti := UInt32.ofInt v
      .ok (if rnti ∈ bs.ueMacInfo then some rnti else none)

/-- `cell_config(i)` of the stored eNB configuration. -/
def cellConfig (bs : EnbRibInfo) (i : ℕ) : Except Abort FlexCellConfig :=
  match bs.eNBConfig.cellConfig[i]? with
  | some c => .ok c
  | none => .error .missingCell

/-- Whether one of the slices has the id; an unset id reads as 0. -/
def hasSliceId (slices : List FlexSlice) (sliceId : UInt32) : Bool :=
  slices.any fun s => s.id.getD 0 == sliceId

/-- One body for the two directions of a cell. -/
def hasSlice (dir : FlexSliceConfig → Option FlexSliceDlUlConfig) (bs : EnbRibInfo)
    (sliceId : UInt32) (cellId : ℕ) : Except Abort Bool := do
  let cell ← bs.cellConfig cellId
  match cell.sliceConfig.bind dir with
  | none => return false
  | some s => return hasSliceId s.slices sliceId

def hasDlSlice : EnbRibInfo → UInt32 → ℕ → Except Abort Bool := hasSlice FlexSliceConfig.dl

def hasUlSlice : EnbRibInfo → UInt32 → ℕ → Except Abort Bool := hasSlice FlexSliceConfig.ul

end EnbRibInfo

/-! ## What a string resolves to -/

variable {r : Rib} {s : String} {b : UInt64}

namespace Rib

theorem exists_bs_of_lastBs (h : r.lastBs ≠ 0) : ∃ bs, r.eNBConfigs[r.lastBs]? = some bs := by
  cases hmax : r.eNBConfigs.maxKey? with
  | none => exact absurd (by rw [lastBs, hmax, Option.getD_none]) h
  | some k =>
    have hk : r.lastBs = k := by rw [lastBs, hmax, Option.getD_some]
    have hmem := (Std.ExtTreeMap.maxKey?_eq_some_iff_mem_and_forall.mp hmax).1
    rw [hk]
    exact ⟨_, Std.ExtTreeMap.getElem?_eq_some_getElem hmem⟩

/-- An id that resolves is the id of a base station. -/
theorem exists_bs_of_parseBsId (h : r.parseBsId s = .ok b) (hb : b ≠ 0) :
    ∃ bs, r.eNBConfigs[b]? = some bs := by
  rw [parseBsId] at h
  split_ifs at h with hlast
  · obtain rfl := Except.ok.inj h
    exact exists_bs_of_lastBs hb
  · split at h
    · exact absurd (Except.ok.inj h).symm hb
    · exact absurd h (by simp)
    · dsimp only at h
      split_ifs at h with hsome
      · obtain rfl := Except.ok.inj h
        exact Option.isSome_iff_exists.mp hsome
      · exact absurd (Except.ok.inj h).symm hb

end Rib

/-- The base station of an active agent exists. -/
theorem Inv.exists_bs_of_getBsId (hinv : Inv r) {agentId : ℤ} (h : r.getBsId agentId ≠ 0) :
    ∃ bs, r.eNBConfigs[r.getBsId agentId]? = some bs := by
  cases hp : r.agentConfigs[agentId]? with
  | none => exact absurd (by rw [Rib.getBsId, hp]) h
  | some p =>
    obtain ⟨bs, hbs, _⟩ := hinv.active agentId p hp
    exact ⟨bs, by rw [Rib.getBsId, hp]; exact hbs⟩

theorem Inv.exists_bs_of_parseEnbAgentId (hinv : Inv r) (h : r.parseEnbAgentId s = .ok b)
    (hb : b ≠ 0) : ∃ bs, r.eNBConfigs[b]? = some bs := by
  rw [Rib.parseEnbAgentId] at h
  by_cases hlast : s = "-1"
  · rw [if_pos hlast] at h
    obtain rfl := Except.ok.inj h
    exact Rib.exists_bs_of_lastBs hb
  · rw [if_neg hlast] at h
    split at h
    · exact absurd (Except.ok.inj h).symm hb
    · exact absurd h (by simp)
    · dsimp only at h
      split_ifs at h with hshort hsome
      · obtain rfl := Except.ok.inj h
        exact hinv.exists_bs_of_getBsId hb
      · obtain rfl := Except.ok.inj h
        exact Option.isSome_iff_exists.mp hsome
      · exact absurd (Except.ok.inj h).symm hb

/-! ## What escapes -/

namespace Rib

theorem parseBsId_error {e : Abort} (h : r.parseBsId s = .error e) : e = .outOfRange := by
  rw [parseBsId] at h
  by_cases hlast : s = "-1"
  · exact absurd (h.symm.trans (if_pos hlast)) (by simp)
  · rw [if_neg hlast] at h
    split at h
    · exact absurd h (by simp)
    · exact (Except.error.inj h).symm
    · dsimp only at h
      split_ifs at h

theorem parseEnbAgentId_error {e : Abort} (h : r.parseEnbAgentId s = .error e) :
    e = .outOfRange := by
  rw [parseEnbAgentId] at h
  by_cases hlast : s = "-1"
  · exact absurd (h.symm.trans (if_pos hlast)) (by simp)
  · rw [if_neg hlast] at h
    split at h
    · exact absurd h (by simp)
    · exact (Except.error.inj h).symm
    · dsimp only at h
      split_ifs at h

end Rib

end FlexRan.Rib
