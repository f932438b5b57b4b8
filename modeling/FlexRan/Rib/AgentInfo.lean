import FlexRan.Fault
import FlexRan.Protocol.Message

/-!
# Agents and their capabilities

An agent announces which layers of a base station it runs.  The capabilities are kept as a
list of enumerators; every operation on them goes through a 32-bit mask.  The mask of a list
has bit `c.number` set exactly for the `c` in the list, so that the mask operations are the
operations of the finite set of capabilities.

## Main definitions

* `AgentCapabilities`: a non-empty list of capabilities in the normal form of `fromU32`.
* `AgentCapabilities.orthogonal`, `mergeIn`, `isComplete`.
* `AgentInfo`: what the controller knows of a connected agent.
-/
namespace FlexRan

namespace Protocol.BsCapability

/-- The enumerator's value in the protocol. -/
def number : BsCapability → ℕ
  | lophy => 0 | hiphy => 1 | lomac => 2 | himac => 3 | rlc => 4 | pdcp => 5 | sdap => 6
  | rrc => 7 | s1ap => 8

/-- The enumerator with a value. Values outside the enumeration have none. -/
def ofNumber? : ℕ → Option BsCapability
  | 0 => some lophy | 1 => some hiphy | 2 => some lomac | 3 => some himac | 4 => some rlc
  | 5 => some pdcp | 6 => some sdap | 7 => some rrc | 8 => some s1ap | _ => none

theorem number_lt (c : BsCapability) : c.number < 9 := by cases c <;> decide

theorem ofNumber?_eq_some_iff {n : ℕ} {c : BsCapability} : ofNumber? n = some c ↔ c.number = n := by
  constructor
  · intro h
    match n, h with
    | 0, h | 1, h | 2, h | 3, h | 4, h | 5, h | 6, h | 7, h | 8, h => cases h; rfl
  · rintro rfl
    cases c <;> rfl

theorem number_injective : Function.Injective number := by
  intro c d h
  simpa using (ofNumber?_eq_some_iff.mpr h).symm.trans (ofNumber?_eq_some_iff.mpr rfl)

/-- The eight capabilities a base station can not do without. -/
def Required (c : BsCapability) : Prop := c ≠ s1ap

instance : DecidablePred Required := fun c => inferInstanceAs (Decidable (c ≠ s1ap))

theorem required_iff_number_lt {c : BsCapability} : c.Required ↔ c.number < 8 := by
  cases c <;> decide

end Protocol.BsCapability

namespace Rib

open Protocol

/-! ## Masks -/

/-- `to_u32`: set the bit of each capability. -/
def toU32 (caps : List BsCapability) : BitVec 32 :=
  caps.foldl (fun u c => u ||| (1#32 <<< c.number)) 0

/-- The loop of `from_u32`: test the lowest bit and shift it out. A 32-bit value is shifted
empty after at most 32 rounds. -/
def fromU32Loop : ℕ → ℕ → BitVec 32 → List BsCapability
  | 0, _, _ => []
  | fuel + 1, n, u =>
    if u = 0 then [] else
      (if u &&& 1 = 1 then (BsCapability.ofNumber? (n - 1)).toList else []) ++
        fromU32Loop fuel (n + 1) (u >>> 1)

def fromU32 (u : BitVec 32) : List BsCapability := fromU32Loop 32 1 u

private theorem getLsbD_one_shiftLeft {n i : ℕ} (hn : n < 32) :
    (1#32 <<< n).getLsbD i = decide (i = n) := by
  rw [← BitVec.twoPow_eq, BitVec.getLsbD_twoPow]
  by_cases h : i = n
  · subst h; simp [hn]
  · simp [h, Ne.symm h]

private theorem getLsbD_foldl_or (caps : List BsCapability) (u : BitVec 32) (i : ℕ) :
    (caps.foldl (fun u c => u ||| (1#32 <<< c.number)) u).getLsbD i = true ↔
      u.getLsbD i = true ∨ ∃ c ∈ caps, c.number = i := by
  induction caps generalizing u with
  | nil => simp
  | cons c caps ih =>
    have hc : c.number < 32 := by have := c.number_lt; omega
    rw [List.foldl_cons, ih, BitVec.getLsbD_or, getLsbD_one_shiftLeft hc]
    simp only [Bool.or_eq_true, decide_eq_true_eq, List.mem_cons, exists_eq_or_imp]
    rw [or_assoc, eq_comm (a := i)]

/-- Bit `i` of the mask is set exactly when the list has the capability of that value. -/
theorem getLsbD_toU32 {caps : List BsCapability} {i : ℕ} :
    (toU32 caps).getLsbD i = true ↔ ∃ c ∈ caps, c.number = i := by
  simp [toU32, getLsbD_foldl_or]

theorem getLsbD_toU32_number {caps : List BsCapability} {c : BsCapability} :
    (toU32 caps).getLsbD c.number = true ↔ c ∈ caps := by
  rw [getLsbD_toU32]
  constructor
  · rintro ⟨d, hd, h⟩
    exact BsCapability.number_injective h ▸ hd
  · intro h
    exact ⟨c, h, rfl⟩

private theorem and_one_eq_one_iff (u : BitVec 32) : u &&& 1 = 1 ↔ u.getLsbD 0 = true := by
  constructor
  · intro h
    have h0 := congrArg (fun v => v.getLsbD 0) h
    simpa using h0
  · intro h
    apply BitVec.eq_of_getLsbD_eq
    intro i hi
    rcases Nat.eq_zero_or_pos i with rfl | hpos
    · simp [h]
    · have h1 : (1#32).getLsbD i = false := by simp [BitVec.getLsbD_one]; omega
      simp [BitVec.getLsbD_and, h1]

private theorem mem_fromU32Loop (fuel n : ℕ) (u : BitVec 32) (c : BsCapability) :
    c ∈ fromU32Loop fuel (n + 1) u ↔
      n ≤ c.number ∧ c.number - n < fuel ∧ u.getLsbD (c.number - n) = true := by
  induction fuel generalizing n u with
  | zero => simp [fromU32Loop]
  | succ fuel ih =>
    rw [fromU32Loop]
    split
    · rename_i h
      simp [h]
    · rw [List.mem_append, ih]
      have hhead : c ∈ (if u &&& 1 = 1 then (BsCapability.ofNumber? (n + 1 - 1)).toList else []) ↔
          u.getLsbD 0 = true ∧ c.number = n := by
        by_cases h : u &&& 1 = 1
        · rw [if_pos h, Option.mem_toList, BsCapability.ofNumber?_eq_some_iff]
          exact ⟨fun hc => ⟨(and_one_eq_one_iff u).mp h, hc⟩, And.right⟩
        · rw [if_neg h]
          exact ⟨fun hc => absurd hc List.not_mem_nil,
            fun hc => absurd ((and_one_eq_one_iff u).mpr hc.1) h⟩
      rw [hhead, BitVec.getLsbD_ushiftRight]
      constructor
      · rintro (⟨hu, hn⟩ | ⟨h1, h2, h3⟩)
        · exact ⟨by omega, by omega, by simpa [hn] using hu⟩
        · refine ⟨by omega, by omega, ?_⟩
          rwa [show c.number - n = 1 + (c.number - (n + 1)) by omega]
      · rintro ⟨h1, h2, h3⟩
        by_cases h : c.number = n
        · exact .inl ⟨by simpa [h] using h3, h⟩
        · refine .inr ⟨by omega, by omega, ?_⟩
          rwa [show 1 + (c.number - (n + 1)) = c.number - n by omega]

theorem mem_fromU32 {u : BitVec 32} {c : BsCapability} :
    c ∈ fromU32 u ↔ u.getLsbD c.number = true := by
  have hc : c.number < 32 := by have := c.number_lt; omega
  rw [fromU32, mem_fromU32Loop 32 0]
  simp [hc]

/-- A mask made from a list survives the round trip through the normal form. -/
theorem toU32_fromU32_toU32 (caps : List BsCapability) :
    toU32 (fromU32 (toU32 caps)) = toU32 caps := by
  apply BitVec.eq_of_getLsbD_eq
  intro i _
  rw [Bool.eq_iff_iff, getLsbD_toU32, getLsbD_toU32]
  simp only [mem_fromU32, getLsbD_toU32_number]

theorem toU32_append (a b : List BsCapability) : toU32 (a ++ b) = toU32 a ||| toU32 b := by
  apply BitVec.eq_of_getLsbD_eq
  intro i _
  rw [Bool.eq_iff_iff, BitVec.getLsbD_or, Bool.or_eq_true]
  simp only [getLsbD_toU32, List.mem_append, or_and_right, exists_or]

theorem fromU32_toU32_ne_nil {caps : List BsCapability} (h : caps ≠ []) :
    fromU32 (toU32 caps) ≠ [] := by
  obtain ⟨c, hc⟩ := List.exists_mem_of_ne_nil caps h
  exact List.ne_nil_of_mem (mem_fromU32.mpr (getLsbD_toU32_number.mpr hc))

/-! ## Capabilities of an agent -/

/-- At least one capability, in the order and without the duplicates `fromU32` produces. -/
structure AgentCapabilities where
  caps : List BsCapability
  normal : fromU32 (toU32 caps) = caps
  nonempty : caps ≠ []
deriving DecidableEq

namespace AgentCapabilities

/-- The normal form of a non-empty list. -/
def ofList (caps : List BsCapability) (h : caps ≠ []) : AgentCapabilities where
  caps := fromU32 (toU32 caps)
  normal := by rw [toU32_fromU32_toU32]
  nonempty := fromU32_toU32_ne_nil h

/-- The constructor from the repeated field of a hello message. -/
def ofProto (protoCaps : List BsCapability) : Except Fault AgentCapabilities :=
  if h : protoCaps = [] then .error (.runtimeError "illegal: zero capabilities")
  else .ok (ofList protoCaps h)

instance : Membership BsCapability AgentCapabilities where
  mem a c := c ∈ a.caps

instance {c : BsCapability} {a : AgentCapabilities} : Decidable (c ∈ a) :=
  inferInstanceAs (Decidable (c ∈ a.caps))

theorem mem_def {a : AgentCapabilities} {c : BsCapability} : c ∈ a ↔ c ∈ a.caps := Iff.rfl

@[simp] theorem mem_ofList {caps : List BsCapability} {h : caps ≠ []} {c : BsCapability} :
    c ∈ ofList caps h ↔ c ∈ caps := by
  rw [mem_def, ofList, mem_fromU32, getLsbD_toU32_number]

/-- Two lists with the same members have the same normal form. -/
@[ext] theorem ext {a b : AgentCapabilities} (h : ∀ c, c ∈ a ↔ c ∈ b) : a = b := by
  have hmask : toU32 a.caps = toU32 b.caps := by
    apply BitVec.eq_of_getLsbD_eq
    intro i _
    rw [Bool.eq_iff_iff, getLsbD_toU32, getLsbD_toU32]
    simp only [← mem_def, h]
  have hcaps : a.caps = b.caps := by rw [← a.normal, ← b.normal, hmask]
  cases a; cases b
  simpa using hcaps

def size (a : AgentCapabilities) : ℕ := a.caps.length

theorem size_pos (a : AgentCapabilities) : 0 < a.size := List.length_pos_iff.mpr a.nonempty

def orthogonal (a b : AgentCapabilities) : Bool := toU32 a.caps &&& toU32 b.caps == 0

def mergeIn (a b : AgentCapabilities) : AgentCapabilities where
  caps := fromU32 (toU32 a.caps ||| toU32 b.caps)
  normal := by rw [← toU32_append, toU32_fromU32_toU32]
  nonempty := by
    rw [← toU32_append]
    exact fromU32_toU32_ne_nil (by simp [a.nonempty])

/-- All eight required bits are set, S1AP or not. -/
def isComplete (a : AgentCapabilities) : Bool := toU32 a.caps &&& 0xFF == 0xFF

theorem orthogonal_iff {a b : AgentCapabilities} : a.orthogonal b = true ↔ ∀ c ∈ a, c ∉ b := by
  rw [orthogonal, beq_iff_eq]
  constructor
  · intro h c ha hb
    have hbit := congrArg (fun v => v.getLsbD c.number) h
    simp [BitVec.getLsbD_and, getLsbD_toU32_number.mpr ha, getLsbD_toU32_number.mpr hb] at hbit
  · intro h
    apply BitVec.eq_of_getLsbD_eq
    intro i _
    by_contra hne
    simp only [BitVec.getLsbD_and, BitVec.ofNat_eq_ofNat, BitVec.getLsbD_zero,
      Bool.not_eq_false, Bool.and_eq_true, getLsbD_toU32] at hne
    obtain ⟨⟨c, hca, rfl⟩, d, hdb, hd⟩ := hne
    exact h c hca (BsCapability.number_injective hd ▸ hdb)

theorem orthogonal_comm {a b : AgentCapabilities} : a.orthogonal b = b.orthogonal a := by
  simp only [orthogonal, BitVec.and_comm]

@[simp] theorem mem_mergeIn {a b : AgentCapabilities} {c : BsCapability} :
    c ∈ a.mergeIn b ↔ c ∈ a ∨ c ∈ b := by
  rw [mem_def, mergeIn, mem_fromU32, BitVec.getLsbD_or, Bool.or_eq_true, getLsbD_toU32_number,
    getLsbD_toU32_number]
  rfl

theorem isComplete_iff {a : AgentCapabilities} : a.isComplete = true ↔ ∀ c, c.Required → c ∈ a := by
  rw [isComplete, beq_iff_eq]
  have hbits : ∀ i, (0xFF#32).getLsbD i = decide (i < 8) := by
    intro i
    by_cases hi : i < 32
    · interval_cases i <;> rfl
    · rw [BitVec.getLsbD_of_ge _ _ (by omega)]
      simp; omega
  constructor
  · intro h c hc
    have hbit := congrArg (fun v => v.getLsbD c.number) h
    have hlt := BsCapability.required_iff_number_lt.mp hc
    simp only [BitVec.getLsbD_and, BitVec.ofNat_eq_ofNat, hbits, hlt, decide_true,
      Bool.and_true] at hbit
    exact getLsbD_toU32_number.mp hbit
  · intro h
    apply BitVec.eq_of_getLsbD_eq
    intro i _
    simp only [BitVec.getLsbD_and, BitVec.ofNat_eq_ofNat, hbits]
    by_cases hi : i < 8
    · have hbit : (toU32 a.caps).getLsbD i = true := by
        have : ∀ i < 8, ∃ c : BsCapability, c.Required ∧ c.number = i := by
          intro i hi
          interval_cases i
          exacts [⟨.lophy, by decide⟩, ⟨.hiphy, by decide⟩, ⟨.lomac, by decide⟩,
            ⟨.himac, by decide⟩, ⟨.rlc, by decide⟩, ⟨.pdcp, by decide⟩, ⟨.sdap, by decide⟩,
            ⟨.rrc, by decide⟩]
        obtain ⟨c, hc, rfl⟩ := this i hi
        exact getLsbD_toU32_number.mpr (h c hc)
      simp [hbit]
    · simp [hi]

end AgentCapabilities

/-! ## Agents -/

/-- `agent_info`: constant once built. The agent id is the id of the agent's session. -/
@[ext] structure AgentInfo where
  agentId : ℤ
  bsId : UInt64
  capabilities : AgentCapabilities
  splits : List BsSplit
  portIp : String
deriving DecidableEq

end Rib
end FlexRan
