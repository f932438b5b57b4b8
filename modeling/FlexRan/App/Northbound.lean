import FlexRan.App.PlmnManagement
import FlexRan.App.RrcTriggering
import FlexRan.App.RrmManagement
import FlexRan.App.StatsManager

/-!
# The northbound interface

The requests of the applications check everything before they act: every point at which a
request is rejected lies before the first message is sent and before the first change of state.
A rejected request therefore has no effect.

## Main definitions

* `Rejected`: the outcome of a request that throws `std::invalid_argument`.
* `Refused`: the outcome of a request that returns `false`.
-/
namespace FlexRan.App

open Lib Lib.Operation Protocol Rib

variable {α β ρ : Type}

/-- The request has thrown `std::invalid_argument`. -/
def Rejected (result : Except Abort β) : Prop := ∃ what, result = .error (.invalidArgument what)

/-- The request has returned `false`. -/
def Refused (result : Except Abort (Bool × String)) : Prop := ∃ reason, result = .ok (false, reason)

/-- An exception other than `std::invalid_argument`, or a fault. -/
def NotInvalid (e : Abort) : Prop := ∀ what, e ≠ .invalidArgument what

/-! ## Rules -/

/-- An operation that never throws `std::invalid_argument` can not reject anything. -/
theorem atomic_of_fails {m : Op α β} (h : Fails NotInvalid m) : Atomic Rejected m := by
  apply Atomic.of_not
  rintro s ⟨what, hwhat⟩
  exact h s _ hwhat what rfl

/-- An operation that always says yes can not refuse anything. -/
theorem atomic_of_returns {m : Op α (Bool × String)} (h : Returns (fun r => r.1 = true) m) :
    Atomic Refused m := by
  apply Atomic.of_not
  rintro s ⟨reason, hreason⟩
  exact absurd (h s _ hreason) (by simp)

/-- Sending a message throws nothing. -/
theorem fails_sendMessage {E : Abort → Prop} (bsId : UInt64) (msg : FlexranMessage) :
    Fails E (sendMessage bsId msg : Op α Unit) :=
  Fails.modify _

/-- A look at a base station that exists can not throw. -/
theorem fails_ofBs_ok (bsId : UInt64) (f : EnbRibInfo → β) :
    Fails NotInvalid (ofBs bsId (fun bs => .ok (f bs)) : Op α β) := by
  refine Fails.bind Fails.get fun w => Fails.lift fun e he => ?_
  dsimp only at he
  split at he
  · obtain rfl := Except.error.inj he
    exact fun _ h => nomatch h
  · exact nomatch he

/-! ## Radio resource management -/

namespace Rrm

theorem silent_requireBs (bs : String) : Silent (requireBs bs : Op (RrmManagement ρ) UInt64) :=
  (silent_ofRib _).bind fun _ => (Silent.throwIf _ _).bind fun _ => Silent.pure _

theorem silent_requireMessage {μ : Type} (parse : String → Option μ) (policy : String) :
    Silent (requireMessage parse policy : Op (RrmManagement ρ) μ) := by
  rw [requireMessage]
  split
  · exact Silent.throw _
  · exact Silent.pure _

/-- Both directions are verified before the configuration is sent. -/
theorem atomic_applySliceConfigPolicy (parse : String → Option FlexSliceConfig)
    (bs policy : String) :
    Atomic Rejected (applySliceConfigPolicy parse bs policy : Op (RrmManagement ρ) Unit) := by
  refine Atomic.bind (silent_requireBs bs) fun bsId => ?_
  refine Atomic.bind (silent_requireMessage parse policy) fun sliceConfig => ?_
  refine Atomic.bind (silent_ofBs bsId _) fun cell => ?_
  refine Atomic.bind (Silent.lift _ _) fun dl => ?_
  refine Atomic.bind (Silent.lift _ _) fun ul => ?_
  dsimp only
  split
  · exact Atomic.of_silent (Silent.pure _)
  · refine Atomic.bind (Silent.throwIf _ _) fun _ => ?_
    -- from here on nothing rejects the request
    apply atomic_of_fails
    refine Fails.bind (fails_sendMessage _ _) fun _ => ?_
    refine Fails.bind (fails_ofBs_ok bsId _) fun ues => ?_
    split
    · exact Fails.pure _
    · exact fails_sendMessage _ _

/-- A removal is sent after its only check. -/
theorem atomic_removeSlice (parse : String → Option FlexSliceConfig) (bs policy : String) :
    Atomic Rejected (removeSlice parse bs policy : Op (RrmManagement ρ) Unit) := by
  refine Atomic.bind (silent_requireBs bs) fun bsId => ?_
  refine Atomic.bind (silent_requireMessage parse policy) fun sliceConfig => ?_
  refine Atomic.bind (Silent.throwIf _ _) fun _ => ?_
  exact atomic_of_fails (fails_sendMessage _ _)

/-- The slice of an entry is looked up. -/
theorem silent_requireSlice (bsId : UInt64)
    (hasSlice : EnbRibInfo → UInt32 → ℕ → Except Abort Bool) (name : String)
    (id : Option UInt32) :
    Silent (requireSlice bsId hasSlice name id : Op (RrmManagement ρ) Unit) := by
  rw [requireSlice.eq_def]
  split
  · exact Silent.pure _
  · exact (silent_ofBs bsId _).bind fun _ => Silent.throwIf _ _

/-- The checks of an entry read the base station. -/
theorem silent_checkUeEntry (bsId : UInt64) (entry : FlexUeConfig × ℕ) :
    Silent (checkUeEntry bsId entry : Op (RrmManagement ρ) Unit) :=
  (Silent.lift _ _).bind fun _ => (silent_requireSlice bsId _ _ _).bind fun _ =>
    silent_requireSlice bsId _ _ _

theorem silent_resolveUeEntry (bsId : UInt64) (entry : FlexUeConfig × ℕ) :
    Silent (resolveUeEntry bsId entry : Op (RrmManagement ρ) FlexUeConfig) :=
  (silent_ofBs bsId _).bind fun _ => Silent.lift _ _

/-- All entries are checked and resolved before the first one is sent. -/
theorem atomic_changeUeSliceAssociation (parse : String → Option FlexUeConfigReply)
    (bs policy : String) :
    Atomic Rejected (changeUeSliceAssociation parse bs policy : Op (RrmManagement ρ) Unit) := by
  refine Atomic.bind (silent_requireBs bs) fun bsId => ?_
  refine Atomic.bind (silent_requireMessage parse policy) fun reply => ?_
  refine Atomic.bind (Silent.throwIf _ _) fun _ => ?_
  refine Atomic.bind (Silent.forM (silent_checkUeEntry bsId) _) fun _ => ?_
  refine Atomic.bind (Silent.mapM (silent_resolveUeEntry bsId) _) fun ues => ?_
  exact atomic_of_fails (fails_sendMessage _ _)

theorem silent_requireRuleSlice (bsId : UInt64)
    (hasSlice : EnbRibInfo → UInt32 → ℕ → Except Abort Bool) (id : Int32) :
    Silent (requireRuleSlice bsId hasSlice id : Op (RrmManagement ρ) Unit) := by
  rw [requireRuleSlice]
  split
  · exact Silent.pure _
  · exact (silent_ofBs bsId _).bind fun _ => Silent.throwIf _ _

theorem silent_requireImsiReg (engine : RegexEngine ρ) (policy : String) :
    Silent (requireImsiReg engine policy) := by
  rw [requireImsiReg]
  split
  · exact Silent.pure _
  · exact Silent.throw _
  · exact Silent.throw _

/-- The rules are replaced when every expression has been compiled. -/
theorem atomic_autoUeSliceAssociation (engine : RegexEngine ρ) (bs policy : String)
    (dlSliceId ulSliceId : Int32) :
    Atomic Rejected (autoUeSliceAssociation engine bs policy dlSliceId ulSliceId) := by
  refine Atomic.bind (silent_requireBs bs) fun bsId => ?_
  refine Atomic.bind (silent_requireRuleSlice bsId _ _) fun _ => ?_
  refine Atomic.bind (silent_requireRuleSlice bsId _ _) fun _ => ?_
  refine Atomic.bind (silent_requireImsiReg engine policy) fun regs => ?_
  -- the rules are only touched once all checks have passed
  apply atomic_of_fails
  refine Fails.bind (Fails.modify _) fun _ => ?_
  split
  · exact Fails.pure _
  · refine Fails.bind (fails_ofBs_ok bsId _) fun ues => ?_
    split
    · exact Fails.pure _
    · exact fails_sendMessage _ _

/-- The band is checked before the restart is commanded. -/
theorem atomic_applyCellConfigPolicy (parse : String → Option FlexCellConfig) (bsId : UInt64)
    (policy errorReason : String) :
    Atomic Refused
      (applyCellConfigPolicy parse bsId policy errorReason : Op (RrmManagement ρ) _) := by
  refine Atomic.bind (Keeps.get fun _ => rfl) fun w => ?_
  split
  · exact Atomic.of_silent (Silent.pure _)
  · split
    · exact Atomic.of_silent (Silent.pure _)
    · split
      · exact Atomic.of_silent (Silent.pure _)
      · exact atomic_of_returns (Returns.bind fun _ => Returns.pure rfl)

end Rrm

/-! ## PLMN management -/

namespace Plmn

theorem silent_requireBs (bs : String) : Silent (requireBs bs) :=
  (silent_ofRib _).bind fun _ => (Silent.throwIf _ _).bind fun _ => Silent.pure _

theorem silent_requireMessage {μ : Type} (parse : String → Option μ) (config : String) :
    Silent (requireMessage parse config) := by
  rw [requireMessage]
  split
  · exact Silent.throw _
  · exact Silent.pure _

theorem silent_mmeIp (bsId : UInt64) (mme : FlexS1apMme) : Silent (mmeIp bsId mme) :=
  (Silent.throwIf _ _).bind fun _ => (silent_ofBs bsId _).bind fun _ => Silent.pure _

theorem silent_addedMme (bsId : UInt64) (mme : FlexS1apMme) : Silent (addedMme bsId mme) :=
  (silent_mmeIp bsId mme).bind fun _ => (Silent.throwIf _ _).bind fun _ =>
    (Silent.throwIf _ _).bind fun _ => Silent.pure _

theorem silent_removedMme (bsId : UInt64) (mme : FlexS1apMme) : Silent (removedMme bsId mme) :=
  (silent_mmeIp bsId mme).bind fun _ => (Silent.throwIf _ _).bind fun _ => Silent.pure _

/-- The changed list of MMEs is complete before it is sent. -/
theorem atomic_changeMme {change : UInt64 → FlexS1apMme → Op PlmnManagement FlexS1apMme}
    (hchange : ∀ bsId mme, Silent (change bsId mme)) (parse : String → Option FlexS1apConfig)
    (bs config : String) : Atomic Rejected (changeMme change parse bs config) := by
  refine Atomic.bind (silent_requireBs bs) fun bsId => ?_
  refine Atomic.bind (silent_requireMessage parse config) fun s1ap => ?_
  refine Atomic.bind ((Silent.throwIf _ _).bind fun _ => Silent.throwIf _ _) fun _ => ?_
  refine Atomic.bind (Silent.mapM (hchange bsId) _) fun mme => ?_
  exact atomic_of_fails (fails_sendMessage _ _)

/-- The codes of a PLMN are checked. -/
theorem silent_checkPlmn (p : FlexPlmn) : Silent (checkPlmn p) :=
  (Silent.throwIf _ _).bind fun _ => (Silent.throwIf _ _).bind fun _ =>
    (Silent.throwIf _ _).bind fun _ => (Silent.throwIf _ _).bind fun _ => Silent.throwIf _ _

/-- The PLMNs are checked before they are sent. -/
theorem atomic_changePlmn (parse : String → Option FlexCellConfig) (bs config : String) :
    Atomic Rejected (changePlmn parse bs config) := by
  refine Atomic.bind (silent_requireBs bs) fun bsId => ?_
  refine Atomic.bind (silent_requireMessage parse config) fun cc => ?_
  refine Atomic.bind (Silent.throwIf _ _) fun _ => ?_
  refine Atomic.bind (Silent.forM silent_checkPlmn _) fun _ => ?_
  exact atomic_of_fails (fails_sendMessage _ _)

end Plmn

/-! ## Statistics -/

/-- The old requests are turned off after the new ones have been checked. -/
theorem atomic_setStatsRequests (parser : Stats.Parser) (bs policy errorReason : String) :
    Atomic Refused (Stats.setStatsRequests parser bs policy errorReason) := by
  refine Atomic.bind (silent_ofRib _) fun bsId => ?_
  split
  · exact Atomic.of_silent (Silent.pure _)
  · split
    · exact Atomic.of_silent (Silent.pure _)
    · refine atomic_of_returns (Returns.bind fun _ => Returns.bind fun _ => Returns.pure rfl)

/-! ## All requests -/

/-- A request that is rejected or refused has sent no message, and the RIB and the state of the
application are as before. -/
theorem rejected_no_effect (engine : Rrm.RegexEngine ρ) :
    (∀ parse bs policy,
      Atomic Rejected (Rrm.applySliceConfigPolicy parse bs policy : Op (Rrm.RrmManagement ρ) _)) ∧
    (∀ parse bs policy,
      Atomic Rejected (Rrm.removeSlice parse bs policy : Op (Rrm.RrmManagement ρ) _)) ∧
    (∀ parse bs policy, Atomic Rejected
      (Rrm.changeUeSliceAssociation parse bs policy : Op (Rrm.RrmManagement ρ) _)) ∧
    (∀ bs policy dlSliceId ulSliceId,
      Atomic Rejected (Rrm.autoUeSliceAssociation engine bs policy dlSliceId ulSliceId)) ∧
    (∀ parse bsId policy errorReason, Atomic Refused
      (Rrm.applyCellConfigPolicy parse bsId policy errorReason : Op (Rrm.RrmManagement ρ) _)) ∧
    (∀ parse bs config, Atomic Rejected (Plmn.addMme parse bs config)) ∧
    (∀ parse bs config, Atomic Rejected (Plmn.removeMme parse bs config)) ∧
    (∀ parse bs config, Atomic Rejected (Plmn.changePlmn parse bs config)) ∧
    ∀ parser bs policy errorReason,
      Atomic Refused (Stats.setStatsRequests parser bs policy errorReason) :=
  ⟨Rrm.atomic_applySliceConfigPolicy, Rrm.atomic_removeSlice, Rrm.atomic_changeUeSliceAssociation,
    Rrm.atomic_autoUeSliceAssociation engine, Rrm.atomic_applyCellConfigPolicy,
    Plmn.atomic_changeMme Plmn.silent_addedMme, Plmn.atomic_changeMme Plmn.silent_removedMme,
    Plmn.atomic_changePlmn, atomic_setStatsRequests⟩

end FlexRan.App
