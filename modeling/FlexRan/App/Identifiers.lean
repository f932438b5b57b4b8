import FlexRan.App.Applications
import FlexRan.App.PhysicalCell

/-!
# The identifiers of the northbound interface

Base stations and UEs are listed by their decimal ids, and requests name them by a string.  What
kind of id a string is is decided by its length: below 4 characters it is the id of an agent,
below 6 characters the RNTI of a UE.  All ids are converted through signed types, and only the
failure to find a digit is caught.

## Main definitions

* `Addressable`: the string of each listed id resolves to what is listed.
* `AddressableByLength`: what the decimal ids resolve to; it holds in every run.
* `ParsersSound`: the parsers return nothing or something that exists.
* `parsersSound_of_run`: they do so exactly for the numbers that fit.
-/
namespace FlexRan.App

open Lib Protocol Rib Rib.Rib EnbRibInfo

/-! ## Decimal ids -/

section Decimal

variable {r : Rib} {n : ℤ}

/-- The decimal form of a number has no hexadecimal prefix. -/
theorem parseNumber_toString (hlow : -(2 : ℤ) ^ 63 ≤ n) (hhigh : n < (2 : ℤ) ^ 63) :
    parseNumber (toString n) = .ok n := by
  have hdec : ¬ (toString n).toList.take 2 = ['0', 'x'] := by
    intro htake
    have hx : 'x' ∈ (toString n).toList :=
      List.mem_of_mem_take (i := 2) (by rw [htake]; simp)
    rw [Int.toString_eq_repr, Int.repr_eq_if] at hx
    have hdigits : ∀ k : ℕ, 'x' ∉ Nat.toDigits 10 k := fun k hk =>
      absurd (Nat.isDigit_of_mem_toDigits (by decide) (by decide) hk) (by decide)
    split_ifs at hx
    · exact hdigits _ (Nat.toList_repr ▸ hx)
    · rw [String.toList_append, Nat.toList_repr] at hx
      simpa using (List.mem_append.mp hx).resolve_right (hdigits _)
  rw [parseNumber, if_neg hdec]
  exact sto_toString hlow hhigh

theorem parseBsId_toString (hne : n ≠ -1) (hlow : -(2 : ℤ) ^ 63 ≤ n) (hhigh : n < (2 : ℤ) ^ 63) :
    r.parseBsId (toString n) =
      .ok (if (r.getBs (UInt64.ofInt n)).isSome then UInt64.ofInt n else 0) := by
  have hlast : toString n ≠ "-1" := fun h => hne (toString_eq_iff.mp h)
  rw [parseBsId, if_neg hlast, parseNumber_toString hlow hhigh]
  exact (apply_ite Except.ok _ _ _).symm

theorem parseEnbAgentId_toString (hne : n ≠ -1) (hlow : -(2 : ℤ) ^ 63 ≤ n)
    (hhigh : n < (2 : ℤ) ^ 63) :
    r.parseEnbAgentId (toString n) =
      .ok (if (toString n).utf8ByteSize < agentIdLengthLimit then
          r.getBsId (((UInt64.ofInt n).toNat : ℤ).bmod (2 ^ 32))
        else if (r.getBs (UInt64.ofInt n)).isSome then UInt64.ofInt n else 0) := by
  have hlast : toString n ≠ "-1" := fun h => hne (toString_eq_iff.mp h)
  rw [parseEnbAgentId, if_neg hlast, parseNumber_toString hlow hhigh]
  dsimp only
  rw [apply_ite Except.ok, apply_ite Except.ok]

theorem uint64_ofInt_natCast (k : ℕ) : UInt64.ofInt (k : ℤ) = UInt64.ofNat k := by
  have hmod : ((k : ℤ) % 2 ^ 64).toNat = k % 2 ^ 64 := by omega
  rw [UInt64.ofInt, hmod]
  exact UInt64.ofNat_mod_size

theorem uint32_ofInt_natCast (k : ℕ) : UInt32.ofInt (k : ℤ) = UInt32.ofNat k := by
  have hmod : ((k : ℤ) % 2 ^ 32).toNat = k % 2 ^ 32 := by omega
  rw [UInt32.ofInt, hmod]
  exact UInt32.ofNat_mod_size

/-- An `int` survives the way through an unsigned `long`. -/
theorem bmod_ofInt (hlow : -2 ^ 31 ≤ n) (hhigh : n < 2 ^ 31) :
    ((UInt64.ofInt n).toNat : ℤ).bmod (2 ^ 32) = n := by
  have hnat : ((UInt64.ofInt n).toNat : ℤ) = n % 2 ^ 64 := by
    rw [UInt64.ofInt, UInt64.toNat_ofNat']
    omega
  rw [hnat, Int.bmod_def]
  split <;> omega

theorem parseRntiImsi_toString (bs : EnbRibInfo) {n : ℕ} (hn : n < 2 ^ 63) :
    bs.parseRntiImsi (toString (n : ℤ)) =
      .ok (if 10 ^ 5 ≤ n then bs.getRnti (UInt64.ofNat n)
        else if UInt32.ofNat n ∈ bs.ueMacInfo then some (UInt32.ofNat n) else none) := by
  have hlength : (toString (n : ℤ)).utf8ByteSize ≤ 5 ↔ n < 10 ^ 5 :=
    utf8ByteSize_repr_le_iff (by decide)
  rw [EnbRibInfo.parseRntiImsi, EnbRibInfo.rntiIdLengthLimit]
  by_cases hlong : 10 ^ 5 ≤ n
  · have hge : (toString (n : ℤ)).utf8ByteSize ≥ 6 := by omega
    have hread : stoll (toString (n : ℤ)) 10 = .ok (n : ℤ) :=
      sto_toString (by omega) (by omega)
    rw [if_pos hge, if_pos hlong, hread, ← uint64_ofInt_natCast]
  · have hlt : ¬ (toString (n : ℤ)).utf8ByteSize ≥ 6 := by omega
    have hread : stoi (toString (n : ℤ)) = .ok (n : ℤ) := sto_toString (by omega) (by omega)
    rw [if_neg hlt, if_neg hlong, hread, ← uint32_ofInt_natCast]

end Decimal

/-- Every entity is addressed by its decimal id. -/
structure Addressable (r : Rib) : Prop where
  bsId : ∀ b ∈ r.eNBConfigs,
    r.parseBsId (toString b) = .ok b ∧ r.parseEnbAgentId (toString b) = .ok b
  agentId : ∀ a ∈ r.agentConfigs, r.parseEnbAgentId (toString a) = .ok (r.getBsId a)
  rnti : ∀ (b : UInt64) bs, r.eNBConfigs[b]? = some bs → ∀ c ∈ bs.ueConfig.ueConfig,
    bs.parseRntiImsi (toString (rntiOf c)) = .ok (some (rntiOf c))
  imsi : ∀ (b : UInt64) bs, r.eNBConfigs[b]? = some bs → ∀ c ∈ bs.ueConfig.ueConfig, ∀ m,
    c.imsi = some m → (∀ d ∈ bs.ueConfig.ueConfig, d.imsi = some m → d = c) →
      bs.parseRntiImsi (toString m) = .ok (some (rntiOf c))

/-- A decimal id is taken for what its length says: for an agent id below 4 characters and for
an RNTI below 6.  Nothing is said of ids that no `long long` holds. -/
structure AddressableByLength (r : Rib) : Prop where
  bsId : ∀ b ∈ r.eNBConfigs, b.toNat < 2 ^ 63 →
    r.parseBsId (toString b) = .ok b ∧
      r.parseEnbAgentId (toString b) = .ok (if b.toNat < 1000 then r.getBsId b.toNat else b)
  /-- The name `-1` stands for the last base station. -/
  agentId : ∀ a ∈ r.agentConfigs, a ≠ -1 → -2 ^ 31 ≤ a → a < 2 ^ 31 →
    r.parseEnbAgentId (toString a) =
      .ok (if (toString a).utf8ByteSize < 4 then r.getBsId a
        else if UInt64.ofInt a ∈ r.eNBConfigs then UInt64.ofInt a else 0)
  rnti : ∀ (b : UInt64) bs, r.eNBConfigs[b]? = some bs → ∀ c ∈ bs.ueConfig.ueConfig,
    bs.parseRntiImsi (toString (rntiOf c)) =
      .ok (if (rntiOf c).toNat < 10 ^ 5 then some (rntiOf c)
        else bs.getRnti (rntiOf c).toUInt64)
  imsi : ∀ (b : UInt64) bs, r.eNBConfigs[b]? = some bs → ∀ c ∈ bs.ueConfig.ueConfig, ∀ m,
    c.imsi = some m → (∀ d ∈ bs.ueConfig.ueConfig, d.imsi = some m → d = c) →
      m.toNat < 2 ^ 63 →
      bs.parseRntiImsi (toString m) =
        .ok (if 10 ^ 5 ≤ m.toNat then some (rntiOf c)
          else if m.toUInt32 ∈ bs.ueMacInfo then some m.toUInt32 else none)

section AddressableByLength

variable {r : Rib} {b : UInt64} {bs : EnbRibInfo} {c : FlexUeConfig}

theorem addressable_bsId (hb : b ∈ r.eNBConfigs) (hlt : b.toNat < 2 ^ 63) :
    r.parseBsId (toString b) = .ok b ∧
      r.parseEnbAgentId (toString b) = .ok (if b.toNat < 1000 then r.getBsId b.toNat else b) := by
  have hsome : (r.getBs b).isSome := by
    rw [getBs, ← Std.ExtTreeMap.mem_iff_isSome_getElem?]
    exact hb
  have hint : UInt64.ofInt (b.toNat : ℤ) = b := by
    rw [uint64_ofInt_natCast, UInt64.ofNat_toNat]
  have hne : (b.toNat : ℤ) ≠ -1 := by omega
  have hbs := parseBsId_toString (r := r) hne (by omega) (by omega)
  have hagent := parseEnbAgentId_toString (r := r) hne (by omega) (by omega)
  have hlength : (toString (b.toNat : ℤ)).utf8ByteSize ≤ 3 ↔ b.toNat < 10 ^ 3 :=
    utf8ByteSize_repr_le_iff (by decide)
  rw [agentIdLengthLimit] at hagent
  by_cases hshort : b.toNat < 1000
  · rw [bmod_ofInt (by omega) (by omega), if_pos (by omega)] at hagent
    rw [hint, if_pos hsome] at hbs
    exact ⟨hbs, by rw [if_pos hshort]; exact hagent⟩
  · rw [if_neg (by omega), hint, if_pos hsome] at hagent
    rw [hint, if_pos hsome] at hbs
    exact ⟨hbs, by rw [if_neg hshort]; exact hagent⟩

theorem getRnti_of_unique (hc : c ∈ bs.ueConfig.ueConfig) {m : UInt64} (hm : c.imsi = some m)
    (hunique : ∀ d ∈ bs.ueConfig.ueConfig, d.imsi = some m → d = c) :
    bs.getRnti m = some (rntiOf c) := by
  rw [EnbRibInfo.getRnti]
  cases hfind : bs.ueConfig.ueConfig.find? fun c => c.imsi == some m with
  | none =>
    have := List.find?_eq_none.mp hfind c hc
    simp [hm] at this
  | some d =>
    have hd := List.find?_some hfind
    rw [hunique d (List.mem_of_find?_eq_some hfind) (by simpa using hd)]
    rfl

theorem addressable_agentId {a : ℤ} (hne : a ≠ -1) (hlow : -2 ^ 31 ≤ a) (hhigh : a < 2 ^ 31) :
    r.parseEnbAgentId (toString a) =
      .ok (if (toString a).utf8ByteSize < 4 then r.getBsId a
        else if UInt64.ofInt a ∈ r.eNBConfigs then UInt64.ofInt a else 0) := by
  rw [parseEnbAgentId_toString hne (by omega) (by omega), bmod_ofInt hlow hhigh,
    agentIdLengthLimit]
  by_cases hmem : UInt64.ofInt a ∈ r.eNBConfigs
  · have hsome : (r.getBs (UInt64.ofInt a)).isSome := Std.ExtTreeMap.mem_iff_isSome_getElem?.mp hmem
    rw [if_pos hmem, if_pos hsome]
  · have hsome : ¬ (r.getBs (UInt64.ofInt a)).isSome := fun h =>
      hmem (Std.ExtTreeMap.mem_iff_isSome_getElem?.mpr h)
    rw [if_neg hmem, if_neg hsome]

/-- Under the invariants of the RIB ids are taken for what their lengths say. -/
theorem addressableByLength_of_bsReachable (h : Log.BsReachable r) : AddressableByLength r where
  bsId _ hb hlt := addressable_bsId hb hlt
  agentId _ _ hne hlow hhigh := addressable_agentId hne hlow hhigh
  rnti b bs hbs c hc := by
    have hlt := (rntiOf c).toNat_lt
    have hparse := parseRntiImsi_toString bs (n := (rntiOf c).toNat) (by omega)
    rw [UInt32.ofNat_toNat] at hparse
    refine hparse.trans ?_
    by_cases hshort : (rntiOf c).toNat < 10 ^ 5
    · have hmem := ((ueInv_of_reachable (h b bs hbs)).keys (rntiOf c)).mp (List.mem_map_of_mem hc)
      rw [if_neg (by omega), if_pos hmem, if_pos hshort]
    · rw [if_pos (by omega), if_neg hshort, UInt64.ofNat_uInt32ToNat]
  imsi b bs hbs c hc m hm hunique hlt := by
    have hparse := parseRntiImsi_toString bs hlt
    refine hparse.trans ?_
    rw [UInt64.ofNat_toNat, getRnti_of_unique hc hm hunique]
    rfl

end AddressableByLength

section Run

open Network

variable {env : Env} {messagesToCheck : ℤ} {parse : List UInt8 → FlexranMessage}

/-- In every state of a run a decimal id is taken for what its length says. -/
theorem addressableByLength_of_run {events : List ControllerEvent} {t : Controller}
    (hrun : run (controllerStep env messagesToCheck parse) {} events = .ok t) :
    AddressableByLength t.inbound.app.rib :=
  addressableByLength_of_bsReachable (run_controllerStep_sound hrun).2

theorem addressableByLength_oneHello :
    ∃ t, run (controllerStep freeEnv 350 parseHello) {} oneHello = .ok t ∧
      1 ∈ t.inbound.app.rib.eNBConfigs ∧ AddressableByLength t.inbound.app.rib := by
  have hmem : (run (controllerStep freeEnv 350 parseHello) {} oneHello).map (fun t =>
      decide (1 ∈ t.inbound.app.rib.eNBConfigs)) = .ok true := by
    decide +kernel
  obtain ⟨t, ht, hmem⟩ := exists_ok_of_decide hmem
  exact ⟨t, ht, hmem, addressableByLength_of_run ht⟩

/-- The decimal id of base station 1 is taken for the id of an agent. -/
theorem not_addressable_oneHello :
    ∃ t, run (controllerStep freeEnv 350 parseHello) {} oneHello = .ok t ∧
      ¬ Addressable t.inbound.app.rib := by
  have hparse : (run (controllerStep freeEnv 350 parseHello) {} oneHello).map (fun t =>
      decide (1 ∈ t.inbound.app.rib.eNBConfigs ∧
        t.inbound.app.rib.parseEnbAgentId "1" = .ok 0)) = .ok true := by
    decide +kernel
  obtain ⟨t, ht, hmem, hzero⟩ := exists_ok_of_decide hparse
  refine ⟨t, ht, fun h => ?_⟩
  have hone := (h.bsId 1 hmem).2
  exact absurd (hzero.symm.trans hone) (by decide)

end Run

/-! ## What any string resolves to -/

/-- The base a number is written in: hexadecimal after the prefix `0x`. -/
def numberBase (s : String) : ℕ := if s.toList.take 2 = ['0', 'x'] then 16 else 10

/-- The parser returns 0 or the id of a base station. -/
def ResolvesBs (r : Rib) (res : Except Abort UInt64) : Prop :=
  ∃ b, res = .ok b ∧ (b = 0 ∨ b ∈ r.eNBConfigs)

/-- It returns 0 or the id of a base station whose cell 0 has the physical cell id in the
string. -/
def ResolvesCell (r : Rib) (s : String) (res : Except Abort UInt64) : Prop :=
  ∃ b, res = .ok b ∧ (b = 0 ∨ ∃ v, stoi s = .ok v ∧ HasPhysicalCell r (UInt32.ofInt v) b)

/-- It returns false or the RNTI of a UE that is connected to the base station. -/
def ResolvesUe (bs : EnbRibInfo) (res : Except Abort (Option UInt32)) : Prop :=
  ∃ found, res = .ok found ∧
    ∀ rnti ∈ found, rnti ∈ rntis bs.ueConfig.ueConfig ∧ rnti ∈ bs.ueMacInfo

/-- The four parsers return something valid. -/
structure ParsersSound (r : Rib) (s : String) : Prop where
  enbAgentId : ResolvesBs r (r.parseEnbAgentId s)
  bsId : ResolvesBs r (r.parseBsId s)
  physicalCellId : (∀ b ∈ r.eNBConfigs, HasCell r b) →
    ResolvesCell r s (Rrc.parsePhysicalCellId r s)
  rntiImsi : ∀ (b : UInt64) bs, r.eNBConfigs[b]? = some bs → ResolvesUe bs (bs.parseRntiImsi s)

section Strings

variable {r : Rib} {s : String} {b : UInt64} {bs : EnbRibInfo}

theorem parseNumber_eq (s : String) : parseNumber s = sto 64 (numberBase s) s := by
  rw [parseNumber, numberBase]
  split_ifs <;> rfl

theorem mem_of_exists (h : ∃ bs, r.eNBConfigs[b]? = some bs) : b ∈ r.eNBConfigs :=
  Std.ExtTreeMap.mem_iff_isSome_getElem?.mpr (Option.isSome_iff_exists.mpr h)

theorem resolvesBs_iff_of {res : Except Abort UInt64}
    (hok : ∀ b, res = .ok b → b ≠ 0 → ∃ bs, r.eNBConfigs[b]? = some bs) :
    ResolvesBs r res ↔ ∃ b, res = .ok b := by
  refine ⟨fun ⟨b, hb, _⟩ => ⟨b, hb⟩, fun ⟨b, hb⟩ => ⟨b, hb, ?_⟩⟩
  by_cases hzero : b = 0
  · exact .inl hzero
  · exact .inr (mem_of_exists (hok b hb hzero))

theorem fits_minusOne : Fits 64 (numberBase "-1") "-1" := by
  rw [← sto_ne_outOfRange_iff]
  decide

theorem parseBsId_ok_iff : (∃ b, r.parseBsId s = .ok b) ↔ Fits 64 (numberBase s) s := by
  rw [parseBsId, parseNumber_eq]
  by_cases hlast : s = "-1"
  · rw [if_pos hlast, hlast]
    exact iff_of_true ⟨_, rfl⟩ fits_minusOne
  · rw [if_neg hlast, ← sto_ne_outOfRange_iff]
    cases hs : sto 64 (numberBase s) s with
    | error e =>
      cases e with
      | invalidArgument => exact iff_of_true ⟨0, rfl⟩ (by simp)
      | outOfRange => exact iff_of_false (by simp) (by simp)
    | ok v =>
      refine iff_of_true ?_ (by simp)
      dsimp only
      rw [← apply_ite Except.ok]
      exact ⟨_, rfl⟩

theorem parseEnbAgentId_ok_iff :
    (∃ b, r.parseEnbAgentId s = .ok b) ↔ Fits 64 (numberBase s) s := by
  rw [parseEnbAgentId, parseNumber_eq]
  by_cases hlast : s = "-1"
  · rw [if_pos hlast, hlast]
    exact iff_of_true ⟨_, rfl⟩ fits_minusOne
  · rw [if_neg hlast, ← sto_ne_outOfRange_iff]
    cases hs : sto 64 (numberBase s) s with
    | error e =>
      cases e with
      | invalidArgument => exact iff_of_true ⟨0, rfl⟩ (by simp)
      | outOfRange => exact iff_of_false (by simp) (by simp)
    | ok v =>
      refine iff_of_true ?_ (by simp)
      dsimp only
      rw [← apply_ite Except.ok, ← apply_ite Except.ok]
      exact ⟨_, rfl⟩

/-- The search for a physical cell id ends at a base station that has it. -/
theorem resolvesCell_iff (hcells : ∀ b ∈ r.eNBConfigs, HasCell r b) :
    ResolvesCell r s (Rrc.parsePhysicalCellId r s) ↔ Fits 32 10 s := by
  rw [Rrc.parsePhysicalCellId, ← sto_ne_outOfRange_iff]
  change _ ↔ stoi s ≠ _
  cases hs : stoi s with
  | error e =>
    cases e with
    | invalidArgument => exact iff_of_true ⟨0, rfl, .inl rfl⟩ (by simp)
    | outOfRange =>
      refine iff_of_false ?_ (by simp)
      rintro ⟨b, hb, -⟩
      exact absurd hb (by simp)
  | ok v =>
    refine iff_of_true ?_ (by simp)
    dsimp only
    split_ifs with hmax
    · exact ⟨0, rfl, .inl rfl⟩
    · rcases findPhysicalCell_cases r (UInt32.ofInt v) (pairwise_availableBaseStations r)
        (fun b hb => mem_availableBaseStations.mp hb) with
        ⟨-, b, hb, hmissing, -⟩ | ⟨b, -, hfound, hcell, -⟩ | ⟨hzero, -⟩
      · exact absurd (hcells b (mem_availableBaseStations.mp hb)) hmissing
      · exact ⟨b, hfound, .inr ⟨v, hs, hcell⟩⟩
      · exact ⟨0, hzero, .inl rfl⟩

theorem resolvesUe_iff (h : UeInv bs) :
    ResolvesUe bs (bs.parseRntiImsi s) ↔ (6 ≤ s.utf8ByteSize → Fits 64 10 s) := by
  rw [EnbRibInfo.parseRntiImsi, rntiIdLengthLimit]
  by_cases hlong : 6 ≤ s.utf8ByteSize
  · rw [if_pos hlong, ← sto_ne_outOfRange_iff]
    change _ ↔ _ → stoll s 10 ≠ _
    cases hs : stoll s 10 with
    | error e =>
      cases e with
      | invalidArgument => exact iff_of_true ⟨none, rfl, by simp⟩ (by simp)
      | outOfRange =>
        refine iff_of_false ?_ fun hfits => hfits hlong rfl
        rintro ⟨b, hb, -⟩
        exact absurd hb (by simp)
    | ok v =>
      refine iff_of_true ⟨_, rfl, fun rnti hrnti => ?_⟩ (by simp)
      rw [getRnti, Option.mem_def, Option.map_eq_some_iff] at hrnti
      obtain ⟨c, hc, rfl⟩ := hrnti
      have hmem : rntiOf c ∈ rntis bs.ueConfig.ueConfig :=
        List.mem_map_of_mem (List.mem_of_find?_eq_some hc)
      exact ⟨hmem, (h.keys _).mp hmem⟩
  · rw [if_neg hlong]
    have hfits : stoi s ≠ .error .outOfRange :=
      sto_ne_outOfRange_iff.mpr (fits_of_short (by omega))
    refine iff_of_true ?_ fun hge => absurd hge hlong
    cases hs : stoi s with
    | error e =>
      cases e with
      | invalidArgument => exact ⟨none, rfl, by simp⟩
      | outOfRange => exact absurd hs hfits
    | ok v =>
      refine ⟨_, rfl, fun rnti hrnti => ?_⟩
      split_ifs at hrnti with hmem
      · obtain rfl := Option.some.inj hrnti
        exact ⟨(h.keys _).mpr hmem, hmem⟩
      · exact absurd hrnti (by simp)

end Strings

section Run

open Network

variable {env : Env} {messagesToCheck : ℤ} {parse : List UInt8 → FlexranMessage}

/-- In every state of a run a parser returns something valid exactly when the number in the
string fits the type it is converted to. -/
theorem parsersSound_of_run {events : List ControllerEvent} {t : Controller}
    (hrun : run (controllerStep env messagesToCheck parse) {} events = .ok t) (s : String) :
    let r := t.inbound.app.rib
    (ResolvesBs r (r.parseEnbAgentId s) ↔ Fits 64 (numberBase s) s) ∧
    (ResolvesBs r (r.parseBsId s) ↔ Fits 64 (numberBase s) s) ∧
    ((∀ b ∈ r.eNBConfigs, HasCell r b) →
      (ResolvesCell r s (Rrc.parsePhysicalCellId r s) ↔ Fits 32 10 s)) ∧
    ∀ (b : UInt64) bs, r.eNBConfigs[b]? = some bs →
      (ResolvesUe bs (bs.parseRntiImsi s) ↔ (6 ≤ s.utf8ByteSize → Fits 64 10 s)) := by
  obtain ⟨hinv, hreach⟩ := run_controllerStep_sound hrun
  refine ⟨?_, ?_, resolvesCell_iff, fun b bs hbs =>
    resolvesUe_iff (ueInv_of_reachable (hreach b bs hbs))⟩
  · rw [resolvesBs_iff_of fun b hb hne => hinv.exists_bs_of_parseEnbAgentId hb hne,
      parseEnbAgentId_ok_iff]
  · rw [resolvesBs_iff_of fun b hb hne => exists_bs_of_parseBsId hb hne, parseBsId_ok_iff]

theorem parsersSound_oneHello :
    ∃ t, run (controllerStep freeEnv 350 parseHello) {} oneHello = .ok t ∧
      ResolvesBs t.inbound.app.rib (t.inbound.app.rib.parseBsId "0x1") := by
  have hok : ((run (controllerStep freeEnv 350 parseHello) {} oneHello).map fun _ => ()) =
      .ok () := by
    decide +kernel
  cases ht : run (controllerStep freeEnv 350 parseHello) {} oneHello with
  | error e => simp [ht, Except.map] at hok
  | ok t =>
    refine ⟨t, rfl, (parsersSound_of_run ht "0x1").2.1.mpr ?_⟩
    rw [← sto_ne_outOfRange_iff]
    decide

/-- The first number above the range of `long long`; the exception is not caught. -/
theorem not_parsersSound_outOfRange : ¬ ParsersSound {} "9223372036854775808" := by
  intro h
  obtain ⟨b, hb, -⟩ := h.bsId
  have herror : ({} : Rib).parseBsId "9223372036854775808" = .error .outOfRange := by decide
  exact absurd (hb.symm.trans herror) (by simp)

end Run

end FlexRan.App
