import FlexRan.App.RrmManagement

/-!
# The check before the restart of a cell

A request may set the band, the frequencies and the bandwidths of a cell, which is then restarted.
The check compares them with the rows of the table of operating bands, after the frequencies, in
MHz, have been multiplied as 32-bit numbers and the band and the bandwidth have been cut to a byte.
Only the first row of a band is looked at.

## Main definitions

* `RestartValues`: the fields that may be set.
* `EutraBand.Accepts`: a row of the table allows frequencies and a bandwidth.
* `RestartValues.Valid`: a row of the band allows the values as they are.
* `RestartValues.CutAllowed`: the first row of the band allows the values that have been cut.
* `RestartValues.Exact`: the values for which the check says what the table says.
-/
namespace FlexRan.App

open Lib Protocol

deriving instance DecidableEq for EutraBand

/-! ## Rows of the table -/

/-- The numbers of resource blocks of the positions of `bwAllowed`. -/
def bandwidths : List ℕ := [6, 15, 25, 50, 75, 100]

/-- The frequencies, in Hz, are in the half-open ranges and have the offset of the band, and the
bandwidth is allowed. -/
structure EutraBand.Accepts (row : EutraBand) (ulFreq dlFreq bw : ℕ) : Prop where
  ul : row.fUlLow.toNat ≤ ulFreq ∧ ulFreq < row.fUlHigh.toNat
  dl : row.fDlLow.toNat ≤ dlFreq ∧ dlFreq < row.fDlHigh.toNat
  offset : (dlFreq : ℤ) - ulFreq = row.fOffset.toInt
  bandwidth : ∃ i : ℕ, bandwidths[i]? = some bw ∧ row.bwAllowed[i]? = some true

theorem getEutraBwIndex_eq_some_iff {bw : UInt8} {i : ℕ} :
    getEutraBwIndex bw = some i ↔ bandwidths[i]? = some bw.toNat := by
  have hinj : ∀ n : UInt8, bw = n ↔ bw.toNat = n.toNat := fun n => UInt8.toNat_inj.symm
  rw [getEutraBwIndex]
  simp only [hinj]
  rcases i with _ | _ | _ | _ | _ | _ | i
  all_goals
    simp only [bandwidths, List.getElem?_cons_zero, List.getElem?_cons_succ, List.getElem?_nil,
      UInt8.reduceToNat]
    split_ifs <;>
      simp only [Option.some.injEq, reduceCtorEq, iff_false, false_iff, true_iff] <;> omega

theorem checkEutraBandwidth_ok_iff {bw : UInt8} :
    checkEutraBandwidth bw = .ok () ↔ ∃ i : ℕ, bandwidths[i]? = some bw.toNat := by
  simp only [← getEutraBwIndex_eq_some_iff, checkEutraBandwidth]
  cases getEutraBwIndex bw <;> simp

theorem checkFreq_ok_iff {name : String} {freq low high : UInt64} {band : UInt8} :
    checkFreq name freq low high band = .ok () ↔
      low.toNat ≤ freq.toNat ∧ freq.toNat < high.toNat := by
  rw [checkFreq]
  split_ifs with h
  · refine iff_of_false (by simp) fun hin => ?_
    rw [UInt64.lt_iff_toNat_lt, ge_iff_le, UInt64.le_iff_toNat_le] at h
    omega
  · rw [not_or, UInt64.lt_iff_toNat_lt, ge_iff_le, UInt64.le_iff_toNat_le] at h
    exact iff_of_true rfl (by omega)

/-- Frequencies of 32 bits are far from a wrap around. -/
theorem sub_eq_toUInt64_iff {u d : UInt64} {offset : Int64} (hu : u.toNat < 2 ^ 32)
    (hd : d.toNat < 2 ^ 32) :
    d - u = offset.toUInt64 ↔ (d.toNat : ℤ) - u.toNat = offset.toInt := by
  have hoffset : offset.toInt = if 2 * offset.toUInt64.toNat < 2 ^ 64 then
      (offset.toUInt64.toNat : ℤ) else (offset.toUInt64.toNat : ℤ) - (2 ^ 64 : ℕ) :=
    BitVec.toInt_eq_toNat_cond offset.toBitVec
  rw [← UInt64.toNat_inj, UInt64.toNat_sub, hoffset]
  have hbound : offset.toUInt64.toNat < 2 ^ 64 := UInt64.toNat_lt _
  split_ifs <;> omega

theorem checkOffset_ok_iff {row : EutraBand} {u d : UInt64} (hu : u.toNat < 2 ^ 32)
    (hd : d.toNat < 2 ^ 32) :
    checkOffset row u d = .ok () ↔ (d.toNat : ℤ) - u.toNat = row.fOffset.toInt := by
  rw [← sub_eq_toUInt64_iff hu hd, checkOffset]
  split_ifs with h
  · refine iff_of_false (by simp) fun heq => ?_
    rcases h with ⟨-, hneg⟩ | hne
    · -- the difference the other way is the negated offset
      rw [Int64.toUInt64_neg, ← heq, neg_sub] at hneg
      exact hneg rfl
    · exact hne heq
  · rw [not_or, not_not] at h
    exact iff_of_true rfl h.2

/-- Checks in a row. -/
theorem then_eq_ok_iff {ε : Type} {x y : Except ε Unit} :
    (x >>= fun _ => y) = .ok () ↔ x = .ok () ∧ y = .ok () := by
  rw [bind_eq_ok_iff]
  exact ⟨fun ⟨(), h⟩ => h, fun h => ⟨(), h⟩⟩

theorem checkEutraBand_ok_iff {band bw : UInt8} {u d : UInt64} (hu : u.toNat < 2 ^ 32)
    (hd : d.toNat < 2 ^ 32) : checkEutraBand band u d bw true = .ok () ↔
      ∃ row, getEutraBand band = some row ∧ row.Accepts u.toNat d.toNat bw.toNat := by
  rw [checkEutraBand]
  cases hrow : getEutraBand band with
  | none => simp
  | some row =>
    dsimp only
    rw [then_eq_ok_iff, then_eq_ok_iff, then_eq_ok_iff, checkFreq_ok_iff, checkFreq_ok_iff,
      checkOffset_ok_iff hu hd, if_pos rfl]
    simp only [Option.some.injEq, exists_eq_left']
    constructor
    · rintro ⟨hul, hdl, hoffset, hbw⟩
      refine ⟨hul, hdl, hoffset, ?_⟩
      cases hindex : getEutraBwIndex bw with
      | none =>
        rw [hindex] at hbw
        exact absurd hbw (by simp)
      | some i =>
        rw [hindex] at hbw
        refine ⟨i, getEutraBwIndex_eq_some_iff.mp hindex, ?_⟩
        simp only [List.getD_eq_getElem?_getD] at hbw
        cases hget : row.bwAllowed[i]? with
        | none =>
          rw [hget] at hbw
          exact absurd hbw (by simp)
        | some allowed =>
          rw [hget] at hbw
          cases allowed
          · exact absurd hbw (by simp)
          · rfl
    · intro h
      obtain ⟨i, hi, hallowed⟩ := h.bandwidth
      refine ⟨h.ul, h.dl, h.offset, ?_⟩
      rw [getEutraBwIndex_eq_some_iff.mpr hi]
      simp only [List.getD_eq_getElem?_getD, hallowed]
      rfl

/-! ## Facts of the table -/

/-- The row of unlicensed spectrum. -/
def band46 : EutraBand :=
  ⟨46, 5150 * 1000000, 5925 * 1000000, 5150 * 1000000, 5925 * 1000000, 0,
    [false, false, false, true, false, true]⟩

def band47 : EutraBand :=
  ⟨47, 5855 * 1000000, 5925 * 1000000, 5855 * 1000000, 5925 * 1000000, 0,
    [false, false, false, true, false, true]⟩

/-- The second row with the number 11. -/
def secondBand11 : EutraBand :=
  ⟨11, 14279 * 100000, 14479 * 100000, 14759 * 100000, 14959 * 100000, 48000000,
    [false, false, true, true, false, false]⟩

/-- The row of a number that is looked at is the first one, which is the only one except for the
number 11. -/
theorem getEutraBand_of_mem :
    ∀ row ∈ eutraOperatingBands, getEutraBand row.no = some row ∨ row = secondBand11 := by
  decide +kernel

/-- All other bands end within 32 bits. -/
theorem high_le_of_mem : ∀ row ∈ eutraOperatingBands,
    (row.fUlHigh.toNat ≤ 2 ^ 32 ∧ row.fDlHigh.toNat ≤ 2 ^ 32) ∨ row = band46 ∨ row = band47 := by
  decide +kernel

theorem mem_of_getEutraBand {band : UInt8} {row : EutraBand} (h : getEutraBand band = some row) :
    row ∈ eutraOperatingBands ∧ row.no = band :=
  ⟨List.mem_of_find?_eq_some h, by simpa using List.find?_some h⟩

theorem exists_allowed_iff {bw : ℕ} {b₀ b₁ b₂ b₃ b₄ b₅ : Bool} :
    (∃ i : ℕ, bandwidths[i]? = some bw ∧ [b₀, b₁, b₂, b₃, b₄, b₅][i]? = some true) ↔
      (bw = 6 ∧ b₀) ∨ (bw = 15 ∧ b₁) ∨ (bw = 25 ∧ b₂) ∨ (bw = 50 ∧ b₃) ∨ (bw = 75 ∧ b₄) ∨
        (bw = 100 ∧ b₅) := by
  constructor
  · rintro ⟨i, hbw, hallowed⟩
    rcases i with _ | _ | _ | _ | _ | _ | i <;>
      simp_all [bandwidths]
  · rintro (⟨rfl, h⟩ | ⟨rfl, h⟩ | ⟨rfl, h⟩ | ⟨rfl, h⟩ | ⟨rfl, h⟩ | ⟨rfl, h⟩)
    · exact ⟨0, rfl, by simp [h]⟩
    · exact ⟨1, rfl, by simp [h]⟩
    · exact ⟨2, rfl, by simp [h]⟩
    · exact ⟨3, rfl, by simp [h]⟩
    · exact ⟨4, rfl, by simp [h]⟩
    · exact ⟨5, rfl, by simp [h]⟩

/-- A bandwidth of the table fits into a byte. -/
theorem EutraBand.Accepts.bandwidth_lt {row : EutraBand} {u d bw : ℕ} (h : row.Accepts u d bw) :
    bw < 256 := by
  obtain ⟨i, hi, -⟩ := h.bandwidth
  have hmem : bw ∈ bandwidths := List.mem_of_getElem? hi
  simp only [bandwidths, List.mem_cons, List.not_mem_nil, or_false] at hmem
  omega

theorem accepts_mk_iff {no : UInt8} {ulLow ulHigh dlLow dlHigh : UInt64} {offset : Int64}
    {b₀ b₁ b₂ b₃ b₄ b₅ : Bool} {u d bw : ℕ} :
    EutraBand.Accepts ⟨no, ulLow, ulHigh, dlLow, dlHigh, offset, [b₀, b₁, b₂, b₃, b₄, b₅]⟩ u d bw ↔
      (ulLow.toNat ≤ u ∧ u < ulHigh.toNat) ∧ (dlLow.toNat ≤ d ∧ d < dlHigh.toNat) ∧
        (d : ℤ) - u = offset.toInt ∧
        ((bw = 6 ∧ b₀) ∨ (bw = 15 ∧ b₁) ∨ (bw = 25 ∧ b₂) ∨ (bw = 50 ∧ b₃) ∨ (bw = 75 ∧ b₄) ∨
          (bw = 100 ∧ b₅)) := by
  rw [← exists_allowed_iff]
  exact ⟨fun h => ⟨h.ul, h.dl, h.offset, h.bandwidth⟩,
    fun ⟨hul, hdl, hoffset, hbw⟩ => ⟨hul, hdl, hoffset, hbw⟩⟩

theorem accepts_band46_iff {u d bw : ℕ} : band46.Accepts (u * 1000000) (d * 1000000) bw ↔
    5150 ≤ u ∧ u < 5925 ∧ d = u ∧ (bw = 50 ∨ bw = 100) := by
  have hoffset : (0 : Int64).toInt = 0 := rfl
  rw [band46, accepts_mk_iff, hoffset]
  simp only [UInt64.reduceMul, UInt64.reduceToNat, Bool.false_eq_true, and_false, and_true,
    false_or]
  omega

theorem accepts_band47_iff {u d bw : ℕ} : band47.Accepts (u * 1000000) (d * 1000000) bw ↔
    5855 ≤ u ∧ u < 5925 ∧ d = u ∧ (bw = 50 ∨ bw = 100) := by
  have hoffset : (0 : Int64).toInt = 0 := rfl
  rw [band47, accepts_mk_iff, hoffset]
  simp only [UInt64.reduceMul, UInt64.reduceToNat, Bool.false_eq_true, and_false, and_true,
    false_or]
  omega

theorem accepts_secondBand11_iff {u d bw : ℕ} :
    secondBand11.Accepts (u * 1000000) (d * 1000000) bw ↔
      1428 ≤ u ∧ u ≤ 1447 ∧ d = u + 48 ∧ (bw = 25 ∨ bw = 50) := by
  have hoffset : (48000000 : Int64).toInt = 48000000 := rfl
  rw [secondBand11, accepts_mk_iff, hoffset]
  simp only [UInt64.reduceMul, UInt64.reduceToNat, Bool.false_eq_true, and_false, and_true,
    false_or, or_false]
  omega

/-! ## The check of a configuration -/

/-- The fields of a configuration that a restart may set. -/
structure RestartValues where
  eutraBand : UInt32
  /-- MHz, as the other direction. -/
  ulFreq : UInt32
  dlFreq : UInt32
  /-- Resource blocks, as the other direction. -/
  ulBandwidth : UInt32
  dlBandwidth : UInt32
  power : PowerField → Option Int32
  x2HoNetControl : Option Bool

namespace RestartValues

def config (v : RestartValues) : FlexCellConfig where
  scalar
    | .eutraBand => some v.eutraBand
    | .ulFreq => some v.ulFreq
    | .dlFreq => some v.dlFreq
    | .ulBandwidth => some v.ulBandwidth
    | .dlBandwidth => some v.dlBandwidth
    | _ => none
  power := v.power
  x2HoNetControl := v.x2HoNetControl

/-- A row of the band allows the values. -/
def Valid (v : RestartValues) : Prop :=
  v.dlBandwidth = v.ulBandwidth ∧ ∃ row ∈ eutraOperatingBands,
    row.no.toNat = v.eutraBand.toNat ∧
      row.Accepts (v.ulFreq.toNat * 1000000) (v.dlFreq.toNat * 1000000) v.dlBandwidth.toNat

/-- The band and the bandwidth are bytes, the frequencies in Hz have 32 bits. -/
structure Fits (v : RestartValues) : Prop where
  band : v.eutraBand.toNat < 256
  bandwidth : v.dlBandwidth.toNat < 256
  ul : v.ulFreq.toNat * 1000000 < 2 ^ 32
  dl : v.dlFreq.toNat * 1000000 < 2 ^ 32

/-- The first row of the band allows the values that are left when they have been cut. -/
def CutAllowed (v : RestartValues) : Prop :=
  v.dlBandwidth = v.ulBandwidth ∧ ∃ row, getEutraBand v.eutraBand.toUInt8 = some row ∧
    row.Accepts (v.ulFreq.toNat * 1000000 % 2 ^ 32) (v.dlFreq.toNat * 1000000 % 2 ^ 32)
      (v.dlBandwidth.toNat % 256)

/-- A carrier of band 46 or 47, which are above 32 bits. -/
structure HighCarrier (v : RestartValues) : Prop where
  bandwidth : v.dlBandwidth = v.ulBandwidth ∧
    (v.dlBandwidth.toNat = 50 ∨ v.dlBandwidth.toNat = 100)
  freq : v.dlFreq.toNat = v.ulFreq.toNat ∧ v.ulFreq.toNat < 5925
  band : (v.eutraBand.toNat = 46 ∧ 5150 ≤ v.ulFreq.toNat) ∨
    (v.eutraBand.toNat = 47 ∧ 5855 ≤ v.ulFreq.toNat)

/-- A carrier of band 11, which the table has after the row of band 10, misnamed as 11. -/
structure SecondRow (v : RestartValues) : Prop where
  bandwidth : v.dlBandwidth = v.ulBandwidth ∧
    (v.dlBandwidth.toNat = 25 ∨ v.dlBandwidth.toNat = 50)
  freq : v.dlFreq.toNat = v.ulFreq.toNat + 48 ∧ 1428 ≤ v.ulFreq.toNat ∧ v.ulFreq.toNat ≤ 1447
  band : v.eutraBand.toNat = 11

/-- No value is cut to one that is allowed, and none is of a row that is not reached. -/
structure Exact (v : RestartValues) : Prop where
  cut : ¬ v.Fits → ¬ v.CutAllowed
  highCarrier : ¬ v.HighCarrier
  secondRow : ¬ v.SecondRow

variable {v : RestartValues}

theorem refuseIf_ok_iff {c : Bool} {reason : String} :
    Rrm.refuseIf c reason = .ok () ↔ c = false := by
  cases c <;> simp [Rrm.refuseIf]

theorem forM_refuseIf_ok {fields : List (Bool × String)} (h : ∀ e ∈ fields, e.1 = false) :
    (forM fields fun e => Rrm.refuseIf e.1 e.2) = .ok () := by
  induction fields with
  | nil => rfl
  | cons e fields ih =>
    rw [List.forM_cons, then_eq_ok_iff]
    exact ⟨refuseIf_ok_iff.mpr (h e (by simp)), ih fun e he => h e (by simp [he])⟩

theorem unsupportedFields_config : ∀ e ∈ Rrm.unsupportedFields v.config, e.1 = false := by
  simp [Rrm.unsupportedFields, config]

/-- The check is made on the values that have been cut. -/
theorem verify_ok_iff : Rrm.verifyCellConfigForRestart v.config = .ok () ↔ v.CutAllowed := by
  have hfreq : ∀ f : UInt32, (f * 1000000).toUInt64.toNat = f.toNat * 1000000 % 2 ^ 32 :=
    fun f => by simp
  have hcheck : Rrm.verifyCellConfigForRestart v.config = .ok () ↔
      (v.dlBandwidth == v.ulBandwidth) = true ∧
        checkEutraBandwidth v.dlBandwidth.toUInt8 = .ok () ∧
        checkEutraBand v.eutraBand.toUInt8 (v.ulFreq * 1000000).toUInt64
          (v.dlFreq * 1000000).toUInt64 v.dlBandwidth.toUInt8 true = .ok () := by
    rw [Rrm.verifyCellConfigForRestart]
    simp only [then_eq_ok_iff, refuseIf_ok_iff, forM_refuseIf_ok unsupportedFields_config]
    simp [config]
  rw [hcheck, beq_iff_eq, checkEutraBand_ok_iff (by rw [hfreq]; omega) (by rw [hfreq]; omega),
    hfreq, hfreq, UInt32.toNat_toUInt8, CutAllowed]
  constructor
  · rintro ⟨hbw, -, hrow⟩
    exact ⟨hbw, hrow⟩
  · rintro ⟨hbw, row, hrow, haccepts⟩
    obtain ⟨i, hi, -⟩ := haccepts.bandwidth
    exact ⟨hbw, checkEutraBandwidth_ok_iff.mpr ⟨i, by rwa [UInt32.toNat_toUInt8]⟩, row, hrow,
      haccepts⟩

/-! ## Values that are not cut -/

theorem Fits.cutAllowed_iff (hfits : v.Fits) : v.CutAllowed ↔ v.dlBandwidth = v.ulBandwidth ∧
    ∃ row, getEutraBand v.eutraBand.toUInt8 = some row ∧
      row.Accepts (v.ulFreq.toNat * 1000000) (v.dlFreq.toNat * 1000000) v.dlBandwidth.toNat := by
  rw [CutAllowed, Nat.mod_eq_of_lt hfits.ul, Nat.mod_eq_of_lt hfits.dl,
    Nat.mod_eq_of_lt hfits.bandwidth]

theorem Fits.valid_of_cutAllowed (hfits : v.Fits) (h : v.CutAllowed) : v.Valid := by
  obtain ⟨hbw, row, hrow, haccepts⟩ := hfits.cutAllowed_iff.mp h
  obtain ⟨hmem, hno⟩ := mem_of_getEutraBand hrow
  refine ⟨hbw, row, hmem, ?_, haccepts⟩
  rw [hno, UInt32.toNat_toUInt8, Nat.mod_eq_of_lt hfits.band]

theorem Fits.cutAllowed_or_secondRow (hfits : v.Fits) (h : v.Valid) :
    v.CutAllowed ∨ v.SecondRow := by
  obtain ⟨hbw, row, hmem, hno, haccepts⟩ := h
  rcases getEutraBand_of_mem row hmem with hrow | rfl
  · have hband : v.eutraBand.toUInt8 = row.no := by
      rw [← UInt8.toNat_inj, UInt32.toNat_toUInt8, hno, Nat.mod_eq_of_lt hfits.band]
    exact .inl (hfits.cutAllowed_iff.mpr ⟨hbw, row, by rw [hband]; exact hrow, haccepts⟩)
  · obtain ⟨hlow, hhigh, hoffset, hallowed⟩ := accepts_secondBand11_iff.mp haccepts
    exact .inr ⟨⟨hbw, hallowed⟩, ⟨hoffset, hlow, hhigh⟩, hno.symm⟩

/-! ## Values that are cut -/

theorem Valid.fits_or_highCarrier (h : v.Valid) : v.Fits ∨ v.HighCarrier := by
  obtain ⟨hbw, row, hmem, hno, haccepts⟩ := h
  have hband : v.eutraBand.toNat < 256 := hno ▸ UInt8.toNat_lt row.no
  rcases high_le_of_mem row hmem with ⟨hul, hdl⟩ | rfl | rfl
  · exact .inl ⟨hband, haccepts.bandwidth_lt, haccepts.ul.2.trans_le hul,
      haccepts.dl.2.trans_le hdl⟩
  · obtain ⟨hlow, hhigh, hoffset, hallowed⟩ := accepts_band46_iff.mp haccepts
    exact .inr ⟨⟨hbw, hallowed⟩, ⟨hoffset, hhigh⟩, .inl ⟨hno.symm, hlow⟩⟩
  · obtain ⟨hlow, hhigh, hoffset, hallowed⟩ := accepts_band47_iff.mp haccepts
    exact .inr ⟨⟨hbw, hallowed⟩, ⟨hoffset, hhigh⟩, .inr ⟨hno.symm, hlow⟩⟩

theorem HighCarrier.valid (h : v.HighCarrier) : v.Valid := by
  refine ⟨h.bandwidth.1, ?_⟩
  rcases h.band with ⟨hband, hlow⟩ | ⟨hband, hlow⟩
  · exact ⟨band46, by decide +kernel, hband.symm,
      accepts_band46_iff.mpr ⟨hlow, h.freq.2, h.freq.1, h.bandwidth.2⟩⟩
  · exact ⟨band47, by decide +kernel, hband.symm,
      accepts_band47_iff.mpr ⟨hlow, h.freq.2, h.freq.1, h.bandwidth.2⟩⟩

theorem getEutraBand_of_toNat_eq {n : UInt8} (h : v.eutraBand.toNat = n.toNat) :
    getEutraBand v.eutraBand.toUInt8 = getEutraBand n := by
  congr 1
  rw [← UInt8.toNat_inj, UInt32.toNat_toUInt8, h, Nat.mod_eq_of_lt (UInt8.toNat_lt n)]

/-- A number of 32 bits is below both bands. -/
theorem HighCarrier.not_cutAllowed (h : v.HighCarrier) : ¬ v.CutAllowed := by
  rintro ⟨-, row, hrow, haccepts⟩
  have hcut := haccepts.ul.1
  rcases h.band with ⟨hband, -⟩ | ⟨hband, -⟩
  · rw [getEutraBand_of_toNat_eq (n := 46) hband] at hrow
    obtain rfl : band46 = row := by
      rwa [show getEutraBand 46 = some band46 by decide +kernel, Option.some.injEq] at hrow
    rw [show band46.fUlLow.toNat = 5150 * 1000000 by decide] at hcut
    omega
  · rw [getEutraBand_of_toNat_eq (n := 47) hband] at hrow
    obtain rfl : band47 = row := by
      rwa [show getEutraBand 47 = some band47 by decide +kernel, Option.some.injEq] at hrow
    rw [show band47.fUlLow.toNat = 5855 * 1000000 by decide] at hcut
    omega

theorem SecondRow.valid (h : v.SecondRow) : v.Valid :=
  ⟨h.bandwidth.1, secondBand11, by decide +kernel, h.band.symm,
    accepts_secondBand11_iff.mpr ⟨h.freq.2.1, h.freq.2.2, h.freq.1, h.bandwidth.2⟩⟩

/-- The first row starts at 1710 MHz. -/
theorem SecondRow.not_cutAllowed (h : v.SecondRow) : ¬ v.CutAllowed := by
  rintro ⟨-, row, hrow, haccepts⟩
  rw [getEutraBand_of_toNat_eq (n := 11) h.band] at hrow
  have hlow : ∀ row, getEutraBand 11 = some row → row.fUlLow.toNat = 1710 * 1000000 := by
    decide +kernel
  have hcut := haccepts.ul.1
  have hfreq := h.freq.2
  rw [hlow row hrow, Nat.mod_eq_of_lt (by omega)] at hcut
  omega

/-- The check of a configuration says whether the table allows its values, if no value is cut to
one that is allowed and none is of a row that is not reached. -/
theorem exact_iff (v : RestartValues) :
    (Rrm.verifyCellConfigForRestart v.config = .ok () ↔ v.Valid) ↔ v.Exact := by
  rw [verify_ok_iff]
  constructor
  · intro hiff
    refine ⟨fun hn hcut => ?_, fun h => h.not_cutAllowed (hiff.mpr h.valid),
      fun h => h.not_cutAllowed (hiff.mpr h.valid)⟩
    rcases (hiff.mp hcut).fits_or_highCarrier with hfits | h
    · exact hn hfits
    · exact h.not_cutAllowed hcut
  · intro hexact
    constructor
    · intro hcut
      by_contra hvalid
      exact hexact.cut (fun hfits => hvalid (hfits.valid_of_cutAllowed hcut)) hcut
    · intro hvalid
      rcases hvalid.fits_or_highCarrier with hfits | h
      · exact (hfits.cutAllowed_or_secondRow hvalid).resolve_right hexact.secondRow
      · exact absurd h hexact.highCarrier

/-- The band number 263 is cut to 7. -/
def longBand : RestartValues where
  eutraBand := 263
  ulFreq := 2535
  dlFreq := 2655
  ulBandwidth := 50
  dlBandwidth := 50
  power := fun _ => none
  x2HoNetControl := none

/-- No row of the table has the band 263, but the check accepts it. -/
theorem not_exact_longBand :
    ¬ (Rrm.verifyCellConfigForRestart longBand.config = .ok () ↔ longBand.Valid) := by
  intro hiff
  have hok : Rrm.verifyCellConfigForRestart longBand.config = .ok () := by decide +kernel
  obtain ⟨-, row, -, hno, -⟩ := hiff.mp hok
  have hlt : row.no.toNat < 256 := UInt8.toNat_lt row.no
  rw [hno] at hlt
  exact absurd hlt (by decide)

end RestartValues

end FlexRan.App
