import FlexRan.Fault

/-!
# E-UTRA bands

The operating bands of E-UTRA with their frequency ranges, the offset between the two directions
and the bandwidths allowed in them, and the checks of a cell configuration against them.

## Main definitions

* `eutraOperatingBands`: the table.
* `checkEutraBandwidth`, `checkEutraBand`: the checks; an error is the text for the caller.
-/
namespace FlexRan.App

structure EutraBand where
  no : UInt8
  fUlLow : UInt64
  fUlHigh : UInt64
  fDlLow : UInt64
  fDlHigh : UInt64
  fOffset : Int64
  /-- 1.4, 3, 5, 10, 15 and 20 MHz. -/
  bwAllowed : List Bool

def eutraOperatingBands : List EutraBand :=
  [⟨1, 1920 * 1000000, 1980 * 1000000, 2110 * 1000000, 2170 * 1000000,
    190000000, [false, false, true, true, true, true]⟩,
   ⟨2, 1850 * 1000000, 1910 * 1000000, 1930 * 1000000, 1990 * 1000000,
    80000000, [true, true, true, true, true, true]⟩,
   ⟨3, 1710 * 1000000, 1785 * 1000000, 1805 * 1000000, 1880 * 1000000,
    95000000, [true, true, true, true, true, true]⟩,
   ⟨4, 1710 * 1000000, 1755 * 1000000, 2110 * 1000000, 2155 * 1000000,
    400000000, [true, true, true, true, true, true]⟩,
   ⟨5, 824 * 1000000, 849 * 1000000, 869 * 1000000, 894 * 1000000,
    45000000, [true, true, true, true, false, false]⟩,
   ⟨6, 830 * 1000000, 840 * 1000000, 875 * 1000000, 885 * 1000000,
    45000000, [false, false, true, true, false, false]⟩,
   ⟨7, 2500 * 1000000, 2570 * 1000000, 2620 * 1000000, 2690 * 1000000,
    120000000, [false, false, true, true, true, true]⟩,
   ⟨8, 880 * 1000000, 915 * 1000000, 925 * 1000000, 960 * 1000000,
    45000000, [true, true, true, true, false, false]⟩,
   ⟨9, 17499 * 100000, 17849 * 100000, 18449 * 100000, 18799 * 100000,
    95000000, [false, false, true, true, true, true]⟩,
   ⟨11, 1710 * 1000000, 1770 * 1000000, 2110 * 1000000, 2170 * 1000000,
    400000000, [false, false, true, true, true, true]⟩,
   ⟨11, 14279 * 100000, 14479 * 100000, 14759 * 100000, 14959 * 100000,
    48000000, [false, false, true, true, false, false]⟩,
   ⟨12, 699 * 1000000, 716 * 1000000, 729 * 1000000, 746 * 1000000,
    30000000, [true, true, true, true, false, false]⟩,
   ⟨13, 777 * 1000000, 787 * 1000000, 746 * 1000000, 756 * 1000000,
    -31000000, [false, false, true, true, false, false]⟩,
   ⟨14, 788 * 1000000, 798 * 1000000, 758 * 1000000, 768 * 1000000,
    -30000000, [false, false, true, true, false, false]⟩,
   ⟨17, 704 * 1000000, 716 * 1000000, 734 * 1000000, 746 * 1000000,
    30000000, [false, false, true, true, false, false]⟩,
   ⟨18, 815 * 1000000, 830 * 1000000, 860 * 1000000, 875 * 1000000,
    45000000, [false, false, true, true, true, false]⟩,
   ⟨19, 830 * 1000000, 845 * 1000000, 875 * 1000000, 890 * 1000000,
    45000000, [false, false, true, true, true, false]⟩,
   ⟨20, 832 * 1000000, 862 * 1000000, 791 * 1000000, 821 * 1000000,
    -41000000, [false, false, true, true, true, true]⟩,
   ⟨21, 14479 * 100000, 14629 * 100000, 14959 * 100000, 15109 * 100000,
    48000000, [false, false, true, true, true, false]⟩,
   ⟨22, 3410 * 1000000, 3490 * 1000000, 3510 * 1000000, 3590 * 1000000,
    100000000, [false, false, true, true, true, true]⟩,
   ⟨23, 2000 * 1000000, 2020 * 1000000, 2180 * 1000000, 2200 * 1000000,
    180000000, [true, true, true, true, true, true]⟩,
   ⟨24, 16265 * 100000, 16605 * 100000, 1525 * 1000000, 1559 * 1000000,
    -101500000, [false, false, true, true, false, false]⟩,
   ⟨25, 1850 * 1000000, 1915 * 1000000, 1930 * 1000000, 1995 * 1000000,
    80000000, [true, true, true, true, true, true]⟩,
   ⟨26, 814 * 1000000, 849 * 1000000, 859 * 1000000, 894 * 1000000,
    45000000, [true, true, true, true, true, false]⟩,
   ⟨27, 807 * 1000000, 824 * 1000000, 852 * 1000000, 869 * 1000000,
    45000000, [true, true, true, true, false, false]⟩,
   ⟨28, 703 * 1000000, 748 * 1000000, 758 * 1000000, 803 * 1000000,
    55000000, [false, true, true, true, true, true]⟩,
   ⟨30, 2305 * 1000000, 2315 * 1000000, 2350 * 1000000, 2360 * 1000000,
    45000000, [false, false, true, true, false, false]⟩,
   ⟨31, 4525 * 100000, 4575 * 100000, 4625 * 100000, 4675 * 100000,
    10000000, [true, true, true, false, false, false]⟩,
   ⟨33, 1900 * 1000000, 1920 * 1000000, 1900 * 1000000, 1920 * 1000000,
    0, [false, false, true, true, true, true]⟩,
   ⟨34, 2010 * 1000000, 2025 * 1000000, 2010 * 1000000, 2025 * 1000000,
    0, [false, false, true, true, true, false]⟩,
   ⟨35, 1850 * 1000000, 1910 * 1000000, 1850 * 1000000, 1910 * 1000000,
    0, [true, true, true, true, true, true]⟩,
   ⟨36, 1930 * 1000000, 1990 * 1000000, 1930 * 1000000, 1990 * 1000000,
    0, [true, true, true, true, true, true]⟩,
   ⟨37, 1910 * 1000000, 1930 * 1000000, 1910 * 1000000, 1930 * 1000000,
    0, [false, false, true, true, true, true]⟩,
   ⟨38, 2570 * 1000000, 2620 * 1000000, 2570 * 1000000, 2620 * 1000000,
    0, [false, false, true, true, true, true]⟩,
   ⟨39, 1880 * 1000000, 1920 * 1000000, 1880 * 1000000, 1920 * 1000000,
    0, [false, false, true, true, true, true]⟩,
   ⟨40, 2300 * 1000000, 2400 * 1000000, 2300 * 1000000, 2400 * 1000000,
    0, [false, false, true, true, true, true]⟩,
   ⟨41, 2496 * 1000000, 2690 * 1000000, 2496 * 1000000, 2690 * 1000000,
    0, [false, false, true, true, true, true]⟩,
   ⟨42, 3400 * 1000000, 3600 * 1000000, 3400 * 1000000, 3600 * 1000000,
    0, [false, false, true, true, true, true]⟩,
   ⟨43, 3600 * 1000000, 3800 * 1000000, 3600 * 1000000, 3800 * 1000000,
    0, [false, false, true, true, true, true]⟩,
   ⟨44, 703 * 1000000, 803 * 1000000, 703 * 1000000, 803 * 1000000,
    0, [false, true, true, true, true, true]⟩,
   ⟨45, 1447 * 1000000, 1467 * 1000000, 1447 * 1000000, 1467 * 1000000,
    0, [false, false, true, true, true, true]⟩,
   ⟨46, 5150 * 1000000, 5925 * 1000000, 5150 * 1000000, 5925 * 1000000,
    0, [false, false, false, true, false, true]⟩,
   ⟨47, 5855 * 1000000, 5925 * 1000000, 5855 * 1000000, 5925 * 1000000,
    0, [false, false, false, true, false, true]⟩,
   ⟨48, 3550 * 1000000, 3700 * 1000000, 3550 * 1000000, 3700 * 1000000,
    0, [false, false, true, true, true, true]⟩,
   ⟨65, 1920 * 1000000, 2010 * 1000000, 2110 * 1000000, 2200 * 1000000,
    190000000, [true, true, true, true, true, true]⟩,
   ⟨66, 1710 * 1000000, 1780 * 1000000, 2110 * 1000000, 2200 * 1000000,
    400000000, [true, true, true, true, true, true]⟩,
   ⟨68, 698 * 1000000, 728 * 1000000, 753 * 1000000, 783 * 1000000,
    55000000, [false, false, true, true, true, false]⟩,
   ⟨70, 1695 * 1000000, 1710 * 1000000, 1995 * 1000000, 2020 * 1000000,
    300000000, [false, false, true, true, true, true]⟩]

/-- The position of a bandwidth, in resource blocks, in `bwAllowed`. -/
def getEutraBwIndex (bwRb : UInt8) : Option ℕ :=
  if bwRb = 6 then some 0
  else if bwRb = 15 then some 1
  else if bwRb = 25 then some 2
  else if bwRb = 50 then some 3
  else if bwRb = 75 then some 4
  else if bwRb = 100 then some 5
  else none

def getEutraBand (band : UInt8) : Option EutraBand :=
  eutraOperatingBands.find? fun b => b.no == band

def illegalBandwidth (bwRb : UInt8) : String :=
  "illegal E-UTRA bandwidth " ++ toString bwRb ++ ", must be in (6, 15, 25, 50, 75, 100)"

def checkEutraBandwidth (bwRb : UInt8) : Except String Unit :=
  match getEutraBwIndex bwRb with
  | none => .error (illegalBandwidth bwRb)
  | some _ => .ok ()

/-- A frequency is checked against a half-open range. -/
def checkFreq (name : String) (freq low high : UInt64) (band : UInt8) : Except String Unit :=
  if freq < low ∨ freq ≥ high then
    .error ("illegal " ++ name ++ " " ++ toString freq ++ ", must be within [" ++ toString low ++
      "," ++ toString high ++ ") for E-UTRA band " ++ toString band)
  else .ok ()

/-- Differences and the offset are compared as unsigned numbers. -/
def checkOffset (b : EutraBand) (ulFreq dlFreq : UInt64) : Except String Unit :=
  if (b.fOffset < 0 ∧ ulFreq - dlFreq ≠ (-b.fOffset).toUInt64) ∨
      dlFreq - ulFreq ≠ b.fOffset.toUInt64 then
    .error ("offset of ul_freq and dl_freq must " ++ toString b.fOffset ++ " for E-UTRA band " ++
      toString b.no)
  else .ok ()

def checkEutraBand (band : UInt8) (ulFreq dlFreq : UInt64) (bwRb : UInt8) (checkBw : Bool) :
    Except String Unit := do
  match getEutraBand band with
  | none => .error ("illegal E-UTRA band " ++ toString band)
  | some b =>
    checkFreq "ul_freq" ulFreq b.fUlLow b.fUlHigh band
    checkFreq "dl_freq" dlFreq b.fDlLow b.fDlHigh band
    checkOffset b ulFreq dlFreq
    if checkBw then
      match getEutraBwIndex bwRb with
      | none => .error (illegalBandwidth bwRb)
      | some i =>
        if b.bwAllowed.getD i false then .ok ()
        else .error ("E-UTRA bandwidth of " ++ toString bwRb ++ " not allowed for E-UTRA band " ++
          toString band)
    else .ok ()

end FlexRan.App
