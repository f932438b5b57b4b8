import Mathlib

/-!
# Numbers in strings

The conversions of the C++ standard library from a string to a signed integer: white space and
a sign may come first, the longest run of digits is read, and whatever follows it is ignored.
A string without a digit is an invalid argument; a number outside the type is out of range.

The decimal form of a number is read back as the number, if it fits the type.

## Main definitions

* `strtol base s`: the number a string starts with.
* `stoi`, `stoll`: the conversions to `int` and to `long long`.
* `Fits bits base s`: a string is not out of range.
-/
namespace FlexRan.Lib

/-- `std::isspace` in the default locale. -/
def isSpace (c : Char) : Bool := c == ' ' || ('\t' ≤ c && c ≤ '\r')

def digitValue (c : Char) : Option ℕ :=
  if '0' ≤ c ∧ c ≤ '9' then some (c.toNat - '0'.toNat)
  else if 'a' ≤ c ∧ c ≤ 'z' then some (c.toNat - 'a'.toNat + 10)
  else if 'A' ≤ c ∧ c ≤ 'Z' then some (c.toNat - 'A'.toNat + 10)
  else none

/-- The digits of the given base a string starts with. -/
def digits (base : ℕ) : List Char → List ℕ
  | [] => []
  | c :: cs => match digitValue c with
    | none => []
    | some d => if d < base then d :: digits base cs else []

/-- The sign a string starts with, and the rest. -/
def takeSign : List Char → Bool × List Char
  | '-' :: s => (true, s)
  | '+' :: s => (false, s)
  | s => (false, s)

/-- A hexadecimal prefix is skipped if a digit follows it. -/
def dropHexPrefix : List Char → List Char
  | '0' :: x :: s => if (x = 'x' ∨ x = 'X') ∧ digits 16 s ≠ [] then s else '0' :: x :: s
  | s => s

def strtol (base : ℕ) (s : List Char) : Option ℤ :=
  let (negative, s) := takeSign (s.dropWhile isSpace)
  match digits base (if base = 16 then dropHexPrefix s else s) with
  | [] => none
  | ds =>
    let v : ℕ := ds.foldl (fun n d => base * n + d) 0
    some (if negative then -v else v)

inductive StoError
  | invalidArgument
  | outOfRange
deriving DecidableEq

/-- The conversion to the signed type of the given number of bits. -/
def sto (bits base : ℕ) (s : String) : Except StoError ℤ :=
  match strtol base s.toList with
  | none => .error .invalidArgument
  | some v =>
    if -(2 : ℤ) ^ (bits - 1) ≤ v ∧ v < (2 : ℤ) ^ (bits - 1) then .ok v else .error .outOfRange

def stoi (s : String) : Except StoError ℤ := sto 32 10 s

def stoll (s : String) (base : ℕ) : Except StoError ℤ := sto 64 base s

example : (sto 64 16 " -0x1fZ", stoi "+17", stoll "x" 10, stoi "2147483648") =
    (.ok (-31), .ok 17, .error .invalidArgument, .error .outOfRange) := by decide

/-- The number in a string is one of the signed type of the given number of bits. -/
def Fits (bits base : ℕ) (s : String) : Prop :=
  ∀ v ∈ strtol base s.toList, -(2 : ℤ) ^ (bits - 1) ≤ v ∧ v < (2 : ℤ) ^ (bits - 1)

theorem sto_ne_outOfRange_iff {bits base : ℕ} {s : String} :
    sto bits base s ≠ .error .outOfRange ↔ Fits bits base s := by
  rw [sto, Fits]
  cases strtol base s.toList with
  | none => simp
  | some v =>
    dsimp only
    split_ifs with hbounds
    · simp [hbounds]
    · simpa using hbounds

/-! ## The decimal form of a number -/

theorem digitValue_of_isDigit {c : Char} (h : c.isDigit) :
    digitValue c = some (c.toNat - '0'.toNat) ∧ c.toNat - '0'.toNat < 10 := by
  obtain ⟨hlow, hhigh⟩ := Char.isDigit_iff_toNat.mp h
  have hrange : '0' ≤ c ∧ c ≤ '9' := ⟨Char.le_def.mpr hlow, Char.le_def.mpr hhigh⟩
  have hnine : '9'.toNat = '0'.toNat + 9 := rfl
  exact ⟨if_pos hrange, by omega⟩

/-- All of a string of decimal digits is read. -/
theorem digits_of_isDigit {l : List Char} (h : ∀ c ∈ l, c.isDigit) :
    digits 10 l = l.map fun c => c.toNat - '0'.toNat := by
  induction l with
  | nil => rfl
  | cons c l ih =>
    obtain ⟨hvalue, hlt⟩ := digitValue_of_isDigit (h c (by simp))
    rw [digits, hvalue, List.map_cons, ← ih fun d hd => h d (List.mem_cons_of_mem _ hd)]
    exact if_pos hlt

theorem not_isSpace_of_isDigit {c : Char} (h : c.isDigit) : ¬ isSpace c := by
  obtain ⟨hlow, -⟩ := Char.isDigit_iff_toNat.mp h
  intro hspace
  rw [isSpace, Bool.or_eq_true, Bool.and_eq_true, decide_eq_true_eq, decide_eq_true_eq,
    beq_iff_eq] at hspace
  rcases hspace with rfl | ⟨-, hhigh⟩
  · exact absurd hlow (by decide)
  · have hlt : '\r'.toNat < '0'.toNat := by decide
    have hle : c.toNat ≤ '\r'.toNat := hhigh
    omega

theorem takeSign_of_isDigit {c : Char} (h : c.isDigit) (l : List Char) :
    takeSign (c :: l) = (false, c :: l) := by
  have hminus : c ≠ '-' := fun hc => absurd (hc ▸ h) (by decide)
  have hplus : c ≠ '+' := fun hc => absurd (hc ▸ h) (by decide)
  rw [takeSign]
  · exact fun _ hl => hminus (List.cons.inj hl).1
  · exact fun _ hl => hplus (List.cons.inj hl).1

/-- The value of the digits of a number. -/
theorem foldl_digits_toDigits (n : ℕ) :
    (digits 10 (Nat.toDigits 10 n)).foldl (fun v d => 10 * v + d) 0 = n := by
  have hdigit : ∀ c ∈ Nat.toDigits 10 n, c.isDigit := fun c hc =>
    Nat.isDigit_of_mem_toDigits (by decide) (by decide) hc
  rw [digits_of_isDigit hdigit, List.foldl_map, ← Nat.ofDigitChars_eq_foldl,
    Nat.ofDigitChars_ten_toDigits]

theorem strtol_of_isDigit {c : Char} {l : List Char} (h : ∀ d ∈ c :: l, d.isDigit) :
    strtol 10 (c :: l) = some (((digits 10 (c :: l)).foldl (fun v d => 10 * v + d) 0 : ℕ) : ℤ) := by
  have hc := h c (by simp)
  obtain ⟨d, ds, hds⟩ : ∃ d ds, digits 10 (c :: l) = d :: ds := by
    rw [digits_of_isDigit h]
    exact ⟨_, _, rfl⟩
  rw [strtol, List.dropWhile_cons_of_neg (not_isSpace_of_isDigit hc), takeSign_of_isDigit hc]
  simp [hds]

/-- A number is read from its decimal form. -/
theorem strtol_toDigits (n : ℕ) : strtol 10 (Nat.toDigits 10 n) = some (n : ℤ) := by
  have hdigit : ∀ c ∈ Nat.toDigits 10 n, c.isDigit := fun c hc =>
    Nat.isDigit_of_mem_toDigits (by decide) (by decide) hc
  have hvalue := foldl_digits_toDigits n
  cases hl : Nat.toDigits 10 n with
  | nil => exact absurd hl Nat.toDigits_ne_nil
  | cons c l =>
    rw [hl] at hdigit hvalue
    rw [strtol_of_isDigit hdigit, hvalue]

theorem strtol_neg_toDigits (n : ℕ) : strtol 10 ('-' :: Nat.toDigits 10 n) = some (-(n : ℤ)) := by
  have hdigit : ∀ c ∈ Nat.toDigits 10 n, c.isDigit := fun c hc =>
    Nat.isDigit_of_mem_toDigits (by decide) (by decide) hc
  have hvalue := foldl_digits_toDigits n
  obtain ⟨d, ds, hds⟩ : ∃ d ds, digits 10 (Nat.toDigits 10 n) = d :: ds := by
    rw [digits_of_isDigit hdigit]
    exact List.exists_cons_of_ne_nil (by simp)
  rw [hds] at hvalue
  simp [strtol, isSpace, takeSign, hds, hvalue]

theorem strtol_toString (n : ℤ) : strtol 10 (toString n).toList = some n := by
  rw [Int.toString_eq_repr, Int.repr_eq_if]
  split_ifs with hn
  · rw [Nat.toList_repr, strtol_toDigits, Int.toNat_of_nonneg hn]
  · rw [String.toList_append, Nat.toList_repr]
    have hneg := strtol_neg_toDigits (-n).toNat
    rw [Int.toNat_of_nonneg (by omega), neg_neg] at hneg
    exact hneg

theorem utf8Len_of_isDigit {l : List Char} (h : ∀ c ∈ l, c.isDigit) :
    String.utf8Len l = l.length := by
  induction l with
  | nil => rfl
  | cons c l ih =>
    have hc : c.utf8Size = 1 := by
      obtain ⟨-, hhigh⟩ := Char.isDigit_iff_toNat.mp (h c (by simp))
      exact Char.utf8Size_eq_one_iff.mpr (UInt32.le_iff_toNat_le.mpr (hhigh.trans (by decide)))
    rw [String.utf8Len_cons, hc, ih fun d hd => h d (List.mem_cons_of_mem _ hd), List.length_cons]

theorem toString_eq_iff {m n : ℤ} : toString m = toString n ↔ m = n := by
  refine ⟨fun h => ?_, fun h => h ▸ rfl⟩
  exact Option.some.inj ((strtol_toString m).symm.trans (h ▸ strtol_toString n))

theorem sto_toString {bits : ℕ} {n : ℤ} (hlow : -(2 : ℤ) ^ (bits - 1) ≤ n)
    (hhigh : n < (2 : ℤ) ^ (bits - 1)) : sto bits 10 (toString n) = .ok n := by
  rw [sto, strtol_toString]
  exact if_pos ⟨hlow, hhigh⟩

/-! ## Lengths -/

/-- The length of the decimal form of a number. -/
theorem utf8ByteSize_repr_le_iff {n k : ℕ} (hk : 0 < k) :
    n.repr.utf8ByteSize ≤ k ↔ n < 10 ^ k := by
  have hdigit : ∀ c ∈ Nat.toDigits 10 n, c.isDigit := fun c hc =>
    Nat.isDigit_of_mem_toDigits (by decide) (by decide) hc
  rw [← String.utf8Len_toList, Nat.toList_repr, utf8Len_of_isDigit hdigit,
    Nat.length_toDigits_le_iff (by decide) hk]

theorem length_le_utf8Len (l : List Char) : l.length ≤ String.utf8Len l := by
  induction l with
  | nil => exact le_refl _
  | cons c l ih =>
    have := c.utf8Size_pos
    rw [String.utf8Len_cons, List.length_cons]
    omega

theorem length_digits_le (base : ℕ) (l : List Char) : (digits base l).length ≤ l.length := by
  induction l with
  | nil => exact le_refl _
  | cons c l ih =>
    rw [digits, List.length_cons]
    split
    · exact Nat.zero_le _
    · split
      · rw [List.length_cons]
        omega
      · exact Nat.zero_le _

theorem foldl_digits_lt (base : ℕ) (l : List Char) (v : ℕ) :
    (digits base l).foldl (fun v d => base * v + d) v < base ^ (digits base l).length * (v + 1) := by
  induction l generalizing v with
  | nil => simp [digits]
  | cons c l ih =>
    rw [digits]
    split
    · simp
    · rename_i d _
      split
      · rename_i hlt
        rw [List.foldl_cons, List.length_cons, pow_succ, mul_assoc]
        refine lt_of_lt_of_le (ih _) (Nat.mul_le_mul_left _ ?_)
        calc base * v + d + 1 ≤ base * v + base := by omega
          _ = base * (v + 1) := by ring
      · simp

theorem length_takeSign_le (l : List Char) : (takeSign l).2.length ≤ l.length := by
  rw [takeSign.eq_def]
  split
  · exact Nat.le_succ _
  · exact Nat.le_succ _
  · exact le_refl _

/-- A short string has a small number. -/
theorem natAbs_lt_of_strtol {k : ℕ} {l : List Char} {v : ℤ} (h : strtol 10 l = some v)
    (hk : l.length ≤ k) : v.natAbs < 10 ^ k := by
  have hlength : (digits 10 (takeSign (l.dropWhile isSpace)).2).length ≤ k :=
    calc (digits 10 (takeSign (l.dropWhile isSpace)).2).length
        ≤ (takeSign (l.dropWhile isSpace)).2.length := length_digits_le _ _
      _ ≤ (l.dropWhile isSpace).length := length_takeSign_le _
      _ ≤ l.length := List.length_dropWhile_le _ _
      _ ≤ k := hk
  have hlt := foldl_digits_lt 10 (takeSign (l.dropWhile isSpace)).2 0
  rw [zero_add, mul_one] at hlt
  have hpow := Nat.pow_le_pow_right (by decide : 0 < 10) hlength
  rw [strtol] at h
  dsimp only at h
  rw [if_neg (by decide)] at h
  split at h
  · exact absurd h (by simp)
  · obtain rfl := Option.some.inj h
    split_ifs
    · rw [Int.natAbs_neg, Int.natAbs_natCast]
      exact lt_of_lt_of_le hlt hpow
    · rw [Int.natAbs_natCast]
      exact lt_of_lt_of_le hlt hpow

/-- A string of at most 9 characters fits an `int`. -/
theorem fits_of_short {s : String} (h : s.utf8ByteSize ≤ 9) : Fits 32 10 s := by
  intro v hv
  have hlength : s.toList.length ≤ 9 := by
    rw [← String.utf8Len_toList] at h
    exact (length_le_utf8Len _).trans h
  have hlt := natAbs_lt_of_strtol hv hlength
  omega

end FlexRan.Lib
