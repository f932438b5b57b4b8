import Mathlib

/-!
# JSON texts

The grammar of JSON relates a value to its texts.  Numbers and strings are kept as they are
written.  The rules for texts that are put together from smaller ones follow the grammar: an array
is a pair of brackets around texts of its elements, separated by commas.

That a text is *not* one of any value is shown with a scanner that only looks at quotes, brackets
and commas: it gets through every text of the grammar, and it stops at a comma without a value
before it.

## Main definitions

* `Json`, `Derives`: values, and the grammar.
* `Json.Text j s`, `MembersText ms s`: the texts of a value and of the members of an object.
* `joinComma`: items with commas between them.
* `plain`: a text of characters that stand for themselves.
* `Scan.step`: the scanner.
-/
namespace FlexRan.Lib

/-- A value. The text of a string is what stands between its quotes. -/
inductive Json
  | null
  | bool (b : Bool)
  | number (text : String)
  | string (text : String)
  | array (elements : List Json)
  | object (members : List (String × Json))

/-! ## Lexical grammar -/

def quote : Char := '\x22'

def backslash : Char := '\x5c'

def isWs (c : Char) : Bool := c = ' ' ∨ c = '\t' ∨ c = '\n' ∨ c = '\r'

/-- Any amount of whitespace. -/
def Ws (l : List Char) : Prop := ∀ c ∈ l, isWs c = true

/-- At least one digit. -/
def Digits (l : List Char) : Prop := l ≠ [] ∧ ∀ c ∈ l, c.isDigit = true

/-- Digits without a leading zero. -/
def IntegerPart (l : List Char) : Prop := Digits l ∧ (l.head? = some '0' → l = ['0'])

def Fraction (l : List Char) : Prop := l = [] ∨ ∃ ds, l = '.' :: ds ∧ Digits ds

def Exponent (l : List Char) : Prop :=
  l = [] ∨ ∃ e sign ds, l = e :: (sign ++ ds) ∧ (e = 'e' ∨ e = 'E') ∧
    (sign = [] ∨ sign = ['+'] ∨ sign = ['-']) ∧ Digits ds

def NumberText (l : List Char) : Prop :=
  ∃ sign int frac exp, l = sign ++ (int ++ (frac ++ exp)) ∧ (sign = [] ∨ sign = ['-']) ∧
    IntegerPart int ∧ Fraction frac ∧ Exponent exp

def isHexDigit (c : Char) : Bool := c.isDigit ∨ ('a' ≤ c ∧ c ≤ 'f') ∨ ('A' ≤ c ∧ c ≤ 'F')

/-- A character that stands for itself in a string. -/
def isPlain (c : Char) : Bool := c ≠ quote ∧ c ≠ backslash ∧ ' ' ≤ c

/-- All characters stand for themselves. -/
def plain (s : String) : Bool := s.toList.all isPlain

/-- What may stand between the quotes of a string. -/
inductive StringText : List Char → Prop
  | nil : StringText []
  | plain {c l} (hc : isPlain c = true) (h : StringText l) : StringText (c :: l)
  | escape {c l} (hc : c ∈ [quote, backslash, '/', 'b', 'f', 'n', 'r', 't']) (h : StringText l) :
      StringText (backslash :: c :: l)
  | unicode {a b c d l} (hhex : ∀ x ∈ [a, b, c, d], isHexDigit x = true) (h : StringText l) :
      StringText (backslash :: 'u' :: a :: b :: c :: d :: l)

/-! ## Grammar -/

/-- The phrases of the grammar. An element is a value with whitespace around it. -/
inductive Phrase
  | value (j : Json)
  | element (j : Json)
  | elements (js : List Json)
  | member (m : String × Json)
  | members (ms : List (String × Json))

inductive Derives : Phrase → List Char → Prop
  | null : Derives (.value .null) ['n', 'u', 'l', 'l']
  | true : Derives (.value (.bool true)) ['t', 'r', 'u', 'e']
  | false : Derives (.value (.bool false)) ['f', 'a', 'l', 's', 'e']
  | number {s : String} (h : NumberText s.toList) : Derives (.value (.number s)) s.toList
  | string {s : String} (h : StringText s.toList) :
      Derives (.value (.string s)) (quote :: (s.toList ++ [quote]))
  | emptyArray {w} (hw : Ws w) : Derives (.value (.array [])) ('[' :: (w ++ [']']))
  | array {js t} (h : Derives (.elements js) t) :
      Derives (.value (.array js)) ('[' :: (t ++ [']']))
  | emptyObject {w} (hw : Ws w) : Derives (.value (.object [])) ('\x7b' :: (w ++ ['\x7d']))
  | object {ms t} (h : Derives (.members ms) t) :
      Derives (.value (.object ms)) ('\x7b' :: (t ++ ['\x7d']))
  | element {j w t w'} (hw : Ws w) (h : Derives (.value j) t) (hw' : Ws w') :
      Derives (.element j) (w ++ (t ++ w'))
  | lastElement {j t} (h : Derives (.element j) t) : Derives (.elements [j]) t
  | moreElements {j js t u} (h : Derives (.element j) t) (hs : Derives (.elements js) u) :
      Derives (.elements (j :: js)) (t ++ ',' :: u)
  | member {k : String} {j w w' t} (hw : Ws w) (hk : StringText k.toList) (hw' : Ws w')
      (h : Derives (.element j) t) :
      Derives (.member (k, j)) (w ++ (quote :: (k.toList ++ quote :: (w' ++ ':' :: t))))
  | lastMember {m t} (h : Derives (.member m) t) : Derives (.members [m]) t
  | moreMembers {m ms t u} (h : Derives (.member m) t) (hs : Derives (.members ms) u) :
      Derives (.members (m :: ms)) (t ++ ',' :: u)

/-- The text is one of the value. -/
def Json.Text (j : Json) (s : String) : Prop := Derives (.element j) s.toList

/-- The text is one of the members of an object, without the brackets. -/
def MembersText (ms : List (String × Json)) (s : String) : Prop := Derives (.members ms) s.toList

/-- The items, with a comma before all but the first. -/
def joinComma : List String → String
  | [] => ""
  | s :: ss => ss.foldl (fun str t => str ++ "," ++ t) s

/-- `s[s.size() - 1] = c`. -/
def overwriteLast (s : String) (c : Char) : String := String.ofList (s.toList.dropLast ++ [c])

/-! ## Putting texts together -/

section Building

variable {j : Json} {js : List Json} {m : String × Json} {ms : List (String × Json)}
  {k s t : String} {ss : List String}

theorem ws_nil : Ws [] := fun _ hc => absurd hc List.not_mem_nil

theorem joinComma_cons_cons (s t : String) (ss : List String) :
    joinComma (s :: t :: ss) = s ++ "," ++ joinComma (t :: ss) := by
  have hfold : ∀ (ss : List String) (a b : String),
      ss.foldl (fun str t => str ++ "," ++ t) (a ++ b) =
        a ++ ss.foldl (fun str t => str ++ "," ++ t) b := by
    intro ss
    induction ss with
    | nil => exact fun a b => rfl
    | cons u ss ih =>
      intro a b
      rw [List.foldl_cons, List.foldl_cons, ← ih]
      simp only [String.append_assoc]
  rw [joinComma, List.foldl_cons, hfold, joinComma]

theorem text_of_value (h : Derives (.value j) s.toList) : j.Text s := by
  have helement := Derives.element ws_nil h ws_nil
  rwa [List.nil_append, List.append_nil] at helement

/-- Two texts with the same characters, however they have been put together. -/
theorem Json.Text.congr (h : j.Text s) (hst : s.toList = t.toList) : j.Text t := by
  rwa [Json.Text, ← hst]

theorem text_number (h : NumberText s.toList) : (Json.number s).Text s :=
  text_of_value (.number h)

theorem stringText_of_plain (h : plain s = true) : StringText s.toList := by
  have hl : ∀ {l : List Char}, l.all isPlain = true → StringText l := by
    intro l
    induction l with
    | nil => exact fun _ => .nil
    | cons c l ih =>
      rw [List.all_cons, Bool.and_eq_true]
      exact fun h => .plain h.1 (ih h.2)
  exact hl h

theorem text_string (h : plain s = true) : (Json.string s).Text ("\"" ++ s ++ "\"") := by
  refine text_of_value ?_
  have htext := Derives.string (stringText_of_plain h)
  rwa [show quote :: (s.toList ++ [quote]) = ("\"" ++ s ++ "\"").toList by
    simp [quote]] at htext

theorem text_array (h : List.Forall₂ Json.Text js ss) :
    (Json.array js).Text ("[" ++ joinComma ss ++ "]") := by
  refine text_of_value ?_
  cases h with
  | nil => exact Derives.emptyArray ws_nil
  | @cons j s js ss hj hjs =>
    have helements : Derives (.elements (j :: js)) (joinComma (s :: ss)).toList := by
      induction hjs generalizing j s with
      | nil => exact .lastElement hj
      | @cons j' s' js ss hj' _ ih =>
        have hmore := Derives.moreElements hj (ih hj')
        rwa [joinComma_cons_cons, String.toList_append, String.toList_append, List.append_assoc]
    simpa using Derives.array helements

theorem exists_text_of_mem (h : List.Forall₂ Json.Text js ss) (hs : s ∈ ss) :
    ∃ j : Json, j.Text s := by
  induction h with
  | nil => exact absurd hs List.not_mem_nil
  | @cons j t _ _ hj _ ih =>
    rcases List.mem_cons.mp hs with rfl | hmem
    · exact ⟨j, hj⟩
    · exact ih hmem

theorem text_array_map {α : Type} {l : List α} {f : α → Json} {g : α → String}
    (h : ∀ a ∈ l, (f a).Text (g a)) :
    (Json.array (l.map f)).Text ("[" ++ joinComma (l.map g) ++ "]") := by
  refine text_array ?_
  rw [List.forall₂_map_left_iff, List.forall₂_map_right_iff]
  exact List.forall₂_same.mpr h

/-- Whitespace before a text. -/
theorem text_space (h : j.Text s) : j.Text (" " ++ s) := by
  have hmore : ∀ {p : Phrase} {t : List Char}, Derives p t → p = .element j →
      Derives (.element j) (' ' :: t) := by
    intro p t ht hp
    cases ht with
    | @element i w v w' hw hv hw' =>
      obtain rfl := Phrase.element.inj hp
      exact .element (w := ' ' :: w) (List.forall_mem_cons.mpr ⟨rfl, hw⟩) hv hw'
    | _ => exact absurd hp (by simp)
  simpa [Json.Text] using hmore h rfl

theorem membersText_single (hk : plain k = true) (h : j.Text s) :
    MembersText [(k, j)] ("\"" ++ k ++ "\":" ++ s) := by
  have hmember := Derives.lastMember (Derives.member ws_nil (stringText_of_plain hk) ws_nil h)
  simpa [MembersText, quote] using hmember

theorem membersText_cons (hk : plain k = true) (h : j.Text s) (hs : MembersText ms t) :
    MembersText ((k, j) :: ms) ("\"" ++ k ++ "\":" ++ s ++ "," ++ t) := by
  have hmembers := Derives.moreMembers
    (Derives.member ws_nil (stringText_of_plain hk) ws_nil h) hs
  simpa [MembersText, quote] using hmembers

theorem text_object (h : MembersText ms s) : (Json.object ms).Text ("\x7b" ++ s ++ "\x7d") := by
  refine text_of_value ?_
  simpa using Derives.object h

/-- A loop that puts a comma after each item, and a bracket over the last comma. -/
theorem overwriteLast_foldl {ss : List String} (hss : ss ≠ []) :
    overwriteLast (ss.foldl (fun str t => str ++ (t ++ ",")) "[") ']' =
      "[" ++ joinComma ss ++ "]" := by
  have hfold : ∀ (ss : List String) (str : String), ss ≠ [] →
      ss.foldl (fun str t => str ++ (t ++ ",")) str = str ++ joinComma ss ++ "," := by
    intro ss
    induction ss with
    | nil => exact fun _ h => absurd rfl h
    | cons t ss ih =>
      intro str _
      cases ss with
      | nil => exact (String.append_assoc).symm
      | cons u ss =>
        rw [List.foldl_cons, ih _ (by simp), joinComma_cons_cons]
        simp only [String.append_assoc]
  rw [hfold ss _ hss, overwriteLast, String.toList_append, show ",".toList = [','] from rfl,
    List.dropLast_concat, ← String.toList_inj]
  simp

end Building

/-! ## Numbers and strings that are printed -/

theorem isDigit_of_mem_toString {n : ℕ} {c : Char} (hc : c ∈ (toString n).toList) :
    c.isDigit = true := by
  rw [show toString n = n.repr from rfl, Nat.toList_repr] at hc
  exact Nat.isDigit_of_mem_toDigits (by norm_num) (by norm_num) hc

/-- Only zero starts with the digit 0. -/
theorem head?_toDigits_ne_zero {n : ℕ} (hn : n ≠ 0) : (Nat.toDigits 10 n).head? ≠ some '0' := by
  induction n using Nat.strong_induction_on with
  | _ n ih =>
    by_cases hlt : n < 10
    · rw [Nat.toDigits_of_lt_base hlt]
      interval_cases n <;> simp_all [Nat.digitChar]
    · rw [Nat.toDigits_of_base_le (by norm_num) (by omega),
        List.head?_append_of_ne_nil _ Nat.toDigits_ne_nil]
      exact ih (n / 10) (by omega) (by omega)

theorem integerPart_toString (n : ℕ) : IntegerPart (toString n).toList := by
  refine ⟨⟨?_, fun c hc => isDigit_of_mem_toString hc⟩, ?_⟩
  · rw [show toString n = n.repr from rfl, Nat.toList_repr]
    exact Nat.toDigits_ne_nil
  · rw [show toString n = n.repr from rfl, Nat.toList_repr]
    intro hhead
    by_cases hn : n = 0
    · rw [hn, Nat.toDigits_zero]
    · exact absurd hhead (head?_toDigits_ne_zero hn)

theorem numberText_toString (n : ℕ) : NumberText (toString n).toList :=
  ⟨[], _, [], [], by simp, .inl rfl, integerPart_toString n, .inl rfl, .inl rfl⟩

theorem numberText_toString_int (n : ℤ) : NumberText (toString n).toList := by
  cases n with
  | ofNat n => exact numberText_toString n
  | negSucc n =>
    refine ⟨['-'], _, [], [], ?_, .inr rfl, integerPart_toString (n + 1), .inl rfl, .inl rfl⟩
    simp [toString, Int.repr]

/-- A digit stands for itself in a string. -/
theorem isPlain_of_isDigit {c : Char} (hc : c.isDigit = true) : isPlain c = true := by
  have hle : '0' ≤ c := by
    simp only [Char.isDigit, ge_iff_le, Bool.and_eq_true, decide_eq_true_eq] at hc
    exact hc.1
  have hspace : ' ' ≤ c := le_trans (by decide) hle
  have hquote : c ≠ quote := by
    rintro rfl
    exact absurd hc (by decide)
  have hbackslash : c ≠ backslash := by
    rintro rfl
    exact absurd hc (by decide)
  simp [isPlain, hquote, hbackslash, hspace]

@[simp] theorem plain_append (s t : String) : plain (s ++ t) = (plain s && plain t) := by
  rw [plain, String.toList_append, List.all_append, plain, plain]

theorem plain_repr_nat (n : ℕ) : plain n.repr = true :=
  List.all_eq_true.mpr fun _ hc => isPlain_of_isDigit (isDigit_of_mem_toString hc)

@[simp] theorem plain_repr_int (n : ℤ) : plain n.repr = true := by
  cases n with
  | ofNat n => exact plain_repr_nat n
  | negSucc n =>
    have htext : (Int.negSucc n).repr = "-" ++ (n + 1).repr := rfl
    rw [htext, plain_append, plain_repr_nat]
    decide +kernel

/-! ## A scanner -/

/-- What the scanner has seen: nothing of a value yet, a comma before the next value, a value, an
open string, or a backslash in a string. -/
inductive Scan | start | separated | done | quoted | escaped
deriving DecidableEq

namespace Scan

def step : Scan → Char → Option Scan
  | quoted, c => some (if c = quote then done else if c = backslash then escaped else quoted)
  | escaped, _ => some quoted
  | s, c =>
    if isWs c then some s
    else if c = quote then some quoted
    else if c = ',' then (if s = done then some separated else none)
    else if c = ']' ∨ c = '\x7d' then (if s = separated then none else some done)
    else if c = '[' ∨ c = '\x7b' ∨ c = ':' then some start
    else some done

/-- A value can start here. -/
def Expects (s : Scan) : Prop := s = start ∨ s = separated

/-- The scanner is not in a string. -/
def Outside (s : Scan) : Prop := s = start ∨ s = separated ∨ s = done

variable {s s' : Scan} {l l' : List Char} {c : Char}

theorem foldlM_append_of_eq_some (h : l.foldlM step s = some s') :
    (l ++ l').foldlM step s = l'.foldlM step s' := by
  rw [List.foldlM_append, h]
  rfl

theorem foldlM_ws (hs : Outside s) (h : Ws l) :
    l.foldlM step s = some s := by
  induction l with
  | nil => rfl
  | cons c l ih =>
    have hc : step s c = some s := by
      rcases hs with rfl | rfl | rfl <;> simp [step, h c (by simp)]
    rw [List.foldlM_cons, hc]
    exact ih fun d hd => h d (List.mem_cons_of_mem _ hd)

/-- A character that is none of those the scanner looks at. -/
def isNeutral (c : Char) : Bool :=
  ¬ isWs c ∧ c ∉ [quote, ',', ']', '\x7d', '[', '\x7b', ':']

theorem isNeutral_of_isDigit (hc : c.isDigit = true) : isNeutral c = true := by
  have hne : ∀ d : Char, d.isDigit = false → c ≠ d := by
    rintro d hd rfl
    exact absurd hc (by simp [hd])
  have hws : isWs c = false := by
    simp [isWs, hne ' ' rfl, hne '\t' rfl, hne '\n' rfl, hne '\r' rfl]
  simp [isNeutral, hws, quote, hne '\x22' rfl, hne ',' rfl, hne ']' rfl, hne '\x7d' rfl,
    hne '[' rfl, hne '\x7b' rfl, hne ':' rfl]

theorem step_of_isNeutral (hs : Outside s) (hc : isNeutral c = true) :
    step s c = some done := by
  simp only [isNeutral, List.mem_cons, List.not_mem_nil, or_false, not_or, decide_eq_true_eq] at hc
  obtain ⟨hws, hquote, hcomma, hbracket, hbrace, hopen, hopen', hcolon⟩ := hc
  rcases hs with rfl | rfl | rfl <;>
    simp [step, hws, hquote, hcomma, hbracket, hbrace, hopen, hopen', hcolon]

theorem foldlM_neutral (hs : Outside s)
    (h : ∀ c ∈ l, isNeutral c = true) (hl : l ≠ []) : l.foldlM step s = some done := by
  induction l generalizing s with
  | nil => exact absurd rfl hl
  | cons c l ih =>
    rw [List.foldlM_cons, step_of_isNeutral hs (h c (by simp))]
    cases l with
    | nil => rfl
    | cons d l => exact ih (.inr (.inr rfl)) (fun e he => h e (List.mem_cons_of_mem _ he)) (by simp)

theorem foldlM_stringText (h : StringText l) : l.foldlM step quoted = some quoted := by
  induction h with
  | nil => rfl
  | @plain c l hc _ ih =>
    simp only [isPlain, decide_eq_true_eq] at hc
    rw [List.foldlM_cons]
    simpa [step, hc.1, hc.2.1] using ih
  | @escape c l _ _ ih =>
    exact (foldlM_append_of_eq_some (l := [backslash, c]) rfl).trans ih
  | @unicode a b c d l hhex _ ih =>
    have hstep : ∀ x ∈ [a, b, c, d], step quoted x = some quoted := by
      intro x hx
      have hquote : x ≠ quote := by
        rintro rfl
        exact absurd (hhex _ hx) (by decide)
      have hbackslash : x ≠ backslash := by
        rintro rfl
        exact absurd (hhex _ hx) (by decide)
      simp [step, hquote, hbackslash]
    have htaken : [backslash, 'u', a, b, c, d].foldlM step quoted = some quoted := by
      have htwo : [backslash, 'u'].foldlM step quoted = some quoted := rfl
      rw [show [backslash, 'u', a, b, c, d] = [backslash, 'u'] ++ [a, b, c, d] from rfl,
        foldlM_append_of_eq_some htwo]
      simp [hstep]
    exact (foldlM_append_of_eq_some htaken).trans ih

theorem isNeutral_of_mem_number (h : NumberText l) : ∀ c ∈ l, isNeutral c = true := by
  have hdigits : ∀ {ds : List Char}, Digits ds → ∀ c ∈ ds, isNeutral c = true :=
    fun hds c hc => isNeutral_of_isDigit (hds.2 c hc)
  have hsigns : ∀ {sign : List Char}, sign = [] ∨ sign = ['+'] ∨ sign = ['-'] →
      ∀ c ∈ sign, isNeutral c = true := by
    rintro _ (rfl | rfl | rfl) <;> simp [isNeutral, isWs, quote]
  obtain ⟨sign, int, frac, exp, rfl, hsign, hint, hfrac, hexp⟩ := h
  have hfrac' : ∀ c ∈ frac, isNeutral c = true := by
    rcases hfrac with rfl | ⟨ds, rfl, hds⟩
    · simp
    · exact List.forall_mem_cons.mpr ⟨by decide, hdigits hds⟩
  have hexp' : ∀ c ∈ exp, isNeutral c = true := by
    rcases hexp with rfl | ⟨e, sign, ds, rfl, he, hsign, hds⟩
    · simp
    · refine List.forall_mem_cons.mpr ⟨by rcases he with rfl | rfl <;> decide, ?_⟩
      exact List.forall_mem_append.mpr ⟨hsigns hsign, hdigits hds⟩
  simp only [List.forall_mem_append]
  exact ⟨hsigns (hsign.imp_right .inr), hdigits hint.1, hfrac', hexp'⟩

theorem ne_nil_of_number (h : NumberText l) : l ≠ [] := by
  obtain ⟨sign, int, frac, exp, rfl, -, hint, -, -⟩ := h
  simp [hint.1.1]

/-- A string in quotes. -/
theorem foldlM_quoted (hs : Expects s) {k rest : List Char} (hk : StringText k) :
    (quote :: (k ++ quote :: rest)).foldlM step s = rest.foldlM step done := by
  have hopen : [quote].foldlM step s = some quoted := by
    rcases hs with rfl | rfl <;> rfl
  have hclose : [quote].foldlM step quoted = some done := rfl
  rw [← List.singleton_append, foldlM_append_of_eq_some hopen,
    foldlM_append_of_eq_some (foldlM_stringText hk), ← List.singleton_append,
    foldlM_append_of_eq_some hclose]

/-- The scanner gets through every text of the grammar. -/
theorem foldlM_derives {p : Phrase} (h : Derives p l) (hs : Expects s) :
    l.foldlM step s = some done := by
  have hwide : ∀ {s}, Expects s → Outside s := fun h => h.imp_right .inl
  -- an opening bracket before `t`, and a closing one behind it
  have hbrackets : ∀ {o e : Char} {t s' s}, (∀ s, Expects s → step s o = some start) →
      step s' e = some done → t.foldlM step start = some s' → Expects s →
      (o :: (t ++ [e])).foldlM step s = some done := by
    intro o e t s' s ho he ht hs
    rw [List.foldlM_cons, ho s hs]
    exact (foldlM_append_of_eq_some ht).trans (by simp [he])
  have hcomma : ∀ {t u s}, t.foldlM step s = some done → u.foldlM step separated = some done →
      (t ++ ',' :: u).foldlM step s = some done := by
    intro t u s ht hu
    rw [foldlM_append_of_eq_some ht, List.foldlM_cons]
    exact hu
  have harray : ∀ s, Expects s → step s '[' = some start := by
    rintro s (rfl | rfl) <;> rfl
  have hobject : ∀ s, Expects s → step s '\x7b' = some start := by
    rintro s (rfl | rfl) <;> rfl
  induction h generalizing s with
  | null => exact foldlM_neutral (hwide hs) (by simp [isNeutral, isWs, quote]) (by simp)
  | true => exact foldlM_neutral (hwide hs) (by simp [isNeutral, isWs, quote]) (by simp)
  | false => exact foldlM_neutral (hwide hs) (by simp [isNeutral, isWs, quote]) (by simp)
  | number h => exact foldlM_neutral (hwide hs) (isNeutral_of_mem_number h) (ne_nil_of_number h)
  | string h => exact foldlM_quoted hs h
  | emptyArray hw => exact hbrackets harray rfl (foldlM_ws (.inl rfl) hw) hs
  | array _ ih => exact hbrackets harray rfl (ih (.inl rfl)) hs
  | emptyObject hw => exact hbrackets hobject rfl (foldlM_ws (.inl rfl) hw) hs
  | object _ ih => exact hbrackets hobject rfl (ih (.inl rfl)) hs
  | element hw _ hw' ih =>
    rw [foldlM_append_of_eq_some (foldlM_ws (hwide hs) hw), foldlM_append_of_eq_some (ih hs)]
    exact foldlM_ws (.inr (.inr rfl)) hw'
  | lastElement _ ih => exact ih hs
  | moreElements _ _ ih ihs => exact hcomma (ih hs) (ihs (.inr rfl))
  | member hw hk hw' _ ih =>
    rw [foldlM_append_of_eq_some (foldlM_ws (hwide hs) hw), foldlM_quoted hs hk,
      foldlM_append_of_eq_some (foldlM_ws (.inr (.inr rfl)) hw'), List.foldlM_cons]
    exact ih (.inl rfl)
  | lastMember _ ih => exact ih hs
  | moreMembers _ _ ih ihs => exact hcomma (ih hs) (ihs (.inr rfl))

/-- After a comma every item has to be a text. -/
theorem foldlM_joinComma_separated {ss : List String}
    (h : ∀ s ∈ ss, s ≠ "" → s.toList.foldlM step separated = some done) (hempty : "" ∈ ss) :
    ((joinComma ss).toList ++ [']']).foldlM step separated = none := by
  induction ss with
  | nil => exact absurd hempty (by simp)
  | cons t ss ih =>
    by_cases ht : t = ""
    · subst ht
      cases ss with
      | nil => rfl
      | cons u ss =>
        simp only [joinComma_cons_cons, String.empty_append, String.toList_append]
        rfl
    · cases ss with
      | nil => exact absurd (List.mem_singleton.mp hempty).symm ht
      | cons u ss =>
        have hrest := ih (fun s hs => h s (List.mem_cons_of_mem _ hs))
          ((List.mem_cons.mp hempty).resolve_left (Ne.symm ht))
        rw [joinComma_cons_cons, String.toList_append, String.toList_append, List.append_assoc,
          List.append_assoc, foldlM_append_of_eq_some (h t (by simp) ht)]
        exact hrest

/-- So a list in brackets with an empty item is no text, unless that is its only item. -/
theorem foldlM_brackets {ss : List String}
    (h : ∀ s ∈ ss, s ≠ "" → ∀ st, Expects st → s.toList.foldlM step st = some done)
    (hempty : "" ∈ ss) (hlength : 2 ≤ ss.length) :
    ("[" ++ joinComma ss ++ "]").toList.foldlM step start = none := by
  have hopen : "[".toList.foldlM step start = some start := rfl
  rw [String.toList_append, String.toList_append, List.append_assoc,
    foldlM_append_of_eq_some hopen]
  match ss, hlength with
  | t :: u :: ss, _ =>
    rw [joinComma_cons_cons, String.toList_append, String.toList_append]
    by_cases ht : t = ""
    · subst ht
      simp only [String.toList_empty, List.nil_append]
      rfl
    · have hrest : ((joinComma (u :: ss)).toList ++ [']']).foldlM step separated = none :=
        foldlM_joinComma_separated
          (fun s hs hne => h s (List.mem_cons_of_mem _ hs) hne _ (.inr rfl))
          ((List.mem_cons.mp hempty).resolve_left (Ne.symm ht))
      rw [List.append_assoc, List.append_assoc,
        foldlM_append_of_eq_some (h t (by simp) ht _ (.inl rfl))]
      exact hrest

end Scan

theorem Json.Text.ne_empty {j : Json} {s : String} (h : j.Text s) : s ≠ "" := by
  rintro rfl
  have hdone : some Scan.start = some Scan.done := Scan.foldlM_derives h (.inl rfl)
  exact absurd hdone (by simp)

/-- An empty item next to others leaves a comma without a value. -/
theorem not_text_of_mem_empty {ss : List String} (h : ∀ s ∈ ss, s ≠ "" → ∃ j : Json, j.Text s)
    (hempty : "" ∈ ss) (hlength : 2 ≤ ss.length) (j : Json) :
    ¬ j.Text ("[" ++ joinComma ss ++ "]") := by
  intro htext
  have hdone := Scan.foldlM_derives htext (.inl rfl)
  have hitems : ∀ s ∈ ss, s ≠ "" → ∀ st, Scan.Expects st →
      s.toList.foldlM Scan.step st = some .done := by
    intro s hs hne st hst
    obtain ⟨i, hi⟩ := h s hs hne
    exact Scan.foldlM_derives hi hst
  rw [Scan.foldlM_brackets hitems hempty hlength] at hdone
  exact absurd hdone (by simp)

end FlexRan.Lib
