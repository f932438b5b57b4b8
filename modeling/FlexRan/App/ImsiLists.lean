import FlexRan.App.RrmManagement

/-!
# Lists of regular expressions

A list of regular expressions over IMSIs is a text in brackets. It is cut at every comma; the white
space around a piece and the quotes at its ends are taken off. The last character of a piece is
looked at even if the piece is blank, and a quote that stands alone counts as both ends. Every byte
of a text is one character.

## Main definitions

* `elements`: what a text is cut into.
* `Careful`: no access is out of bounds, and an unbalanced element is refused.
* `Handled`: the texts that are read with care.
* `Layout`: a list, written down with white space.
* `Reaches`: the positions in a text fit into an `int`, or wrap around without harm.
* `Layout.Clean`: the lists that are read back.
-/
namespace FlexRan.App.Rrm

open Lib

/-! ## Elements -/

/-- The text between the brackets, if there are any. -/
def bracketed (s : List Char) : Option (List Char) :=
  let str := beginEndSpace s
  if str.head? = some '[' ∧ str.getLast? = some ']' then some ((str.drop 1).take (str.length - 2))
  else none

/-- What the list consists of, without the white space around it. -/
def elements (s : String) : List (List Char) :=
  match bracketed s.toList with
  | some inner => (inner.splitOn ',').map beginEndSpace
  | none => []

/-- A quote at one end without another one at the other end. -/
def Unbalanced (e : List Char) : Prop :=
  (e.head? = some '"' ∨ e.getLast? = some '"') ∧ ¬ ∃ inner, e = '"' :: inner ++ ['"']

/-- An element that is no good, other than a blank and a quote that stands alone. -/
def Malformed (e : List Char) : Prop :=
  (Unbalanced e ∧ e ≠ ['"']) ∨ ∃ c ∈ e, c.isAlpha = true

/-- No access is out of bounds, and an unbalanced element is a reason to return false. -/
structure Careful (s : String) : Prop where
  inBounds : ∀ f, split s ≠ .error (.fault f)
  unbalanced : ∀ e ∈ elements s, Unbalanced e → ∃ what, split s = .error (.reason what)

/-- A blank or a quote that stands alone is harmless if something else is refused, in the case of a
blank before it. -/
structure Handled (s : String) : Prop where
  blank : ∀ pre post, elements s = pre ++ [] :: post → ∃ e ∈ pre, Malformed e
  lone : ['"'] ∈ elements s → ∃ e ∈ elements s, Malformed e

/-- The text of a good element: the quotes are taken off. -/
def unquote (e : List Char) : List Char :=
  if e.head? = some '"' then (e.drop 1).take (e.length - 2) else e

theorem not_isAlpha_quote : '"'.isAlpha = false := rfl

theorem lone_or_quoted {e : List Char} (hhead : e.head? = some '"')
    (hlast : e.getLast? = some '"') : e = ['"'] ∨ ∃ inner, e = '"' :: inner ++ ['"'] := by
  obtain ⟨r, rfl⟩ := List.head?_eq_some_iff.mp hhead
  rcases List.eq_nil_or_concat r with rfl | ⟨inner, c, rfl⟩
  · exact .inl rfl
  · rw [List.concat_eq_append, ← List.cons_append, List.getLast?_concat, Option.some.injEq] at hlast
    exact .inr ⟨inner, by rw [List.concat_eq_append, hlast, List.cons_append]⟩

theorem unbalanced_iff {e : List Char} : (Unbalanced e ∧ e ≠ ['"']) ↔
    ¬ (e.head? = some '"' ↔ e.getLast? = some '"') := by
  constructor
  · rintro ⟨⟨hquote, hinner⟩, hlone⟩ hiff
    have hboth : e.head? = some '"' ∧ e.getLast? = some '"' := by tauto
    exact (lone_or_quoted hboth.1 hboth.2).elim hlone hinner
  · intro hnot
    refine ⟨⟨by tauto, ?_⟩, ?_⟩
    · rintro ⟨inner, rfl⟩
      exact hnot ⟨fun _ => List.getLast?_concat, fun _ => rfl⟩
    · rintro rfl
      exact hnot (by simp)

theorem unquote_quoted (inner : List Char) : unquote ('"' :: inner ++ ['"']) = inner := by
  simp [unquote]

/-- The quotes that are taken off are no letters. -/
theorem exists_isAlpha_unquote_iff {e : List Char}
    (hiff : e.head? = some '"' ↔ e.getLast? = some '"') :
    (∃ c ∈ unquote e, c.isAlpha = true) ↔ ∃ c ∈ e, c.isAlpha = true := by
  by_cases hhead : e.head? = some '"'
  · rcases lone_or_quoted hhead (hiff.mp hhead) with rfl | ⟨inner, rfl⟩
    · simp [unquote, not_isAlpha_quote]
    · rw [unquote_quoted]
      simp [not_isAlpha_quote]
  · rw [unquote, if_neg hhead]

/-- What a round of the loop can do. -/
theorem parseToken_cases (part : List Char) :
    (beginEndSpace part = [] ∧ parseToken part = .error (.fault .outOfBounds)) ∨
    (Malformed (beginEndSpace part) ∧ ∃ what, parseToken part = .error (.reason what)) ∨
    (beginEndSpace part ≠ [] ∧ ¬ Malformed (beginEndSpace part) ∧
      parseToken part = .ok (unquote (beginEndSpace part))) := by
  rw [parseToken]
  generalize beginEndSpace part = e
  cases hhead : e.head? with
  | none => exact .inl ⟨List.head?_eq_none_iff.mp hhead, rfl⟩
  | some first =>
    have hne : e ≠ [] := fun h => by simp [h] at hhead
    obtain ⟨last, hlast⟩ : ∃ last, e.getLast? = some last := by
      rw [← Option.isSome_iff_exists, List.getLast?_isSome]
      exact hne
    dsimp only
    rw [hlast]
    dsimp only
    by_cases hiff : e.head? = some '"' ↔ e.getLast? = some '"'
    · have hsame : ((first == '"') != (last == '"')) = false := by
        rw [hhead, hlast, Option.some.injEq, Option.some.injEq] at hiff
        rw [bne_eq_false_iff_eq, Bool.eq_iff_iff, beq_iff_eq, beq_iff_eq]
        exact hiff
      have htoken : (if (first == '"') = true then (e.drop 1).take (e.length - 2) else e) =
          unquote e := by
        simp [unquote, hhead]
      rw [hsame, htoken, if_neg (by simp)]
      split_ifs with halpha
      all_goals rw [List.any_eq_true, exists_isAlpha_unquote_iff hiff] at halpha
      · exact .inr (.inl ⟨.inr halpha, _, rfl⟩)
      · exact .inr (.inr ⟨hne, not_or.mpr ⟨fun h => unbalanced_iff.mp h hiff, halpha⟩, rfl⟩)
    · have hdiff : ((first == '"') != (last == '"')) = true := by
        rw [hhead, hlast, Option.some.injEq, Option.some.injEq] at hiff
        rw [bne_iff_ne, ne_eq, Bool.eq_iff_iff, beq_iff_eq, beq_iff_eq]
        exact hiff
      rw [if_pos hdiff]
      exact .inr (.inl ⟨.inl (unbalanced_iff.mpr hiff), _, rfl⟩)

theorem not_malformed_nil : ¬ Malformed [] := by
  rintro (⟨h, -⟩ | ⟨c, hc, -⟩)
  · simp [Unbalanced] at h
  · exact List.not_mem_nil hc

/-- An element that is put into the list. -/
def Accepted (e : List Char) : Prop := e ≠ [] ∧ ¬ Malformed e

theorem Accepted.eq_lone {e : List Char} (h : Accepted e) (hun : Unbalanced e) : e = ['"'] := by
  by_contra hne
  exact h.2 (.inl ⟨hun, hne⟩)

theorem unbalanced_lone : Unbalanced ['"'] :=
  ⟨.inl rfl, fun ⟨inner, h⟩ => by simp at h⟩

theorem parseToken_ok_iff {part token : List Char} : parseToken part = .ok token ↔
    Accepted (beginEndSpace part) ∧ token = unquote (beginEndSpace part) := by
  rcases parseToken_cases part with ⟨hnil, heq⟩ | ⟨href, what, heq⟩ | ⟨hne, hnot, heq⟩
  · exact iff_of_false (by simp [heq]) fun h => h.1.1 hnil
  · exact iff_of_false (by simp [heq]) fun h => h.1.2 href
  · rw [heq, Except.ok.injEq]
    exact ⟨fun h => ⟨⟨hne, hnot⟩, h.symm⟩, fun h => h.2.symm⟩

/-! ## The loop -/

theorem split_of_bracketed_none {s : String} (h : bracketed s.toList = none) :
    ∃ what, split s = .error (.reason what) := by
  rw [split]
  rw [bracketed] at h
  generalize beginEndSpace s.toList = str at h
  cases hhead : str.head? with
  | none => exact ⟨_, rfl⟩
  | some first =>
    obtain ⟨last, hlast⟩ : ∃ last, str.getLast? = some last := by
      rw [← Option.isSome_iff_exists, List.getLast?_isSome]
      rintro rfl
      simp at hhead
    rw [hlast]
    dsimp only
    split_ifs with hopen hclose
    · exact ⟨_, rfl⟩
    · exact ⟨_, rfl⟩
    · rw [ne_eq, not_not] at hopen hclose
      rw [hopen] at hhead
      rw [hclose] at hlast
      exact absurd h (by simp [hhead, hlast])

theorem split_of_bracketed {s : String} {inner : List Char} (h : bracketed s.toList = some inner) :
    split s = (inner.splitOn ',').mapM parseToken >>= fun tokens =>
      .ok ((tokens.filter fun t => !t.isEmpty).map String.ofList) := by
  rw [bracketed] at h
  rw [split]
  generalize beginEndSpace s.toList = str at h
  split_ifs at h with hends
  obtain rfl := Option.some.inj h
  rw [hends.1, hends.2]
  rfl

theorem elements_of_bracketed {s : String} {inner : List Char}
    (h : bracketed s.toList = some inner) :
    elements s = (inner.splitOn ',').map beginEndSpace := by
  rw [elements, h]

theorem elements_of_bracketed_none {s : String} (h : bracketed s.toList = none) :
    elements s = [] := by
  rw [elements, h]

/-- What the loop can do: the first element that is not accepted decides. -/
theorem split_cases (s : String) :
    ((∃ what, split s = .error (.reason what)) ∧ (elements s = [] ∨ ∃ pre e post,
      elements s = pre ++ e :: post ∧ (∀ x ∈ pre, Accepted x) ∧ Malformed e)) ∨
    ((∃ f, split s = .error (.fault f)) ∧ ∃ pre post,
      elements s = pre ++ [] :: post ∧ ∀ x ∈ pre, Accepted x) ∨
    ((∃ list, split s = .ok list) ∧ ∀ e ∈ elements s, Accepted e) := by
  cases hb : bracketed s.toList with
  | none =>
    exact .inl ⟨split_of_bracketed_none hb, .inl (elements_of_bracketed_none hb)⟩
  | some inner =>
    rw [elements_of_bracketed hb, split_of_bracketed hb]
    cases hm : (inner.splitOn ',').mapM parseToken with
    | ok tokens =>
      refine .inr (.inr ⟨⟨_, rfl⟩, List.forall_mem_map.mpr fun part hpart => ?_⟩)
      obtain ⟨token, -, htoken⟩ := exists_of_mem_of_mapM_ok hm hpart
      exact (parseToken_ok_iff.mp htoken).1
    | error err =>
      obtain ⟨pre, part, post, hparts, hpre, herr⟩ := mapM_error_iff.mp hm
      have haccepted : ∀ x ∈ pre.map beginEndSpace, Accepted x :=
        List.forall_mem_map.mpr fun x hx =>
          have ⟨_, hx⟩ := hpre x hx
          (parseToken_ok_iff.mp hx).1
      rw [hparts, List.map_append, List.map_cons]
      rcases parseToken_cases part with ⟨hnil, heq⟩ | ⟨href, what, heq⟩ | ⟨-, -, heq⟩
      · obtain rfl := Except.error.inj (herr.symm.trans heq)
        exact .inr (.inl ⟨⟨_, rfl⟩, _, _, by rw [hnil], haccepted⟩)
      · obtain rfl := Except.error.inj (herr.symm.trans heq)
        exact .inl ⟨⟨_, rfl⟩, .inr ⟨_, _, _, rfl, haccepted, href⟩⟩
      · exact absurd (herr.symm.trans heq) (by simp)

/-- A text is read with care if and only if its blanks and lone quotes are harmless. -/
theorem careful_iff_handled (s : String) : Careful s ↔ Handled s := by
  rcases split_cases s with ⟨⟨what, hsplit⟩, hfirst⟩ | ⟨⟨f, hsplit⟩, pre, post, heq, hpre⟩ |
      ⟨⟨list, hsplit⟩, hall⟩
  · refine iff_of_true ⟨fun f => by simp [hsplit], fun _ _ _ => ⟨what, hsplit⟩⟩ ?_
    rcases hfirst with hnil | ⟨pre, e, post, heq, hpre, href⟩
    · exact ⟨fun pre post h => by simp [hnil] at h, fun h => by simp [hnil] at h⟩
    · refine ⟨fun pre' post' heq' => ?_, fun _ => ⟨e, by simp [heq], href⟩⟩
      rw [heq] at heq'
      -- the blank is not before the element that is refused, nor is it that element
      rcases List.append_eq_append_iff.mp heq' with ⟨mid, hpre', hmid⟩ | ⟨mid, hpre', hmid⟩
      · cases mid with
        | nil =>
          obtain ⟨rfl, -⟩ := List.cons.inj hmid
          exact absurd href not_malformed_nil
        | cons x mid =>
          obtain ⟨rfl, -⟩ := List.cons.inj hmid
          exact ⟨e, by simp [hpre'], href⟩
      · cases mid with
        | nil =>
          obtain ⟨rfl, -⟩ := List.cons.inj hmid
          exact absurd href not_malformed_nil
        | cons x mid =>
          obtain ⟨rfl, -⟩ := List.cons.inj hmid
          exact absurd rfl (hpre [] (by simp [hpre'])).1
  · refine iff_of_false (fun h => h.inBounds f hsplit) fun h => ?_
    obtain ⟨e, he, href⟩ := h.blank pre post heq
    exact (hpre e he).2 href
  · constructor
    · intro h
      refine ⟨fun pre post heq => absurd rfl (hall [] (by simp [heq])).1, fun hlone => ?_⟩
      obtain ⟨what, hwhat⟩ := h.unbalanced _ hlone unbalanced_lone
      exact absurd (hsplit.symm.trans hwhat) (by simp)
    · intro h
      refine ⟨fun f => by simp [hsplit], fun e he hun => ?_⟩
      obtain rfl := (hall e he).eq_lone hun
      obtain ⟨e, he, href⟩ := h.lone he
      exact absurd href (hall e he).2

/-! ## Lists that are written down -/

/-- A text without quotes and letters whose ends are not white space. -/
structure Item where
  text : List Char
  nonempty : text ≠ []
  quote : '"' ∉ text
  letter : ∀ c ∈ text, c.isAlpha = false
  head : isSpace (text.head nonempty) = false
  last : isSpace (text.getLast nonempty) = false

abbrev Blank := {l : List Char // ∀ c ∈ l, isSpace c = true}

/-- An element in quotes with white space around it. -/
structure Padded where
  before : Blank
  item : Item
  after : Blank

def Padded.quoted (p : Padded) : List Char := '"' :: p.item.text ++ ['"']

def Padded.chars (p : Padded) : List Char := p.before.1 ++ p.quoted ++ p.after.1

/-- A list with white space around it. -/
structure Layout where
  before : Blank
  items : List Padded
  after : Blank

namespace Layout

def body (items : List Padded) : List Char := [','].intercalate (items.map Padded.chars)

def list (layout : Layout) : List Char := '[' :: body layout.items ++ [']']

def chars (layout : Layout) : List Char := layout.before.1 ++ layout.list ++ layout.after.1

def text (layout : Layout) : String := String.ofList layout.chars

def texts (layout : Layout) : List String :=
  layout.items.map fun p => String.ofList p.item.text

end Layout

/-- How many characters of a text are seen; it is negative if the position does not fit. -/
def window (length : ℕ) : ℤ := ((length : ℤ) - 1).bmod (2 ^ 32) + 1

/-- The end of `core` is seen, or there is nothing to take off. -/
def Reaches (before core after : List Char) : Prop :=
  let n := window (before ++ core ++ after).length
  (n < 0 ∧ before = [] ∧ after = []) ∨ (before.length + core.length : ℕ) ≤ n

/-- A list that is read back. -/
structure Layout.Clean (layout : Layout) : Prop where
  nonempty : layout.items ≠ []
  comma : ∀ p ∈ layout.items, ',' ∉ p.item.text
  whole : Reaches layout.before.1 layout.list layout.after.1
  each : ∀ p ∈ layout.items, Reaches p.before.1 p.quoted p.after.1

/-! ## White space -/

theorem beginEndSpace_eq (s : List Char) : beginEndSpace s =
    if window s.length < 0 then s else trim isSpace (s.take (window s.length).toNat) := by
  rw [beginEndSpace, window]
  congr 1
  rw [eq_iff_iff]
  omega

theorem window_le {length : ℕ} (h : length ≤ 2 ^ 31) : window length = length := by
  rw [window, Int.bmod_eq_of_le (by omega) (by omega)]
  omega

/-- A text that is not too long is seen to its end. -/
theorem reaches_of_length_le {before core after : List Char}
    (h : (before ++ core ++ after).length ≤ 2 ^ 31) : Reaches before core after := by
  refine .inr ?_
  rw [window_le h, List.length_append, List.length_append]
  omega

theorem beginEndSpace_of_reaches {before core after : List Char}
    (hb : ∀ c ∈ before, isSpace c = true) (ha : ∀ c ∈ after, isSpace c = true) (hne : core ≠ [])
    (hhead : isSpace (core.head hne) = false) (hlast : isSpace (core.getLast hne) = false)
    (h : Reaches before core after) : beginEndSpace (before ++ core ++ after) = core := by
  rw [beginEndSpace_eq]
  rcases h with ⟨hneg, rfl, rfl⟩ | hle
  · rw [if_pos hneg, List.nil_append, List.append_nil]
  · rw [if_neg (by omega), List.take_append,
      List.take_of_length_le (by rw [List.length_append]; omega)]
    exact trim_append_append hb (fun c hc => ha c (List.mem_of_mem_take hc)) hne hhead hlast

/-- What is left of a text that starts with `c` after white space. -/
theorem beginEndSpace_append_cons {b : List Char} {c : Char} (hb : ∀ x ∈ b, isSpace x = true)
    (hc : isSpace c = false) (r : List Char) :
    (window (b ++ c :: r).length < 0 ∧ beginEndSpace (b ++ c :: r) = b ++ c :: r) ∨
    beginEndSpace (b ++ c :: r) = [] ∨
    ∃ k : ℕ, window (b ++ c :: r).length = (b.length + 1 + k : ℕ) ∧
      beginEndSpace (b ++ c :: r) = c :: (r.take k).rdropWhile isSpace := by
  rw [beginEndSpace_eq]
  generalize window (b ++ c :: r).length = n
  by_cases hneg : n < 0
  · exact .inl ⟨hneg, if_pos hneg⟩
  · rw [if_neg hneg]
    by_cases hle : n.toNat ≤ b.length
    · refine .inr (.inl (trim_eq_nil_of_forall fun x hx => ?_))
      rw [List.take_append_of_le_length hle] at hx
      exact hb x (List.mem_of_mem_take hx)
    · obtain ⟨k, hk⟩ : ∃ k, n.toNat = b.length + (k + 1) := ⟨n.toNat - b.length - 1, by omega⟩
      refine .inr (.inr ⟨k, by omega, ?_⟩)
      rw [hk, List.take_length_add_append, List.take_succ_cons, trim_append_cons hb hc]

theorem eq_nil_of_head? {b l : List Char} {c : Char} (hb : ∀ x ∈ b, isSpace x = true)
    (hc : isSpace c = false) (h : (b ++ l).head? = some c) : b = [] := by
  cases b with
  | nil => rfl
  | cons x b =>
    obtain rfl := Option.some.inj h
    exact absurd (hb x (by simp)) (by simp [hc])

theorem eq_nil_of_getLast? {a l : List Char} {c : Char} (ha : ∀ x ∈ a, isSpace x = true)
    (hc : isSpace c = false) (h : (l ++ a).getLast? = some c) : a = [] := by
  rcases List.eq_nil_or_concat a with rfl | ⟨a, x, rfl⟩
  · rfl
  · rw [List.concat_eq_append, ← List.append_assoc, List.getLast?_concat] at h
    obtain rfl := Option.some.inj h
    exact absurd (ha x (by simp)) (by simp [hc])

theorem beginEndSpace_sublist (s : List Char) : (beginEndSpace s).Sublist s := by
  rw [beginEndSpace_eq]
  split_ifs
  · exact .refl s
  · exact (trim_sublist _ _).trans (List.take_sublist _ _)

/-! ## Tokens -/

theorem Accepted.quoted {e : List Char} (h : Accepted e) (hhead : e.head? = some '"') :
    e = ['"'] ∨ ∃ inner, e = '"' :: inner ++ ['"'] := by
  refine lone_or_quoted hhead ?_
  by_contra hlast
  exact h.2 (.inl (unbalanced_iff.mpr fun hiff => hlast (hiff.mp hhead)))

theorem unquote_sublist (e : List Char) : (unquote e).Sublist e := by
  rw [unquote]
  split_ifs
  · exact (List.take_sublist _ _).trans (List.drop_sublist _ _)
  · exact .refl e

/-- A piece with one quote only, at the front, is refused or dropped, or the quote stays. -/
theorem parseToken_open {b x token : List Char} (hb : ∀ c ∈ b, isSpace c = true) (hx : '"' ∉ x)
    (h : parseToken (b ++ '"' :: x) = .ok token) : token = [] ∨ '"' ∈ token := by
  obtain ⟨haccepted, rfl⟩ := parseToken_ok_iff.mp h
  -- an element that starts with the quote has no other one
  have hopen : ∀ y : List Char, y.Sublist x → Accepted ('"' :: y) →
      unquote ('"' :: y) = [] := by
    intro y hy hy'
    rcases hy'.quoted rfl with heq | ⟨inner, heq⟩
    · rw [heq]
      rfl
    · rw [List.cons_append, List.cons.injEq] at heq
      exact absurd (hy.subset (by rw [heq.2]; simp)) hx
  rcases beginEndSpace_append_cons hb (c := '"') rfl x with ⟨-, heq⟩ | heq | ⟨k, -, heq⟩
  · rw [heq] at haccepted ⊢
    by_cases hnil : b = []
    · rw [hnil, List.nil_append] at haccepted ⊢
      exact .inl (hopen x (.refl x) haccepted)
    · rw [unquote, if_neg fun hhead => hnil (eq_nil_of_head? hb rfl hhead)]
      exact .inr (by simp)
  · exact absurd heq haccepted.1
  · rw [heq] at haccepted ⊢
    refine .inl (hopen _ ?_ haccepted)
    exact (List.rdropWhile_prefix isSpace _).sublist.trans (List.take_sublist _ _)

namespace Padded

variable (p : Padded)

theorem chars_eq : p.chars = p.before.1 ++ '"' :: (p.item.text ++ '"' :: p.after.1) := by
  simp [chars, quoted]

theorem beginEndSpace_chars (h : Reaches p.before.1 p.quoted p.after.1) :
    beginEndSpace p.chars = p.quoted :=
  beginEndSpace_of_reaches p.before.2 p.after.2 (by simp [quoted]) rfl (by simp [quoted]; rfl) h

theorem accepted_quoted : Accepted p.quoted := by
  refine ⟨by simp [quoted], ?_⟩
  rintro (⟨⟨-, hun⟩, -⟩ | ⟨c, hc, halpha⟩)
  · exact hun ⟨_, rfl⟩
  · simp only [quoted, List.cons_append, List.mem_cons, List.mem_append, List.not_mem_nil,
      or_false] at hc
    rcases hc with rfl | hc | rfl
    · exact absurd halpha (by decide)
    · exact absurd halpha (by simp [p.item.letter c hc])
    · exact absurd halpha (by decide)

theorem parseToken_chars (h : Reaches p.before.1 p.quoted p.after.1) :
    parseToken p.chars = .ok p.item.text := by
  rw [parseToken_ok_iff, p.beginEndSpace_chars h]
  exact ⟨p.accepted_quoted, (unquote_quoted _).symm⟩

/-- An element of which something is left, but no quote, has been seen to its end. -/
theorem reaches_of_parseToken {token : List Char} (h : parseToken p.chars = .ok token)
    (hne : token ≠ []) (hquote : '"' ∉ token) : Reaches p.before.1 p.quoted p.after.1 := by
  obtain ⟨haccepted, rfl⟩ := parseToken_ok_iff.mp h
  have hlen : (p.before.1 ++ p.quoted ++ p.after.1).length = p.chars.length := rfl
  rw [Reaches, hlen]
  rw [chars_eq] at haccepted hne hquote ⊢
  rcases beginEndSpace_append_cons p.before.2 (c := '"') rfl (p.item.text ++ '"' :: p.after.1) with
    ⟨hneg, heq⟩ | heq | ⟨k, hk, heq⟩
  · rw [heq] at haccepted hne hquote
    by_cases hb : p.before.1 = []
    · rw [hb, List.nil_append] at haccepted hne hquote
      rcases haccepted.quoted rfl with hlone | ⟨inner, hinner⟩
      · exact absurd hlone (by simp)
      · refine .inl ⟨by simpa using hneg, hb, ?_⟩
        refine eq_nil_of_getLast? p.after.2 (c := '"') (l := p.quoted) rfl ?_
        rw [show p.quoted ++ p.after.1 = '"' :: inner ++ ['"'] by rw [← hinner]; simp [quoted]]
        exact List.getLast?_concat
    · rw [unquote, if_neg fun hhead => hb (eq_nil_of_head? p.before.2 rfl hhead)] at hquote
      exact absurd (by simp) hquote
  · exact absurd heq haccepted.1
  · rw [heq] at haccepted hne hquote
    rcases haccepted.quoted rfl with hlone | ⟨inner, hinner⟩
    · rw [hlone] at hne
      exact absurd rfl hne
    · refine .inr ?_
      rw [hk]
      rw [List.cons_append, List.cons.injEq] at hinner
      have hmem : '"' ∈ (p.item.text ++ '"' :: p.after.1).take k :=
        (List.rdropWhile_prefix isSpace _).subset (by rw [hinner.2]; simp)
      have hlt : p.item.text.length < k := by
        by_contra hle
        rw [List.take_append_of_le_length (by omega)] at hmem
        exact p.item.quote (List.mem_of_mem_take hmem)
      simp only [quoted, List.length_cons, List.length_append, List.length_nil]
      omega

end Padded

/-! ## The body of a list -/

namespace Layout

theorem body_cons_cons (p q : Padded) (items : List Padded) :
    body (p :: q :: items) = p.chars ++ ',' :: body (q :: items) := by
  simp [body, List.intercalate]

theorem notMem_of_blank {b : List Char} {c : Char} (hb : ∀ x ∈ b, isSpace x = true)
    (hc : isSpace c = false) : c ∉ b := fun h => absurd (hb c h) (by simp [hc])

theorem comma_notMem_chars {p : Padded} (h : ',' ∉ p.item.text) : ',' ∉ p.chars := by
  have hb := notMem_of_blank (c := ',') p.before.2 rfl
  have ha := notMem_of_blank (c := ',') p.after.2 rfl
  simp [Padded.chars, Padded.quoted, h, hb, ha]

theorem splitOn_body {items : List Padded} (hne : items ≠ [])
    (h : ∀ p ∈ items, ',' ∉ p.item.text) :
    (body items).splitOn ',' = items.map Padded.chars := by
  refine List.splitOn_intercalate ',' (List.forall_mem_map.mpr fun p hp => ?_) (by simpa using hne)
  exact comma_notMem_chars (h p hp)

/-- A bracket can only be in the text of an element. -/
theorem chars_eq_append {p : Padded} {w rest : List Char} (h : p.chars = w ++ ']' :: rest) :
    ∃ x, w = p.before.1 ++ '"' :: x ∧ x.Sublist p.item.text := by
  have hb := notMem_of_blank (c := ']') p.before.2 rfl
  have ha := notMem_of_blank (c := ']') p.after.2 rfl
  rw [p.chars_eq] at h
  rcases List.append_eq_append_iff.mp h with ⟨mid, rfl, hrest⟩ | ⟨mid, hbefore, hrest⟩
  · cases mid with
    | nil => exact absurd hrest (by simp)
    | cons y x =>
      rw [List.cons_append, List.cons.injEq] at hrest
      obtain ⟨rfl, hrest⟩ := hrest
      refine ⟨x, rfl, ?_⟩
      rcases List.append_eq_append_iff.mp hrest with ⟨mid, -, h⟩ | ⟨mid, htext, -⟩
      · have hmem : ']' ∈ '"' :: p.after.1 := by simp [h]
        exact absurd hmem (by simp [ha])
      · rw [htext]
        exact List.sublist_append_left x mid
  · cases mid with
    | nil => exact absurd hrest (by simp)
    | cons y mid =>
      obtain ⟨rfl, -⟩ := List.cons.inj hrest
      exact absurd (by simp [hbefore]) hb

/-- A list that ends at a bracket within it is cut into whole elements and an open one. -/
theorem splitOn_of_body_eq {items : List Padded} (hcomma : ∀ p ∈ items, ',' ∉ p.item.text)
    {w rest : List Char} (h : body items = w ++ ']' :: rest) :
    ∃ pre p post x, items = pre ++ p :: post ∧ x.Sublist p.item.text ∧
      w.splitOn ',' = pre.map Padded.chars ++ [p.before.1 ++ '"' :: x] := by
  -- the part of the element with the bracket has no comma
  have hopen : ∀ {p : Padded} {w : List Char}, p ∈ items → (∃ r, p.chars = w ++ ']' :: r) →
      ∃ x, x.Sublist p.item.text ∧ w.splitOn ',' = [p.before.1 ++ '"' :: x] := by
    rintro p w hp ⟨r, hr⟩
    obtain ⟨x, rfl, hx⟩ := chars_eq_append hr
    refine ⟨x, hx, List.splitOn_eq_singleton fun hmem => comma_notMem_chars (hcomma p hp) ?_⟩
    rw [hr]
    exact List.mem_append_left _ hmem
  induction items generalizing w with
  | nil => exact absurd h (by simp [body, List.intercalate])
  | cons p items ih =>
    cases items with
    | nil =>
      obtain ⟨x, hx, hw⟩ := hopen (p := p) (w := w) (by simp)
        ⟨rest, by simpa [body, List.intercalate] using h⟩
      exact ⟨[], p, [], x, rfl, hx, hw⟩
    | cons q items =>
      rw [body_cons_cons] at h
      rcases List.append_eq_append_iff.mp h with ⟨mid, rfl, htail⟩ | ⟨mid, hchars, htail⟩
      · cases mid with
        | nil => exact absurd htail (by simp)
        | cons y w =>
          rw [List.cons_append, List.cons.injEq] at htail
          obtain ⟨rfl, htail⟩ := htail
          obtain ⟨pre, p', post, x, heq, hx, hw⟩ := ih
            (fun p' hp' => hcomma p' (List.mem_cons_of_mem _ hp')) htail
            fun hp' => hopen (List.mem_cons_of_mem _ hp')
          refine ⟨p :: pre, p', post, x, by rw [heq, List.cons_append], hx, ?_⟩
          rw [List.splitOn_append_cons_self_of_not_mem (comma_notMem_chars (hcomma p (by simp))),
            hw, List.map_cons, List.cons_append]
      · cases mid with
        | nil => exact absurd htail (by simp)
        | cons y mid =>
          obtain ⟨rfl, -⟩ := List.cons.inj htail
          obtain ⟨x, hx, hw⟩ := hopen (p := p) (w := w) (by simp) ⟨mid, hchars⟩
          exact ⟨[], p, q :: items, x, rfl, hx, hw⟩

/-! ## Reading a list back -/

variable {layout : Layout}

theorem bracketed_chars (h : Reaches layout.before.1 layout.list layout.after.1) :
    bracketed layout.chars = some (body layout.items) := by
  have heq : beginEndSpace layout.chars = layout.list :=
    beginEndSpace_of_reaches layout.before.2 layout.after.2 (by simp [list]) rfl
      (by simp [list]; rfl) h
  rw [bracketed, heq]
  simp [list, List.getLast?_cons]

theorem Clean.split_eq (h : layout.Clean) : split layout.text = .ok layout.texts := by
  have hmap : (layout.items.map Padded.chars).mapM parseToken =
      .ok (layout.items.map fun p => p.item.text) := by
    rw [mapM_ok_iff, List.forall₂_map_left_iff, List.forall₂_map_right_iff, List.forall₂_same]
    exact fun p hp => p.parseToken_chars (h.each p hp)
  have hfilter : (layout.items.map fun p => p.item.text).filter (fun t => !t.isEmpty) =
      layout.items.map fun p => p.item.text := by
    rw [List.filter_eq_self, List.forall_mem_map]
    exact fun p _ => by simp [p.item.nonempty]
  rw [split_of_bracketed (by rw [text, String.toList_ofList]; exact bracketed_chars h.whole),
    splitOn_body h.nonempty h.comma, hmap]
  change Except.ok _ = _
  rw [hfilter, List.map_map]
  rfl

/-- The tokens of a list that is read back. -/
structure Tokens (layout : Layout) (inner : List Char) (tokens : List (List Char)) : Prop where
  bracketed : bracketed layout.chars = some inner
  parsed : (inner.splitOn ',').mapM parseToken = .ok tokens
  kept : tokens.filter (fun t => !t.isEmpty) = layout.items.map fun p => p.item.text

theorem exists_tokens (h : split layout.text = .ok layout.texts) :
    ∃ inner tokens, layout.Tokens inner tokens := by
  cases hb : Rrm.bracketed layout.chars with
  | none =>
    obtain ⟨what, hwhat⟩ := split_of_bracketed_none (s := layout.text)
      (by rw [text, String.toList_ofList, hb])
    exact absurd (h.symm.trans hwhat) (by simp)
  | some inner =>
    rw [split_of_bracketed (by rw [text, String.toList_ofList, hb]), bind_eq_ok_iff] at h
    obtain ⟨tokens, hparsed, h⟩ := h
    refine ⟨inner, tokens, hb, hparsed, ?_⟩
    have hmap : (tokens.filter fun t => !t.isEmpty).map String.ofList =
        (layout.items.map fun p => p.item.text).map String.ofList := by
      rw [Except.ok.inj h, texts, List.map_map]
      rfl
    exact List.map_injective_iff.mpr (fun _ _ => String.ofList_inj.mp) hmap

namespace Tokens

variable {inner : List Char} {tokens : List (List Char)} (h : layout.Tokens inner tokens)

include h

theorem eq_nil_or_exists {token : List Char} (ht : token ∈ tokens) :
    token = [] ∨ ∃ p ∈ layout.items, p.item.text = token := by
  by_cases hne : token = []
  · exact .inl hne
  · have hmem : token ∈ tokens.filter fun t => !t.isEmpty :=
      List.mem_filter.mpr ⟨ht, by simp [hne]⟩
    rw [h.kept, List.mem_map] at hmem
    exact .inr hmem

theorem quote_notMem {token : List Char} (ht : token ∈ tokens) : '"' ∉ token := by
  rcases h.eq_nil_or_exists ht with rfl | ⟨p, -, rfl⟩
  · exact List.not_mem_nil
  · exact p.item.quote

theorem comma {p : Padded} (hp : p ∈ layout.items) : ',' ∉ p.item.text := by
  have hmem : p.item.text ∈ tokens.filter fun t => !t.isEmpty := by
    rw [h.kept]
    exact List.mem_map_of_mem hp
  obtain ⟨part, hpart, htoken⟩ := exists_of_mem_mapM_ok h.parsed (List.mem_filter.mp hmem).1
  obtain ⟨-, heq⟩ := parseToken_ok_iff.mp htoken
  intro hcomma
  rw [heq] at hcomma
  refine notMem_of_mem_splitOn hpart ?_
  exact (beginEndSpace_sublist part).subset ((unquote_sublist _).subset hcomma)

/-- If there are no more pieces than elements, then no token is dropped. -/
theorem ne_nil (hle : (inner.splitOn ',').length ≤ layout.items.length) {token : List Char}
    (ht : token ∈ tokens) : token ≠ [] := by
  have hlen : tokens.length = (inner.splitOn ',').length := (mapM_ok_iff.mp h.parsed).length_eq.symm
  have hkept : (tokens.filter fun t => !t.isEmpty).length = layout.items.length := by
    rw [h.kept, List.length_map]
  have hall : tokens.filter (fun t => !t.isEmpty) = tokens :=
    List.filter_sublist.eq_of_length_le (by omega)
  rw [← hall] at ht
  simpa using (List.mem_filter.mp ht).2

/-- The body is not cut at a bracket in it. -/
theorem body_ne {rest : List Char} : body layout.items ≠ inner ++ ']' :: rest := by
  intro hbody
  obtain ⟨pre, p, post, x, hitems, hx, hpieces⟩ := splitOn_of_body_eq (fun p hp => h.comma hp) hbody
  have hle : (inner.splitOn ',').length ≤ layout.items.length := by
    simp only [hpieces, hitems, List.length_append, List.length_map, List.length_cons,
      List.length_nil]
    omega
  obtain ⟨token, htoken, hparse⟩ := exists_of_mem_of_mapM_ok h.parsed
    (a := p.before.1 ++ '"' :: x) (by rw [hpieces]; simp)
  rcases parseToken_open p.before.2 (fun hmem => p.item.quote (hx.subset hmem)) hparse with
    hnil | hquote
  · exact h.ne_nil hle htoken hnil
  · exact h.quote_notMem htoken hquote

theorem whole : Reaches layout.before.1 layout.list layout.after.1 := by
  have hb := h.bracketed
  have hchars : layout.chars =
      layout.before.1 ++ '[' :: (body layout.items ++ ']' :: layout.after.1) := by
    simp [chars, list]
  have hlen : (layout.before.1 ++ layout.list ++ layout.after.1).length = layout.chars.length := rfl
  rw [Reaches, hlen]
  rw [Rrm.bracketed] at hb
  split_ifs at hb with hends
  obtain ⟨hhead, hlast⟩ := hends
  have hinner := Option.some.inj hb
  rw [hchars] at hhead hlast hinner ⊢
  rcases beginEndSpace_append_cons layout.before.2 (c := '[') rfl
    (body layout.items ++ ']' :: layout.after.1) with ⟨hneg, heq⟩ | heq | ⟨k, hk, heq⟩
  · rw [heq] at hhead hlast
    refine .inl ⟨hneg, eq_nil_of_head? layout.before.2 rfl hhead, ?_⟩
    exact eq_nil_of_getLast? (l := layout.before.1 ++ layout.list) (c := ']') layout.after.2 rfl
      (by rw [← hlast]; simp [list])
  · rw [heq] at hhead
    exact absurd hhead (by simp)
  · rw [heq] at hlast hinner
    refine .inr ?_
    rw [hk]
    by_contra hlt
    simp only [list, List.length_cons, List.length_append, List.length_nil] at hlt
    rw [List.take_append_of_le_length (by omega)] at hlast hinner
    -- what is left ends with a bracket of the body
    rcases List.eq_nil_or_concat (((body layout.items).take k).rdropWhile isSpace) with
      hnil | ⟨w, c, hw⟩
    · rw [hnil] at hlast
      exact absurd hlast (by decide)
    · rw [hw, List.concat_eq_append] at hlast hinner
      rw [← List.cons_append, List.getLast?_concat, Option.some.injEq] at hlast
      obtain rfl : w = inner := by simpa using hinner
      obtain ⟨rest, hrest⟩ := List.rdropWhile_prefix isSpace ((body layout.items).take k)
      rw [hw, hlast, List.concat_eq_append] at hrest
      have hbody : body layout.items = w ++ ']' :: (rest ++ (body layout.items).drop k) :=
        calc body layout.items = (body layout.items).take k ++ (body layout.items).drop k :=
              (List.take_append_drop k _).symm
          _ = w ++ ']' :: (rest ++ (body layout.items).drop k) := by simp [← hrest]
      exact h.body_ne hbody

theorem nonempty : layout.items ≠ [] := by
  intro hnil
  have hb := h.bracketed.symm.trans (bracketed_chars h.whole)
  obtain rfl := Option.some.inj hb
  obtain ⟨token, -, htoken⟩ := exists_of_mem_of_mapM_ok h.parsed (a := [])
    (by simp [hnil, body, List.intercalate])
  exact (parseToken_ok_iff.mp htoken).1.1 (List.sublist_nil.mp (beginEndSpace_sublist []))

theorem each {p : Padded} (hp : p ∈ layout.items) : Reaches p.before.1 p.quoted p.after.1 := by
  obtain rfl := Option.some.inj (h.bracketed.symm.trans (bracketed_chars h.whole))
  have hpieces := splitOn_body h.nonempty fun p hp => h.comma hp
  obtain ⟨token, htoken, hparse⟩ := exists_of_mem_of_mapM_ok h.parsed (a := p.chars)
    (by rw [hpieces]; exact List.mem_map_of_mem hp)
  exact p.reaches_of_parseToken hparse (h.ne_nil (by rw [hpieces, List.length_map]) htoken)
    (h.quote_notMem htoken)

end Tokens

theorem split_eq_iff (layout : Layout) : split layout.text = .ok layout.texts ↔ layout.Clean := by
  refine ⟨fun h => ?_, Clean.split_eq⟩
  obtain ⟨inner, tokens, htokens⟩ := exists_tokens h
  exact ⟨htokens.nonempty, fun p hp => htokens.comma hp, htokens.whole,
    fun p hp => htokens.each hp⟩

end Layout

/-! ## Reading and checking -/

/-- A list is read back if and only if it has an element and no comma in one, and the positions
fit; a text is read with care if and only if its blanks and lone quotes are harmless. -/
theorem split_exact (layout : Layout) (s : String) :
    (split layout.text = .ok layout.texts ↔ layout.Clean) ∧ (Careful s ↔ Handled s) :=
  ⟨layout.split_eq_iff, careful_iff_handled s⟩

/-- A repetition, `[0-9]{1,3}`, as the only element. -/
def repetition : Layout where
  before := ⟨[], by simp⟩
  items :=
    [{ before := ⟨[], by simp⟩
       item :=
        { text := ['[', '0', '-', '9', ']', '{', '1', ',', '3', '}']
          nonempty := by decide
          quote := by decide
          letter := by simp
          head := by decide
          last := by decide }
       after := ⟨[], by simp⟩ }]
  after := ⟨[], by simp⟩

/-- The repetition is refused, the empty list is read out of bounds and a lone quote is dropped. -/
theorem not_split_exact : split repetition.text ≠ .ok repetition.texts ∧ ¬ Careful "[]" ∧
    ¬ Careful "[\"]" := by
  have hrepetition : split repetition.text = .error (.reason "unbalanced \"\"") := by decide +kernel
  have hempty : split "[]" = .error (.fault .outOfBounds) := by decide +kernel
  have hlone : split "[\"]" = .ok [] := by decide +kernel
  have helements : elements "[\"]" = [['"']] := by decide +kernel
  refine ⟨by simp [hrepetition], fun h => h.inBounds _ hempty, fun h => ?_⟩
  obtain ⟨what, hwhat⟩ := h.unbalanced ['"'] (by simp [helements]) unbalanced_lone
  exact absurd (hlone.symm.trans hwhat) (by simp)

end FlexRan.App.Rrm
