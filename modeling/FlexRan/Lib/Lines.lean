import FlexRan.Lib.Split

/-!
# Lines

Every line of a text ends with a newline.  A text is cut back into the lines it was made of exactly
if none of them contains a newline itself.  Some formats use their lines in pairs.

## Main definitions

* `OneLine`: a string without a newline.
* `unlines`, `readLines`: a text and its lines.
* `pairUp`: the first and second of each pair.
-/
namespace FlexRan.Lib

def OneLine (s : String) : Prop := '\n' ∉ s.toList

instance (s : String) : Decidable (OneLine s) := inferInstanceAs (Decidable ('\n' ∉ s.toList))

def unlines (lines : List String) : String := String.join (lines.map (· ++ "\n"))

/-- The last line must have been ended as well. -/
def readLines (s : String) : Option (List String) :=
  let pieces := s.toList.splitOn '\n'
  if pieces.getLast? = some [] then some (pieces.dropLast.map String.ofList) else none

def pairUp {α : Type} : List α → Option (List (α × α))
  | [] => some []
  | [_] => none
  | a :: b :: l => (pairUp l).map ((a, b) :: ·)

/-! ## Strings of one line -/

section OneLine

variable {s t : String}

@[simp] theorem oneLine_append : OneLine (s ++ t) ↔ OneLine s ∧ OneLine t := by
  simp [OneLine, not_or]

end OneLine

/-! ## Lines and texts -/

theorem flatMap_concat {α : Type} (x : α) (ls : List (List α)) :
    ls.flatMap (· ++ [x]) = [x].intercalate (ls ++ [[]]) := by
  induction ls with
  | nil => simp
  | cons l ls ih =>
    rw [List.cons_append, List.intercalate_cons_of_ne_nil (by simp), ← ih]
    simp

theorem toList_unlines (lines : List String) :
    (unlines lines).toList = ['\n'].intercalate (lines.map String.toList ++ [[]]) := by
  rw [← flatMap_concat]
  simp [unlines, String.toList_join, List.flatMap_map]

theorem readLines_eq_some_iff {s : String} {lines : List String} :
    readLines s = some lines ↔ s = unlines lines ∧ ∀ l ∈ lines, OneLine l := by
  constructor
  · intro h
    dsimp only [readLines] at h
    split_ifs at h with hlast
    obtain rfl := Option.some.inj h
    have hpieces : s.toList.splitOn '\n' = (s.toList.splitOn '\n').dropLast ++ [[]] :=
      (List.dropLast_append_getLast? [] hlast).symm
    constructor
    · rw [← String.toList_inj, toList_unlines, List.map_map]
      simp only [Function.comp_def, String.toList_ofList, List.map_id']
      rw [← hpieces, List.intercalate_splitOn]
    · intro l hl
      obtain ⟨piece, hpiece, rfl⟩ := List.mem_map.mp hl
      rw [OneLine, String.toList_ofList]
      exact notMem_of_mem_splitOn (List.mem_of_mem_dropLast hpiece)
  · rintro ⟨rfl, hlines⟩
    have hpieces : (unlines lines).toList.splitOn '\n' = lines.map String.toList ++ [[]] := by
      rw [toList_unlines]
      refine List.splitOn_intercalate '\n' ?_ (by simp)
      refine List.forall_mem_append.mpr ⟨List.forall_mem_map.mpr hlines, ?_⟩
      simp
    simp [readLines, hpieces]

theorem pairUp_flatMap {α β : Type} (f g : β → α) (l : List β) :
    pairUp (l.flatMap fun b => [f b, g b]) = some (l.map fun b => (f b, g b)) := by
  induction l with
  | nil => rfl
  | cons b l ih =>
    have hcons : (b :: l).flatMap (fun b => [f b, g b]) =
        f b :: g b :: l.flatMap fun b => [f b, g b] := rfl
    rw [hcons, pairUp, ih]
    rfl

end FlexRan.Lib
