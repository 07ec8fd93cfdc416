import Mathlib.Data.List.Basic
import CutPath.Proofs.Document.Characters

namespace CutPath
open Text
set_option autoImplicit true

def addReturn (line : Text) : Text := line ++ ['\r']

/-- A carriage return at the end of every line but the last, which no line feed follows. -/
def returnLines : List Text → List Text
  | [] => []
  | [line] => [line]
  | line :: next :: lines => addReturn line :: returnLines (next :: lines)

theorem returnLines_cons (line : Text) (h : lines ≠ []) :
    returnLines (line :: lines) = addReturn line :: returnLines lines := by
  obtain ⟨next, rest, rfl⟩ := List.exists_cons_of_ne_nil h
  rfl

theorem returnLines_append (a : List Text) (hb : b ≠ []) :
    returnLines (a ++ b) = a.map addReturn ++ returnLines b := by
  induction a with
  | nil => rfl
  | cons line a ih =>
    rw [List.cons_append, returnLines_cons line (List.append_ne_nil_of_right_ne_nil a hb), ih]
    rfl

theorem drop_ne_nil {lines : List Text} (h : k < lines.length) : lines.drop k ≠ [] := by
  rw [Ne, List.drop_eq_nil_iff]
  omega

theorem returnLines_split {lines : List Text} (h : k < lines.length) :
    returnLines lines = (lines.take k).map addReturn ++ returnLines (lines.drop k) := by
  rw [← returnLines_append _ (drop_ne_nil h), List.take_append_drop]

theorem take_returnLines {lines : List Text} (h : k < lines.length) :
    (returnLines lines).take k = (lines.take k).map addReturn := by
  have hlength : ((lines.take k).map addReturn).length = k := by
    rw [List.length_map, List.length_take]
    omega
  rw [returnLines_split h, List.take_left' hlength]

theorem drop_returnLines {lines : List Text} (h : k < lines.length) :
    (returnLines lines).drop k = returnLines (lines.drop k) := by
  have hlength : ((lines.take k).map addReturn).length = k := by
    rw [List.length_map, List.length_take]
    omega
  rw [returnLines_split h, List.drop_left' hlength]

theorem headD_drop_returnLines {lines : List Text} (h : k + 1 < lines.length) :
    ((returnLines lines).drop k).headD [] = addReturn ((lines.drop k).headD []) := by
  have hk : k < lines.length := by omega
  rw [drop_returnLines hk, List.drop_eq_getElem_cons hk, returnLines_cons _ (drop_ne_nil h)]
  rfl

/-- A property of lines to which a carriage return at the end makes no difference. -/
def IgnoresReturn (p : Text → β) : Prop := ∀ line, p (addReturn line) = p line

theorem words_addReturn (line : Text) : words (addReturn line) = words line :=
  words_append_blanks (by decide) line

theorem ignoresReturn_of_words {p : Text → β} (h : ∀ a b, words a = words b → p a = p b) :
    IgnoresReturn p :=
  fun line => h _ _ (words_addReturn line)

theorem IgnoresReturn.findIdx? {p : Text → Bool} (hp : IgnoresReturn p) (lines : List Text) :
    (returnLines lines).findIdx? p = lines.findIdx? p := by
  fun_induction returnLines lines with
  | case1 => rfl
  | case2 => rfl
  | case3 line next lines ih => rw [List.findIdx?_cons, List.findIdx?_cons, hp, ih]

theorem IgnoresReturn.any_take {p : Text → Bool} (hp : IgnoresReturn p) (lines : List Text)
    (n : Nat) : ((returnLines lines).take n).any p = (lines.take n).any p := by
  fun_induction returnLines lines generalizing n with
  | case1 => rfl
  | case2 => rfl
  | case3 line next lines ih =>
    cases n with
    | zero => rfl
    | succ n => rw [List.take_succ_cons, List.take_succ_cons, List.any_cons, List.any_cons, hp, ih]

namespace Marker

theorem ignoresReturn_opens (hm : IsWord m) : IgnoresReturn (opens m) :=
  ignoresReturn_of_words fun a b h => by rw [opens_eq hm, opens_eq hm, h]

theorem ignoresReturn_isAnchor : IgnoresReturn isAnchor := by
  intro line
  rw [isAnchor, ignoresReturn_opens (by decide), ignoresReturn_opens (by decide), ← isAnchor]

theorem ignoresReturn_occursIn (hm : IsWord m) : IgnoresReturn (occursIn m) :=
  ignoresReturn_of_words fun a b h => by rw [occursIn_eq hm, occursIn_eq hm, h]

theorem ignoresReturn_isPaint : IgnoresReturn isPaint :=
  ignoresReturn_of_words fun a b h => by rw [isPaint_eq, isPaint_eq, h]

end Marker

theorem Region.ignoresReturn_read (r : Region) : IgnoresReturn r.read := by
  apply ignoresReturn_of_words
  intro a b h
  simp only [read, Marker.isPageStart_eq a, Marker.isPageStart_eq b, Marker.isPageEnd_eq a,
    Marker.isPageEnd_eq b, Instruction.label_congr h, h]

namespace Page

theorem ignoresReturn_isBlankText : IgnoresReturn isBlankText :=
  ignoresReturn_of_words fun a b h => by
    rw [Bool.eq_iff_iff, ← words_eq_nil_iff, ← words_eq_nil_iff, h]

theorem ignoresReturn_isClip : IgnoresReturn isClip :=
  ignoresReturn_of_words fun a b h => by rw [isClip, isClip, h]

theorem ignoresReturn_saveDepth : IgnoresReturn saveDepth :=
  ignoresReturn_of_words fun a b h => by rw [saveDepth, saveDepth, countWord, countWord, h]

theorem ignoresReturn_isRestoreOnly : IgnoresReturn isRestoreOnly :=
  ignoresReturn_of_words fun a b h => by rw [isRestoreOnly, isRestoreOnly, h]

end Page

theorem Text.ignoresReturn_trim : IgnoresReturn trim := by
  have hend (t : Text) : trimEnd (t ++ ['\r']) = trimEnd t := by
    have hblank : ∀ c ∈ ['\r'].reverse, isBlank c = true := List.all_eq_true.1 (by decide)
    rw [trimEnd, List.reverse_append, List.dropWhile_append_of_pos hblank, ← trimEnd]
  intro line
  rw [trim, trim, trimStart, addReturn, List.dropWhile_append, ← trimStart]
  split
  · next h =>
    rw [List.isEmpty_iff.1 h]
    rfl
  · exact hend _

theorem lineEnding_addReturn (line : Text) : lineEnding (addReturn line) = ['\r'] := by
  simp [lineEnding, addReturn]

theorem lineEnding_eq_nil (h : '\r' ∉ line) : lineEnding line = [] :=
  if_neg fun hl => h (List.mem_of_getLast? hl)

theorem append_lineEnding_addReturn (h : '\r' ∉ like) (line : Text) :
    line ++ lineEnding (addReturn like) = addReturn (line ++ lineEnding like) := by
  rw [lineEnding_addReturn, lineEnding_eq_nil h, List.append_nil, addReturn]

theorem Marker.lt_of_split {lines : List Text} (hlast : lines.getLast? = some [])
    (hlines : lines = before ++ line :: after) (hne : line ≠ []) :
    before.length + 1 < lines.length := by
  subst hlines
  cases after with
  | nil =>
    rw [List.getLast?_concat, Option.some.injEq] at hlast
    exact (hne hlast).elim
  | cons next after =>
    simp only [List.length_append, List.length_cons]
    omega

theorem Marker.lt_of_findIdx? {p : Text → Bool} {lines : List Text}
    (hlast : lines.getLast? = some []) (hp : p [] = false) (h : lines.findIdx? p = some i) :
    i + 1 < lines.length := by
  obtain ⟨before, line, after, hlines, rfl, hline, -⟩ := split_at_first h
  apply lt_of_split hlast hlines
  rintro rfl
  rw [hp] at hline
  cases hline

theorem headD_drop_mem {lines : List Text} (h : i < lines.length) :
    (lines.drop i).headD [] ∈ lines := by
  rw [List.drop_eq_getElem_cons h, List.headD_cons]
  exact List.getElem_mem h

def isFed (c : Char) : Prop := c ≠ '\n' ∧ c ≠ '\r'

theorem alphabet_isFed : Alphabet isFed := by
  intro c hc
  constructor
  · rintro rfl
    revert hc
    decide
  · rintro rfl
    revert hc
    decide

theorem Over.not_mem_feed (h : Over isFed t) : '\n' ∉ t := fun hm => (h '\n' hm).1 rfl

namespace Document

/-- A document with a carriage return at the end of every line but the last. -/
def returned (d : Document) : Document := ⟨returnLines d.lines⟩

/-- A document with line feeds alone, the last of them at its end. -/
structure Fed (d : Document) : Prop where
  sound : d.Sound isFed
  last : d.lines.getLast? = some []

variable {d : Document}

theorem Fed.not_mem (h : d.Fed) (hl : line ∈ d.lines) : '\r' ∉ line :=
  fun hm => (h.sound.lines_over line hl '\r' hm).2 rfl

theorem returned_insert (d : Document) (hi : i < d.lines.length) (new : List Text) :
    d.returned.insert i (new.map addReturn) = (d.insert i new).returned := by
  have hdrop := drop_ne_nil hi
  rw [insert, insert, returned, returned, take_returnLines hi, drop_returnLines hi,
    List.append_assoc, List.append_assoc,
    returnLines_append _ (List.append_ne_nil_of_right_ne_nil new hdrop), returnLines_append _ hdrop]

theorem getLast?_insert (hi : i < d.lines.length) (new : List Text) :
    (d.insert i new).lines.getLast? = d.lines.getLast? := by
  rw [insert, List.getLast?_append_of_ne_nil _ (drop_ne_nil hi), List.getLast?_drop,
    if_neg (by omega)]

theorem Fed.exists_init (h : d.Fed) :
    ∃ init, d.lines = init ++ [[]] ∧ d.returned.lines = init.map addReturn ++ [[]] ∧
      ∀ line ∈ init, '\r' ∉ line := by
  obtain ⟨init, hlines⟩ := List.getLast?_eq_some_iff.1 h.last
  refine ⟨init, hlines, ?_, fun line hl => h.not_mem (by simp [hlines, hl])⟩
  rw [returned, hlines, returnLines_append init (List.cons_ne_nil [] [])]
  rfl

theorem Fed.insert (h : d.Fed) (hi : i < d.lines.length) (hs : (d.insert i new).Sound isFed) :
    (d.insert i new).Fed :=
  ⟨hs, (getLast?_insert hi new).trans h.last⟩

theorem Fed.map_lineEnding (h : d.Fed) (hi : i + 1 < d.lines.length) (new : List Text) :
    new.map (· ++ lineEnding ((d.returned.lines.drop i).headD [])) =
      (new.map (· ++ lineEnding ((d.lines.drop i).headD []))).map addReturn := by
  have hlike : '\r' ∉ (d.lines.drop i).headD [] := h.not_mem (headD_drop_mem (by omega))
  rw [returned, headD_drop_returnLines hi, List.map_map]
  exact List.map_congr_left fun line _ => append_lineEnding_addReturn hlike line

end Document
end CutPath
