import CutPath.Proofs.Document.Markers
import CutPath.Proofs.Document.Shapes

namespace CutPath
open Text
set_option autoImplicit true

namespace Marker

def bounds (line : Text) : Bool := isPageStart line || isPageEnd line

theorem bounds_eq (line : Text) : bounds line = (words line).any bounds := by
  rw [bounds, isPageStart_eq, isPageEnd_eq, Bool.eq_iff_iff]
  simp only [Bool.or_eq_true, List.any_eq_true, bounds]
  grind

theorem bounds_of_isBlankText (h : isBlankText line = true) : bounds line = false := by
  rw [bounds_eq, words_eq_nil_iff.2 h]
  rfl

end Marker

namespace Label

/-- Whether a line with this label stands between the bounds of a page. -/
def inBody : Label → Bool
  | outsidePage | pageStart | pageEnd => false
  | _ => true

def isSetting : Label → Bool
  | colorSet | cmykSet | graySet | widthSet => true
  | _ => false

theorem inBody_iff (l : Label) :
    l.inBody = true ↔ l ≠ .outsidePage ∧ l ≠ .pageStart ∧ l ≠ .pageEnd := by
  cases l <;> decide

theorem isSetting_eq_false_iff (l : Label) :
    l.isSetting = false ↔ l ≠ .colorSet ∧ l ≠ .cmykSet ∧ l ≠ .graySet ∧ l ≠ .widthSet := by
  cases l <;> decide

end Label

namespace Instruction

theorem isSetting_label (h : (label line).isSetting = true) :
    ∃ count operators, (label line, count, operators) ∈ settings ∧
      IsSetting count operators (words line) := by
  rcases hasShape_label line with hshape | ⟨hother, -⟩
  · rcases hshape.kinds with hsetting | ⟨-, ⟨hl, -⟩ | ⟨hl, -⟩⟩
    · exact hsetting
    · rw [hl] at h
      cases h
    · rw [hl] at h
      cases h
  · rw [hother] at h
    cases h

theorem numeral_of_isSetting (h : (label line).isSetting = true) :
    ∃ n rest, words line = n :: rest ∧ rest ≠ [] ∧ IsNumeral n := by
  obtain ⟨count, operators, hl, numerals, op, hw, hlength, hn, -⟩ := isSetting_label h
  have hpos : 0 < numerals.length := hlength ▸ count_pos_of_settings hl
  obtain ⟨n, numerals, rfl⟩ := List.exists_cons_of_length_pos hpos
  exact ⟨n, numerals ++ [op], hw, by simp, hn n List.mem_cons_self⟩

theorem label_inBody (line : Text) : (label line).inBody = true := by
  rcases label_cases line with hl | ⟨hl, -⟩ | ⟨hl, -⟩ | ⟨hl, -⟩
  · simp only [List.mem_cons, List.not_mem_nil, or_false] at hl
    rcases hl with hl | hl | hl | hl <;> rw [hl] <;> rfl
  all_goals
    rw [hl]
    rfl

end Instruction

namespace Region

/-- Where some lines leave the reader. -/
def after (r : Region) (lines : List Text) : Region := lines.foldl (fun r line => (r.read line).2) r

@[simp] theorem after_nil (r : Region) : r.after [] = r := rfl

@[simp] theorem after_cons (r : Region) (line : Text) (lines : List Text) :
    r.after (line :: lines) = (r.read line).2.after lines := rfl

theorem after_append (r : Region) (a b : List Text) : r.after (a ++ b) = (r.after a).after b :=
  List.foldl_append

@[simp] theorem labels_nil (r : Region) : r.labels [] = [] := rfl

@[simp] theorem labels_cons (r : Region) (line : Text) (lines : List Text) :
    r.labels (line :: lines) = (r.read line).1 :: (r.read line).2.labels lines := rfl

theorem labels_append (r : Region) (a b : List Text) :
    r.labels (a ++ b) = r.labels a ++ (r.after a).labels b := by
  induction a generalizing r with
  | nil => rfl
  | cons line a ih =>
    rw [List.cons_append, labels_cons, ih, labels_cons, List.cons_append, after_cons]

theorem getElem?_labels (r : Region) (lines : List Text) (i : Nat) :
    (r.labels lines)[i]? = lines[i]?.map fun line => ((r.after (lines.take i)).read line).1 := by
  induction lines generalizing r i with
  | nil => rfl
  | cons line lines ih =>
    cases i with
    | zero => rfl
    | succ i =>
      rw [labels_cons, List.getElem?_cons_succ, ih, List.getElem?_cons_succ, List.take_succ_cons,
        after_cons]

/-- A line that bounds a region has the same label everywhere and stands in no page. -/
theorem read_bounds (h : Marker.bounds line = true) (r : Region) :
    (r.read line).1 ∈ [.pageStart, .pageEnd] ∧
      ∀ s : Region, s.read line = r.read line := by
  simp only [Marker.bounds, Bool.or_eq_true] at h
  by_cases hs : Marker.isPageStart line = true
  · simp [read, hs]
  · have he := h.resolve_left hs
    simp [read, hs, he]

theorem read_outside (h : Marker.bounds line = false) :
    outside.read line = (.outsidePage, outside) := by
  simp only [Marker.bounds, Bool.or_eq_false_iff] at h
  simp [read, h.1, h.2]

theorem read_page (h : Marker.bounds line = false) :
    page.read line = (Instruction.label line, page) := by
  simp only [Marker.bounds, Bool.or_eq_false_iff] at h
  simp [read, h.1, h.2]

theorem read_inBody {r : Region} (h : (r.read line).1.inBody = true) :
    r = .page ∧ Marker.bounds line = false := by
  by_cases hb : Marker.bounds line = true
  · have hl := (read_bounds hb r).1
    simp only [List.mem_cons, List.not_mem_nil, or_false] at hl
    rcases hl with hl | hl <;> rw [hl] at h <;> cases h
  · rw [Bool.not_eq_true] at hb
    cases r with
    | outside =>
      rw [read_outside hb] at h
      cases h
    | page => exact ⟨rfl, hb⟩

theorem after_eq_of_bounds_eq_false (r : Region) (h : ∀ line ∈ lines, Marker.bounds line = false) :
    r.after lines = r := by
  induction lines with
  | nil => rfl
  | cons line lines ih =>
    have hl := h line List.mem_cons_self
    have hr := ih fun l hm => h l (List.mem_cons_of_mem line hm)
    rw [after_cons]
    cases r with
    | outside => rw [read_outside hl, hr]
    | page => rw [read_page hl, hr]

end Region
end CutPath
