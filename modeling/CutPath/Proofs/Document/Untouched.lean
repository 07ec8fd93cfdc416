import CutPath.Proofs.Document.StrokeReport

namespace CutPath
open Text
set_option autoImplicit true

theorem filter_relabel (line : Text) (label : Label) :
    ((relabel line label).filter fun l => !l.2.inBody) =
      [(line, label)].filter fun l => !l.2.inBody := by
  cases label <;> rfl

theorem filter_flatMap_relabel (labelled : List (Text × Label)) :
    ((labelled.flatMap fun l => relabel l.1 l.2).filter fun l => !l.2.inBody) =
      labelled.filter fun l => !l.2.inBody := by
  simp only [List.filter_flatMap, filter_relabel]
  rw [← List.filter_flatMap, List.flatMap_singleton']

theorem linesWhere_other_relabel (line : Text) (label : Label) :
    (linesWhere (· == .other) [(line, label)]).Sublist ((relabel line label).map Prod.fst) := by
  cases label
  case other => exact List.Sublist.refl _
  all_goals exact List.nil_sublist _

theorem linesWhere_other_sublist (labelled : List (Text × Label)) :
    (linesWhere (· == .other) labelled).Sublist
      ((labelled.flatMap fun l => relabel l.1 l.2).map Prod.fst) := by
  induction labelled with
  | nil => exact List.nil_sublist _
  | cons l labelled ih =>
    rw [← List.singleton_append, linesWhere_append, List.flatMap_append, List.flatMap_singleton,
      List.map_append]
    exact (linesWhere_other_relabel l.1 l.2).append ih

namespace Region

/-- A line of which nothing is counted stays as it is: a line that is labelled for the strokes on it
has one. -/
theorem markLine_of_countLine_eq_zero {r : Region} (h : countLine line (r.read line).1 = .zero) :
    markLine line (r.read line).1 = [line] := by
  cases hl : (r.read line).1 with
  | outsidePage | pageStart | pageEnd | other => rfl
  | colorSet | cmykSet | graySet | widthSet | strokeStandalone =>
    rw [hl] at h
    cases h
  | strokeInline =>
    have hbody : (r.read line).1.inBody = true := by
      rw [hl]
      rfl
    obtain ⟨rfl, hb⟩ := read_inBody hbody
    have hlabel := hl
    rw [read_page hb] at hlabel
    obtain ⟨w, hw, hs⟩ := Instruction.word_of_inline hlabel
    have hpos : 0 < inlineStrokes line := by
      rw [inlineStrokes_eq, List.countP_pos_iff]
      exact ⟨w, hw, hs⟩
    rw [hl, countLine, StrokeCounts.zero, StrokeCounts.mk.injEq] at h
    omega

theorem mark_of_counts_eq_zero {r : Region} (h : r.counts lines = .zero) :
    r.mark lines = lines := by
  induction lines generalizing r with
  | nil => rfl
  | cons line lines ih =>
    obtain ⟨hline, hlines⟩ := StrokeCounts.add_eq_zero h
    rw [mark, markLine_of_countLine_eq_zero hline, ih hlines]
    rfl

end Region

/-- An account of lines that did not change is empty: the calls tell strokes and widths, and then
the number of lines tells colors. -/
theorem Account.eq_zero (h : Account lines lines counts) : counts = .zero := by
  have hcolor := h.color
  have hwidth := h.width
  have hlength := h.length
  have hactivations : counts.activations = counts.inlineStrokes + counts.standaloneStrokes := rfl
  cases counts
  simp only [StrokeCounts.zero, StrokeCounts.mk.injEq] at hcolor hwidth hlength hactivations ⊢
  omega

namespace Document

theorem markStrokes_eq_self_iff (d : Document) :
    d.markStrokes.2 = d ↔ d.markStrokes.1 = .zero := by
  constructor
  · intro h
    have ha := d.account_markStrokes
    rw [h] at ha
    exact ha.eq_zero
  · intro h
    rw [markStrokes_fst] at h
    have hlines := Region.mark_of_counts_eq_zero h
    rw [← lines_markStrokes] at hlines
    exact congrArg Document.mk hlines

/-- Marking touches nothing but instructions: the lines that stand in no page or bound one are the
same as before, with their labels, the lines of pages that are no instructions come through in
order, and a document stays as it is exactly when nothing is reported. -/
theorem markStrokes_frame (d : Document) :
    (d.markStrokes.2.labelled.filter fun l => !l.2.inBody) =
      (d.labelled.filter fun l => !l.2.inBody) ∧
    (linesWhere (· == .other) d.labelled).Sublist d.markStrokes.2.lines ∧
    (d.markStrokes.2 = d ↔ d.markStrokes.1 = .zero) := by
  refine ⟨?_, ?_, d.markStrokes_eq_self_iff⟩
  · rw [labelled_markStrokes, filter_flatMap_relabel]
  · rw [← map_fst_labelled d.markStrokes.2, labelled_markStrokes]
    exact linesWhere_other_sublist d.labelled

end Document
end CutPath
