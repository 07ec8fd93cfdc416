import CutPath.Proofs.Document.MarkedStrokes

namespace CutPath
open Text
set_option autoImplicit true

/-- The lines whose labels have a property. -/
def linesWhere (p : Label → Bool) (labelled : List (Text × Label)) : List Text :=
  (labelled.filter fun l => p l.2).map Prod.fst

@[simp] theorem linesWhere_append (p : Label → Bool) (a b : List (Text × Label)) :
    linesWhere p (a ++ b) = linesWhere p a ++ linesWhere p b := by
  simp [linesWhere]

/-- What marking makes of a line with its label: lines, and the labels that these have. -/
def relabel (line : Text) : Label → List (Text × Label)
  | .colorSet | .cmykSet | .graySet => []
  | .widthSet => [(activateWidth ++ lineEnding line, .other)]
  | .strokeInline => [(activateInline line, .strokeInline)]
  | .strokeStandalone =>
    [(activateColor ++ lineEnding line, .other), (activateWidth ++ lineEnding line, .other),
      (line, .strokeStandalone)]
  | label => [(line, label)]

namespace Region

/-- Lines with their labels, for a reader who comes from a region. -/
def labelled (r : Region) (lines : List Text) : List (Text × Label) := lines.zip (r.labels lines)

@[simp] theorem labelled_nil (r : Region) : r.labelled [] = [] := rfl

theorem labelled_cons (r : Region) (line : Text) (lines : List Text) :
    r.labelled (line :: lines) = (line, (r.read line).1) :: (r.read line).2.labelled lines := rfl

theorem labelled_append (r : Region) (a b : List Text) :
    r.labelled (a ++ b) = r.labelled a ++ (r.after a).labelled b := by
  induction a generalizing r with
  | nil => rfl
  | cons line a ih =>
    rw [List.cons_append, labelled_cons, ih, labelled_cons, List.cons_append, after_cons]

theorem length_labels (r : Region) (lines : List Text) :
    (r.labels lines).length = lines.length := by
  induction lines generalizing r with
  | nil => rfl
  | cons line lines ih => rw [labels_cons, List.length_cons, ih, List.length_cons]

theorem map_fst_labelled (r : Region) (lines : List Text) :
    (r.labelled lines).map Prod.fst = lines := by
  rw [labelled, List.map_fst_zip]
  rw [length_labels]

theorem labelled_markLine (r : Region) (line : Text) :
    r.labelled (markLine line (r.read line).1) = relabel line (r.read line).1 := by
  have hsame {label : Label} (hread : (r.read line).1 = label) :
      r.labelled [line] = [(line, label)] := by
    rw [labelled_cons, hread, labelled_nil]
  by_cases hb : (r.read line).1.inBody = true
  · obtain ⟨rfl, hbounds⟩ := read_inBody hb
    have hcall {call : Text} (hc : call = activateColor ∨ call = activateWidth) (rest : List Text) :
        page.labelled ((call ++ lineEnding line) :: rest) =
          (call ++ lineEnding line, .other) :: page.labelled rest := by
      rw [labelled_cons, read_call (words_call hc line) hc]
    cases hl : (page.read line).1 with
    | outsidePage | pageStart | pageEnd =>
      rw [hl] at hb
      cases hb
    | colorSet | cmykSet | graySet => rfl
    | widthSet =>
      rw [markLine, hcall (.inr rfl)]
      rfl
    | strokeInline =>
      rw [read_page hbounds] at hl
      obtain ⟨w, hw, hs⟩ := Instruction.word_of_inline hl
      rw [markLine, labelled_cons, read_activateInline hbounds hw hs]
      rfl
    | strokeStandalone =>
      rw [markLine, hcall (.inl rfl), hcall (.inr rfl), hsame hl]
      rfl
    | other => exact hsame hl
  · rw [Bool.not_eq_true] at hb
    cases hl : (r.read line).1 with
    | outsidePage | pageStart | pageEnd => exact hsame hl
    | colorSet | cmykSet | graySet | widthSet | strokeInline | strokeStandalone | other =>
      rw [hl] at hb
      cases hb

/-- Marked lines have the labels that relabelling each line by itself gives. -/
theorem labelled_mark (r : Region) (lines : List Text) :
    r.labelled (r.mark lines) = (r.labelled lines).flatMap fun l => relabel l.1 l.2 := by
  induction lines generalizing r with
  | nil => rfl
  | cons line lines ih =>
    rw [mark, labelled_append, (marked_markLine r line).after_eq, labelled_markLine, ih,
      labelled_cons, List.flatMap_cons]

end Region

namespace Document

def labelled (d : Document) : List (Text × Label) := d.lines.zip d.labels

theorem labelled_markStrokes (d : Document) :
    d.markStrokes.2.labelled = d.labelled.flatMap fun l => relabel l.1 l.2 := by
  have h := Region.labelled_mark .outside d.lines
  rwa [← lines_markStrokes] at h

end Document
end CutPath
