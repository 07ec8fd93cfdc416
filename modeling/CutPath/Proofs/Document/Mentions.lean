import CutPath.Proofs.Document.CutPass
import CutPath.Proofs.Document.StrokeReport

namespace CutPath
open Text
set_option autoImplicit true

def namesColor (line : Text) : Bool := occursIn SpotColor.cutContourName line

theorem namesColor_eq (line : Text) : namesColor line = (words line).any namesColor :=
  Marker.occursIn_eq (by decide) line

theorem namesColor_congr (h : words a = words b) : namesColor a = namesColor b := by
  rw [namesColor_eq, h, ← namesColor_eq]

theorem namesColor_of_mem_words (hw : w ∈ words line) (h : namesColor w = true) :
    namesColor line = true := by
  rw [namesColor_eq]
  exact List.any_eq_true.2 ⟨w, hw, h⟩

theorem Instruction.namesColor_of_isSetting (h : (label line).isSetting = true) :
    namesColor line = false := by
  have hop : ∀ op ∈ settingOperators, namesColor op = false := by decide
  rw [namesColor_eq, List.any_eq_false]
  intro w hw hname
  rcases mem_words_of_isSetting h hw with hn | hs
  · have hc : isNumeralChar 'C' = true :=
      hn.2 'C' ((occursIn_iff.1 hname).subset List.mem_cons_self)
    revert hc
    decide
  · rw [hop w hs] at hname
    cases hname

namespace Region

/-- Marking a line brings the name in exactly when it marks a stroke. -/
theorem any_namesColor_markLine (r : Region) (line : Text) :
    (markLine line (r.read line).1).any namesColor =
      (namesColor line || decide (0 < (countLine line (r.read line).1).activations)) := by
  have hcolor : ∀ ws, namesColor (activateColor ++ lineEnding ws) = true := fun ws =>
    namesColor_of_mem_words (w := activateColor) (by rw [words_call (.inl rfl)]; simp) (by decide)
  have hwidth : ∀ ws, namesColor (activateWidth ++ lineEnding ws) = false := fun ws => by
    rw [namesColor_congr (words_append_lineEnding activateWidth ws)]
    decide
  by_cases hb : (r.read line).1.inBody = true
  · obtain ⟨rfl, hbounds⟩ := read_inBody hb
    rw [read_page hbounds]
    have hsetting : (Instruction.label line).isSetting = true → namesColor line = false :=
      Instruction.namesColor_of_isSetting
    cases hl : Instruction.label line with
    | colorSet | cmykSet | graySet =>
      rw [hl] at hsetting
      rw [hsetting rfl]
      rfl
    | widthSet =>
      rw [hl] at hsetting
      rw [hsetting rfl, markLine, List.any_cons, hwidth]
      rfl
    | strokeInline =>
      obtain ⟨w, hw, hs⟩ := Instruction.word_of_inline hl
      have hcount : 0 < inlineStrokes line := by
        rw [inlineStrokes_eq, List.countP_pos_iff]
        exact ⟨w, hw, hs⟩
      have hmem : activateColor ∈ words (activateInline line) := by
        rw [words_activateInline]
        refine List.mem_flatMap_of_mem hw ?_
        rw [activateWord, if_pos hs]
        exact List.mem_cons_self
      rw [markLine, List.any_cons, namesColor_of_mem_words hmem (by decide), Bool.true_or,
        countLine, StrokeCounts.activations, decide_eq_true (Nat.lt_of_lt_of_le hcount
          (Nat.le_add_right _ _)), Bool.or_true]
    | strokeStandalone =>
      rw [markLine, List.any_cons, hcolor, Bool.true_or]
      exact (Bool.or_true _).symm
    | outsidePage | pageStart | pageEnd | other =>
      rw [markLine, List.any_cons, List.any_nil]
      rfl
  · cases hl : (r.read line).1 with
    | outsidePage | pageStart | pageEnd =>
      rw [markLine, List.any_cons, List.any_nil]
      rfl
    | colorSet | cmykSet | graySet | widthSet | strokeInline | strokeStandalone | other =>
      rw [hl] at hb
      exact (hb rfl).elim

theorem any_namesColor_mark (r : Region) (lines : List Text) :
    (r.mark lines).any namesColor =
      (lines.any namesColor || decide (0 < (r.counts lines).activations)) := by
  induction lines generalizing r with
  | nil => rfl
  | cons line lines ih =>
    rw [mark, List.any_append, any_namesColor_markLine, ih, List.any_cons, counts,
      StrokeCounts.activations_add, Bool.or_assoc, Bool.or_assoc, Bool.or_left_comm _ (lines.any _),
      ← Bool.decide_or]
    congr 3
    exact propext Nat.add_pos_iff_pos_or_pos.symm

end Region

namespace Document

theorem mentions_eq (d : Document) :
    d.mentions SpotColor.cutContourName = d.lines.any namesColor := rfl

theorem mentions_insert (d : Document) (i : Nat) (new : List Text) :
    (d.insert i new).mentions SpotColor.cutContourName =
      (d.mentions SpotColor.cutContourName || new.any namesColor) := by
  have hlines : d.lines.any namesColor =
      ((d.lines.take i).any namesColor || (d.lines.drop i).any namesColor) := by
    rw [← List.any_append, List.take_append_drop]
  rw [mentions_eq, mentions_eq, insert, List.any_append, List.any_append, hlines,
    Bool.or_right_comm]

theorem mentions_insert_of_any {new : List Text} (h : new.any namesColor = true) (d : Document)
    (i : Nat) (like : Text) :
    (d.insert i (new.map (· ++ lineEnding like))).mentions SpotColor.cutContourName = true := by
  obtain ⟨line, hm, hline⟩ := List.any_eq_true.1 h
  rw [mentions_insert, Bool.or_eq_true, List.any_map, List.any_eq_true]
  refine .inr ⟨line, hm, ?_⟩
  rwa [Function.comp_apply, namesColor_congr (words_append_lineEnding line like)]

theorem mentions_annotateHeader (d : Document) :
    (d.annotateHeader .cutContour).2.mentions SpotColor.cutContourName = true ↔
      d.mentions SpotColor.cutContourName = true ∨
        ∃ i, (d.annotateHeader .cutContour).1 = .inserted i := by
  have hname : SpotColor.cutContour.headerLines.any namesColor = true := by decide +kernel
  rcases d.annotateHeader_cases .cutContour with ⟨hno, hd⟩ | ⟨before, anchor, rest, -, -, -, hd⟩
  · rw [hd]
    exact ⟨.inl, fun h => h.elim id fun ⟨i, hi⟩ => (hno i hi).elim⟩
  · rw [hd, mentions_insert_of_any hname]
    exact ⟨fun _ => .inr ⟨_, rfl⟩, fun _ => rfl⟩

theorem mentions_injectProlog (d : Document) (style : StrokeStyle) :
    (d.injectProlog .cutContour style).2.mentions SpotColor.cutContourName = true ↔
      d.mentions SpotColor.cutContourName = true ∨
        (d.injectProlog .cutContour style).1 ≠ .skipped := by
  have hname : (procedureBlock .cutContour style).any namesColor = true := by
    have hfixed : fixedProcedures.any namesColor = true := by decide +kernel
    rw [procedureBlock_cutContour, procedureLines_cutContour, List.any_append, hfixed, Bool.true_or]
  rcases d.injectProlog_cases .cutContour style with hd | ⟨before, line, rest, -, hplace, hd⟩
  · rw [hd]
    exact ⟨.inl, fun h => h.elim id fun hno => (hno rfl).elim⟩
  · rw [hd, mentions_insert_of_any hname]
    refine ⟨fun _ => .inr ?_, fun _ => rfl⟩
    rcases hplace with ⟨hplace, -⟩ | ⟨hplace, -⟩ <;> rw [hplace] <;> simp

theorem mentions_markStrokes (d : Document) :
    d.markStrokes.2.mentions SpotColor.cutContourName = true ↔
      d.mentions SpotColor.cutContourName = true ∨ 0 < d.markStrokes.1.activations := by
  rw [mentions_eq, lines_markStrokes, Region.any_namesColor_mark, markStrokes_fst, Bool.or_eq_true,
    decide_eq_true_eq, ← mentions_eq]

theorem mentions_markCut (d : Document) (style : StrokeStyle) :
    (d.markCut .cutContour style).2.mentions SpotColor.cutContourName = true ↔
      d.mentions SpotColor.cutContourName = true ∨
        (∃ i, (d.markCut .cutContour style).1.header = .inserted i) ∨
        (d.markCut .cutContour style).1.prolog ≠ .skipped ∨
        0 < (d.markCut .cutContour style).1.strokes.activations := by
  simp only [markCut, mentions_markStrokes, mentions_injectProlog, mentions_annotateHeader,
    or_assoc]

theorem mentions_eq_stream (d : Document) :
    d.mentions SpotColor.cutContourName = (stream d.lines).any namesColor := by
  rw [mentions_eq, stream, List.any_flatMap]
  congr 1
  funext line
  exact namesColor_eq line

/-- What a merge leaves out of the cut document has no words but restores. -/
theorem mentions_merge {print cut m : Document} (h : (print.merge cut).2 = .ok m)
    (hcut : cut.mentions SpotColor.cutContourName = true) :
    m.mentions SpotColor.cutContourName = true := by
  obtain ⟨l⟩ := exists_layout h
  have hrestores : (List.replicate l.cutParts.closed Page.restoreToken).any namesColor = false := by
    rw [List.any_eq_false]
    intro w hw
    rw [(List.mem_replicate.1 hw).2]
    decide
  rw [mentions_eq_stream, l.cut_page.page.lines_eq] at hcut
  rw [mentions_eq_stream, l.lines_eq]
  simp only [stream_append, List.any_append, l.cut_page.fragment.stream_eq, hrestores,
    Bool.or_eq_true, Bool.or_false] at hcut ⊢
  rcases hcut with (hhead | hclip | hfragment) | htail
  · exact .inl (.inl (.inl (.inl (.inl hhead))))
  · exact .inl (.inl (.inl (.inl (.inr hclip))))
  · exact .inl (.inl (.inr hfragment))
  · exact .inr htail

end Document
end CutPath
