import CutPath.Proofs.Decimal.Characters
import CutPath.Proofs.Document.Landmarks

namespace CutPath
open Text
set_option autoImplicit true

namespace Instruction

theorem opens_of_isSetting (hm : IsWord m) (hc : '%' ∈ m) (h : (label line).isSetting = true) :
    Marker.opens m line = false := by
  obtain ⟨n, rest, hw, -, hn⟩ := numeral_of_isSetting h
  rw [Marker.opens_eq hm, hw, List.head?_cons, Option.any_some, ← Bool.not_eq_true,
    List.isPrefixOf_iff_prefix]
  intro hp
  have hpercent : isNumeralChar '%' = true := hn.2 '%' (hp.subset hc)
  revert hpercent
  decide

theorem isPaint_of_isSetting (h : (label line).isSetting = true) :
    Marker.isPaint line = false := by
  obtain ⟨n, rest, hw, hne, -⟩ := numeral_of_isSetting h
  rw [Marker.isPaint_eq, hw, beq_eq_false_iff_ne]
  intro he
  exact hne (List.cons.inj he).2

end Instruction

/-- A view of lines to which marking strokes makes no difference: the calls do not show, lines that
set something do not show either, and a line with calls in front of its strokes looks as before. -/
structure SeesNoMarks (view : Text → Option κ) : Prop where
  call : ∀ line, words line = [activateColor] ∨ words line = [activateWidth] → view line = none
  setting : ∀ line, Marker.bounds line = false → (Instruction.label line).isSetting = true →
    view line = none
  inline : ∀ line, view (activateInline line) = view line

namespace SeesNoMarks

variable {view : Text → Option κ}

theorem filterMap_markLine (hv : SeesNoMarks view) (r : Region) (line : Text) :
    (markLine line (r.read line).1).filterMap view = [line].filterMap view := by
  have hcolor : view (activateColor ++ lineEnding line) = none :=
    hv.call _ (.inl (words_call (.inl rfl) line))
  have hwidth : view (activateWidth ++ lineEnding line) = none :=
    hv.call _ (.inr (words_call (.inr rfl) line))
  have hsetting : (r.read line).1.isSetting = true → view line = none := by
    intro h
    have hbody : (r.read line).1.inBody = true := by
      revert h
      cases (r.read line).1 <;> decide
    obtain ⟨rfl, hb⟩ := Region.read_inBody hbody
    rw [Region.read_page hb] at h
    exact hv.setting line hb h
  cases hl : (r.read line).1 with
  | outsidePage | pageStart | pageEnd | other => rfl
  | colorSet | cmykSet | graySet =>
    rw [hl] at hsetting
    rw [markLine, List.filterMap_cons_none (hsetting rfl)]
  | widthSet =>
    rw [hl] at hsetting
    rw [markLine, List.filterMap_cons_none hwidth, List.filterMap_cons_none (hsetting rfl)]
  | strokeInline => rw [markLine, List.filterMap_cons, List.filterMap_cons, hv.inline]
  | strokeStandalone =>
    rw [markLine, List.filterMap_cons_none hcolor, List.filterMap_cons_none hwidth]

theorem filterMap_mark (hv : SeesNoMarks view) (r : Region) (lines : List Text) :
    (r.mark lines).filterMap view = lines.filterMap view := by
  induction lines generalizing r with
  | nil => rfl
  | cons line lines ih =>
    rw [Region.mark, List.filterMap_append, filterMap_markLine hv, ih, ← List.filterMap_append,
      List.singleton_append]

end SeesNoMarks

theorem Landmark.seesNoMarks : SeesNoMarks ofLine? where
  call := by
    rintro line (h | h)
    · rw [ofLine?_congr (b := activateColor) (by rw [h]; decide)]
      decide
    · rw [ofLine?_congr (b := activateWidth) (by rw [h]; decide)]
      decide
  setting := by
    intro line hb h
    have hopens : Marker.opens Marker.endPageSetup line = false :=
      Instruction.opens_of_isSetting (by decide) (by decide) h
    have hpaint : Marker.isPaint line = false := Instruction.isPaint_of_isSetting h
    simp only [Marker.bounds, Bool.or_eq_false_iff] at hb
    apply ofLine?_eq_none
    rw [ofLine, hopens, hpaint, hb.1, hb.2]
    rfl
  inline := by
    intro line
    have hstart : Marker.isPageStart (activateInline line) = Marker.isPageStart line := by
      rw [Marker.isPageStart_eq, any_words_activateInline (by decide) (by decide),
        ← Marker.isPageStart_eq]
    have hend : Marker.isPageEnd (activateInline line) = Marker.isPageEnd line := by
      rw [Marker.isPageEnd_eq, any_words_activateInline (by decide) (by decide),
        ← Marker.isPageEnd_eq]
    have hopens :=
      Marker.opens_activateInline (m := Marker.endPageSetup) (by decide) (by decide) line
    rw [ofLine?, ofLine?, ofLine, hopens, Marker.isPaint_activateInline, hstart, hend, ← ofLine]

namespace Landmark

theorem ofLine?_eq_none_of_chars (hcomment : '%' ∉ line) (hpaint : 'o' ∉ line) :
    ofLine? line = none := by
  apply ofLine?_eq_none
  rw [ofLine, Marker.opens_eq_false (by decide) hcomment,
    Marker.isPaint_eq_false (by decide) hpaint, Marker.isPageStart, Marker.isPageEnd,
    Marker.occursIn_eq_false (m := Marker.page) (by decide) hcomment,
    Marker.occursIn_eq_false (m := Marker.beginPageSetup) (by decide) hcomment,
    Marker.occursIn_eq_false (m := Marker.trailer) (by decide) hcomment,
    Marker.occursIn_eq_false (m := Marker.endOfFile) (by decide) hcomment]
  rfl

end Landmark

namespace StrokeStyle

def widthLine (s : StrokeStyle) : Text := "  " ++ s.literalWidth ++ " setlinewidth"

theorem mem_widthLine {s : StrokeStyle} (h : c ∈ s.widthLine) :
    Decimal.isNumberChar c = true ∨ c ∈ " setlinewidth".toList := by
  rw [widthLine, List.mem_append, List.mem_append] at h
  rcases h with (h | h) | h
  · have hall : "  ".toList.all (" setlinewidth".toList.contains ·) = true := by decide
    exact .inr (List.contains_iff_mem.1 (List.all_eq_true.1 hall c h))
  · exact .inl (Decimal.Format.all_write numeral s.width c h)
  · exact .inr h

theorem not_mem_widthLine (s : StrokeStyle) (hn : Decimal.isNumberChar c = false)
    (hw : " setlinewidth".toList.contains c = false) : c ∉ s.widthLine := by
  intro h
  rcases mem_widthLine h with h | h
  · rw [hn] at h
    cases h
  · rw [List.contains_iff_mem.2 h] at hw
    cases hw

end StrokeStyle

def fixedProcedures : List Text :=
  (procedureLines .cutContour .hairline).dropLast.dropLast.dropLast

theorem procedureLines_cutContour (style : StrokeStyle) :
    procedureLines .cutContour style =
      fixedProcedures ++ style.widthLine :: [("\x7d def" : Text), []] := rfl

theorem procedureLines_plain (style : StrokeStyle) :
    ∀ line ∈ procedureLines .cutContour style, '\n' ∉ line ∧ Landmark.ofLine? line = none := by
  have hfixed : (fixedProcedures ++ [("\x7d def" : Text), []]).all
      (fun line => decide ('\n' ∉ line) && (Landmark.ofLine? line).isNone) = true := by
    decide +kernel
  simp only [List.all_eq_true, Bool.and_eq_true, decide_eq_true_eq, Option.isNone_iff_eq_none]
    at hfixed
  intro line hm
  rw [procedureLines_cutContour, List.mem_append, List.mem_cons] at hm
  rcases hm with hm | rfl | hm
  · exact hfixed line (List.mem_append_left _ hm)
  · exact ⟨style.not_mem_widthLine (by decide) (by decide), Landmark.ofLine?_eq_none_of_chars
      (style.not_mem_widthLine (by decide) (by decide))
      (style.not_mem_widthLine (by decide) (by decide))⟩
  · exact hfixed line (List.mem_append_right _ hm)

theorem procedureBlock_of_not_mem (h : ∀ line ∈ procedureLines c style, '\n' ∉ line) :
    procedureBlock c style = procedureLines c style := by
  have hsplit : ∀ line ∈ procedureLines c style, Document.splitLines line = [line] :=
    fun line hm => List.splitOn_eq_singleton (h line hm)
  rw [procedureBlock, List.flatMap_def, List.map_congr_left hsplit, ← List.flatMap_def,
    List.flatMap_singleton']

theorem procedureBlock_cutContour (style : StrokeStyle) :
    procedureBlock .cutContour style = procedureLines .cutContour style :=
  procedureBlock_of_not_mem fun line hm => (procedureLines_plain style line hm).1

namespace Document

theorem filterMap_insert {view : Text → Option κ} (h : ∀ line ∈ new, view line = none)
    (d : Document) (i : Nat) : (d.insert i new).lines.filterMap view = d.lines.filterMap view := by
  rw [insert, List.filterMap_append, List.filterMap_append, List.filterMap_eq_nil_iff.2 h,
    List.append_nil, ← List.filterMap_append, List.take_append_drop]

/-- A declaration goes behind the first line that headers are anchored to, or nowhere. -/
theorem annotateHeader_cases (d : Document) (c : SpotColor) :
    ((∀ i, (d.annotateHeader c).1 ≠ .inserted i) ∧ (d.annotateHeader c).2 = d) ∨
      ∃ before anchor rest, d.lines = before ++ anchor :: rest ∧ Marker.isAnchor anchor = true ∧
        (∀ line ∈ before, Marker.isAnchor line = false) ∧
        d.annotateHeader c = (.inserted before.length,
          d.insert (before.length + 1) (c.headerLines.map (· ++ lineEnding anchor))) := by
  unfold annotateHeader
  split
  · exact .inl ⟨by simp, rfl⟩
  next hanchor =>
  dsimp only
  split
  · exact .inl ⟨by simp, rfl⟩
  · obtain ⟨before, anchor, rest, hlines, rfl, hline, hbefore⟩ := Marker.split_at_first hanchor
    refine .inr ⟨before, anchor, rest, hlines, hline, hbefore, ?_⟩
    rw [hlines, List.drop_left, List.headD_cons]

theorem injectProlog_cases (d : Document) (c : SpotColor) (style : StrokeStyle) :
    d.injectProlog c style = (.skipped, d) ∨
      ∃ before line rest, d.lines = before ++ line :: rest ∧
        (d.prologPlace = .beforePrologEnd before.length ∧
            Marker.opens Marker.endProlog line = true ∨
          d.prologPlace = .beforeSetup before.length ∧
            Marker.opens Marker.beginSetup line = true) ∧
        d.injectProlog c style = (d.prologPlace,
          d.insert before.length ((procedureBlock c style).map (· ++ lineEnding line))) := by
  have hlike {before rest : List Text} {line : Text} (hlines : d.lines = before ++ line :: rest) :
      d.insertLike before.length (procedureBlock c style) =
        d.insert before.length ((procedureBlock c style).map (· ++ lineEnding line)) := by
    rw [insertLike, hlines, List.drop_left, List.headD_cons]
  unfold injectProlog prologPlace
  cases hprolog : Marker.prologEnd? d.lines with
  | some i =>
    obtain ⟨before, line, rest, hlines, rfl, hline, -⟩ := Marker.split_at_first hprolog
    exact .inr ⟨before, line, rest, hlines, .inl ⟨rfl, hline⟩, congrArg _ (hlike hlines)⟩
  | none =>
    cases hsetup : Marker.setupBegin? d.lines with
    | some i =>
      obtain ⟨before, line, rest, hlines, rfl, hline, -⟩ := Marker.split_at_first hsetup
      exact .inr ⟨before, line, rest, hlines, .inr ⟨rfl, hline⟩, congrArg _ (hlike hlines)⟩
    | none => exact .inl rfl

theorem ofLines_insert {new : List Text} (h : ∀ line ∈ new, Landmark.ofLine? line = none)
    (d : Document) (i : Nat) (like : Text) :
    Landmark.ofLines (d.insert i (new.map (· ++ lineEnding like))).lines =
      Landmark.ofLines d.lines := by
  apply filterMap_insert
  simp only [List.mem_map, forall_exists_index, and_imp, forall_apply_eq_imp_iff₂]
  intro line hm
  rw [Landmark.ofLine?_congr (words_append_lineEnding line like), h line hm]

theorem ofLines_annotateHeader (d : Document) :
    Landmark.ofLines (d.annotateHeader .cutContour).2.lines = Landmark.ofLines d.lines := by
  have hplain : SpotColor.cutContour.headerLines.all
      (fun line => (Landmark.ofLine? line).isNone) = true := by decide +kernel
  simp only [List.all_eq_true, Option.isNone_iff_eq_none] at hplain
  rcases d.annotateHeader_cases .cutContour with ⟨-, h⟩ | ⟨before, anchor, rest, -, -, -, h⟩
  · rw [h]
  · rw [h, ofLines_insert hplain]

theorem ofLines_injectProlog (d : Document) (style : StrokeStyle) :
    Landmark.ofLines (d.injectProlog .cutContour style).2.lines = Landmark.ofLines d.lines := by
  rcases d.injectProlog_cases .cutContour style with h | ⟨before, like, rest, -, -, h⟩
  · rw [h]
  · rw [h, procedureBlock_cutContour]
    exact ofLines_insert (fun line hm => (procedureLines_plain style line hm).2) d _ like

theorem ofLines_markStrokes (d : Document) :
    Landmark.ofLines d.markStrokes.2.lines = Landmark.ofLines d.lines := by
  rw [lines_markStrokes]
  exact Landmark.seesNoMarks.filterMap_mark .outside d.lines

/-- The cut pass leaves the landmarks of every document as they are. -/
theorem ofLines_markCut (d : Document) (style : StrokeStyle) :
    Landmark.ofLines (d.markCut .cutContour style).2.lines = Landmark.ofLines d.lines := by
  rw [markCut, ofLines_markStrokes, ofLines_injectProlog, ofLines_annotateHeader]

end Document
end CutPath
