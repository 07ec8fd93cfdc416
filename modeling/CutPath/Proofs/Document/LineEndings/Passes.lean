import CutPath.Proofs.Document.LineEndings
import CutPath.Proofs.Document.StrokeReport

namespace CutPath
open Text
set_option autoImplicit true

theorem activateInline_addReturn (line : Text) :
    activateInline (addReturn line) = addReturn (activateInline line) := by
  have hs := spaced_words line
  generalize words line = ws at hs
  induction hs with
  | nil => decide
  | @blank c t ws hc _ ih =>
    rw [activateInline_cons_blank hc, addReturn, List.cons_append, activateInline_cons_blank hc,
      ← addReturn, ih]
    rfl
  | @word w t ws hw ht _ ih =>
    have hbreaks : Breaks (addReturn t) := ht.append (breaks_cons (by decide))
    rw [activateInline_append_word hw ht, addReturn, List.append_assoc, ← addReturn,
      activateInline_append_word hw hbreaks, ih]
    split <;> simp only [addReturn, List.append_assoc]

theorem markLine_addReturn (h : '\r' ∉ line) (label : Label) :
    markLine (addReturn line) label = (markLine line label).map addReturn := by
  cases label with
  | strokeInline => rw [markLine, activateInline_addReturn, markLine, List.map_singleton]
  | widthSet => simp only [markLine, append_lineEnding_addReturn h, List.map_singleton]
  | strokeStandalone =>
    simp only [markLine, append_lineEnding_addReturn h, List.map_cons, List.map_nil]
  | colorSet | cmykSet | graySet | outsidePage | pageStart | pageEnd | other => rfl

theorem countLine_addReturn (line : Text) (label : Label) :
    countLine (addReturn line) label = countLine line label := by
  cases label with
  | strokeInline =>
    rw [countLine, inlineStrokes_eq, words_addReturn, ← inlineStrokes_eq, ← countLine]
  | _ => rfl

namespace Region

theorem after_map_addReturn (r : Region) (lines : List Text) :
    r.after (lines.map addReturn) = r.after lines := by
  induction lines generalizing r with
  | nil => rfl
  | cons line lines ih => rw [List.map_cons, after_cons, ih, r.ignoresReturn_read, after_cons]

theorem mark_map_addReturn (r : Region) (h : ∀ line ∈ lines, '\r' ∉ line) :
    r.mark (lines.map addReturn) = (r.mark lines).map addReturn := by
  induction lines generalizing r with
  | nil => rfl
  | cons line lines ih =>
    rw [List.forall_mem_cons] at h
    rw [List.map_cons, mark, r.ignoresReturn_read, markLine_addReturn h.1, ih _ h.2, mark,
      List.map_append]

theorem counts_map_addReturn (r : Region) (lines : List Text) :
    r.counts (lines.map addReturn) = r.counts lines := by
  induction lines generalizing r with
  | nil => rfl
  | cons line lines ih =>
    rw [List.map_cons, counts, r.ignoresReturn_read, countLine_addReturn, ih, counts]

theorem mark_empty (r : Region) : r.mark [[]] = [[]] := by cases r <;> decide

end Region

namespace Document

variable {d : Document}

theorem Fed.returned_annotateHeader (h : d.Fed) (c : SpotColor) :
    d.returned.annotateHeader c = ((d.annotateHeader c).1, (d.annotateHeader c).2.returned) := by
  have hanchor : Marker.headerAnchor? d.returned.lines = Marker.headerAnchor? d.lines :=
    Marker.ignoresReturn_isAnchor.findIdx? d.lines
  have hcustom := Marker.ignoresReturn_occursIn (m := Marker.customColors) (by decide)
  unfold annotateHeader
  rw [hanchor]
  cases hi : Marker.headerAnchor? d.lines with
  | none => rfl
  | some i =>
    have hlt : i + 1 < d.lines.length := Marker.lt_of_findIdx? h.last (by decide) hi
    have hdrop : d.returned.lines.drop i = returnLines (d.lines.drop i) :=
      drop_returnLines (by omega)
    have hnear := hcustom.any_take (d.lines.drop i) headerWindow
    rw [← hdrop] at hnear
    simp only [hnear, h.map_lineEnding hlt, d.returned_insert hlt]
    split <;> rfl

theorem Fed.returned_injectProlog (h : d.Fed) (c : SpotColor) (style : StrokeStyle) :
    d.returned.injectProlog c style =
      ((d.injectProlog c style).1, (d.injectProlog c style).2.returned) := by
  have hprolog : Marker.prologEnd? d.returned.lines = Marker.prologEnd? d.lines :=
    (Marker.ignoresReturn_opens (by decide)).findIdx? d.lines
  have hsetup : Marker.setupBegin? d.returned.lines = Marker.setupBegin? d.lines :=
    (Marker.ignoresReturn_opens (by decide)).findIdx? d.lines
  have hlike {i : Nat} (hlt : i + 1 < d.lines.length) (new : List Text) :
      d.returned.insertLike i new = (d.insertLike i new).returned := by
    rw [insertLike, h.map_lineEnding hlt, d.returned_insert (by omega), insertLike]
  unfold injectProlog prologPlace
  rw [hprolog, hsetup]
  cases hi : Marker.prologEnd? d.lines with
  | some i => exact congrArg _ (hlike (Marker.lt_of_findIdx? h.last (by decide) hi) _)
  | none =>
    cases hi : Marker.setupBegin? d.lines with
    | some i => exact congrArg _ (hlike (Marker.lt_of_findIdx? h.last (by decide) hi) _)
    | none => rfl

theorem Fed.returned_markStrokes (h : d.Fed) :
    d.returned.markStrokes = (d.markStrokes.1, d.markStrokes.2.returned) := by
  -- The last line is empty, so it is marked as it is wherever the others leave the reader.
  obtain ⟨init, hlines, hreturned, hinit⟩ := h.exists_init
  have hcounts : d.returned.markStrokes.1 = d.markStrokes.1 := by
    rw [markStrokes_fst, markStrokes_fst, hreturned, hlines, Region.counts_append,
      Region.counts_append, Region.counts_map_addReturn, Region.after_map_addReturn]
  have hmarked : d.returned.markStrokes.2.lines = returnLines d.markStrokes.2.lines := by
    rw [lines_markStrokes, lines_markStrokes, hreturned, hlines, Region.mark_append,
      Region.mark_append, Region.mark_empty, Region.mark_empty, Region.mark_map_addReturn _ hinit,
      returnLines_append _ (List.cons_ne_nil [] [])]
    rfl
  exact Prod.ext hcounts (congrArg Document.mk hmarked)

theorem Fed.annotateHeader (h : d.Fed) {c : SpotColor} (hc : Over isFed c.name) :
    (d.annotateHeader c).2.Fed := by
  have hsound := h.sound.annotateHeader alphabet_isFed hc
  rcases d.annotateHeader_cases c with ⟨-, hd⟩ | ⟨before, anchor, rest, hlines, hanchor, -, hd⟩
  · rwa [hd]
  · rw [hd] at hsound ⊢
    refine h.insert (Marker.lt_of_split h.last hlines ?_) hsound
    rintro rfl
    revert hanchor
    decide

theorem Fed.injectProlog (h : d.Fed) {c : SpotColor} (hc : Over isFed c.name)
    (style : StrokeStyle) : (d.injectProlog c style).2.Fed := by
  have hsound := h.sound.injectProlog alphabet_isFed hc hc.not_mem_feed style
  rcases d.injectProlog_cases c style with hd | ⟨before, line, rest, hlines, -, hd⟩
  · rwa [hd]
  · rw [hd] at hsound ⊢
    refine h.insert ?_ hsound
    rw [hlines, List.length_append, List.length_cons]
    omega

theorem Fed.markStrokes (h : d.Fed) : d.markStrokes.2.Fed := by
  refine ⟨h.sound.markStrokes alphabet_isFed, ?_⟩
  obtain ⟨init, hlines, -⟩ := h.exists_init
  rw [lines_markStrokes, hlines, Region.mark_append, Region.mark_empty, List.getLast?_concat]

theorem Fed.markCut (h : d.Fed) {c : SpotColor} (hc : Over isFed c.name) (style : StrokeStyle) :
    (d.markCut c style).2.Fed :=
  ((h.annotateHeader hc).injectProlog hc style).markStrokes

/-- The cut pass reports the same of a document with carriage returns, and leaves it with them. -/
theorem Fed.returned_markCut (h : d.Fed) {c : SpotColor} (hc : Over isFed c.name)
    (style : StrokeStyle) :
    d.returned.markCut c style = ((d.markCut c style).1, (d.markCut c style).2.returned) := by
  have hprolog := (h.annotateHeader hc).returned_injectProlog c style
  have hstrokes := ((h.annotateHeader hc).injectProlog hc style).returned_markStrokes
  simp only [Document.markCut, h.returned_annotateHeader, hprolog, hstrokes]

end Document
end CutPath
