import Mathlib.Data.List.Basic
import CutPath.Proofs.Document.CutPass
import CutPath.Settings

namespace CutPath
open Text
set_option autoImplicit true

theorem lineEnding_append_lineEnding (h : '\r' ∉ t) (line : Text) :
    lineEnding (t ++ lineEnding line) = lineEnding line := by
  unfold lineEnding
  split
  · simp
  · have hlast : t.getLast? ≠ some '\r' := fun hl => h (List.mem_of_getLast? hl)
    rw [List.append_nil, if_neg hlast]

namespace Region

theorem mark_outside (h : ∀ line ∈ lines, Marker.bounds line = false) :
    outside.mark lines = lines := by
  induction lines with
  | nil => rfl
  | cons line lines ih =>
    rw [mark, read_outside (h line List.mem_cons_self),
      ih fun l hl => h l (List.mem_cons_of_mem line hl)]
    rfl

theorem mark_page (h : ∀ line ∈ lines, Marker.bounds line = false) :
    page.mark lines = lines.flatMap fun line => markLine line (Instruction.label line) := by
  induction lines with
  | nil => rfl
  | cons line lines ih =>
    rw [mark, read_page (h line List.mem_cons_self),
      ih fun l hl => h l (List.mem_cons_of_mem line hl), List.flatMap_cons]

end Region

theorem Landmark.bounds_eq_false (h : ofLine? line = none) : Marker.bounds line = false := by
  rw [← Bool.not_eq_true]
  intro hb
  rw [ofLine?_eq_some (p := fun k => k.starts || k.ends) rfl hb] at h
  cases h

namespace StrokeStyle

theorem words_widthLine (s : StrokeStyle) :
    words s.widthLine = words s.literalWidth ++ ["setlinewidth".toList] := by
  have hblanks : words ("  " ++ s.literalWidth) = words s.literalWidth :=
    (words_cons_blank (by decide) _).trans (words_cons_blank (by decide) _)
  have hword : words "setlinewidth" = ["setlinewidth".toList] := by decide
  rw [← hword, ← hblanks]
  exact words_append_blank (by decide) _ _

theorem sets_widthLine (s : StrokeStyle) (ho : ∀ op ∈ operators, IsWord op)
    (hno : "setlinewidth".toList ∉ operators) :
    Instruction.sets count operators s.widthLine = false := by
  rw [← Bool.not_eq_true, Instruction.sets_iff ho]
  rintro ⟨numerals, op, hw, -, -, hop⟩
  rw [words_widthLine] at hw
  have hlast := List.append_inj_right' hw rfl
  rw [List.singleton_inj] at hlast
  exact hno (hlast ▸ hop)

theorem stroke_widthLine (s : StrokeStyle) : ∀ w ∈ words s.widthLine, isStrokeToken w = false := by
  intro w hw
  rw [← Bool.not_eq_true]
  intro hs
  have hin : w <:+: s.widthLine :=
    (infix_iff_mem_words ((spaced_words _).isWord hw)).2 ⟨w, hw, List.infix_rfl⟩
  have hc : 'S' ∈ w ∨ 'o' ∈ w := by
    rw [isStrokeToken, List.contains_iff_mem, strokeTokens, List.mem_cons, List.mem_singleton] at hs
    rcases hs with rfl | rfl
    · exact .inl (by decide)
    · exact .inr (by decide)
  rcases hc with hc | hc
  · exact s.not_mem_widthLine (by decide) (by decide) (hin.subset hc)
  · exact s.not_mem_widthLine (by decide) (by decide) (hin.subset hc)

theorem label_widthLine (s : StrokeStyle) (h : Instruction.label s.widthLine ≠ .widthSet) :
    Instruction.label s.widthLine = .other := by
  have hcolor : Instruction.sets 3 ["rg", "setrgbcolor"] s.widthLine = false :=
    s.sets_widthLine (by decide) (by decide)
  have hcmyk : Instruction.sets 4 ["k", "setcmykcolor"] s.widthLine = false :=
    s.sets_widthLine (by decide) (by decide)
  have hgray : Instruction.sets 1 ["g", "setgray"] s.widthLine = false :=
    s.sets_widthLine (by decide) (by decide)
  have halone : isStrokeToken (trim s.widthLine) = false := by
    rw [← Bool.not_eq_true, Instruction.isStrokeToken_trim_iff]
    rintro ⟨w, hw, hs⟩
    rw [s.stroke_widthLine w (hw ▸ List.mem_singleton_self w)] at hs
    cases hs
  have hinline : (words s.widthLine).any isStrokeToken = false := by
    rw [List.any_eq_false]
    intro w hw
    rw [s.stroke_widthLine w hw]
    exact Bool.false_ne_true
  rw [Instruction.label, hcolor, hcmyk, hgray, halone, hinline] at h ⊢
  cases hw : Instruction.sets 1 ["w", "setlinewidth"] s.widthLine with
  | true =>
    rw [hw] at h
    exact (h rfl).elim
  | false => rfl

end StrokeStyle

/-- The procedures of the fixed color as marking leaves them where it reads in a region. -/
def keptProcedures (r : Region) (style : StrokeStyle) : List Text :=
  if r = .page ∧ Instruction.label style.widthLine = .widthSet then
    fixedProcedures ++ activateWidth :: [("\x7d def" : Text), []]
  else procedureLines .cutContour style

theorem label_fixedProcedures :
    ∀ line ∈ fixedProcedures ++ [("\x7d def" : Text), []], Instruction.label line = .other := by
  have h : (fixedProcedures ++ [("\x7d def" : Text), []]).all
      (fun line => decide (Instruction.label line = .other)) = true := by decide +kernel
  intro line hm
  exact of_decide_eq_true (List.all_eq_true.1 h line hm)

/-- Where marking reads in a region, it leaves the procedures up to the line that sets the width. -/
theorem mark_procedures (r : Region) (style : StrokeStyle) (like : Text) :
    r.after ((procedureLines .cutContour style).map (· ++ lineEnding like)) = r ∧
    r.mark ((procedureLines .cutContour style).map (· ++ lineEnding like)) =
      (keptProcedures r style).map (· ++ lineEnding like) := by
  have hbounds : ∀ line ∈ (procedureLines .cutContour style).map (· ++ lineEnding like),
      Marker.bounds line = false := by
    intro _ hm
    obtain ⟨line, hl, rfl⟩ := List.mem_map.1 hm
    rw [Marker.bounds_eq, words_append_lineEnding, ← Marker.bounds_eq]
    exact Landmark.bounds_eq_false (procedureLines_plain style line hl).2
  refine ⟨Region.after_eq_of_bounds_eq_false r hbounds, ?_⟩
  cases r with
  | outside => rw [Region.mark_outside hbounds, keptProcedures, if_neg fun h => nomatch h.1]
  | page =>
    have hlabel (line : Text) :
        Instruction.label (line ++ lineEnding like) = Instruction.label line :=
      Instruction.label_congr (words_append_lineEnding line like)
    have hfixed {lines : List Text} (hl : lines ⊆ fixedProcedures ++ [("\x7d def" : Text), []]) :
        (lines.map (· ++ lineEnding like)).flatMap
          (fun line => markLine line (Instruction.label line)) =
            lines.map (· ++ lineEnding like) := by
      rw [List.flatMap_map, List.map_eq_flatMap]
      apply List.flatMap_congr
      intro line hm
      rw [hlabel, label_fixedProcedures line (hl hm)]
      rfl
    rw [Region.mark_page hbounds, keptProcedures, procedureLines_cutContour, List.map_append,
      List.map_cons, List.flatMap_append, List.flatMap_cons, hfixed (List.subset_append_left _ _),
      hfixed (List.subset_append_right _ _), hlabel]
    split
    · next hw =>
      have hreturn : '\r' ∉ style.widthLine := style.not_mem_widthLine (by decide) (by decide)
      rw [hw.2, markLine, lineEnding_append_lineEnding hreturn, List.map_append, List.map_cons]
      rfl
    · next hw =>
      rw [style.label_widthLine fun hl => hw ⟨rfl, hl⟩, List.map_append, List.map_cons]
      rfl

namespace Document

theorem markStrokes_injectProlog {d : Document}
    (h : (d.injectProlog .cutContour style).1 = .beforePrologEnd i ∨
      (d.injectProlog .cutContour style).1 = .beforeSetup i) :
    ∃ before marker rest, d.lines = before ++ marker :: rest ∧ before.length = i ∧
      (d.injectProlog .cutContour style).2.markStrokes.2.lines = Region.outside.mark before ++
        ((keptProcedures (Region.outside.after before) style).map (· ++ lineEnding marker) ++
          (Region.outside.after before).mark (marker :: rest)) := by
  rcases d.injectProlog_cases .cutContour style with
    hskipped | ⟨before, marker, rest, hlines, hplace, hinject⟩
  · rw [hskipped] at h
    rcases h with h | h <;> cases h
  · have hlength : before.length = i := by
      rw [hinject] at h
      rcases hplace with ⟨hplace, -⟩ | ⟨hplace, -⟩ <;> simpa [hplace] using h
    obtain ⟨hafter, hmark⟩ := mark_procedures (Region.outside.after before) style marker
    refine ⟨before, marker, rest, hlines, hlength, ?_⟩
    rw [lines_markStrokes, hinject, insert, hlines, List.take_left, List.drop_left,
      procedureBlock_cutContour, List.append_assoc, Region.mark_append, Region.mark_append, hafter,
      hmark]

/-- The procedures stand where they were put, as marking leaves them there: the whole block, unless
the reader stands on a page and the width is written as a numeral without an exponent. -/
theorem markCut_procedures {d : Document} {style : StrokeStyle} {i : Nat}
    (h : (d.markCut .cutContour style).1.prolog = .beforePrologEnd i ∨
      (d.markCut .cutContour style).1.prolog = .beforeSetup i) :
    ∃ before marker rest, (d.annotateHeader .cutContour).2.lines = before ++ marker :: rest ∧
      before.length = i ∧
      (d.markCut .cutContour style).2.lines = Region.outside.mark before ++
        ((keptProcedures (Region.outside.after before) style).map (· ++ lineEnding marker) ++
          (Region.outside.after before).mark (marker :: rest)) ∧
      (Region.outside.after before = .outside ∨ Instruction.label style.widthLine ≠ .widthSet →
        keptProcedures (Region.outside.after before) style = procedureBlock .cutContour style) := by
  obtain ⟨before, marker, rest, hlines, hlen, hmarked⟩ := markStrokes_injectProlog h
  refine ⟨before, marker, rest, hlines, hlen, hmarked, fun hr => ?_⟩
  rw [procedureBlock_cutContour, keptProcedures, if_neg]
  rintro ⟨hp, hw⟩
  rcases hr with hr | hr
  · rw [hr] at hp
    cases hp
  · exact hr hw

def prologPage : Document :=
  ⟨["%!PS-Adobe-3.0", "%%BoundingBox: 0 0 9 9", "%%EndProlog\r", "%%Page: 1 1", "1 w", "S",
    "showpage"]⟩

def embeddedPage : Document :=
  ⟨["%!PS-Adobe-3.0", "%%BoundingBox: 0 0 9 9", "%%EndComments", "%%Page: 1 1",
    "%%BeginDocument: logo.eps", "%!PS-Adobe-3.0 EPSF-3.0", "%%BoundingBox: 0 0 9 9",
    "%%EndComments", "%%BeginProlog", "%%EndProlog", "0 0 m 9 9 l S", "%%EndDocument", "showpage",
    "%%Trailer", "%%EOF"]⟩

theorem markCut_procedures_prolog :
    (prologPage.markCut .cutContour .hairline).1.prolog = .beforePrologEnd 4 ∧
      (procedureBlock .cutContour .hairline).map (· ++ ['\r']) <:+:
        (prologPage.markCut .cutContour .hairline).2.lines := by
  have h : (prologPage.markCut .cutContour .hairline).1.prolog = .beforePrologEnd 4 := by
    decide +kernel
  obtain ⟨before, marker, rest, hlines, hlen, hmarked, hkept⟩ := markCut_procedures (.inl h)
  have hplace : (prologPage.annotateHeader .cutContour).2.lines =
      (["%!PS-Adobe-3.0", "%%BoundingBox: 0 0 9 9", "%%DocumentCustomColors: (CutContour)",
        "%%CMYKCustomColor: 0.00 1.00 0.00 0.00 (CutContour)"] : List Text) ++
          "%%EndProlog\r".toList :: (["%%Page: 1 1", "1 w", "S", "showpage"] : List Text) := by
    decide +kernel
  obtain ⟨rfl, hrest⟩ := List.append_inj (hlines.symm.trans hplace) hlen
  obtain ⟨rfl, rfl⟩ := List.cons.inj hrest
  refine ⟨h, ?_⟩
  rw [hmarked, hkept (.inl (by decide))]
  exact ⟨_, _, (List.append_assoc _ _ _)⟩

/-- On a page the block loses the line that sets the width. -/
theorem markCut_procedures_embedded :
    Settings.default.check = .ok () ∧ Settings.default.stroke = .hairline ∧
    (embeddedPage.markCut .cutContour .hairline).1.prolog = .beforePrologEnd 11 ∧
    (embeddedPage.annotateHeader .cutContour).2.lines[11]? = some "%%EndProlog".toList ∧
    ¬ (procedureBlock .cutContour .hairline).map (· ++ lineEnding "%%EndProlog") <:+:
      (embeddedPage.markCut .cutContour .hairline).2.lines := by
  have hwidth : Settings.default.strokeWidth.isPositive = true := by decide
  have htag : Settings.default.regionTag.isEmpty = false := by decide +kernel
  have hcheck : Settings.default.check = .ok () := by
    rw [Settings.check, hwidth, htag]
    rfl
  have hblock : "  0.25 setlinewidth".toList ∈
      (procedureBlock .cutContour .hairline).map (· ++ lineEnding "%%EndProlog") := by
    decide +kernel
  have hlines : "  0.25 setlinewidth".toList ∉
      (embeddedPage.markCut .cutContour .hairline).2.lines := by decide +kernel
  exact ⟨hcheck, rfl, by decide +kernel, by decide +kernel, fun h => hlines (h.subset hblock)⟩

end Document
end CutPath
