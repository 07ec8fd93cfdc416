import CutPath.Proofs.Document.Passes
import CutPath.Proofs.Document.Procedures

namespace CutPath
open Text
set_option autoImplicit true

namespace Marker

theorem isAnchor_of_borne (h : borne line = []) : isAnchor line = false := by
  rw [isAnchor, ← contains_borne (by decide), ← contains_borne (by decide), h]
  rfl

/-- A line that opens with a comment is marked as one line, and opens with the comment still. -/
theorem exists_markLine_of_opens (hm : IsWord m) (hc : '%' ∈ m)
    (hcalls : ∀ w ∈ activateColor :: strokeTokens, m.isPrefixOf w = false) (r : Region)
    (h : opens m line = true) :
    ∃ marked, markLine line (r.read line).1 = [marked] ∧ opens m marked = true := by
  have hsetting : (r.read line).1.isSetting = false := by
    rw [← Bool.not_eq_true]
    intro hs
    have hbody : (r.read line).1.inBody = true := by
      revert hs
      cases (r.read line).1 <;> decide
    obtain ⟨rfl, hb⟩ := Region.read_inBody hbody
    rw [Region.read_page hb] at hs
    rw [Instruction.opens_of_isSetting hm hc hs] at h
    cases h
  cases hl : (r.read line).1 with
  | outsidePage | pageStart | pageEnd | other => exact ⟨line, rfl, h⟩
  | colorSet | cmykSet | graySet | widthSet =>
    rw [hl] at hsetting
    cases hsetting
  | strokeInline => exact ⟨activateInline line, rfl, by rw [opens_activateInline hm hcalls, h]⟩
  | strokeStandalone =>
    have hbody : (r.read line).1.inBody = true := by
      rw [hl]
      rfl
    obtain ⟨rfl, hb⟩ := Region.read_inBody hbody
    rw [Region.read_page hb] at hl
    obtain ⟨w, hw, hs⟩ := Instruction.word_of_standalone hl
    have hprefix := hcalls w (List.mem_cons_of_mem _ (List.contains_iff_mem.1 hs))
    rw [opens_eq hm, hw, List.head?_cons, Option.any_some, hprefix] at h
    cases h

theorem exists_markLine_of_isAnchor (r : Region) (h : isAnchor line = true) :
    ∃ marked, markLine line (r.read line).1 = [marked] ∧ isAnchor marked = true := by
  rw [isAnchor, Bool.or_eq_true] at h
  rcases h with h | h
  · obtain ⟨marked, hmarked, hopens⟩ :=
      exists_markLine_of_opens (by decide) (by decide) (by decide) r h
    exact ⟨marked, hmarked, by rw [isAnchor, hopens, Bool.true_or]⟩
  · obtain ⟨marked, hmarked, hopens⟩ :=
      exists_markLine_of_opens (by decide) (by decide) (by decide) r h
    exact ⟨marked, hmarked, by rw [isAnchor, hopens, Bool.or_true]⟩

theorem isAnchor_mark (r : Region) (h : ∀ line ∈ lines, isAnchor line = false) :
    ∀ line ∈ r.mark lines, isAnchor line = false := by
  have hmarkers : markers (r.mark lines) = markers lines := seesNoMarks.filterMap_mark r lines
  have hbox : ∀ line, opens boundingBox line = (borne line).contains boundingBox :=
    fun line => (contains_borne (by decide) line).symm
  have hlevel : ∀ line, opens languageLevel line = (borne line).contains languageLevel :=
    fun line => (contains_borne (by decide) line).symm
  simp only [isAnchor, Bool.or_eq_false_iff, forall_and] at h ⊢
  rw [forall_markers_iff hbox, forall_markers_iff hlevel] at h ⊢
  rw [hmarkers]
  exact h

end Marker

namespace Document

/-- Directly behind the first line that headers are anchored to, custom colors are declared. -/
def Declared (d : Document) : Prop :=
  ∃ before anchor declaration rest, d.lines = before ++ anchor :: declaration :: rest ∧
    (∀ line ∈ before, Marker.isAnchor line = false) ∧ Marker.isAnchor anchor = true ∧
    Marker.opens Marker.customColors declaration = true

theorem Declared.annotateHeader {d : Document} (h : d.Declared) (c : SpotColor) :
    d.annotateHeader c = (.alreadyPresent, d) := by
  obtain ⟨before, anchor, declaration, rest, hlines, hbefore, hanchor, hdeclared⟩ := h
  have hany : (Marker.headerAnchor? d.lines).isSome := by
    rw [Marker.headerAnchor?, List.findIdx?_isSome, hlines]
    exact List.any_eq_true.2 ⟨anchor, by simp, hanchor⟩
  obtain ⟨i, hi⟩ := Option.isSome_iff_exists.1 hany
  obtain ⟨before', anchor', rest', hlines', rfl, hanchor', hbefore'⟩ := Marker.split_at_first hi
  obtain ⟨rfl, rfl, rfl⟩ :=
    Marker.split_unique (hlines.symm.trans hlines') hanchor hanchor' hbefore hbefore'
  have hnear : ((d.lines.drop before.length).take headerWindow).any
      (occursIn Marker.customColors) = true := by
    rw [hlines, List.drop_left, headerWindow]
    refine List.any_eq_true.2 ⟨declaration, by simp, occursIn_iff.2 ?_⟩
    rw [Marker.opens, List.isPrefixOf_iff_prefix] at hdeclared
    exact hdeclared.isInfix.trans (List.dropWhile_suffix _).isInfix
  rw [Document.annotateHeader, hi]
  simp only [hnear, if_true]

theorem lines_annotateHeader {d : Document} {c : SpotColor}
    (h : (d.annotateHeader c).1 = .inserted i) :
    ∃ before anchor rest, d.lines = before ++ anchor :: rest ∧ Marker.isAnchor anchor = true ∧
      (∀ line ∈ before, Marker.isAnchor line = false) ∧
      (d.annotateHeader c).2.lines =
        before ++ anchor :: (c.headerLines.map (· ++ lineEnding anchor) ++ rest) := by
  rcases d.annotateHeader_cases c with
    ⟨hnone, -⟩ | ⟨before, anchor, rest, hlines, hanchor, hbefore, he⟩
  · exact (hnone i h).elim
  · refine ⟨before, anchor, rest, hlines, hanchor, hbefore, ?_⟩
    rw [he, insert, hlines, List.append_cons, List.take_left' (by simp), List.drop_left' (by simp)]
    simp

theorem opens_declaration (c : SpotColor) (like : Text) :
    Marker.opens Marker.customColors
      (Marker.customColors ++ " (" ++ c.name ++ ")" ++ lineEnding like) = true := by
  have hb : Breaks (" (".toList ++ (c.name ++ ")".toList)) := breaks_cons (by decide)
  rw [Marker.opens_eq (by decide), words_append_lineEnding, List.append_assoc, List.append_assoc,
    words_append_word (by decide) hb, List.head?_cons, Option.any_some]
  exact List.isPrefixOf_iff_prefix.2 List.prefix_rfl

theorem declared_of_inserted {d : Document} {c : SpotColor}
    (h : (d.annotateHeader c).1 = .inserted i) : (d.annotateHeader c).2.Declared := by
  obtain ⟨before, anchor, rest, -, hanchor, hbefore, hlines⟩ := lines_annotateHeader h
  exact ⟨before, anchor, _, _, hlines, hbefore, hanchor, opens_declaration c anchor⟩

theorem Declared.insert {d : Document} (h : d.Declared) (hi : d.lines[i]? = some line)
    (hline : Marker.opens Marker.customColors line = false)
    (hnew : ∀ line ∈ new, Marker.isAnchor line = false) : (d.insert i new).Declared := by
  obtain ⟨before, anchor, declaration, rest, hlines, hbefore, hanchor, hdeclared⟩ := h
  by_cases hle : i ≤ before.length
  · refine ⟨before.take i ++ new ++ before.drop i, anchor, declaration, rest, ?_, ?_, hanchor,
      hdeclared⟩
    · rw [Document.insert, hlines, List.take_append_of_le_length hle,
        List.drop_append_of_le_length hle]
      simp
    · intro line hm
      rw [List.mem_append, List.mem_append] at hm
      rcases hm with (hm | hm) | hm
      · exact hbefore line (List.mem_of_mem_take hm)
      · exact hnew line hm
      · exact hbefore line (List.mem_of_mem_drop hm)
  · obtain ⟨j, rfl⟩ := Nat.exists_eq_add_of_lt (Nat.not_le.1 hle)
    cases j with
    | zero =>
      rw [hlines, List.getElem?_append_right (by omega)] at hi
      have hsame : declaration = line := by simpa using hi
      rw [← hsame, hdeclared] at hline
      cases hline
    | succ j =>
      have hlength :
          before.length + (j + 1) + 1 = (before ++ [anchor, declaration]).length + j := by
        simp only [List.length_append, List.length_cons, List.length_nil]
        omega
      have hcut : d.lines = (before ++ [anchor, declaration]) ++ rest := by
        rw [hlines]
        simp
      refine ⟨before, anchor, declaration, rest.take j ++ new ++ rest.drop j, ?_, hbefore, hanchor,
        hdeclared⟩
      rw [Document.insert, hlength, hcut, List.take_length_add_append, List.drop_length_add_append]
      simp

theorem opens_customColors_of_opens (hm : m ∈ Marker.opening) (h : Marker.opens m line = true) :
    Marker.opens Marker.customColors line = false := by
  have hdistinct : ∀ m ∈ Marker.opening, m.isPrefixOf Marker.customColors = false ∧
      Marker.customColors.isPrefixOf m = false := by decide
  exact Marker.opens_eq_false_of_opens (hdistinct m hm).1 (hdistinct m hm).2 h

theorem Declared.injectProlog {d : Document} (h : d.Declared) {c : SpotColor} (hc : '\n' ∉ c.name)
    (style : StrokeStyle) : (d.injectProlog c style).2.Declared := by
  rcases d.injectProlog_cases c style with hd | ⟨before, line, rest, hlines, hplace, hd⟩
  · rwa [hd]
  · have hmarker : ∃ m ∈ Marker.opening, Marker.opens m line = true := by
      rcases hplace with ⟨-, hopens⟩ | ⟨-, hopens⟩
      · exact ⟨_, by decide, hopens⟩
      · exact ⟨_, by decide, hopens⟩
    obtain ⟨m, hm, hopens⟩ := hmarker
    rw [hd, procedureBlock_eq hc]
    apply h.insert (by simp [hlines]) (opens_customColors_of_opens hm hopens)
    simp only [List.mem_map, forall_exists_index, and_imp, forall_apply_eq_imp_iff₂]
    intro l hl
    apply Marker.isAnchor_of_borne
    rw [Marker.borne_congr_words (words_append_lineEnding l line)]
    exact (procedureLines_inert hc style l hl).2

theorem Declared.markStrokes {d : Document} (h : d.Declared) : d.markStrokes.2.Declared := by
  obtain ⟨before, anchor, declaration, rest, hlines, hbefore, hanchor, hdeclared⟩ := h
  let r := Region.outside.after before
  let s := (r.read anchor).2
  obtain ⟨anchor', hanchor', hkept⟩ := Marker.exists_markLine_of_isAnchor r hanchor
  obtain ⟨declaration', hdeclaration', hopens⟩ :=
    Marker.exists_markLine_of_opens (by decide) (by decide) (by decide) s hdeclared
  refine ⟨Region.outside.mark before, anchor', declaration', (s.read declaration).2.mark rest, ?_,
    Marker.isAnchor_mark _ hbefore, hkept, hopens⟩
  rw [lines_markStrokes, hlines, Region.mark_append, Region.mark, Region.mark, hanchor',
    hdeclaration']
  rfl

theorem Declared.passed {d d' : Document} (h : d.Declared) (hp : Passed d d') : d'.Declared := by
  induction hp with
  | refl => exact h
  | header _ _ ih => rwa [ih.annotateHeader]
  | prolog _ hc ih => exact ih.injectProlog hc _
  | strokes _ ih => exact ih.markStrokes
  | cut _ hc ih =>
    rw [markCut, ih.annotateHeader]
    exact (ih.injectProlog hc _).markStrokes

/-- A color is declared once at most: after a declaration, and whatever passes follow, every other
declaration finds it and leaves the document as it is. -/
theorem annotateHeader_of_passed {d d' : Document} {c : SpotColor}
    (h : (d.annotateHeader c).1 = .inserted i) (hp : Passed (d.annotateHeader c).2 d')
    (c' : SpotColor) : d'.annotateHeader c' = (.alreadyPresent, d') :=
  ((declared_of_inserted h).passed hp).annotateHeader c'

def anchorPage : Document :=
  ⟨["%!PS-Adobe-3.0", "%%Page: 1 1", "%%BoundingBox: 0 0 9 9 S", "%%EndProlog", "S",
    "%%LanguageLevel: 2", "%%Trailer"]⟩

def strokeColor : SpotColor := ⟨"stroke S %%EndProlog", .one, .nan, .zero, .one⟩

theorem annotateHeader_of_passed_anchor :
    (anchorPage.annotateHeader strokeColor).1 = .inserted 2 ∧
    Passed (anchorPage.annotateHeader strokeColor).2
      ((anchorPage.annotateHeader strokeColor).2.markCut strokeColor .hairline).2.markStrokes.2 ∧
    ((anchorPage.annotateHeader strokeColor).2.markCut strokeColor
        .hairline).2.markStrokes.2.annotateHeader .cutContour =
      (.alreadyPresent,
        ((anchorPage.annotateHeader strokeColor).2.markCut strokeColor
          .hairline).2.markStrokes.2) := by
  have hinserted : (anchorPage.annotateHeader strokeColor).1 = .inserted 2 := by decide +kernel
  have hpassed : Passed (anchorPage.annotateHeader strokeColor).2
      ((anchorPage.annotateHeader strokeColor).2.markCut strokeColor .hairline).2.markStrokes.2 :=
    .strokes (.cut .refl (by decide))
  exact ⟨hinserted, hpassed, annotateHeader_of_passed hinserted hpassed .cutContour⟩

end Document
end CutPath
