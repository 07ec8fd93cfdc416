import CutPath.Proofs.Document.Relabelled

namespace CutPath
open Text
set_option autoImplicit true

namespace Label

def isStroke : Label → Bool
  | strokeInline | strokeStandalone => true
  | _ => false

end Label

namespace Instruction

def settingOperators : List Text :=
  ["rg", "setrgbcolor", "k", "setcmykcolor", "g", "setgray", "w", "setlinewidth"]

theorem mem_words_of_isSetting (h : (label line).isSetting = true) (hw : w ∈ words line) :
    IsNumeral w ∨ w ∈ settingOperators := by
  have hoperators : ∀ s ∈ settings, ∀ op ∈ s.2.2, op ∈ settingOperators := by decide
  obtain ⟨count, operators, hl, numerals, op, he, -, hn, hop⟩ := isSetting_label h
  rw [he, List.mem_append, List.mem_singleton] at hw
  rcases hw with hw | rfl
  · exact .inl (hn w hw)
  · exact .inr (hoperators _ hl w hop)

theorem not_mem_words_of_isSetting (h : (label line).isSetting = true)
    (hw : w.all isNumeralChar = false) (ho : w ∉ settingOperators) : w ∉ words line := by
  intro hm
  rcases mem_words_of_isSetting h hm with hn | hop
  · rw [List.all_eq_true.2 hn.2] at hw
    cases hw
  · exact ho hop

theorem counts_of_isSetting (h : (label line).isSetting = true) :
    (words line).count activateColor = 0 ∧ (words line).count activateWidth = 0 ∧
      (words line).countP isStrokeToken = 0 := by
  refine ⟨?_, ?_, ?_⟩
  · rw [List.count_eq_zero]
    exact not_mem_words_of_isSetting h (by decide) (by decide)
  · rw [List.count_eq_zero]
    exact not_mem_words_of_isSetting h (by decide) (by decide)
  · rw [List.countP_eq_zero]
    intro w hw hs
    have hop : ∀ v ∈ strokeTokens, v.all isNumeralChar = false ∧ v ∉ settingOperators := by decide
    obtain ⟨hnum, hno⟩ := hop w (List.contains_iff_mem.1 hs)
    exact not_mem_words_of_isSetting h hnum hno hw

end Instruction

theorem inlineStrokes_eq (line : Text) :
    inlineStrokes line = (words line).countP isStrokeToken := by
  have hs := spaced_words line
  generalize words line = ws at hs
  induction hs with
  | nil => rfl
  | blank hc _ ih =>
    rw [← ih, inlineStrokes, Segment.ofLine_cons_blank hc]
    rfl
  | word hw ht _ ih =>
    rw [inlineStrokes, Segment.ofLine_append_word hw ht, List.countP_cons, List.countP_cons, ← ih]
    rfl

theorem countP_activateWord (ws : List Text) :
    (ws.flatMap activateWord).countP isStrokeToken = ws.countP isStrokeToken := by
  have hcolor : isStrokeToken activateColor = false := by decide
  have hwidth : isStrokeToken activateWidth = false := by decide
  induction ws with
  | nil => rfl
  | cons w ws ih =>
    rw [List.flatMap_cons, List.countP_append, ih, activateWord, List.countP_cons]
    split
    · next hs => simp [hs, hcolor, hwidth, Nat.add_comm]
    · next hs => simp [hs]

theorem count_activateWord (hc : call = activateColor ∨ call = activateWidth) (ws : List Text) :
    (ws.flatMap activateWord).count call = ws.count call + ws.countP isStrokeToken := by
  have hcalls : [activateColor, activateWidth].count call = 1 := by
    rcases hc with rfl | rfl <;> decide
  have hstroke : isStrokeToken call = false := by rcases hc with rfl | rfl <;> decide
  induction ws with
  | nil => rfl
  | cons w ws ih =>
    rw [List.flatMap_cons, List.count_append, ih, activateWord, List.countP_cons, List.count_cons]
    split
    · next hs =>
      have hne : (w == call) = false := by
        rw [beq_eq_false_iff_ne]
        rintro rfl
        rw [hstroke] at hs
        cases hs
      have hthree : [activateColor, activateWidth, w].count call = 1 := by
        rw [← hcalls, List.count_cons, List.count_cons, List.count_cons, hne]
        simp [List.count_cons]
      rw [hthree, hne]
      simp only [Bool.false_eq_true, ↓reduceIte]
      omega
    · rw [List.count_singleton]
      omega

namespace StrokeCounts

theorem zero_add (s : StrokeCounts) : zero.add s = s := by simp [zero, add]

theorem add_assoc (s t u : StrokeCounts) : (s.add t).add u = s.add (t.add u) := by
  simp [add, Nat.add_assoc]

theorem activations_add (s t : StrokeCounts) :
    (s.add t).activations = s.activations + t.activations := by
  simp only [activations, add]
  omega

theorem add_eq_zero (h : s.add t = zero) : s = zero ∧ t = zero := by
  cases s
  cases t
  simp only [add, zero, mk.injEq] at h ⊢
  omega

end StrokeCounts

/-- What marking some lines is reported as, given the labels of the lines before and after. -/
structure Account (lines marked : List (Text × Label)) (counts : StrokeCounts) : Prop where
  activations : counts.activations = (stream (linesWhere Label.isStroke lines)).countP isStrokeToken
  color : (stream (linesWhere Label.inPage marked)).count activateColor =
    (stream (linesWhere Label.inPage lines)).count activateColor + counts.activations
  width : (stream (linesWhere Label.inPage marked)).count activateWidth =
    (stream (linesWhere Label.inPage lines)).count activateWidth +
      (counts.activations + counts.widthsReplaced)
  outside : linesWhere (!·.inPage) marked = linesWhere (!·.inPage) lines
  strokes : (stream (marked.map Prod.fst)).countP isStrokeToken =
    (stream (lines.map Prod.fst)).countP isStrokeToken
  removed : counts.colorsRemoved ≤ lines.length
  length : marked.length + counts.colorsRemoved = lines.length + 2 * counts.standaloneStrokes

namespace Account

theorem nil : Account [] [] .zero := ⟨rfl, rfl, rfl, rfl, rfl, Nat.le_refl 0, rfl⟩

theorem append (h : Account a a' s) (h' : Account b b' t) :
    Account (a ++ b) (a' ++ b') (s.add t) := by
  have hremoved := h.removed
  have hremoved' := h'.removed
  have hlength := h.length
  have hlength' := h'.length
  refine ⟨?_, ?_, ?_, ?_, ?_, ?_, ?_⟩
  · rw [StrokeCounts.activations_add, h.activations, h'.activations]
    simp
  · rw [StrokeCounts.activations_add]
    simp only [linesWhere_append, stream_append, List.count_append, h.color, h'.color]
    omega
  · rw [StrokeCounts.activations_add]
    simp only [linesWhere_append, stream_append, List.count_append, h.width, h'.width,
      StrokeCounts.add]
    omega
  · rw [linesWhere_append, linesWhere_append, h.outside, h'.outside]
  · simp only [List.map_append, stream_append, List.countP_append, h.strokes, h'.strokes]
  · simp only [StrokeCounts.add, List.length_append]
    omega
  · simp only [StrokeCounts.add, List.length_append]
    omega

/-- A line that stays as it is and is no stroke needs no account. -/
theorem same (line : Text) (hl : label.isStroke = false) :
    Account [(line, label)] [(line, label)] .zero := by
  have hnone : linesWhere Label.isStroke [(line, label)] = [] := by simp [linesWhere, hl]
  refine ⟨?_, rfl, rfl, rfl, rfl, Nat.zero_le 1, rfl⟩
  rw [hnone]
  rfl

theorem dropped (h : (Instruction.label line).isSetting = true) (hp : label.inPage = true)
    (hl : label.isStroke = false) : Account [(line, label)] [] ⟨1, 0, 0, 0⟩ := by
  obtain ⟨hcolor, hwidth, hstroke⟩ := Instruction.counts_of_isSetting h
  have hnone : linesWhere Label.isStroke [(line, label)] = [] := by simp [linesWhere, hl]
  have hline : stream (linesWhere Label.inPage [(line, label)]) = words line := by
    simp [linesWhere, hp]
  refine ⟨?_, ?_, ?_, ?_, ?_, Nat.le_refl 1, rfl⟩
  · rw [hnone]
    rfl
  · rw [hline, hcolor]
    rfl
  · rw [hline, hwidth]
    rfl
  · simp [linesWhere, hp]
  · simp [hstroke]

theorem replaced (h : Instruction.label line = .widthSet) :
    Account [(line, .widthSet)] (relabel line .widthSet) (countLine line .widthSet) := by
  have hsetting : (Instruction.label line).isSetting = true := by rw [h, Label.isSetting]
  obtain ⟨hcolor, hwidth, hstroke⟩ := Instruction.counts_of_isSetting hsetting
  have hcall : words (activateWidth ++ lineEnding line) = [activateWidth] :=
    words_call (.inr rfl) line
  have hmarked : stream ((relabel line .widthSet).map Prod.fst) = [activateWidth] := by
    simp [relabel, hcall]
  have hline : stream (linesWhere Label.inPage [(line, .widthSet)]) = words line := by
    simp [linesWhere, Label.inPage]
  refine ⟨rfl, ?_, ?_, rfl, ?_, Nat.zero_le 1, rfl⟩
  · rw [hline, hcolor]
    exact congrArg (List.count activateColor) hmarked
  · rw [hline, hwidth]
    exact congrArg (List.count activateWidth) hmarked
  · rw [hmarked]
    simp only [List.map_cons, List.map_nil, stream_cons, stream_nil, List.append_nil, hstroke]
    decide

theorem inline (line : Text) :
    Account [(line, .strokeInline)] (relabel line .strokeInline)
      (countLine line .strokeInline) := by
  have hcolor := count_activateWord (.inl rfl) (words line)
  have hwidth := count_activateWord (.inr rfl) (words line)
  have hstroke := countP_activateWord (words line)
  rw [← words_activateInline, ← inlineStrokes_eq] at hcolor hwidth
  rw [← words_activateInline] at hstroke
  refine ⟨?_, ?_, ?_, rfl, ?_, Nat.zero_le 1, rfl⟩
  · simp [linesWhere, countLine, StrokeCounts.activations, Label.isStroke, inlineStrokes_eq]
  · simpa [linesWhere, relabel, countLine, StrokeCounts.activations, Label.inPage] using hcolor
  · simpa [linesWhere, relabel, countLine, StrokeCounts.activations, Label.inPage] using hwidth
  · simpa [relabel] using hstroke

theorem standalone (hw : words line = [w]) (hs : isStrokeToken w = true) :
    Account [(line, .strokeStandalone)] (relabel line .strokeStandalone)
      (countLine line .strokeStandalone) := by
  have hcolor : words (activateColor ++ lineEnding line) = [activateColor] :=
    words_call (.inl rfl) line
  have hwidth : words (activateWidth ++ lineEnding line) = [activateWidth] :=
    words_call (.inr rfl) line
  have hcalls : [activateColor, activateWidth].count activateColor = 1 ∧
      [activateColor, activateWidth].count activateWidth = 1 ∧
      [activateColor, activateWidth].countP isStrokeToken = 0 := by decide
  have hsplit : stream (linesWhere Label.inPage (relabel line .strokeStandalone)) =
      [activateColor, activateWidth] ++ [w] := by
    simp [linesWhere, relabel, Label.inPage, hcolor, hwidth, hw]
  have hline : stream (linesWhere Label.inPage [(line, .strokeStandalone)]) = [w] := by
    simp [linesWhere, Label.inPage, hw]
  refine ⟨?_, ?_, ?_, rfl, ?_, Nat.zero_le 1, rfl⟩
  · simp [linesWhere, countLine, StrokeCounts.activations, Label.isStroke, hw, hs]
  · rw [hsplit, hline, List.count_append, hcalls.1, Nat.add_comm]
    rfl
  · rw [hsplit, hline, List.count_append, hcalls.2.1, Nat.add_comm]
    rfl
  · rw [← Nat.zero_add (List.countP _ (stream (List.map _ [_]))), ← hcalls.2.2,
      ← List.countP_append]
    simp [relabel, hcolor, hwidth, hw]

end Account

namespace Region

theorem account_line (r : Region) (line : Text) :
    Account (r.labelled [line]) (relabel line (r.read line).1)
      (countLine line (r.read line).1) := by
  rw [labelled_cons, labelled_nil]
  by_cases hb : (r.read line).1.inBody = true
  · obtain ⟨rfl, hbounds⟩ := read_inBody hb
    rw [read_page hbounds]
    rcases Instruction.label_cases line with hl | ⟨hl, w, hw, hs⟩ | ⟨hl, -⟩ | ⟨hl, -⟩
    · have hsetting : (Instruction.label line).isSetting = true := by
        revert hl
        cases Instruction.label line <;> decide
      simp only [List.mem_cons, List.not_mem_nil, or_false] at hl
      rcases hl with hl | hl | hl | hl
      case inr.inr.inr =>
        rw [hl]
        exact .replaced hl
      all_goals
        rw [hl]
        exact .dropped hsetting rfl rfl
    · rw [hl]
      exact .standalone hw hs
    · rw [hl]
      exact .inline line
    · rw [hl]
      exact .same line rfl
  · cases hl : (r.read line).1 with
    | outsidePage | pageStart | pageEnd => exact .same line rfl
    | colorSet | cmykSet | graySet | widthSet | strokeInline | strokeStandalone | other =>
      rw [hl] at hb
      exact (hb rfl).elim

def counts (r : Region) : List Text → StrokeCounts
  | [] => .zero
  | line :: lines => (countLine line (r.read line).1).add ((r.read line).2.counts lines)

theorem counts_append (r : Region) (a b : List Text) :
    r.counts (a ++ b) = (r.counts a).add ((r.after a).counts b) := by
  induction a generalizing r with
  | nil => exact (StrokeCounts.zero_add _).symm
  | cons line a ih => rw [List.cons_append, counts, ih, counts, StrokeCounts.add_assoc, after_cons]

theorem foldl_countLine (r : Region) (lines : List Text) (s : StrokeCounts) :
    (r.labelled lines).foldl (fun s l => s.add (countLine l.1 l.2)) s = s.add (r.counts lines) := by
  induction lines generalizing r s with
  | nil => simp [counts, StrokeCounts.add, StrokeCounts.zero]
  | cons line lines ih => rw [labelled_cons, List.foldl_cons, ih, StrokeCounts.add_assoc, counts]

theorem account_mark (r : Region) (lines : List Text) :
    Account (r.labelled lines) (r.labelled (r.mark lines)) (r.counts lines) := by
  induction lines generalizing r with
  | nil => exact .nil
  | cons line lines ih =>
    have h := (r.account_line line).append (ih (r.read line).2)
    rwa [labelled_mark, labelled_cons, List.flatMap_cons, ← labelled_mark]

end Region

namespace Document

theorem markStrokes_fst (d : Document) : d.markStrokes.1 = Region.outside.counts d.lines :=
  (Region.foldl_countLine .outside d.lines .zero).trans (StrokeCounts.zero_add _)

theorem account_markStrokes (d : Document) :
    Account d.labelled d.markStrokes.2.labelled d.markStrokes.1 := by
  have h := Region.account_mark .outside d.lines
  rwa [← lines_markStrokes, ← markStrokes_fst] at h

theorem map_fst_labelled (d : Document) : d.labelled.map Prod.fst = d.lines :=
  Region.map_fst_labelled .outside d.lines

theorem length_labelled (d : Document) : d.labelled.length = d.lines.length := by
  rw [← d.map_fst_labelled, List.length_map]

/-- The report is an exact account of what marking changes: how many strokes it activates, and how
many more calls, strokes and lines there are than before. -/
theorem markStrokes_account (d : Document) :
    d.markStrokes.1.activations =
      (stream (linesWhere Label.isStroke d.labelled)).countP isStrokeToken ∧
    (stream (linesWhere Label.inPage d.markStrokes.2.labelled)).count activateColor =
      (stream (linesWhere Label.inPage d.labelled)).count activateColor +
        d.markStrokes.1.activations ∧
    (stream (linesWhere Label.inPage d.markStrokes.2.labelled)).count activateWidth =
      (stream (linesWhere Label.inPage d.labelled)).count activateWidth +
        (d.markStrokes.1.activations + d.markStrokes.1.widthsReplaced) ∧
    linesWhere (!·.inPage) d.markStrokes.2.labelled = linesWhere (!·.inPage) d.labelled ∧
    (stream d.markStrokes.2.lines).countP isStrokeToken =
      (stream d.lines).countP isStrokeToken ∧
    d.markStrokes.1.colorsRemoved ≤ d.lines.length ∧
    d.markStrokes.2.lines.length =
      d.lines.length - d.markStrokes.1.colorsRemoved + 2 * d.markStrokes.1.standaloneStrokes := by
  have h := d.account_markStrokes
  have hstrokes := h.strokes
  have hremoved := h.removed
  have hlength := h.length
  rw [map_fst_labelled, map_fst_labelled] at hstrokes
  rw [length_labelled] at hremoved
  rw [length_labelled, length_labelled] at hlength
  exact ⟨h.activations, h.color, h.width, h.outside, hstrokes, hremoved, by omega⟩

end Document
end CutPath
