import CutPath.Proofs.Document.Activation

namespace CutPath
open Text
set_option autoImplicit true

theorem words_call (hc : call = activateColor ∨ call = activateWidth) (line : Text) :
    words (call ++ lineEnding line) = [call] := by
  rw [words_append_lineEnding]
  rcases hc with rfl | rfl <;> decide

namespace Region

/-- On every line between the bounds of a page, strokes stand right after the two calls; `before`
are the words that precede the lines. -/
def Covers (r : Region) (before lines : List Text) : Prop :=
  ∀ u line v, lines = u ++ line :: v → ((r.after u).read line).1.inBody = true →
    Activated (before ++ stream u) line

theorem covers_nil (r : Region) (before : List Text) : r.Covers before [] := by
  intro u line v h
  simp at h

theorem covers_cons_iff {r : Region} : r.Covers before (line :: lines) ↔
    ((r.read line).1.inBody = true → Activated before line) ∧
      (r.read line).2.Covers (before ++ words line) lines := by
  constructor
  · intro h
    refine ⟨fun hl => ?_, fun u l v hu hl => ?_⟩
    · have ha := h [] line lines rfl hl
      rwa [stream_nil, List.append_nil] at ha
    · have ha := h (line :: u) l v (by rw [hu, List.cons_append]) hl
      rwa [stream_cons, ← List.append_assoc] at ha
  · rintro ⟨hhead, htail⟩ u l v hu hl
    cases u with
    | nil =>
      obtain ⟨rfl, rfl⟩ := List.cons.inj hu
      rw [stream_nil, List.append_nil]
      exact hhead hl
    | cons l' u =>
      rw [List.cons_append, List.cons.injEq] at hu
      obtain ⟨rfl, hu⟩ := hu
      rw [stream_cons, ← List.append_assoc]
      exact htail u l v hu hl

theorem Covers.append {r : Region} (ha : r.Covers before a)
    (hb : (r.after a).Covers (before ++ stream a) b) : r.Covers before (a ++ b) := by
  induction a generalizing r before with
  | nil => simpa only [stream_nil, List.append_nil, after_nil, List.nil_append] using hb
  | cons line a ih =>
    rw [covers_cons_iff] at ha
    rw [stream_cons, ← List.append_assoc] at hb
    exact covers_cons_iff.2 ⟨ha.1, ih ha.2 hb⟩

theorem Covers.append_left {r : Region} (h : r.Covers before lines) (a : List Text) :
    r.Covers (a ++ before) lines := by
  intro u line v hu hl
  rw [List.append_assoc]
  exact (h u line v hu hl).append_left a

theorem covers_of_no_stroke (h : ∀ w ∈ stream lines, isStrokeToken w = false) (r : Region)
    (before : List Text) : r.Covers before lines := by
  rintro u line v rfl -
  apply activated_of_no_stroke
  intro w hw
  apply h
  rw [stream_append, stream_cons]
  exact List.mem_append_right _ (List.mem_append_left _ hw)

theorem Covers.of_append {r : Region} (h : r.Covers before (a ++ b)) : r.Covers before a := by
  rintro u line v rfl hl
  exact h u line (v ++ b) (by simp) hl

def mark (r : Region) : List Text → List Text
  | [] => []
  | line :: lines => markLine line (r.read line).1 ++ (r.read line).2.mark lines

theorem mark_append (r : Region) (a b : List Text) :
    r.mark (a ++ b) = r.mark a ++ (r.after a).mark b := by
  induction a generalizing r with
  | nil => rfl
  | cons line a ih => rw [List.cons_append, mark, ih, mark, List.append_assoc, after_cons]

theorem flatMap_zip_labels (r : Region) (lines : List Text) :
    ((lines.zip (r.labels lines)).flatMap fun l => markLine l.1 l.2) = r.mark lines := by
  induction lines generalizing r with
  | nil => rfl
  | cons line lines ih =>
    rw [labels_cons, List.zip_cons_cons, List.flatMap_cons, ih]
    rfl

theorem read_call (hw : words line = [call]) (hc : call = activateColor ∨ call = activateWidth) :
    page.read line = (.other, page) := by
  have hb : Marker.bounds line = false := by
    rw [Marker.bounds_eq, hw]
    rcases hc with rfl | rfl <;> decide
  have hl : words line = words call := by
    rw [hw]
    rcases hc with rfl | rfl <;> decide
  rw [read_page hb, Instruction.label_congr hl]
  rcases hc with rfl | rfl <;> decide

theorem bounds_activateInline (line : Text) :
    Marker.bounds (activateInline line) = Marker.bounds line := by
  rw [Marker.bounds_eq, any_words_activateInline (by decide) (by decide), ← Marker.bounds_eq]

theorem read_activateInline (hb : Marker.bounds line = false) (hw : w ∈ words line)
    (hs : isStrokeToken w = true) :
    page.read (activateInline line) = (.strokeInline, page) := by
  have hm : activateWord w = [activateColor, activateWidth, w] := by rw [activateWord, if_pos hs]
  have hsub : [activateColor, activateWidth, w] ⊆ words (activateInline line) := by
    rw [words_activateInline, ← hm]
    exact fun x hx => List.mem_flatMap_of_mem hw hx
  have ht : isStrokeToken (trim (activateInline line)) = false := by
    rw [← Bool.not_eq_true, Instruction.isStrokeToken_trim_iff]
    rintro ⟨v, hv, hvs⟩
    have hc : activateColor ∈ [v] := hv ▸ hsub List.mem_cons_self
    rw [List.mem_singleton] at hc
    subst hc
    revert hvs
    decide
  have hmem : w ∈ words (activateInline line) := hsub (by simp)
  rw [read_page (by rw [bounds_activateInline, hb]), Instruction.label_of_stroke hmem hs, ht]
  rfl

/-- What marking one line gives: the reader ends where the line left it, and nothing is left that
sets anything or that strokes without the calls. -/
structure Marked (r s : Region) (lines : List Text) : Prop where
  after_eq : r.after lines = s
  not_setting : ∀ label ∈ r.labels lines, label.isSetting = false
  covers : r.Covers [] lines

theorem Marked.nil (r : Region) : Marked r r [] :=
  ⟨rfl, by simp, covers_nil r []⟩

theorem Marked.singleton {r s : Region} (hread : r.read line = (label, s))
    (hsetting : label.isSetting = false)
    (hactivated : label.inBody = true → Activated [] line) : Marked r s [line] := by
  refine ⟨?_, ?_, ?_⟩
  · rw [after_cons, hread, after_nil]
  · intro l hl
    rw [labels_cons, hread, labels_nil, List.mem_singleton] at hl
    rw [hl, hsetting]
  · rw [covers_cons_iff, hread]
    exact ⟨hactivated, covers_nil s _⟩

theorem Marked.append {r s t : Region} (ha : Marked r s a) (hb : Marked s t b) :
    Marked r t (a ++ b) := by
  refine ⟨?_, ?_, ?_⟩
  · rw [after_append, ha.after_eq, hb.after_eq]
  · intro l hl
    rw [labels_append, ha.after_eq] at hl
    rcases List.mem_append.1 hl with hl | hl
    · exact ha.not_setting l hl
    · exact hb.not_setting l hl
  · apply ha.covers.append
    rw [ha.after_eq]
    simpa only [List.append_nil] using hb.covers.append_left ([] ++ stream a)

theorem marked_call (call : Text) (hc : call = activateColor ∨ call = activateWidth)
    (line : Text) : Marked page page [call ++ lineEnding line] := by
  have hw := words_call hc line
  have hs : isStrokeToken call = false := by rcases hc with rfl | rfl <;> decide
  refine .singleton (read_call hw hc) rfl fun _ => activated_of_no_stroke ?_ []
  simpa only [hw, List.mem_singleton, forall_eq] using hs

theorem marked_standalone (hb : Marker.bounds line = false)
    (hl : Instruction.label line = .strokeStandalone) (hw : words line = [w]) :
    Marked page page (markLine line .strokeStandalone) := by
  have hcolor : words (activateColor ++ lineEnding line) = [activateColor] :=
    words_call (.inl rfl) line
  have hwidth : words (activateWidth ++ lineEnding line) = [activateWidth] :=
    words_call (.inr rfl) line
  have hc := (marked_call activateColor (.inl rfl) line).append
    (marked_call activateWidth (.inr rfl) line)
  have hread : page.read line = (.strokeStandalone, page) := by rw [read_page hb, hl]
  refine ⟨?_, ?_, ?_⟩
  · change (page.after ([_] ++ [_])).after [line] = page
    rw [hc.after_eq, after_cons, hread, after_nil]
  · intro l hm
    change l ∈ page.labels (([_] ++ [_]) ++ [line]) at hm
    rw [labels_append, hc.after_eq, labels_cons, hread, List.mem_append] at hm
    rcases hm with hm | hm
    · exact hc.not_setting l hm
    · rw [labels_nil, List.mem_singleton] at hm
      rw [hm]
      rfl
  · apply Covers.append (a := [_] ++ [_]) hc.covers
    rw [hc.after_eq, covers_cons_iff, hread]
    refine ⟨fun _ u v rest hu _ => ?_, covers_nil _ _⟩
    rw [hw, List.cons_eq_append_iff] at hu
    obtain ⟨rfl, -⟩ | ⟨u, rfl, hu⟩ := hu
    · simp only [stream_append, stream_cons, stream_nil, hcolor, hwidth]
      exact List.suffix_rfl
    · simp at hu

theorem marked_markLine (r : Region) (line : Text) :
    Marked r (r.read line).2 (markLine line (r.read line).1) := by
  by_cases hb : Marker.bounds line = true
  · have hl := (read_bounds hb r).1
    simp only [List.mem_cons, List.not_mem_nil, or_false] at hl
    have hm : markLine line (r.read line).1 = [line] := by
      rcases hl with hl | hl <;> rw [hl, markLine]
    have hread : r.read line = ((r.read line).1, (r.read line).2) := rfl
    rw [hm]
    refine .singleton hread ?_ fun h => ?_
    · rcases hl with hl | hl <;> rw [hl] <;> rfl
    · rcases hl with hl | hl <;> rw [hl] at h <;> cases h
  rw [Bool.not_eq_true] at hb
  cases r with
  | outside =>
    have hread := read_outside hb
    rw [hread]
    exact .singleton hread rfl fun h => by cases h
  | page =>
    have hread := read_page hb
    rw [hread]
    rcases Instruction.label_cases line with hl | ⟨hl, w, hw, hs⟩ | ⟨hl, w, hw, hs⟩ | ⟨hl, hs⟩
    · simp only [List.mem_cons, List.not_mem_nil, or_false] at hl
      rcases hl with hl | hl | hl | hl
      case inr.inr.inr =>
        rw [hl]
        exact marked_call activateWidth (.inr rfl) line
      all_goals
        rw [hl]
        exact .nil page
    · rw [hl]
      exact marked_standalone hb hl hw
    · rw [hl]
      exact .singleton (read_activateInline hb hw hs) rfl fun _ => activated_activateInline line
    · rw [hl] at hread ⊢
      exact .singleton hread rfl fun _ => activated_of_no_stroke hs []

theorem marked_mark (r : Region) (lines : List Text) : Marked r (r.after lines) (r.mark lines) := by
  induction lines generalizing r with
  | nil => exact .nil r
  | cons line lines ih => exact (marked_markLine r line).append (ih _)

end Region

namespace Document

theorem lines_markStrokes (d : Document) : d.markStrokes.2.lines = Region.outside.mark d.lines :=
  Region.flatMap_zip_labels Region.outside d.lines

/-- Nothing on the pages of a marked document sets a color, a gray or a width, and every stroke on
them stands right after the two calls, in the words of the document read in order. -/
theorem markStrokes_covers (d : Document) :
    (∀ label ∈ d.markStrokes.2.labels,
      label ≠ .colorSet ∧ label ≠ .cmykSet ∧ label ≠ .graySet ∧ label ≠ .widthSet) ∧
    ∀ i line label, d.markStrokes.2.lines[i]? = some line →
      d.markStrokes.2.labels[i]? = some label →
      label ≠ .outsidePage → label ≠ .pageStart → label ≠ .pageEnd →
      ∀ before stroke rest, words line = before ++ stroke :: rest →
        (stroke = "S".toList ∨ stroke = "stroke".toList) →
        [activateColor, activateWidth] <:+ stream (d.markStrokes.2.lines.take i) ++ before := by
  have h := Region.marked_mark .outside d.lines
  rw [← lines_markStrokes] at h
  constructor
  · intro label hl
    exact label.isSetting_eq_false_iff.1 (h.not_setting label hl)
  · intro i line label hline hlabel ho hps hpe before stroke rest hw hs
    rw [labels, Region.getElem?_labels, hline, Option.map_some, Option.some.injEq] at hlabel
    obtain ⟨hi, rfl⟩ := List.getElem?_eq_some_iff.1 hline
    have hsplit := (List.take_append_drop i d.markStrokes.2.lines).symm
    rw [List.drop_eq_getElem_cons hi] at hsplit
    have hbody := label.inBody_iff.2 ⟨ho, hps, hpe⟩
    have ha := h.covers _ _ _ hsplit (hlabel ▸ hbody)
    refine ha before stroke rest hw ?_
    rcases hs with rfl | rfl <;> decide

end Document
end CutPath
