import Mathlib.Logic.Function.Iterate
import CutPath.Proofs.Document.StrokeReport

namespace CutPath
open Text
set_option autoImplicit true

def calls (n : Nat) : List Text := (List.replicate n [activateColor, activateWidth]).flatten

theorem calls_succ (n : Nat) : calls (n + 1) = [activateColor, activateWidth] ++ calls n := by
  rw [calls, List.replicate_succ, List.flatten_cons, calls]

theorem calls_succ_last (n : Nat) : calls (n + 1) = calls n ++ [activateColor, activateWidth] := by
  rw [calls, List.replicate_succ', List.flatten_append, List.flatten_singleton, calls]

theorem mem_calls (h : call ∈ calls n) : call = activateColor ∨ call = activateWidth := by
  obtain ⟨pair, hp, hc⟩ := List.mem_flatten.1 h
  rw [(List.mem_replicate.1 hp).2] at hc
  simpa using hc

theorem stroke_of_mem_calls (h : call ∈ calls n) : isStrokeToken call = false := by
  rcases mem_calls h with rfl | rfl <;> decide

/-- The words that a word of a line with strokes has become after so many passes. -/
def activateTimes (n : Nat) (w : Text) : List Text :=
  if isStrokeToken w then calls n ++ [w] else [w]

theorem activateTimes_succ (n : Nat) (w : Text) :
    (activateTimes n w).flatMap activateWord = activateTimes (n + 1) w := by
  unfold activateTimes
  split
  · next hs =>
    have hcalls : (calls n).flatMap activateWord = calls n := by
      have h : ∀ call ∈ calls n, activateWord call = [call] := by
        intro call hc
        rw [activateWord, stroke_of_mem_calls hc]
        rfl
      rw [List.flatMap_def, List.map_congr_left h, ← List.flatMap_def, List.flatMap_singleton']
    rw [List.flatMap_append, hcalls, List.flatMap_singleton, activateWord, if_pos hs,
      calls_succ_last, List.append_assoc]
    rfl
  · next hs => rw [List.flatMap_singleton, activateWord, if_neg hs]

theorem words_iterate_activateInline (n : Nat) (line : Text) :
    words (activateInline^[n] line) = (words line).flatMap (activateTimes n) := by
  induction n with
  | zero =>
    have h : activateTimes 0 = fun w => [w] := by
      funext w
      unfold activateTimes
      split <;> rfl
    rw [h, List.flatMap_singleton']
    rfl
  | succ n ih =>
    rw [Function.iterate_succ_apply', words_activateInline, ih, List.flatMap_assoc]
    simp only [activateTimes_succ]

theorem eq_of_concat_eq {l : List α} (h : l ++ [x] = a ++ y :: b) (hy : y ∉ l) : a = l := by
  rcases List.eq_nil_or_concat b with rfl | ⟨b, z, rfl⟩
  · exact (List.append_inj' h rfl).1.symm
  · rw [List.concat_eq_append, ← List.cons_append, ← List.append_assoc] at h
    rw [(List.append_inj' h rfl).1] at hy
    simp at hy

theorem activateTimes_split (h : activateTimes n w = a ++ stroke :: b)
    (hs : isStrokeToken stroke = true) : a = calls n := by
  have hcalls : stroke ∉ calls n := by
    intro hc
    rw [stroke_of_mem_calls hc] at hs
    cases hs
  unfold activateTimes at h
  split at h
  · exact eq_of_concat_eq h hcalls
  · next hw =>
    rw [List.singleton_eq_append_iff] at h
    rcases h with ⟨-, h⟩ | ⟨-, h⟩
    · rw [(List.cons.inj h).1] at hs
      exact absurd hs hw
    · cases h

/-- The calls in front of a line with a lone stroke, each on a line of its own. -/
def callLines (n : Nat) (line : Text) : List (Text × Label) :=
  (calls n).map fun call => (call ++ lineEnding line, .other)

theorem stream_callLines (n : Nat) (line : Text) :
    stream ((callLines n line).map Prod.fst) = calls n := by
  have h : ∀ call ∈ calls n, words (call ++ lineEnding line) = [call] :=
    fun call hc => words_call (mem_calls hc) line
  rw [callLines, List.map_map, stream, List.flatMap_map, List.flatMap_def]
  exact (congrArg List.flatten (List.map_congr_left h)).trans (List.flatMap_singleton' _)

/-- What a line with its label has become after so many passes. -/
def relabelTimes (n : Nat) (line : Text) : Label → List (Text × Label)
  | .strokeInline => [(activateInline^[n] line, .strokeInline)]
  | .strokeStandalone => callLines n line ++ [(line, .strokeStandalone)]
  | label => if n = 0 then [(line, label)] else relabel line label

theorem relabelTimes_zero (line : Text) (label : Label) :
    relabelTimes 0 line label = [(line, label)] := by
  cases label <;> rfl

theorem relabelTimes_succ (n : Nat) (line : Text) (label : Label) :
    (relabelTimes n line label).flatMap (fun l => relabel l.1 l.2) =
      relabelTimes (n + 1) line label := by
  cases label with
  | strokeInline =>
    rw [relabelTimes, List.flatMap_singleton, relabelTimes, Function.iterate_succ_apply']
    rfl
  | strokeStandalone =>
    have hcalls : (callLines n line).flatMap (fun l => relabel l.1 l.2) = callLines n line := by
      rw [callLines, List.flatMap_map]
      exact (List.map_eq_flatMap ..).symm
    rw [relabelTimes, List.flatMap_append, hcalls, relabelTimes, callLines, callLines,
      calls_succ_last, List.map_append, List.append_assoc]
    rfl
  | outsidePage | pageStart | pageEnd | colorSet | cmykSet | graySet | widthSet | other =>
    cases n <;> rfl

namespace StrokeCounts

/-- What a further pass has to report: there is nothing left to remove or to replace. -/
def strokesOnly (s : StrokeCounts) : StrokeCounts := ⟨0, 0, s.inlineStrokes, s.standaloneStrokes⟩

end StrokeCounts

theorem inlineStrokes_activateInline (line : Text) :
    inlineStrokes (activateInline line) = inlineStrokes line := by
  rw [inlineStrokes_eq, inlineStrokes_eq, words_activateInline, countP_activateWord]

namespace Region

theorem label_of_mem_labelled {r : Region} (h : (line, label) ∈ r.labelled lines)
    (hb : label.inBody = true) : label = Instruction.label line := by
  induction lines generalizing r with
  | nil => cases h
  | cons first lines ih =>
    rw [labelled_cons] at h
    rcases List.mem_cons.1 h with he | h
    · obtain ⟨rfl, rfl⟩ := Prod.mk.inj he
      obtain ⟨rfl, hbounds⟩ := read_inBody hb
      rw [read_page hbounds]
    · exact ih h

theorem counts_eq (r : Region) (lines : List Text) :
    r.counts lines = (r.labelled lines).foldl (fun s l => s.add (countLine l.1 l.2)) .zero := by
  rw [foldl_countLine, StrokeCounts.zero_add]

theorem counts_markLine (r : Region) (line : Text) :
    r.counts (markLine line (r.read line).1) = (countLine line (r.read line).1).strokesOnly := by
  rw [counts_eq, labelled_markLine]
  cases (r.read line).1 with
  | strokeInline =>
    rw [relabel, List.foldl_cons, List.foldl_nil, StrokeCounts.zero_add, countLine,
      inlineStrokes_activateInline]
    rfl
  | outsidePage | pageStart | pageEnd | colorSet | cmykSet | graySet | widthSet
  | strokeStandalone | other => rfl

theorem counts_mark (r : Region) (lines : List Text) :
    r.counts (r.mark lines) = (r.counts lines).strokesOnly := by
  induction lines generalizing r with
  | nil => rfl
  | cons line lines ih =>
    rw [mark, counts_append, counts_markLine, (marked_markLine r line).after_eq, ih]
    rfl

end Region

/-- Every call of the spot color has a stroke after it. -/
def Spent (ws : List Text) : Prop :=
  ∀ a b, ws = a ++ activateColor :: b → ∃ w ∈ b, isStrokeToken w = true

namespace Spent

theorem of_not_mem (h : activateColor ∉ ws) : Spent ws := by
  rintro a b rfl
  simp at h

theorem append (hs : Spent ws) (ht : Spent vs) : Spent (ws ++ vs) := by
  intro a b h
  rcases List.append_eq_append_iff.1 h with ⟨more, rfl, hvs⟩ | ⟨more, rfl, hcons⟩
  · exact ht more b hvs
  · cases more with
    | nil => exact ht [] b hcons.symm
    | cons call more =>
      obtain ⟨rfl, rfl⟩ := List.cons.inj hcons
      obtain ⟨w, hw, hstroke⟩ := hs a more rfl
      exact ⟨w, List.mem_append_left _ hw, hstroke⟩

theorem flatMap {l : List α} {f : α → List Text} (h : ∀ x ∈ l, Spent (f x)) :
    Spent (l.flatMap f) := by
  induction l with
  | nil => exact of_not_mem List.not_mem_nil
  | cons x l ih =>
    rw [List.flatMap_cons]
    exact (h x List.mem_cons_self).append (ih fun y hy => h y (List.mem_cons_of_mem x hy))

theorem calls_stroke (n : Nat) (hs : isStrokeToken w = true) : Spent (calls n ++ [w]) := by
  intro a b h
  rcases List.eq_nil_or_concat b with rfl | ⟨b, v, rfl⟩
  · obtain ⟨-, he⟩ := List.append_inj' h rfl
    cases he
    revert hs
    decide
  · rw [List.concat_eq_append, ← List.cons_append, ← List.append_assoc] at h
    obtain ⟨-, he⟩ := List.append_inj' h rfl
    cases he
    exact ⟨w, by rw [List.concat_eq_append]; exact List.mem_append_right _ List.mem_cons_self, hs⟩

theorem activateTimes (hw : w ≠ activateColor) (n : Nat) : Spent (activateTimes n w) := by
  unfold CutPath.activateTimes
  split
  · next hs => exact calls_stroke n hs
  · exact of_not_mem fun h => hw (List.mem_singleton.1 h).symm

/-- Where every call is spent, a pair of calls stands nowhere but right before a stroke. -/
theorem not_calls (h : Spent ws) (n : Nat) : ¬ calls (n + 1) <:+ ws ++ calls n := by
  rintro ⟨a, ha⟩
  rw [calls_succ, ← List.append_assoc] at ha
  obtain ⟨w, hw, hs⟩ := h a [activateWidth] (List.append_cancel_right ha).symm
  rw [List.mem_singleton.1 hw] at hs
  revert hs
  decide

end Spent

theorem exists_of_flatMap_eq {f : α → List β} (h : l.flatMap f = a ++ x :: b) :
    ∃ l₁ y l₂ u v, l = l₁ ++ y :: l₂ ∧ f y = u ++ x :: v ∧ a = l₁.flatMap f ++ u := by
  induction l generalizing a with
  | nil => simp at h
  | cons y l ih =>
    rw [List.flatMap_cons] at h
    rcases List.append_eq_append_iff.1 h with ⟨more, rfl, hmore⟩ | ⟨more, hy, hcons⟩
    · obtain ⟨l₁, z, l₂, u, v, rfl, hz, rfl⟩ := ih hmore
      exact ⟨y :: l₁, z, l₂, u, v, rfl, hz, by rw [List.flatMap_cons, List.append_assoc]⟩
    · cases more with
      | nil =>
        obtain ⟨l₁, z, l₂, u, v, rfl, hz, hnil⟩ := ih (a := []) hcons.symm
        refine ⟨y :: l₁, z, l₂, u, v, rfl, hz, ?_⟩
        rw [List.flatMap_cons, List.append_assoc, ← hnil, hy, List.append_nil, List.append_nil]
      | cons x' more =>
        obtain ⟨rfl, -⟩ := List.cons.inj hcons
        exact ⟨[], y, l, a, more, rfl, hy, rfl⟩

theorem flatMap_singleton_if {p : α → Bool} {f : α → β} (l : List α) :
    (l.flatMap fun x => if p x then [f x] else []) = (l.filter p).map f := by
  induction l with
  | nil => rfl
  | cons x l ih =>
    rw [List.flatMap_cons, List.filter_cons, ih]
    split <;> rfl

def strokeTimes (n : Nat) (l : Text × Label) : Text × Label :=
  (if l.2 = .strokeInline then activateInline^[n] l.1 else l.1, l.2)

theorem filter_relabelTimes (n : Nat) (line : Text) (label : Label) :
    (relabelTimes n line label).filter (fun l => l.2.isStroke) =
      if label.isStroke then [strokeTimes n (line, label)] else [] := by
  cases label with
  | strokeInline => rfl
  | strokeStandalone =>
    have hcalls : (callLines n line).filter (fun l => l.2.isStroke) = [] := by
      rw [List.filter_eq_nil_iff]
      intro l hl
      obtain ⟨call, -, rfl⟩ := List.mem_map.1 hl
      exact Bool.false_ne_true
    rw [relabelTimes, List.filter_append, hcalls]
    rfl
  | outsidePage | pageStart | pageEnd | colorSet | cmykSet | graySet | widthSet | other =>
    cases n <;> rfl

theorem calls_of_relabelTimes (hl : label.inBody = true → label = Instruction.label source)
    (h : relabelTimes n source label = u ++ (line, mark) :: v) (hm : mark.isStroke = true)
    (hw : words line = before ++ stroke :: rest) (hs : isStrokeToken stroke = true) :
    ∃ p, stream (u.map Prod.fst) ++ before = p ++ calls n ∧
      (activateColor ∉ words source → Spent p) := by
  have hmem : (line, mark) ∈ (relabelTimes n source label).filter (fun l => l.2.isStroke) := by
    rw [h]
    exact List.mem_filter.2 ⟨by simp, hm⟩
  rw [filter_relabelTimes] at hmem
  cases label with
  | strokeInline =>
    obtain ⟨rfl, he⟩ | ⟨u', rfl, he⟩ := List.append_eq_cons_iff.1 h.symm
    · cases he
      rw [words_iterate_activateInline] at hw
      obtain ⟨ws, w, ws', a, b, hws, hword, rfl⟩ := exists_of_flatMap_eq hw
      refine ⟨ws.flatMap (activateTimes n), ?_, fun hc => .flatMap fun w hw => .activateTimes ?_ n⟩
      · rw [activateTimes_split hword hs]
        rfl
      · rintro rfl
        exact hc (hws ▸ List.mem_append_left _ hw)
    · simp at he
  | strokeStandalone =>
    obtain ⟨hline, hmark⟩ := Prod.mk.inj (List.mem_singleton.1 hmem)
    change line = source at hline
    change mark = .strokeStandalone at hmark
    have hcalls : (line, mark) ∉ callLines n source := by
      rw [hmark]
      intro hc
      obtain ⟨call, -, hc⟩ := List.mem_map.1 hc
      cases (Prod.mk.inj hc).2
    have hu : u = callLines n source := eq_of_concat_eq h hcalls
    obtain ⟨w, hone, -⟩ := Instruction.word_of_standalone (hl rfl).symm
    have hb : before = [] := by
      rw [hline, hone] at hw
      cases before with
      | nil => rfl
      | cons v before => simp at hw
    refine ⟨[], ?_, fun _ => .of_not_mem List.not_mem_nil⟩
    rw [hu, hb, stream_callLines, List.append_nil, List.nil_append]
  | outsidePage | pageStart | pageEnd | colorSet | cmykSet | graySet | widthSet | other =>
    cases hmem

theorem spent_relabelTimes (hl : label.inBody = true → label = Instruction.label line)
    (hc : activateColor ∉ words line) (n : Nat) :
    Spent (stream ((relabelTimes n line label).map Prod.fst)) := by
  have hsame (label : Label) : Spent (stream ([(line, label)].map Prod.fst)) :=
    .of_not_mem (by simpa [stream] using hc)
  cases label with
  | strokeInline =>
    change Spent (words _ ++ [])
    rw [List.append_nil, words_iterate_activateInline]
    exact .flatMap fun w hw => .activateTimes (fun he => hc (he ▸ hw)) n
  | strokeStandalone =>
    obtain ⟨w, hw, hs⟩ := Instruction.word_of_standalone (hl rfl).symm
    rw [relabelTimes, List.map_append, stream_append, stream_callLines]
    change Spent (_ ++ (words line ++ []))
    rw [hw]
    exact .calls_stroke n hs
  | outsidePage | pageStart | pageEnd | other => cases n <;> exact hsame _
  | colorSet | cmykSet | graySet =>
    cases n with
    | zero => exact hsame _
    | succ n => exact .of_not_mem List.not_mem_nil
  | widthSet =>
    cases n with
    | zero => exact hsame _
    | succ n =>
      change Spent (words _ ++ [])
      rw [words_call (.inr rfl)]
      exact .of_not_mem (by decide)

namespace Document

def marked (d : Document) : Nat → Document
  | 0 => d
  | n + 1 => (d.marked n).markStrokes.2

theorem labelled_marked (d : Document) (n : Nat) :
    (d.marked n).labelled = d.labelled.flatMap fun l => relabelTimes n l.1 l.2 := by
  induction n with
  | zero =>
    simp only [relabelTimes_zero]
    exact (List.flatMap_singleton' _).symm
  | succ n ih =>
    rw [marked, labelled_markStrokes, ih, List.flatMap_assoc]
    simp only [relabelTimes_succ]

theorem markStrokes_marked (d : Document) (n : Nat) :
    (d.marked (n + 1)).markStrokes.1 = d.markStrokes.1.strokesOnly := by
  have hstep (d : Document) : d.markStrokes.2.markStrokes.1 = d.markStrokes.1.strokesOnly := by
    rw [markStrokes_fst, markStrokes_fst, lines_markStrokes, Region.counts_mark]
  induction n with
  | zero => exact hstep d
  | succ n ih => rw [marked, hstep, ih]; rfl

theorem label_of_mem_labelled {d : Document} (h : (line, label) ∈ d.labelled)
    (hb : label.inBody = true) : label = Instruction.label line :=
  Region.label_of_mem_labelled (r := .outside) h hb

/-- Marking strokes again and again. From the second pass on there is nothing to remove, and the
strokes are those of the first pass; lines with strokes keep their kinds; and in front of each
stroke of a page stand as many pairs of calls as there were passes, and not one more in a document
that did not call the spot color. -/
theorem markStrokes_repeated (d : Document) (n : Nat) :
    (d.marked (n + 1)).markStrokes.1 =
      ⟨0, 0, d.markStrokes.1.inlineStrokes, d.markStrokes.1.standaloneStrokes⟩ ∧
    (d.marked n).labelled.filter (fun l => l.2.isStroke) =
      (d.labelled.filter fun l => l.2.isStroke).map (strokeTimes n) ∧
    ∀ i line label, (d.marked n).lines[i]? = some line → (d.marked n).labels[i]? = some label →
      label ≠ .outsidePage → label ≠ .pageStart → label ≠ .pageEnd →
      ∀ before stroke rest, words line = before ++ stroke :: rest →
        (stroke = "S".toList ∨ stroke = "stroke".toList) →
        calls n <:+ stream ((d.marked n).lines.take i) ++ before ∧
        (activateColor ∉ stream d.lines →
          ¬ calls (n + 1) <:+ stream ((d.marked n).lines.take i) ++ before) := by
  refine ⟨d.markStrokes_marked n, ?_, ?_⟩
  · rw [labelled_marked, List.filter_flatMap]
    simp only [filter_relabelTimes]
    exact flatMap_singleton_if d.labelled
  intro i line label hline hlabel ho hps hpe before stroke rest hw hs
  have hstroke : isStrokeToken stroke = true := by rcases hs with rfl | rfl <;> decide
  have hbody := label.inBody_iff.2 ⟨ho, hps, hpe⟩
  have hget : (d.marked n).labelled[i]? = some (line, label) :=
    List.getElem?_zip_eq_some.2 ⟨hline, hlabel⟩
  have hkind : label.isStroke = true := by
    rw [label_of_mem_labelled (List.mem_of_getElem? hget) hbody,
      Instruction.label_of_stroke (hw ▸ by simp) hstroke]
    split <;> rfl
  obtain ⟨hi, hat⟩ := List.getElem?_eq_some_iff.1 hget
  have hsplit := (List.take_append_drop i (d.marked n).labelled).symm
  rw [List.drop_eq_getElem_cons hi, hat, labelled_marked] at hsplit
  obtain ⟨l₁, source, l₂, u, v, hsource, hparts, htake⟩ := exists_of_flatMap_eq hsplit
  have hlabel' {l : Text × Label} (hl : l ∈ d.labelled) (hb : l.2.inBody = true) :
      l.2 = Instruction.label l.1 := label_of_mem_labelled hl hb
  have hword {l : Text × Label} (hc : activateColor ∉ stream d.lines) (hl : l ∈ d.labelled) :
      activateColor ∉ words l.1 := by
    have hline : l.1 ∈ d.lines := d.map_fst_labelled ▸ List.mem_map_of_mem hl
    exact fun hw => hc (List.mem_flatMap.2 ⟨l.1, hline, hw⟩)
  have hmem : source ∈ d.labelled := hsource ▸ by simp
  have hbefore : stream ((d.marked n).lines.take i) =
      (l₁.flatMap fun l => stream ((relabelTimes n l.1 l.2).map Prod.fst)) ++
        stream (u.map Prod.fst) := by
    rw [← map_fst_labelled, ← List.map_take, labelled_marked, htake, List.map_append, stream_append]
    simp only [stream, List.map_flatMap, List.flatMap_assoc]
  obtain ⟨p, hp, hspent⟩ := calls_of_relabelTimes (hlabel' hmem) hparts hkind hw hstroke
  rw [hbefore, List.append_assoc, hp, ← List.append_assoc]
  refine ⟨List.suffix_append _ _, fun hc => Spent.not_calls (.append (.flatMap ?_) (hspent ?_)) n⟩
  · intro l hl
    have hl : l ∈ d.labelled := hsource ▸ List.mem_append_left _ hl
    exact spent_relabelTimes (hlabel' hl) (hword hc hl) n
  · exact hword hc hmem

def strokesPage : Document :=
  ⟨["%%Page: 1 1", "1 0 0 rg", "0 0 m 9 9 l S 0 9 l S", "S", "%%Trailer"]⟩

theorem markStrokes_repeated_page :
    (strokesPage.marked 2).lines[6]? = some "S".toList ∧
      (strokesPage.marked 2).labels[6]? = some .strokeStandalone ∧
      activateColor ∉ stream strokesPage.lines ∧
      calls 2 <:+ stream ((strokesPage.marked 2).lines.take 6) ++ [] ∧
      ¬ calls 3 <:+ stream ((strokesPage.marked 2).lines.take 6) ++ [] := by
  have hline : (strokesPage.marked 2).lines[6]? = some "S".toList := by decide +kernel
  have hlabel : (strokesPage.marked 2).labels[6]? = some .strokeStandalone := by decide +kernel
  have hcalls : activateColor ∉ stream strokesPage.lines := by decide +kernel
  obtain ⟨htwo, hthree⟩ := (strokesPage.markStrokes_repeated 2).2.2 6 "S".toList .strokeStandalone
    hline hlabel (by decide) (by decide) (by decide) [] "S".toList [] (by decide) (.inl rfl)
  exact ⟨hline, hlabel, hcalls, htwo, hthree hcalls⟩

end Document
end CutPath
