import CutPath.Proofs.Document.CutPass

namespace CutPath
open Text
set_option autoImplicit true

namespace Marker

/-- The markers that have to open their line, but for the declarations of colors. -/
def opening : List Text :=
  [boundingBox, languageLevel, endProlog, beginSetup, endPageSetup, trailer]

def borne (line : Text) : List Text :=
  opening.filter (opens · line) ++ if isPaint line then [showpage] else []

def borne? (line : Text) : Option (List Text) := if borne line = [] then none else some (borne line)

/-- The markers of some lines, line by line, without the lines that bear none. -/
def markers (lines : List Text) : List (List Text) := lines.filterMap borne?

theorem showpage_not_mem_opening : showpage ∉ opening := by decide

theorem isWord_of_mem_opening : ∀ m ∈ opening, IsWord m ∧ m.head? = some '%' := by decide

theorem contains_borne (hm : m ∈ opening) (line : Text) :
    (borne line).contains m = opens m line := by
  rw [Bool.eq_iff_iff, List.contains_iff_mem, borne, List.mem_append, List.mem_filter]
  constructor
  · rintro (⟨-, h⟩ | h)
    · exact h
    · split at h
      · rw [List.mem_singleton.1 h] at hm
        exact (showpage_not_mem_opening hm).elim
      · cases h
  · exact fun h => .inl ⟨hm, h⟩

theorem contains_borne_showpage (line : Text) :
    (borne line).contains showpage = isPaint line := by
  rw [Bool.eq_iff_iff, List.contains_iff_mem, borne, List.mem_append, List.mem_filter]
  constructor
  · rintro (⟨h, -⟩ | h)
    · exact (showpage_not_mem_opening h).elim
    · split at h
      · assumption
      · cases h
  · exact fun h => .inr (by rw [if_pos h]; exact List.mem_singleton_self _)

theorem borne_eq_nil (ho : ∀ m ∈ opening, opens m line = false) (hp : isPaint line = false) :
    borne line = [] := by
  rw [borne, hp, List.filter_eq_nil_iff.2 fun m hm => by rw [ho m hm]; exact Bool.false_ne_true]
  rfl

theorem borne?_eq_none (h : borne line = []) : borne? line = none := if_pos h

theorem borne_congr (hopens : ∀ m ∈ opening, opens m a = opens m b)
    (hpaint : isPaint a = isPaint b) : borne a = borne b := by
  rw [borne, borne, hpaint, List.filter_congr hopens]

theorem borne_congr_words (h : words a = words b) : borne a = borne b := by
  apply borne_congr
  · intro m hm
    rw [opens_eq (isWord_of_mem_opening m hm).1, opens_eq (isWord_of_mem_opening m hm).1, h]
  · rw [isPaint_eq, isPaint_eq, h]

/-- The markers of lines can be told apart from the rest by any property that comes with one. -/
theorem forall_markers_iff {p : Text → Bool} (hp : ∀ line, p line = (borne line).contains m)
    (lines : List Text) :
    (∀ line ∈ lines, p line = false) ↔ ∀ ms ∈ markers lines, ms.contains m = false := by
  rw [markers, List.forall_mem_filterMap]
  constructor
  · intro h line hl ms hms
    unfold borne? at hms
    split at hms
    · cases hms
    · rw [← Option.some.inj hms, ← hp]
      exact h line hl
  · intro h line hl
    rw [hp]
    by_cases hb : borne line = []
    · rw [hb]
      rfl
    · exact h line hl (borne line) (if_neg hb)

theorem seesNoMarks : SeesNoMarks borne? where
  call := by
    rintro line (h | h)
    · rw [borne?, borne_congr_words (b := activateColor) (by rw [h]; decide)]
      decide
    · rw [borne?, borne_congr_words (b := activateWidth) (by rw [h]; decide)]
      decide
  setting := by
    intro line _ h
    apply borne?_eq_none
    apply borne_eq_nil
    · intro m hm
      obtain ⟨hw, hhead⟩ := isWord_of_mem_opening m hm
      exact Instruction.opens_of_isSetting hw (List.mem_of_head? hhead) h
    · exact Instruction.isPaint_of_isSetting h
  inline := by
    intro line
    have hcalls : ∀ m ∈ opening, ∀ w ∈ activateColor :: strokeTokens, m.isPrefixOf w = false := by
      decide
    have hborne : borne (activateInline line) = borne line := by
      apply borne_congr
      · intro m hm
        exact opens_activateInline (isWord_of_mem_opening m hm).1 (hcalls m hm) line
      · exact isPaint_activateInline line
    rw [borne?, borne?, hborne]

theorem borne_append_word (hw : IsWord w) (ht : Breaks t)
    (ho : ∀ m ∈ opening, m.isPrefixOf w = false) (hp : w ≠ showpage) : borne (w ++ t) = [] := by
  apply borne_eq_nil
  · intro m hm
    rw [opens_eq (isWord_of_mem_opening m hm).1, words_append_word hw ht, List.head?_cons,
      Option.any_some, ho m hm]
  · rw [isPaint_eq, words_append_word hw ht, beq_eq_false_iff_ne]
    exact fun h => hp (List.cons.inj h).1

theorem head?_trimStart_append (ha : '%' ∉ a) (hc : isBlank c = false) (hne : c ≠ '%') (t : Text) :
    (trimStart (a ++ c :: t)).head? ≠ some '%' := by
  induction a with
  | nil =>
    rw [List.nil_append, trimStart, List.dropWhile_cons_of_neg (by simp [hc]), List.head?_cons]
    exact fun h => hne (Option.some.inj h)
  | cons d a ih =>
    rw [List.mem_cons, not_or] at ha
    by_cases hd : isBlank d = true
    · rw [List.cons_append, trimStart, List.dropWhile_cons_of_pos hd]
      exact ih ha.2
    · rw [List.cons_append, trimStart, List.dropWhile_cons_of_neg hd, List.head?_cons]
      exact fun h => ha.1 (Option.some.inj h).symm

theorem opens_of_head (hm : m ∈ opening) (h : (trimStart line).head? ≠ some '%') :
    opens m line = false := by
  obtain ⟨-, hhead⟩ := isWord_of_mem_opening m hm
  rw [← Bool.not_eq_true, opens, List.isPrefixOf_iff_prefix]
  rintro ⟨t, ht⟩
  apply h
  rw [← ht, List.head?_append, hhead]
  rfl

theorem isPaint_append_word (hw : IsWord w) (hne : w ≠ showpage) (t : Text) :
    isPaint (t ++ ' ' :: w) = false := by
  rw [isPaint_eq, words_append_blank (by decide), words_isWord hw, beq_eq_false_iff_ne]
  intro h
  have hlast := congrArg List.getLast? h
  rw [List.getLast?_concat] at hlast
  exact hne (Option.some.inj hlast)

end Marker

namespace SpotColor

theorem borne_headerLines (c : SpotColor) : ∀ line ∈ c.headerLines, Marker.borne line = [] := by
  intro line hl
  rw [headerLines, List.mem_cons, List.mem_singleton] at hl
  rcases hl with rfl | rfl
  · rw [List.append_assoc, List.append_assoc]
    exact Marker.borne_append_word (by decide) (breaks_cons (by decide)) (by decide) (by decide)
  · rw [List.append_assoc, List.append_assoc, List.append_assoc, List.append_assoc]
    exact Marker.borne_append_word (by decide) (breaks_cons (by decide)) (by decide) (by decide)

def titleLine (c : SpotColor) : Text := "% " ++ c.name ++ " spot color support"

def channelsLine (c : SpotColor) : Text :=
  "  " ++ c.literalChannels ++ " (" ++ c.name ++ ") findcmykcustomcolor"

theorem mem_literalChannels {c : SpotColor} (h : d ∈ c.literalChannels) :
    Decimal.isNumberChar d = true ∨ d = ' ' := by
  rcases mem_join h with h | ⟨number, hm, h⟩
  · exact .inr (List.mem_singleton.1 h)
  · obtain ⟨x, -, rfl⟩ := List.mem_map.1 hm
    exact .inl (Decimal.Format.all_write numeral x d h)

theorem not_mem_literalChannels (c : SpotColor) (hn : Decimal.isNumberChar d = false)
    (hd : d ≠ ' ') : d ∉ c.literalChannels := by
  intro h
  rcases mem_literalChannels h with h | h
  · rw [hn] at h
    cases h
  · exact hd h

theorem borne_titleLine (c : SpotColor) : Marker.borne c.titleLine = [] := by
  have h : c.titleLine = "%".toList ++ ' ' :: (c.name ++ " spot color support") := by
    simp [titleLine]
  rw [h]
  exact Marker.borne_append_word (by decide) (breaks_cons (by decide)) (by decide) (by decide)

theorem borne_channelsLine (c : SpotColor) : Marker.borne c.channelsLine = [] := by
  apply Marker.borne_eq_nil
  · intro m hm
    apply Marker.opens_of_head hm
    have h : c.channelsLine = ("  " ++ c.literalChannels ++ [' ']) ++
        '(' :: (c.name ++ ") findcmykcustomcolor") := by
      simp [channelsLine]
    rw [h]
    refine Marker.head?_trimStart_append ?_ (by decide) (by decide) _
    simp [c.not_mem_literalChannels (d := '%') (by decide) (by decide)]
  · have h : c.channelsLine = ("  " ++ c.literalChannels ++ " (" ++ c.name ++ [')']) ++
        ' ' :: "findcmykcustomcolor".toList := by
      simp [channelsLine]
    rw [h]
    exact Marker.isPaint_append_word (by decide) (by decide) _

end SpotColor

theorem StrokeStyle.borne_widthLine (s : StrokeStyle) : Marker.borne s.widthLine = [] := by
  apply Marker.borne_eq_nil
  · intro m hm
    obtain ⟨-, hhead⟩ := Marker.isWord_of_mem_opening m hm
    exact Marker.opens_eq_false (List.mem_of_head? hhead)
      (s.not_mem_widthLine (by decide) (by decide))
  · exact Marker.isPaint_eq_false (c := 'o') (by decide)
      (s.not_mem_widthLine (by decide) (by decide))

def procedureFrame (title channels width : Text) : List Text :=
  [] :: title :: (findColorFallback ++ setColorFallback ++
    (["/" ++ colorProcedure ++ " \x7b", channels, "\x7d def", "/" ++ activateColor ++ " \x7b",
      "  " ++ colorProcedure ++ " 1.0 setcustomcolor", "\x7d def", "/" ++ activateWidth ++ " \x7b",
      width, "\x7d def"] : List Text) ++ [[]])

theorem procedureLines_eq (c : SpotColor) (style : StrokeStyle) :
    procedureLines c style = procedureFrame c.titleLine c.channelsLine style.widthLine := rfl

theorem mem_procedureFrame (h : line ∈ procedureFrame title channels width) :
    line = title ∨ line = channels ∨ line = width ∨ line ∈ procedureFrame [] [] [] := by
  simp only [procedureFrame, List.mem_cons, List.mem_append] at h ⊢
  grind

theorem procedureLines_inert {c : SpotColor} (hc : '\n' ∉ c.name) (style : StrokeStyle) :
    ∀ line ∈ procedureLines c style, '\n' ∉ line ∧ Marker.borne line = [] := by
  have hfixed : (procedureFrame [] [] []).all
      (fun line => decide ('\n' ∉ line) && (Marker.borne line).isEmpty) = true := by decide +kernel
  simp only [List.all_eq_true, Bool.and_eq_true, decide_eq_true_eq, List.isEmpty_iff] at hfixed
  intro line hl
  rw [procedureLines_eq] at hl
  rcases mem_procedureFrame hl with rfl | rfl | rfl | hl
  · refine ⟨?_, c.borne_titleLine⟩
    simp [SpotColor.titleLine, hc]
  · refine ⟨?_, c.borne_channelsLine⟩
    simp [SpotColor.channelsLine, hc, c.not_mem_literalChannels (d := '\n') (by decide) (by decide)]
  · exact ⟨style.not_mem_widthLine (by decide) (by decide), style.borne_widthLine⟩
  · exact hfixed line hl

theorem procedureBlock_eq {c : SpotColor} (hc : '\n' ∉ c.name) (style : StrokeStyle) :
    procedureBlock c style = procedureLines c style :=
  procedureBlock_of_not_mem fun line hm => (procedureLines_inert hc style line hm).1

namespace Document

/-- Some passes have made another document of `d`, each with a color whose name is one line. -/
inductive Passed (d : Document) : Document → Prop
  | refl : Passed d d
  | header (h : Passed d e) (hc : '\n' ∉ c.name) : Passed d (e.annotateHeader c).2
  | prolog (h : Passed d e) (hc : '\n' ∉ c.name) : Passed d (e.injectProlog c style).2
  | strokes (h : Passed d e) : Passed d e.markStrokes.2
  | cut (h : Passed d e) (hc : '\n' ∉ c.name) : Passed d (e.markCut c style).2

theorem markers_insert {new : List Text} (h : ∀ line ∈ new, Marker.borne line = []) (d : Document)
    (i : Nat) (like : Text) :
    Marker.markers (d.insert i (new.map (· ++ lineEnding like))).lines =
      Marker.markers d.lines := by
  apply filterMap_insert
  simp only [List.mem_map, forall_exists_index, and_imp, forall_apply_eq_imp_iff₂]
  intro line hm
  apply Marker.borne?_eq_none
  rw [Marker.borne_congr_words (words_append_lineEnding line like), h line hm]

theorem markers_annotateHeader (d : Document) (c : SpotColor) :
    Marker.markers (d.annotateHeader c).2.lines = Marker.markers d.lines := by
  rcases d.annotateHeader_cases c with ⟨-, h⟩ | ⟨before, anchor, rest, -, -, -, h⟩
  · rw [h]
  · rw [h, markers_insert c.borne_headerLines]

theorem markers_injectProlog (d : Document) {c : SpotColor} (hc : '\n' ∉ c.name)
    (style : StrokeStyle) :
    Marker.markers (d.injectProlog c style).2.lines = Marker.markers d.lines := by
  rcases d.injectProlog_cases c style with h | ⟨before, like, rest, -, -, h⟩
  · rw [h]
  · rw [h, procedureBlock_eq hc]
    exact markers_insert (fun line hm => (procedureLines_inert hc style line hm).2) d _ like

theorem markers_markStrokes (d : Document) :
    Marker.markers d.markStrokes.2.lines = Marker.markers d.lines := by
  rw [lines_markStrokes]
  exact Marker.seesNoMarks.filterMap_mark .outside d.lines

/-- Passes leave the markers of a document as they are. -/
theorem Passed.markers_eq (h : Passed d d') :
    Marker.markers d'.lines = Marker.markers d.lines := by
  induction h with
  | refl => rfl
  | header _ _ ih => rw [markers_annotateHeader, ih]
  | prolog _ hc ih => rw [markers_injectProlog _ hc, ih]
  | strokes _ ih => rw [markers_markStrokes, ih]
  | cut _ hc ih => rw [markCut, markers_markStrokes, markers_injectProlog _ hc,
      markers_annotateHeader, ih]

end Document
end CutPath
