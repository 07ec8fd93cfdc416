import CutPath.Proofs.Document.StrokeReport

namespace CutPath
open Text
set_option autoImplicit true

/-- The first word of a text, with what stands before and after it. -/
structure FirstWord where
  blanks : Text
  word : Text
  rest : Text

namespace FirstWord

def ofText (t : Text) : FirstWord :=
  let start := t.length - (trimStart t).length
  let tail := t.drop start
  let stop := tail.findIdx isBlank
  ⟨t.take start, tail.take stop, tail.drop stop⟩

theorem ofText_eq (t : Text) :
    ofText t = ⟨t.takeWhile isBlank, (trimStart t).takeWhile fun c => !isBlank c,
      (trimStart t).dropWhile fun c => !isBlank c⟩ := by
  have htrim : trimStart t = t.drop (t.findIdx fun c => !isBlank c) :=
    List.dropWhile_eq_drop_findIdx_not
  have hstart : t.length - (trimStart t).length = t.findIdx fun c => !isBlank c := by
    have hle : t.findIdx (fun c => !isBlank c) ≤ t.length := List.findIdx_le_length
    rw [htrim, List.length_drop]
    omega
  simp only [ofText, hstart, ← htrim, List.takeWhile_eq_take_findIdx_not,
    List.dropWhile_eq_drop_findIdx_not, Bool.not_not]

theorem append_ofText (t : Text) :
    (ofText t).blanks ++ (ofText t).word ++ (ofText t).rest = t := by
  rw [ofText_eq, List.append_assoc, List.takeWhile_append_dropWhile]
  exact List.takeWhile_append_dropWhile

theorem blanks_ofText (t : Text) : isBlankText (ofText t).blanks = true := by
  rw [ofText_eq]
  exact List.all_takeWhile

theorem not_isBlank_of_mem_word (h : c ∈ (ofText t).word) : isBlank c = false := by
  rw [ofText_eq] at h
  simpa using List.all_eq_true.1 List.all_takeWhile c h

theorem breaks_rest (t : Text) : Breaks (ofText t).rest := by
  rw [ofText_eq]
  exact breaks_dropWhile (trimStart t)

theorem rest_eq_nil (h : (ofText t).word = []) : (ofText t).rest = [] := by
  rw [ofText_eq] at h ⊢
  have hhead := List.head?_dropWhile_not isBlank t
  rw [← trimStart] at hhead
  cases ht : trimStart t with
  | nil => rfl
  | cons c s =>
    rw [ht] at h hhead
    rw [List.takeWhile_cons_of_pos (by simpa using hhead)] at h
    cases h

theorem length_rest_lt (h : t ≠ []) : (ofText t).rest.length < t.length := by
  have ht := congrArg List.length (append_ofText t)
  rw [List.length_append, List.length_append] at ht
  cases hw : (ofText t).word with
  | nil =>
    rw [rest_eq_nil hw]
    exact List.length_pos_iff.2 h
  | cons c w =>
    rw [hw, List.length_cons] at ht
    omega

end FirstWord

/-- Marks what is left of a line, word by word. `out` has been written so far, with `count` strokes
marked in it. -/
def activateFrom (out : Text) (count : Nat) : (left : Text) → Text × Nat
  | [] => (out, count)
  | c :: t =>
    let first := FirstWord.ofText (c :: t)
    if isStrokeToken first.word then
      activateFrom (out ++ first.blanks ++ activation ++ first.word) (count + 1) first.rest
    else activateFrom (out ++ first.blanks ++ first.word) count first.rest
termination_by left => left.length
decreasing_by all_goals exact FirstWord.length_rest_lt (List.cons_ne_nil c t)

theorem activateInline_append_blanks (hb : isBlankText blanks = true) (t : Text) :
    activateInline (blanks ++ t) = blanks ++ activateInline t := by
  induction blanks with
  | nil => rfl
  | cons c blanks ih =>
    simp only [isBlankText, List.all_cons, Bool.and_eq_true] at hb
    rw [List.cons_append, activateInline_cons_blank hb.1, ih hb.2, List.cons_append]

theorem words_append_of_blank (hb : isBlankText blanks = true) (t : Text) :
    words (blanks ++ t) = words t := by
  induction blanks with
  | nil => rfl
  | cons c blanks ih =>
    simp only [isBlankText, List.all_cons, Bool.and_eq_true] at hb
    rw [List.cons_append, words_cons_blank hb.1, ih hb.2]

theorem activate_firstWord (h : FirstWord.ofText t = first) :
    activateInline t = first.blanks ++
        (if isStrokeToken first.word then activation ++ first.word else first.word) ++
        activateInline first.rest ∧
      inlineStrokes t = (if isStrokeToken first.word then 1 else 0) + inlineStrokes first.rest := by
  have ht := FirstWord.append_ofText t
  have hblanks := FirstWord.blanks_ofText t
  have hword := fun c (hc : c ∈ (FirstWord.ofText t).word) => FirstWord.not_isBlank_of_mem_word hc
  have hbreaks := FirstWord.breaks_rest t
  have hend := fun hw => FirstWord.rest_eq_nil (t := t) hw
  rw [h] at ht hblanks hword hbreaks hend
  rw [← ht, List.append_assoc, List.append_assoc, activateInline_append_blanks hblanks,
    inlineStrokes_eq, inlineStrokes_eq, words_append_of_blank hblanks]
  by_cases hw : first.word = []
  -- Only the blanks at the end of a text give no word.
  · rw [hw, hend hw]
    exact ⟨rfl, rfl⟩
  · rw [activateInline_append_word ⟨hw, hword⟩ hbreaks, words_append_word ⟨hw, hword⟩ hbreaks,
      List.countP_cons]
    exact ⟨rfl, Nat.add_comm _ _⟩

theorem activateFrom_eq (out : Text) (count : Nat) (left : Text) :
    activateFrom out count left = (out ++ activateInline left, count + inlineStrokes left) := by
  fun_induction activateFrom out count left with
  | case1 out count => simp [activateInline, inlineStrokes, Segment.ofLine]
  | case2 out count c t first hs ih =>
    have hfirst : FirstWord.ofText (c :: t) = first := rfl
    obtain ⟨hmarked, hcount⟩ := activate_firstWord hfirst
    rw [ih, hmarked, hcount, if_pos hs, if_pos hs]
    simp only [List.append_assoc, Nat.add_assoc]
  | case3 out count c t first hs ih =>
    have hfirst : FirstWord.ofText (c :: t) = first := rfl
    obtain ⟨hmarked, hcount⟩ := activate_firstWord hfirst
    rw [ih, hmarked, hcount, if_neg hs, if_neg hs, Nat.zero_add]
    simp only [List.append_assoc]

/-- The words of a line with a gap after each of them, and one at the start of the line. -/
def layOut (lead : Text) (gaps words : List Text) : Text :=
  lead ++ (List.zipWith (· ++ ·) words gaps).flatten

theorem layOut_blank (c : Char) (lead : Text) (gaps words : List Text) :
    layOut (c :: lead) gaps words = c :: layOut lead gaps words := rfl

theorem layOut_word (w lead : Text) (gaps words : List Text) :
    layOut [] (lead :: gaps) (w :: words) = w ++ layOut lead gaps words := by
  rw [layOut, layOut, List.zipWith_cons_cons, List.flatten_cons, List.nil_append,
    List.append_assoc]

/-- Marking gives every stroke its calls and leaves the gaps between the words as they are. -/
theorem exists_gaps (hs : Spaced line ws) :
    ∃ lead gaps, gaps.length = ws.length ∧ (∀ gap ∈ lead :: gaps, isBlankText gap = true) ∧
      line = layOut lead gaps ws ∧ activateInline line =
        layOut lead gaps (ws.map fun w => if isStrokeToken w then activation ++ w else w) := by
  induction hs with
  | nil => exact ⟨[], [], rfl, by simp [isBlankText], rfl, rfl⟩
  | @blank c t ws hc _ ih =>
    obtain ⟨lead, gaps, hlength, hblank, hline, hmarked⟩ := ih
    refine ⟨c :: lead, gaps, hlength, ?_, ?_, ?_⟩
    · simpa [isBlankText, hc] using hblank
    · rw [layOut_blank, ← hline]
    · rw [activateInline_cons_blank hc, layOut_blank, ← hmarked]
  | @word w t ws hw ht _ ih =>
    obtain ⟨lead, gaps, hlength, hblank, hline, hmarked⟩ := ih
    refine ⟨[], lead :: gaps, congrArg (· + 1) hlength, ?_, ?_, ?_⟩
    · simpa [isBlankText] using hblank
    · rw [layOut_word, ← hline]
    · rw [activateInline_append_word hw ht, List.map_cons, layOut_word, ← hmarked]

/-- Marking a line, word by word from its start, puts the two calls right before every stroke and
changes nothing else, and it counts the strokes. -/
theorem activateInline_inserts (line : Text) :
    activateFrom [] 0 line = (activateInline line, inlineStrokes line) ∧
      (∃ lead gaps, gaps.length = (words line).length ∧
        (∀ gap ∈ lead :: gaps, isBlankText gap = true) ∧ line = layOut lead gaps (words line) ∧
        activateInline line = layOut lead gaps ((words line).map fun w =>
          if isStrokeToken w then "SetCutContourStroke SetHairlineStroke " ++ w else w)) ∧
      inlineStrokes line = (words line).countP isStrokeToken ∧
      (Instruction.label line = .strokeInline → 1 ≤ inlineStrokes line) := by
  refine ⟨?_, exists_gaps (spaced_words line), inlineStrokes_eq line, fun hlabel => ?_⟩
  · rw [activateFrom_eq, List.nil_append, Nat.zero_add]
  · rw [inlineStrokes_eq, Nat.one_le_iff_ne_zero, ← Nat.pos_iff_ne_zero, List.countP_pos_iff]
    exact Instruction.word_of_inline hlabel

end CutPath
