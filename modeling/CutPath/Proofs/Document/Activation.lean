import CutPath.Proofs.Document.Regions

namespace CutPath
open Text
set_option autoImplicit true

def activateWord (w : Text) : List Text :=
  if isStrokeToken w then [activateColor, activateWidth, w] else [w]

namespace Segment

theorem extend_blank (hc : isBlank c = true) (segments : List Segment) :
    extend c segments = blank c :: segments := by
  unfold extend
  rw [if_pos hc]

theorem extend_word (hc : isBlank c = false) (w : Text) (rest : List Segment) :
    extend c (word w :: rest) = word (c :: w) :: rest := by
  unfold extend
  rw [hc]
  rfl

theorem extend_last (hc : isBlank c = false) (hs : ∀ w rest, segments ≠ word w :: rest) :
    extend c segments = word [c] :: segments := by
  unfold extend
  rw [hc]
  cases segments with
  | nil => rfl
  | cons s rest =>
    cases s with
    | blank d => rfl
    | word w => exact (hs w rest rfl).elim

theorem ofLine_cons (c : Char) (t : Text) : ofLine (c :: t) = extend c (ofLine t) := by
  rw [ofLine, List.foldr_cons, ofLine]

theorem ofLine_cons_blank (hc : isBlank c = true) (t : Text) :
    ofLine (c :: t) = blank c :: ofLine t := by
  rw [ofLine_cons, extend_blank hc]

theorem ofLine_breaks (ht : Breaks t) (w : Text) (rest : List Segment) :
    ofLine t ≠ word w :: rest := by
  cases t with
  | nil => simp [ofLine]
  | cons c t =>
    rw [ofLine_cons_blank (ht c rfl)]
    simp

theorem ofLine_append_word (hw : IsWord w) (ht : Breaks t) :
    ofLine (w ++ t) = word w :: ofLine t := by
  obtain ⟨c, w, rfl⟩ := List.exists_cons_of_ne_nil hw.1
  have hc : isBlank c = false := hw.2 c List.mem_cons_self
  have hw' := fun d hd => hw.2 d (List.mem_cons_of_mem c hd)
  clear hw
  induction w generalizing c with
  | nil => exact (ofLine_cons c t).trans (extend_last hc (ofLine_breaks ht))
  | cons d w ih =>
    have h := ih d (hw' d List.mem_cons_self) fun e he => hw' e (List.mem_cons_of_mem d he)
    rw [List.cons_append, ofLine_cons, h, extend_word hc]

end Segment

theorem activateInline_cons_blank (hc : isBlank c = true) (t : Text) :
    activateInline (c :: t) = c :: activateInline t := by
  rw [activateInline, Segment.ofLine_cons_blank hc]
  rfl

theorem activateInline_append_word (hw : IsWord w) (ht : Breaks t) :
    activateInline (w ++ t) =
      (if isStrokeToken w then activation ++ w else w) ++ activateInline t := by
  rw [activateInline, Segment.ofLine_append_word hw ht]
  rfl

theorem breaks_activateInline (ht : Breaks t) : Breaks (activateInline t) := by
  cases t with
  | nil => exact ht
  | cons c t =>
    rw [activateInline_cons_blank (ht c rfl)]
    exact breaks_cons (ht c rfl)

theorem Text.Spaced.activation (hs : Spaced t ws) :
    Spaced (CutPath.activation ++ t) (activateColor :: activateWidth :: ws) := by
  have hb : isBlank ' ' = true := by decide
  have h := Spaced.word (w := activateWidth) (by decide) (breaks_cons hb) (hs.blank hb)
  exact Spaced.word (w := activateColor) (by decide) (breaks_cons hb) (h.blank hb)

theorem Text.Spaced.activateInline (hs : Spaced line ws) :
    Spaced (CutPath.activateInline line) (ws.flatMap activateWord) := by
  induction hs with
  | nil => exact .nil
  | blank hc _ ih =>
    rw [activateInline_cons_blank hc]
    exact .blank hc ih
  | @word w t ws hw ht _ ih =>
    have h := Spaced.word hw (breaks_activateInline ht) ih
    rw [activateInline_append_word hw ht, List.flatMap_cons, activateWord]
    split
    · rw [List.append_assoc]
      exact h.activation
    · exact h

theorem words_activateInline (line : Text) :
    words (activateInline line) = (words line).flatMap activateWord :=
  (spaced_words line).activateInline.words_eq

/-- Properties of words that the calls do not have are those of the words that were there. -/
theorem any_words_activateInline {p : Text → Bool} (hc : p activateColor = false)
    (hw : p activateWidth = false) (line : Text) :
    (words (activateInline line)).any p = (words line).any p := by
  rw [words_activateInline, List.any_flatMap]
  congr 1
  funext w
  unfold activateWord
  split <;> simp [hc, hw]

namespace Marker

theorem opens_activateInline (hm : IsWord m)
    (hc : ∀ w ∈ activateColor :: strokeTokens, m.isPrefixOf w = false) (line : Text) :
    opens m (activateInline line) = opens m line := by
  rw [opens_eq hm, opens_eq hm, words_activateInline]
  cases words line with
  | nil => rfl
  | cons w ws =>
    rw [List.flatMap_cons, activateWord]
    split
    · next hs =>
      have hw := hc w (List.mem_cons_of_mem _ (List.contains_iff_mem.1 hs))
      have ha := hc activateColor List.mem_cons_self
      simp [hw, ha]
    · rfl

theorem isPaint_activateInline (line : Text) : isPaint (activateInline line) = isPaint line := by
  rw [isPaint_eq, isPaint_eq, words_activateInline, Bool.eq_iff_iff, beq_iff_eq, beq_iff_eq]
  constructor
  · intro h
    cases hw : words line with
    | nil =>
      rw [hw] at h
      cases h
    | cons w ws =>
      rw [hw, List.flatMap_cons, activateWord] at h
      split at h
      · simp at h
      · rw [List.singleton_append, List.cons.injEq, List.flatMap_eq_nil_iff] at h
        obtain ⟨rfl, hws⟩ := h
        cases ws with
        | nil => rfl
        | cons v ws =>
          have hv := hws v List.mem_cons_self
          unfold activateWord at hv
          split at hv <;> cases hv
  · intro h
    rw [h]
    decide

end Marker

/-- Every stroke of a line stands right after the two calls, given the words before the line. -/
def Activated (before : List Text) (line : Text) : Prop :=
  ∀ u w v, words line = u ++ w :: v → isStrokeToken w = true →
    [activateColor, activateWidth] <:+ before ++ u

theorem Activated.append_left (h : Activated before line) (a : List Text) :
    Activated (a ++ before) line := by
  intro u w v hw hs
  rw [List.append_assoc]
  exact List.suffix_append_of_suffix (h u w v hw hs)

theorem activated_of_no_stroke (h : ∀ w ∈ words line, isStrokeToken w = false)
    (before : List Text) : Activated before line := by
  intro u w v hw hs
  rw [h w (by simp [hw])] at hs
  cases hs

theorem activated_flatMap (ws : List Text) (h : ws.flatMap activateWord = u ++ w :: v)
    (hs : isStrokeToken w = true) : [activateColor, activateWidth] <:+ u := by
  have hcolor : isStrokeToken activateColor = false := by decide
  have hwidth : isStrokeToken activateWidth = false := by decide
  induction ws generalizing u with
  | nil => simp at h
  | cons x ws ih =>
    rw [List.flatMap_cons, activateWord] at h
    split at h
    · match u with
      | [] => simp_all
      | [_] => simp_all
      | [_, _] =>
        simp only [List.cons_append, List.nil_append, List.cons.injEq] at h
        exact ⟨[], by rw [h.1, h.2.1, List.nil_append]⟩
      | _ :: _ :: _ :: u =>
        simp only [List.cons_append, List.nil_append, List.cons.injEq] at h
        exact (ih h.2.2.2).trans (List.suffix_append [_, _, _] u)
    · match u with
      | [] => simp_all
      | _ :: u =>
        simp only [List.cons_append, List.nil_append, List.cons.injEq] at h
        exact (ih h.2).trans (List.suffix_cons _ u)

theorem activated_activateInline (line : Text) : Activated [] (activateInline line) := by
  intro u w v hw hs
  rw [words_activateInline] at hw
  exact activated_flatMap (words line) hw hs

end CutPath
