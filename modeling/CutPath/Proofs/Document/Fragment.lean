import CutPath.Document.Merge
import CutPath.Proofs.Document.Markers

namespace CutPath.Page
open Text
set_option autoImplicit true

/-- Lines at the end of a body, blank or with restores only, of which `count` restores go and the
lines `left` stay. A line that loses some of its restores keeps the others and its ending. -/
inductive Stripped : (ending left : List Text) → (count : Nat) → Prop
  | whole (h : ∀ l ∈ ending, isBlankText l = true ∨ isRestoreOnly l = true) :
    Stripped ending [] (stream ending).length
  | part (hline : isRestoreOnly line = true)
    (h : ∀ l ∈ ending, isBlankText l = true ∨ isRestoreOnly l = true)
    (hkept : 0 < kept) (htaken : 0 < taken) (hwords : (words line).length = kept + taken) :
    Stripped (line :: ending) [restores kept ++ lineEnding line] (taken + (stream ending).length)

/-- The part of a page body that is merged, beside its clip line and the number of restores that
are taken off its end. -/
inductive Fragment (body : List Text) : (clip : Option Text) → (fragment : List Text) →
    (closed : Nat) → Prop
  | whole (h : ∀ first ∈ body.find? fun l => !isBlankText l, isClip first = false) :
    Fragment body none body 0
  | clipped (hbody : body = blanks ++ clip :: (kept ++ ending))
    (hblanks : ∀ l ∈ blanks, isBlankText l = true) (hclip : isClip clip = true)
    (hending : Stripped ending left closed) (hclosed : closed ≤ saveDepth clip) :
    Fragment body (some clip) (kept ++ left) closed

theorem words_restores (n : Nat) : words (restores n) = List.replicate n restoreToken := by
  match n with
  | 0 => rfl
  | 1 => decide
  | n + 2 =>
    have ih := words_restores (n + 1)
    unfold restores at ih ⊢
    rw [List.replicate_succ, List.replicate_succ, join_cons_cons, List.append_assoc,
      List.singleton_append, words_append_blank (by decide), ← List.replicate_succ, ih,
      words_isWord (by decide)]
    rfl

theorem words_of_isRestoreOnly (h : isRestoreOnly line = true) :
    ∀ w ∈ words line, w = restoreToken := by
  simp only [isRestoreOnly, Bool.and_eq_true, List.all_eq_true, beq_iff_eq] at h
  exact h.2

theorem isRestoreOnly_restores (hn : 0 < n) (line : Text) :
    isRestoreOnly (restores n ++ lineEnding line) = true := by
  rw [isRestoreOnly, words_append_lineEnding, words_restores]
  simp only [Bool.and_eq_true, Bool.not_eq_true', List.isEmpty_eq_false_iff, List.all_eq_true,
    beq_iff_eq]
  refine ⟨fun h => ?_, fun w hw => (List.mem_replicate.1 hw).2⟩
  rw [List.replicate_eq_nil_iff] at h
  omega

theorem stream_closing (h : ∀ l ∈ ending, isBlankText l = true ∨ isRestoreOnly l = true) :
    stream ending = List.replicate (stream ending).length restoreToken := by
  rw [List.eq_replicate_iff]
  refine ⟨rfl, fun w hw => ?_⟩
  obtain ⟨l, hl, hw⟩ := List.mem_flatMap.1 hw
  rcases h l hl with hb | hr
  · rw [words_eq_nil_iff.2 hb] at hw
    cases hw
  · exact words_of_isRestoreOnly hr w hw

theorem Stripped.stream_eq (h : Stripped ending left count) :
    stream ending = stream left ++ List.replicate count restoreToken := by
  cases h with
  | whole h => exact stream_closing h
  | @part line ending kept taken hline h _ _ hwords =>
    have hl : words line = List.replicate (kept + taken) restoreToken :=
      List.eq_replicate_iff.2 ⟨hwords, words_of_isRestoreOnly hline⟩
    rw [stream_cons, stream_closing h, hl, stream_cons, words_append_lineEnding, words_restores,
      stream_nil, List.append_nil, List.length_replicate, List.replicate_append_replicate,
      List.replicate_append_replicate, Nat.add_assoc]

theorem Stripped.concat (h : Stripped ending left count)
    (hl : isBlankText line = true ∨ isRestoreOnly line = true) :
    Stripped (ending ++ [line]) left (count + (words line).length) := by
  have hcons : ∀ {ending : List Text},
      (∀ l ∈ ending, isBlankText l = true ∨ isRestoreOnly l = true) →
      ∀ l ∈ ending ++ [line], isBlankText l = true ∨ isRestoreOnly l = true := by
    intro ending h l hm
    rcases List.mem_append.1 hm with hm | hm
    · exact h l hm
    · exact List.mem_singleton.1 hm ▸ hl
  have hlength (ending : List Text) :
      (stream (ending ++ [line])).length = (stream ending).length + (words line).length := by
    rw [stream_append, stream_cons, stream_nil, List.append_nil, List.length_append]
  cases h with
  | whole h =>
    rw [← hlength]
    exact .whole (hcons h)
  | part hline h hkept htaken hwords =>
    rw [Nat.add_assoc, ← hlength]
    exact .part hline (hcons h) hkept htaken hwords

/-- Stripping takes no more than it needs, and only off an ending without other words. -/
theorem stripRestores_spec (need : Nat) (lines : List Text) :
    ∃ kept ending left, lines.reverse = kept ++ ending ∧
      (stripRestores need lines).1.reverse = kept ++ left ∧
      Stripped ending left (stripRestores need lines).2 ∧ (stripRestores need lines).2 ≤ need := by
  fun_induction stripRestores need lines with
  | case1 lines => exact ⟨lines.reverse, [], [], by simp, by simp, .whole (by simp), Nat.le_refl 0⟩
  | case2 need => exact ⟨[], [], [], rfl, rfl, .whole (by simp), Nat.zero_le _⟩
  | case3 need line lines hb ih =>
    obtain ⟨kept, ending, left, hlines, hrest, hs, hle⟩ := ih
    refine ⟨kept, ending ++ [line], left, ?_, hrest, ?_, hle⟩
    · rw [List.reverse_cons, hlines, List.append_assoc]
    · have h := hs.concat (.inl hb)
      rwa [words_eq_nil_iff.2 hb, List.length_nil, Nat.add_zero] at h
  | case4 need line lines hb hr count hle rest taken he ih =>
    obtain ⟨kept, ending, left, hlines, hrest, hs, hle'⟩ := ih
    rw [he] at hrest hs hle'
    refine ⟨kept, ending ++ [line], left, ?_, hrest, ?_, ?_⟩
    · rw [List.reverse_cons, hlines, List.append_assoc]
    · have h := hs.concat (.inr hr)
      rwa [Nat.add_comm] at h
    · simp only at hle' ⊢
      omega
  | case5 need line lines hb hr count hlt =>
    refine ⟨lines.reverse, [line], [restores (count - (need + 1)) ++ lineEnding line], ?_, ?_, ?_,
      Nat.le_refl _⟩
    · rw [List.reverse_cons]
    · rw [List.reverse_cons]
    · have hwords : count = count - (need + 1) + (need + 1) := by omega
      exact .part hr (by simp) (by omega) (Nat.succ_pos need) hwords
  | case6 need line lines hb hr =>
    exact ⟨(line :: lines).reverse, [], [], by simp, by simp, .whole (by simp), Nat.zero_le _⟩

theorem splitClip_eq_none (h : ∀ first ∈ body.find? fun l => !isBlankText l, isClip first = false) :
    splitClip body = (none, body) := by
  unfold splitClip
  split
  · rfl
  · next first rest hd =>
    have hf : body.find? (fun l => !isBlankText l) = some first := by
      rw [← List.takeWhile_append_dropWhile (p := isBlankText) (l := body), hd]
      have hb := List.head?_dropWhile_not isBlankText body
      rw [hd] at hb
      rw [List.find?_append, List.find?_eq_none.2, Option.none_or, List.find?_cons_of_pos]
      · simpa using hb
      · intro l hl
        simpa using List.all_eq_true.1 List.all_takeWhile l hl
    rw [h first hf]
    rfl

theorem splitClip_eq_some (hbody : body = blanks ++ clip :: artwork)
    (hblanks : ∀ l ∈ blanks, isBlankText l = true) (hclip : isClip clip = true) :
    splitClip body = (some clip, artwork) := by
  have hc : isBlankText clip = false := by
    rw [← Bool.not_eq_true, ← words_eq_nil_iff]
    intro hw
    rw [isClip, hw] at hclip
    cases hclip
  rw [splitClip, hbody, List.dropWhile_append_of_pos hblanks,
    List.dropWhile_cons_of_neg (by simp [hc])]
  simp [hclip]

theorem clip_cases (body : List Text) :
    (∀ first ∈ body.find? fun l => !isBlankText l, isClip first = false) ∨
      ∃ blanks clip artwork, body = blanks ++ clip :: artwork ∧
        (∀ l ∈ blanks, isBlankText l = true) ∧ isClip clip = true := by
  cases h : body.find? fun l => !isBlankText l with
  | none => exact .inl (by simp)
  | some first =>
    by_cases hc : isClip first = true
    · obtain ⟨-, blanks, artwork, hbody, hblanks⟩ := List.find?_eq_some_iff_append.1 h
      exact .inr ⟨blanks, first, artwork, hbody, by simpa using hblanks, hc⟩
    · exact .inl (by simpa using hc)

theorem fragment_of_body (hsplit : splitClip body = (clip, artwork))
    (hstrip : stripRestores (clip.elim 0 saveDepth) artwork.reverse = (rest, closed)) :
    Fragment body clip rest.reverse closed := by
  rcases clip_cases body with h | ⟨blanks, line, artwork', hbody, hblanks, hclip⟩
  · rw [splitClip_eq_none h] at hsplit
    cases hsplit
    rw [Option.elim_none, stripRestores] at hstrip
    cases hstrip
    rw [List.reverse_reverse]
    exact .whole h
  · rw [splitClip_eq_some hbody hblanks hclip] at hsplit
    cases hsplit
    obtain ⟨kept, ending, left, hartwork, hrest, hs, hle⟩ :=
      stripRestores_spec (saveDepth line) artwork.reverse
    rw [Option.elim_some] at hstrip
    rw [hstrip] at hrest hs hle
    rw [List.reverse_reverse] at hartwork
    rw [hrest]
    exact .clipped (hartwork ▸ hbody) hblanks hclip hs hle

/-- The words of a body are those of its clip line, of its fragment and of the restores at its
end. -/
theorem Fragment.stream_eq (h : Fragment body clip fragment closed) :
    stream body = stream clip.toList ++ stream fragment ++ List.replicate closed restoreToken := by
  cases h with
  | whole => simp
  | @clipped blanks clip kept ending left closed hbody hblanks hclip hending hclosed =>
    have hb : stream blanks = [] := by
      rw [stream, List.flatMap_eq_nil_iff]
      exact fun l hl => words_eq_nil_iff.2 (hblanks l hl)
    rw [hbody]
    simp only [stream_append, stream_cons, stream_nil, hb, List.nil_append, List.append_nil,
      Option.toList_some, hending.stream_eq, List.append_assoc]

theorem Fragment.closed_le (h : Fragment body clip fragment closed) :
    closed ≤ clip.elim 0 saveDepth := by
  cases h with
  | whole => exact Nat.le_refl 0
  | clipped _ _ _ _ hclosed => exact hclosed

theorem isPaint_restores (n : Nat) (line : Text) :
    Marker.isPaint (restores n ++ lineEnding line) = false := by
  rw [Marker.isPaint_eq, words_append_lineEnding, words_restores, beq_eq_false_iff_ne]
  intro h
  have hm : Marker.showpage ∈ List.replicate n restoreToken := h ▸ List.mem_singleton_self _
  have he := (List.mem_replicate.1 hm).2
  revert he
  decide

theorem Fragment.forall_mem {P : Text → Prop} (h : Fragment body clip fragment closed)
    (hp : ∀ n, ∀ line ∈ body, P (restores n ++ lineEnding line)) (hbody : ∀ l ∈ body, P l) :
    ∀ l ∈ clip.toList ++ fragment, P l := by
  cases h with
  | whole => exact hbody
  | @clipped blanks clip kept ending left closed he hblanks hclip hending hclosed =>
    intro l hl
    simp only [Option.toList_some, List.singleton_append, List.mem_cons, List.mem_append] at hl
    rcases hl with rfl | hl | hl
    · exact hbody l (by simp [he])
    · exact hbody l (by simp [he, hl])
    · cases hending with
      | whole => cases hl
      | part => exact List.mem_singleton.1 hl ▸ hp _ _ (by simp [he])

theorem Fragment.forall_eq_false {p : Text → Bool} (h : Fragment body clip fragment closed)
    (hp : ∀ n line, p (restores n ++ lineEnding line) = false) (hbody : ∀ l ∈ body, p l = false) :
    ∀ l ∈ clip.toList ++ fragment, p l = false :=
  h.forall_mem (fun n line _ => hp n line) hbody

end CutPath.Page
