import CutPath.Proofs.Document.MergeLayout

namespace CutPath
open Text
set_option autoImplicit true

namespace Page

theorem isBlankText_restores (hn : 0 < n) (line : Text) :
    isBlankText (restores n ++ lineEnding line) = false := by
  rw [← Bool.not_eq_true, ← words_eq_nil_iff, words_append_lineEnding, words_restores,
    List.replicate_eq_nil_iff]
  exact Nat.ne_of_gt hn

/-- A line of as many restores as are needed is taken as a whole, and nothing else. -/
theorem stripRestores_restores (n : Nat) (line : Text) (lines : List Text) :
    stripRestores (n + 1) ((restores (n + 1) ++ lineEnding line) :: lines) = (lines, n + 1) := by
  have hlength : (words (restores (n + 1) ++ lineEnding line)).length = n + 1 := by
    rw [words_append_lineEnding, words_restores, List.length_replicate]
  rw [stripRestores, isBlankText_restores n.succ_pos, isRestoreOnly_restores n.succ_pos]
  simp only [Bool.false_eq_true, if_false, if_true, hlength, Nat.le_refl, Nat.sub_self,
    stripRestores, Nat.add_zero]

theorem Fragment.mem_of_words (h : Fragment body clip fragment closed) (hl : line ∈ body)
    (hb : isBlankText line = false) (hr : isRestoreOnly line = false) :
    line ∈ clip.toList ++ fragment := by
  cases h with
  | whole => exact hl
  | @clipped blanks clip kept ending left closed hbody hblanks _ hending _ =>
    have hnone : ∀ {ending : List Text},
        (∀ l ∈ ending, isBlankText l = true ∨ isRestoreOnly l = true) → line ∉ ending := by
      intro ending h hm
      rcases h line hm with h | h
      · rw [hb] at h
        cases h
      · rw [hr] at h
        cases h
    have hout : line ∉ ending := by
      cases hending with
      | whole h => exact hnone h
      | part hline h =>
        rw [List.mem_cons, not_or]
        refine ⟨?_, hnone h⟩
        rintro rfl
        rw [hr] at hline
        cases hline
    rw [hbody, List.mem_append, List.mem_cons, List.mem_append] at hl
    rcases hl with hl | rfl | hl | hl
    · rw [hblanks line hl] at hb
      cases hb
    · exact List.mem_cons_self
    · simp [hl]
    · exact (hout hl).elim

end Page

namespace Document

theorem PageAt.exists_markers {d : Document} (h : d.PageAt head body tail) :
    ∃ setupEnd paint, Marker.pageSetupEnd? d.lines = some setupEnd ∧
      Marker.pagePaint? (setupEnd + 1) d.lines = some paint ∧
      d.lines.take (setupEnd + 1) = head ∧ (d.lines.take paint).drop (setupEnd + 1) = body ∧
      d.lines.drop paint = tail := by
  obtain ⟨before, setup, hhead, hsetup, hbefore⟩ := h.setup
  obtain ⟨paint, rest, htail, hpaint⟩ := h.paint
  have hlines : d.lines = before ++ setup :: (body ++ paint :: rest) := by
    rw [h.lines_eq, hhead, htail]
    simp
  have hany : (Marker.pageSetupEnd? d.lines).isSome := by
    rw [Marker.pageSetupEnd?, List.findIdx?_isSome, hlines]
    simp [hsetup]
  obtain ⟨i, hi⟩ := Option.isSome_iff_exists.1 hany
  obtain ⟨before', setup', rest', hlines', rfl, hsetup', hbefore'⟩ := Marker.split_at_first hi
  obtain ⟨rfl, rfl, rfl⟩ :=
    Marker.split_unique (hlines.symm.trans hlines') hsetup hsetup' hbefore hbefore'
  have hany : (Marker.pagePaint? (before.length + 1) d.lines).isSome := by
    rw [Marker.pagePaint?, Marker.indexFrom?, Option.isSome_map, List.findIdx?_isSome, hlines,
      List.append_cons, List.drop_left' (by simp)]
    simp [hpaint]
  obtain ⟨j, hj⟩ := Option.isSome_iff_exists.1 hany
  obtain ⟨hhead', hbody', htail'⟩ := (pageAt_of_markers hi hj).unique h
  exact ⟨_, _, hi, hj, hhead', hbody', htail'⟩

end Document

namespace PageParts

/-- The parts of a page whose body is `body`, cut between `head` and `tail`. -/
structure CutFrom (p : PageParts) (d : Document) (head body tail : List Text) : Prop where
  head_eq : d.lines.take (p.setupEnd + 1) = head
  tail_eq : d.lines.drop p.paint = tail
  clip_eq : p.clip = (Page.splitClip body).1
  strip_eq : Page.stripRestores (p.clip.elim 0 Page.saveDepth) (Page.splitClip body).2.reverse =
    (p.fragment.reverse, p.closed)

theorem exists_cutFrom {d : Document}
    (hbox : ∃ line ∈ d.lines, Marker.opens Marker.boundingBox line = true)
    (h : d.PageAt head body tail) (layer : Layer) :
    ∃ p, ofLines layer d.lines = .ok p ∧ p.CutFrom d head body tail := by
  have hany : (Marker.boundingBox? d.lines).isSome := by
    rw [Marker.boundingBox?, List.findIdx?_isSome]
    exact List.any_eq_true.2 hbox
  obtain ⟨box, hbox⟩ := Option.isSome_iff_exists.1 hany
  obtain ⟨setupEnd, paint, hsetup, hpaint, hhead, hbody, htail⟩ := h.exists_markers
  unfold ofLines
  simp only [hbox, hsetup, hpaint, hbody]
  refine ⟨_, rfl, hhead, htail, rfl, ?_⟩
  simp only [List.reverse_reverse]

theorem exists_box_of_ofLines (h : ofLines layer lines = .ok p) :
    ∃ line ∈ lines, Marker.opens Marker.boundingBox line = true := by
  unfold ofLines at h
  split at h
  · cases h
  · next box hbox =>
    have hany : (Marker.boundingBox? lines).isSome := by rw [hbox]; rfl
    rw [Marker.boundingBox?, List.findIdx?_isSome] at hany
    exact List.any_eq_true.1 hany

theorem ofLines_layer (h : ofLines layer lines = .ok p) (layer' : Layer) :
    ofLines layer' lines = .ok p := by
  unfold ofLines at h ⊢
  split at h
  · cases h
  split at h
  · cases h
  split at h
  · cases h
  next hpaint => simpa only [hpaint] using h

theorem Describes.closed_eq {p : PageParts} (h : p.Describes d head body tail) (layer : Layer)
    (hw : ∀ depth closed, .unrestoredSaves layer.bodyStep depth closed ∉ p.warnings layer) :
    p.closed = p.clip.elim 0 Page.saveDepth := by
  have hle := h.fragment.closed_le
  rw [← h.depth_eq] at hle ⊢
  have hlt : ¬ p.closed < p.depth := by
    intro hlt
    apply hw p.depth p.closed
    rw [warnings, if_pos hlt]
    exact List.mem_singleton_self _
  omega

end PageParts

namespace Document

/-- The first line of the page body that has a word clips the page. -/
def Clipped (d : Document) : Prop :=
  ∃ head body tail, d.PageAt head body tail ∧
    ∃ first ∈ body.find? fun l => !isBlankText l, Page.isClip first = true

theorem Clipped.clip_eq {d : Document} {p : PageParts} (h : d.Clipped)
    (hp : p.Describes d head body tail) : ∃ clip, p.clip = some clip ∧ Page.isClip clip = true := by
  obtain ⟨head', body', tail', hpage, first, hfirst, hclip⟩ := h
  obtain ⟨rfl, rfl, rfl⟩ := hpage.unique hp.page
  have hf := hp.fragment
  generalize p.clip = clip, p.fragment = fragment, p.closed = closed at hf
  cases hf with
  | whole h =>
    rw [h first hfirst] at hclip
    cases hclip
  | clipped _ _ hclip => exact ⟨_, rfl, hclip⟩

theorem exists_trailer_of_merge {print cut m : Document} (h : (print.merge cut).2 = .ok m)
    (hc : PageParts.ofLines .cut cut.lines = .ok c) :
    ∃ i, Marker.trailer? (c.paint + 1) cut.lines = some i := by
  obtain ⟨p, -, hp, -, -, -⟩ := merge_eq_ok h
  cases ht : Marker.trailer? (c.paint + 1) cut.lines with
  | none => simp [merge, hp, hc, ht] at h
  | some i => exact ⟨i, rfl⟩

theorem trailer?_congr {d d' : Document} (h : d.lines.drop i = d'.lines.drop j) :
    (Marker.trailer? (i + 1) d.lines).isSome = (Marker.trailer? (j + 1) d'.lines).isSome := by
  simp only [Marker.trailer?, Marker.indexFrom?, Option.isSome_map, ← List.drop_drop, h]

namespace Layout

variable {print cut m : Document}

theorem exists_box (l : Layout print cut m) :
    ∃ line ∈ m.lines, Marker.opens Marker.boundingBox line = true := by
  obtain ⟨line, hm, hbox⟩ := PageParts.exists_box_of_ofLines l.cut_ok
  have hword := hbox
  rw [Marker.opens_eq (by decide), Option.any_eq_true] at hword
  obtain ⟨w, hw, hprefix⟩ := hword
  have hmem : w ∈ words line := List.mem_of_head? hw
  have hb : isBlankText line = false := by
    rw [← Bool.not_eq_true, ← words_eq_nil_iff]
    exact List.ne_nil_of_mem hmem
  have hr : Page.isRestoreOnly line = false := by
    rw [← Bool.not_eq_true]
    intro hr
    rw [Page.words_of_isRestoreOnly hr w hmem] at hprefix
    revert hprefix
    decide
  refine ⟨line, ?_, hbox⟩
  rw [l.cut_page.page.lines_eq, List.mem_append, List.mem_append] at hm
  rw [l.lines_eq]
  rcases hm with (hm | hm) | hm
  · simp [hm]
  · have hkept := l.cut_page.fragment.mem_of_words hm hb hr
    rw [List.mem_append] at hkept
    rcases hkept with hkept | hkept <;> simp [hkept]
  · simp [hm]

/-- The parts of a merged document: the clip line and its restores are those of the cut document,
and the artwork of both documents is one. -/
theorem exists_parts (l : Layout print cut m) (hclip : l.cutParts.clip = some clip)
    (hline : Page.isClip clip = true) (hclosed : l.cutParts.closed = Page.saveDepth clip)
    (layer : Layer) :
    ∃ p, PageParts.ofLines layer m.lines = .ok p ∧ m.lines.take (p.setupEnd + 1) = l.head ∧
      m.lines.drop p.paint = l.tail ∧ p.clip = some clip ∧
      p.fragment = l.printParts.fragment ++ l.cutParts.fragment ∧
      p.closed = l.cutParts.closed := by
  obtain ⟨p, hp, hcut⟩ := PageParts.exists_cutFrom l.exists_box l.pageAt layer
  have hmerged : l.merged = [] ++ clip :: (l.printParts.fragment ++ l.cutParts.fragment ++
      closing l.cutParts l.tail) := by
    rw [merged, hclip]
    simp
  have hsplit := Page.splitClip_eq_some hmerged (by simp) hline
  have hclip' := hcut.clip_eq
  have hstrip := hcut.strip_eq
  rw [hsplit] at hclip' hstrip
  have htaken : Page.stripRestores (Page.saveDepth clip)
      (l.printParts.fragment ++ l.cutParts.fragment ++ closing l.cutParts l.tail).reverse =
        ((l.printParts.fragment ++ l.cutParts.fragment).reverse, l.cutParts.closed) := by
    rw [closing, ← hclosed]
    cases l.cutParts.closed with
    | zero => rw [if_pos rfl, List.append_nil, Page.stripRestores]
    | succ n =>
      rw [if_neg n.succ_ne_zero, List.reverse_append, List.reverse_singleton, List.singleton_append,
        Page.stripRestores_restores]
  rw [hclip', Option.elim_some, htaken, Prod.mk.injEq] at hstrip
  exact ⟨p, hp, hcut.head_eq, hcut.tail_eq, hclip', (List.reverse_inj.1 hstrip.1).symm,
    hstrip.2.symm⟩

end Layout

theorem merge_of_parts {print cut : Document} (hp : PageParts.ofLines .print print.lines = .ok p)
    (hc : PageParts.ofLines .cut cut.lines = .ok c)
    (ht : (Marker.trailer? (c.paint + 1) cut.lines).isSome) :
    (print.merge cut).2 = .ok ⟨cut.lines.take (c.setupEnd + 1) ++ c.clip.toList ++ p.fragment ++
      c.fragment ++ closing c (cut.lines.drop c.paint) ++ cut.lines.drop c.paint⟩ := by
  obtain ⟨i, hi⟩ := Option.isSome_iff_exists.1 ht
  simp only [merge, hp, hc, hi]
  rfl

/-- Stacking layers is associative: when the upper two have their clip lines and all saves of these
are restored, it makes no difference which two of three are merged first. -/
theorem merge_assoc {a b c ab bc : Document} (hab : (a.merge b).2 = .ok ab)
    (hbc : (b.merge c).2 = .ok bc) (hb : b.Clipped) (hc : c.Clipped)
    (hw : ∀ step depth closed, .unrestoredSaves step depth closed ∉ (b.merge c).1) :
    ∃ abc, (ab.merge c).2 = .ok abc ∧ (a.merge bc).2 = .ok abc := by
  obtain ⟨l⟩ := exists_layout hab
  obtain ⟨k⟩ := exists_layout hbc
  have hshared : l.cutParts = k.printParts :=
    Except.ok.inj ((PageParts.ofLines_layer l.cut_ok .print).symm.trans k.print_ok)
  simp only [k.warnings_eq, List.mem_append, not_or] at hw
  obtain ⟨clipB, hclipB, hlineB⟩ := hb.clip_eq l.cut_page
  obtain ⟨clipC, hclipC, hlineC⟩ := hc.clip_eq k.cut_page
  have hclosedB := k.print_page.closed_eq .print fun d n => (hw _ d n).1.1
  have hclosedC := k.cut_page.closed_eq .cut fun d n => (hw _ d n).1.2
  rw [← hshared, hclipB, Option.elim_some] at hclosedB
  rw [hclipC, Option.elim_some] at hclosedC
  obtain ⟨p, hp, -, -, -, hfragmentP, -⟩ := l.exists_parts hclipB hlineB hclosedB .print
  obtain ⟨q, hq, hhead, htail, hclipQ, hfragmentQ, hclosedQ⟩ :=
    k.exists_parts hclipC hlineC hclosedC .cut
  obtain ⟨i, hi⟩ := exists_trailer_of_merge hbc k.cut_ok
  have htrailerC : (Marker.trailer? (k.cutParts.paint + 1) c.lines).isSome := by rw [hi]; rfl
  have htrailerQ : (Marker.trailer? (q.paint + 1) bc.lines).isSome := by
    rw [trailer?_congr (htail.trans k.cut_page.tail_eq.symm), htrailerC]
  refine ⟨_, merge_of_parts hp k.cut_ok htrailerC, ?_⟩
  rw [merge_of_parts l.print_ok hq htrailerQ, hhead, htail, k.cut_page.head_eq, k.cut_page.tail_eq,
    hclipQ, hclipC, hfragmentP, hfragmentQ, hshared]
  simp only [closing, hclosedQ, List.append_assoc]

def topSample : Document :=
  ⟨["%%BoundingBox: 0 0 5 5", "%%EndPageSetup", " ", "q q rectclip", "2 2 m S", "Q Q Q\r", "",
    "showpage", "%%Trailer"]⟩

def upperSample : Document :=
  ⟨["%%BoundingBox: 0 0 5 5", "%%EndPageSetup", "q q rectclip", "1 1 m S", "2 2 m S", "Q\r", "Q Q",
    "showpage", "%%Trailer"]⟩

def stackedSample : Document :=
  ⟨["%%BoundingBox: 0 0 5 5", "%%EndPageSetup", "q q rectclip", "q", "0 0 m f", "Q\r", "1 1 m S",
    "2 2 m S", "Q\r", "Q Q", "showpage", "%%Trailer"]⟩

theorem merge_assoc_sample : (printSample.merge cutSample).2 = .ok mergedSample ∧
    (cutSample.merge topSample).2 = .ok upperSample ∧
    (mergedSample.merge topSample).2 = .ok stackedSample ∧
    (printSample.merge upperSample).2 = .ok stackedSample := by
  have hcut : cutSample.Clipped :=
    ⟨cutSample.lines.take 2, (cutSample.lines.drop 2).take 3, cutSample.lines.drop 5,
      ⟨rfl, ⟨["%%BoundingBox: 0 0 9 9"], "%%EndPageSetup", rfl, by decide, by decide⟩, by decide,
        ⟨"showpage\r", ["%%Trailer"], rfl, by decide⟩⟩, "q rectclip", rfl, by decide⟩
  have htop : topSample.Clipped :=
    ⟨topSample.lines.take 2, (topSample.lines.drop 2).take 5, topSample.lines.drop 7,
      ⟨rfl, ⟨["%%BoundingBox: 0 0 5 5"], "%%EndPageSetup", rfl, by decide, by decide⟩, by decide,
        ⟨"showpage", ["%%Trailer"], rfl, by decide⟩⟩, "q q rectclip", rfl, by decide⟩
  have hw : ∀ step depth closed,
      .unrestoredSaves step depth closed ∉ (cutSample.merge topSample).1 := by
    have he : (cutSample.merge topSample).1 =
        [.boundingBoxesDiffer "%%BoundingBox: 0 0 9 9" "%%BoundingBox: 0 0 5 5"] := rfl
    simp [he]
  have hlower : (printSample.merge cutSample).2 = .ok mergedSample := rfl
  have hupper : (cutSample.merge topSample).2 = .ok upperSample := rfl
  obtain ⟨abc, hleft, hright⟩ := merge_assoc hlower hupper hcut htop hw
  have hstacked : (mergedSample.merge topSample).2 = .ok stackedSample := rfl
  obtain rfl : abc = stackedSample := Except.ok.inj (hleft.symm.trans hstacked)
  exact ⟨hlower, hupper, hleft, hright⟩

end Document
end CutPath
