import CutPath.Proofs.Document.MergeLayout

namespace CutPath
open Text
set_option autoImplicit true

/-- The saves of some lines less their restores. -/
def netSaves (lines : List Text) : Int :=
  (stream lines).count Page.saveToken - (stream lines).count Page.restoreToken

@[simp] theorem netSaves_append (a b : List Text) :
    netSaves (a ++ b) = netSaves a + netSaves b := by
  simp only [netSaves, stream_append, List.count_append]
  omega

theorem netSaves_of_stream_eq (h : stream lines = List.replicate n Page.restoreToken) :
    netSaves lines = -(n : Int) := by
  have hs : Page.restoreToken ≠ Page.saveToken := by decide
  have hb : (Page.restoreToken == Page.saveToken) = false := beq_eq_false_iff_ne.2 hs
  rw [netSaves, h, List.count_replicate_self, List.count_replicate, hb]
  simp

theorem netSaves_singleton (h : Page.restoreToken ∉ words line) :
    netSaves [line] = Page.saveDepth line := by
  rw [netSaves, stream_cons, stream_nil, List.append_nil, List.count_eq_zero_of_not_mem h,
    Page.saveDepth, countWord]
  simp

theorem Page.Fragment.netSaves_eq (h : Fragment body clip fragment closed) :
    netSaves body = netSaves clip.toList + netSaves fragment - closed := by
  have hs : Page.restoreToken ≠ Page.saveToken := by decide
  have hb : (Page.restoreToken == Page.saveToken) = false := beq_eq_false_iff_ne.2 hs
  simp only [netSaves, h.stream_eq, List.count_append, List.count_replicate, hb, beq_self_eq_true,
    ↓reduceIte, Bool.false_eq_true]
  omega

namespace Document.Layout

variable {print cut m : Document}

theorem netSaves_merged (l : Layout print cut m) :
    netSaves l.merged = netSaves l.body + netSaves l.printBody -
      netSaves l.printParts.clip.toList + l.printParts.closed := by
  have hp := l.print_page.fragment.netSaves_eq
  have hc := l.cut_page.fragment.netSaves_eq
  have hclose := netSaves_of_stream_eq (stream_closing l.cutParts l.tail)
  simp only [merged, netSaves_append]
  omega

/-- Without a remark on the print document, all saves of its clip line are restored at its end. -/
theorem closed_eq_depth (l : Layout print cut m)
    (hw : ∀ depth closed,
      .unrestoredSaves Layer.print.bodyStep depth closed ∉ (print.merge cut).1) :
    l.printParts.closed = l.printParts.clip.elim 0 Page.saveDepth := by
  have hle := l.print_page.fragment.closed_le
  rw [← l.print_page.depth_eq] at hle ⊢
  have hlt : ¬ l.printParts.closed < l.printParts.depth := by
    intro h
    apply hw l.printParts.depth l.printParts.closed
    simp only [l.warnings_eq, PageParts.warnings, if_pos h, List.mem_append, List.mem_singleton,
      true_or]
  omega

theorem netSaves_clip (l : Layout print cut m)
    (hr : ∀ line ∈ l.printParts.clip, Page.restoreToken ∉ words line) :
    netSaves l.printParts.clip.toList = l.printParts.clip.elim 0 Page.saveDepth := by
  cases hc : l.printParts.clip with
  | none => rfl
  | some line => exact netSaves_singleton (hr line hc)

end Document.Layout

namespace Document

/-- The balance of a merged page, and of what comes before its cut artwork. -/
theorem merge_netSaves {print cut m : Document} (h : (print.merge cut).2 = .ok m) :
    ∃ l : Layout print cut m, m.PageAt l.head l.merged l.tail ∧
      print.PageAt l.printHead l.printBody l.printTail ∧ cut.PageAt l.head l.body l.tail ∧
      netSaves l.merged = netSaves l.body + netSaves l.printBody -
        netSaves l.printParts.clip.toList + l.printParts.closed ∧
      stream l.printBody = stream l.printParts.clip.toList ++ stream l.printParts.fragment ++
        List.replicate l.printParts.closed Page.restoreToken ∧
      (∃ closing, l.merged = l.cutParts.clip.toList ++ l.printParts.fragment ++
        l.cutParts.fragment ++ closing) ∧
      netSaves (l.cutParts.clip.toList ++ l.printParts.fragment) =
        netSaves l.cutParts.clip.toList + netSaves l.printParts.fragment ∧
      (netSaves l.body = 0 → netSaves l.printBody = 0 →
        (∀ line ∈ l.printParts.clip, Page.restoreToken ∉ words line) →
        (∀ depth closed,
          .unrestoredSaves Layer.print.bodyStep depth closed ∉ (print.merge cut).1) →
        netSaves l.merged = 0 ∧
          netSaves (l.cutParts.clip.toList ++ l.printParts.fragment) =
            netSaves l.cutParts.clip.toList) := by
  obtain ⟨l⟩ := exists_layout h
  have hnet := l.netSaves_merged
  have hfragment := l.print_page.fragment.netSaves_eq
  refine ⟨l, l.pageAt, l.print_page.page, l.cut_page.page, hnet, l.print_page.fragment.stream_eq,
    ⟨_, rfl⟩, netSaves_append _ _, fun hbody hprint hr hw => ?_⟩
  have hclosed := l.closed_eq_depth hw
  have hclip := l.netSaves_clip hr
  rw [netSaves_append]
  omega

theorem merge_netSaves_sample : (printSample.merge cutSample).2 = .ok mergedSample ∧
    ∃ l : Layout printSample cutSample mergedSample, netSaves l.body = 0 ∧
      netSaves l.printBody = 0 ∧ (∀ line ∈ l.printParts.clip, Page.restoreToken ∉ words line) ∧
      netSaves l.merged = 0 ∧ netSaves (l.cutParts.clip.toList ++ l.printParts.fragment) = 1 := by
  have h : (printSample.merge cutSample).2 = .ok mergedSample := rfl
  obtain ⟨l, -, -, -, -, -, -, -, hbalanced⟩ := merge_netSaves h
  have hp := Except.ok.inj (l.print_ok.symm.trans rfl)
  have hc := Except.ok.inj (l.cut_ok.symm.trans rfl)
  have hprint := l.print_page.fragment.stream_eq
  have hcut := l.cut_page.fragment.stream_eq
  have hbody : netSaves l.body = 0 := by
    rw [netSaves, hcut, hc]
    rfl
  have hprintBody : netSaves l.printBody = 0 := by
    rw [netSaves, hprint, hp]
    rfl
  have hclip : ∀ line ∈ l.printParts.clip, Page.restoreToken ∉ words line := by
    rw [hp]
    decide
  have hw : ∀ depth closed,
      .unrestoredSaves Layer.print.bodyStep depth closed ∉ (printSample.merge cutSample).1 := by
    have he : (printSample.merge cutSample).1 = [] := rfl
    simp [he]
  obtain ⟨hmerged, hdepth⟩ := hbalanced hbody hprintBody hclip hw
  refine ⟨h, l, hbody, hprintBody, hclip, hmerged, ?_⟩
  rw [hdepth, hc]
  rfl

end Document
end CutPath
