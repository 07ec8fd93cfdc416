import CutPath.Proofs.Document.Fragment

namespace CutPath
open Text
set_option autoImplicit true

theorem Marker.split_at_first {p : Text → Bool} (h : lines.findIdx? p = some i) :
    ∃ before line after, lines = before ++ line :: after ∧ before.length = i ∧ p line = true ∧
      ∀ l ∈ before, p l = false := by
  obtain ⟨hi, hp, hbefore⟩ := List.findIdx?_eq_some_iff_getElem.1 h
  refine ⟨lines.take i, lines[i], lines.drop (i + 1), ?_, ?_, hp, ?_⟩
  · rw [← List.drop_eq_getElem_cons hi, List.take_append_drop]
  · rw [List.length_take, Nat.min_eq_left (Nat.le_of_lt hi)]
  · intro l hl
    obtain ⟨j, hj, rfl⟩ := List.getElem_of_mem hl
    rw [List.length_take] at hj
    rw [List.getElem_take]
    simpa using hbefore j (by omega)

theorem Marker.split_unique {p : Text → Bool} (h : a ++ x :: b = a' ++ x' :: b') (hx : p x = true)
    (hx' : p x' = true) (ha : ∀ l ∈ a, p l = false) (ha' : ∀ l ∈ a', p l = false) :
    a = a' ∧ x = x' ∧ b = b' := by
  induction a generalizing a' with
  | nil =>
    cases a' with
    | nil => exact ⟨rfl, List.cons.inj h⟩
    | cons y a' =>
      obtain ⟨rfl, -⟩ := List.cons.inj h
      rw [ha' x List.mem_cons_self] at hx
      cases hx
  | cons y a ih =>
    cases a' with
    | nil =>
      obtain ⟨rfl, -⟩ := List.cons.inj h
      rw [ha y List.mem_cons_self] at hx'
      cases hx'
    | cons z a' =>
      obtain ⟨rfl, ht⟩ := List.cons.inj h
      obtain ⟨rfl, hrest⟩ := ih ht (fun l hl => ha l (.tail y hl)) fun l hl => ha' l (.tail y hl)
      exact ⟨rfl, hrest⟩

namespace Document

/-- A document cut at its first page: `head` ends with the first line that ends a page setup, and
`tail` starts with the first line after it that paints a page. -/
structure PageAt (d : Document) (head body tail : List Text) : Prop where
  lines_eq : d.lines = head ++ body ++ tail
  setup : ∃ before line, head = before ++ [line] ∧ Marker.opens Marker.endPageSetup line = true ∧
    ∀ l ∈ before, Marker.opens Marker.endPageSetup l = false
  not_paint : ∀ l ∈ body, Marker.isPaint l = false
  paint : ∃ line rest, tail = line :: rest ∧ Marker.isPaint line = true

theorem PageAt.unique {d : Document} (h : d.PageAt head body tail)
    (h' : d.PageAt head' body' tail') : head = head' ∧ body = body' ∧ tail = tail' := by
  obtain ⟨before, setup, rfl, hs, hbefore⟩ := h.setup
  obtain ⟨before', setup', rfl, hs', hbefore'⟩ := h'.setup
  obtain ⟨paint, rest, rfl, hp⟩ := h.paint
  obtain ⟨paint', rest', rfl, hp'⟩ := h'.paint
  have he := h.lines_eq.symm.trans h'.lines_eq
  simp only [List.append_assoc, List.singleton_append] at he
  obtain ⟨rfl, rfl, hrest⟩ := Marker.split_unique he hs hs' hbefore hbefore'
  obtain ⟨rfl, rfl, rfl⟩ := Marker.split_unique hrest hp hp' h.not_paint h'.not_paint
  exact ⟨rfl, rfl, rfl⟩

theorem pageAt_of_markers {d : Document} (hsetup : Marker.pageSetupEnd? d.lines = some setupEnd)
    (hpaint : Marker.pagePaint? (setupEnd + 1) d.lines = some paint) :
    d.PageAt (d.lines.take (setupEnd + 1)) ((d.lines.take paint).drop (setupEnd + 1))
      (d.lines.drop paint) := by
  obtain ⟨before, setup, rest, hlines, rfl, hs, hbefore⟩ := Marker.split_at_first hsetup
  have htake : d.lines.take (before.length + 1) = before ++ [setup] := by
    rw [hlines, List.append_cons, List.take_left' (by simp)]
  have hdrop : d.lines.drop (before.length + 1) = rest := by
    rw [hlines, List.append_cons, List.drop_left' (by simp)]
  rw [Marker.pagePaint?, Marker.indexFrom?, Option.map_eq_some_iff] at hpaint
  obtain ⟨i, hi, rfl⟩ := hpaint
  rw [hdrop] at hi
  obtain ⟨body, line, after, hrest, rfl, hp, hbody⟩ := Marker.split_at_first hi
  have hbodyEq : (d.lines.take (body.length + (before.length + 1))).drop (before.length + 1) =
      body := by
    rw [List.drop_take, hdrop, Nat.add_sub_cancel, hrest, List.take_left]
  have htail : d.lines.drop (body.length + (before.length + 1)) = line :: after := by
    rw [Nat.add_comm, ← List.drop_drop, hdrop, hrest, List.drop_left]
  rw [htake, hbodyEq, htail]
  refine ⟨?_, ⟨before, setup, rfl, hs, hbefore⟩, hbody, ⟨line, after, rfl, hp⟩⟩
  rw [hlines, hrest]
  simp

end Document

namespace PageParts

structure Describes (p : PageParts) (d : Document) (head body tail : List Text) : Prop where
  page : d.PageAt head body tail
  head_eq : d.lines.take (p.setupEnd + 1) = head
  tail_eq : d.lines.drop p.paint = tail
  depth_eq : p.depth = p.clip.elim 0 Page.saveDepth
  fragment : Page.Fragment body p.clip p.fragment p.closed

theorem describes_of_ofLines (h : ofLines layer lines = .ok p) :
    ∃ head body tail, p.Describes ⟨lines⟩ head body tail := by
  unfold ofLines at h
  split at h
  · cases h
  split at h
  · cases h
  next setupEnd hsetup =>
  split at h
  · cases h
  next paint hpaint =>
  cases h
  exact ⟨_, _, _, Document.pageAt_of_markers hsetup hpaint, rfl, rfl, rfl,
    Page.fragment_of_body rfl rfl⟩

end PageParts

namespace Document

theorem merge_eq_ok {print cut m : Document} (h : (print.merge cut).2 = .ok m) :
    ∃ p c, PageParts.ofLines .print print.lines = .ok p ∧
      PageParts.ofLines .cut cut.lines = .ok c ∧ m.lines = mergedLines cut.lines p c ∧
      (print.merge cut).1 = p.warnings .print ++ c.warnings .cut ++ boundingBoxWarnings p c := by
  cases hp : PageParts.ofLines .print print.lines with
  | error f => simp [merge, hp] at h
  | ok p =>
    cases hc : PageParts.ofLines .cut cut.lines with
    | error f => simp [merge, hp, hc] at h
    | ok c =>
      cases ht : Marker.trailer? (c.paint + 1) cut.lines with
      | none => simp [merge, hp, hc, ht] at h
      | some trailer =>
        simp only [merge, hp, hc, ht, Except.ok.injEq] at h ⊢
        exact ⟨p, c, rfl, rfl, by rw [← h], rfl⟩

/-- The restores of the cut document's clip line, as a merge writes them. -/
def closing (c : PageParts) (tail : List Text) : List Text :=
  if c.closed = 0 then [] else [Page.restores c.closed ++ lineEnding (tail.headD [])]

theorem mem_closing {c : PageParts} (h : line ∈ closing c tail) :
    0 < c.closed ∧ line = Page.restores c.closed ++ lineEnding (tail.headD []) := by
  unfold closing at h
  split at h
  · cases h
  · next hne => exact ⟨Nat.pos_of_ne_zero hne, List.mem_singleton.1 h⟩

theorem stream_closing (c : PageParts) (tail : List Text) :
    stream (closing c tail) = List.replicate c.closed Page.restoreToken := by
  unfold closing
  split
  · next h => rw [h]; rfl
  · rw [stream_cons, words_append_lineEnding, Page.words_restores, stream_nil, List.append_nil]

/-- The pages that a merge of two documents puts together, and what it takes of them. -/
structure Layout (print cut m : Document) where
  printHead : List Text
  printBody : List Text
  printTail : List Text
  head : List Text
  body : List Text
  tail : List Text
  printParts : PageParts
  cutParts : PageParts
  print_ok : PageParts.ofLines .print print.lines = .ok printParts
  cut_ok : PageParts.ofLines .cut cut.lines = .ok cutParts
  print_page : printParts.Describes print printHead printBody printTail
  cut_page : cutParts.Describes cut head body tail
  lines_eq : m.lines = head ++ cutParts.clip.toList ++ printParts.fragment ++ cutParts.fragment ++
    closing cutParts tail ++ tail
  warnings_eq : (print.merge cut).1 =
    printParts.warnings .print ++ cutParts.warnings .cut ++ boundingBoxWarnings printParts cutParts

theorem exists_layout {print cut m : Document} (h : (print.merge cut).2 = .ok m) :
    Nonempty (Layout print cut m) := by
  obtain ⟨p, c, hp, hc, hm, hw⟩ := merge_eq_ok h
  obtain ⟨printHead, printBody, printTail, hprint⟩ := PageParts.describes_of_ofLines hp
  obtain ⟨head, body, tail, hcut⟩ := PageParts.describes_of_ofLines hc
  refine ⟨⟨printHead, printBody, printTail, head, body, tail, p, c, hp, hc, hprint, hcut, ?_, hw⟩⟩
  rw [hm, mergedLines, closing, ← hcut.head_eq, ← hcut.tail_eq]

namespace Layout

variable {print cut m : Document}

def merged (l : Layout print cut m) : List Text :=
  l.cutParts.clip.toList ++ l.printParts.fragment ++ l.cutParts.fragment ++
    closing l.cutParts l.tail

/-- The page of a merged document stands where the cut document's page stood. -/
theorem pageAt (l : Layout print cut m) : m.PageAt l.head l.merged l.tail := by
  have hprint := l.print_page.fragment.forall_eq_false Page.isPaint_restores
    l.print_page.page.not_paint
  have hcut := l.cut_page.fragment.forall_eq_false Page.isPaint_restores l.cut_page.page.not_paint
  have hclose : ∀ line ∈ closing l.cutParts l.tail, Marker.isPaint line = false := by
    intro line hl
    rw [(mem_closing hl).2, Page.isPaint_restores]
  refine ⟨?_, l.cut_page.page.setup, ?_, l.cut_page.page.paint⟩
  · simp only [l.lines_eq, merged, List.append_assoc]
  · simp only [merged, List.mem_append, or_imp, forall_and] at hprint hcut ⊢
    exact ⟨⟨⟨hcut.1, hprint.2⟩, hcut.2⟩, hclose⟩

end Layout

theorem PageAt.countP_isPaint (h : PageAt d head body tail) :
    d.lines.countP Marker.isPaint = head.countP Marker.isPaint + tail.countP Marker.isPaint := by
  have hb : body.countP Marker.isPaint = 0 := by
    rw [List.countP_eq_zero]
    simpa using h.not_paint
  rw [h.lines_eq, List.countP_append, List.countP_append, hb, Nat.add_zero]

/-- A merge neither loses nor doubles nor moves a drawing command: of the cut document it keeps all
but the page body, and of both page bodies, the print document's first, it keeps all but blank
lines and the clip line at their beginning and restores at their end. -/
theorem merge_layout {print cut m : Document} (h : (print.merge cut).2 = .ok m) :
    ∃ l : Layout print cut m,
      print.PageAt l.printHead l.printBody l.printTail ∧ cut.PageAt l.head l.body l.tail ∧
      Page.Fragment l.printBody l.printParts.clip l.printParts.fragment l.printParts.closed ∧
      Page.Fragment l.body l.cutParts.clip l.cutParts.fragment l.cutParts.closed ∧
      (∃ close, m.lines = l.head ++ l.cutParts.clip.toList ++ l.printParts.fragment ++
          l.cutParts.fragment ++ close ++ l.tail ∧
        close.length ≤ 1 ∧ (∀ line ∈ close, Page.isRestoreOnly line = true) ∧
        stream close = List.replicate l.cutParts.closed Page.restoreToken) ∧
      m.lines.countP Marker.isPaint = cut.lines.countP Marker.isPaint := by
  obtain ⟨l⟩ := exists_layout h
  refine ⟨l, l.print_page.page, l.cut_page.page, l.print_page.fragment, l.cut_page.fragment,
    ⟨closing l.cutParts l.tail, l.lines_eq, ?_, ?_, stream_closing _ _⟩, ?_⟩
  · unfold closing
    split <;> simp
  · intro line hl
    obtain ⟨hpos, rfl⟩ := mem_closing hl
    exact Page.isRestoreOnly_restores hpos _
  · rw [l.pageAt.countP_isPaint, l.cut_page.page.countP_isPaint]

def printSample : Document :=
  ⟨["%%BoundingBox: 0 0 9 9", "%%EndPageSetup", "", "q 0 0 9 9 rectclip q", "q", "0 0 m f",
    "Q Q Q\r", " ", "showpage"]⟩

def cutSample : Document :=
  ⟨["%%BoundingBox: 0 0 9 9", "%%EndPageSetup", "q rectclip", "1 1 m S", "Q", "showpage\r",
    "%%Trailer"]⟩

def mergedSample : Document :=
  ⟨["%%BoundingBox: 0 0 9 9", "%%EndPageSetup", "q rectclip", "q", "0 0 m f", "Q\r", "1 1 m S",
    "Q\r", "showpage\r", "%%Trailer"]⟩

theorem merge_layout_sample : (printSample.merge cutSample).2 = .ok mergedSample ∧
    ∃ l : Layout printSample cutSample mergedSample,
      printSample.PageAt l.printHead l.printBody l.printTail ∧
      cutSample.PageAt l.head l.body l.tail ∧
      Page.Fragment l.printBody l.printParts.clip l.printParts.fragment l.printParts.closed ∧
      Page.Fragment l.body l.cutParts.clip l.cutParts.fragment l.cutParts.closed ∧
      (∃ close, mergedSample.lines = l.head ++ l.cutParts.clip.toList ++ l.printParts.fragment ++
          l.cutParts.fragment ++ close ++ l.tail ∧
        close.length ≤ 1 ∧ (∀ line ∈ close, Page.isRestoreOnly line = true) ∧
        stream close = List.replicate l.cutParts.closed Page.restoreToken) ∧
      mergedSample.lines.countP Marker.isPaint = cutSample.lines.countP Marker.isPaint :=
  ⟨rfl, merge_layout rfl⟩

end Document
end CutPath
