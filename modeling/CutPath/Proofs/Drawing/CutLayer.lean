import CutPath.Proofs.Drawing.PrintLayer
import CutPath.Proofs.Drawing.RevealedTag

namespace CutPath
open Markup
set_option autoImplicit true

theorem RegionTag.marks_revealTag (tag : RegionTag) (h : Quotable content) :
    tag.marks (revealTag content) = tag.marks content := by
  rw [marks, h.names_revealTag, marks]

theorem revealTag_ne_nil {tag : RegionTag} (h : Quotable content)
    (hm : tag.marks content = true) : revealTag content ≠ [] := by
  intro he
  rw [← tag.marks_revealTag h, he] at hm
  have hnames : names [] = [] := by decide +kernel
  rw [RegionTag.marks, hnames] at hm
  cases hm

namespace Forest

variable {tag : RegionTag}

/-- How a forest becomes its cut layer if the tags that are made visible are quotable. -/
inductive Cuts (tag : RegionTag) : Forest → Forest → Prop
  | nil : Cuts tag nil nil
  | leaf (hn : Cuts tag next next') : Cuts tag (leaf l next) (leaf l next')
  | emptyShared (hs : isStructural content = true) (hn : Cuts tag next next') :
      Cuts tag (empty content next) (empty content next')
  | emptyRegion (hs : isStructural content = false) (hm : tag.marks content = true)
      (hq : Quotable content) (hn : Cuts tag next next') :
      Cuts tag (empty content next) (empty (revealTag content) next')
  | emptyDropped (hs : isStructural content = false) (hm : tag.marks content = false)
      (hn : Cuts tag next next') : Cuts tag (empty content next) next'
  | shared (hs : isStructural content = true) (hn : Cuts tag next next') :
      Cuts tag (element content children next) (element content children next')
  | region (hs : isStructural content = false) (hm : tag.marks content = true)
      (hq : Quotable content) (hn : Cuts tag next next') :
      Cuts tag (element content children next) (element (revealTag content) children next')
  | group (hs : isStructural content = false) (hm : tag.marks content = false)
      (hq : Quotable content) (hc : 0 < children.countRegions tag)
      (hi : Cuts tag children children') (hn : Cuts tag next next') :
      Cuts tag (element content children next) (element (revealTag content) children' next')
  | dropped (hs : isStructural content = false) (hm : tag.marks content = false)
      (hc : children.countRegions tag = 0) (hn : Cuts tag next next') :
      Cuts tag (element content children next) next'

theorem cuts_keepRegions {f : Forest} {n : Nat} (hq : ∀ r ∈ f.regionsFrom tag n,
      ∀ content ∈ r.around ++ r.head.tag?.toList, Quotable content) :
    Cuts tag f (f.keepRegions tag) := by
  induction f generalizing n with
  | nil => exact .nil
  | leaf l next ih =>
    rw [regionsFrom_cons rfl, List.forall_mem_append] at hq
    exact .leaf (ih hq.2)
  | empty content next ih =>
    rw [regionsFrom_cons rfl, Head.bears_empty, List.forall_mem_append] at hq
    obtain ⟨hhere, hnext⟩ := hq
    rw [keepRegions]
    cases hs : isStructural content with
    | true => exact .emptyShared hs (ih hnext)
    | false =>
      cases hm : tag.marks content with
      | true =>
        rw [hs, hm] at hhere
        have hcontent := hhere _ (List.mem_singleton_self _) content (List.mem_singleton_self _)
        exact .emptyRegion hs hm hcontent (ih hnext)
      | false => exact .emptyDropped hs hm (ih hnext)
  | element content children next ihc ihn =>
    rw [keepRegions]
    cases hs : isStructural content with
    | true =>
      rw [regionsFrom_structural hs] at hq
      exact .shared hs (ihn hq)
    | false =>
      cases hm : tag.marks content with
      | true =>
        rw [regionsFrom_marked hs hm, List.forall_mem_cons] at hq
        exact .region hs hm (hq.1 content (List.mem_singleton_self _)) (ihn hq.2)
      | false =>
        rw [regionsFrom_passed hs hm, List.forall_mem_append, List.forall_mem_map] at hq
        obtain ⟨hinner, hnext⟩ := hq
        by_cases hc : 0 < children.countRegions tag
        · obtain ⟨r, hr⟩ := List.exists_mem_of_length_pos (countRegions_eq children 0 ▸ hc)
          have hcontent := hinner r hr content List.mem_cons_self
          have hchildren := ihc fun r hr shown hm => hinner r hr shown (List.mem_cons_of_mem _ hm)
          rw [if_neg Bool.false_ne_true, if_neg Bool.false_ne_true, if_pos hc]
          exact .group hs hm hcontent hc hchildren (ihn hnext)
        · rw [if_neg Bool.false_ne_true, if_neg Bool.false_ne_true, if_neg hc]
          exact .dropped hs hm (Nat.eq_zero_of_not_pos hc) (ihn hnext)

/-- Whether a forest is a cut layer: its elements but the structural ones are visible, and are
tagged or lead to tagged ones. -/
def Kept (tag : RegionTag) : Forest → Prop
  | nil => True
  | leaf _ next => next.Kept tag
  | empty content next =>
    (isStructural content = false → tag.marks content = true ∧ revealTag content = content) ∧
      next.Kept tag
  | element content children next =>
    (isStructural content = false → revealTag content = content ∧
      (tag.marks content = false → 0 < children.countRegions tag ∧ children.Kept tag)) ∧
      next.Kept tag

namespace Cuts

theorem countRegions_eq (h : Cuts tag f g) : g.countRegions tag = f.countRegions tag := by
  induction h with
  | nil => rfl
  | leaf _ ih => exact ih
  | emptyShared _ _ ih => rw [countRegions, countRegions, ih]
  | emptyRegion _ _ hq _ ih =>
    rw [countRegions, countRegions, ih, isStructural_revealTag, tag.marks_revealTag hq]
  | emptyDropped hs hm _ ih =>
    rw [countRegions, ih, hs, hm]
    exact (Nat.zero_add _).symm
  | shared _ _ ih => rw [countRegions, countRegions, ih]
  | region hs hm hq _ ih =>
    rw [countRegions, countRegions, ih, isStructural_revealTag, tag.marks_revealTag hq]
  | group hs hm hq _ _ _ ihi ihn =>
    rw [countRegions, countRegions, ihi, ihn, isStructural_revealTag, tag.marks_revealTag hq]
  | dropped hs hm hc _ ih =>
    rw [countRegions, ih, hs, hm, hc]
    exact (Nat.zero_add _).symm

theorem kept (h : Cuts tag f g) : g.Kept tag := by
  induction h with
  | nil => trivial
  | leaf _ ih => exact ih
  | emptyShared hs _ ih => exact ⟨fun hs' => (nomatch hs.symm.trans hs'), ih⟩
  | emptyRegion _ hm hq _ ih =>
    exact ⟨fun _ => ⟨tag.marks_revealTag hq ▸ hm, hq.revealTag_revealTag⟩, ih⟩
  | emptyDropped _ _ _ ih => exact ih
  | shared hs _ ih => exact ⟨fun hs' => (nomatch hs.symm.trans hs'), ih⟩
  | region _ hm hq _ ih =>
    rw [← tag.marks_revealTag hq] at hm
    exact ⟨fun _ => ⟨hq.revealTag_revealTag, fun hm' => (nomatch hm.symm.trans hm')⟩, ih⟩
  | group _ _ hq hc hi _ ihi ihn =>
    rw [← hi.countRegions_eq] at hc
    exact ⟨fun _ => ⟨hq.revealTag_revealTag, fun _ => ⟨hc, ihi⟩⟩, ihn⟩
  | dropped _ _ _ _ ih => exact ih

theorem readable (h : Cuts tag f g) (hf : f.Readable) : g.Readable := by
  induction h with
  | nil => trivial
  | leaf _ ih => exact ⟨hf.1, ih hf.2⟩
  | emptyShared _ _ ih => exact ⟨hf.1, ih hf.2⟩
  | emptyRegion _ hm hq _ ih =>
    exact ⟨hq.readable_emptyTag_revealTag hf.1 (revealTag_ne_nil hq hm), ih hf.2⟩
  | emptyDropped _ _ _ ih => exact ih hf.2
  | shared _ _ ih => exact ⟨hf.1, hf.2.1, hf.2.2.1, ih hf.2.2.2⟩
  | region _ _ hq _ ih =>
    obtain ⟨hopen, hclose, hchildren, hnext⟩ := hf
    rw [← tagName_revealTag] at hclose
    exact ⟨hq.readable_openTag_revealTag hopen, hclose, hchildren, ih hnext⟩
  | group _ _ hq _ _ _ ihi ihn =>
    obtain ⟨hopen, hclose, hchildren, hnext⟩ := hf
    rw [← tagName_revealTag] at hclose
    exact ⟨hq.readable_openTag_revealTag hopen, hclose, ihi hchildren, ihn hnext⟩
  | dropped _ _ _ _ ih => exact ih hf.2.2.2

end Cuts

theorem keepRegions_of_kept {f : Forest} (h : f.Kept tag) : f.keepRegions tag = f := by
  induction f with
  | nil => rfl
  | leaf l next ih => rw [keepRegions, ih h]
  | empty content next ih =>
    obtain ⟨hshown, hnext⟩ := h
    rw [keepRegions, ih hnext]
    cases hs : isStructural content with
    | true => rfl
    | false =>
      obtain ⟨hm, hreveal⟩ := hshown hs
      rw [hm, hreveal]
      rfl
  | element content children next ihc ihn =>
    obtain ⟨hshown, hnext⟩ := h
    rw [keepRegions, ihn hnext]
    cases hs : isStructural content with
    | true => rfl
    | false =>
      obtain ⟨hreveal, hinner⟩ := hshown hs
      rw [hreveal]
      cases hm : tag.marks content with
      | true => rfl
      | false =>
        obtain ⟨hc, hkept⟩ := hinner hm
        rw [if_pos hc, ihc hkept]
        rfl

theorem Kept.addLeaf {f : Forest} (h : f.Kept tag) (l : Leaf) : (f.addLeaf l).Kept tag := by
  rcases addLeaf_cases l f with ⟨he, -⟩ | ⟨raw, raw', next, rfl, rfl, he⟩ <;> rw [he] <;> exact h

theorem Kept.joinTexts {f : Forest} (h : f.Kept tag) : f.joinTexts.Kept tag := by
  induction f with
  | nil => trivial
  | leaf l next ih => exact (ih h).addLeaf l
  | empty content next ih => exact ⟨h.1, ih h.2⟩
  | element content children next ihc ihn =>
    refine ⟨fun hs => ⟨(h.1 hs).1, fun hm => ?_⟩, ihn h.2⟩
    obtain ⟨hc, hkept⟩ := (h.1 hs).2 hm
    rw [countRegions_joinTexts]
    exact ⟨hc, ihc hkept⟩

theorem mapRoot_of_eq {g : Forest → Forest} {f : Forest} (h : g f.rootChildren = f.rootChildren) :
    f.mapRoot g = f := by
  induction f with
  | nil => rfl
  | leaf l next ih => rw [mapRoot, ih h]
  | empty => rfl
  | element content children next => rw [mapRoot, show g children = children from h]

end Forest

/-- A cut layer is a drawing that is its own cut layer, with the same number of regions, if the tags
that were made visible are quotable; only a byte order mark in front is not kept. -/
theorem splitLayers_cut {t : Text} {d : Drawing} {tag : RegionTag} {l : LayerSplit}
    (hd : Drawing.parse t = .ok d) (hl : splitLayers t tag = .ok (some l))
    (hq : ∀ r ∈ d.regions tag, ∀ content ∈ r.around.tail ++ r.head.tag?.toList, Quotable content) :
    ∃ l', splitLayers l.cut tag = .ok (some l') ∧ l'.regions = l.regions ∧
      l'.cut = Drawing.dropByteOrderMark l.cut ∧
      (l.cut.head? ≠ some '\ufeff' → l'.cut = l.cut) := by
  obtain ⟨d', hd', hc, rfl⟩ := splitLayers_eq_some hl
  obtain rfl : d' = d := Except.ok.inj (hd'.symm.trans hd)
  obtain ⟨k, head, content, before, after, hroot⟩ :=
    Forest.exists_rootedAt 0 (Drawing.hasElement_of_parse hd)
  rw [Drawing.regions_eq hroot, List.forall_mem_map] at hq
  have hcuts := Forest.cuts_keepRegions hq
  have hread : (d'.cutLayer tag).content.Readable :=
    (Drawing.readable_of_parse hd).mapRoot hcuts.readable
  have hparse : Drawing.parse (d'.cutLayer tag).write = .ok (d'.cutLayer tag).reread :=
    Drawing.parse_mapRoot hd hcuts.readable
  have hchildren : (d'.cutLayer tag).content.rootChildren =
      d'.content.rootChildren.keepRegions tag := Forest.rootChildren_mapRoot rfl _
  have hcount : (d'.cutLayer tag).reread.countRegions tag = d'.countRegions tag := by
    rw [Drawing.countRegions_reread, Drawing.countRegions, hchildren, hcuts.countRegions_eq,
      Drawing.countRegions]
  have hfixed : (d'.cutLayer tag).reread.cutLayer tag = (d'.cutLayer tag).reread := by
    have hkept : (d'.cutLayer tag).reread.content.rootChildren.Kept tag := by
      rw [Drawing.rootChildren_reread, hchildren]
      exact hcuts.kept.joinTexts
    rw [Drawing.cutLayer, Forest.mapRoot_of_eq (Forest.keepRegions_of_kept hkept)]
  have hsplit := splitLayers_of_parse hparse tag
  rw [Drawing.split?, if_neg (hcount ▸ hc), hfixed] at hsplit
  have hwrite := Drawing.write_reread hread
  exact ⟨_, hsplit, hcount, hwrite, fun hm => hwrite.trans (Drawing.dropByteOrderMark_of_ne hm)⟩

def hiddenGroup : Drawing :=
  ⟨.element "svg" (.element "g label='A &amp; B' display='none'"
    (.empty "path id='CutContour' style='display:none; font:\"A\"'" .nil) .nil) .nil⟩

theorem splitLayers_cut_hidden :
    hiddenGroup.cutLayer .default =
      ⟨.element "svg" (.element "g label=\"A &amp; B\""
        (.empty "path id=\"CutContour\" style=\"font:&quot;A&quot;\"" .nil) .nil) .nil⟩ ∧
    ∃ l', splitLayers (hiddenGroup.cutLayer .default).write .default = .ok (some l') ∧
      l'.regions = 1 ∧ l'.cut = (hiddenGroup.cutLayer .default).write := by
  have hparse : Drawing.parse hiddenGroup.write = .ok hiddenGroup :=
    ok_of_toOption (by decide +kernel)
  have hsplit : hiddenGroup.split? .default = some
      ⟨(hiddenGroup.cutLayer .default).write, (hiddenGroup.printLayer .default).write, 1⟩ := by
    decide +kernel
  have h := (splitLayers_of_parse hparse .default).trans (congrArg Except.ok hsplit)
  obtain ⟨l', hagain, hregions, -, hcut⟩ := splitLayers_cut hparse h (by decide +kernel)
  exact ⟨by decide +kernel, l', hagain, hregions, hcut (by decide +kernel)⟩

def inchMark : Drawing :=
  ⟨.element "svg" (.empty "path id=\"CutContour\" aria-label='5\"'" .nil) .nil⟩

/-- The value is put between double quotes as it stands, and the cut layer is no drawing. -/
theorem splitLayers_cut_inchMark :
    splitLayers inchMark.write .default = .ok (some
      ⟨"<svg><path id=\"CutContour\" aria-label=\"5\"\"/></svg>", "<svg></svg>", 1⟩) ∧
    ∀ l', splitLayers "<svg><path id=\"CutContour\" aria-label=\"5\"\"/></svg>" .default ≠
      .ok (some l') := by
  have hparse : Drawing.parse inchMark.write = .ok inchMark := ok_of_toOption (by decide +kernel)
  have hsplit : inchMark.split? .default = some
      ⟨"<svg><path id=\"CutContour\" aria-label=\"5\"\"/></svg>", "<svg></svg>", 1⟩ := by
    decide +kernel
  have hfault : (Drawing.parse "<svg><path id=\"CutContour\" aria-label=\"5\"\"/></svg>").isOk =
      false := by
    decide +kernel
  refine ⟨(splitLayers_of_parse hparse .default).trans (congrArg Except.ok hsplit), ?_⟩
  intro l' h
  obtain ⟨d, hd, -⟩ := splitLayers_eq_some h
  rw [hd] at hfault
  cases hfault

end CutPath
