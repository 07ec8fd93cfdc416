import CutPath.Proofs.Drawing.CutNodes

namespace CutPath
set_option autoImplicit true

namespace Forest

/-- The first element of a forest stands at place `k` of its level, after leaves. -/
structure RootedAt (f : Forest) (n k : Nat) (head : Head) (content : Text)
    (before after : List Spot) : Prop where
  tag?_head : head.tag? = some content
  le : n ≤ k
  leaf_before : ∀ s ∈ before, s.head.tag? = none
  apart_before : ∀ s ∈ before, s.address.head? ≠ some k
  apart_after : ∀ s ∈ after, s.address.head? ≠ some k
  outline : f.outlineFrom n = before ++ ⟨[k], [], head⟩ ::
    ((f.rootChildren.outlineFrom 0).map (Spot.under k content) ++ after)
  levels_mapRoot (g : Forest → Forest) : g nil = nil → (f.mapRoot g).levels =
    before.map Spot.level ++ (1, head) ::
      ((g f.rootChildren).levels.map deeper ++ after.map Spot.level)

theorem head?_address_ne {f : Forest} (hs : s ∈ f.outlineFrom (n + 1)) :
    s.address.head? ≠ some n := by
  obtain ⟨m, hm, hs⟩ := (f.outline_outlineFrom _).head?_address hs
  rw [hs]
  intro h
  have := Option.some.inj h
  omega

theorem exists_rootedAt {f : Forest} (n : Nat) (h : f.hasElement = true) :
    ∃ k head content before after, f.RootedAt n k head content before after := by
  induction f generalizing n with
  | nil => cases h
  | leaf l next ih =>
    obtain ⟨k, head, content, before, after, hr⟩ := ih (n + 1) h
    refine ⟨k, head, content, ⟨[n], [], .leaf l⟩ :: before, after, hr.tag?_head,
      Nat.le_of_succ_le hr.le, ?_, ?_, hr.apart_after, congrArg (_ :: ·) hr.outline, ?_⟩
    · rintro s (_ | ⟨_, hs⟩)
      · rfl
      · exact hr.leaf_before s hs
    · rintro s (_ | ⟨_, hs⟩)
      · intro he
        have hle := hr.le
        cases he
        exact Nat.not_succ_le_self n hle
      · exact hr.apart_before s hs
    · intro g hg
      rw [mapRoot, levels_leaf, hr.levels_mapRoot g hg]
      rfl
  | empty content next =>
    refine ⟨n, .empty content, content, [], next.outlineFrom (n + 1), rfl, Nat.le_refl n,
      fun _ hs => (List.not_mem_nil hs).elim, fun _ hs => (List.not_mem_nil hs).elim,
      fun _ => head?_address_ne, rfl, ?_⟩
    intro g hg
    rw [mapRoot, levels_empty, rootChildren, hg, map_level_outlineFrom]
    rfl
  | element content children next =>
    refine ⟨n, .element content, content, [], next.outlineFrom (n + 1), rfl, Nat.le_refl n,
      fun _ hs => (List.not_mem_nil hs).elim, fun _ hs => (List.not_mem_nil hs).elim,
      fun _ => head?_address_ne, rfl, ?_⟩
    intro g hg
    rw [mapRoot, levels_element, map_level_outlineFrom]
    rfl

end Forest

namespace Drawing

def outline (d : Drawing) : List Spot := d.content.outlineFrom 0

def root? (d : Drawing) : Option Spot := d.outline.find? (·.head.tag?.isSome)

def belowRoot (d : Drawing) (s : Spot) : Bool := d.root?.any fun r => r.Covers s && !s.Covers r

/-- The tagged elements below the root that no tagged and no structural element is around; the root
itself does not count. -/
def regions (d : Drawing) (tag : RegionTag) : List Spot :=
  d.outline.filter fun s => d.belowRoot s && (s.around.tail.all tag.passes && s.head.bears tag)

/-- The leaves and the structural elements in an element with a region inside. -/
def shared (d : Drawing) (tag : RegionTag) : List Spot :=
  d.outline.filter fun s => d.belowRoot s && (s.head.isShared && s.standsBy (d.regions tag))

/-- Whether the print layer has a node. -/
def inPrintLayer (d : Drawing) (tag : RegionTag) (s : Spot) : Bool := !s.coveredBy (d.regions tag)

def inCutLayer (d : Drawing) (tag : RegionTag) (s : Spot) : Bool :=
  !d.belowRoot s ||
    (s.coveredBy (d.regions tag) || s.leadsTo (d.regions tag) || s.coveredBy (d.shared tag))

/-- What a node shows in the cut layer: regions and the elements around them are made visible. -/
def cutHead (d : Drawing) (tag : RegionTag) (s : Spot) : Head :=
  if d.belowRoot s && s.leadsTo (d.regions tag) then s.head.reveal else s.head

theorem belowRoot_of_covers {d : Drawing} (hr : d.belowRoot r = true) (hc : r.Covers s) :
    d.belowRoot s = true := by
  rw [belowRoot, Option.any_eq_true] at hr ⊢
  obtain ⟨root, hroot, h⟩ := hr
  rw [Bool.and_eq_true, Bool.not_eq_true', decide_eq_true_eq, decide_eq_false_iff_not] at h
  refine ⟨root, hroot, ?_⟩
  rw [decide_eq_true (h.1.trans hc), decide_eq_false fun hc' => h.2 (hc.trans hc')]
  rfl

theorem mem_regions {d : Drawing} : r ∈ d.regions tag ↔ r ∈ d.outline ∧ d.belowRoot r = true ∧
    r.around.tail.all tag.passes = true ∧ r.head.bears tag = true := by
  rw [regions, List.mem_filter, Bool.and_eq_true, Bool.and_eq_true]

theorem belowRoot_of_coveredBy {d : Drawing} (h : s.coveredBy (d.regions tag) = true) :
    d.belowRoot s = true := by
  rw [Spot.coveredBy, List.any_eq_true] at h
  obtain ⟨r, hr, hc⟩ := h
  exact belowRoot_of_covers (mem_regions.1 hr).2.1 (of_decide_eq_true hc)

section

variable {d : Drawing} {tag : RegionTag} {k : Nat} {head : Head} {content : Text}
  {before after : List Spot} (hd : d.content.RootedAt 0 k head content before after)

include hd

theorem root?_eq : d.root? = some ⟨[k], [], head⟩ := by
  have hleaf : ∀ s ∈ before, ¬ s.head.tag?.isSome = true := by
    intro s hs
    rw [hd.leaf_before s hs]
    exact Bool.false_ne_true
  rw [root?, outline, hd.outline, List.find?_append, List.find?_eq_none.2 hleaf, Option.none_or,
    List.find?_cons, hd.tag?_head]
  rfl

theorem belowRoot_eq (s : Spot) : d.belowRoot s =
    (decide ((⟨[k], [], head⟩ : Spot).Covers s) && !decide (s.Covers ⟨[k], [], head⟩)) := by
  rw [belowRoot, root?_eq hd]
  rfl

theorem belowRoot_apart (hs : s.address.head? ≠ some k) : d.belowRoot s = false := by
  have hc : ¬ (⟨[k], [], head⟩ : Spot).Covers s := fun hc => hs (hc.head?_eq rfl)
  rw [belowRoot_eq hd, decide_eq_false hc]
  rfl

theorem belowRoot_place : d.belowRoot ⟨[k], [], head⟩ = false := by
  rw [belowRoot_eq hd, decide_eq_true (Spot.Covers.refl _), Bool.not_true, Bool.and_false]

theorem belowRoot_under (hs : s ∈ d.content.rootChildren.outlineFrom 0) :
    d.belowRoot (s.under k content) = true := by
  have ha := (d.content.rootChildren.outline_outlineFrom 0).address_ne_nil hs
  have hc : ¬ (s.under k content).Covers ⟨[k], [], head⟩ := by
    simpa [Spot.Covers, Spot.under] using ha
  rw [belowRoot_eq hd, decide_eq_true (Forest.place_covers_under content [] head s),
    decide_eq_false hc]
  rfl

theorem filter_belowRoot (keep : Spot → Bool) :
    d.outline.filter (fun s => d.belowRoot s && keep s) =
      ((d.content.rootChildren.outlineFrom 0).filter fun s => keep (s.under k content)).map
        (Spot.under k content) := by
  have hout {spots : List Spot} (h : ∀ s ∈ spots, d.belowRoot s = false) :
      spots.filter (fun s => d.belowRoot s && keep s) = [] := by
    rw [List.filter_eq_nil_iff]
    intro s hs
    rw [h s hs]
    exact Bool.false_ne_true
  have hin : ∀ s ∈ d.content.rootChildren.outlineFrom 0,
      (d.belowRoot (s.under k content) && keep (s.under k content)) = keep (s.under k content) := by
    intro s hs
    rw [belowRoot_under hd hs, Bool.true_and]
  rw [outline, hd.outline, List.filter_append, List.filter_cons, List.filter_append,
    hout fun s hs => belowRoot_apart hd (hd.apart_before s hs), belowRoot_place hd,
    hout fun s hs => belowRoot_apart hd (hd.apart_after s hs), List.filter_map, List.append_nil]
  exact congrArg (List.map _) (List.filter_congr hin)

theorem regions_eq : d.regions tag =
    (d.content.rootChildren.regionsFrom tag 0).map (Spot.under k content) :=
  filter_belowRoot hd _

theorem countRegions_eq : d.countRegions tag = (d.regions tag).length := by
  rw [regions_eq hd, List.length_map]
  exact Forest.countRegions_eq _ 0

theorem shared_eq (h : d.regions tag ≠ []) : d.shared tag =
    (d.content.rootChildren.sharedFrom tag 0).map (Spot.under k content) := by
  rw [shared, filter_belowRoot hd, regions_eq hd]
  rw [regions_eq hd, ne_eq, List.map_eq_nil_iff] at h
  congr 1
  apply List.filter_congr
  intro s hs
  exact (Forest.sharesLayer_of_regions h hs k content).symm

theorem levels_mapRoot {g : Forest → Forest} {keep inner : Spot → Bool}
    {shown shownInner : Spot → Head} (hg : g .nil = .nil)
    (hout : ∀ s, d.belowRoot s = false → keep s = true ∧ shown s = s.head)
    (hin : ∀ s ∈ d.content.rootChildren.outlineFrom 0,
      keep (s.under k content) = inner s ∧ shown (s.under k content) = shownInner s)
    (h : (g d.content.rootChildren).levels = d.content.rootChildren.select 0 inner shownInner) :
    (d.content.mapRoot g).levels = d.content.select 0 keep shown := by
  have hstay {spots : List Spot} (hs : ∀ s ∈ spots, d.belowRoot s = false) :
      (spots.filter keep).map (fun s => (s.address.length, shown s)) = spots.map Spot.level := by
    rw [List.filter_eq_self.2 fun s hm => (hout s (hs s hm)).1]
    apply List.map_congr_left
    intro s hm
    rw [(hout s (hs s hm)).2]
    rfl
  have hroot := hout _ (belowRoot_place hd)
  have hselect : d.content.select 0 keep shown = before.map Spot.level ++ (1, head) ::
      ((d.content.rootChildren.select 0 inner shownInner).map Forest.deeper ++
        after.map Spot.level) := by
    rw [Forest.select, hd.outline, List.filter_append, List.filter_cons, List.filter_append,
      if_pos hroot.1, List.map_append, List.map_cons, List.map_append, hroot.2,
      hstay fun s hs => belowRoot_apart hd (hd.apart_before s hs),
      hstay fun s hs => belowRoot_apart hd (hd.apart_after s hs),
      Forest.select_under inner shownInner hin]
    rfl
  rw [hselect, hd.levels_mapRoot g hg, h]

theorem levels_printLayer :
    (d.printLayer tag).content.levels = d.content.select 0 (d.inPrintLayer tag) Spot.head := by
  apply levels_mapRoot hd rfl _ _ (Forest.levels_dropRegions _ 0)
  · intro s hs
    refine ⟨?_, rfl⟩
    cases hc : s.coveredBy (d.regions tag) with
    | false => rw [inPrintLayer, hc, Bool.not_false]
    | true => exact (Bool.false_ne_true (hs.symm.trans (belowRoot_of_coveredBy hc))).elim
  · intro s hs
    refine ⟨?_, rfl⟩
    rw [inPrintLayer, regions_eq hd, Spot.coveredBy_under]
    rfl

theorem levels_cutLayer (h : d.regions tag ≠ []) :
    (d.cutLayer tag).content.levels = d.content.select 0 (d.inCutLayer tag) (d.cutHead tag) := by
  apply levels_mapRoot hd rfl _ _ (Forest.levels_keepRegions _ 0)
  · intro s hs
    rw [inCutLayer, cutHead, hs]
    exact ⟨rfl, rfl⟩
  · intro s hs
    rw [inCutLayer, cutHead, belowRoot_under hd hs, shared_eq hd h, regions_eq hd,
      Bool.not_true, Bool.false_or, Bool.true_and]
    exact ⟨Forest.keeps_under s _ _, Forest.shows_under s _⟩

end

theorem around_ne_nil {d : Drawing} (hs : s ∈ d.outline) (h : d.belowRoot s = true) :
    s.around ≠ [] := by
  rw [belowRoot, Option.any_eq_true] at h
  obtain ⟨root, hroot, h⟩ := h
  rw [Bool.and_eq_true, Bool.not_eq_true', decide_eq_true_eq, decide_eq_false_iff_not] at h
  intro ha
  have hr := List.mem_of_find?_eq_some hroot
  have hlen := (d.content.outline_outlineFrom 0).length_address hr
  have hlen' := (d.content.outline_outlineFrom 0).length_address hs
  rw [ha, List.length_nil] at hlen'
  have he : root.address = s.address := h.1.eq_of_length_le (by omega)
  exact h.2 (he ▸ List.prefix_refl root.address : s.address <+: root.address)

theorem covers_cases {d : Drawing} (hr : r ∈ d.outline) (h : d.belowRoot r = true)
    (hs : s ∈ d.outline) (hc : r.Covers s) :
    r = s ∨ ∃ content, r.head = .element content ∧ content ∈ s.around.tail := by
  rcases (d.content.outline_outlineFrom 0).covers_cases hr hs hc with he | ⟨content, he, ha⟩
  · exact .inl he
  · obtain ⟨outer, rest, hcons⟩ := List.exists_cons_of_ne_nil (around_ne_nil hr h)
    obtain ⟨more, hs⟩ := ha
    rw [hcons] at hs
    refine .inr ⟨content, he, ?_⟩
    rw [← hs]
    simp

theorem regions_apart {d : Drawing} (hr : r ∈ d.regions tag) (hs : s ∈ d.regions tag)
    (hc : r.Covers s) : r = s := by
  obtain ⟨hr, hbelow, -, hb⟩ := mem_regions.1 hr
  obtain ⟨hs, -, hpass, -⟩ := mem_regions.1 hs
  rcases covers_cases hr hbelow hs hc with he | ⟨content, he, hm⟩
  · exact he
  · have hp := List.all_eq_true.1 hpass content hm
    rw [he] at hb
    simp [Head.bears, Head.tag?, RegionTag.passes] at hb hp
    exact (Bool.false_ne_true (hp.2.symm.trans hb.2)).elim

theorem cutHead_of_inside {d : Drawing} (hr : r ∈ d.regions tag) (hs : s ∈ d.outline)
    (hc : r.Covers s) (hne : s ≠ r) : d.cutHead tag s = s.head := by
  have hl : s.leadsTo (d.regions tag) = false := by
    rw [Spot.leadsTo, List.any_eq_false]
    intro q hq hsq
    have hsq := of_decide_eq_true hsq
    obtain rfl := regions_apart hr hq (hc.trans hsq)
    have hr := (mem_regions.1 hr).1
    exact hne ((d.content.outline_outlineFrom 0).covers_antisymm hs hr hsq hc)
  rw [cutHead, hl, Bool.and_false]
  rfl

/-- A node is an element below the root, neither structural nor inside a structural element; the
root itself may be structural. -/
structure IsArtwork (d : Drawing) (s : Spot) : Prop where
  below : d.belowRoot s = true
  element : ∃ content, s.head.tag? = some content ∧ Markup.isStructural content = false
  around : ∀ content ∈ s.around.tail, Markup.isStructural content = false

theorem IsArtwork.not_coveredBy_shared {d : Drawing} (h : d.IsArtwork s) (hs : s ∈ d.outline) :
    s.coveredBy (d.shared tag) = false := by
  rw [Spot.coveredBy, List.any_eq_false]
  intro r hr hc
  rw [shared, List.mem_filter, Bool.and_eq_true, Bool.and_eq_true] at hr
  obtain ⟨hr, hbelow, hshared, -⟩ := hr
  rw [Head.isShared] at hshared
  rcases covers_cases hr hbelow hs (of_decide_eq_true hc) with rfl | ⟨content, he, hm⟩
  · obtain ⟨content, he, hplain⟩ := h.element
    rw [he, Option.all_some, hplain] at hshared
    cases hshared
  · rw [he, Head.tag?, Option.all_some, h.around content hm] at hshared
    cases hshared

theorem IsArtwork.inCutLayer_eq {d : Drawing} (h : d.IsArtwork s) (hs : s ∈ d.outline)
    (hend : s ∈ d.regions tag ∨
      ∀ u ∈ d.outline, s.Covers u → u.head.tag?.isSome = true → u = s) :
    d.inCutLayer tag s = !d.inPrintLayer tag s := by
  have hleads : s.leadsTo (d.regions tag) = true → s.coveredBy (d.regions tag) = true := by
    intro hl
    obtain ⟨r, hr, hc⟩ := List.any_eq_true.1 hl
    have hregion : s ∈ d.regions tag := by
      rcases hend with hm | hend
      · exact hm
      · obtain ⟨ho, -, -, hb⟩ := mem_regions.1 hr
        exact hend r ho (of_decide_eq_true hc) (Head.isSome_tag?_of_bears hb) ▸ hr
    exact List.any_eq_true.2 ⟨s, hregion, decide_eq_true (Spot.Covers.refl s)⟩
  rw [inCutLayer, inPrintLayer, h.below, h.not_coveredBy_shared hs, Bool.not_not, Bool.not_true,
    Bool.false_or, Bool.or_false]
  cases hc : s.coveredBy (d.regions tag) with
  | true => rfl
  | false =>
    cases hl : s.leadsTo (d.regions tag) with
    | true => exact (Bool.false_ne_true (hc.symm.trans (hleads hl))).elim
    | false => rfl

theorem hasElement_of_parse (h : parse t = .ok d) : d.content.hasElement = true := by
  simp only [parse] at h
  split at h
  · cases h
  · split at h
    · cases h
    · cases h
    · split at h
      · next he =>
        cases h
        exact he
      · cases h

end Drawing

/-- A drawing without regions is not split. Otherwise the print layer has every node that is not in
a region, as it was; the cut layer has the regions with what is inside them, the elements around
them and what the layers share, and only regions and elements around them differ there. A layer is
told by the depths and the heads of its nodes in document order. -/
theorem splitLayers_partition {t : Text} {d : Drawing} (tag : RegionTag)
    (h : Drawing.parse t = .ok d) :
    (splitLayers t tag = .ok none ↔ d.regions tag = []) ∧
    (d.regions tag ≠ [] →
      splitLayers t tag = .ok (some
        ⟨(d.cutLayer tag).write, (d.printLayer tag).write, (d.regions tag).length⟩) ∧
      (∀ f : Forest, f = (d.printLayer tag).content ↔
        f.levels = d.content.select 0 (d.inPrintLayer tag) Spot.head) ∧
      (∀ f : Forest, f = (d.cutLayer tag).content ↔
        f.levels = d.content.select 0 (d.inCutLayer tag) (d.cutHead tag)) ∧
      (∀ r ∈ d.regions tag, ∀ s ∈ d.outline, r.Covers s → s ≠ r → d.cutHead tag s = s.head) ∧
      ∀ s ∈ d.outline, d.IsArtwork s →
        (s ∈ d.regions tag ∨
          ∀ u ∈ d.outline, s.Covers u → u.head.tag?.isSome = true → u = s) →
        d.inCutLayer tag s = !d.inPrintLayer tag s) := by
  obtain ⟨k, head, content, before, after, hd⟩ :=
    Forest.exists_rootedAt 0 (Drawing.hasElement_of_parse h)
  have hcount : d.countRegions tag = (d.regions tag).length := Drawing.countRegions_eq hd
  have hsplit : splitLayers t tag = .ok (d.split? tag) := by rw [splitLayers, h]
  constructor
  · rw [hsplit, Drawing.split?, hcount, ← List.length_eq_zero_iff]
    split <;> simp_all
  · intro hne
    refine ⟨?_, fun f => ?_, fun f => ?_,
      fun r hr s hs => Drawing.cutHead_of_inside hr hs, fun s hs ha => ha.inCutLayer_eq hs⟩
    · rw [hsplit, Drawing.split?, hcount, if_neg fun he => hne (List.length_eq_zero_iff.1 he)]
    · rw [← Drawing.levels_printLayer hd, Forest.levels_inj]
    · rw [← Drawing.levels_cutLayer hd hne, Forest.levels_inj]

def hiddenRegion : Drawing :=
  ⟨.element "svg" (.empty "defs" (.element "g" (.empty "path id=\"CutContour\" display=\"none\""
    (.empty "rect" .nil)) .nil)) .nil⟩

theorem parse_hiddenRegion : Drawing.parse
    "<svg><defs/><g><path id=\"CutContour\" display=\"none\"/><rect/></g></svg>" =
      .ok hiddenRegion := by
  have hsome : (Drawing.parse
      "<svg><defs/><g><path id=\"CutContour\" display=\"none\"/><rect/></g></svg>").toOption =
        some hiddenRegion := by decide +kernel
  cases hp : Drawing.parse
      "<svg><defs/><g><path id=\"CutContour\" display=\"none\"/><rect/></g></svg>" with
  | error f => rw [hp] at hsome; cases hsome
  | ok d => rw [hp] at hsome; rw [Option.some.inj hsome]

theorem regions_hiddenRegion : hiddenRegion.regions .default =
    [⟨[0, 1, 0], ["svg", "g"], .empty "path id=\"CutContour\" display=\"none\""⟩] := by
  decide +kernel

theorem layers_hiddenRegion :
    (hiddenRegion.cutLayer .default).write =
      "<svg><defs/><g><path id=\"CutContour\"/></g></svg>".toList ∧
    (hiddenRegion.printLayer .default).write = "<svg><defs/><g><rect/></g></svg>".toList := by
  decide +kernel

theorem splitLayers_partition_hidden :
    splitLayers "<svg><defs/><g><path id=\"CutContour\" display=\"none\"/><rect/></g></svg>"
      .default = .ok (some ⟨"<svg><defs/><g><path id=\"CutContour\"/></g></svg>",
        "<svg><defs/><g><rect/></g></svg>", 1⟩) := by
  have hsome : hiddenRegion.regions .default ≠ [] := by
    rw [regions_hiddenRegion]
    exact List.cons_ne_nil _ _
  obtain ⟨hcut, hprint⟩ := layers_hiddenRegion
  rw [((splitLayers_partition .default parse_hiddenRegion).2 hsome).1, hcut, hprint,
    regions_hiddenRegion]
  rfl

end CutPath
