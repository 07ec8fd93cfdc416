import CutPath.Proofs.Drawing.Partition
import CutPath.Proofs.Drawing.RoundTrip

namespace CutPath
open Markup
set_option autoImplicit true

namespace Forest

theorem countRegions_dropRegions (tag : RegionTag) (f : Forest) :
    (f.dropRegions tag).countRegions tag = 0 := by
  induction f with
  | nil => rfl
  | leaf l next ih => exact ih
  | empty content next ih =>
    rw [dropRegions]
    split
    · exact ih
    · next h => rw [countRegions, if_neg h, ih]
  | element content children next ihc ihn =>
    rw [dropRegions]
    split
    · next h => rw [countRegions, if_pos h, ihn]
    · next h =>
      split
      · exact ihn
      · next hm => rw [countRegions, if_neg h, if_neg hm, ihc, ihn]

theorem Readable.dropRegions {f : Forest} (h : f.Readable) (tag : RegionTag) :
    (f.dropRegions tag).Readable := by
  induction f with
  | nil => trivial
  | leaf l next ih => exact ⟨h.1, ih h.2⟩
  | empty content next ih =>
    rw [Forest.dropRegions]
    split
    · exact ih h.2
    · exact ⟨h.1, ih h.2⟩
  | element content children next ihc ihn =>
    obtain ⟨hopen, hclose, hc, hn⟩ := h
    rw [Forest.dropRegions]
    split
    · exact ⟨hopen, hclose, hc, ihn hn⟩
    · split
      · exact ihn hn
      · exact ⟨hopen, hclose, ihc hc, ihn hn⟩

theorem countRegions_addLeaf (tag : RegionTag) (l : Leaf) (f : Forest) :
    (f.addLeaf l).countRegions tag = f.countRegions tag := by
  rcases addLeaf_cases l f with ⟨h, -⟩ | ⟨raw, raw', next, rfl, rfl, h⟩ <;> rw [h] <;> rfl

theorem countRegions_joinTexts (tag : RegionTag) (f : Forest) :
    f.joinTexts.countRegions tag = f.countRegions tag := by
  induction f with
  | nil => rfl
  | leaf l next ih => rw [joinTexts, countRegions_addLeaf, ih, countRegions]
  | empty content next ih => rw [joinTexts, countRegions, countRegions, ih]
  | element content children next ihc ihn => rw [joinTexts, countRegions, countRegions, ihc, ihn]

theorem rootChildren_addLeaf (l : Leaf) (f : Forest) :
    (f.addLeaf l).rootChildren = f.rootChildren := by
  rcases addLeaf_cases l f with ⟨h, -⟩ | ⟨raw, raw', next, rfl, rfl, h⟩ <;> rw [h] <;> rfl

theorem rootChildren_joinTexts (f : Forest) :
    f.joinTexts.rootChildren = f.rootChildren.joinTexts := by
  induction f with
  | nil => rfl
  | leaf l next ih => rw [joinTexts, rootChildren_addLeaf, ih, rootChildren]
  | empty => rfl
  | element => rfl

theorem rootChildren_dropMark (f : Forest) : f.dropMark.rootChildren = f.rootChildren := by
  rcases dropMark_cases f with ⟨h, -⟩ | ⟨next, rfl, h⟩ | ⟨c, raw, next, rfl, h⟩ <;> rw [h] <;> rfl

section mapRoot

variable {g : Forest → Forest}

theorem rootChildren_mapRoot (hg : g nil = nil) (f : Forest) :
    (f.mapRoot g).rootChildren = g f.rootChildren := by
  induction f with
  | nil => exact hg.symm
  | leaf l next ih => exact ih
  | empty => exact hg.symm
  | element => rfl

theorem hasElement_mapRoot (f : Forest) : (f.mapRoot g).hasElement = f.hasElement := by
  induction f with
  | nil => rfl
  | leaf l next ih => exact ih
  | empty => rfl
  | element => rfl

theorem Readable.mapRoot {f : Forest} (h : f.Readable)
    (hg : f.rootChildren.Readable → (g f.rootChildren).Readable) : (f.mapRoot g).Readable := by
  induction f with
  | nil => trivial
  | leaf l next ih => exact ⟨h.1, ih h.2 hg⟩
  | empty => exact h
  | element content children next => exact ⟨h.1, h.2.1, hg h.2.2.1, h.2.2.2⟩

end mapRoot

end Forest

namespace Drawing

theorem countRegions_of_parse (h : parse t = .ok d) (tag : RegionTag) :
    d.countRegions tag = (d.regions tag).length := by
  obtain ⟨k, head, content, before, after, hd⟩ := Forest.exists_rootedAt 0 (hasElement_of_parse h)
  exact countRegions_eq hd

theorem rootChildren_reread (d : Drawing) :
    d.reread.content.rootChildren = d.content.rootChildren.joinTexts := by
  rw [reread, Forest.rootChildren_dropMark, Forest.rootChildren_joinTexts]

theorem countRegions_reread (d : Drawing) (tag : RegionTag) :
    d.reread.countRegions tag = d.countRegions tag := by
  rw [countRegions, rootChildren_reread, Forest.countRegions_joinTexts, countRegions]

/-- A drawing that has been read is read again when its root has been given other children. -/
theorem parse_mapRoot (h : parse t = .ok d) {g : Forest → Forest}
    (hg : d.content.rootChildren.Readable → (g d.content.rootChildren).Readable) :
    parse (write ⟨d.content.mapRoot g⟩) = .ok (reread ⟨d.content.mapRoot g⟩) :=
  parse_write ((readable_of_parse h).mapRoot hg)
    ((Forest.hasElement_mapRoot _).trans (hasElement_of_parse h))

end Drawing

theorem splitLayers_of_parse (h : Drawing.parse t = .ok d) (tag : RegionTag) :
    splitLayers t tag = .ok (d.split? tag) := by
  rw [splitLayers, h]

theorem splitLayers_eq_some (h : splitLayers t tag = .ok (some l)) :
    ∃ d, Drawing.parse t = .ok d ∧ d.countRegions tag ≠ 0 ∧
      l = ⟨(d.cutLayer tag).write, (d.printLayer tag).write, d.countRegions tag⟩ := by
  unfold splitLayers at h
  split at h
  · cases h
  · next d hd =>
    refine ⟨d, hd, ?_⟩
    have hsplit : d.split? tag = some l := Except.ok.inj h
    unfold Drawing.split? at hsplit
    split at hsplit
    · cases hsplit
    · next hc => exact ⟨hc, (Option.some.inj hsplit).symm⟩

/-- The print layer is a drawing, and no element of it is tagged, at whatever depth. -/
theorem splitLayers_print (h : splitLayers t tag = .ok (some l)) :
    (∃ d, Drawing.parse l.print = .ok d ∧ d.regions tag = []) ∧
      splitLayers l.print tag = .ok none := by
  obtain ⟨d, hd, -, rfl⟩ := splitLayers_eq_some h
  have hparse : Drawing.parse (d.printLayer tag).write = .ok (d.printLayer tag).reread :=
    Drawing.parse_mapRoot hd fun hr => hr.dropRegions tag
  have hcount : (d.printLayer tag).reread.countRegions tag = 0 := by
    rw [Drawing.countRegions_reread, Drawing.countRegions, Drawing.printLayer,
      Forest.rootChildren_mapRoot rfl, Forest.countRegions_dropRegions]
  refine ⟨⟨_, hparse, ?_⟩, ?_⟩
  · rw [← List.length_eq_zero_iff, ← Drawing.countRegions_of_parse hparse, hcount]
  · rw [splitLayers_of_parse hparse, Drawing.split?, if_pos hcount]

theorem ok_of_toOption {x : Except ε α} (h : x.toOption = some a) : x = .ok a := by
  cases x with
  | error e => cases h
  | ok b => exact congrArg Except.ok (Option.some.inj h)

def nestedRegion : Drawing :=
  ⟨.element "svg" (.leaf (.text "\n") (.empty "path id=\"CutContour\"" (.leaf (.text "\n")
    (.element "g" (.empty "use id='cutcontour 2'" (.empty "rect" .nil)) .nil)))) .nil⟩

theorem splitLayers_print_nested :
    splitLayers nestedRegion.write .default = .ok (some
      ⟨"<svg>\n<path id=\"CutContour\"/>\n<g><use id=\"cutcontour 2\"/></g></svg>",
        "<svg>\n\n<g><rect/></g></svg>", 2⟩) ∧
    splitLayers "<svg>\n\n<g><rect/></g></svg>" .default = .ok none := by
  have hparse : Drawing.parse nestedRegion.write = .ok nestedRegion :=
    ok_of_toOption (by decide +kernel)
  have hsplit : nestedRegion.split? .default = some
      ⟨"<svg>\n<path id=\"CutContour\"/>\n<g><use id=\"cutcontour 2\"/></g></svg>",
        "<svg>\n\n<g><rect/></g></svg>", 2⟩ := by
    decide +kernel
  have h := (splitLayers_of_parse hparse .default).trans (congrArg Except.ok hsplit)
  exact ⟨h, (splitLayers_print h).2⟩

end CutPath
