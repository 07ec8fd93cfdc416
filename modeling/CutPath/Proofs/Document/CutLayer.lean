import CutPath.Proofs.Document.CutPass

namespace CutPath
open Text
set_option autoImplicit true

theorem Marker.bounds_restores (n : Nat) (line : Text) :
    bounds (Page.restores n ++ lineEnding line) = false := by
  rw [bounds_eq, words_append_lineEnding, Page.words_restores, List.any_eq_false]
  intro w hw
  rw [(List.mem_replicate.1 hw).2]
  decide

namespace Region

/-- A line with a word that is neither one of the calls nor a stroke. -/
def Steady (line : Text) : Prop :=
  ∃ w ∈ words line, w ≠ activateColor ∧ w ≠ activateWidth ∧ isStrokeToken w = false

theorem steady_of_isPageSetupEnd (h : Marker.opens Marker.endPageSetup line = true) :
    Steady line := by
  rw [Marker.opens_eq (by decide), Option.any_eq_true] at h
  obtain ⟨w, hw, hp⟩ := h
  have hne : ∀ v, Marker.endPageSetup.isPrefixOf v = false → w ≠ v := by
    rintro v hv rfl
    rw [hp] at hv
    cases hv
  refine ⟨w, List.mem_of_head? hw, hne _ (by decide), hne _ (by decide), ?_⟩
  rw [← Bool.not_eq_true, isStrokeToken, List.contains_iff_mem]
  intro hs
  have hstroke : ∀ v ∈ strokeTokens, Marker.endPageSetup.isPrefixOf v = false := by decide
  exact hne w (hstroke w hs) rfl

theorem steady_of_isClip (h : Page.isClip line = true) : Steady line :=
  ⟨Page.clipToken, List.contains_iff_mem.1 h, by decide, by decide, by decide⟩

theorem markLine_eq_singleton {r : Region} (h : x ∈ markLine line (r.read line).1)
    (hx : Steady x) : markLine line (r.read line).1 = [x] := by
  obtain ⟨w, hw, hcolor, hwidth, hstroke⟩ := hx
  have hcall : ∀ call, words call = [call] → x = call ++ lineEnding line → w = call := by
    rintro call hc rfl
    rw [words_append_lineEnding, hc, List.mem_singleton] at hw
    exact hw
  cases hl : (r.read line).1 with
  | outsidePage | pageStart | pageEnd | other | strokeInline =>
    rw [hl, markLine, List.mem_singleton] at h
    rw [h, markLine]
  | colorSet | cmykSet | graySet =>
    rw [hl, markLine] at h
    cases h
  | widthSet =>
    rw [hl, markLine, List.mem_singleton] at h
    exact (hwidth (hcall activateWidth (by decide) h)).elim
  | strokeStandalone =>
    rw [hl, markLine, List.mem_cons, List.mem_cons, List.mem_singleton] at h
    rcases h with h | h | rfl
    · exact (hcolor (hcall activateColor (by decide) h)).elim
    · exact (hwidth (hcall activateWidth (by decide) h)).elim
    · have hbody : (r.read x).1.inBody = true := by
        rw [hl]
        rfl
      obtain ⟨rfl, hb⟩ := read_inBody hbody
      rw [read_page hb] at hl
      obtain ⟨v, hv, hs⟩ := Instruction.word_of_standalone hl
      rw [hv, List.mem_singleton] at hw
      rw [hw, hs] at hstroke
      cases hstroke

theorem covers_of_mark {r : Region} (h : r.mark lines = a ++ x :: b) (hx : Steady x) :
    (r.after a).Covers [] [x] ∧ (r.after (a ++ [x])).Covers [] b := by
  induction lines generalizing r a with
  | nil => simp [mark] at h
  | cons line lines ih =>
    have hmarked := marked_markLine r line
    -- The cut lies behind what takes the place of `line`, or else within it.
    rw [mark, List.append_eq_append_iff] at h
    rcases h with ⟨a, rfl, hrest⟩ | ⟨c, hchunk, hrest⟩
    · rw [List.append_assoc, after_append, after_append, hmarked.after_eq]
      exact ih hrest
    cases c with
    | nil =>
      rw [List.append_nil] at hchunk
      rw [after_append, ← hchunk, hmarked.after_eq]
      exact ih (a := []) hrest.symm
    | cons y c =>
      obtain ⟨rfl, rfl⟩ := List.cons.inj hrest
      have hsingle := markLine_eq_singleton (by rw [hchunk]; simp) hx
      rw [hsingle] at hmarked
      rw [hsingle, eq_comm, List.append_eq_singleton_iff] at hchunk
      obtain ⟨rfl, hc⟩ | ⟨-, hc⟩ := hchunk
      · obtain ⟨-, rfl⟩ := List.cons.inj hc
        rw [List.nil_append, hmarked.after_eq]
        exact ⟨hmarked.covers, (marked_mark _ lines).covers⟩
      · cases hc

/-- What is taken of a marked page body stays marked, since the line before it, like the clip line,
is steady, and only blank lines and restores are left out. -/
theorem covers_of_fragment {r : Region} (h : Page.Fragment body clip fragment closed)
    (hlines : r.mark lines = head ++ body ++ tail) (hhead : head = before ++ [setup])
    (hsetup : Marker.opens Marker.endPageSetup setup = true) :
    (r.after head).Covers [] clip.toList ∧ (r.after (head ++ clip.toList)).Covers [] fragment := by
  cases h with
  | whole =>
    refine ⟨covers_nil _ _, ?_⟩
    have hcut : r.mark lines = before ++ setup :: (body ++ tail) := by
      rw [hlines, hhead]
      simp
    have hcovers := (covers_of_mark hcut (steady_of_isPageSetupEnd hsetup)).2.of_append
    rwa [Option.toList_none, List.append_nil, hhead]
  | @clipped blanks clip kept ending left closed hbody hblanks hclip hending hclosed =>
    have hcut : r.mark lines = (head ++ blanks) ++ clip :: (kept ++ (ending ++ tail)) := by
      rw [hlines, hbody]
      simp
    have hcovers := covers_of_mark hcut (steady_of_isClip hclip)
    have hafter : r.after (head ++ blanks) = r.after head := by
      rw [after_append]
      exact after_eq_of_bounds_eq_false _ fun l hl => Marker.bounds_of_isBlankText (hblanks l hl)
    rw [after_append r (head ++ blanks), hafter] at hcovers
    rw [Option.toList_some, after_append]
    refine ⟨hcovers.1, hcovers.2.of_append.append (covers_of_no_stroke ?_ _ _)⟩
    intro w hw
    cases hending with
    | whole => cases hw
    | part =>
      rw [stream_cons, words_append_lineEnding, Page.words_restores, stream_nil,
        List.append_nil] at hw
      rw [(List.mem_replicate.1 hw).2]
      decide

end Region

/-- Every stroke of the lines stands right after the two calls; `before` are the words that precede
the lines. -/
def Activates (before lines : List Text) : Prop :=
  ∀ u line v, lines = u ++ line :: v → Activated (before ++ stream u) line

theorem Region.Covers.activates (h : Region.page.Covers before lines)
    (hb : ∀ line ∈ lines, Marker.bounds line = false) : Activates before lines := by
  rintro u line v rfl
  apply h u line v rfl
  have hu : Region.page.after u = .page :=
    Region.after_eq_of_bounds_eq_false _ fun l hl => hb l (List.mem_append_left _ hl)
  rw [hu, Region.read_page (hb line (by simp))]
  exact Instruction.label_inBody line

namespace Document

theorem closing_no_stroke (c : PageParts) (tail : List Text) :
    ∀ w ∈ stream (closing c tail), isStrokeToken w = false := by
  intro w hw
  rw [stream_closing, List.mem_replicate] at hw
  rw [hw.2]
  decide

theorem bounds_closing (c : PageParts) (tail : List Text) :
    ∀ line ∈ closing c tail, Marker.bounds line = false := by
  intro line hl
  rw [(mem_closing hl).2, Marker.bounds_restores]

namespace Layout

variable {print cut m : Document}

/-- Every stroke on the lines that a merge takes of the cut document's page body stands right after
the two calls. -/
def CutActivated (l : Layout print cut m) : Prop :=
  Activates (stream l.head) l.cutParts.clip.toList ∧
    Activates (stream (l.head ++ l.cutParts.clip.toList ++ l.printParts.fragment))
      (l.cutParts.fragment ++ closing l.cutParts l.tail)

theorem covers {lines : List Text} (l : Layout print cut m)
    (hcut : cut.lines = Region.outside.mark lines) :
    (Region.outside.after l.head).Covers (stream l.head) l.cutParts.clip.toList ∧
      (Region.outside.after (l.head ++ l.cutParts.clip.toList)).Covers
        (stream (l.head ++ l.cutParts.clip.toList ++ l.printParts.fragment))
        (l.cutParts.fragment ++ closing l.cutParts l.tail) := by
  obtain ⟨before, setup, hhead, hsetup, -⟩ := l.cut_page.page.setup
  have hlines := hcut.symm.trans l.cut_page.page.lines_eq
  obtain ⟨hclip, hfragment⟩ := Region.covers_of_fragment l.cut_page.fragment hlines hhead hsetup
  have hclosing := Region.covers_of_no_stroke (closing_no_stroke l.cutParts l.tail)
  constructor
  · simpa only [List.append_nil] using hclip.append_left (stream l.head)
  · apply Region.Covers.append _ (hclosing _ _)
    simpa only [List.append_nil] using hfragment.append_left
      (stream (l.head ++ l.cutParts.clip.toList ++ l.printParts.fragment))

theorem cutActivated {lines : List Text} (l : Layout print cut m)
    (hcut : cut.lines = Region.outside.mark lines) (hpage : Region.outside.after l.head = .page)
    (hbounds : ∀ line ∈ l.body, Marker.bounds line = false) : l.CutActivated := by
  have hb := l.cut_page.fragment.forall_eq_false Marker.bounds_restores hbounds
  have hclip : ∀ line ∈ l.cutParts.clip.toList, Marker.bounds line = false :=
    fun line hl => hb line (List.mem_append_left _ hl)
  have hrest : ∀ line ∈ l.cutParts.fragment ++ closing l.cutParts l.tail,
      Marker.bounds line = false := by
    intro line hl
    rcases List.mem_append.1 hl with hl | hl
    · exact hb line (List.mem_append_right _ hl)
    · exact bounds_closing _ _ line hl
  have h := l.covers hcut
  rw [Region.after_append, hpage, Region.after_eq_of_bounds_eq_false _ hclip] at h
  exact ⟨h.1.activates hclip, h.2.activates hrest⟩

end Layout

theorem lines_markCut (d : Document) (c : SpotColor) (style : StrokeStyle) :
    ∃ lines, (d.markCut c style).2.lines = Region.outside.mark lines :=
  ⟨_, lines_markStrokes _⟩

/-- The cut pass and the merge agree on the strokes of page regions. On the lines that a merge takes
of a marked page body, every stroke that stands in a page region, between lines that bound it,
stands right after the two calls; and when the page body of the document that was marked starts in
a page region and has no line that bounds one, this is every stroke of the cut layer. -/
theorem merge_markCut_covers {print cut m : Document} {style : StrokeStyle}
    (h : (print.merge (cut.markCut .cutContour style).2).2 = .ok m) :
    ∃ l : Layout print (cut.markCut .cutContour style).2 m,
      (Region.outside.after l.head).Covers (stream l.head) l.cutParts.clip.toList ∧
      (Region.outside.after (l.head ++ l.cutParts.clip.toList)).Covers
        (stream (l.head ++ l.cutParts.clip.toList ++ l.printParts.fragment))
        (l.cutParts.fragment ++ closing l.cutParts l.tail) ∧
      ∃ head body tail, cut.PageAt head body tail ∧
        (Region.outside.after head = .page → (∀ line ∈ body, Marker.bounds line = false) →
          l.CutActivated) := by
  obtain ⟨l⟩ := exists_layout h
  obtain ⟨lines, hlines⟩ := cut.lines_markCut .cutContour style
  obtain ⟨hclip, hfragment⟩ := l.covers hlines
  obtain ⟨head, body, tail, hpage, hhead, hbody⟩ :=
    l.cut_page.page.of_landmarks (cut.ofLines_markCut style).symm
  refine ⟨l, hclip, hfragment, head, body, tail, hpage, fun hregion hbounds => ?_⟩
  apply l.cutActivated hlines
  · rw [Region.after_eq_foldl, ← hhead, ← Region.after_eq_foldl, hregion]
  · apply (Landmark.forall_ofLine_iff (p := fun k => k.starts || k.ends) rfl l.body).2
    rw [← hbody]
    exact (Landmark.forall_ofLine_iff rfl body).1 hbounds

def artworkPage : Document :=
  ⟨["%!PS-Adobe-3.0", "%%BoundingBox: 0 0 9 9", "%%EndPageSetup", "0 0 m f", "showpage",
    "%%Trailer"]⟩

def cutPage : Document :=
  ⟨["%!PS-Adobe-3.0", "%%BoundingBox: 0 0 9 9", "%%Page: 1 1", "%%EndPageSetup", "q rectclip",
    "1 w", "1 1 m S", "S\r", "Q", "showpage", "%%Trailer"]⟩

def mergedCutPage : Document :=
  ⟨["%!PS-Adobe-3.0", "%%BoundingBox: 0 0 9 9", "%%DocumentCustomColors: (CutContour)",
    "%%CMYKCustomColor: 0.00 1.00 0.00 0.00 (CutContour)", "%%Page: 1 1", "%%EndPageSetup",
    "q rectclip", "0 0 m f", "SetHairlineStroke", "1 1 m SetCutContourStroke SetHairlineStroke S",
    "SetCutContourStroke\r", "SetHairlineStroke\r", "S\r", "Q", "showpage", "%%Trailer"]⟩

theorem merge_markCut_covers_page :
    (artworkPage.merge (cutPage.markCut .cutContour .hairline).2).2 = .ok mergedCutPage ∧
    ∃ l : Layout artworkPage (cutPage.markCut .cutContour .hairline).2 mergedCutPage,
      (stream l.cutParts.fragment).countP isStrokeToken = 2 ∧ l.CutActivated := by
  have h : (artworkPage.merge (cutPage.markCut .cutContour .hairline).2).2 = .ok mergedCutPage := by
    decide +kernel
  have hcut : cutPage.PageAt (cutPage.lines.take 4) ((cutPage.lines.drop 4).take 5)
      (cutPage.lines.drop 9) :=
    ⟨rfl, ⟨cutPage.lines.take 3, "%%EndPageSetup", rfl, by decide, by decide⟩, by decide,
      ⟨"showpage", ["%%Trailer"], rfl, by decide⟩⟩
  obtain ⟨l, -, -, head, body, tail, hpage, hactivated⟩ := merge_markCut_covers h
  obtain ⟨rfl, rfl, rfl⟩ := hcut.unique hpage
  refine ⟨h, l, ?_, hactivated (by decide) (by decide)⟩
  have hok : (PageParts.ofLines .cut (cutPage.markCut .cutContour .hairline).2.lines).toOption.map
      (fun p => (stream p.fragment).countP isStrokeToken) = some 2 := by decide +kernel
  rw [l.cut_ok] at hok
  exact Option.some.inj hok

def strayPage : Document :=
  ⟨["%!PS-Adobe-3.0", "%%BoundingBox: 0 0 9 9", "%%EndPageSetup", "0 0 m S",
    "1 1 m S % %%Page: 1 1", "2 2 m S", "3 3 m S % %%EOF", "4 4 m S", "showpage", "%%Trailer"]⟩

def mergedStrayPage : Document :=
  ⟨["%!PS-Adobe-3.0", "%%BoundingBox: 0 0 9 9", "%%DocumentCustomColors: (CutContour)",
    "%%CMYKCustomColor: 0.00 1.00 0.00 0.00 (CutContour)", "%%EndPageSetup", "0 0 m f", "0 0 m S",
    "1 1 m S % %%Page: 1 1", "2 2 m SetCutContourStroke SetHairlineStroke S", "3 3 m S % %%EOF",
    "4 4 m S", "showpage", "%%Trailer"]⟩

/-- Strokes before the page region, after it, and on the lines that bound it are merged as they
are. -/
theorem merge_markCut_stray :
    StrokeStyle.hairline.width.isPositive = true ∧
    (artworkPage.merge (strayPage.markCut .cutContour .hairline).2).2 = .ok mergedStrayPage ∧
    ∀ l : Layout artworkPage (strayPage.markCut .cutContour .hairline).2 mergedStrayPage,
      ¬ l.CutActivated := by
  refine ⟨by decide, by decide +kernel, ?_⟩
  rintro l ⟨-, h⟩
  have hparts : l.cutParts.fragment = (mergedStrayPage.lines.drop 6).take 5 := by
    have hok :
        (PageParts.ofLines .cut (strayPage.markCut .cutContour .hairline).2.lines).toOption.map
          PageParts.fragment = some ((mergedStrayPage.lines.drop 6).take 5) := by
      decide +kernel
    rw [l.cut_ok] at hok
    exact Option.some.inj hok
  rw [hparts] at h
  obtain ⟨before, hb⟩ :=
    h [] "0 0 m S".toList _ rfl ["0", "0", "m"] "S".toList [] (by decide) (by decide)
  have hlast := congrArg List.getLast? hb
  simp at hlast
  revert hlast
  decide

end Document
end CutPath
