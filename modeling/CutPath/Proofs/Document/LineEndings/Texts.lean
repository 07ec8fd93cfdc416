import CutPath.Proofs.Document.LineEndings.Merge

namespace CutPath
open Text
set_option autoImplicit true

/-- A text with a carriage return before every line feed. -/
def Text.crlf (t : Text) : Text := t.flatMap fun c => if c = '\n' then ['\r', '\n'] else [c]

namespace Text

theorem crlf_append (s t : Text) : crlf (s ++ t) = crlf s ++ crlf t := List.flatMap_append

theorem crlf_of_not_mem (h : '\n' ∉ t) : crlf t = t := by
  induction t with
  | nil => rfl
  | cons c t ih =>
    rw [List.mem_cons, not_or] at h
    rw [crlf, List.flatMap_cons, if_neg fun hc => h.1 hc.symm, ← crlf, ih h.2]
    rfl

theorem crlf_join (h : ∀ line ∈ lines, '\n' ∉ line) :
    crlf (join ['\n'] lines) = join ['\n'] (returnLines lines) := by
  fun_induction returnLines lines with
  | case1 => rfl
  | case2 line => rw [join_singleton, crlf_of_not_mem (h line List.mem_cons_self)]
  | case3 line next lines ih =>
    have hline := crlf_of_not_mem (h line List.mem_cons_self)
    have hrest := ih fun l hl => h l (List.mem_cons_of_mem line hl)
    have hfeed : crlf ['\n'] = ['\r', '\n'] := by decide
    rw [join_cons_cons, crlf_append, crlf_append, hline, hrest, hfeed]
    cases lines with
    | nil => simp [returnLines, addReturn, join_cons_cons]
    | cons => simp [returnLines, addReturn, join_cons_cons]

end Text

namespace Document

def crlf (d : Document) : Document := ⟨splitLines (Text.crlf d.text)⟩

/-- A document of a text with line feeds alone, one of them at its end. That it is the one that is
read from its text is so for every document that can be reached. -/
structure LineFed (d : Document) : Prop where
  read : parse d.text = .ok d
  no_return : '\r' ∉ d.text
  feed : ['\n'] <:+ d.text

variable {d print cut m : Document}

theorem parse_crlf (h : parse d.text = .ok d) : parse (Text.crlf d.text) = .ok d.crlf := by
  obtain ⟨⟨rest, ht⟩, -⟩ := parse_eq_ok_iff.1 h
  refine parse_eq_ok_iff.2 ⟨?_, rfl⟩
  rw [← ht, Text.crlf_append, crlf_of_not_mem (by decide)]
  exact List.prefix_append startMarker _

theorem LineFed.fed (h : d.LineFed) : d.Fed := by
  refine ⟨sound_parse h.read fun c hc hfeed => ⟨hfeed, ?_⟩, ?_⟩
  · rintro rfl
    exact h.no_return hc
  · obtain ⟨t, ht⟩ := h.feed
    rw [(parse_eq_ok_iff.1 h.read).2, ← ht]
    change ((t ++ ['\n']).splitOn '\n').getLast? = some []
    rw [List.splitOn_append_cons_self, List.splitOn_nil, List.getLast?_concat]

theorem Fed.crlf_eq (h : d.Fed) : d.crlf = d.returned := by
  obtain ⟨init, hlines, hreturned, -⟩ := h.exists_init
  have hfeed : ∀ line ∈ d.lines, '\n' ∉ line :=
    fun line hl => (h.sound.lines_over line hl).not_mem_feed
  have hpieces : ∀ line ∈ init.map addReturn ++ [[]], '\n' ∉ line := by
    simp only [hlines, List.forall_mem_append, List.forall_mem_map] at hfeed ⊢
    refine ⟨fun line hl hm => ?_, hfeed.2⟩
    rcases List.mem_append.1 hm with hm | hm
    · exact hfeed.1 line hl hm
    · revert hm
      decide
  have hne : init.map addReturn ++ [[]] ≠ [] := List.append_ne_nil_of_right_ne_nil _ (by decide)
  have htext : Text.crlf d.text = join ['\n'] d.returned.lines := crlf_join hfeed
  rw [crlf, htext, splitLines, hreturned, join, List.splitOn_intercalate '\n' hpieces hne,
    ← hreturned]

/-- Carriage returns are transparent. The text of a document with line feeds alone can be read with
carriage returns before them too. The cut pass then reports the same, so it warns of the same, and
leaves the same document with carriage returns; and a merge of two such documents makes the same
remarks, and fails in the same way or gives the same document with carriage returns. -/
theorem crlf_transparent :
    (∀ d (c : SpotColor) style, LineFed d → '\n' ∉ c.name → '\r' ∉ c.name →
      parse (Text.crlf d.text) = .ok d.crlf ∧
        (d.crlf.markCut c style).1 = (d.markCut c style).1 ∧
        (d.crlf.markCut c style).2 = (d.markCut c style).2.crlf) ∧
    ∀ print cut, LineFed print → LineFed cut →
      (print.crlf.merge cut.crlf).1 = (print.merge cut).1 ∧
        (print.crlf.merge cut.crlf).2 = (print.merge cut).2.map crlf := by
  constructor
  · intro d c style h hfeed hreturn
    have hname : Over isFed c.name := by
      intro x hx
      constructor
      · rintro rfl
        exact hfeed hx
      · rintro rfl
        exact hreturn hx
    -- On both sides the texts are exchanged for lines, where the passes are known to agree.
    have hmarked := h.fed.returned_markCut hname style
    rw [h.fed.crlf_eq, hmarked, (h.fed.markCut hname style).crlf_eq, ← h.fed.crlf_eq]
    exact ⟨parse_crlf h.read, rfl, rfl⟩
  · intro print cut hp hc
    rw [hp.fed.crlf_eq, hc.fed.crlf_eq, hp.fed.returned_merge hc.fed]
    refine ⟨rfl, ?_⟩
    cases h : (print.merge cut).2 with
    | error f => rfl
    | ok m => exact congrArg Except.ok (hp.fed.merge hc.fed h).crlf_eq.symm

def feedPage : Document :=
  ⟨["%!PS-Adobe-3.0", "%%BoundingBox: 0 0 9 9", "%%Page: 1 1", "%%EndPageSetup",
    "q rectclip", "2 w", "0 0 m S", "S", "Q Q", "showpage", "%%Trailer", ""]⟩

def mergedFeedPage : Document :=
  ⟨["%!PS-Adobe-3.0", "%%BoundingBox: 0 0 9 9", "%%Page: 1 1", "%%EndPageSetup",
    "q rectclip", "2 w", "0 0 m S", "S", "Q", "2 w", "0 0 m S", "S", "Q", "Q", "showpage",
    "%%Trailer", ""]⟩

theorem crlf_transparent_page :
    LineFed feedPage ∧ '\n' ∉ SpotColor.cutContour.name ∧ '\r' ∉ SpotColor.cutContour.name ∧
      (feedPage.crlf.markCut .cutContour .hairline).1.strokes = ⟨0, 1, 1, 1⟩ ∧
      (feedPage.crlf.markCut .cutContour .hairline).2 =
        (feedPage.markCut .cutContour .hairline).2.crlf ∧
      (feedPage.crlf.merge feedPage.crlf).2 = .ok mergedFeedPage.crlf := by
  have hfed : LineFed feedPage := ⟨by decide +kernel, by decide +kernel, by decide +kernel⟩
  have hfeed : '\n' ∉ SpotColor.cutContour.name := by decide
  have hreturn : '\r' ∉ SpotColor.cutContour.name := by decide
  have hcounts : (feedPage.markCut .cutContour .hairline).1.strokes = ⟨0, 1, 1, 1⟩ := by
    decide +kernel
  have hmerged : (feedPage.merge feedPage).2 = .ok mergedFeedPage := by decide +kernel
  obtain ⟨hpass, hmerge⟩ := crlf_transparent
  obtain ⟨-, hreport, hmarked⟩ := hpass feedPage .cutContour .hairline hfed hfeed hreturn
  refine ⟨hfed, hfeed, hreturn, ?_, hmarked, ?_⟩
  · rw [hreport, hcounts]
  · rw [(hmerge feedPage feedPage hfed hfed).2, hmerged]
    rfl

end Document
end CutPath
