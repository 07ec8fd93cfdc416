import CutPath.Proofs.Document.Passes

namespace CutPath
open Text
set_option autoImplicit true

def isPrintable (c : Char) : Bool := ' ' ≤ c && c ≤ '~'

theorem isPrintable_of_isNumberChar (h : Decimal.isNumberChar c = true) : isPrintable c = true := by
  have hletters : "+-.eNainf".toList.all isPrintable = true := by decide
  rw [Decimal.isNumberChar, Bool.or_eq_true] at h
  rcases h with h | h
  · simp only [Char.isDigit, Bool.and_eq_true, decide_eq_true_eq] at h
    have hzero : 48 ≤ c.toNat := UInt32.le_iff_toNat_le.1 h.1
    have hnine : c.toNat ≤ 57 := UInt32.le_iff_toNat_le.1 h.2
    simp only [isPrintable, Bool.and_eq_true, decide_eq_true_eq]
    exact ⟨UInt32.le_iff_toNat_le.2 (Nat.le_trans (by decide) hzero),
      UInt32.le_iff_toNat_le.2 (Nat.le_trans hnine (by decide))⟩
  · exact List.all_eq_true.1 hletters c (List.contains_iff_mem.1 h)

def Alphabet (P : Char → Prop) : Prop := ∀ c, isPrintable c = true → P c

/-- A text of characters of an alphabet. -/
def Over (P : Char → Prop) (t : Text) : Prop := ∀ c ∈ t, P c

section
variable {P : Char → Prop}

theorem Alphabet.over (hP : Alphabet P) (h : t.all isPrintable = true) : Over P t :=
  fun c hc => hP c (List.all_eq_true.1 h c hc)

theorem Alphabet.over_number (hP : Alphabet P) (h : ∀ c ∈ t, Decimal.isNumberChar c = true) :
    Over P t :=
  fun c hc => hP c (isPrintable_of_isNumberChar (h c hc))

theorem Over.append (ha : Over P a) (hb : Over P b) : Over P (a ++ b) := by
  intro c hc
  rcases List.mem_append.1 hc with hc | hc
  · exact ha c hc
  · exact hb c hc

theorem over_join (hsep : Over P sep) (h : ∀ piece ∈ pieces, Over P piece) :
    Over P (join sep pieces) := by
  intro c hc
  rcases mem_join hc with hc | ⟨piece, hm, hc⟩
  · exact hsep c hc
  · exact h piece hm c hc

theorem Over.lineEnding (h : Over P line) : Over P (lineEnding line) := by
  intro c hc
  unfold CutPath.lineEnding at hc
  split at hc
  · next hlast =>
    rw [List.mem_singleton.1 hc]
    exact h '\r' (List.mem_of_getLast? hlast)
  · cases hc

theorem Over.map_lineEnding {lines : List Text} (h : ∀ line ∈ lines, Over P line)
    (hlike : Over P like) : ∀ line ∈ lines.map (· ++ CutPath.lineEnding like), Over P line := by
  intro _ hm
  obtain ⟨line, hl, rfl⟩ := List.mem_map.1 hm
  exact (h line hl).append hlike.lineEnding

theorem Alphabet.over_restores (hP : Alphabet P) (n : Nat) (h : Over P like) :
    Over P (Page.restores n ++ lineEnding like) := by
  refine (over_join (hP.over (by decide)) ?_).append h.lineEnding
  intro piece hm
  rw [(List.mem_replicate.1 hm).2]
  exact hP.over (by decide)

namespace SpotColor

variable {c : SpotColor}

theorem over_headerLines (hP : Alphabet P) (hc : Over P c.name) :
    ∀ line ∈ c.headerLines, Over P line := by
  have hchannels : Over P c.headerChannels := by
    refine over_join (hP.over (by decide)) ?_
    intro piece hm
    obtain ⟨x, -, rfl⟩ := List.mem_map.1 hm
    exact hP.over_number (Decimal.all_writeHundredths x)
  have hname : Over P (" (" ++ c.name ++ ")") :=
    ((hP.over (by decide)).append hc).append (hP.over (by decide))
  have hcustom : Over P Marker.customColors := hP.over (by decide)
  have hcmyk : Over P (Marker.cmykCustomColor ++ " ") := hP.over (by decide)
  intro line hl
  rw [headerLines, List.mem_cons, List.mem_singleton] at hl
  rcases hl with rfl | rfl
  · simpa only [List.append_assoc] using hcustom.append hname
  · simpa only [List.append_assoc] using (hcmyk.append hchannels).append hname

theorem over_procedureLines (hP : Alphabet P) (hc : Over P c.name) (style : StrokeStyle) :
    ∀ line ∈ procedureLines c style, Over P line := by
  have hfixed : (procedureFrame [] [] []).all (·.all isPrintable) = true := by decide +kernel
  have hchannels : Over P c.literalChannels := by
    refine over_join (hP.over (by decide)) ?_
    intro piece hm
    obtain ⟨x, -, rfl⟩ := List.mem_map.1 hm
    exact hP.over_number (Decimal.Format.all_write numeral x)
  have hwidth : Over P style.literalWidth :=
    hP.over_number (Decimal.Format.all_write numeral style.width)
  have hindent : Over P "  " := hP.over (by decide)
  have hopen : Over P " (" := hP.over (by decide)
  intro line hl
  rw [procedureLines_eq] at hl
  rcases mem_procedureFrame hl with rfl | rfl | rfl | hl
  · exact ((hP.over (by decide)).append hc).append (hP.over (by decide))
  · exact (((hindent.append hchannels).append hopen).append hc).append (hP.over (by decide))
  · exact (hindent.append hwidth).append (hP.over (by decide))
  · exact hP.over (List.all_eq_true.1 hfixed line hl)

end SpotColor

theorem over_activateInline (hP : Alphabet P) (h : Over P line) : Over P (activateInline line) := by
  have hactivation : Over P activation := hP.over (by decide)
  have hs := spaced_words line
  revert h
  generalize words line = ws at hs
  induction hs with
  | nil => exact id
  | @blank c t ws hc _ ih =>
    intro h
    rw [activateInline_cons_blank hc]
    exact List.forall_mem_cons.2 ⟨h c List.mem_cons_self,
      ih fun d hd => h d (List.mem_cons_of_mem c hd)⟩
  | @word w t ws hw ht _ ih =>
    intro h
    have hword : Over P w := fun d hd => h d (List.mem_append_left t hd)
    have hrest := ih fun d hd => h d (List.mem_append_right w hd)
    rw [activateInline_append_word hw ht]
    split
    · exact (hactivation.append hword).append hrest
    · exact hword.append hrest

theorem over_markLine (hP : Alphabet P) (h : Over P line) (label : Label) :
    ∀ marked ∈ markLine line label, Over P marked := by
  have hcolor : Over P (activateColor ++ lineEnding line) :=
    (hP.over (by decide)).append h.lineEnding
  have hwidth : Over P (activateWidth ++ lineEnding line) :=
    (hP.over (by decide)).append h.lineEnding
  cases label with
  | colorSet | cmykSet | graySet => simp [markLine]
  | widthSet => simpa [markLine] using hwidth
  | strokeInline => simpa [markLine] using over_activateInline hP h
  | strokeStandalone => simpa [markLine] using ⟨hcolor, hwidth, h⟩
  | outsidePage | pageStart | pageEnd | other => simpa [markLine] using h

theorem over_mark (hP : Alphabet P) (h : ∀ line ∈ lines, Over P line) (r : Region) :
    ∀ marked ∈ r.mark lines, Over P marked := by
  induction lines generalizing r with
  | nil => simp [Region.mark]
  | cons line lines ih =>
    intro marked hm
    rw [Region.mark, List.mem_append] at hm
    rcases hm with hm | hm
    · exact over_markLine hP (h line List.mem_cons_self) _ marked hm
    · exact ih (fun l hl => h l (List.mem_cons_of_mem line hl)) _ marked hm

end

/-- Before the first page starts no line is marked, so the first line of a document never is. -/
theorem Region.mark_outside_cons (line : Text) (lines : List Text) :
    outside.mark (line :: lines) = line :: (outside.read line).2.mark lines := by
  rw [mark]
  by_cases hb : Marker.bounds line = true
  · have hl := (read_bounds hb outside).1
    simp only [List.mem_cons, List.not_mem_nil, or_false] at hl
    rcases hl with hl | hl <;> rw [hl] <;> rfl
  · rw [read_outside (by simpa using hb)]
    rfl

namespace Document

/-- A document that starts as page descriptions do, with lines over an alphabet. -/
structure Sound (P : Char → Prop) (d : Document) : Prop where
  starts : ∃ first rest, d.lines = first :: rest ∧ startMarker <+: first
  lines_over : ∀ line ∈ d.lines, Over P line

section
variable {P : Char → Prop} {d : Document}

theorem parse_eq_ok_iff : parse t = .ok d ↔ startMarker <+: t ∧ d = ⟨splitLines t⟩ := by
  rw [← List.isPrefixOf_iff_prefix, parse]
  split
  · next h => simp [h, eq_comm]
  · next h => simp [h]

theorem sound_parse (h : parse t = .ok d) (ht : ∀ c ∈ t, c ≠ '\n' → P c) : d.Sound P := by
  obtain ⟨⟨rest, rfl⟩, rfl⟩ := parse_eq_ok_iff.1 h
  obtain ⟨piece, pieces, hs⟩ := List.exists_cons_of_ne_nil (List.splitOn_ne_nil '\n' rest)
  have hfirst : splitLines (startMarker ++ rest) = (startMarker ++ piece) :: pieces := by
    rw [splitLines, splitOn_append (by decide), hs, List.modifyHead_cons]
  refine ⟨⟨startMarker ++ piece, pieces, hfirst, List.prefix_append _ _⟩, ?_⟩
  intro line hl c hc
  obtain ⟨hm, hne⟩ := mem_of_mem_splitOn hl hc
  exact ht c hm hne

theorem Sound.insert (h : d.Sound P) (hi : i ≠ 0) (hnew : ∀ line ∈ new, Over P line) :
    (d.insert i new).Sound P := by
  obtain ⟨first, rest, hlines, hstart⟩ := h.starts
  obtain ⟨i, rfl⟩ := Nat.exists_eq_succ_of_ne_zero hi
  refine ⟨⟨first, rest.take i ++ new ++ rest.drop i, ?_, hstart⟩, ?_⟩
  · rw [Document.insert, hlines]
    rfl
  · intro line hl
    rw [Document.insert, List.mem_append, List.mem_append] at hl
    rcases hl with (hl | hl) | hl
    · exact h.lines_over line (List.mem_of_mem_take hl)
    · exact hnew line hl
    · exact h.lines_over line (List.mem_of_mem_drop hl)

theorem Sound.annotateHeader (h : d.Sound P) (hP : Alphabet P) {c : SpotColor}
    (hc : Over P c.name) : (d.annotateHeader c).2.Sound P := by
  rcases d.annotateHeader_cases c with ⟨-, hd⟩ | ⟨before, anchor, rest, hlines, -, -, hd⟩
  · rwa [hd]
  · have hanchor : Over P anchor := h.lines_over anchor (by simp [hlines])
    rw [hd]
    exact h.insert before.length.succ_ne_zero
      (Over.map_lineEnding (c.over_headerLines hP hc) hanchor)

theorem opens_of_startMarker (h : startMarker <+: line) (hm : m ∈ Marker.opening) :
    Marker.opens m line = false := by
  have hdistinct : ∀ m ∈ Marker.opening, startMarker.isPrefixOf m = false ∧
      m.isPrefixOf startMarker = false := by decide
  obtain ⟨hleft, hright⟩ := hdistinct m hm
  refine Marker.opens_eq_false_of_opens hleft hright ?_
  obtain ⟨rest, rfl⟩ := h
  exact List.isPrefixOf_iff_prefix.2 (List.prefix_append startMarker rest)

theorem Sound.injectProlog (h : d.Sound P) (hP : Alphabet P) {c : SpotColor} (hc : Over P c.name)
    (hfeed : '\n' ∉ c.name) (style : StrokeStyle) : (d.injectProlog c style).2.Sound P := by
  rcases d.injectProlog_cases c style with hd | ⟨before, marker, rest, hlines, hplace, hd⟩
  · rwa [hd]
  · obtain ⟨first, others, hfirst, hstart⟩ := h.starts
    have hmarker : Over P marker := h.lines_over marker (by simp [hlines])
    -- The marker is not on the first line, which opens with the start marker.
    have hne : before.length ≠ 0 := by
      intro hz
      rw [List.length_eq_zero_iff.1 hz, List.nil_append, hfirst] at hlines
      obtain ⟨rfl, -⟩ := List.cons.inj hlines
      rcases hplace with ⟨-, hopens⟩ | ⟨-, hopens⟩
      · rw [opens_of_startMarker hstart (by decide)] at hopens
        cases hopens
      · rw [opens_of_startMarker hstart (by decide)] at hopens
        cases hopens
    rw [hd, procedureBlock_eq hfeed]
    exact h.insert hne (Over.map_lineEnding (c.over_procedureLines hP hc style) hmarker)

theorem Sound.markStrokes (h : d.Sound P) (hP : Alphabet P) : d.markStrokes.2.Sound P := by
  obtain ⟨first, rest, hlines, hstart⟩ := h.starts
  refine ⟨⟨first, (Region.outside.read first).2.mark rest, ?_, hstart⟩, ?_⟩
  · rw [lines_markStrokes, hlines, Region.mark_outside_cons]
  · rw [lines_markStrokes]
    exact over_mark hP h.lines_over .outside

theorem Sound.markCut (h : d.Sound P) (hP : Alphabet P) {c : SpotColor} (hc : Over P c.name)
    (hfeed : '\n' ∉ c.name) (style : StrokeStyle) : (d.markCut c style).2.Sound P :=
  ((h.annotateHeader hP hc).injectProlog hP hc hfeed style).markStrokes hP

theorem Sound.merge {print cut m : Document} (hp : print.Sound P) (hc : cut.Sound P)
    (hP : Alphabet P) (h : (print.merge cut).2 = .ok m) : m.Sound P := by
  obtain ⟨l⟩ := exists_layout h
  obtain ⟨first, rest, hlines, hstart⟩ := hc.starts
  have hprint := hp.lines_over
  have hcut := hc.lines_over
  rw [l.print_page.page.lines_eq] at hprint
  rw [l.cut_page.page.lines_eq] at hlines hcut
  simp only [List.mem_append, or_imp, forall_and] at hprint hcut
  have hrestores {body : List Text} (h : ∀ line ∈ body, Over P line) (n : Nat) :
      ∀ line ∈ body, Over P (Page.restores n ++ lineEnding line) :=
    fun line hl => hP.over_restores n (h line hl)
  have hfragment := l.print_page.fragment.forall_mem (hrestores hprint.1.2) hprint.1.2
  have hbody := l.cut_page.fragment.forall_mem (hrestores hcut.1.2) hcut.1.2
  simp only [List.mem_append, or_imp, forall_and] at hfragment hbody
  have hclosing : ∀ line ∈ closing l.cutParts l.tail, Over P line := by
    obtain ⟨paint, after, htail, -⟩ := l.cut_page.page.paint
    intro line hl
    rw [(mem_closing hl).2, htail, List.headD_cons]
    exact hP.over_restores _ (hcut.2 paint (by simp [htail]))
  obtain ⟨before, setup, hhead, -, -⟩ := l.cut_page.page.setup
  have hne : l.head ≠ [] := by
    rw [hhead]
    simp
  obtain ⟨first', head, hfirst⟩ := List.exists_cons_of_ne_nil hne
  rw [hfirst, List.cons_append, List.cons_append, List.cons.injEq] at hlines
  refine ⟨⟨first, head ++ l.cutParts.clip.toList ++ l.printParts.fragment ++ l.cutParts.fragment ++
    closing l.cutParts l.tail ++ l.tail, ?_, hstart⟩, ?_⟩
  · rw [l.lines_eq, hfirst, hlines.1]
    simp only [List.cons_append]
  · rw [l.lines_eq]
    simp only [List.mem_append, or_imp, forall_and]
    exact ⟨⟨⟨⟨⟨hcut.1.1, hbody.1⟩, hfragment.2⟩, hbody.2⟩, hclosing⟩, hcut.2⟩

/-- The lines of a sound document are the lines of its text. -/
theorem Sound.parse_text (h : d.Sound P) (hfeed : ¬ P '\n') : parse d.text = .ok d := by
  obtain ⟨first, rest, hlines, hstart⟩ := h.starts
  have htext : startMarker <+: d.text := by
    rw [text, hlines]
    exact hstart.trans (prefix_join_cons _ _ _)
  have hne : d.lines ≠ [] := by
    rw [hlines]
    exact List.cons_ne_nil first rest
  have hpieces : ∀ line ∈ d.lines, '\n' ∉ line :=
    fun line hl hm => hfeed (h.lines_over line hl '\n' hm)
  refine parse_eq_ok_iff.2 ⟨htext, ?_⟩
  rw [splitLines, text, join, List.splitOn_intercalate '\n' hpieces hne]

end

end Document
end CutPath
