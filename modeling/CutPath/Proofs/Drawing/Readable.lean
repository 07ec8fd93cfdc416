import Mathlib.Data.List.Chain
import CutPath.Proofs.Drawing.Sealed

namespace CutPath
set_option autoImplicit true

namespace Markup

def StartsTag (t : Text) : Prop := t.head? ∉ [some '!', some '?', some '/']

theorem startsTag_of_ne (hbang : ∀ u, t = '!' :: u → False) (hquery : ∀ u, t = '?' :: u → False)
    (hslash : ∀ u, t = '/' :: u → False) : StartsTag t := by
  cases t with
  | nil => simp [StartsTag]
  | cons c t =>
    have hother : c ≠ '!' ∧ c ≠ '?' ∧ c ≠ '/' := by
      refine ⟨?_, ?_, ?_⟩ <;> rintro rfl
      · exact hbang t rfl
      · exact hquery t rfl
      · exact hslash t rfl
    simpa [StartsTag] using hother

theorem StartsTag.of_append (h : StartsTag (a ++ b)) : StartsTag a := by
  cases a with
  | nil => simp [StartsTag]
  | cons c a => exact h

theorem readAngle_start (h : StartsTag (c :: t)) : readAngle (c :: t) = readStart (c :: t) := by
  unfold readAngle
  split <;> simp_all [StartsTag]

def isText : Markup → Bool
  | leaf (.text _) => true
  | _ => false

/-- A piece that is read again as it was written, whatever comes next; a text goes up to the next
bracket, so it has none. -/
inductive Readable : Markup → Prop
  | text (hne : raw ≠ []) (hb : '<' ∉ raw) : Readable (leaf (.text raw))
  | angle (ht : m.isText = false) (hw : m.write = '<' :: t)
      (hr : ∀ rest, readAngle (t ++ rest) = .ok (m, rest)) : Readable m

theorem readable_openTag (hs : Sealed none content) (hh : StartsTag content)
    (hl : content.getLast? ≠ some '/') : Readable (openTag content) := by
  refine .angle (t := content ++ ['>']) rfl rfl fun rest => ?_
  have hstart : readAngle (content ++ ['>'] ++ rest) = readStart (content ++ '>' :: rest) := by
    rw [List.append_assoc]
    cases content with
    | nil => rfl
    | cons c content => exact readAngle_start hh
  rw [hstart, readStart, cutTag?_of_sealed hs]
  exact if_neg hl

theorem readable_emptyTag (hs : Sealed none (content ++ ['/']))
    (hh : StartsTag (content ++ ['/'])) :
    Readable (emptyTag content) := by
  refine .angle (t := content ++ ['/', '>']) rfl rfl fun rest => ?_
  have hstart : readAngle (content ++ ['/', '>'] ++ rest) =
      readStart (content ++ ['/'] ++ '>' :: rest) := by
    rw [List.append_assoc, List.append_assoc]
    cases content with
    | nil => simp [StartsTag] at hh
    | cons c content => exact readAngle_start hh
  rw [hstart, readStart, cutTag?_of_sealed hs]
  simp

theorem readable_closeTag (hs : Sealed none name) (hn : closingName name = name) :
    Readable (closeTag name) := by
  refine .angle (t := '/' :: name ++ ['>']) rfl rfl fun rest => ?_
  have hclose : readAngle ('/' :: name ++ ['>'] ++ rest) = readClose (name ++ '>' :: rest) := by
    rw [List.append_assoc]
    rfl
  rw [hclose, readClose, cutTag?_of_sealed hs]
  exact congrArg (fun name => Except.ok (closeTag name, rest)) hn

theorem readable_of_readStart (hh : StartsTag t) (h : readStart t = .ok (m, rest)) :
    Readable m := by
  unfold readStart fail at h
  split at h
  · cases h
  · next content r hcut =>
    obtain ⟨rfl, hs⟩ := cutTag?_eq_some_iff.1 hcut
    have hcontent : StartsTag content := by
      cases content with
      | nil => simp [StartsTag]
      | cons c content => exact hh
    split at h
    · next hl =>
      cases h
      obtain ⟨body, rfl⟩ := List.getLast?_eq_some_iff.1 hl
      rw [List.dropLast_concat]
      exact readable_emptyTag hs hcontent
    · next hl =>
      cases h
      exact readable_openTag hs hcontent hl

theorem readable_of_readClose (h : readClose t = .ok (m, rest)) :
    ∃ name, m = closeTag name ∧ Readable m := by
  unfold readClose fail at h
  split at h
  · cases h
  · next content r hcut =>
    cases h
    obtain ⟨-, hs⟩ := cutTag?_eq_some_iff.1 hcut
    obtain ⟨hagain, b, hb, hspaces⟩ := closingName_cases content
    refine ⟨_, rfl, readable_closeTag (Sealed.of_append (b := b) (by simp) ?_ (hb ▸ hs)) hagain⟩
    intro c hc
    constructor
    · rintro rfl
      cases hspaces _ hc
    · rintro rfl
      cases hspaces _ hc

theorem readable_of_readInstruction (h : readInstruction ('?' :: t) = .ok (m, rest)) :
    ∃ l, m = leaf l ∧ Readable m := by
  unfold readInstruction fail at h
  split at h
  · cases h
  · cases h
  · next c content r hcut =>
    cases h
    obtain ⟨rfl, -⟩ := List.cons.inj (cutAt?_eq hcut)
    refine ⟨_, rfl, .angle (t := '?' :: content ++ "?>".toList) rfl rfl fun rest => ?_⟩
    change readInstruction ('?' :: content ++ "?>".toList ++ rest) = _
    rw [readInstruction, cutAt?_append (by decide) hcut]

theorem readable_cdata (h : cutAt? "]]>" t = some (body, rest))
    (hb : "[CDATA[".toList <+: body) : Readable (leaf (.cdata (body.drop 7))) := by
  obtain ⟨content, rfl⟩ := hb
  refine .angle (t := '!' :: "[CDATA[".toList ++ content ++ "]]>".toList) rfl rfl fun rest => ?_
  have hcut : cutAt? "]]>" ('[' :: ("CDATA[".toList ++ content ++ "]]>".toList ++ rest)) =
      some ("[CDATA[".toList ++ content, rest) := cutAt?_append (by decide) h rest
  change readBang ('[' :: ("CDATA[".toList ++ content ++ "]]>".toList ++ rest)) = _
  simp only [readBang, hcut]
  exact if_pos (List.isPrefixOf_iff_prefix.2 (List.prefix_append _ _))

theorem readable_comment (h : cutAt? "-->" t = some (body, rest)) :
    Readable (leaf (.comment body)) := by
  refine .angle (t := "!--".toList ++ body ++ "-->".toList) rfl rfl fun rest => ?_
  change readBang ('-' :: '-' :: (body ++ "-->".toList ++ rest)) = _
  simp only [readBang, List.drop_succ_cons, List.drop_zero, cutAt?_append (by decide) h]
  rfl

theorem readable_doctype (h : cutBalanced? 0 t = some (body, rest))
    (hname : Text.lowerAscii (body.take 7) = "doctype")
    (hc : (body.drop 7).dropWhile isSpace = c :: content) :
    Readable (leaf (.doctype (c :: content))) := by
  have hspace : isSpace c = false := by
    have hhead := List.head?_dropWhile_not isSpace (body.drop 7)
    simpa [hc] using hhead
  have hbody : body = body.take 7 ++ (body.drop 7).takeWhile isSpace ++ c :: content := by
    rw [List.append_assoc, ← hc, List.takeWhile_append_dropWhile, List.take_append_drop]
  have hplain : ∀ d ∈ body.take 7 ++ (body.drop 7).takeWhile isSpace, d ≠ '<' ∧ d ≠ '>' := by
    intro d hd
    rcases List.mem_append.1 hd with hd | hd
    · have hlower : d.toLower ∈ "doctype".toList := hname ▸ List.mem_map_of_mem hd
      constructor
      · rintro rfl
        exact absurd hlower (by decide)
      · rintro rfl
        exact absurd hlower (by decide)
    · have hd := List.mem_takeWhile_imp hd
      constructor
      · rintro rfl
        cases hd
      · rintro rfl
        cases hd
  have hcut (rest : Text) : cutBalanced? 0 (c :: content ++ '>' :: rest) =
      some (c :: content, rest) := by
    have hall := cutBalanced?_append h rest
    rw [hbody, List.append_assoc, cutBalanced?_plain hplain, Option.map_eq_some_iff] at hall
    obtain ⟨⟨b, r⟩, hb, he⟩ := hall
    obtain ⟨hb', hr⟩ := Prod.mk.inj he
    rw [hb]
    exact congrArg some (Prod.ext (List.append_cancel_left hb') hr)
  refine .angle (t := "!DOCTYPE ".toList ++ c :: content ++ ['>']) rfl rfl fun rest => ?_
  have hagain : cutBalanced? 0 ('D' :: ("OCTYPE ".toList ++ (c :: content ++ '>' :: rest))) =
      some ("DOCTYPE ".toList ++ c :: content, rest) := by
    rw [← List.cons_append, cutBalanced?_plain (by simp), hcut]
    rfl
  change readBang ('D' :: ("OCTYPE ".toList ++ (c :: content ++ ['>'] ++ rest))) = _
  rw [List.append_assoc, List.singleton_append]
  have hfirst : Text.lowerAscii (("DOCTYPE ".toList ++ c :: content).take 7) = "doctype" := by
    change Text.lowerAscii "DOCTYPE" = _
    decide
  have hlast : (("DOCTYPE ".toList ++ c :: content).drop 7).dropWhile isSpace = c :: content := by
    change (' ' :: c :: content).dropWhile isSpace = _
    rw [List.dropWhile_cons_of_pos (by decide), List.dropWhile_cons_of_neg (by simp [hspace])]
  simp only [readBang, hagain, hfirst, hlast]
  rfl

theorem readable_of_readBang (h : readBang t = .ok (m, rest)) :
    ∃ l, m = leaf l ∧ Readable m := by
  unfold readBang fail at h
  split at h
  · split at h
    · cases h
    · next hcut =>
      split at h
      · next hb =>
        cases h
        exact ⟨_, rfl, readable_cdata hcut (List.isPrefixOf_iff_prefix.1 hb)⟩
      · cases h
  · split at h
    · cases h
    · next hcut =>
      split at h
      · cases h
        exact ⟨_, rfl, readable_comment hcut⟩
      · cases h
  · split at h
    · split at h
      · cases h
      · next hcut =>
        split at h
        · next hname =>
          split at h
          · cases h
          · next hcontent =>
            cases h
            obtain ⟨c, content, hc⟩ := List.exists_cons_of_ne_nil hcontent
            rw [hc]
            exact ⟨_, rfl, readable_doctype hcut hname hc⟩
        · cases h
    · cases h
  · cases h

/-- Every piece that has been read can be read again. -/
theorem readable_of_readAngle (h : readAngle t = .ok (m, rest)) : Readable m := by
  unfold readAngle at h
  split at h
  · obtain ⟨l, -, hr⟩ := readable_of_readBang h
    exact hr
  · obtain ⟨l, -, hr⟩ := readable_of_readInstruction h
    exact hr
  · obtain ⟨name, -, hr⟩ := readable_of_readClose h
    exact hr
  · cases h
  · next hbang hquery hslash _ =>
    exact readable_of_readStart (startsTag_of_ne hbang hquery hslash) h

def isStart : Markup → Bool
  | openTag _ | emptyTag _ => true
  | _ => false

theorem startsTag_of_readAngle (h : readAngle t = .ok (m, rest)) (hm : m.isStart = true) :
    StartsTag t := by
  unfold readAngle at h
  split at h
  · obtain ⟨l, rfl, -⟩ := readable_of_readBang h
    cases hm
  · obtain ⟨l, rfl, -⟩ := readable_of_readInstruction h
    cases hm
  · obtain ⟨name, rfl, -⟩ := readable_of_readClose h
    cases hm
  · cases h
  · next hbang hquery hslash _ =>
    exact startsTag_of_ne hbang hquery hslash

theorem Readable.startsTag (h : Readable m) (hm : m.isStart = true) (hw : m.write = '<' :: t) :
    StartsTag t := by
  cases h with
  | text => cases hm
  | angle _ hw' hr =>
    obtain rfl := (List.cons.inj (hw.symm.trans hw')).2
    have hread := hr []
    rw [List.append_nil] at hread
    exact startsTag_of_readAngle hread hm

theorem readable_of_read (h : read c t = .ok (m, rest)) : Readable m := by
  unfold read at h
  split at h
  · exact readable_of_readAngle h
  · next hc =>
    cases h
    refine .text (List.cons_ne_nil _ _) ?_
    rw [List.mem_cons, not_or]
    refine ⟨Ne.symm hc, fun hm => ?_⟩
    simpa using List.mem_takeWhile_imp hm

theorem scan_nil : scan [] = ([], none) := by rw [scan]

theorem scan_of_read (h : read c t = .ok (m, rest)) :
    scan (c :: t) = ((m, rest) :: (scan rest).1, (scan rest).2) := by
  rw [scan]
  split
  · next he => cases h.symm.trans he
  · next he =>
    obtain ⟨rfl, rfl⟩ := Prod.mk.inj (Except.ok.inj (h.symm.trans he))
    rfl

theorem scan_of_fault (h : read c t = .error fault) : scan (c :: t) = ([], some fault) := by
  rw [scan]
  split
  · next he => rw [Except.error.inj (h.symm.trans he)]
  · next he => cases h.symm.trans he

theorem readable_of_mem_scan (h : p ∈ (scan t).1) : Readable p.1 := by
  induction t using scan.induct with
  | case1 =>
    rw [scan_nil] at h
    cases h
  | case2 c t fault hread =>
    rw [scan_of_fault hread] at h
    cases h
  | case3 c t m rest hread _ ih =>
    rw [scan_of_read hread] at h
    rcases List.mem_cons.1 h with rfl | h
    · exact readable_of_read hread
    · exact ih h

/-- Two texts next to each other would be read as one. -/
def Apart (m n : Markup) : Prop := (m.isText && n.isText) = false

theorem readable_text_iff : Readable (leaf (.text raw)) ↔ raw ≠ [] ∧ '<' ∉ raw := by
  constructor
  · intro h
    cases h with
    | text hne hb => exact ⟨hne, hb⟩
    | angle ht => cases ht
  · exact fun h => .text h.1 h.2

theorem Readable.write_of_not_text (h : Readable m) (ht : m.isText = false) :
    ∃ t, m.write = '<' :: t ∧ ∀ rest, readAngle (t ++ rest) = .ok (m, rest) := by
  cases h with
  | text => cases ht
  | angle _ hw hr => exact ⟨_, hw, hr⟩

theorem head?_write {ms : List Markup} (hr : ∀ m ∈ ms, Readable m)
    (ht : ∀ m ∈ ms.head?, m.isText = false) :
    ∀ c ∈ (ms.flatMap write).head?, c = '<' := by
  cases ms with
  | nil => simp
  | cons m ms =>
    obtain ⟨t, hw, -⟩ := (hr m List.mem_cons_self).write_of_not_text (ht m rfl)
    rw [List.flatMap_cons, hw]
    simp

/-- A run of pieces that can be read again is read again as a whole. -/
theorem scan_write (hr : ∀ m ∈ ms, Readable m) (hc : ms.IsChain Apart) :
    (scan (ms.flatMap write)).1.map Prod.fst = ms ∧ (scan (ms.flatMap write)).2 = none := by
  induction ms with
  | nil =>
    rw [List.flatMap_nil, scan_nil]
    exact ⟨rfl, rfl⟩
  | cons m ms ih =>
    obtain ⟨hm, hms⟩ := List.forall_mem_cons.1 hr
    obtain ⟨ihms, ihfault⟩ := ih hms hc.tail
    have hread : ∃ c t, m.write = c :: t ∧
        read c (t ++ ms.flatMap write) = .ok (m, ms.flatMap write) := by
      cases hm with
      | angle _ hw hr => exact ⟨'<', _, hw, (if_pos rfl).trans (hr _)⟩
      | @text raw hne hb =>
        obtain ⟨c, t, rfl⟩ := List.exists_cons_of_ne_nil hne
        have ht : ∀ d ∈ t, (d != '<') = true := by
          rintro d hd
          rw [bne_iff_ne]
          rintro rfl
          exact hb (List.mem_cons_of_mem c hd)
        have hnext : ∀ m ∈ ms.head?, m.isText = false := by
          intro m hm
          exact (List.isChain_cons.1 hc).1 m hm
        have hfirst : c ≠ '<' := by
          rintro rfl
          exact hb List.mem_cons_self
        refine ⟨c, t, rfl, ?_⟩
        rw [read, if_neg hfirst, List.takeWhile_append_of_pos ht,
          List.dropWhile_append_of_pos ht]
        have hbracket := head?_write hms hnext
        cases hrest : ms.flatMap write with
        | nil => simp
        | cons d rest =>
          rw [hrest] at hbracket
          rw [hbracket d rfl]
          simp
    obtain ⟨c, t, hw, hread⟩ := hread
    rw [List.flatMap_cons, hw, List.cons_append, scan_of_read hread]
    exact ⟨by rw [List.map_cons, ihms], ihfault⟩

end Markup
end CutPath
