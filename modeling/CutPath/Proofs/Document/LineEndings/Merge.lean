import CutPath.Proofs.Document.LineEndings.Passes

namespace CutPath
open Text
set_option autoImplicit true

namespace Marker

theorem indexFrom?_returnLines {p : Text → Bool} (hp : IgnoresReturn p) {lines : List Text}
    (hk : k < lines.length) : indexFrom? p k (returnLines lines) = indexFrom? p k lines := by
  rw [indexFrom?, drop_returnLines hk, hp.findIdx?, ← indexFrom?]

theorem lt_of_indexFrom? {p : Text → Bool} {lines : List Text} (hlast : lines.getLast? = some [])
    (hp : p [] = false) (hk : k < lines.length) (h : indexFrom? p k lines = some i) :
    i + 1 < lines.length := by
  obtain ⟨j, hj, rfl⟩ := Option.map_eq_some_iff.1 h
  have hdrop : (lines.drop k).getLast? = some [] := by
    rw [List.getLast?_drop, if_neg (by omega), hlast]
  have hlt := Marker.lt_of_findIdx? hdrop hp hj
  rw [List.length_drop] at hlt
  omega

end Marker

namespace Page

theorem splitClip_map_addReturn (body : List Text) :
    splitClip (body.map addReturn) =
      ((splitClip body).1.map addReturn, (splitClip body).2.map addReturn) := by
  have hblank : isBlankText ∘ addReturn = isBlankText := funext ignoresReturn_isBlankText
  rw [splitClip, List.dropWhile_map, hblank, splitClip]
  cases body.dropWhile isBlankText with
  | nil => rfl
  | cons first rest =>
    simp only [List.map_cons, ignoresReturn_isClip first]
    split <;> rfl

theorem splitClip_snd_subset (body : List Text) : (splitClip body).2 ⊆ body := by
  rcases clip_cases body with h | ⟨blanks, clip, artwork, rfl, hblanks, hclip⟩
  · rw [splitClip_eq_none h]
    exact List.Subset.refl body
  · rw [splitClip_eq_some rfl hblanks hclip]
    intro line hl
    simp [hl]

/-- A line that loses some of its restores keeps its carriage return. -/
theorem stripRestores_map_addReturn (need : Nat) (h : ∀ line ∈ lines, '\r' ∉ line) :
    stripRestores need (lines.map addReturn) =
      ((stripRestores need lines).1.map addReturn, (stripRestores need lines).2) := by
  have hwords (line : Text) : (words (addReturn line)).length = (words line).length := by
    rw [words_addReturn]
  fun_induction stripRestores need lines with
  | case1 lines => rw [stripRestores]
  | case2 need => rfl
  | case3 need line lines hb ih =>
    rw [List.forall_mem_cons] at h
    rw [List.map_cons, stripRestores, ignoresReturn_isBlankText, if_pos hb, ih h.2]
  | case4 need line lines hb hr count hle rest taken he ih =>
    rw [List.forall_mem_cons] at h
    have hcount : (words line).length ≤ need + 1 := hle
    have hrest : stripRestores (need + 1 - (words line).length) (lines.map addReturn) =
        (rest.map addReturn, taken) := by
      rw [ih h.2, he]
    rw [List.map_cons, stripRestores, ignoresReturn_isBlankText, if_neg hb,
      ignoresReturn_isRestoreOnly, if_pos hr, hwords]
    simp only [if_pos hcount, hrest]
    rfl
  | case5 need line lines hb hr count hlt =>
    rw [List.forall_mem_cons] at h
    have hcount : ¬ (words line).length ≤ need + 1 := hlt
    rw [List.map_cons, stripRestores, ignoresReturn_isBlankText, if_neg hb,
      ignoresReturn_isRestoreOnly, if_pos hr, hwords]
    simp only [if_neg hcount, append_lineEnding_addReturn h.1, List.map_cons]
    rfl
  | case6 need line lines hb hr =>
    rw [List.map_cons, stripRestores, ignoresReturn_isBlankText, if_neg hb,
      ignoresReturn_isRestoreOnly, if_neg hr]

end Page

namespace PageParts

def returned (p : PageParts) : PageParts :=
  { p with clip := p.clip.map addReturn, fragment := p.fragment.map addReturn }

theorem lt_of_ofLines (hlast : lines.getLast? = some []) (h : ofLines layer lines = .ok p) :
    p.setupEnd + 1 < lines.length ∧ p.paint + 1 < lines.length := by
  unfold ofLines at h
  split at h
  · cases h
  split at h
  · cases h
  next setupEnd hsetup =>
  split at h
  · cases h
  next paint hpaint =>
  cases h
  have hlt := Marker.lt_of_findIdx? hlast (by decide) hsetup
  exact ⟨hlt, Marker.lt_of_indexFrom? hlast (by decide) hlt hpaint⟩

theorem ofLines_returnLines (layer : Layer) (hlast : lines.getLast? = some [])
    (hreturn : ∀ line ∈ lines, '\r' ∉ line) :
    ofLines layer (returnLines lines) = (ofLines layer lines).map returned := by
  have hbox : Marker.boundingBox? (returnLines lines) = Marker.boundingBox? lines :=
    (Marker.ignoresReturn_opens (by decide)).findIdx? lines
  have hsetup : Marker.pageSetupEnd? (returnLines lines) = Marker.pageSetupEnd? lines :=
    (Marker.ignoresReturn_opens (by decide)).findIdx? lines
  unfold ofLines
  rw [hbox, hsetup]
  cases hb : Marker.boundingBox? lines with
  | none => rfl
  | some box =>
    cases hs : Marker.pageSetupEnd? lines with
    | none => rfl
    | some setupEnd =>
      -- All that is cut out ends before the last line, the only one without a carriage return.
      have hbox := Marker.lt_of_findIdx? hlast (by decide) hb
      have hsetup := Marker.lt_of_findIdx? hlast (by decide) hs
      simp only [Marker.pagePaint?,
        Marker.indexFrom?_returnLines Marker.ignoresReturn_isPaint hsetup]
      cases hp : Marker.indexFrom? Marker.isPaint (setupEnd + 1) lines with
      | none => rfl
      | some paint =>
        have hpaint := Marker.lt_of_indexFrom? hlast (by decide) hsetup hp
        have hbody : ((returnLines lines).take paint).drop (setupEnd + 1) =
            ((lines.take paint).drop (setupEnd + 1)).map addReturn := by
          rw [take_returnLines (by omega), List.map_drop]
        have hinner : ∀ line ∈ (Page.splitClip ((lines.take paint).drop (setupEnd + 1))).2.reverse,
            '\r' ∉ line := by
          intro line hl
          have hl := Page.splitClip_snd_subset _ (List.mem_reverse.1 hl)
          exact hreturn line (List.mem_of_mem_take (List.mem_of_mem_drop hl))
        have hdepth (clip : Option Text) :
            (clip.map addReturn).elim 0 Page.saveDepth = clip.elim 0 Page.saveDepth := by
          cases clip with
          | none => rfl
          | some clip => exact Page.ignoresReturn_saveDepth clip
        simp only [hbody, Page.splitClip_map_addReturn, headD_drop_returnLines hbox,
          ignoresReturn_trim _, ← List.map_reverse, hdepth,
          Page.stripRestores_map_addReturn _ hinner]
        rfl

end PageParts

namespace Document

variable {d print cut m : Document}

theorem mergedLines_returned {p c : PageParts} {lines : List Text}
    (hlast : lines.getLast? = some []) (hreturn : ∀ line ∈ lines, '\r' ∉ line)
    (hc : PageParts.ofLines layer lines = .ok c) :
    mergedLines (returnLines lines) p.returned c.returned =
      returnLines (mergedLines lines p c) := by
  obtain ⟨hsetup, hpaint⟩ := PageParts.lt_of_ofLines hlast hc
  have hk : c.paint < lines.length := by omega
  have hlike : '\r' ∉ (lines.drop c.paint).headD [] := hreturn _ (headD_drop_mem hk)
  have hclosing : closing c.returned (returnLines (lines.drop c.paint)) =
      (closing c (lines.drop c.paint)).map addReturn := by
    rw [← drop_returnLines hk, closing, headD_drop_returnLines hpaint,
      append_lineEnding_addReturn hlike, closing]
    change (if c.closed = 0 then _ else _) = _
    split <;> rfl
  change (returnLines lines).take (c.setupEnd + 1) ++ (c.clip.map addReturn).toList ++
    p.fragment.map addReturn ++ c.fragment.map addReturn ++
    closing c.returned ((returnLines lines).drop c.paint) ++ (returnLines lines).drop c.paint =
      returnLines (lines.take (c.setupEnd + 1) ++ c.clip.toList ++ p.fragment ++ c.fragment ++
        closing c (lines.drop c.paint) ++ lines.drop c.paint)
  rw [take_returnLines hsetup, drop_returnLines hk, hclosing, returnLines_append _ (drop_ne_nil hk)]
  simp only [List.map_append, Option.toList_map]

/-- A merge of documents with carriage returns misses what it misses without, or comes out with
them, and remarks the same. -/
theorem Fed.returned_merge (hp : print.Fed) (hc : cut.Fed) :
    print.returned.merge cut.returned =
      ((print.merge cut).1, (print.merge cut).2.map returned) := by
  have hprint := PageParts.ofLines_returnLines .print hp.last fun line => hp.not_mem
  have hcut := PageParts.ofLines_returnLines .cut hc.last fun line => hc.not_mem
  unfold merge
  rw [returned, returned, hprint, hcut]
  cases PageParts.ofLines .print print.lines with
  | error f => rfl
  | ok p =>
    cases hparts : PageParts.ofLines .cut cut.lines with
    | error f => rfl
    | ok c =>
      obtain ⟨-, hpaint⟩ := PageParts.lt_of_ofLines hc.last hparts
      have htrailer : Marker.trailer? (c.returned.paint + 1) (returnLines cut.lines) =
          Marker.trailer? (c.paint + 1) cut.lines :=
        Marker.indexFrom?_returnLines (Marker.ignoresReturn_opens (by decide)) hpaint
      have hlines := mergedLines_returned (p := p) hc.last (fun line => hc.not_mem) hparts
      cases ht : Marker.trailer? (c.paint + 1) cut.lines with
      | none =>
        simp only [Except.map, htrailer, ht]
        rfl
      | some i =>
        simp only [Except.map, htrailer, ht, hlines]
        rfl

theorem Fed.merge (hp : print.Fed) (hc : cut.Fed) (h : (print.merge cut).2 = .ok m) : m.Fed := by
  refine ⟨hp.sound.merge hc.sound alphabet_isFed h, ?_⟩
  obtain ⟨p, c, -, hparts, hlines, -⟩ := merge_eq_ok h
  obtain ⟨-, hpaint⟩ := PageParts.lt_of_ofLines hc.last hparts
  have hk : c.paint < cut.lines.length := by omega
  rw [hlines, mergedLines, List.getLast?_append_of_ne_nil _ (drop_ne_nil hk), List.getLast?_drop,
    if_neg (by omega), hc.last]

end Document
end CutPath
