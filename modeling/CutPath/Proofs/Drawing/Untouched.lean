import CutPath.Proofs.Drawing.PrintLayer

namespace CutPath
open Markup
set_option autoImplicit true

namespace Markup

theorem isText_of_readBang (h : readBang t = .ok (m, rest)) : m.isText = false := by
  unfold readBang fail at h
  split at h
  · split at h
    · cases h
    · split at h <;> cases h
      rfl
  · split at h
    · cases h
    · split at h <;> cases h
      rfl
  · split at h
    · split at h
      · cases h
      · split at h
        · split at h <;> cases h
          rfl
        · cases h
    · cases h
  · cases h

theorem isText_of_readAngle (h : readAngle t = .ok (m, rest)) : m.isText = false := by
  unfold readAngle at h
  split at h
  · exact isText_of_readBang h
  · unfold readInstruction fail at h
    split at h <;> cases h
    rfl
  · unfold readClose fail at h
    split at h <;> cases h
    rfl
  · cases h
  · unfold readStart fail at h
    split at h
    · cases h
    · split at h <;> cases h <;> rfl

theorem read_cases (h : read c t = .ok (m, rest)) :
    (c = '<' ∧ m.isText = false) ∨
      (c ≠ '<' ∧ (∃ raw, m = leaf (.text (c :: raw))) ∧ ∀ d ∈ rest.head?, d = '<') := by
  unfold read at h
  split at h
  · next hc => exact .inl ⟨hc, isText_of_readAngle h⟩
  · next hc =>
    cases h
    refine .inr ⟨hc, ⟨_, rfl⟩, ?_⟩
    intro d hd
    have hstop := List.head?_dropWhile_not (· != '<') t
    rw [Option.mem_def] at hd
    rw [hd] at hstop
    simpa using hstop

theorem head?_scan (h : m ∈ ((scan t).1.map Prod.fst).head?) :
    (t.head? = some '<' ∧ m.isText = false) ∨
      ∃ c raw, c ≠ '<' ∧ t.head? = some c ∧ m = leaf (.text (c :: raw)) := by
  cases t with
  | nil =>
    rw [scan_nil] at h
    cases h
  | cons c t =>
    cases hread : read c t with
    | error fault =>
      rw [scan_of_fault hread] at h
      cases h
    | ok p =>
      rw [scan_of_read hread] at h
      obtain rfl : p.1 = m := Option.some.inj h
      rcases read_cases hread with ⟨rfl, hm⟩ | ⟨hc, ⟨raw, hm⟩, -⟩
      · exact .inl ⟨rfl, hm⟩
      · exact .inr ⟨c, raw, hc, rfl, hm⟩

/-- Reading gives no two texts next to each other. -/
theorem isChain_scan (t : Text) : ((scan t).1.map Prod.fst).IsChain Apart := by
  induction t using scan.induct with
  | case1 =>
    rw [scan_nil]
    exact .nil
  | case2 c t fault hread =>
    rw [scan_of_fault hread]
    exact .nil
  | case3 c t m rest hread _ ih =>
    rw [scan_of_read hread, List.map_cons]
    apply List.IsChain.cons ih
    intro n hn
    rcases read_cases hread with ⟨-, hm⟩ | ⟨-, -, hrest⟩
    · rw [Apart, hm, Bool.false_and]
    · rcases head?_scan hn with ⟨-, hn⟩ | ⟨d, raw, hd, hhead, -⟩
      · rw [Apart, hn, Bool.and_false]
      · exact (hd (hrest d hhead)).elim

end Markup

namespace Drawing

theorem joined_of_parse (h : parse t = .ok d) : d.content.Joined := by
  obtain ⟨-, hpairs, hcontent⟩ := content_of_parse h
  rw [Forest.Joined, hcontent, markup_ofMarkup hpairs]
  exact isChain_scan _

theorem head?_write_of_parse (hm : (dropByteOrderMark t).head? ≠ some '\ufeff')
    (h : parse t = .ok d) : d.write.head? ≠ some '\ufeff' := by
  obtain ⟨-, hpairs, hcontent⟩ := content_of_parse h
  apply Forest.head?_write_ne (readable_of_parse h)
  intro raw next he
  have hmarkup := markup_ofMarkup hpairs
  rw [← hcontent, he, Forest.markup] at hmarkup
  have hfirst : leaf (.text ('\ufeff' :: raw)) ∈
      ((scan (dropByteOrderMark t)).1.map Prod.fst).head? := by
    rw [← hmarkup]
    rfl
  rcases head?_scan hfirst with ⟨-, htext⟩ | ⟨c, raw', -, hhead, htext⟩
  · cases htext
  · injection htext with htext
    injection htext with htext
    obtain rfl := (List.cons.inj htext).1
    exact hm hhead

/-- A drawing has all markup of its text in order, and is read again as it was from what is written
of it, which is written again as it is. -/
theorem parse_write_untouched (hm : t.head? ≠ some '\ufeff') (h : parse t = .ok d) :
    d.content.markup = (scan t).1.map Prod.fst ∧
      parse d.write = .ok d ∧ (parse d.write).map write = .ok d.write := by
  have hbare := dropByteOrderMark_of_ne hm
  obtain ⟨-, hpairs, hcontent⟩ := content_of_parse h
  have hmarkup := markup_ofMarkup hpairs
  rw [← hcontent, hbare] at hmarkup
  have hstart : d.write.head? ≠ some '\ufeff' := by
    apply head?_write_of_parse _ h
    rw [hbare]
    exact hm
  have hagain : parse d.write = .ok d :=
    parse_joined (readable_of_parse h) (joined_of_parse h) (hasElement_of_parse h)
      (dropByteOrderMark_of_ne hstart)
  refine ⟨hmarkup, hagain, ?_⟩
  rw [hagain]
  rfl

def handMade : Drawing :=
  ⟨.leaf (.instruction "xml version='1.0'") (.leaf (.text "\n") (.leaf (.doctype "svg [<!-- -->]")
    (.leaf (.comment " made by hand ") (.element "svg a='>'"
      (.leaf (.text "a &amp; ") (.leaf (.cdata "<") (.leaf (.text "b") (.element "g id=\"x\"" .nil
        (.empty "rect " .nil))))) (.leaf (.text "\n") (.element "g" (.empty "use" .nil) .nil))))))⟩

theorem parse_write_untouched_handMade :
    let t : Text := "<?xml version='1.0'?>\n<!doctype \t svg [<!-- -->]><!-- made by hand -->" ++
      "<svg a='>'>a &amp; <![CDATA[<]]>b<g id=\"x\"></g ><rect /></svg\n>\n<g><use/></g>"
    t.head? ≠ some '\ufeff' ∧ parse t = .ok handMade ∧
      handMade.write = "<?xml version='1.0'?>\n<!DOCTYPE svg [<!-- -->]><!-- made by hand -->" ++
        "<svg a='>'>a &amp; <![CDATA[<]]>b<g id=\"x\"></g><rect /></svg>\n<g><use/></g>" ∧
      handMade.content.markup = (scan t).1.map Prod.fst ∧
      parse handMade.write = .ok handMade ∧
      (parse handMade.write).map write = .ok handMade.write := by
  intro t
  have hmark : t.head? ≠ some '\ufeff' := by decide
  have hparse : parse t = .ok handMade := ok_of_toOption (by decide +kernel)
  exact ⟨hmark, hparse, by decide +kernel, parse_write_untouched hmark hparse⟩

end Drawing
end CutPath
