import CutPath.Drawing.Layers
import CutPath.Proofs.Drawing.Readable

namespace CutPath
open Markup
set_option autoImplicit true

theorem Drawing.dropByteOrderMark_of_ne (h : t.head? ≠ some '\ufeff') :
    dropByteOrderMark t = t := by
  unfold dropByteOrderMark
  split
  · exact (h rfl).elim
  · rfl

namespace Forest

def Readable : Forest → Prop
  | nil => True
  | leaf l next => (Markup.leaf l).Readable ∧ next.Readable
  | empty tag next => (emptyTag tag).Readable ∧ next.Readable
  | element tag children next =>
    (openTag tag).Readable ∧ (closeTag (tagName tag)).Readable ∧ children.Readable ∧ next.Readable

theorem readable_iff (f : Forest) : f.Readable ↔ ∀ m ∈ f.markup, m.Readable := by
  induction f with
  | nil => simp [Readable, markup]
  | leaf l next ih => simp [Readable, markup, ih]
  | empty tag next ih => simp [Readable, markup, ih]
  | element tag children next ihc ihn =>
    simp only [Readable, markup, ihc, ihn, List.mem_cons, List.mem_append, or_imp, forall_and,
      forall_eq]
    tauto

/-- Puts a leaf in front of a forest. A text runs on into a text that the forest starts with. -/
def addLeaf : Leaf → Forest → Forest
  | .text raw, leaf (.text raw') next => leaf (.text (raw ++ raw')) next
  | l, f => leaf l f

/-- A forest with neighboring texts made one. -/
def joinTexts : Forest → Forest
  | nil => nil
  | leaf l next => next.joinTexts.addLeaf l
  | empty tag next => empty tag next.joinTexts
  | element tag children next => element tag children.joinTexts next.joinTexts

theorem addLeaf_cases (l : Leaf) (f : Forest) :
    (f.addLeaf l = leaf l f ∧ ∀ m ∈ f.markup.head?, Apart (.leaf l) m) ∨
      ∃ raw raw' next, l = .text raw ∧ f = leaf (.text raw') next ∧
        f.addLeaf l = leaf (.text (raw ++ raw')) next := by
  unfold addLeaf
  split
  · exact .inr ⟨_, _, _, rfl, rfl, rfl⟩
  · next hother =>
    refine .inl ⟨rfl, fun m hm => ?_⟩
    cases l with
    | text raw =>
      cases f with
      | nil => cases hm
      | leaf l' next =>
        obtain rfl := Option.some.inj hm
        cases l' with
        | text raw' => exact (hother raw raw' next rfl rfl).elim
        | cdata | comment | instruction | doctype => rfl
      | empty | element =>
        obtain rfl := Option.some.inj hm
        rfl
    | cdata | comment | instruction | doctype => rfl

theorem write_leaf (l : Leaf) (next : Forest) : (leaf l next).write = l.write ++ next.write := rfl

theorem write_empty (tag : Text) (next : Forest) :
    (empty tag next).write = (emptyTag tag).write ++ next.write := rfl

theorem write_element (tag : Text) (children next : Forest) :
    (element tag children next).write =
      (openTag tag).write ++ children.write ++ (closeTag (tagName tag)).write ++ next.write := by
  simp only [write, markup, List.flatMap_cons, List.flatMap_append, List.append_assoc]

theorem write_addLeaf (l : Leaf) (f : Forest) : (f.addLeaf l).write = l.write ++ f.write := by
  rcases addLeaf_cases l f with ⟨h, -⟩ | ⟨raw, raw', next, rfl, rfl, h⟩
  · rw [h, write_leaf]
  · rw [h, write_leaf, write_leaf, ← List.append_assoc]
    rfl

theorem write_joinTexts (f : Forest) : f.joinTexts.write = f.write := by
  induction f with
  | nil => rfl
  | leaf l next ih => rw [joinTexts, write_addLeaf, ih, write_leaf]
  | empty tag next ih => rw [joinTexts, write_empty, ih, write_empty]
  | element tag children next ihc ihn => rw [joinTexts, write_element, ihc, ihn, write_element]

theorem Readable.addLeaf {f : Forest} (hl : (Markup.leaf l).Readable) (hf : f.Readable) :
    (f.addLeaf l).Readable := by
  rcases addLeaf_cases l f with ⟨h, -⟩ | ⟨raw, raw', next, rfl, rfl, h⟩
  · rw [h]
    exact ⟨hl, hf⟩
  · obtain ⟨hne, hb⟩ := readable_text_iff.1 hl
    obtain ⟨-, hb'⟩ := readable_text_iff.1 hf.1
    rw [h]
    refine ⟨.text (List.append_ne_nil_of_left_ne_nil hne _) ?_, hf.2⟩
    rw [List.mem_append, not_or]
    exact ⟨hb, hb'⟩

theorem Readable.joinTexts {f : Forest} (h : f.Readable) : f.joinTexts.Readable := by
  induction f with
  | nil => trivial
  | leaf l next ih => exact .addLeaf h.1 (ih h.2)
  | empty tag next ih => exact ⟨h.1, ih h.2⟩
  | element tag children next ihc ihn => exact ⟨h.1, h.2.1, ihc h.2.2.1, ihn h.2.2.2⟩

def Joined (f : Forest) : Prop := f.markup.IsChain Apart

theorem Joined.text (h : (leaf (.text raw) next).Joined) (raw' : Text) :
    (leaf (.text raw') next).Joined :=
  List.IsChain.imp_head (x := Markup.leaf (.text raw)) (y := Markup.leaf (.text raw'))
    (fun {_} hn => hn) h

theorem joined_joinTexts (f : Forest) : f.joinTexts.Joined := by
  induction f with
  | nil => exact .nil
  | leaf l next ih =>
    rw [joinTexts]
    rcases addLeaf_cases l next.joinTexts with ⟨h, hl⟩ | ⟨raw, raw', rest, rfl, hrest, h⟩
    · rw [h]
      exact List.IsChain.cons ih hl
    · rw [hrest] at ih
      rw [h]
      exact Joined.text ih _
  | empty tag next ih => exact List.IsChain.cons ih fun _ _ => rfl
  | element tag children next ihc ihn =>
    have hclose : (closeTag (tagName tag) :: next.joinTexts.markup).IsChain Apart :=
      List.IsChain.cons ihn fun _ _ => rfl
    have hinner := List.isChain_append.2 ⟨ihc, hclose, fun m _ n hn => by
      obtain rfl := Option.some.inj hn
      exact Bool.and_false _⟩
    exact List.IsChain.cons hinner fun _ _ => rfl

/-- A forest without the byte order mark that it may start with. -/
def dropMark : Forest → Forest
  | leaf (.text ['\ufeff']) next => next
  | leaf (.text ('\ufeff' :: raw)) next => leaf (.text raw) next
  | f => f

theorem dropMark_cases (f : Forest) :
    (f.dropMark = f ∧ ∀ raw next, f ≠ leaf (.text ('\ufeff' :: raw)) next) ∨
      (∃ next, f = leaf (.text ['\ufeff']) next ∧ f.dropMark = next) ∨
      ∃ c raw next, f = leaf (.text ('\ufeff' :: c :: raw)) next ∧
        f.dropMark = leaf (.text (c :: raw)) next := by
  unfold dropMark
  split
  · exact .inr (.inl ⟨_, rfl, rfl⟩)
  · next raw next hone =>
    cases raw with
    | nil => exact (hone rfl).elim
    | cons c raw => exact .inr (.inr ⟨c, raw, next, rfl, rfl⟩)
  · next hmark =>
    refine .inl ⟨rfl, fun raw next h => hmark raw next h⟩

theorem head?_write_ne {f : Forest} (h : f.Readable)
    (hm : ∀ raw next, f ≠ leaf (.text ('\ufeff' :: raw)) next) :
    f.write.head? ≠ some '\ufeff' := by
  cases f with
  | nil => exact nofun
  | leaf l next =>
    cases l with
    | text raw =>
      obtain ⟨c, raw, rfl⟩ := List.exists_cons_of_ne_nil (readable_text_iff.1 h.1).1
      intro hc
      obtain rfl : c = '\ufeff' := Option.some.inj hc
      exact hm raw next rfl
    | cdata | comment | instruction | doctype => exact nofun
  | empty tag next => exact nofun
  | element tag children next => exact nofun

theorem write_dropMark {f : Forest} (h : f.Readable) :
    f.dropMark.write = Drawing.dropByteOrderMark f.write := by
  rcases dropMark_cases f with ⟨hd, hm⟩ | ⟨next, rfl, hd⟩ | ⟨c, raw, next, rfl, hd⟩
  · rw [hd, Drawing.dropByteOrderMark_of_ne (head?_write_ne h hm)]
  · rw [hd]
    rfl
  · rw [hd]
    rfl

theorem Readable.dropMark {f : Forest} (h : f.Readable) : f.dropMark.Readable := by
  rcases dropMark_cases f with ⟨hd, -⟩ | ⟨next, rfl, hd⟩ | ⟨c, raw, next, rfl, hd⟩
  · rwa [hd]
  · rw [hd]
    exact h.2
  · rw [hd]
    refine ⟨.text (List.cons_ne_nil _ _) ?_, h.2⟩
    exact fun hb => (readable_text_iff.1 h.1).2 (List.mem_cons_of_mem _ hb)

theorem Joined.dropMark {f : Forest} (h : f.Joined) : f.dropMark.Joined := by
  rcases dropMark_cases f with ⟨hd, -⟩ | ⟨next, rfl, hd⟩ | ⟨c, raw, next, rfl, hd⟩
  · rwa [hd]
  · rw [hd]
    exact List.IsChain.tail h
  · rw [hd]
    exact h.text _

theorem hasElement_addLeaf (l : Leaf) (f : Forest) : (f.addLeaf l).hasElement = f.hasElement := by
  rcases addLeaf_cases l f with ⟨h, -⟩ | ⟨raw, raw', next, rfl, rfl, h⟩ <;> rw [h] <;> rfl

theorem hasElement_joinTexts (f : Forest) : f.joinTexts.hasElement = f.hasElement := by
  induction f with
  | nil => rfl
  | leaf l next ih => rw [joinTexts, hasElement_addLeaf, ih, hasElement]
  | empty => rfl
  | element => rfl

theorem hasElement_dropMark (f : Forest) : f.dropMark.hasElement = f.hasElement := by
  rcases dropMark_cases f with ⟨h, -⟩ | ⟨next, rfl, h⟩ | ⟨c, raw, next, rfl, h⟩ <;> rw [h] <;> rfl

end Forest

namespace Drawing

theorem pairTags_markup {f : Forest} (h : ps.map Prod.fst = f.markup) (opened : List Text)
    (qs : List (Markup × Text)) : pairTags opened (ps ++ qs) = pairTags opened qs := by
  induction f generalizing ps qs opened with
  | nil =>
    rw [List.map_eq_nil_iff.1 h, List.nil_append]
  | leaf l next ih =>
    obtain ⟨⟨m, rest⟩, ps, rfl, rfl, hps⟩ := List.map_eq_cons_iff.1 h
    exact ih hps opened qs
  | empty tag next ih =>
    obtain ⟨⟨m, rest⟩, ps, rfl, rfl, hps⟩ := List.map_eq_cons_iff.1 h
    exact ih hps opened qs
  | element tag children next ihc ihn =>
    obtain ⟨⟨m, rest⟩, ps, rfl, rfl, hps⟩ := List.map_eq_cons_iff.1 h
    obtain ⟨cs, later, rfl, hcs, hlater⟩ := List.map_eq_append_iff.1 hps
    obtain ⟨⟨m, rest⟩, ns, rfl, rfl, hns⟩ := List.map_eq_cons_iff.1 hlater
    rw [List.cons_append, pairTags, List.append_assoc, ihc hcs, List.cons_append, pairTags,
      if_pos rfl, ihn hns]

/-- The markup of elements that are left open, from the forests that follow their closing tags. -/
def closings (opened : List Text) (built : List Forest) : List Markup :=
  (opened.zip built).flatMap fun p => .closeTag p.1 :: p.2.markup

/-- What has been built from a run of markup makes up the run, if it closes what is open. -/
theorem markup_foldr_prepend (h : pairTags opened ps = .ok []) :
    ∃ f fs, (ps.map Prod.fst).foldr Forest.prepend (.nil, []) = (f, fs) ∧
      fs.length = opened.length ∧ ps.map Prod.fst = f.markup ++ closings opened fs := by
  induction ps generalizing opened with
  | nil =>
    obtain rfl : opened = [] := Except.ok.inj h
    exact ⟨.nil, [], rfl, rfl, rfl⟩
  | cons p ps ih =>
    obtain ⟨m, rest⟩ := p
    cases m with
    | leaf l =>
      obtain ⟨f, fs, hbuilt, hlen, hms⟩ := ih h
      exact ⟨.leaf l f, fs, by rw [List.map_cons, List.foldr_cons, hbuilt]; rfl, hlen,
        congrArg (List.cons _) hms⟩
    | emptyTag tag =>
      obtain ⟨f, fs, hbuilt, hlen, hms⟩ := ih h
      exact ⟨.empty tag f, fs, by rw [List.map_cons, List.foldr_cons, hbuilt]; rfl, hlen,
        congrArg (List.cons _) hms⟩
    | openTag tag =>
      obtain ⟨f, fs, hbuilt, hlen, hms⟩ := ih h
      obtain ⟨g, fs, rfl⟩ := List.exists_cons_of_length_eq_add_one hlen
      refine ⟨.element tag f g, fs, by rw [List.map_cons, List.foldr_cons, hbuilt]; rfl,
        Nat.succ.inj hlen, ?_⟩
      rw [List.map_cons, hms, Forest.markup, List.cons_append, List.append_assoc]
      rfl
    | closeTag name =>
      cases opened with
      | nil => cases h
      | cons expected outer =>
        rw [pairTags] at h
        split at h
        · next he =>
          obtain ⟨f, fs, hbuilt, hlen, hms⟩ := ih h
          refine ⟨.nil, f :: fs, by rw [List.map_cons, List.foldr_cons, hbuilt]; rfl,
            congrArg Nat.succ hlen, ?_⟩
          rw [List.map_cons, hms, he]
          rfl
        · cases h

theorem markup_ofMarkup (h : pairTags [] ps = .ok []) :
    (Forest.ofMarkup (ps.map Prod.fst)).markup = ps.map Prod.fst := by
  obtain ⟨f, fs, hbuilt, -, hms⟩ := markup_foldr_prepend h
  rw [Forest.ofMarkup, hbuilt, hms, closings, List.zip_nil_left, List.flatMap_nil, List.append_nil]

theorem content_of_parse (h : parse t = .ok d) :
    (scan (dropByteOrderMark t)).2 = none ∧
      pairTags [] (scan (dropByteOrderMark t)).1 = .ok [] ∧
      d.content = Forest.ofMarkup ((scan (dropByteOrderMark t)).1.map Prod.fst) := by
  simp only [parse] at h
  split at h
  · cases h
  · next opened hpairs =>
    split at h
    · cases h
    · cases h
    · next hfault =>
      split at h
      · cases h
        exact ⟨hfault, hpairs, rfl⟩
      · cases h

theorem readable_of_parse (h : parse t = .ok d) : d.content.Readable := by
  obtain ⟨-, hpairs, hcontent⟩ := content_of_parse h
  rw [Forest.readable_iff, hcontent, markup_ofMarkup hpairs]
  intro m hm
  obtain ⟨p, hp, rfl⟩ := List.mem_map.1 hm
  exact readable_of_mem_scan hp

theorem parse_joined {f : Forest} (hf : f.Readable) (hj : f.Joined) (he : f.hasElement = true)
    (ht : dropByteOrderMark t = f.write) : parse t = .ok ⟨f⟩ := by
  have hscan := scan_write ((Forest.readable_iff f).1 hf) hj
  rw [← Forest.write] at hscan
  obtain ⟨hpieces, hfault⟩ := hscan
  have hpairs : pairTags [] (scan f.write).1 = .ok [] := by
    rw [← List.append_nil (scan f.write).1, pairTags_markup hpieces]
    rfl
  simp only [parse, ht, hpairs, hfault, hpieces, Forest.ofMarkup_markup, he]
  rfl

/-- A drawing as it is read when it has been written: with its texts joined and without a byte order
mark in front. -/
def reread (d : Drawing) : Drawing := ⟨d.content.joinTexts.dropMark⟩

theorem write_reread {d : Drawing} (h : d.content.Readable) :
    d.reread.write = dropByteOrderMark d.write := by
  rw [write, reread, Forest.write_dropMark h.joinTexts, Forest.write_joinTexts, write]

theorem parse_write {d : Drawing} (h : d.content.Readable) (he : d.content.hasElement = true) :
    parse d.write = .ok d.reread := by
  refine parse_joined h.joinTexts.dropMark (Forest.joined_joinTexts _).dropMark ?_
    (write_reread h).symm
  rw [Forest.hasElement_dropMark, Forest.hasElement_joinTexts, he]

end Drawing
end CutPath
