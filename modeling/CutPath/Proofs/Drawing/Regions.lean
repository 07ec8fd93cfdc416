import CutPath.Proofs.Drawing.Outline

namespace CutPath
set_option autoImplicit true

namespace RegionTag

def passes (tag : RegionTag) (content : Text) : Bool :=
  !Markup.isStructural content && !tag.marks content

end RegionTag

namespace Head

def bears (tag : RegionTag) (h : Head) : Bool :=
  h.tag?.any fun content => !Markup.isStructural content && tag.marks content

theorem bears_empty (tag : RegionTag) (content : Text) :
    (empty content).bears tag = (!Markup.isStructural content && tag.marks content) := rfl

def isShared (h : Head) : Bool := h.tag?.all Markup.isStructural

theorem isShared_of_bears {h : Head} (hb : h.bears tag = true) : h.isShared = false := by
  cases h with
  | leaf l => cases hb
  | _ =>
    simp only [bears, tag?, Option.any_some, Bool.and_eq_true, Bool.not_eq_true'] at hb
    exact hb.1

theorem isSome_tag?_of_bears {h : Head} (hb : h.bears tag = true) : h.tag?.isSome = true := by
  cases h with
  | leaf l => cases hb
  | _ => rfl

def reveal : Head → Head
  | leaf l => leaf l
  | empty tag => empty (revealTag tag)
  | element tag => element (revealTag tag)

end Head

namespace Spot

/-- Whether a node is one of the given nodes or inside one. -/
def coveredBy (s : Spot) (rs : List Spot) : Bool := rs.any fun r => r.Covers s

def leadsTo (s : Spot) (rs : List Spot) : Bool := rs.any fun r => s.Covers r

/-- Whether one of the given nodes is inside the element that a node stands in. -/
def standsBy (s : Spot) (rs : List Spot) : Bool :=
  rs.any fun r => s.address.dropLast <+: r.address.dropLast

variable {rs rs' : List Spot} {s : Spot}

theorem coveredBy_append : s.coveredBy (rs ++ rs') = (s.coveredBy rs || s.coveredBy rs') :=
  List.any_append

theorem leadsTo_append : s.leadsTo (rs ++ rs') = (s.leadsTo rs || s.leadsTo rs') := List.any_append

theorem standsBy_append : s.standsBy (rs ++ rs') = (s.standsBy rs || s.standsBy rs') :=
  List.any_append

@[simp] theorem coveredBy_under :
    (s.under n tag).coveredBy (rs.map (under n tag)) = s.coveredBy rs := by
  simp only [coveredBy, List.any_map, Function.comp_def, under_covers_under]

@[simp] theorem leadsTo_under :
    (s.under n tag).leadsTo (rs.map (under n tag)) = s.leadsTo rs := by
  simp only [leadsTo, List.any_map, Function.comp_def, under_covers_under]

theorem standsBy_place (hs : s.address ≠ []) (head : Head) :
    (s.under n content).standsBy [⟨[n], [], head⟩] = false := by
  obtain ⟨i, rest, ha⟩ := List.exists_cons_of_ne_nil hs
  simp [standsBy, under, ha]

theorem standsBy_under (hs : s.address ≠ []) (hr : ∀ r ∈ rs, r.address ≠ []) :
    (s.under n content).standsBy (rs.map (under n content)) = s.standsBy rs := by
  obtain ⟨i, rest, ha⟩ := List.exists_cons_of_ne_nil hs
  rw [standsBy, standsBy, List.any_map, Bool.eq_iff_iff, List.any_eq_true, List.any_eq_true]
  refine exists_congr fun r => and_congr_right fun hm => ?_
  obtain ⟨j, rest', hb⟩ := List.exists_cons_of_ne_nil (hr r hm)
  simp [under, ha, hb]

theorem standsBy_outermost (hs : s.address.length = 1) (hr : rs ≠ []) : s.standsBy rs = true := by
  obtain ⟨i, hi⟩ := List.length_eq_one_iff.1 hs
  obtain ⟨r, rest, rfl⟩ := List.exists_cons_of_ne_nil hr
  simp [standsBy, hi]

/-- Each of the given nodes is the `n`th node of its level or inside that one. -/
def AllAt (n : Nat) (rs : List Spot) : Prop := ∀ r ∈ rs, r.address.head? = some n

theorem allAt_nil : AllAt n [] := fun _ hr => (List.not_mem_nil hr).elim

theorem allAt_place (head : Head) : AllAt n [⟨[n], [], head⟩] := by
  intro r hr
  rw [List.mem_singleton.1 hr]
  rfl

theorem allAt_ite (b : Bool) (head : Head) : AllAt n (if b then [⟨[n], [], head⟩] else []) := by
  cases b with
  | true => exact allAt_place head
  | false => exact allAt_nil

theorem allAt_under (n : Nat) (content : Text) (rs : List Spot) :
    AllAt n (rs.map (under n content)) := by
  intro r hr
  obtain ⟨r, -, rfl⟩ := List.mem_map.1 hr
  rfl

/-- Neither inside one of the given nodes nor around one. -/
def Apart (s : Spot) (rs : List Spot) : Prop := ∀ r ∈ rs, ¬ r.Covers s ∧ ¬ s.Covers r

theorem Apart.coveredBy (h : s.Apart rs) : s.coveredBy rs = false := by
  rw [Spot.coveredBy, List.any_eq_false]
  intro r hr
  rw [decide_eq_true_eq]
  exact (h r hr).1

theorem Apart.leadsTo (h : s.Apart rs) : s.leadsTo rs = false := by
  rw [Spot.leadsTo, List.any_eq_false]
  intro r hr
  rw [decide_eq_true_eq]
  exact (h r hr).2

end Spot

namespace Forest

variable {tag : RegionTag}

/-- The tagged elements that no tagged and no structural element is around. -/
def regionsFrom (tag : RegionTag) (n : Nat) (f : Forest) : List Spot :=
  (f.outlineFrom n).filter fun s => s.around.all tag.passes && s.head.bears tag

theorem regionsFrom_cons {f next : Forest}
    (h : f.outlineFrom n = ⟨[n], [], head⟩ :: next.outlineFrom (n + 1)) :
    f.regionsFrom tag n =
      (if head.bears tag then [⟨[n], [], head⟩] else []) ++ next.regionsFrom tag (n + 1) := by
  rw [regionsFrom, h, List.filter_cons, regionsFrom]
  simp only [List.all_nil, Bool.true_and]
  split <;> rfl

theorem regionsFrom_element (n : Nat) (content : Text) (children next : Forest) :
    (element content children next).regionsFrom tag n =
      (if (Head.element content).bears tag then [⟨[n], [], .element content⟩] else []) ++
        ((if tag.passes content then (children.regionsFrom tag 0).map (Spot.under n content)
            else []) ++ next.regionsFrom tag (n + 1)) := by
  have hinner : ((children.outlineFrom 0).map (Spot.under n content)).filter
      (fun s => s.around.all tag.passes && s.head.bears tag) =
        if tag.passes content then (children.regionsFrom tag 0).map (Spot.under n content)
        else [] := by
    rw [List.filter_map, regionsFrom]
    cases hp : tag.passes content <;> simp [Function.comp_def, Spot.under, hp]
  rw [regionsFrom, outlineFrom, List.filter_cons, List.filter_append, hinner, regionsFrom]
  simp only [List.all_nil, Bool.true_and]
  split <;> rfl

theorem regionsFrom_structural (h : Markup.isStructural content = true) :
    (element content children next).regionsFrom tag n = next.regionsFrom tag (n + 1) := by
  simp [regionsFrom_element, Head.bears, Head.tag?, RegionTag.passes, h]

theorem regionsFrom_marked (h : Markup.isStructural content = false)
    (hm : tag.marks content = true) :
    (element content children next).regionsFrom tag n =
      ⟨[n], [], .element content⟩ :: next.regionsFrom tag (n + 1) := by
  simp [regionsFrom_element, Head.bears, Head.tag?, RegionTag.passes, h, hm]

theorem regionsFrom_passed (h : Markup.isStructural content = false)
    (hm : tag.marks content = false) :
    (element content children next).regionsFrom tag n =
      (children.regionsFrom tag 0).map (Spot.under n content) ++ next.regionsFrom tag (n + 1) := by
  simp [regionsFrom_element, Head.bears, Head.tag?, RegionTag.passes, h, hm]

theorem countRegions_eq (f : Forest) (n : Nat) :
    f.countRegions tag = (f.regionsFrom tag n).length := by
  induction f generalizing n with
  | nil => rfl
  | leaf l next ih =>
    rw [countRegions, regionsFrom_cons rfl, ih (n + 1)]
    rfl
  | empty content next ih =>
    rw [countRegions, regionsFrom_cons rfl, ih (n + 1), List.length_append, Head.bears_empty]
    cases !Markup.isStructural content && tag.marks content <;> rfl
  | element content children next ihc ihn =>
    rw [countRegions, ihn (n + 1), ihc 0]
    cases hs : Markup.isStructural content with
    | true =>
      rw [regionsFrom_structural hs]
      simp
    | false =>
      cases hm : tag.marks content with
      | true =>
        rw [regionsFrom_marked hs hm]
        simp [Nat.add_comm]
      | false =>
        rw [regionsFrom_passed hs hm]
        simp

theorem regionsFrom_subset (f : Forest) (n : Nat) : f.regionsFrom tag n ⊆ f.outlineFrom n :=
  (List.filter_sublist).subset

theorem apart_rest {s : Spot} {f : Forest} {rs : List Spot} (hs : s.address.head? = some n)
    (hr : rs ⊆ f.outlineFrom (n + 1)) : s.Apart rs :=
  fun _ hm => ((f.outline_outlineFrom _).not_covers hs (hr hm)).symm

theorem apart_here {s : Spot} {f : Forest} {rs : List Spot} (hs : s ∈ f.outlineFrom (n + 1))
    (hr : Spot.AllAt n rs) : s.Apart rs :=
  fun r hm => (f.outline_outlineFrom _).not_covers (hr r hm) hs

/-- Of the regions, only those at and in the first node matter there. -/
theorem coveredBy_here {s : Spot} {f : Forest} (hs : s.address.head? = some n) (rs : List Spot) :
    s.coveredBy (rs ++ f.regionsFrom tag (n + 1)) = s.coveredBy rs := by
  rw [Spot.coveredBy_append, (apart_rest hs (regionsFrom_subset f _)).coveredBy, Bool.or_false]

theorem leadsTo_here {s : Spot} {f : Forest} (hs : s.address.head? = some n) (rs : List Spot) :
    s.leadsTo (rs ++ f.regionsFrom tag (n + 1)) = s.leadsTo rs := by
  rw [Spot.leadsTo_append, (apart_rest hs (regionsFrom_subset f _)).leadsTo, Bool.or_false]

theorem place_covers_under (content : Text) (around : List Text) (head : Head) (s : Spot) :
    (⟨[n], around, head⟩ : Spot).Covers (s.under n content) :=
  (List.prefix_cons_inj n).2 List.nil_prefix

theorem coveredBy_singleton {r s : Spot} (hc : r.Covers s) : s.coveredBy [r] = true :=
  List.any_eq_true.2 ⟨r, List.mem_singleton_self r, decide_eq_true hc⟩

theorem coveredBy_inner {children : Forest} {rs : List Spot} (hr : rs ⊆ children.outlineFrom m)
    (content : Text) (around : List Text) (head : Head) :
    (⟨[n], around, head⟩ : Spot).coveredBy (rs.map (Spot.under n content)) = false := by
  rw [Spot.coveredBy, List.any_map, List.any_eq_false]
  intro r hm hc
  rw [Function.comp_apply, decide_eq_true_eq] at hc
  have hnil := List.prefix_nil.1 ((List.prefix_cons_inj n).1 hc)
  exact (children.outline_outlineFrom m).address_ne_nil (hr hm) hnil

def outOfRegions (tag : RegionTag) (n : Nat) (f : Forest) (s : Spot) : Bool :=
  !s.coveredBy (f.regionsFrom tag n)

def selectOutside (tag : RegionTag) (n : Nat) (f : Forest) : List (Nat × Head) :=
  f.select n (f.outOfRegions tag n) Spot.head

section

-- The regions at and in the first node stand before those of the nodes after it.
variable {f next : Forest} {regions : List Spot}
  (hr : f.regionsFrom tag n = regions ++ next.regionsFrom tag (n + 1))
include hr

theorem outOfRegions_here (hn : s.address.head? = some n) :
    f.outOfRegions tag n s = !s.coveredBy regions := by
  rw [outOfRegions, hr, coveredBy_here hn]

theorem select_outOfRegions_next (h : Spot.AllAt n regions) :
    next.select (n + 1) (f.outOfRegions tag n) Spot.head = next.selectOutside tag (n + 1) := by
  apply select_congr
  intro s hs
  rw [outOfRegions, hr, Spot.coveredBy_append, (apart_here hs h).coveredBy, Bool.false_or]
  exact ⟨rfl, rfl⟩

theorem selectHere_outOfRegions (head : Head) :
    selectHere (f.outOfRegions tag n) Spot.head ⟨[n], [], head⟩ =
      if Spot.coveredBy ⟨[n], [], head⟩ regions then [] else [(1, head)] := by
  rw [selectHere, outOfRegions_here hr rfl]
  cases Spot.coveredBy ⟨[n], [], head⟩ regions <;> rfl

end

theorem selectOutside_cons {f next : Forest}
    (h : f.outlineFrom n = ⟨[n], [], head⟩ :: next.outlineFrom (n + 1)) :
    f.selectOutside tag n =
      (if head.bears tag then [] else [(1, head)]) ++ next.selectOutside tag (n + 1) := by
  have hr : f.regionsFrom tag n = _ ++ next.regionsFrom tag (n + 1) := regionsFrom_cons h
  rw [selectOutside, select_cons h, selectHere_outOfRegions hr,
    select_outOfRegions_next hr (Spot.allAt_ite _ head)]
  cases head.bears tag with
  | true =>
    rw [if_pos rfl, if_pos (coveredBy_singleton (Spot.Covers.refl _))]
    rfl
  | false => rfl

theorem selectOutside_structural (h : Markup.isStructural content = true) :
    (element content children next).selectOutside tag n =
      (1, .element content) :: (children.levels.map deeper ++ next.selectOutside tag (n + 1)) := by
  have hr : (element content children next).regionsFrom tag n =
      [] ++ next.regionsFrom tag (n + 1) := regionsFrom_structural h
  rw [selectOutside, select_element (fun _ => true) Spot.head fun s _ =>
      ⟨outOfRegions_here hr rfl, rfl⟩,
    selectHere_outOfRegions hr, select_outOfRegions_next hr Spot.allAt_nil, select_all]
  rfl

theorem selectOutside_marked (h : Markup.isStructural content = false)
    (hm : tag.marks content = true) :
    (element content children next).selectOutside tag n = next.selectOutside tag (n + 1) := by
  have hr : (element content children next).regionsFrom tag n =
      [⟨[n], [], .element content⟩] ++ next.regionsFrom tag (n + 1) := regionsFrom_marked h hm
  have hin (s : Spot) : (element content children next).outOfRegions tag n (s.under n content) =
      false := by
    rw [outOfRegions_here hr rfl, coveredBy_singleton (place_covers_under content [] _ s)]
    rfl
  rw [selectOutside, select_element (fun _ => false) Spot.head fun s _ => ⟨hin s, rfl⟩,
    selectHere_outOfRegions hr, select_outOfRegions_next hr (Spot.allAt_place _), select_none,
    if_pos (coveredBy_singleton (Spot.Covers.refl _))]
  rfl

theorem selectOutside_passed (h : Markup.isStructural content = false)
    (hm : tag.marks content = false) :
    (element content children next).selectOutside tag n = (1, .element content) ::
      ((children.selectOutside tag 0).map deeper ++ next.selectOutside tag (n + 1)) := by
  have hr : (element content children next).regionsFrom tag n =
      (children.regionsFrom tag 0).map (Spot.under n content) ++ next.regionsFrom tag (n + 1) :=
    regionsFrom_passed h hm
  have hin (s : Spot) : (element content children next).outOfRegions tag n (s.under n content) =
      children.outOfRegions tag 0 s := by
    rw [outOfRegions_here hr rfl, Spot.coveredBy_under]
    rfl
  rw [selectOutside, select_element _ Spot.head fun s _ => ⟨hin s, rfl⟩,
    selectHere_outOfRegions hr, select_outOfRegions_next hr (Spot.allAt_under n content _),
    coveredBy_inner (regionsFrom_subset children 0)]
  rfl

/-- Dropping the regions leaves every node that is not in one. -/
theorem levels_dropRegions (f : Forest) (n : Nat) :
    (f.dropRegions tag).levels = f.selectOutside tag n := by
  induction f generalizing n with
  | nil => rfl
  | leaf l next ih =>
    rw [dropRegions, levels_leaf, ih (n + 1), selectOutside_cons (f := leaf l next) rfl]
    rfl
  | empty content next ih =>
    rw [dropRegions, selectOutside_cons (f := empty content next) rfl, ← ih (n + 1),
      Head.bears_empty]
    cases !Markup.isStructural content && tag.marks content with
    | true => rfl
    | false => exact levels_empty content _
  | element content children next ihc ihn =>
    rw [dropRegions]
    cases h : Markup.isStructural content with
    | true =>
      rw [selectOutside_structural h, ← ihn]
      exact levels_element content _ _
    | false =>
      cases hm : tag.marks content with
      | true =>
        rw [selectOutside_marked h hm, ← ihn]
        rfl
      | false =>
        rw [selectOutside_passed h hm, ← ihc, ← ihn]
        exact levels_element content _ _

end Forest
end CutPath
