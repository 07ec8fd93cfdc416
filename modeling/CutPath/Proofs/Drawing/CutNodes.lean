import CutPath.Proofs.Drawing.Regions

namespace CutPath.Forest
set_option autoImplicit true

variable {tag : RegionTag}

/-- Whether a node is a leaf or a structural element and stands at the top level or in an element
with a region inside. -/
def sharesLayer (tag : RegionTag) (n : Nat) (f : Forest) (s : Spot) : Bool :=
  s.head.isShared && (s.address.length == 1 || s.standsBy (f.regionsFrom tag n))

def sharedFrom (tag : RegionTag) (n : Nat) (f : Forest) : List Spot :=
  (f.outlineFrom n).filter (f.sharesLayer tag n)

theorem sharedFrom_subset (f : Forest) (n : Nat) : f.sharedFrom tag n ⊆ f.outlineFrom n :=
  (List.filter_sublist).subset

theorem standsBy_apart {s : Spot} {rs : List Spot} (hs : s.address.head? = some m)
    (hr : ∀ r ∈ rs, r.address.head? ≠ some m) (hlen : s.address.length ≠ 1) :
    s.standsBy rs = false := by
  rw [Spot.standsBy, List.any_eq_false]
  intro r hm hp
  rw [decide_eq_true_eq] at hp
  obtain ⟨i, j, rest, ha⟩ : ∃ i j rest, s.address = i :: j :: rest := by
    cases ha : s.address with
    | nil => rw [ha] at hs; cases hs
    | cons i tail =>
      cases tail with
      | nil => rw [ha] at hlen; exact (hlen rfl).elim
      | cons j rest => exact ⟨i, j, rest, rfl⟩
  rw [ha, List.dropLast_cons_cons] at hp
  obtain ⟨t, ht⟩ := hp
  have hd := List.dropLast_prefix r.address
  rw [← ht] at hd
  obtain ⟨u, hu⟩ := hd
  apply hr r hm
  rw [← hu, ← hs, ha]
  rfl

section

variable {f next : Forest} {regions : List Spot}
  (hr : f.regionsFrom tag n = regions ++ next.regionsFrom tag (n + 1))
include hr

theorem filter_sharesLayer_next (h : Spot.AllAt n regions) :
    (next.outlineFrom (n + 1)).filter (f.sharesLayer tag n) = next.sharedFrom tag (n + 1) := by
  apply List.filter_congr
  intro s hs
  obtain ⟨m, hm, hs'⟩ := (next.outline_outlineFrom _).head?_address hs
  rw [sharesLayer, sharesLayer]
  cases hlen : s.address.length == 1 with
  | true => rw [Bool.true_or, Bool.true_or]
  | false =>
    rw [hr, Spot.standsBy_append, standsBy_apart hs' _ (by simpa using hlen), Bool.false_or]
    intro r hh he
    have := Option.some.inj ((h r hh).symm.trans he)
    omega

theorem sharesLayer_under {children : Forest} (hs : s ∈ children.outlineFrom 0) (content : Text) :
    f.sharesLayer tag n (s.under n content) =
      (s.head.isShared && (s.under n content).standsBy regions) := by
  have hlen : (s.under n content).address.length ≠ 1 := by
    have := (children.outline_outlineFrom 0).length_address hs
    simp only [Spot.under, List.length_cons]
    omega
  have hnext : (s.under n content).standsBy (next.regionsFrom tag (n + 1)) = false := by
    apply standsBy_apart (m := n) rfl _ hlen
    intro r hm he
    obtain ⟨m, hm, hr⟩ := (next.outline_outlineFrom _).head?_address (regionsFrom_subset _ _ hm)
    have := Option.some.inj (hr.symm.trans he)
    omega
  rw [sharesLayer, hr, Spot.standsBy_append, hnext, Bool.or_false, beq_eq_false_iff_ne.2 hlen,
    Bool.false_or]
  rfl

end

theorem sharesLayer_here (tag : RegionTag) (f : Forest) (n : Nat) (head : Head) :
    f.sharesLayer tag n ⟨[n], [], head⟩ = head.isShared := by
  rw [sharesLayer, List.length_singleton, beq_self_eq_true, Bool.true_or, Bool.and_true]

theorem sharedFrom_cons {f next : Forest}
    (h : f.outlineFrom n = ⟨[n], [], head⟩ :: next.outlineFrom (n + 1)) :
    f.sharedFrom tag n =
      (if head.isShared then [⟨[n], [], head⟩] else []) ++ next.sharedFrom tag (n + 1) := by
  rw [sharedFrom, h, List.filter_cons,
    filter_sharesLayer_next (regionsFrom_cons h) (Spot.allAt_ite _ head), sharesLayer_here]
  split <;> rfl

theorem sharedFrom_element {regions : List Spot}
    (hr : (element content children next).regionsFrom tag n =
      regions ++ next.regionsFrom tag (n + 1)) (h : Spot.AllAt n regions) :
    (element content children next).sharedFrom tag n =
      (if Markup.isStructural content then [⟨[n], [], .element content⟩] else []) ++
        (((children.outlineFrom 0).filter fun s =>
            s.head.isShared && (s.under n content).standsBy regions).map (Spot.under n content) ++
          next.sharedFrom tag (n + 1)) := by
  have hinner : ((children.outlineFrom 0).map (Spot.under n content)).filter
      ((element content children next).sharesLayer tag n) =
        ((children.outlineFrom 0).filter fun s =>
          s.head.isShared && (s.under n content).standsBy regions).map (Spot.under n content) := by
    rw [List.filter_map]
    congr 1
    exact List.filter_congr fun s hs => sharesLayer_under hr hs content
  rw [sharedFrom, outlineFrom, List.filter_cons, List.filter_append, hinner,
    filter_sharesLayer_next hr h, sharesLayer_here]
  show (if Markup.isStructural content then _ else _) = _
  split <;> rfl

theorem sharedFrom_structural (h : Markup.isStructural content = true) :
    (element content children next).sharedFrom tag n =
      ⟨[n], [], .element content⟩ :: next.sharedFrom tag (n + 1) := by
  have hr : (element content children next).regionsFrom tag n =
      [] ++ next.regionsFrom tag (n + 1) := regionsFrom_structural h
  rw [sharedFrom_element hr Spot.allAt_nil, if_pos h]
  simp [Spot.standsBy]

theorem sharedFrom_marked (h : Markup.isStructural content = false)
    (hm : tag.marks content = true) :
    (element content children next).sharedFrom tag n = next.sharedFrom tag (n + 1) := by
  have hr : (element content children next).regionsFrom tag n =
      [⟨[n], [], .element content⟩] ++ next.regionsFrom tag (n + 1) := regionsFrom_marked h hm
  have hnone : ∀ s ∈ children.outlineFrom 0, (s.head.isShared &&
      (s.under n content).standsBy [⟨[n], [], .element content⟩]) = false := by
    intro s hs
    rw [Spot.standsBy_place ((children.outline_outlineFrom 0).address_ne_nil hs), Bool.and_false]
  rw [sharedFrom_element hr (Spot.allAt_place _), h, List.filter_congr hnone]
  simp

theorem sharesLayer_of_regions {f : Forest} (h : f.regionsFrom tag n ≠ [])
    (hs : s ∈ f.outlineFrom n) (m : Nat) (content : Text) :
    f.sharesLayer tag n s = (s.head.isShared &&
      (s.under m content).standsBy ((f.regionsFrom tag n).map (Spot.under m content))) := by
  have hne : ∀ r ∈ f.outlineFrom n, r.address ≠ [] :=
    fun _ => (f.outline_outlineFrom n).address_ne_nil
  rw [Spot.standsBy_under (hne s hs) fun r hr => hne r (regionsFrom_subset _ _ hr), sharesLayer]
  cases hlen : s.address.length == 1 with
  | false => rfl
  | true =>
    rw [Spot.standsBy_outermost (by simpa using hlen) h]
    rfl

theorem sharedFrom_passed (h : Markup.isStructural content = false)
    (hm : tag.marks content = false) :
    (element content children next).sharedFrom tag n =
      (if children.regionsFrom tag 0 = [] then []
        else (children.sharedFrom tag 0).map (Spot.under n content)) ++
          next.sharedFrom tag (n + 1) := by
  have hinner : (children.outlineFrom 0).filter (fun s => s.head.isShared &&
      (s.under n content).standsBy ((children.regionsFrom tag 0).map (Spot.under n content))) =
        if children.regionsFrom tag 0 = [] then [] else children.sharedFrom tag 0 := by
    split
    · next hnil => simp [hnil, Spot.standsBy]
    · next hsome =>
      exact List.filter_congr fun s hs => (sharesLayer_of_regions hsome hs n content).symm
  rw [sharedFrom_element (regionsFrom_passed h hm) (Spot.allAt_under n content _), hinner, h,
    if_neg Bool.false_ne_true]
  split <;> rfl

/-- Whether a node is kept next to the given regions and shared nodes. -/
def keeps (regions shared : List Spot) (s : Spot) : Bool :=
  s.coveredBy regions || s.leadsTo regions || s.coveredBy shared

/-- What a kept node shows: a region, and an element around one, is made visible. -/
def shows (regions : List Spot) (s : Spot) : Head :=
  if s.leadsTo regions then s.head.reveal else s.head

theorem keeps_under (s : Spot) (regions shared : List Spot) :
    keeps (regions.map (Spot.under n content)) (shared.map (Spot.under n content))
      (s.under n content) = keeps regions shared s := by
  rw [keeps, Spot.coveredBy_under, Spot.leadsTo_under, Spot.coveredBy_under]
  rfl

theorem shows_under (s : Spot) (regions : List Spot) :
    shows (regions.map (Spot.under n content)) (s.under n content) = shows regions s := by
  rw [shows, Spot.leadsTo_under]
  rfl

/-- Whether a node is in the cut layer. -/
def inCutLayer (tag : RegionTag) (n : Nat) (f : Forest) : Spot → Bool :=
  keeps (f.regionsFrom tag n) (f.sharedFrom tag n)

def cutHead (tag : RegionTag) (n : Nat) (f : Forest) : Spot → Head := shows (f.regionsFrom tag n)

def selectCut (tag : RegionTag) (n : Nat) (f : Forest) : List (Nat × Head) :=
  f.select n (f.inCutLayer tag n) (f.cutHead tag n)

section

-- The regions and shared nodes at and in the first node stand before those of the nodes after it.
variable {f next : Forest} {regions shared : List Spot}
  (hr : f.regionsFrom tag n = regions ++ next.regionsFrom tag (n + 1))
  (hs : f.sharedFrom tag n = shared ++ next.sharedFrom tag (n + 1))

include hr hs in
theorem inCutLayer_here (hn : s.address.head? = some n) :
    f.inCutLayer tag n s = keeps regions shared s := by
  have hshared : s.coveredBy (next.sharedFrom tag (n + 1)) = false :=
    (apart_rest hn (sharedFrom_subset next _)).coveredBy
  rw [inCutLayer, keeps, hr, hs, coveredBy_here hn, leadsTo_here hn, Spot.coveredBy_append, hshared,
    Bool.or_false]
  rfl

include hr in
theorem cutHead_here (hn : s.address.head? = some n) : f.cutHead tag n s = shows regions s := by
  rw [cutHead, shows, hr, leadsTo_here hn]
  rfl

include hr hs in
theorem select_cutLayer_next (hregions : Spot.AllAt n regions) (hshared : Spot.AllAt n shared) :
    next.select (n + 1) (f.inCutLayer tag n) (f.cutHead tag n) = next.selectCut tag (n + 1) := by
  apply select_congr
  intro s hm
  have hleads : s.leadsTo (regions ++ next.regionsFrom tag (n + 1)) =
      s.leadsTo (next.regionsFrom tag (n + 1)) := by
    rw [Spot.leadsTo_append, (apart_here hm hregions).leadsTo, Bool.false_or]
  constructor
  · rw [inCutLayer, keeps, hr, hs, Spot.coveredBy_append, Spot.coveredBy_append, hleads,
      (apart_here hm hregions).coveredBy, (apart_here hm hshared).coveredBy, Bool.false_or,
      Bool.false_or]
    rfl
  · rw [cutHead, shows, hr, hleads]
    rfl

include hr hs in
theorem selectHere_cutLayer (head : Head) :
    selectHere (f.inCutLayer tag n) (f.cutHead tag n) ⟨[n], [], head⟩ =
      selectHere (keeps regions shared) (shows regions) ⟨[n], [], head⟩ := by
  rw [selectHere, selectHere, inCutLayer_here hr hs rfl, cutHead_here hr rfl]

end

theorem keeps_none (s : Spot) : keeps [] [] s = false := rfl

theorem keeps_in_shared {r s : Spot} (hc : r.Covers s) : keeps [] [r] s = true :=
  coveredBy_singleton hc

theorem keeps_in_region {r s : Spot} (hc : r.Covers s) : keeps [r] [] s = true := by
  rw [keeps, coveredBy_singleton hc, Bool.true_or, Bool.true_or]

theorem shows_region (r : Spot) : shows [r] r = r.head.reveal := by
  simp [shows, Spot.leadsTo, Spot.Covers.refl]

theorem shows_in_region {children : Forest} (hs : s ∈ children.outlineFrom m) (content : Text)
    (head : Head) : shows [⟨[n], [], head⟩] (s.under n content) = s.head := by
  have ha := (children.outline_outlineFrom m).address_ne_nil hs
  simp [shows, Spot.leadsTo, Spot.Covers, Spot.under, ha]

theorem leadsTo_inner {rs : List Spot} (hr : rs ≠ []) (content : Text) (around : List Text)
    (head : Head) :
    (⟨[n], around, head⟩ : Spot).leadsTo (rs.map (Spot.under n content)) = true := by
  obtain ⟨r, rest, rfl⟩ := List.exists_cons_of_ne_nil hr
  simp [Spot.leadsTo, Spot.Covers, Spot.under]

theorem selectCut_cons {f next : Forest}
    (h : f.outlineFrom n = ⟨[n], [], head⟩ :: next.outlineFrom (n + 1)) :
    f.selectCut tag n =
      (if head.bears tag then [(1, head.reveal)] else if head.isShared then [(1, head)] else []) ++
        next.selectCut tag (n + 1) := by
  have hr : f.regionsFrom tag n = _ ++ next.regionsFrom tag (n + 1) := regionsFrom_cons h
  have hs : f.sharedFrom tag n = _ ++ next.sharedFrom tag (n + 1) := sharedFrom_cons h
  rw [selectCut, select_cons h, selectHere_cutLayer hr hs,
    select_cutLayer_next hr hs (Spot.allAt_ite _ head) (Spot.allAt_ite _ head)]
  congr 1
  cases hb : head.bears tag with
  | true =>
    rw [Head.isShared_of_bears hb, if_pos rfl, if_neg Bool.false_ne_true, selectHere,
      keeps_in_region (Spot.Covers.refl _), shows_region]
    rfl
  | false =>
    cases head.isShared with
    | true =>
      rw [if_neg Bool.false_ne_true, if_pos rfl, selectHere, keeps_in_shared (Spot.Covers.refl _)]
      rfl
    | false => rfl

theorem selectCut_structural (h : Markup.isStructural content = true) :
    (element content children next).selectCut tag n =
      (1, .element content) :: (children.levels.map deeper ++ next.selectCut tag (n + 1)) := by
  have hr : (element content children next).regionsFrom tag n =
      [] ++ next.regionsFrom tag (n + 1) := regionsFrom_structural h
  have hs : (element content children next).sharedFrom tag n =
      [⟨[n], [], .element content⟩] ++ next.sharedFrom tag (n + 1) := sharedFrom_structural h
  have hin (s : Spot) : (element content children next).inCutLayer tag n (s.under n content) =
      true := by
    rw [inCutLayer_here hr hs rfl, keeps_in_shared (place_covers_under content [] _ s)]
  rw [selectCut, select_element (fun _ => true) Spot.head fun s _ =>
      ⟨hin s, cutHead_here hr rfl⟩,
    selectHere_cutLayer hr hs, select_cutLayer_next hr hs Spot.allAt_nil (Spot.allAt_place _),
    select_all, selectHere, keeps_in_shared (Spot.Covers.refl _)]
  rfl

theorem selectCut_marked (h : Markup.isStructural content = false)
    (hm : tag.marks content = true) :
    (element content children next).selectCut tag n = (1, .element (revealTag content)) ::
      (children.levels.map deeper ++ next.selectCut tag (n + 1)) := by
  have hr : (element content children next).regionsFrom tag n =
      [⟨[n], [], .element content⟩] ++ next.regionsFrom tag (n + 1) := regionsFrom_marked h hm
  have hs : (element content children next).sharedFrom tag n =
      [] ++ next.sharedFrom tag (n + 1) := sharedFrom_marked h hm
  have hin (s : Spot) : (element content children next).inCutLayer tag n (s.under n content) =
      true := by
    rw [inCutLayer_here hr hs rfl, keeps_in_region (place_covers_under content [] _ s)]
  rw [selectCut, select_element (fun _ => true) Spot.head fun s hi =>
      ⟨hin s, (cutHead_here hr rfl).trans (shows_in_region hi content _)⟩,
    selectHere_cutLayer hr hs, select_cutLayer_next hr hs (Spot.allAt_place _) Spot.allAt_nil,
    select_all, selectHere, keeps_in_region (Spot.Covers.refl _), shows_region]
  rfl

/-- An element around regions is kept with what the cut layer shows inside, made visible itself;
one without regions inside is not kept. -/
theorem selectCut_passed (h : Markup.isStructural content = false)
    (hm : tag.marks content = false) :
    (element content children next).selectCut tag n =
      (if children.regionsFrom tag 0 = [] then []
        else (1, .element (revealTag content)) :: (children.selectCut tag 0).map deeper) ++
          next.selectCut tag (n + 1) := by
  have hr : (element content children next).regionsFrom tag n =
      (children.regionsFrom tag 0).map (Spot.under n content) ++ next.regionsFrom tag (n + 1) :=
    regionsFrom_passed h hm
  have hs : (element content children next).sharedFrom tag n =
      _ ++ next.sharedFrom tag (n + 1) := sharedFrom_passed h hm
  by_cases hnone : children.regionsFrom tag 0 = []
  · rw [hnone, List.map_nil] at hr
    rw [if_pos hnone] at hs
    rw [selectCut, select_element (fun _ => false) Spot.head fun s _ =>
        ⟨inCutLayer_here hr hs rfl, cutHead_here hr rfl⟩,
      selectHere_cutLayer hr hs, select_cutLayer_next hr hs Spot.allAt_nil Spot.allAt_nil,
      select_none, selectHere, keeps_none, if_pos hnone]
    rfl
  · rw [if_neg hnone] at hs
    have hself := leadsTo_inner (n := n) hnone content [] (.element content)
    rw [selectCut, select_element _ _ fun s _ => ⟨(inCutLayer_here hr hs rfl).trans
        (keeps_under s _ _), (cutHead_here hr rfl).trans (shows_under s _)⟩,
      selectHere_cutLayer hr hs, select_cutLayer_next hr hs (Spot.allAt_under n content _)
        (Spot.allAt_under n content _), selectHere, keeps, shows, hself, Bool.or_true, Bool.true_or,
      if_neg hnone]
    rfl

/-- Keeping the regions leaves the nodes of the cut layer. -/
theorem levels_keepRegions (f : Forest) (n : Nat) :
    (f.keepRegions tag).levels = f.selectCut tag n := by
  induction f generalizing n with
  | nil => rfl
  | leaf l next ih =>
    rw [keepRegions, levels_leaf, ih (n + 1), selectCut_cons (f := leaf l next) rfl]
    rfl
  | empty content next ih =>
    rw [keepRegions, selectCut_cons (f := empty content next) rfl, ← ih (n + 1), Head.bears_empty]
    show _ = (if _ then _ else if Markup.isStructural content then _ else _) ++ _
    cases Markup.isStructural content <;> cases tag.marks content <;> simp [Head.reveal]
  | element content children next ihc ihn =>
    rw [keepRegions]
    cases h : Markup.isStructural content with
    | true =>
      rw [selectCut_structural h, ← ihn]
      exact levels_element content _ _
    | false =>
      cases hm : tag.marks content with
      | true =>
        rw [selectCut_marked h hm, ← ihn]
        exact levels_element (revealTag content) _ _
      | false =>
        rw [selectCut_passed h hm, ← ihc, ← ihn, countRegions_eq children 0]
        by_cases hnone : children.regionsFrom tag 0 = []
        · simp [hnone]
        · simp [hnone, List.length_pos_iff]

end CutPath.Forest
