import CutPath.Drawing.Layers

namespace CutPath
set_option autoImplicit true

/-- What a node shows without the nodes inside it. -/
inductive Head where
  | leaf (l : Leaf)
  | empty (tag : Text)
  | element (tag : Text)
  deriving DecidableEq, Repr

def Head.tag? : Head → Option Text
  | leaf _ => none
  | empty tag | element tag => some tag

/-- A node at its place in a forest. -/
structure Spot where
  /-- How many nodes of its level stand before it, after the same of each element around it. -/
  address : List Nat
  /-- The tags of the elements around it, from the outside in. -/
  around : List Text
  head : Head
  deriving DecidableEq, Repr

namespace Spot

/-- A node as it stands when its forest is inside an element, the `n`th node of its own level. -/
def under (n : Nat) (tag : Text) (s : Spot) : Spot := ⟨n :: s.address, tag :: s.around, s.head⟩

/-- Whether a node is another one or an element around it. -/
def Covers (r s : Spot) : Prop := r.address <+: s.address

instance (r s : Spot) : Decidable (r.Covers s) := inferInstanceAs (Decidable (_ <+: _))

def level (s : Spot) : Nat × Head := (s.address.length, s.head)

theorem Covers.refl (s : Spot) : s.Covers s := List.prefix_refl s.address

theorem Covers.trans {q r s : Spot} (h : q.Covers r) (h' : r.Covers s) : q.Covers s :=
  List.IsPrefix.trans h h'

theorem Covers.head?_eq {r s : Spot} (h : r.Covers s) (hr : r.address.head? = some n) :
    s.address.head? = some n := by
  obtain ⟨rest, hs⟩ := h
  rw [← hs, List.head?_append, hr]
  rfl

@[simp] theorem under_covers_under {r s : Spot} :
    (r.under n tag).Covers (s.under n tag) ↔ r.Covers s :=
  List.prefix_cons_inj n

end Spot

/-- The nodes of some forest with `n` nodes of its level before it: those inside a node follow it,
and only elements have nodes inside. -/
inductive Outline : Nat → List Spot → Prop
  | nil : Outline n []
  | node {n : Nat} {head : Head} {tag : Text} {inner next : List Spot}
    (h : inner ≠ [] → head = .element tag) (hi : Outline 0 inner) (hn : Outline (n + 1) next) :
    Outline n (⟨[n], [], head⟩ :: (inner.map (Spot.under n tag) ++ next))

namespace Outline

theorem cons (h : Outline (n + 1) next) : Outline n (⟨[n], [], head⟩ :: next) :=
  @node n head [] [] next (fun h => (h rfl).elim) nil h

theorem head?_address (h : Outline n spots) (hs : s ∈ spots) :
    ∃ m, n ≤ m ∧ s.address.head? = some m := by
  induction h generalizing s with
  | nil => cases hs
  | @node n _ _ _ _ _ _ _ _ ih =>
    rcases List.mem_cons.1 hs with rfl | hs
    · exact ⟨n, Nat.le_refl n, rfl⟩
    rcases List.mem_append.1 hs with hs | hs
    · obtain ⟨s, -, rfl⟩ := List.mem_map.1 hs
      exact ⟨n, Nat.le_refl n, rfl⟩
    · obtain ⟨m, hm, hs⟩ := ih hs
      exact ⟨m, Nat.le_of_succ_le hm, hs⟩

theorem not_covers (h : Outline (n + 1) spots) (hr : r.address.head? = some n) (hs : s ∈ spots) :
    ¬ r.Covers s ∧ ¬ s.Covers r := by
  obtain ⟨m, hm, hs⟩ := h.head?_address hs
  constructor
  · intro hc
    have he := hs.symm.trans (hc.head?_eq hr)
    cases he
    exact Nat.lt_irrefl n hm
  · intro hc
    have he := hr.symm.trans (hc.head?_eq hs)
    cases he
    exact Nat.lt_irrefl n hm

theorem length_address (h : Outline n spots) (hs : s ∈ spots) :
    s.address.length = s.around.length + 1 := by
  induction h generalizing s with
  | nil => cases hs
  | node _ _ _ ihi ihn =>
    rcases List.mem_cons.1 hs with rfl | hs
    · rfl
    rcases List.mem_append.1 hs with hs | hs
    · obtain ⟨t, ht, rfl⟩ := List.mem_map.1 hs
      exact congrArg (· + 1) (ihi ht)
    · exact ihn hs

theorem address_ne_nil (h : Outline n spots) (hs : s ∈ spots) : s.address ≠ [] := by
  intro ha
  have := h.length_address hs
  simp [ha] at this

theorem covers_cases (h : Outline n spots) (hr : r ∈ spots) (hs : s ∈ spots) (hc : r.Covers s) :
    r = s ∨ ∃ tag, r.head = .element tag ∧ r.around ++ [tag] <+: s.around := by
  induction h generalizing r s with
  | nil => cases hr
  | @node n head tag inner next hhead hi hn ihi ihn =>
    -- What is inside the first node is at or below its place, all else is not.
    have hapart : ∀ p : Spot, p.address.head? = some n → ∀ t ∈ next, ¬ p.Covers t ∧ ¬ t.Covers p :=
      fun p hp t ht => hn.not_covers hp ht
    rcases List.mem_cons.1 hr with rfl | hr
    · rcases List.mem_cons.1 hs with rfl | hs
      · exact .inl rfl
      rcases List.mem_append.1 hs with hs | hs
      · obtain ⟨t, ht, rfl⟩ := List.mem_map.1 hs
        exact .inr ⟨tag, hhead (List.ne_nil_of_mem ht), t.around, rfl⟩
      · exact ((hapart _ rfl s hs).1 hc).elim
    rcases List.mem_append.1 hr with hr | hr
    · obtain ⟨q, hq, rfl⟩ := List.mem_map.1 hr
      rcases List.mem_cons.1 hs with rfl | hs
      · have hlen := hc.length_le
        have := hi.length_address hq
        simp only [Spot.under, List.length_cons, List.length_nil] at hlen
        omega
      rcases List.mem_append.1 hs with hs | hs
      · obtain ⟨t, ht, rfl⟩ := List.mem_map.1 hs
        rcases ihi hq ht (Spot.under_covers_under.1 hc) with rfl | ⟨inside, he, ha⟩
        · exact .inl rfl
        · exact .inr ⟨inside, he, (List.prefix_cons_inj tag).2 ha⟩
      · exact ((hapart _ rfl s hs).1 hc).elim
    · rcases List.mem_cons.1 hs with rfl | hs
      · exact ((hapart _ rfl r hr).2 hc).elim
      rcases List.mem_append.1 hs with hs | hs
      · obtain ⟨t, -, rfl⟩ := List.mem_map.1 hs
        exact ((hapart _ rfl r hr).2 hc).elim
      · exact ihn hr hs hc

theorem covers_antisymm (h : Outline n spots) (hr : r ∈ spots) (hs : s ∈ spots) (hc : r.Covers s)
    (hc' : s.Covers r) : r = s := by
  rcases h.covers_cases hr hs hc with he | ⟨tag, -, hp⟩
  · exact he
  · have hlen := hp.length_le
    have hlen' := hc'.length_le
    rw [h.length_address hr, h.length_address hs] at hlen'
    simp only [List.length_append, List.length_cons, List.length_nil] at hlen
    omega

end Outline

namespace Forest

/-- The nodes of a forest in document order; `n` nodes of its level stand before it. -/
def outlineFrom (n : Nat) : Forest → List Spot
  | nil => []
  | leaf l next => ⟨[n], [], .leaf l⟩ :: next.outlineFrom (n + 1)
  | empty tag next => ⟨[n], [], .empty tag⟩ :: next.outlineFrom (n + 1)
  | element tag children next =>
    ⟨[n], [], .element tag⟩ ::
      ((children.outlineFrom 0).map (Spot.under n tag) ++ next.outlineFrom (n + 1))

theorem outline_outlineFrom (f : Forest) (n : Nat) : Outline n (f.outlineFrom n) := by
  induction f generalizing n with
  | nil => exact .nil
  | leaf l next ih => exact .cons (ih _)
  | empty tag next ih => exact .cons (ih _)
  | element tag children next ihc ihn => exact .node (fun _ => rfl) (ihc 0) (ihn _)

/-- The depths and the heads of the nodes in document order. -/
def levels (f : Forest) : List (Nat × Head) := (f.outlineFrom 0).map Spot.level

def deeper (p : Nat × Head) : Nat × Head := (p.1 + 1, p.2)

theorem map_level_under (n : Nat) (tag : Text) (spots : List Spot) :
    (spots.map (Spot.under n tag)).map Spot.level = (spots.map Spot.level).map deeper := by
  rw [List.map_map, List.map_map]
  rfl

theorem map_level_outlineFrom (f : Forest) (n : Nat) :
    (f.outlineFrom n).map Spot.level = f.levels := by
  have h : ∀ m, (f.outlineFrom n).map Spot.level = (f.outlineFrom m).map Spot.level := by
    induction f generalizing n with
    | nil => exact fun _ => rfl
    | leaf l next ih => exact fun m => congrArg (_ :: ·) (ih _ _)
    | empty tag next ih => exact fun m => congrArg (_ :: ·) (ih _ _)
    | element tag children next _ ih =>
      intro m
      simp only [outlineFrom, List.map_cons, List.map_append, map_level_under, ih (n + 1) (m + 1)]
      rfl
  exact h 0

@[simp] theorem levels_nil : nil.levels = [] := rfl

@[simp] theorem levels_leaf (l : Leaf) (next : Forest) :
    (leaf l next).levels = (1, .leaf l) :: next.levels :=
  congrArg (_ :: ·) (map_level_outlineFrom next 1)

@[simp] theorem levels_empty (tag : Text) (next : Forest) :
    (empty tag next).levels = (1, .empty tag) :: next.levels :=
  congrArg (_ :: ·) (map_level_outlineFrom next 1)

@[simp] theorem levels_element (tag : Text) (children next : Forest) :
    (element tag children next).levels =
      (1, .element tag) :: (children.levels.map deeper ++ next.levels) := by
  rw [levels, outlineFrom, List.map_cons, List.map_append, map_level_under, map_level_outlineFrom,
    map_level_outlineFrom]
  rfl

theorem deeper_inj {p q : Nat × Head} (h : deeper p = deeper q) : p = q := by
  obtain ⟨m, a⟩ := p
  obtain ⟨n, b⟩ := q
  simpa [deeper] using h

theorem takeWhile_append_levels (f g : Forest) :
    (f.levels.map deeper ++ g.levels).takeWhile (1 < ·.1) = f.levels.map deeper := by
  have hinner : ∀ p ∈ f.levels.map deeper, decide (1 < p.1) = true := by
    intro p hp
    obtain ⟨q, hq, rfl⟩ := List.mem_map.1 hp
    obtain ⟨s, hs, rfl⟩ := List.mem_map.1 hq
    have hlen := (f.outline_outlineFrom 0).length_address hs
    simp only [deeper, Spot.level, hlen, decide_eq_true_eq]
    omega
  have hnext : g.levels.takeWhile (1 < ·.1) = [] := by cases g <;> simp
  rw [List.takeWhile_append_of_pos hinner, hnext, List.append_nil]

def select (n : Nat) (keep : Spot → Bool) (shown : Spot → Head) (f : Forest) : List (Nat × Head) :=
  ((f.outlineFrom n).filter keep).map fun s => (s.address.length, shown s)

theorem select_congr {f : Forest} {keep keep' : Spot → Bool} {shown shown' : Spot → Head}
    (h : ∀ s ∈ f.outlineFrom n, keep s = keep' s ∧ shown s = shown' s) :
    f.select n keep shown = f.select n keep' shown' := by
  rw [select, select, List.filter_congr fun s hs => (h s hs).1]
  apply List.map_congr_left
  intro s hs
  rw [(h s (List.mem_filter.1 hs).1).2]

theorem select_all (f : Forest) (n : Nat) : f.select n (fun _ => true) Spot.head = f.levels := by
  rw [select, List.filter_eq_self.2 fun _ _ => rfl]
  exact map_level_outlineFrom f n

theorem select_none (f : Forest) (n : Nat) (shown : Spot → Head) :
    f.select n (fun _ => false) shown = [] := by
  rw [select, List.filter_eq_nil_iff.2 fun _ _ => Bool.false_ne_true]
  rfl

def selectHere (keep : Spot → Bool) (shown : Spot → Head) (s : Spot) : List (Nat × Head) :=
  if keep s then [(s.address.length, shown s)] else []

theorem select_cons {f next : Forest} (h : f.outlineFrom n = s :: next.outlineFrom (n + 1))
    (keep : Spot → Bool) (shown : Spot → Head) :
    f.select n keep shown = selectHere keep shown s ++ next.select (n + 1) keep shown := by
  rw [select, h, List.filter_cons, selectHere]
  split <;> rfl

theorem select_under {f : Forest} {keep : Spot → Bool} {shown : Spot → Head}
    (inner : Spot → Bool) (shownInner : Spot → Head)
    (h : ∀ s ∈ f.outlineFrom n,
      keep (s.under m tag) = inner s ∧ shown (s.under m tag) = shownInner s) :
    (((f.outlineFrom n).map (Spot.under m tag)).filter keep).map
      (fun s => (s.address.length, shown s)) = (f.select n inner shownInner).map deeper := by
  rw [List.filter_map, List.map_map, ← select_congr h, select, List.map_map]
  rfl

theorem select_element {keep : Spot → Bool} {shown : Spot → Head} {children next : Forest}
    (inner : Spot → Bool) (shownInner : Spot → Head)
    (h : ∀ s ∈ children.outlineFrom 0,
      keep (s.under n tag) = inner s ∧ shown (s.under n tag) = shownInner s) :
    (element tag children next).select n keep shown =
      selectHere keep shown ⟨[n], [], .element tag⟩ ++
        ((children.select 0 inner shownInner).map deeper ++ next.select (n + 1) keep shown) := by
  rw [select, outlineFrom, List.filter_cons, List.filter_append, ← select_under inner shownInner h,
    selectHere]
  split <;> simp only [List.map_cons, List.map_append, List.nil_append, List.cons_append] <;> rfl

/-- A forest is determined by the depths and the heads of its nodes in document order. -/
theorem levels_injective {f g : Forest} (h : f.levels = g.levels) : f = g := by
  induction f generalizing g with
  | nil =>
    cases g with
    | nil => rfl
    | _ => simp at h
  | leaf l next ih =>
    cases g with
    | leaf l' next' =>
      simp only [levels_leaf, List.cons.injEq, Prod.mk.injEq, Head.leaf.injEq, true_and] at h
      rw [h.1, ih h.2]
    | _ => simp at h
  | empty tag next ih =>
    cases g with
    | empty tag' next' =>
      simp only [levels_empty, List.cons.injEq, Prod.mk.injEq, Head.empty.injEq, true_and] at h
      rw [h.1, ih h.2]
    | _ => simp at h
  | element tag children next ihc ihn =>
    cases g with
    | element tag' children' next' =>
      simp only [levels_element, List.cons.injEq, Prod.mk.injEq, Head.element.injEq, true_and] at h
      obtain ⟨rfl, h⟩ := h
      -- The nodes inside the first element are those up to the next one of its own depth.
      have hcut := congrArg (List.takeWhile (1 < ·.1)) h
      rw [takeWhile_append_levels, takeWhile_append_levels] at hcut
      rw [hcut, List.append_cancel_left_eq] at h
      rw [ihc ((List.map_inj_right fun _ _ => deeper_inj).1 hcut), ihn h]
    | _ => simp at h

theorem levels_inj {f g : Forest} : f.levels = g.levels ↔ f = g :=
  ⟨levels_injective, congrArg levels⟩

end Forest
end CutPath
