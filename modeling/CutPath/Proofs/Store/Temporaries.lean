import Mathlib.Data.List.Basic
import CutPath.Store

namespace CutPath
set_option autoImplicit true

/-- A path cannot meet a location or what is below it: no piece of it is the name there, and the
directory in which it may start is elsewhere. -/
structure Path.Misses (p : Path) (k workingDirectory : Location) : Prop where
  ne_nil : k ≠ []
  unnamed : ∀ piece ∈ p.pieces, k.getLast? ≠ some piece
  elsewhere : ¬ k <+: workingDirectory

namespace Store

variable {s : Store} {k l m : Location} {p : Path}

theorem remove_comm (s : Store) (k l : Location) :
    (s.remove k).remove l = (s.remove l).remove k := by
  simp only [remove, List.filter_filter, Bool.and_comm]

theorem remove_put_of_prefix {k l : Location} (h : l <+: k) (s : Store) (e : Entry) :
    (s.put k e).remove l = s.remove l := by
  have hk : l.isPrefixOf k = true := List.isPrefixOf_iff_prefix.2 h
  have hother : ∀ x ∈ s.entries,
      (!l.isPrefixOf x.1 && (x.1 != k)) = !l.isPrefixOf x.1 := by
    intro x _
    cases hx : x.1 != k with
    | true => rw [Bool.and_true]
    | false =>
      rw [bne_eq_false_iff_eq] at hx
      rw [hx, hk]
      rfl
  unfold put remove
  rw [List.filter_cons, hk, List.filter_filter, List.filter_congr hother]
  rfl

theorem remove_put_outside (h : ¬ k <+: l) (s : Store) (e : Entry) :
    (s.put l e).remove k = (s.remove k).put l e := by
  have hl : k.isPrefixOf l = false := by
    rw [← Bool.not_eq_true, List.isPrefixOf_iff_prefix]
    exact h
  unfold put remove
  rw [List.filter_cons, hl, List.filter_filter, List.filter_filter]
  simp only [Bool.and_comm]
  rfl

theorem lookup_remove_outside (s : Store) (hk : k ≠ []) (h : ¬ k <+: l) :
    (s.remove k).lookup l = s.lookup l := by
  rw [lookup_remove s hk, if_neg]
  rwa [List.isPrefixOf_iff_prefix]

theorem readAt_put (s : Store) (hl : l ≠ []) (bytes : Bytes) :
    (s.put l (.file bytes)).readAt l = .ok bytes := by
  rw [readAt, lookup_put s hl, if_pos rfl]
  rfl

theorem not_prefix_next (hl : ¬ k <+: l) (hp : k.getLast? ≠ some piece) :
    ¬ k <+: l ++ [piece] := by
  intro hk
  rcases List.prefix_concat_iff.1 hk with rfl | hk
  · exact hp List.getLast?_concat
  · exact hl hk

theorem not_prefix_of_follow (hl : ¬ k <+: l)
    (hp : Path.isIdle piece = true ∨ k.getLast? ≠ some piece)
    (h : s.follow l piece = .ok m) : ¬ k <+: m := by
  unfold follow at h
  cases he : s.lookup l with
  | none => rw [he] at h; cases h
  | some e =>
    rw [he] at h
    cases e with
    | file bytes => cases h
    | directory =>
      dsimp only at h
      split_ifs at h with hidle hdots hlong hthere
      · cases h
        exact hl
      · cases h
        exact fun hk => hl (hk.trans (List.dropLast_prefix l))
      · cases h
        exact not_prefix_next hl (hp.resolve_left hidle)

theorem follow_remove (s : Store) (hk : k ≠ []) (hl : ¬ k <+: l)
    (hp : Path.isIdle piece = true ∨ k.getLast? ≠ some piece) :
    (s.remove k).follow l piece = s.follow l piece := by
  unfold follow
  rw [lookup_remove_outside s hk hl]
  by_cases hidle : Path.isIdle piece = true
  · simp only [hidle, if_true]
  · rw [lookup_remove_outside s hk (not_prefix_next hl (hp.resolve_left hidle))]

/-- The pieces of a path that misses a location are followed past it, whether it is there or
not. -/
theorem foldlM_follow_remove (s : Store) {pieces : List Text} (hk : k ≠ []) (hl : ¬ k <+: l)
    (hp : ∀ piece ∈ pieces, Path.isIdle piece = true ∨ k.getLast? ≠ some piece) :
    pieces.foldlM (s.remove k).follow l = pieces.foldlM s.follow l ∧
      ∀ m, pieces.foldlM s.follow l = .ok m → ¬ k <+: m := by
  induction pieces generalizing l with
  | nil =>
    refine ⟨rfl, fun m h => ?_⟩
    cases h
    exact hl
  | cons piece pieces ih =>
    obtain ⟨hpiece, hpieces⟩ := List.forall_mem_cons.1 hp
    rw [List.foldlM_cons, List.foldlM_cons, follow_remove s hk hl hpiece]
    cases hf : s.follow l piece with
    | error e =>
      refine ⟨rfl, fun m h => ?_⟩
      cases h
    | ok n => exact ih (not_prefix_of_follow hl hpiece hf) hpieces

theorem not_prefix_start (h : p.Misses k s.workingDirectory) : ¬ k <+: s.start p := by
  unfold start
  split
  · exact fun hk => h.ne_nil (List.prefix_nil.1 hk)
  · exact h.elsewhere

theorem locate_remove (h : p.Misses k s.workingDirectory) :
    (s.remove k).locate p = s.locate p ∧ ∀ l, s.locate p = .ok l → ¬ k <+: l := by
  obtain ⟨heq, hout⟩ := foldlM_follow_remove s h.ne_nil (not_prefix_start h)
    (fun piece hpiece => .inr (h.unnamed piece hpiece))
  unfold locate
  cases admits p with
  | error e =>
    refine ⟨rfl, fun l hl => ?_⟩
    cases hl
  | ok => exact ⟨heq, hout⟩

theorem read_remove (h : p.Misses k s.workingDirectory) : (s.remove k).read p = s.read p := by
  obtain ⟨heq, hout⟩ := locate_remove h
  unfold read
  rw [heq]
  cases hl : s.locate p with
  | error e => rfl
  | ok l =>
    show readEntry _ = readEntry _
    rw [lookup_remove_outside s h.ne_nil (hout l hl)]

theorem mem_of_mem_dropSlashes (h : piece ∈ (dropSlashes pieces).2) : piece ∈ pieces :=
  List.mem_reverse.1 (List.dropWhile_subset _ (List.mem_reverse.1 h))

theorem target_remove (h : p.Misses k s.workingDirectory) :
    (s.remove k).target p = s.target p ∧
      ∀ l, s.target p = .ok l → l ≠ [] ∧ ¬ k <+: l := by
  unfold target
  cases admits p with
  | error e =>
    refine ⟨rfl, fun l hl => ?_⟩
    cases hl
  | ok =>
    have hpieces : ∀ piece ∈ (dropSlashes p.pieces).2.dropLast ++ [[]],
        Path.isIdle piece = true ∨ k.getLast? ≠ some piece := by
      intro piece hpiece
      rcases List.mem_append.1 hpiece with hpiece | hpiece
      · exact .inr (h.unnamed piece (mem_of_mem_dropSlashes (List.dropLast_subset _ hpiece)))
      · rw [List.mem_singleton.1 hpiece]
        exact .inl rfl
    obtain ⟨heq, hout⟩ := foldlM_follow_remove s h.ne_nil (not_prefix_start h) hpieces
    have hstart : (s.remove k).start p = s.start p := rfl
    simp only [hstart, heq]
    cases hdir : ((dropSlashes p.pieces).2.dropLast ++ [[]]).foldlM s.follow (s.start p) with
    | error e =>
      refine ⟨rfl, fun l hl => ?_⟩
      cases hl
    | ok dir =>
      cases hname : (dropSlashes p.pieces).2.getLast? with
      | none =>
        refine ⟨rfl, fun l hl => ?_⟩
        cases hl
      | some name =>
        have hgoal : ¬ k <+: dir ++ [name] := not_prefix_next (hout dir hdir)
          (h.unnamed name (mem_of_mem_dropSlashes (List.mem_of_getLast? hname)))
        simp only [bind, Except.bind, lookup_remove_outside s h.ne_nil hgoal]
        refine ⟨trivial, fun l hl => ?_⟩
        split_ifs at hl
        cases hl
        exact ⟨by simp, hgoal⟩

theorem remove_of_isVacant (h : s.isVacant k = true) : s.remove k = s := by
  unfold remove
  rw [List.filter_eq_self.2 (isVacant_iff.1 h).2]

theorem lookup_of_isVacant (h : s.isVacant k = true) (hk : k ≠ []) : s.lookup k = none := by
  rw [← remove_of_isVacant h, lookup_remove s hk, if_pos (isPrefixOf_self k)]

/-- A location for a temporary entry: nothing is there, and its name is none of those to avoid. -/
structure Fresh (s : Store) (avoid : List Text) (before after : Text) (k : Location) : Prop where
  vacant : s.isVacant k = true
  named : ∃ n, k.getLast? = some (temporaryName before after n)
  unnamed : ∀ piece ∈ avoid, k.getLast? ≠ some piece

theorem Fresh.of_freshName? (h : s.freshName? dir avoid before after tries n = some name) :
    s.Fresh avoid before after (dir ++ [name]) := by
  obtain ⟨hvacant, hname, m, -, rfl⟩ := isVacant_of_freshName? h
  refine ⟨hvacant, ⟨m, List.getLast?_concat⟩, fun piece hpiece => ?_⟩
  rw [List.getLast?_concat]
  rintro ⟨⟩
  exact hname hpiece

theorem Fresh.ne_nil (h : s.Fresh avoid before after k) : k ≠ [] := by
  rintro rfl
  obtain ⟨n, hn⟩ := h.named
  cases hn

theorem Fresh.misses (h : s.Fresh avoid before after k) (hp : p.pieces ⊆ avoid) :
    p.Misses k s.workingDirectory := by
  refine ⟨h.ne_nil, fun piece hpiece => h.unnamed piece (hp hpiece), ?_⟩
  rw [← List.isPrefixOf_iff_prefix, Bool.not_eq_true]
  exact (isVacant_iff.1 h.vacant).1

theorem Fresh.move_put (h : s.Fresh avoid before after k) (e : Entry) (l : Location) :
    (s.put k e).move k l = s.put l e := by
  unfold move
  rw [lookup_put s h.ne_nil, if_pos rfl]
  show ((s.put k e).remove k).put l e = s.put l e
  rw [remove_put_of_isVacant h.vacant]

theorem Fresh.lookup_below (h : s.Fresh avoid before after k) (e : Entry) (name : Text) :
    (s.put k e).lookup (k ++ [name]) = none := by
  have hne : k ++ [name] ≠ k := by simp
  have hbelow : k.isPrefixOf (k ++ [name]) = true :=
    List.isPrefixOf_iff_prefix.2 (List.prefix_append k [name])
  rw [lookup_put s h.ne_nil, if_neg hne, ← remove_of_isVacant h.vacant, lookup_remove s h.ne_nil,
    if_pos hbelow]

theorem Fresh.read_put (h : s.Fresh avoid before after k) (hp : p.pieces ⊆ avoid) (e : Entry) :
    (s.put k e).read p = s.read p := by
  have hread := read_remove (s := s.put k e) (h.misses hp)
  rw [remove_put_of_isVacant h.vacant] at hread
  exact hread.symm

/-- Where a file is written, while something is at a fresh location, it is written without that
too. -/
theorem Fresh.target_of_remove {t : Store} (h : s.Fresh avoid before after k)
    (hp : p.pieces ⊆ avoid) (ht : t.remove k = s) (hl : t.target p = .ok l) :
    s.target p = .ok l ∧ l ≠ [] ∧ ¬ k <+: l := by
  subst ht
  obtain ⟨htarget, houtside⟩ := target_remove (s := t) (h.misses hp)
  exact ⟨htarget.trans hl, houtside l hl⟩

end Store
end CutPath
