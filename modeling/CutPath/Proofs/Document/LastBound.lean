import Mathlib.Order.Bounds.Basic
import CutPath.Proofs.Document.Relabelled

namespace CutPath
open Text
set_option autoImplicit true

/-- Whether there is a line at an index, and it has a property. -/
def HasAt (lines : List Text) (p : Text → Bool) (i : Nat) : Prop :=
  ∃ line, lines[i]? = some line ∧ p line = true

theorem hasAt_iff {p : Text → Bool} (h : lines[i]? = some line) :
    HasAt lines p i ↔ p line = true := by
  constructor
  · rintro ⟨line', hline', hp⟩
    rwa [Option.some.inj (h.symm.trans hline')]
  · exact fun hp => ⟨line, h, hp⟩

instance (lines : List Text) (p : Text → Bool) (i : Nat) : Decidable (HasAt lines p i) :=
  decidable_of_iff (lines[i]?.any p = true) (Option.any_eq_true p _)

namespace Region

/-- The indexes before one of lines that bound a region. -/
def boundsBefore (lines : List Text) (i : Nat) : Set Nat :=
  {j | j < i ∧ HasAt lines Marker.bounds j}

/-- The indexes up to one of lines that bound a region. -/
def boundsUpTo (lines : List Text) (i : Nat) : Set Nat := {j | j ≤ i ∧ HasAt lines Marker.bounds j}

theorem isGreatest_boundsBefore_succ (h : HasAt lines Marker.bounds i) :
    IsGreatest (boundsBefore lines (i + 1)) i :=
  ⟨⟨Nat.lt_succ_self i, h⟩, fun _ hj => Nat.le_of_lt_succ hj.1⟩

theorem boundsUpTo_eq (h : ¬ HasAt lines Marker.bounds i) :
    boundsUpTo lines i = boundsBefore lines i := by
  ext j
  constructor
  · rintro ⟨hj, hb⟩
    refine ⟨Nat.lt_of_le_of_ne hj ?_, hb⟩
    rintro rfl
    exact h hb
  · exact fun ⟨hj, hb⟩ => ⟨Nat.le_of_lt hj, hb⟩

theorem boundsBefore_succ (h : ¬ HasAt lines Marker.bounds i) :
    boundsBefore lines (i + 1) = boundsBefore lines i := by
  rw [← boundsUpTo_eq h]
  ext j
  exact and_congr_left fun _ => Nat.lt_succ_iff

theorem read_snd_eq_page_iff (h : Marker.bounds line = true) (r : Region) :
    (r.read line).2 = .page ↔ Marker.isPageStart line = true := by
  simp only [Marker.bounds, Bool.or_eq_true] at h
  by_cases hs : Marker.isPageStart line = true
  · simp [read, hs]
  · have he := h.resolve_left hs
    simp [read, hs, he]

/-- A reader stands in a page exactly when the last line so far that bounds a region starts one. -/
theorem after_take_eq_page_iff (lines : List Text) (i : Nat) :
    outside.after (lines.take i) = .page ↔
      ∃ j, IsGreatest (boundsBefore lines i) j ∧ HasAt lines Marker.isPageStart j := by
  induction i with
  | zero =>
    constructor
    · intro h
      cases h
    · rintro ⟨j, hj, -⟩
      exact (Nat.not_lt_zero j hj.1.1).elim
  | succ i ih =>
    rw [List.take_add_one, after_append]
    cases hi : lines[i]? with
    | none =>
      have hb : ¬ HasAt lines Marker.bounds i := by
        rintro ⟨line, hline, -⟩
        cases hi.symm.trans hline
      rw [boundsBefore_succ hb]
      exact ih
    | some line =>
      by_cases hb : Marker.bounds line = true
      · have hlast := isGreatest_boundsBefore_succ ((hasAt_iff hi).2 hb)
        rw [Option.toList_some, after_cons, after_nil, read_snd_eq_page_iff hb]
        constructor
        · exact fun hs => ⟨i, hlast, (hasAt_iff hi).2 hs⟩
        · rintro ⟨j, hj, hs⟩
          rw [hj.unique hlast] at hs
          exact (hasAt_iff hi).1 hs
      · have hsame := fun h => hb ((hasAt_iff hi).1 h)
        rw [boundsBefore_succ hsame, ← ih]
        rw [Option.toList_some, after_eq_of_bounds_eq_false _ (by simpa using hb)]

theorem after_take_of_start (hb : ¬ HasAt lines Marker.bounds i)
    (hj : IsGreatest (boundsUpTo lines i) j) (hs : HasAt lines Marker.isPageStart j) :
    outside.after (lines.take i) = .page := by
  rw [boundsUpTo_eq hb] at hj
  exact (after_take_eq_page_iff lines i).2 ⟨j, hj, hs⟩

theorem after_take_of_no_start (hb : ¬ HasAt lines Marker.bounds i)
    (h : ∀ j, IsGreatest (boundsUpTo lines i) j → ¬ HasAt lines Marker.isPageStart j) :
    outside.after (lines.take i) = .outside := by
  cases hr : outside.after (lines.take i) with
  | outside => rfl
  | page =>
    obtain ⟨j, hj, hs⟩ := (after_take_eq_page_iff lines i).1 hr
    rw [← boundsUpTo_eq hb] at hj
    exact (h j hj hs).elim

def classify (line : Text) : StateM Region Label := fun r => r.read line

def feed (chunk : List Text) : StateM Region (List Label) := chunk.mapM classify

theorem run_feed (r : Region) (chunk : List Text) :
    (feed chunk).run r = (r.labels chunk, r.after chunk) := by
  induction chunk generalizing r with
  | nil => rfl
  | cons line chunk ih =>
    have hstep : (feed (line :: chunk)).run r =
        ((r.read line).1 :: ((feed chunk).run (r.read line).2).1,
          ((feed chunk).run (r.read line).2).2) := by
      rw [feed, List.mapM_cons]
      rfl
    rw [hstep, ih]
    rfl

/-- One reader that is fed chunk after chunk gives each line the label that it has in the whole. -/
theorem flatten_run_feed (r : Region) (chunks : List (List Text)) :
    ((chunks.mapM feed).run r).1.flatten = r.labels chunks.flatten := by
  induction chunks generalizing r with
  | nil => rfl
  | cons chunk chunks ih =>
    have hstep : ((chunk :: chunks).mapM feed).run r =
        (((feed chunk).run r).1 :: ((chunks.mapM feed).run ((feed chunk).run r).2).1,
          ((chunks.mapM feed).run ((feed chunk).run r).2).2) := by
      rw [List.mapM_cons]
      rfl
    rw [hstep, run_feed, List.flatten_cons, ih, List.flatten_cons, labels_append]

end Region

namespace Document

/-- A document's labels without a reader. A line that starts a page has the label of that even if it
ends one too; other lines are told by the last line so far that bounds a page region. Reading the
lines in chunks makes no difference, wherever they are cut. -/
theorem labels_lastBound (d : Document) :
    d.labels.length = d.lines.length ∧
    (∀ i line, d.lines[i]? = some line →
      (Marker.isPageStart line = true → d.labels[i]? = some .pageStart) ∧
      (Marker.isPageStart line = false → Marker.isPageEnd line = true →
        d.labels[i]? = some .pageEnd) ∧
      (Marker.isPageStart line = false → Marker.isPageEnd line = false →
        ((∀ j, IsGreatest (Region.boundsUpTo d.lines i) j →
            ¬ HasAt d.lines Marker.isPageStart j) → d.labels[i]? = some .outsidePage) ∧
        (∀ j, IsGreatest (Region.boundsUpTo d.lines i) j →
          HasAt d.lines Marker.isPageStart j →
          d.labels[i]? = some (Instruction.label line)))) ∧
    ∀ chunks : List (List Text), chunks.flatten = d.lines →
      ((chunks.mapM Region.feed).run .outside).1.flatten = d.labels := by
  refine ⟨Region.length_labels .outside d.lines, fun i line hline => ?_, fun chunks hchunks => ?_⟩
  · have hread : d.labels[i]? =
        some ((Region.outside.after (d.lines.take i)).read line).1 := by
      rw [labels, Region.getElem?_labels, hline, Option.map_some]
    rw [hread]
    refine ⟨fun hs => by simp [Region.read, hs], fun hs he => by simp [Region.read, hs, he], ?_⟩
    intro hs he
    have hb : Marker.bounds line = false := by rw [Marker.bounds, hs, he, Bool.false_or]
    have hnot : ¬ HasAt d.lines Marker.bounds i := by
      rw [hasAt_iff hline, hb]
      exact Bool.false_ne_true
    constructor
    · intro hnone
      rw [Region.after_take_of_no_start hnot hnone, Region.read_outside hb]
    · intro j hj hstart
      rw [Region.after_take_of_start hnot hj hstart, Region.read_page hb]
  · rw [Region.flatten_run_feed, hchunks, labels]

def twoPages : Document :=
  ⟨["S", "%%Page: 1 1 %%EOF", "1 w", "%%Trailer", "S", "%%BeginPageSetup", "0 g", "S"]⟩

theorem labels_lastBound_twoPages :
    twoPages.lines[7]? = some "S".toList ∧
    Marker.isPageStart "S" = false ∧ Marker.isPageEnd "S" = false ∧
    IsGreatest (Region.boundsUpTo twoPages.lines 7) 5 ∧
    HasAt twoPages.lines Marker.isPageStart 5 ∧
    twoPages.labels[7]? = some (Instruction.label "S") ∧
    [twoPages.lines.take 6, [], twoPages.lines.drop 6].flatten = twoPages.lines ∧
    (([twoPages.lines.take 6, [], twoPages.lines.drop 6].mapM Region.feed).run
      .outside).1.flatten = twoPages.labels := by
  obtain ⟨-, hlabel, hchunks⟩ := twoPages.labels_lastBound
  have hline : twoPages.lines[7]? = some "S".toList := rfl
  have hstart : Marker.isPageStart "S" = false := by decide
  have hend : Marker.isPageEnd "S" = false := by decide
  have hlast : IsGreatest (Region.boundsUpTo twoPages.lines 7) 5 := by
    have hbound : ∀ k ≤ 7, HasAt twoPages.lines Marker.bounds k → k ≤ 5 := by decide +kernel
    exact ⟨⟨by decide, by decide +kernel⟩, fun k hk => hbound k hk.1 hk.2⟩
  have hstarts : HasAt twoPages.lines Marker.isPageStart 5 := by decide +kernel
  have hflatten : [twoPages.lines.take 6, [], twoPages.lines.drop 6].flatten = twoPages.lines := rfl
  exact ⟨hline, hstart, hend, hlast, hstarts,
    ((hlabel 7 _ hline).2.2 hstart hend).2 5 hlast hstarts, hflatten, hchunks _ hflatten⟩

end Document
end CutPath
