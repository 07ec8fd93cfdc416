import CutPath.Proofs.Document.Stacking

namespace CutPath
open Text
set_option autoImplicit true

namespace Page

/-- A line that may go at the end of a page body. -/
def isClosing (line : Text) : Bool := isBlankText line || isRestoreOnly line

/-- The clip line of a page body with the lines after it; without one, these are all lines. -/
inductive AfterClip (body : List Text) : (clip : Option Text) → (artwork : List Text) → Prop
  | unclipped (h : ∀ first ∈ body.find? fun l => !isBlankText l, isClip first = false) :
    AfterClip body none body
  | clipped (hbody : body = blanks ++ clip :: artwork)
    (hblanks : ∀ l ∈ blanks, isBlankText l = true) (hclip : isClip clip = true) :
    AfterClip body (some clip) artwork

theorem afterClip_of_splitClip (h : splitClip body = (clip, artwork)) :
    AfterClip body clip artwork := by
  rcases clip_cases body with hnone | ⟨blanks, line, rest, hbody, hblanks, hclip⟩
  · rw [splitClip_eq_none hnone] at h
    cases h
    exact .unclipped hnone
  · rw [splitClip_eq_some hbody hblanks hclip] at h
    cases h
    exact .clipped hbody hblanks hclip

theorem count_words_of_isClosing (h : isClosing line = true) :
    (words line).count restoreToken = (words line).length := by
  rw [isClosing, Bool.or_eq_true] at h
  rcases h with hblank | honly
  · rw [words_eq_nil_iff.2 hblank]
    rfl
  · rw [List.count_eq_length]
    exact fun w hw => (words_of_isRestoreOnly honly w hw).symm

theorem stripRestores_closing (need : Nat) (lines : List Text) (h : isClosing line = true) :
    stripRestores (need + 1) (line :: lines) =
      if (words line).length ≤ need + 1 then
        ((stripRestores (need + 1 - (words line).length) lines).1,
          (words line).length + (stripRestores (need + 1 - (words line).length) lines).2)
      else
        ((restores ((words line).length - (need + 1)) ++ lineEnding line) :: lines, need + 1) := by
  rw [stripRestores]
  by_cases hblank : isBlankText line = true
  · rw [if_pos hblank, words_eq_nil_iff.2 hblank, List.length_nil, if_pos (Nat.zero_le _),
      Nat.sub_zero, Nat.zero_add]
  · rw [isClosing, Bool.or_eq_true] at h
    rw [if_neg hblank, if_pos (h.resolve_left hblank)]

theorem stripRestores_of_not_closing (need : Nat)
    (h : ∀ line ∈ lines.head?, isClosing line = false) : stripRestores need lines = (lines, 0) := by
  cases need with
  | zero => rw [stripRestores]
  | succ need =>
    cases lines with
    | nil => rw [stripRestores]
    | cons line lines =>
      have hl := h line rfl
      rw [isClosing, Bool.or_eq_false_iff] at hl
      rw [stripRestores, hl.1, hl.2]
      rfl

/-- Backwards from the end of a body, stripping takes as many restores as it needs of those that
stand before the first line which may not go, and that line stays with all that follow it. -/
theorem stripRestores_append (need : Nat) (hending : ∀ line ∈ ending, isClosing line = true)
    (hbefore : ∀ line ∈ before.head?, isClosing line = false) :
    ∃ left, stripRestores need (ending ++ before) =
      (left ++ before, min need ((stream ending).count restoreToken)) := by
  induction ending generalizing need with
  | nil =>
    refine ⟨[], ?_⟩
    rw [List.nil_append, stripRestores_of_not_closing need hbefore]
    simp
  | cons line ending ih =>
    have hline := hending line List.mem_cons_self
    cases need with
    -- Nothing more is needed, so even a blank line stays.
    | zero => exact ⟨line :: ending, by simp [stripRestores]⟩
    | succ need =>
      rw [stream_cons, List.count_append, count_words_of_isClosing hline, List.cons_append,
        stripRestores_closing need _ hline]
      split
      · obtain ⟨left, hleft⟩ := ih (need + 1 - (words line).length) fun l hl =>
          hending l (List.mem_cons_of_mem line hl)
        refine ⟨left, ?_⟩
        rw [hleft, Prod.mk.injEq]
        exact ⟨rfl, by omega⟩
      · refine ⟨(restores ((words line).length - (need + 1)) ++ lineEnding line) :: ending, ?_⟩
        rw [List.cons_append, Prod.mk.injEq]
        exact ⟨rfl, by omega⟩

theorem stream_stripRestores (need : Nat) (lines : List Text) :
    stream lines.reverse = stream (stripRestores need lines).1.reverse ++
      List.replicate (stripRestores need lines).2 restoreToken := by
  obtain ⟨kept, ending, left, hlines, hrest, hs, -⟩ := stripRestores_spec need lines
  rw [hlines, hrest, stream_append, stream_append, hs.stream_eq, List.append_assoc]

theorem exists_closing (lines : List Text) :
    ∃ before ending, lines = before ++ ending ∧ (∀ line ∈ ending, isClosing line = true) ∧
      ∀ line ∈ before.getLast?, isClosing line = false := by
  refine ⟨(lines.reverse.dropWhile isClosing).reverse, (lines.reverse.takeWhile isClosing).reverse,
    ?_, ?_, ?_⟩
  · rw [← List.reverse_append, List.takeWhile_append_dropWhile, List.reverse_reverse]
  · intro line hl
    exact List.all_eq_true.1 List.all_takeWhile line (List.mem_reverse.1 hl)
  · intro line hl
    have hhead := List.head?_dropWhile_not isClosing lines.reverse
    rw [List.getLast?_reverse, Option.mem_def] at hl
    rw [hl] at hhead
    simpa using hhead

theorem strip_artwork (hstrip : stripRestores need (before ++ ending).reverse =
      (fragment.reverse, closed)) (hending : ∀ line ∈ ending, isClosing line = true)
    (hbefore : ∀ line ∈ before.getLast?, isClosing line = false) :
    closed = min need ((stream ending).count restoreToken) ∧
      stream (before ++ ending) = stream fragment ++ List.replicate closed restoreToken ∧
      before <+: fragment := by
  have hstream := stream_stripRestores need (before ++ ending).reverse
  rw [hstrip, List.reverse_reverse, List.reverse_reverse] at hstream
  have hcount : (stream ending.reverse).count restoreToken = (stream ending).count restoreToken :=
    ((List.reverse_perm ending).flatMap_right words).count_eq restoreToken
  have hback : ∀ line ∈ ending.reverse, isClosing line = true :=
    fun line hl => hending line (List.mem_reverse.1 hl)
  have hstop : ∀ line ∈ before.reverse.head?, isClosing line = false := by
    rwa [List.head?_reverse]
  obtain ⟨left, htaken⟩ := stripRestores_append need hback hstop
  rw [← List.reverse_append, hstrip, hcount] at htaken
  obtain ⟨hfragment, hclosed⟩ := Prod.mk.inj htaken
  refine ⟨hclosed, hstream, ?_⟩
  rw [← List.reverse_suffix, hfragment]
  exact List.suffix_append left before.reverse

end Page

namespace PageParts

theorem cutFrom_of_ofLines (h : ofLines layer lines = .ok p) :
    ∃ head body tail, p.Describes ⟨lines⟩ head body tail ∧ p.CutFrom ⟨lines⟩ head body tail := by
  obtain ⟨head, body, tail, hp⟩ := describes_of_ofLines h
  obtain ⟨p', hp', hcut⟩ := exists_cutFrom (exists_box_of_ofLines h) hp.page layer
  obtain rfl := Except.ok.inj (h.symm.trans hp')
  exact ⟨head, body, tail, hp, hcut⟩

theorem warnings_of_closed_eq {p : PageParts} (h : p.closed = min p.depth found) (layer : Layer) :
    p.warnings layer =
      if found < p.depth then [.unrestoredSaves layer.bodyStep p.depth found] else [] := by
  rw [warnings, h]
  by_cases hfew : found < p.depth
  · rw [Nat.min_eq_right (Nat.le_of_lt hfew), if_pos hfew]
  · rw [Nat.min_eq_left (Nat.le_of_not_lt hfew), if_neg hfew, if_neg (Nat.lt_irrefl _)]

/-- Of the restores in the longest end of a page body that may go, as many are taken as the clip
line has saves, or all when these are fewer, which is remarked. The lines before that end stay. -/
theorem ofLines_restores (h : ofLines layer lines = .ok p) :
    ∃ head body tail before ending,
      Document.PageAt ⟨lines⟩ head body tail ∧ Page.AfterClip body p.clip (before ++ ending) ∧
      (∀ line ∈ ending, Page.isClosing line = true) ∧
      (∀ line ∈ before.getLast?, Page.isClosing line = false) ∧
      let saves := (stream p.clip.toList).count Page.saveToken
      let found := (stream ending).count Page.restoreToken
      p.closed = min saves found ∧
      stream (before ++ ending) = stream p.fragment ++ List.replicate p.closed Page.restoreToken ∧
      before <+: p.fragment ∧
      p.warnings layer =
        if found < saves then [.unrestoredSaves layer.bodyStep saves found] else [] := by
  obtain ⟨head, body, tail, hp, hcut⟩ := cutFrom_of_ofLines h
  obtain ⟨before, ending, hartwork, hending, hbefore⟩ :=
    Page.exists_closing (Page.splitClip body).2
  have hclip : Page.AfterClip body p.clip (before ++ ending) := by
    apply Page.afterClip_of_splitClip
    rw [hcut.clip_eq, ← hartwork]
  have hsaves : p.depth = (stream p.clip.toList).count Page.saveToken := by
    rw [hp.depth_eq]
    cases p.clip <;> simp [Page.saveDepth, countWord]
  have hstrip := hcut.strip_eq
  rw [← hp.depth_eq, hartwork] at hstrip
  obtain ⟨hclosed, hstream, hstay⟩ := Page.strip_artwork hstrip hending hbefore
  have hremark := warnings_of_closed_eq hclosed layer
  rw [hsaves] at hclosed hremark
  exact ⟨head, body, tail, before, ending, hp.page, hclip, hending, hbefore, hclosed, hstream,
    hstay, hremark⟩

def sharedRestores : PageParts :=
  ⟨"%%BoundingBox: 0 0 9 9", 1, 8, some "q 0 0 9 9 rectclip q", 2, ["q", "0 0 m f", "Q\r"], 2⟩

theorem ofLines_restores_shared :
    ofLines .print Document.printSample.lines = .ok sharedRestores ∧
      ∃ before ending : List Text, (∀ line ∈ ending, Page.isClosing line = true) ∧
        (∀ line ∈ before.getLast?, Page.isClosing line = false) ∧
        2 = min 2 ((stream ending).count Page.restoreToken) ∧
        stream (before ++ ending) =
          (["q", "0", "0", "m", "f", "Q", "Q", "Q"] : List Text) ∧
        before <+: (["q", "0 0 m f", "Q\r"] : List Text) ∧ sharedRestores.warnings .print = [] := by
  have h : ofLines .print Document.printSample.lines = .ok sharedRestores := rfl
  obtain ⟨-, -, -, before, ending, -, -, hending, hbefore, hclosed, hstream, hstay, -⟩ :=
    ofLines_restores h
  exact ⟨h, before, ending, hending, hbefore, hclosed, hstream, hstay, rfl⟩

end PageParts
end CutPath
