import CutPath.Text.Basic

namespace CutPath.Text
set_option autoImplicit true

def IsWord (w : Text) : Prop := w ≠ [] ∧ ∀ c ∈ w, isBlank c = false

instance (w : Text) : Decidable (IsWord w) :=
  decidable_of_iff ((!w.isEmpty && w.all fun c => !isBlank c) = true) (by simp [IsWord])

/-- A word that stands before such a text ends there. -/
def Breaks (t : Text) : Prop := ∀ c ∈ t.head?, isBlank c = true

/-- A text that has the given words, with blanks between and around them. -/
inductive Spaced : Text → List Text → Prop
  | nil : Spaced [] []
  | blank (hc : isBlank c = true) (h : Spaced t ws) : Spaced (c :: t) ws
  | word (hw : IsWord w) (ht : Breaks t) (h : Spaced t ws) : Spaced (w ++ t) (w :: ws)

theorem Breaks.append (hs : Breaks s) (ht : Breaks t) : Breaks (s ++ t) := by
  cases s with
  | nil => exact ht
  | cons c s => exact hs

theorem breaks_cons (hc : isBlank c = true) : Breaks (c :: t) := by
  intro d hd
  simp only [List.head?_cons, Option.mem_def, Option.some.injEq] at hd
  exact hd ▸ hc

theorem Breaks.eq_nil (ht : Breaks t) (hw : ∀ c ∈ w, isBlank c = false)
    (h : w <+: t) : w = [] := by
  cases w with
  | nil => rfl
  | cons c w =>
    obtain ⟨s, rfl⟩ := h
    have hc := ht c rfl
    rw [hw c List.mem_cons_self] at hc
    cases hc

theorem words_nil : words [] = [] := rfl

theorem words_cons_blank (hc : isBlank c = true) (t : Text) : words (c :: t) = words t := by
  rw [words, List.splitOnP_cons_eq_if_modifyHead, if_pos hc]
  rfl

theorem words_append_word (hw : IsWord w) (ht : Breaks t) : words (w ++ t) = w :: words t := by
  have hne : (!w.isEmpty) = true := by simpa [List.isEmpty_iff] using hw.1
  cases t with
  | nil =>
    rw [List.append_nil, words, List.splitOnP_eq_singleton hw.2]
    exact List.filter_cons_of_pos hne
  | cons c t =>
    have hc := ht c rfl
    rw [words_cons_blank hc, words, List.splitOnP_append_cons_of_forall_mem hw.2 c hc]
    exact List.filter_cons_of_pos hne

theorem Spaced.words_eq (h : Spaced t ws) : words t = ws := by
  induction h with
  | nil => rfl
  | blank hc _ ih => rw [words_cons_blank hc, ih]
  | word hw ht _ ih => rw [words_append_word hw ht, ih]

theorem breaks_dropWhile (t : Text) : Breaks (t.dropWhile fun c => !isBlank c) := by
  intro c hc
  have h := List.head?_dropWhile_not (fun c => !isBlank c) t
  rw [Option.mem_def] at hc
  rw [hc] at h
  simpa using h

theorem spaced_words (t : Text) : Spaced t (words t) := by
  match t with
  | [] => exact .nil
  | c :: t =>
    by_cases hc : isBlank c = true
    · rw [words_cons_blank hc]
      exact .blank hc (spaced_words t)
    · let w := c :: t.takeWhile fun c => !isBlank c
      let rest := t.dropWhile fun c => !isBlank c
      have ht : c :: t = w ++ rest := by simp [w, rest]
      have hw : IsWord w := by
        refine ⟨List.cons_ne_nil _ _, ?_⟩
        intro d hd
        rcases List.mem_cons.1 hd with rfl | hd
        · simpa using hc
        · have h := List.all_eq_true.1 (List.all_takeWhile (l := t)) d hd
          simpa using h
      have hr : Breaks rest := breaks_dropWhile t
      rw [ht, words_append_word hw hr]
      exact .word hw hr (spaced_words rest)
termination_by t.length
decreasing_by
  · exact Nat.lt_succ_self _
  · exact Nat.lt_succ_of_le (List.dropWhile_suffix _).length_le

theorem words_eq_iff : words t = ws ↔ Spaced t ws :=
  ⟨fun h => h ▸ spaced_words t, Spaced.words_eq⟩

theorem Spaced.isWord (hs : Spaced t ws) (h : w ∈ ws) : IsWord w := by
  induction hs with
  | nil => cases h
  | blank _ _ ih => exact ih h
  | word hv _ _ ih =>
    rcases List.mem_cons.1 h with rfl | h
    · exact hv
    · exact ih h

theorem words_isWord (hw : IsWord w) : words w = [w] := by
  have h := words_append_word (t := []) hw (fun _ h => by cases h)
  rwa [List.append_nil, words_nil] at h

theorem Spaced.append_blank (hs : Spaced s ws) (hc : isBlank c = true) (ht : Spaced t vs) :
    Spaced (s ++ c :: t) (ws ++ vs) := by
  induction hs with
  | nil => exact .blank hc ht
  | blank hd _ ih => exact .blank hd ih
  | word hw hb _ ih =>
    rw [List.append_assoc]
    exact .word hw (hb.append (breaks_cons hc)) ih

theorem words_append_blank (hc : isBlank c = true) (s t : Text) :
    words (s ++ c :: t) = words s ++ words t :=
  ((spaced_words s).append_blank hc (spaced_words t)).words_eq

theorem words_eq_nil_iff : words t = [] ↔ isBlankText t = true := by
  simp only [isBlankText, List.all_eq_true]
  constructor
  · intro h
    have hs := words_eq_iff.1 h
    clear h
    generalize hws : ([] : List Text) = ws at hs
    induction hs with
    | nil => intro c hc; cases hc
    | blank hc _ ih =>
      intro d hd
      rcases List.mem_cons.1 hd with rfl | hd
      · exact hc
      · exact ih hws d hd
    | word => cases hws
  · intro h
    induction t with
    | nil => rfl
    | cons c t ih =>
      rw [words_cons_blank (h c List.mem_cons_self)]
      exact ih fun d hd => h d (List.mem_cons_of_mem c hd)

theorem words_append_blanks (hb : isBlankText b = true) (t : Text) : words (t ++ b) = words t := by
  cases b with
  | nil => rw [List.append_nil]
  | cons c b =>
    simp only [isBlankText, List.all_cons, Bool.and_eq_true] at hb
    rw [words_append_blank hb.1, words_eq_nil_iff.2 hb.2, List.append_nil]

theorem words_trimStart (t : Text) : words (trimStart t) = words t := by
  induction t with
  | nil => rfl
  | cons c t ih =>
    by_cases hc : isBlank c = true
    · rw [words_cons_blank hc, ← ih, trimStart, List.dropWhile_cons_of_pos hc]
      rfl
    · rw [trimStart, List.dropWhile_cons_of_neg hc]

theorem trimEnd_append (t : Text) : ∃ b, isBlankText b = true ∧ t = trimEnd t ++ b := by
  refine ⟨(t.reverse.takeWhile isBlank).reverse, ?_, ?_⟩
  · rw [isBlankText, List.all_reverse]
    exact List.all_takeWhile
  · rw [trimEnd, ← List.reverse_append, List.takeWhile_append_dropWhile, List.reverse_reverse]

theorem words_trimEnd (t : Text) : words (trimEnd t) = words t := by
  obtain ⟨b, hb, ht⟩ := trimEnd_append t
  rw [← words_append_blanks hb (trimEnd t), ← ht]

theorem words_trim (t : Text) : words (trim t) = words t := by
  rw [trim, words_trimEnd, words_trimStart]

theorem exists_of_words_eq_cons (h : words t = w :: ws) :
    ∃ rest, trimStart t = w ++ rest ∧ IsWord w ∧ Breaks rest ∧ words rest = ws := by
  have hs := words_eq_iff.1 h
  clear h
  generalize hvs : w :: ws = vs at hs
  induction hs with
  | nil => cases hvs
  | blank hc _ ih =>
    obtain ⟨rest, ht, h⟩ := ih hvs
    exact ⟨rest, by rwa [trimStart, List.dropWhile_cons_of_pos hc], h⟩
  | @word v t us hv hb hs =>
    cases hvs
    refine ⟨t, ?_, hv, hb, hs.words_eq⟩
    obtain ⟨c, v, rfl⟩ := List.exists_cons_of_ne_nil hv.1
    rw [trimStart, List.cons_append, List.dropWhile_cons_of_neg]
    simp [hv.2 c List.mem_cons_self]

theorem trim_eq_iff (hw : IsWord w) : trim t = w ↔ words t = [w] := by
  constructor
  · intro h
    rw [← words_trim, h, words_isWord hw]
  · intro h
    obtain ⟨rest, ht, -, -, hr⟩ := exists_of_words_eq_cons h
    have hb := List.all_eq_true.1 (words_eq_nil_iff.1 hr)
    have hl : ∃ c v, w.reverse = c :: v := List.exists_cons_of_ne_nil (by simpa using hw.1)
    obtain ⟨c, v, hv⟩ := hl
    have hc : isBlank c = false := hw.2 c (List.mem_reverse.1 (hv ▸ List.mem_cons_self))
    rw [trim, ht, trimEnd, List.reverse_append, List.dropWhile_append_of_pos, hv,
      List.dropWhile_cons_of_neg (by simp [hc]), ← hv, List.reverse_reverse]
    intro d hd
    exact hb d (List.mem_reverse.1 hd)

theorem infix_append_breaks (hm : IsWord m) (ht : Breaks t) :
    m <:+: w ++ t ↔ m <:+: w ∨ m <:+: t := by
  rw [List.infix_append_iff]
  constructor
  · rintro (h | h | ⟨x, y, rfl, hx, hy⟩)
    · exact .inl h
    · exact .inr h
    · have he := ht.eq_nil (fun c hc => hm.2 c (List.mem_append_right x hc)) hy
      subst he
      exact .inl (by simpa using hx.isInfix)
  · rintro (h | h)
    · exact .inl h
    · exact .inr (.inl h)

theorem Spaced.infix_iff (hs : Spaced t ws) (hm : IsWord m) :
    m <:+: t ↔ ∃ w ∈ ws, m <:+: w := by
  induction hs with
  | nil =>
    rw [List.infix_nil]
    exact ⟨fun h => (hm.1 h).elim, fun ⟨_, h, _⟩ => by cases h⟩
  | @blank c t ws hc _ ih =>
    rw [← ih, List.infix_cons_iff]
    refine ⟨fun h => h.resolve_left fun hp => ?_, .inr⟩
    exact hm.1 ((breaks_cons hc).eq_nil hm.2 hp)
  | word _ ht _ ih =>
    rw [infix_append_breaks hm ht, ih]
    simp only [List.mem_cons, exists_eq_or_imp]

/-- A word without blanks stands in a text exactly when it stands in one of the text's words. -/
theorem infix_iff_mem_words (hm : IsWord m) : m <:+: t ↔ ∃ w ∈ words t, m <:+: w :=
  (spaced_words t).infix_iff hm

theorem prefix_append_breaks (hm : IsWord m) (ht : Breaks t) : m <+: w ++ t ↔ m <+: w := by
  refine ⟨fun h => ?_, fun h => h.trans (List.prefix_append w t)⟩
  rcases List.prefix_or_prefix_of_prefix h (List.prefix_append w t) with h' | ⟨s, rfl⟩
  · exact h'
  · have hs := (List.prefix_append_right_inj w).1 h
    have he := ht.eq_nil (fun c hc => hm.2 c (List.mem_append_right w hc)) hs
    subst he
    exact ⟨[], by rw [List.append_nil, List.append_nil]⟩

theorem isPrefixOf_trimStart_iff (hm : IsWord m) :
    m.isPrefixOf (trimStart t) = true ↔ ∃ w ∈ (words t).head?, m <+: w := by
  rw [List.isPrefixOf_iff_prefix]
  cases h : words t with
  | nil =>
    have ht : words (trimStart t) = [] := (words_trimStart t).trans h
    have hi : ¬ m <:+: trimStart t := by rw [infix_iff_mem_words hm, ht]; rintro ⟨_, h, _⟩; cases h
    exact ⟨fun hp => (hi hp.isInfix).elim, fun ⟨_, h, _⟩ => by cases h⟩
  | cons w ws =>
    obtain ⟨rest, ht, -, hb, -⟩ := exists_of_words_eq_cons h
    rw [ht, prefix_append_breaks hm hb]
    simp only [List.head?_cons, Option.mem_def, Option.some.injEq, exists_eq_left']

/-- The words of some lines, read one line after the other. -/
def stream (lines : List Text) : List Text := lines.flatMap words

@[simp] theorem stream_nil : stream [] = [] := rfl

@[simp] theorem stream_cons (line : Text) (lines : List Text) :
    stream (line :: lines) = words line ++ stream lines := rfl

@[simp] theorem stream_append (a b : List Text) : stream (a ++ b) = stream a ++ stream b :=
  List.flatMap_append

theorem mem_of_mem_splitOnP {t : Text} (h : piece ∈ t.splitOnP sep) (hc : c ∈ piece) :
    c ∈ t ∧ sep c = false := by
  induction t generalizing piece with
  | nil =>
    rw [List.splitOnP_nil, List.mem_singleton] at h
    rw [h] at hc
    cases hc
  | cons d t ih =>
    have htail (hm : piece ∈ t.splitOnP sep) : c ∈ d :: t ∧ sep c = false :=
      ⟨List.mem_cons_of_mem d (ih hm hc).1, (ih hm hc).2⟩
    rw [List.splitOnP_cons_eq_if_modifyHead] at h
    split at h
    · rcases List.mem_cons.1 h with rfl | h
      · cases hc
      · exact htail h
    · next hd =>
      obtain ⟨first, rest, hs⟩ := List.exists_cons_of_ne_nil (List.splitOnP_ne_nil sep t)
      rw [hs, List.modifyHead_cons, List.mem_cons] at h
      rcases h with rfl | h
      · rcases List.mem_cons.1 hc with rfl | hc
        · exact ⟨List.mem_cons_self, by simpa using hd⟩
        · have hm := ih (hs ▸ List.mem_cons_self) hc
          exact ⟨List.mem_cons_of_mem d hm.1, hm.2⟩
      · exact htail (hs ▸ List.mem_cons_of_mem first h)

theorem mem_of_mem_splitOn {t : Text} (h : piece ∈ t.splitOn sep) (hc : c ∈ piece) :
    c ∈ t ∧ c ≠ sep := by
  obtain ⟨hm, hne⟩ := mem_of_mem_splitOnP h hc
  exact ⟨hm, beq_eq_false_iff_ne.1 hne⟩

/-- Characters before the first separator belong to the first piece. -/
theorem splitOn_append {w : Text} (hw : sep ∉ w) (t : Text) :
    (w ++ t).splitOn sep = (t.splitOn sep).modifyHead (w ++ ·) := by
  induction w with
  | nil =>
    rw [List.nil_append]
    cases t.splitOn sep <;> rfl
  | cons c w ih =>
    rw [List.mem_cons, not_or] at hw
    have hc : (c == sep) = false := beq_eq_false_iff_ne.2 (Ne.symm hw.1)
    rw [List.cons_append, List.splitOn_cons_eq_if_modifyHead, hc, ih hw.2,
      List.modifyHead_modifyHead]
    rfl

theorem mem_join (h : c ∈ join sep pieces) : c ∈ sep ∨ ∃ piece ∈ pieces, c ∈ piece := by
  match pieces with
  | [] => cases h
  | [piece] => exact .inr ⟨piece, List.mem_singleton_self piece, by rwa [join_singleton] at h⟩
  | piece :: next :: pieces =>
    rw [join_cons_cons, List.mem_append, List.mem_append] at h
    rcases h with (h | h) | h
    · exact .inr ⟨piece, List.mem_cons_self, h⟩
    · exact .inl h
    · rcases mem_join h with h | ⟨other, hm, h⟩
      · exact .inl h
      · exact .inr ⟨other, List.mem_cons_of_mem piece hm, h⟩

theorem prefix_join_cons (sep piece : Text) (pieces : List Text) :
    piece <+: join sep (piece :: pieces) := by
  cases pieces with
  | nil => exact ⟨[], by rw [List.append_nil, join_singleton]⟩
  | cons next pieces =>
    rw [join_cons_cons, List.append_assoc]
    exact List.prefix_append _ _

end CutPath.Text
