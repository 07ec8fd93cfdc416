import Mathlib.Data.List.TakeWhile
import CutPath.Document.Pass
import CutPath.Proofs.Text.Words

namespace CutPath
open Text
set_option autoImplicit true

namespace Instruction

def IsNumeral (w : Text) : Prop := w ≠ [] ∧ ∀ c ∈ w, isNumeralChar c = true

theorem digitZeros_away : ∀ z ∈ digitZeros, 0xD < z ∧ (0x200A < z ∨ z + 10 ≤ 0x2000) := by
  decide

theorem isNumeralChar_eq_false (hc : isBlank c = true) : isNumeralChar c = false := by
  have hrange : (9 ≤ c.val.toNat ∧ c.val.toNat ≤ 13) ∨
      (0x2000 ≤ c.val.toNat ∧ c.val.toNat ≤ 0x200A) → isNumeralChar c = false := by
    intro h
    have hdigit : isDecimalDigit c = false := by
      rw [isDecimalDigit, List.any_eq_false]
      intro z hz hd
      have ha := digitZeros_away z hz
      simp only [Bool.and_eq_true, decide_eq_true_eq] at hd
      have he : c.toNat = c.val.toNat := rfl
      omega
    have hpoint : c ≠ '.' := by
      rintro rfl
      revert h
      decide
    simp [isNumeralChar, hdigit, hpoint]
  simp only [isBlank, Bool.or_eq_true, Bool.and_eq_true, beq_iff_eq, decide_eq_true_eq] at hc
  rcases hc with (((((((((rfl | h) | rfl) | rfl) | rfl) | h) | rfl) | rfl) | rfl) | rfl) | rfl
  case inl.inl.inl.inl.inl.inl.inl.inl.inl.inr => exact hrange (.inl h)
  case inl.inl.inl.inl.inl.inr => exact hrange (.inr h)
  all_goals decide

theorem Breaks.dropWhile_numeral (ht : Breaks t) : t.dropWhile isNumeralChar = t := by
  cases t with
  | nil => rfl
  | cons c t => exact List.dropWhile_cons_of_neg (by simp [isNumeralChar_eq_false (ht c rfl)])

theorem skipNumerals?_nil (count : Nat) : skipNumerals? (count + 1) [] = none := rfl

theorem skipNumerals?_numeral (hw : IsNumeral w) (ht : Breaks (c :: t)) (count : Nat) :
    skipNumerals? (count + 1) (w ++ c :: t) = skipNumerals? count (trimStart t) := by
  have hd : (w ++ c :: t).dropWhile isNumeralChar = c :: t := by
    rw [List.dropWhile_append_of_pos hw.2, Breaks.dropWhile_numeral ht]
  have hk : ((w ++ c :: t).takeWhile isNumeralChar).isEmpty = false := by
    rw [List.takeWhile_append_of_pos hw.2]
    simp [hw.1]
  rw [skipNumerals?, hd, hk]
  simp [ht c rfl]

theorem skipNumerals?_numeral_end (hw : IsNumeral w) (count : Nat) :
    skipNumerals? (count + 1) w = none := by
  have hd : w.dropWhile isNumeralChar = [] := List.dropWhile_eq_nil_iff.2 hw.2
  simp [skipNumerals?, hd]

theorem skipNumerals?_other (hw : IsWord w) (hn : ¬ IsNumeral w) (t : Text) (count : Nat) :
    skipNumerals? (count + 1) (w ++ t) = none := by
  have hd : ∃ d rest, w.dropWhile isNumeralChar = d :: rest := by
    apply List.exists_cons_of_ne_nil
    intro h
    exact hn ⟨hw.1, List.dropWhile_eq_nil_iff.1 h⟩
  obtain ⟨d, rest, hd⟩ := hd
  have hm : d ∈ w := (List.dropWhile_suffix isNumeralChar).subset (hd ▸ List.mem_cons_self)
  rw [skipNumerals?, List.dropWhile_append, hd]
  simp [hw.2 d hm]

theorem sets_zero_iff (ho : ∀ op ∈ operators, IsWord op) :
    sets 0 operators line = true ↔ ∃ op ∈ operators, words line = [op] := by
  simp only [sets, skipNumerals?, List.contains_iff_mem]
  constructor
  · intro h
    exact ⟨_, h, (trim_eq_iff (ho _ h)).1 rfl⟩
  · rintro ⟨op, h, hw⟩
    have ht : trim line = op := (trim_eq_iff (ho op h)).2 hw
    rw [← trim, ht]
    exact h

theorem sets_succ_iff (count : Nat) (operators : List Text) (line : Text) :
    sets (count + 1) operators line = true ↔
      ∃ w c t, trimStart line = w ++ c :: t ∧ IsNumeral w ∧ IsWord w ∧ isBlank c = true ∧
        sets count operators t = true := by
  constructor
  · intro h
    cases hw : words line with
    | nil =>
      have ht : trimStart line = [] :=
        List.dropWhile_eq_nil_iff.2 (List.all_eq_true.1 (words_eq_nil_iff.1 hw))
      rw [sets, ht, skipNumerals?_nil] at h
      cases h
    | cons w ws =>
      obtain ⟨rest, ht, hword, hb, -⟩ := exists_of_words_eq_cons hw
      rw [sets, ht] at h
      by_cases hn : IsNumeral w
      · cases rest with
        | nil =>
          rw [List.append_nil, skipNumerals?_numeral_end hn] at h
          cases h
        | cons c t =>
          rw [skipNumerals?_numeral hn hb] at h
          exact ⟨w, c, t, ht, hn, hword, hb c rfl, h⟩
      · rw [skipNumerals?_other hword hn] at h
        cases h
  · rintro ⟨w, c, t, ht, hn, -, hc, h⟩
    rw [sets, ht, skipNumerals?_numeral hn (breaks_cons hc)]
    exact h

/-- A line sets something exactly when its words are the numerals and one of the operators. -/
theorem sets_iff (ho : ∀ op ∈ operators, IsWord op) :
    sets count operators line = true ↔
      ∃ numerals op, words line = numerals ++ [op] ∧ numerals.length = count ∧
        (∀ n ∈ numerals, IsNumeral n) ∧ op ∈ operators := by
  induction count generalizing line with
  | zero =>
    rw [sets_zero_iff ho]
    constructor
    · rintro ⟨op, h, hw⟩
      exact ⟨[], op, hw, rfl, by simp, h⟩
    · rintro ⟨numerals, op, hw, hl, -, h⟩
      rw [List.length_eq_zero_iff.1 hl] at hw
      exact ⟨op, h, hw⟩
  | succ count ih =>
    rw [sets_succ_iff]
    constructor
    · rintro ⟨w, c, t, ht, hn, hword, hc, h⟩
      obtain ⟨numerals, op, hw, hl, hns, h⟩ := ih.1 h
      refine ⟨w :: numerals, op, ?_, by rw [List.length_cons, hl], ?_, h⟩
      · rw [← words_trimStart, ht, words_append_word hword (breaks_cons hc), words_cons_blank hc,
          hw]
        rfl
      · simpa using ⟨hn, hns⟩
    · rintro ⟨numerals, op, hw, hl, hns, h⟩
      obtain ⟨w, numerals, rfl⟩ := List.exists_cons_of_length_eq_add_one hl
      obtain ⟨rest, ht, hword, hb, hr⟩ := exists_of_words_eq_cons hw
      cases rest with
      | nil => simp [words_nil] at hr
      | cons c t =>
        rw [words_cons_blank (hb c rfl)] at hr
        refine ⟨w, c, t, ht, hns w List.mem_cons_self, hword, hb c rfl, ?_⟩
        exact ih.2 ⟨numerals, op, hr, Nat.succ.inj hl, fun n hn => hns n (.tail w hn), h⟩

theorem isStrokeToken_trim_iff :
    isStrokeToken (trim line) = true ↔ ∃ w, words line = [w] ∧ isStrokeToken w = true := by
  have hs : ∀ w ∈ strokeTokens, IsWord w := by decide
  constructor
  · intro h
    exact ⟨_, (trim_eq_iff (hs _ (List.contains_iff_mem.1 h))).1 rfl, h⟩
  · rintro ⟨w, hw, h⟩
    rwa [(trim_eq_iff (hs _ (List.contains_iff_mem.1 h))).2 hw]

/-- The label of a line of a page depends on the words of the line only. -/
theorem label_congr (h : words a = words b) : label a = label b := by
  have hsets : ∀ count operators, (∀ op ∈ operators, IsWord op) →
      sets count operators a = sets count operators b := by
    intro count operators ho
    rw [Bool.eq_iff_iff, sets_iff ho, sets_iff ho, h]
  have hstroke : isStrokeToken (trim a) = isStrokeToken (trim b) := by
    rw [Bool.eq_iff_iff, isStrokeToken_trim_iff, isStrokeToken_trim_iff, h]
  simp only [label, h, hstroke, hsets 3 ["rg", "setrgbcolor"] (by decide),
    hsets 4 ["k", "setcmykcolor"] (by decide), hsets 1 ["g", "setgray"] (by decide),
    hsets 1 ["w", "setlinewidth"] (by decide)]

theorem not_numeral_of_stroke (hw : w ∈ strokeTokens) : ¬ IsNumeral w := by
  have h : ∀ w ∈ strokeTokens, w.all isNumeralChar = false := by decide
  intro hn
  have hall := h w hw
  rw [List.all_eq_true.2 hn.2] at hall
  cases hall

theorem sets_eq_false_of_stroke (ho : ∀ op ∈ operators, IsWord op ∧ isStrokeToken op = false)
    (hw : w ∈ words line) (hs : isStrokeToken w = true) : sets count operators line = false := by
  rw [← Bool.not_eq_true, sets_iff fun op hop => (ho op hop).1]
  rintro ⟨numerals, op, he, -, hn, hop⟩
  rw [he, List.mem_append, List.mem_singleton] at hw
  rcases hw with hw | rfl
  · exact not_numeral_of_stroke (List.contains_iff_mem.1 hs) (hn w hw)
  · rw [(ho w hop).2] at hs
    cases hs

theorem label_of_stroke (hw : w ∈ words line) (hs : isStrokeToken w = true) :
    label line = if isStrokeToken (trim line) then .strokeStandalone else .strokeInline := by
  have hany : (words line).any isStrokeToken = true := List.any_eq_true.2 ⟨w, hw, hs⟩
  rw [label, sets_eq_false_of_stroke (by decide) hw hs, sets_eq_false_of_stroke (by decide) hw hs,
    sets_eq_false_of_stroke (by decide) hw hs, sets_eq_false_of_stroke (by decide) hw hs, hany]
  rfl

theorem label_cases (line : Text) :
    label line ∈ [.colorSet, .cmykSet, .graySet, .widthSet] ∨
      (label line = .strokeStandalone ∧ ∃ w, words line = [w] ∧ isStrokeToken w = true) ∨
      (label line = .strokeInline ∧ ∃ w ∈ words line, isStrokeToken w = true) ∨
      (label line = .other ∧ ∀ w ∈ words line, isStrokeToken w = false) := by
  unfold label
  split
  · exact .inl (by decide)
  split
  · exact .inl (by decide)
  split
  · exact .inl (by decide)
  split
  · exact .inl (by decide)
  refine .inr ?_
  split
  · next h => exact .inl ⟨rfl, isStrokeToken_trim_iff.1 h⟩
  split
  · next h => exact .inr (.inl ⟨rfl, List.any_eq_true.1 h⟩)
  · next h => exact .inr (.inr ⟨rfl, by simpa using h⟩)

theorem word_of_standalone (h : label line = .strokeStandalone) :
    ∃ w, words line = [w] ∧ isStrokeToken w = true := by
  rcases label_cases line with hl | ⟨-, hw⟩ | ⟨hl, -⟩ | ⟨hl, -⟩
  · rw [h] at hl
    exact absurd hl (by decide)
  · exact hw
  · rw [h] at hl
    cases hl
  · rw [h] at hl
    cases hl

theorem word_of_inline (h : label line = .strokeInline) :
    ∃ w ∈ words line, isStrokeToken w = true := by
  rcases label_cases line with hl | ⟨hl, -⟩ | ⟨-, hw⟩ | ⟨hl, -⟩
  · rw [h] at hl
    exact absurd hl (by decide)
  · rw [h] at hl
    cases hl
  · exact hw
  · rw [h] at hl
    cases hl

end Instruction
end CutPath
