import CutPath.Document.Basic
import CutPath.Proofs.Text.Words

namespace CutPath
open Text
set_option autoImplicit true

@[simp] theorem words_append_lineEnding (t line : Text) :
    words (t ++ lineEnding line) = words t := by
  apply words_append_blanks
  rw [lineEnding]
  split <;> rfl

namespace Marker

/-- A line that header declarations can follow. -/
def isAnchor (line : Text) : Bool := opens boundingBox line || opens languageLevel line

theorem opens_eq (hm : IsWord m) (line : Text) :
    opens m line = (words line).head?.any m.isPrefixOf := by
  rw [Bool.eq_iff_iff, opens, isPrefixOf_trimStart_iff hm]
  cases (words line).head? <;> simp

theorem isPaint_eq (line : Text) : isPaint line = (words line == [showpage]) := by
  rw [Bool.eq_iff_iff, isPaint, beq_iff_eq, beq_iff_eq]
  exact trim_eq_iff (by decide)

theorem occursIn_eq (hm : IsWord m) (line : Text) :
    occursIn m line = (words line).any (occursIn m) := by
  rw [Bool.eq_iff_iff, occursIn_iff, infix_iff_mem_words hm]
  simp [occursIn_iff]

theorem isPageStart_eq (line : Text) : isPageStart line = (words line).any isPageStart := by
  rw [isPageStart, occursIn_eq (m := page) (by decide),
    occursIn_eq (m := beginPageSetup) (by decide), Bool.eq_iff_iff]
  simp only [Bool.or_eq_true, List.any_eq_true, isPageStart]
  grind

theorem isPageEnd_eq (line : Text) : isPageEnd line = (words line).any isPageEnd := by
  rw [isPageEnd, occursIn_eq (m := trailer) (by decide),
    occursIn_eq (m := endOfFile) (by decide), Bool.eq_iff_iff]
  simp only [Bool.or_eq_true, List.any_eq_true, isPageEnd]
  grind

theorem opens_eq_false (hm : c ∈ m) (h : c ∉ line) : opens m line = false := by
  rw [← Bool.not_eq_true, opens, List.isPrefixOf_iff_prefix]
  intro hp
  exact h ((List.dropWhile_sublist isBlank).subset (hp.subset hm))

theorem occursIn_eq_false (hm : c ∈ m) (h : c ∉ line) : occursIn m line = false := by
  rw [← Bool.not_eq_true, occursIn_iff]
  intro hi
  exact h (hi.subset hm)

theorem opens_eq_false_of_opens (hm : m.isPrefixOf m' = false) (hm' : m'.isPrefixOf m = false)
    (h : opens m line = true) : opens m' line = false := by
  rw [← Bool.not_eq_true, opens, List.isPrefixOf_iff_prefix]
  intro h'
  rw [opens, List.isPrefixOf_iff_prefix] at h
  rcases List.prefix_or_prefix_of_prefix h h' with h | h
  · rw [List.isPrefixOf_iff_prefix.2 h] at hm
    cases hm
  · rw [List.isPrefixOf_iff_prefix.2 h] at hm'
    cases hm'

theorem isPaint_eq_false (hm : c ∈ showpage) (h : c ∉ line) : isPaint line = false := by
  rw [isPaint_eq, beq_eq_false_iff_ne]
  intro hw
  have hi := (infix_iff_mem_words (m := showpage) (t := line) (by decide)).2
    ⟨showpage, hw ▸ List.mem_singleton_self _, List.infix_rfl⟩
  exact h (hi.subset hm)

end Marker
end CutPath
