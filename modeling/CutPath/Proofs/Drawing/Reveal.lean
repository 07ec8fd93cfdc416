import Mathlib.Data.List.DropRight
import CutPath.Drawing.Attribute
import CutPath.Proofs.Text.Words

namespace CutPath
open Text
set_option autoImplicit true

namespace Entity

theorem unescape?_nil : unescape? [] = some [] := by rw [unescape?]

theorem unescape?_cons (hc : c ≠ '&') (t : Text) :
    unescape? (c :: t) = (unescape? t).map (c :: ·) := by
  rw [unescape?, if_neg hc]

theorem unescape?_reference (hn : ∀ d ∈ name, (d != ';' && d != '&') = true)
    (hc : resolve? name = some c) (t : Text) :
    unescape? ('&' :: (name ++ ';' :: t)) = (unescape? t).map (c :: ·) := by
  have hdrop : (name ++ ';' :: t).dropWhile (fun d => d != ';' && d != '&') = ';' :: t := by
    rw [List.dropWhile_append_of_pos hn]
    rfl
  have htake : (name ++ ';' :: t).takeWhile (fun d => d != ';' && d != '&') = name := by
    rw [List.takeWhile_append_of_pos hn]
    exact List.append_nil name
  rw [unescape?, if_pos rfl]
  split
  · next rest hrest =>
    obtain rfl : rest = t := (List.cons.inj (hrest.symm.trans hdrop)).2
    rw [htake, hc]
    rfl
  · next hother => exact (hother t hdrop).elim

theorem escapeChar_cases (c : Char) :
    (escapeChar c = [c] ∧ c ≠ '&' ∧ c ≠ '"') ∨
      ∃ name, escapeChar c = '&' :: (name ++ [';']) ∧ '"' ∉ name ∧
        (∀ d ∈ name, (d != ';' && d != '&') = true) ∧ resolve? name = some c := by
  unfold escapeChar
  split
  · next h => exact .inr ⟨"lt", rfl, by decide, List.all_eq_true.1 (by decide), by rw [h]; decide⟩
  split
  · next h => exact .inr ⟨"gt", rfl, by decide, List.all_eq_true.1 (by decide), by rw [h]; decide⟩
  split
  · next h => exact .inr ⟨"amp", rfl, by decide, List.all_eq_true.1 (by decide), by rw [h]; decide⟩
  split
  · next h => exact .inr ⟨"apos", rfl, by decide, List.all_eq_true.1 (by decide), by rw [h]; decide⟩
  split
  · next h => exact .inr ⟨"quot", rfl, by decide, List.all_eq_true.1 (by decide), by rw [h]; decide⟩
  · next hamp _ hquot => exact .inl ⟨rfl, hamp, hquot⟩

theorem unescape?_escape (t : Text) : unescape? (escape t) = some t := by
  induction t with
  | nil => exact unescape?_nil
  | cons c t ih =>
    rw [escape, List.flatMap_cons, ← escape]
    rcases escapeChar_cases c with ⟨he, hamp, -⟩ | ⟨name, he, -, hn, hc⟩
    · rw [he, List.singleton_append, unescape?_cons hamp, ih]
      rfl
    · rw [he, List.cons_append, List.append_assoc, List.singleton_append,
        unescape?_reference hn hc, ih]
      rfl

theorem quote_not_mem_escape (t : Text) : '"' ∉ escape t := by
  intro h
  obtain ⟨c, -, hc⟩ := List.mem_flatMap.1 h
  rcases escapeChar_cases c with ⟨he, -, hquot⟩ | ⟨name, he, hname, -⟩
  · rw [he, List.mem_singleton] at hc
    exact hquot hc.symm
  · rw [he, List.mem_cons, List.mem_append] at hc
    rcases hc with hc | hc | hc
    · cases hc
    · exact hname hc
    · revert hc
      decide

end Entity

namespace Text

theorem mem_trim (h : c ∈ trim t) : c ∈ t := by
  have hend : c ∈ trimStart t :=
    List.mem_reverse.1 ((List.dropWhile_suffix _).subset (List.mem_reverse.1 h))
  exact (List.dropWhile_suffix _).subset hend

theorem trimEnd_trimEnd (t : Text) : trimEnd (trimEnd t) = trimEnd t := by
  rw [trimEnd, trimEnd, List.reverse_reverse, List.dropWhile_idempotent]

theorem trim_trim (t : Text) : trim (trim t) = trim t := by
  have hstart : trimStart (trim t) = trim t := by
    cases h : trim t with
    | nil => rfl
    | cons c rest =>
      obtain ⟨b, -, hb⟩ := trimEnd_append (trimStart t)
      have hc := List.head?_dropWhile_not isBlank t
      rw [← trimStart, hb, ← trim, h] at hc
      rw [trimStart, List.dropWhile_cons_of_neg (by simpa using hc)]
  rw [trim, hstart, trim, trimEnd_trimEnd]

end Text

theorem mem_declarations (h : d ∈ declarations style) : ';' ∉ d ∧ trim d = d ∧ d ≠ [] := by
  obtain ⟨hd, hne⟩ := List.mem_filter.1 h
  obtain ⟨piece, hp, rfl⟩ := List.mem_map.1 hd
  refine ⟨fun hm => ?_, trim_trim piece, by simpa using hne⟩
  exact (mem_of_mem_splitOn hp (mem_trim hm)).2 rfl

theorem declarations_join (h : ∀ d ∈ ds, ';' ∉ d ∧ trim d = d ∧ d ≠ []) :
    declarations (join [';'] ds) = ds := by
  by_cases hds : ds = []
  · rw [hds]
    decide
  · have hmap : ds.map trim = ds := by
      conv_rhs => rw [← List.map_id ds]
      exact List.map_congr_left fun d hd => (h d hd).2.1
    rw [declarations, join, List.splitOn_intercalate ';' (fun d hd => (h d hd).1) hds, hmap,
      List.filter_eq_self]
    intro d hd
    simpa using (h d hd).2.2

theorem declarations_cleanStyle (style : Text) :
    declarations (cleanStyle style) = (declarations style).filter (!hides ·) :=
  declarations_join fun _ h => mem_declarations (List.mem_filter.1 h).1

theorem cleanStyle_cleanStyle (style : Text) :
    cleanStyle (cleanStyle style) = cleanStyle style := by
  rw [cleanStyle, declarations_cleanStyle, List.filter_filter, cleanStyle]
  simp only [Bool.and_self]

namespace Attribute

/-- Whether an attribute hides its element as a whole. A value that cannot be resolved counts as
empty. -/
def Hides (a : Attribute) : Prop :=
  a.key = "display" ∧ trim (a.value?.getD []) = "none" ∨
    a.key = "visibility" ∧ trim (a.value?.getD []) ≠ "visible"

instance (a : Attribute) : Decidable a.Hides := inferInstanceAs (Decidable (_ ∨ _))

variable {a b : Attribute}

theorem not_hides_of_style (h : a.key = "style") : ¬ a.Hides := by
  rintro (⟨hkey, -⟩ | ⟨hkey, -⟩)
  · exact absurd (h.symm.trans hkey) (by decide)
  · exact absurd (h.symm.trans hkey) (by decide)

theorem reveal?_of_hides (h : a.Hides) : reveal? a = none := by
  rcases h with ⟨hkey, hvalue⟩ | ⟨hkey, hvalue⟩
  · simp only [reveal?]
    rw [if_pos hkey, if_pos hvalue]
  · have hdisplay : a.key ≠ "display" := by
      rw [hkey]
      decide
    simp only [reveal?]
    rw [if_neg hdisplay, if_pos hkey, if_neg hvalue]

theorem reveal?_of_ne_style (h : a.key ≠ "style") (hshown : ¬ a.Hides) : reveal? a = some a := by
  simp only [Hides, not_or, not_and, not_not] at hshown
  simp only [reveal?]
  split
  · next hkey => exact if_neg (hshown.1 hkey)
  split
  · next hkey => exact if_pos (hshown.2 hkey)
  · rfl

theorem reveal?_style (h : a.key = "style") : reveal? a =
    if cleanStyle (a.value?.getD []) = [] then none
    else some ⟨a.key, Entity.escape (cleanStyle (a.value?.getD []))⟩ := by
  have hdisplay : a.key ≠ "display" := by
    rw [h]
    decide
  have hvisibility : a.key ≠ "visibility" := by
    rw [h]
    decide
  simp only [reveal?]
  rw [if_neg hdisplay, if_neg hvisibility, if_pos h]
  split
  · next hnil => exact (if_pos hnil).symm
  · next hne => exact (if_neg hne).symm

/-- An attribute that is left stands as it stood, or is a style with what is left of it. -/
theorem reveal?_eq_some (h : reveal? a = some b) :
    (a.key ≠ "style" ∧ ¬ a.Hides ∧ b = a) ∨
      (a.key = "style" ∧ cleanStyle (a.value?.getD []) ≠ [] ∧
        b = ⟨a.key, Entity.escape (cleanStyle (a.value?.getD []))⟩) := by
  by_cases hstyle : a.key = "style"
  · rw [reveal?_style hstyle] at h
    split at h
    · cases h
    · next hclean => exact .inr ⟨hstyle, hclean, (Option.some.inj h).symm⟩
  · by_cases hhides : a.Hides
    · rw [reveal?_of_hides hhides] at h
      cases h
    · rw [reveal?_of_ne_style hstyle hhides] at h
      exact .inl ⟨hstyle, hhides, (Option.some.inj h).symm⟩

theorem key_of_reveal (h : reveal? a = some b) : b.key = a.key := by
  rcases reveal?_eq_some h with ⟨-, -, rfl⟩ | ⟨-, -, rfl⟩
  · rfl
  · rfl

theorem not_hides_of_reveal (h : reveal? a = some b) : ¬ b.Hides := by
  rcases reveal?_eq_some h with ⟨-, hshown, rfl⟩ | ⟨hstyle, -, rfl⟩
  · exact hshown
  · exact not_hides_of_style hstyle

theorem reveal?_other (h : a.key ∉ (["display", "visibility", "style"] : List Text)) :
    reveal? a = some a := by
  simp only [List.mem_cons, List.not_mem_nil, or_false, not_or] at h
  apply reveal?_of_ne_style h.2.2
  rintro (⟨hkey, -⟩ | ⟨hkey, -⟩)
  · exact h.1 hkey
  · exact h.2.1 hkey

theorem reveal?_reveal (h : reveal? a = some b) : reveal? b = some b := by
  rcases reveal?_eq_some h with ⟨-, -, rfl⟩ | ⟨hstyle, hclean, hb⟩
  · exact h
  · have hkey : b.key = "style" := by rw [hb, hstyle]
    have hvalue : b.value?.getD [] = cleanStyle (a.value?.getD []) := by
      rw [hb, value?, Entity.unescape?_escape, Option.getD_some]
    rw [reveal?_style hkey, hvalue, cleanStyle_cleanStyle, if_neg hclean, hb]

theorem quote_not_mem_of_style (h : reveal? a = some b) (hb : b.key = "style") : '"' ∉ b.raw := by
  rcases reveal?_eq_some h with ⟨hstyle, -, rfl⟩ | ⟨-, -, rfl⟩
  · exact (hstyle hb).elim
  · exact Entity.quote_not_mem_escape _

end Attribute
end CutPath
