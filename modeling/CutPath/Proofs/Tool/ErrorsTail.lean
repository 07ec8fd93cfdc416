import CutPath.Proofs.Text.Boundaries
import CutPath.Tool

namespace CutPath.Tool
open Text Text.Utf8
set_option autoImplicit true

theorem prefix_takeBytes (h : p <+: t) (hp : size p ≤ room) : p <+: takeBytes room t := by
  induction t generalizing p room with
  | nil => rwa [takeBytes]
  | cons c t ih =>
    cases p with
    | nil => exact List.nil_prefix
    | cons d p =>
      obtain ⟨rfl, hpt⟩ := List.cons_prefix_cons.1 h
      rw [size_cons] at hp
      have hfits : (encodeChar d).length ≤ room := Nat.le_of_add_right_le hp
      rw [takeBytes, if_pos hfits, List.cons_prefix_cons]
      exact ⟨rfl, ih hpt (by omega)⟩

theorem suffix_tail (h : s <:+ trim t) (hs : size s ≤ tailBytes) : s <:+ tail t := by
  rw [tail, ← List.reverse_prefix, List.reverse_reverse]
  apply prefix_takeBytes (List.reverse_prefix.2 h)
  rwa [size_reverse]

theorem length_encodeChar_le (c : Char) : (encodeChar c).length ≤ 4 := by
  obtain ⟨b, rest, he, -, -, hrest⟩ := encodeChar_eq c
  rw [he, List.length_cons]
  omega

theorem length_encodeChar_pos (c : Char) : 0 < (encodeChar c).length := by
  obtain ⟨b, rest, he, -⟩ := encodeChar_eq c
  rw [he]
  exact Nat.succ_pos _

theorem eq_nil_of_size_eq_zero (h : size t = 0) : t = [] := by
  cases t with
  | nil => rfl
  | cons c t =>
    have hc := length_encodeChar_pos c
    rw [size_cons] at h
    omega

theorem eq_of_suffix_of_size_le (h : s <:+ t) (hs : size t ≤ size s) : s = t := by
  obtain ⟨front, rfl⟩ := h
  rw [size_append] at hs
  rw [eq_nil_of_size_eq_zero (t := front) (by omega), List.nil_append]

/-- What is left out in front makes the tail too long, even if it is one character. -/
theorem le_size_tail (h : tailBytes ≤ size (trim t)) : tailBytes ≤ size (tail t) + 3 := by
  obtain ⟨front, hfront⟩ := tail_suffix t
  rcases List.eq_nil_or_concat front with rfl | ⟨front, c, rfl⟩
  · rw [List.nil_append] at hfront
    rw [hfront]
    omega
  · have hc := length_encodeChar_le c
    have hlong : tailBytes < size (c :: tail t) := by
      apply Nat.lt_of_not_le
      intro hfits
      have hs : c :: tail t <:+ trim t := ⟨front, by rw [← hfront]; simp⟩
      exact Nat.not_succ_le_self _ (suffix_tail hs hfits).length_le
    rw [size_cons] at hlong
    omega

theorem encode_tail (h : Seeks (encode (trim t)) ((encode (trim t)).length - tailBytes) stop) :
    encode (tail t) = (encode (trim t)).drop stop := by
  obtain ⟨hstop, hle, hfirst⟩ := h.first
  obtain ⟨front, s, hs, rfl⟩ := (isBoundary_encode_iff _ _).1 hstop
  obtain ⟨front', hfront'⟩ := tail_suffix t
  have hboundary : isBoundary (encode (trim t)) (encode front').length = true :=
    (isBoundary_encode_iff _ _).2 ⟨front', tail t, hfront'.symm, rfl⟩
  have hsize : size (trim t) = size front + size s := by rw [hs, size_append]
  have hsize' : size (trim t) = size front' + size (tail t) := by rw [← size_append, hfront']
  have hfits := size_tail_le t
  simp only [length_encode] at hle hfirst hboundary
  -- Each of the two ends fits, so the first boundary is not behind the other and `s` is the tail.
  have hfront := hfirst (size front') (by omega) hboundary
  have hsuffix : s <:+ tail t := suffix_tail ⟨front, hs.symm⟩ (by omega)
  rw [← eq_of_suffix_of_size_le hsuffix (by omega), hs, encode_append, List.drop_left]

/-- The tail of a text is the longest end of it, blanks at its ends aside, that has at most 400
bytes and starts with a whole character. -/
theorem tail_longest (t : Text) :
    tail t <:+ trim t ∧ (encode (tail t)).length ≤ 400 ∧
      (∀ s, s <:+ trim t → (encode s).length ≤ 400 → s <:+ tail t) ∧
      (400 ≤ (encode (trim t)).length → 397 ≤ (encode (tail t)).length) ∧
      ∃ stop, Seeks (encode (trim t)) ((encode (trim t)).length - 400) stop ∧
        stop ≤ (encode (trim t)).length ∧ encode (tail t) = (encode (trim t)).drop stop := by
  obtain ⟨stop, hs⟩ := exists_seeks (Nat.sub_le (encode (trim t)).length tailBytes)
  obtain ⟨-, -, hfirst⟩ := hs.first
  have hstop := hfirst _ (Nat.sub_le _ _) (isBoundary_length _)
  refine ⟨tail_suffix t, ?_, fun s hst hfits => ?_, fun hlong => ?_, stop, hs, hstop,
    encode_tail hs⟩
  · rw [length_encode]
    exact size_tail_le t
  · rw [length_encode] at hfits
    exact suffix_tail hst hfits
  · rw [length_encode] at hlong ⊢
    have hle := le_size_tail hlong
    rw [tailBytes] at hle
    omega

/-- A hundred characters of four bytes and a letter: one of them has to go. -/
example : (encode (tail (List.replicate 100 '😀' ++ ['a']))).length = 397 := by decide +kernel

end CutPath.Tool
