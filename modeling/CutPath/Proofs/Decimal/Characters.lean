import CutPath.Decimal.Format

namespace CutPath.Decimal
set_option autoImplicit true

def isNumberChar (c : Char) : Bool := c.isDigit || "+-.eNainf".toList.contains c

theorem isNumberChar_of_mem_toDigits (hc : c ∈ Nat.toDigits 10 n) : isNumberChar c = true := by
  rw [isNumberChar, Nat.isDigit_of_mem_toDigits (by omega) (by omega) hc, Bool.true_or]

theorem dropTrailingZeros_sublist (t : Text) : (dropTrailingZeros t).Sublist t := by
  have h := (List.dropWhile_sublist (· == '0') (l := t.reverse)).reverse
  rwa [List.reverse_reverse] at h

theorem all_shortest (tie : Tie) (m : Nat) (q : Int) :
    ∀ c ∈ (shortest tie m q).digits, isNumberChar c = true := by
  intro c hc
  exact isNumberChar_of_mem_toDigits ((dropTrailingZeros_sublist _).subset hc)

namespace Format

theorem all_zeros (n : Nat) : ∀ c ∈ zeros n, isNumberChar c = true := by
  intro c hc
  rw [(List.mem_replicate.1 hc).2]
  decide

theorem all_point (f : Format) : ∀ c ∈ f.point, isNumberChar c = true := by
  unfold point
  split
  · simpa using List.all_eq_true.1 (by decide : ".0".toList.all isNumberChar = true)
  · simp

theorem all_writePlain (f : Format) (hd : ∀ c ∈ d.digits, isNumberChar c = true) :
    ∀ c ∈ f.writePlain d, isNumberChar c = true := by
  intro c hc
  unfold writePlain at hc
  split at hc
  · simp only [List.mem_append] at hc
    rcases hc with (hc | hc) | hc
    · exact List.all_eq_true.1 (by decide : "0.".toList.all isNumberChar = true) c hc
    · exact all_zeros _ c hc
    · exact hd c hc
  · dsimp only at hc
    split at hc
    · simp only [List.mem_append] at hc
      rcases hc with (hc | hc) | hc
      · exact hd c hc
      · exact all_zeros _ c hc
      · exact all_point f c hc
    · simp only [List.mem_append, List.mem_singleton] at hc
      rcases hc with (hc | rfl) | hc
      · exact hd c (List.mem_of_mem_take hc)
      · decide
      · exact hd c (List.mem_of_mem_drop hc)

theorem all_writeExponent (f : Format) (hd : ∀ c ∈ d.digits, isNumberChar c = true) :
    ∀ c ∈ f.writeExponent d, isNumberChar c = true := by
  intro c hc
  simp only [writeExponent, List.mem_append, List.mem_singleton] at hc
  rcases hc with ((hc | rfl) | hc) | hc
  · split at hc
    · cases hc
    · next he => exact hd c (he ▸ hc)
    · next he =>
      rw [he] at hd
      rcases List.mem_cons.1 hc with rfl | hc
      · exact hd c List.mem_cons_self
      · rcases List.mem_cons.1 hc with rfl | hc
        · decide
        · exact hd c (List.mem_cons_of_mem _ hc)
  · decide
  · split at hc
    · rw [List.mem_singleton.1 hc]
      decide
    · split at hc
      · rw [List.mem_singleton.1 hc]
        decide
      · cases hc
  · exact isNumberChar_of_mem_toDigits hc

theorem all_sign (negative : Bool) : ∀ c ∈ sign negative, isNumberChar c = true := by
  intro c hc
  cases negative with
  | false => cases hc
  | true =>
    rw [List.mem_singleton.1 hc]
    decide

theorem all_nan : ∀ c ∈ "NaN".toList, isNumberChar c = true := List.all_eq_true.1 (by decide)

theorem all_infinite (negative : Bool) :
    ∀ c ∈ sign negative ++ "inf".toList, isNumberChar c = true := by
  intro c hc
  rcases List.mem_append.1 hc with hc | hc
  · exact all_sign negative c hc
  · exact List.all_eq_true.1 (by decide : "inf".toList.all isNumberChar = true) c hc

/-- Every number is written in characters of numbers only, whatever it is and in every layout. -/
theorem all_write (f : Format) (x : Binary64) : ∀ c ∈ f.write x, isNumberChar c = true := by
  intro c hc
  cases x with
  | nan => exact all_nan c hc
  | infinite negative => exact all_infinite negative c hc
  | finite negative m q =>
    rcases List.mem_append.1 hc with hc | hc
    · exact all_sign negative c hc
    split at hc
    · rcases List.mem_cons.1 hc with rfl | hc
      · decide
      · exact all_point f c hc
    dsimp only at hc
    split at hc
    · exact all_writePlain f (all_shortest _ _ _) c hc
    · exact all_writeExponent f (all_shortest _ _ _) c hc

end Format

theorem all_writeHundredths (x : Binary64) : ∀ c ∈ writeHundredths x, isNumberChar c = true := by
  intro c hc
  cases x with
  | nan => exact Format.all_nan c hc
  | infinite negative => exact Format.all_infinite negative c hc
  | finite negative m q =>
    simp only [writeHundredths, List.mem_append, List.mem_singleton] at hc
    rcases hc with (((hc | hc) | rfl) | hc) | hc
    · exact Format.all_sign negative c hc
    · exact isNumberChar_of_mem_toDigits hc
    · decide
    · exact Format.all_zeros _ c hc
    · exact isNumberChar_of_mem_toDigits hc

end CutPath.Decimal
