import CutPath.Text.Utf8

namespace CutPath.Text.Utf8
set_option autoImplicit true

/-- Whether a place among the bytes of a text is a character's start or the end of the bytes. -/
def isBoundary (bytes : Bytes) (i : Nat) : Bool :=
  match bytes[i]? with
  | some b => !isTail b
  | none => i == bytes.length

/-- The search for a boundary, one byte after the other. -/
inductive Seeks (bytes : Bytes) : (start stop : Nat) → Prop
  | here (h : isBoundary bytes i = true) : Seeks bytes i i
  | next (h : isBoundary bytes i = false) (hs : Seeks bytes (i + 1) stop) : Seeks bytes i stop

theorem encode_cons (c : Char) (t : Text) : encode (c :: t) = encodeChar c ++ encode t :=
  List.flatMap_cons

theorem encode_append (s t : Text) : encode (s ++ t) = encode s ++ encode t :=
  List.flatMap_append

theorem length_encode (t : Text) : (encode t).length = size t := by
  induction t with
  | nil => rfl
  | cons c t ih => rw [encode_cons, List.length_append, ih, size_cons]

theorem isTail_bits (n : Nat) : isTail (0x80 + n % 64).toUInt8 = true := by
  simp only [isTail, Bool.and_eq_true, decide_eq_true_eq, UInt8.le_iff_toNat_le]
  simp
  omega

theorem not_isTail (hn : n < 256) (h : n < 0x80 ∨ 0xBF < n) : isTail n.toUInt8 = false := by
  simp only [isTail, Bool.and_eq_false_iff, decide_eq_false_iff_not, UInt8.le_iff_toNat_le]
  simp
  omega

theorem encodeChar_eq (c : Char) : ∃ b rest, encodeChar c = b :: rest ∧ isTail b = false ∧
    (∀ b ∈ rest, isTail b = true) ∧ rest.length ≤ 3 := by
  have hc : c.toNat < 0x110000 := by
    have hvalid := c.valid
    simp only [UInt32.isValidChar, Nat.isValidChar] at hvalid
    change c.val.toNat < 0x110000
    omega
  have hone (n : Nat) : ∀ b ∈ [(0x80 + n % 64).toUInt8], isTail b = true := by
    intro b hb
    rw [List.mem_singleton.1 hb, isTail_bits]
  simp only [encodeChar]
  split
  · exact ⟨_, [], rfl, not_isTail (by omega) (by omega), by simp, by simp⟩
  split
  · exact ⟨_, [_], rfl, not_isTail (by omega) (by omega), hone _, by simp⟩
  split
  · refine ⟨_, [_, _], rfl, not_isTail (by omega) (by omega), ?_, by simp⟩
    exact List.forall_mem_cons.2 ⟨isTail_bits _, hone _⟩
  · refine ⟨_, [_, _, _], rfl, not_isTail (by omega) (by omega), ?_, by simp⟩
    exact List.forall_mem_cons.2 ⟨isTail_bits _, List.forall_mem_cons.2 ⟨isTail_bits _, hone _⟩⟩

theorem isBoundary_append (a b : Bytes) (i : Nat) :
    isBoundary (a ++ b) (a.length + i) = isBoundary b i := by
  rw [isBoundary, isBoundary, List.getElem?_append_right (Nat.le_add_right _ _),
    Nat.add_sub_cancel_left, List.length_append]
  cases b[i]? with
  | some byte => rfl
  | none =>
    change (a.length + i == a.length + b.length) = (i == b.length)
    rw [Bool.eq_iff_iff, beq_iff_eq, beq_iff_eq, Nat.add_right_inj]

theorem isBoundary_start (c : Char) (bytes : Bytes) :
    isBoundary (encodeChar c ++ bytes) 0 = true := by
  obtain ⟨b, rest, he, hb, -, -⟩ := encodeChar_eq c
  simp [isBoundary, he, hb]

theorem isBoundary_inside (h : i + 1 < (encodeChar c).length) (bytes : Bytes) :
    isBoundary (encodeChar c ++ bytes) (i + 1) = false := by
  obtain ⟨b, rest, he, -, hrest, -⟩ := encodeChar_eq c
  rw [he, List.length_cons, Nat.add_lt_add_iff_right] at h
  rw [isBoundary, he, List.cons_append, List.getElem?_cons_succ, List.getElem?_append_left h,
    List.getElem?_eq_getElem h]
  simp [hrest _ (List.getElem_mem h)]

/-- The boundaries of a text are the ends of its first characters. -/
theorem isBoundary_encode_iff (t : Text) (i : Nat) :
    isBoundary (encode t) i = true ↔ ∃ a b, t = a ++ b ∧ (encode a).length = i := by
  induction t generalizing i with
  | nil =>
    constructor
    · intro h
      exact ⟨[], [], rfl, (beq_iff_eq.1 h).symm⟩
    · rintro ⟨a, b, hab, rfl⟩
      obtain ⟨rfl, rfl⟩ := List.append_eq_nil_iff.1 hab.symm
      rfl
  | cons c t ih =>
    rw [encode_cons]
    constructor
    · intro h
      cases i with
      | zero => exact ⟨[], c :: t, rfl, rfl⟩
      | succ i =>
        rcases Nat.lt_or_ge (i + 1) (encodeChar c).length with hlt | hge
        · rw [isBoundary_inside hlt] at h
          cases h
        · obtain ⟨j, hj⟩ := Nat.exists_eq_add_of_le hge
          rw [hj, isBoundary_append, ih] at h
          obtain ⟨a, b, rfl, ha⟩ := h
          exact ⟨c :: a, b, rfl, by rw [encode_cons, List.length_append, ha, hj]⟩
    · rintro ⟨a, b, hab, rfl⟩
      cases a with
      | nil => exact isBoundary_start c (encode t)
      | cons d a =>
        obtain ⟨rfl, rfl⟩ := List.cons.inj hab
        rw [encode_cons, List.length_append, isBoundary_append, ih]
        exact ⟨a, b, rfl, rfl⟩

theorem Seeks.first (h : Seeks bytes start stop) : isBoundary bytes stop = true ∧ start ≤ stop ∧
    ∀ i, start ≤ i → isBoundary bytes i = true → stop ≤ i := by
  induction h with
  | here h => exact ⟨h, Nat.le_refl _, fun i hi _ => hi⟩
  | @next start stop h hs ih =>
    obtain ⟨hstop, hle, hfirst⟩ := ih
    refine ⟨hstop, Nat.le_of_succ_le hle, fun i hi hb => hfirst i ?_ hb⟩
    rcases Nat.eq_or_lt_of_le hi with rfl | hlt
    · rw [h] at hb
      cases hb
    · exact hlt

theorem isBoundary_length (bytes : Bytes) : isBoundary bytes bytes.length = true := by
  simp [isBoundary]

theorem exists_seeks (h : start ≤ bytes.length) : ∃ stop, Seeks bytes start stop := by
  obtain ⟨n, hn⟩ := Nat.exists_eq_add_of_le h
  induction n generalizing start with
  | zero =>
    have he : start = bytes.length := hn.symm
    exact ⟨start, .here (he ▸ isBoundary_length bytes)⟩
  | succ n ih =>
    cases hb : isBoundary bytes start with
    | true => exact ⟨start, .here hb⟩
    | false =>
      have hnext : start + 1 ≤ bytes.length := by omega
      obtain ⟨stop, hs⟩ := ih hnext (by omega)
      exact ⟨stop, .next hb hs⟩

end CutPath.Text.Utf8
