import Mathlib.Data.Nat.Digits.Defs
import CutPath.Proofs.Path.Pieces
import CutPath.Proofs.Store.Temporaries

namespace CutPath
open Text
set_option autoImplicit true

namespace Store

theorem bind_eq_ok {x : Except ε α} {f : α → Except ε β} :
    (x >>= f) = .ok b ↔ ∃ a, x = .ok a ∧ f a = .ok b := by
  cases x with
  | error e =>
    constructor
    · rintro ⟨⟩
    · rintro ⟨a, ⟨⟩, -⟩
  | ok a =>
    constructor
    · exact fun h => ⟨a, rfl, h⟩
    · rintro ⟨a', ⟨⟩, h⟩
      exact h

variable {s : Store} {k l m : Location} {p : Path}

theorem ne_nil_of_lookup (hk : s.lookup k ≠ some .directory) : k ≠ [] := by
  rintro rfl
  exact hk (lookup_nil s)

theorem lookup_put_of_directory (hk : s.lookup k ≠ some .directory)
    (h : s.lookup l = some .directory) (e : Entry) :
    (s.put k e).lookup l = some .directory := by
  have hl : l ≠ k := by
    rintro rfl
    exact hk h
  rw [lookup_put s (ne_nil_of_lookup hk), if_neg hl, h]

theorem isSome_lookup_put (hk : k ≠ []) (h : (s.lookup l).isSome = true) (e : Entry) :
    ((s.put k e).lookup l).isSome = true := by
  rw [lookup_put s hk]
  split
  · rfl
  · exact h

/-- Where a path leads, it leads still when something is put where no directory was. -/
theorem follow_put (hk : s.lookup k ≠ some .directory) (h : s.follow l piece = .ok m)
    (e : Entry) : (s.put k e).follow l piece = .ok m := by
  unfold follow at h ⊢
  cases he : s.lookup l with
  | none =>
    rw [he] at h
    cases h
  | some entry =>
    rw [he] at h
    cases entry with
    | file bytes => cases h
    | directory =>
      rw [lookup_put_of_directory hk he]
      dsimp only at h ⊢
      split_ifs at h with hidle hdots hlong hthere
      · rw [if_pos hidle, h]
      · rw [if_neg hidle, if_pos hdots, h]
      · rw [if_neg hidle, if_neg hdots, if_neg hlong,
          isSome_lookup_put (ne_nil_of_lookup hk) hthere, if_pos rfl, h]

theorem foldlM_follow_put {pieces : List Text} (hk : s.lookup k ≠ some .directory)
    (h : pieces.foldlM s.follow l = .ok m) (e : Entry) :
    pieces.foldlM (s.put k e).follow l = .ok m := by
  induction pieces generalizing l with
  | nil => exact h
  | cons piece pieces ih =>
    rw [List.foldlM_cons] at h ⊢
    obtain ⟨n, hpiece, hpieces⟩ := bind_eq_ok.1 h
    exact bind_eq_ok.2 ⟨n, follow_put hk hpiece e, ih hpieces⟩

/-- A piece that can be the name of an entry. -/
structure IsName (name : Text) : Prop where
  leads : Path.isIdle name = false
  forward : name ≠ ['.', '.']
  short : Utf8.size name ≤ maxName

theorem follow_of_idle (hidle : Path.isIdle piece = true) (h : s.follow l piece = .ok m) :
    m = l ∧ s.lookup l = some .directory := by
  unfold follow at h
  split at h
  · cases h
  · cases h
  · next hl =>
    rw [if_pos hidle] at h
    exact ⟨(Except.ok.inj h).symm, hl⟩

theorem locate_eq_ok : s.locate p = .ok l ↔
    admits p = .ok () ∧ p.pieces.foldlM s.follow (s.start p) = .ok l := by
  rw [locate, bind_eq_ok]
  constructor
  · rintro ⟨⟨⟩, hadmits, h⟩
    exact ⟨hadmits, h⟩
  · exact fun ⟨hadmits, h⟩ => ⟨⟨⟩, hadmits, h⟩

theorem read_of_locate (hl : s.locate p = .ok l) (hb : s.readAt l = .ok bytes) :
    s.read p = .ok bytes := bind_eq_ok.2 ⟨l, hl, hb⟩

theorem directory_eq_ok (h : s.directory p = .ok l) :
    s.locate p = .ok l ∧ s.lookup l = some .directory := by
  obtain ⟨⟨m, entry⟩, hfind, h⟩ := bind_eq_ok.1 h
  obtain ⟨n, hlocate, hentry⟩ := bind_eq_ok.1 hfind
  cases entry with
  | file bytes => cases h
  | directory =>
    cases h
    cases he : s.lookup n with
    | none =>
      rw [he] at hentry
      cases hentry
    | some entry =>
      rw [he] at hentry
      cases hentry
      exact ⟨hlocate, he⟩

theorem text_ne_nil_of_directory (h : s.directory p = .ok l) : p.text ≠ [] := by
  intro hnil
  obtain ⟨hadmits, -⟩ := locate_eq_ok.1 (directory_eq_ok h).1
  simp [admits, hnil] at hadmits

theorem foldlM_concat_eq_ok {f : α → β → Except ε α} {xs : List β} :
    (xs ++ [x]).foldlM f a = .ok c ↔ ∃ b, xs.foldlM f a = .ok b ∧ f b x = .ok c := by
  simp only [List.foldlM_append, bind_eq_ok, List.foldlM_cons, List.foldlM_nil, bind_pure]

theorem locate_put (hadmits : admits p = .ok ()) (hpieces : p.pieces = dir ++ [name])
    (hreach : dir.foldlM s.follow (s.start p) = .ok l) (hl : s.lookup l = some .directory)
    (hname : IsName name) (hfree : s.lookup (l ++ [name]) ≠ some .directory) (e : Entry) :
    (s.put (l ++ [name]) e).locate p = .ok (l ++ [name]) := by
  have hstep : (s.put (l ++ [name]) e).follow l name = .ok (l ++ [name]) := by
    unfold follow
    rw [lookup_put_of_directory hfree hl, lookup_put s (ne_nil_of_lookup hfree)]
    simp [hname.leads, hname.forward, Nat.not_lt.2 hname.short]
  rw [locate_eq_ok, hpieces, foldlM_concat_eq_ok]
  exact ⟨hadmits, l, foldlM_follow_put hfree hreach e, hstep⟩

theorem locate_put_join_name (hname : IsName name) (hwhole : '/' ∉ name)
    (hdirectory : s.directory p = .ok l) (hadmits : admits (p.join ⟨name⟩) = .ok ())
    (hvacant : s.lookup (l ++ [name]) = none) (e : Entry) :
    (s.put (l ++ [name]) e).locate (p.join ⟨name⟩) = .ok (l ++ [name]) := by
  obtain ⟨hlocate, hl⟩ := directory_eq_ok hdirectory
  obtain ⟨-, hfollow⟩ := locate_eq_ok.1 hlocate
  have hne := text_ne_nil_of_directory hdirectory
  obtain ⟨dir, hpieces, hdir⟩ := Path.pieces_join_name hne hwhole
  have hstart : s.start (p.join ⟨name⟩) = s.start p := by
    rw [start, Path.isRooted_join_name hne hwhole]
    rfl
  have hfree : s.lookup (l ++ [name]) ≠ some .directory := by
    rw [hvacant]
    rintro ⟨⟩
  refine locate_put hadmits hpieces ?_ hl hname hfree e
  rw [hstart]
  rcases hdir with hdir | hdir
  · rw [← hdir, hfollow]
  · rw [hdir, foldlM_concat_eq_ok] at hfollow
    obtain ⟨n, hn, hlast⟩ := hfollow
    rw [hn, (follow_of_idle rfl hlast).1]

theorem dropSlashes_eq (h : dropSlashes pieces = (false, kept)) : kept = pieces := by
  obtain ⟨hlength, rfl⟩ := Prod.mk.inj h
  have hsuffix := List.dropWhile_suffix (l := pieces.reverse) (·.isEmpty)
  rw [decide_eq_false_iff_not, Nat.not_lt, List.length_reverse] at hlength
  rw [hsuffix.eq_of_length_le (List.length_reverse.trans_le hlength), List.reverse_reverse]

theorem target_eq_ok (h : s.target p = .ok l) :
    ∃ dir name m, admits p = .ok () ∧ p.pieces = dir ++ [name] ∧ l = m ++ [name] ∧
      dir.foldlM s.follow (s.start p) = .ok m ∧ s.lookup m = some .directory ∧ IsName name ∧
      s.lookup l ≠ some .directory := by
  obtain ⟨⟨⟩, hadmits, h⟩ := bind_eq_ok.1 h
  cases hdrop : dropSlashes p.pieces with
  | mk slashes kept =>
    rw [hdrop] at h
    obtain ⟨m, hm, h⟩ := bind_eq_ok.1 h
    cases hname : kept.getLast? with
    | none =>
      rw [hname] at h
      cases h
    | some name =>
      rw [hname] at h
      dsimp only at h
      split_ifs at h with hbusy hlong hslashes hfree
      cases h
      obtain ⟨n, hn, hlast⟩ := foldlM_concat_eq_ok.1 hm
      obtain ⟨rfl, hl⟩ := follow_of_idle rfl hlast
      obtain ⟨dir, rfl⟩ := List.getLast?_eq_some_iff.1 hname
      rw [List.dropLast_concat] at hn
      rw [Bool.or_eq_true, decide_eq_true_eq, not_or, Bool.not_eq_true] at hbusy
      rw [Bool.eq_false_iff.2 hslashes] at hdrop
      exact ⟨dir, name, m, hadmits, (dropSlashes_eq hdrop).symm, rfl, hn, hl,
        ⟨hbusy.1, hbusy.2, Nat.not_lt.1 hlong⟩, hfree⟩

theorem read_put_target (h : s.target p = .ok l) (bytes : Bytes) :
    (s.put l (.file bytes)).read p = .ok bytes := by
  obtain ⟨dir, name, m, hadmits, hpieces, rfl, hreach, hm, hname, hfree⟩ := target_eq_ok h
  exact read_of_locate (locate_put hadmits hpieces hreach hm hname hfree _)
    (s.readAt_put (ne_nil_of_lookup hfree) bytes)

def number (n : Nat) : Text := List.replicate (6 - (ofNat n).length) '0' ++ ofNat n

theorem temporaryName_eq (before after : Text) (n : Nat) :
    temporaryName before after n = before ++ number n ++ after := by
  simp only [temporaryName, number, List.append_assoc]

theorem isDigit_of_mem_number (hc : c ∈ number n) : c.isDigit = true := by
  rw [number, List.mem_append] at hc
  rcases hc with hc | hc
  · rw [List.eq_of_mem_replicate hc]
    rfl
  · exact Nat.isDigit_of_mem_toDigits (by omega) (by omega) hc

theorem length_number (hn : n < 10 ^ 6) : (number n).length = 6 := by
  have h : (ofNat n).length ≤ 6 := Nat.toDigits_length 10 n 6 (by omega) hn
  rw [number, List.length_append, List.length_replicate]
  omega

theorem size_number (hn : n < 10 ^ 6) : Utf8.size (number n) = 6 := by
  have hsize : ∀ t : Text, (∀ c ∈ t, c.isDigit = true) → Utf8.size t = t.length := by
    intro t ht
    induction t with
    | nil => rfl
    | cons c t ih =>
      have hc : c.toNat < 0x80 :=
        Nat.lt_of_le_of_lt (Char.isDigit_iff_toNat.1 (ht c List.mem_cons_self)).2 (by decide)
      rw [Utf8.size_cons, ih fun d hd => ht d (List.mem_cons_of_mem c hd), Utf8.encodeChar,
        if_pos hc, List.length_singleton, List.length_cons, Nat.add_comm]
  rw [hsize _ fun c => isDigit_of_mem_number, length_number hn]

/-- What can stand around the number in the name of a temporary entry. -/
structure Affixes (before after : Text) : Prop where
  whole : '/' ∉ before ∧ '/' ∉ after
  short : Utf8.size before + 6 + Utf8.size after ≤ maxName

theorem Affixes.not_mem (h : Affixes before after) (n : Nat) :
    '/' ∉ temporaryName before after n := by
  rw [temporaryName_eq, List.mem_append, List.mem_append]
  rintro ((hslash | hslash) | hslash)
  · exact h.whole.1 hslash
  · cases isDigit_of_mem_number hslash
  · exact h.whole.2 hslash

theorem Affixes.isName (h : Affixes before after) (hn : n < 10 ^ 6) :
    IsName (temporaryName before after n) := by
  have hlength : 6 ≤ (temporaryName before after n).length := by
    rw [temporaryName_eq, List.length_append, List.length_append, length_number hn]
    omega
  have hother {name : Text} (hname : name.length < 6) : temporaryName before after n ≠ name := by
    intro he
    rw [he] at hlength
    omega
  refine ⟨?_, hother (by decide), ?_⟩
  · rw [Path.isIdle, Bool.or_eq_false_iff, beq_eq_false_iff_ne, beq_eq_false_iff_ne]
    exact ⟨hother (by decide), hother (by decide)⟩
  · rw [temporaryName_eq, Utf8.size_append, Utf8.size_append, size_number hn]
    exact h.short

theorem admits_join_temporaryName (hp : p.text ≠ []) (h : Affixes before after)
    (hn : n < 10 ^ 6) : admits (p.join ⟨temporaryName before after n⟩) =
      admits (p.join ⟨temporaryName before after 0⟩) := by
  have hnull (n : Nat) : (number n).contains '\x00' = false := by
    rw [List.contains_eq_mem, decide_eq_false_iff_not]
    intro hmem
    cases isDigit_of_mem_number hmem
  have hzero : 0 < 10 ^ 6 := by decide
  have hempty {n : Nat} (hn : n < 10 ^ 6) : (p.slashed ++ (before ++ number n ++ after)).isEmpty =
      false := by
    rw [List.isEmpty_eq_false_iff]
    intro hnil
    have hlength := congrArg List.length hnil
    simp only [List.length_append, length_number hn, List.length_nil] at hlength
    omega
  have htext {n : Nat} (hn : n < 10 ^ 6) : (p.join ⟨temporaryName before after n⟩).text =
      p.slashed ++ (before ++ number n ++ after) := by
    rw [Path.text_join_name hp (h.not_mem n), temporaryName_eq]
  unfold admits
  simp only [htext hn, htext hzero, hempty hn, hempty hzero, List.contains_append, hnull,
    Utf8.size_append, size_number hn, size_number hzero]

end Store
end CutPath
