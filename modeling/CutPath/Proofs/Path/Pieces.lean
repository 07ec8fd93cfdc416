import Mathlib.Data.List.DropRight
import CutPath.Path
import CutPath.Proofs.Text.Words

namespace CutPath.Path
open Text
set_option autoImplicit true

variable {p : Path} {name : Text}

def slashed (p : Path) : Text := if p.text.getLast? = some '/' then p.text else p.text ++ ['/']

theorem text_join_name (hp : p.text ≠ []) (hname : '/' ∉ name) :
    (p.join ⟨name⟩).text = p.slashed ++ name := by
  have hrooted : isRooted ⟨name⟩ = false := by
    rw [isRooted, beq_eq_false_iff_ne]
    exact fun h => hname (List.mem_of_head? h)
  have hempty : p.text.isEmpty = false := List.isEmpty_eq_false_iff.2 hp
  unfold join slashed
  rw [hrooted, hempty, Bool.or_self, if_neg Bool.false_ne_true]
  split
  · rfl
  · rfl

theorem isRooted_join_name (hp : p.text ≠ []) (hname : '/' ∉ name) :
    (p.join ⟨name⟩).isRooted = p.isRooted := by
  obtain ⟨c, t, ht⟩ := List.exists_cons_of_ne_nil hp
  rw [isRooted, isRooted, text_join_name hp hname, slashed, ht]
  split
  · rfl
  · rfl

/-- A name behind a path is its last piece; a slash at the end of the path makes no difference. -/
theorem pieces_join_name (hp : p.text ≠ []) (hname : '/' ∉ name) :
    ∃ dir, (p.join ⟨name⟩).pieces = dir ++ [name] ∧ (p.pieces = dir ∨ p.pieces = dir ++ [[]]) := by
  have hsplit (t : Text) : (t ++ '/' :: name).splitOn '/' = t.splitOn '/' ++ [name] := by
    rw [List.splitOn_append_cons_self, List.splitOn_eq_singleton hname]
  unfold pieces
  rw [text_join_name hp hname, slashed]
  split
  · next hslash =>
    obtain ⟨t, ht⟩ := List.getLast?_eq_some_iff.1 hslash
    refine ⟨t.splitOn '/', ?_, .inr ?_⟩
    · rw [ht, List.append_assoc, List.singleton_append, hsplit]
    · rw [ht, List.splitOn_append_cons_self, List.splitOn_nil]
  · exact ⟨_, by rw [List.append_assoc, List.singleton_append, hsplit], .inl rfl⟩

theorem not_mem_of_mem_pieces (h : piece ∈ p.pieces) : '/' ∉ piece :=
  fun hslash => (mem_of_mem_splitOn h hslash).2 rfl

/-- A piece that a file can be called by. -/
structure IsFileName (name : Text) : Prop where
  leads : isIdle name = false
  forward : name ≠ ['.', '.']
  whole : '/' ∉ name

theorem IsFileName.ne_nil (h : IsFileName name) : name ≠ [] := by
  rintro rfl
  cases h.leads

theorem IsFileName.ne_dot (h : IsFileName name) : name ≠ ['.'] := by
  rintro rfl
  cases h.leads

theorem dropIdle_dropIdle (pieces : List Text) : dropIdle (dropIdle pieces) = dropIdle pieces := by
  rw [dropIdle, dropIdle, List.reverse_reverse, List.dropWhile_idempotent]

theorem exists_idle (pieces : List Text) :
    ∃ idle, pieces = dropIdle pieces ++ idle ∧ ∀ piece ∈ idle, isIdle piece = true := by
  refine ⟨(pieces.reverse.takeWhile isIdle).reverse, ?_, ?_⟩
  · rw [dropIdle, ← List.reverse_append, List.takeWhile_append_dropWhile, List.reverse_reverse]
  · intro piece hpiece
    exact List.mem_takeWhile_imp (List.mem_reverse.1 hpiece)

theorem dropIdle_of_idle {idle : List Text} (hidle : ∀ piece ∈ idle, isIdle piece = true) :
    dropIdle idle = [] := by
  rw [dropIdle, List.reverse_eq_nil_iff, List.dropWhile_eq_nil_iff]
  intro piece hpiece
  exact hidle piece (List.mem_reverse.1 hpiece)

theorem dropIdle_append {idle : List Text} (hname : isIdle name = false)
    (hidle : ∀ piece ∈ idle, isIdle piece = true) (pieces : List Text) :
    dropIdle (pieces ++ name :: idle) = pieces ++ [name] := by
  have hall : ∀ piece ∈ idle.reverse, isIdle piece = true := by
    intro piece hpiece
    exact hidle piece (List.mem_reverse.1 hpiece)
  have hkeep : ¬ isIdle name = true := by
    rw [hname]
    exact Bool.false_ne_true
  rw [dropIdle, List.reverse_append, List.reverse_cons, List.append_assoc,
    List.dropWhile_append_of_pos hall, List.singleton_append, List.dropWhile_cons_of_neg hkeep,
    List.reverse_cons, List.reverse_reverse]

theorem isIdle_of_getLast?_dropIdle {pieces : List Text}
    (h : (dropIdle pieces).getLast? = some piece) : isIdle piece = false := by
  rw [dropIdle, List.getLast?_reverse] at h
  have hhead := List.head?_dropWhile_not isIdle pieces.reverse
  rw [h] at hhead
  simpa using hhead

theorem pieces_eq_cons (p : Path) : p.pieces = p.head :: p.pieces.drop 1 := by
  obtain ⟨first, rest, h⟩ := List.exists_cons_of_ne_nil (List.splitOn_ne_nil '/' p.text)
  rw [head, pieces, h]
  rfl

theorem exists_pieces (h : p.fileName? = some name) :
    ∃ dir idle, p.pieces = dir ++ name :: idle ∧ (∀ piece ∈ idle, isIdle piece = true) ∧
      IsFileName name := by
  obtain ⟨hlast, hdots⟩ := Option.filter_eq_some_iff.1 h
  rw [Bool.and_eq_true, bne_iff_ne, bne_iff_ne] at hdots
  obtain ⟨idle, hidle, hall⟩ := exists_idle (p.pieces.drop 1)
  have hpieces := p.pieces_eq_cons
  rw [hidle] at hpieces
  have hwhole : name ∈ p.pieces → '/' ∉ name := not_mem_of_mem_pieces
  rw [last?] at hlast
  split at hlast
  · next last htail =>
    obtain rfl := Option.some.inj hlast
    obtain ⟨dir, hdir⟩ := List.getLast?_eq_some_iff.1 htail
    have hsplit : p.pieces = (p.head :: dir) ++ last :: idle := by
      rw [hpieces, ← tail, hdir, List.append_assoc, List.singleton_append, List.cons_append]
    exact ⟨_, idle, hsplit, hall, isIdle_of_getLast?_dropIdle htail, hdots.2,
      hwhole (by rw [hsplit]; simp)⟩
  · next htail =>
    split at hlast
    · cases hlast
    · next hhead =>
      obtain rfl := Option.some.inj hlast
      have hsplit : p.pieces = [] ++ p.head :: idle := by
        rw [hpieces, ← tail, List.getLast?_eq_none_iff.1 htail]
        rfl
      have hleads : isIdle p.head = false := by
        rw [isIdle, Bool.or_eq_false_iff, beq_eq_false_iff_ne, beq_eq_false_iff_ne]
        exact ⟨hhead, hdots.1⟩
      exact ⟨[], idle, hsplit, hall, hleads, hdots.2, hwhole (by rw [hsplit]; simp)⟩

/-- The pieces of a directory, with those at the end that lead nowhere dropped. -/
def trimmed : List Text → List Text
  | [] => []
  | first :: rest => first :: dropIdle rest

/-- The path of a directory that has these pieces. -/
def ofPieces (dir : List Text) : Path :=
  if trimmed dir = [[]] then ⟨['/']⟩ else ⟨Text.join ['/'] (trimmed dir)⟩

theorem trimmed_trimmed (dir : List Text) : trimmed (trimmed dir) = trimmed dir := by
  cases dir with
  | nil => rfl
  | cons first rest => rw [trimmed, trimmed, dropIdle_dropIdle]

theorem ofPieces_trimmed (dir : List Text) : ofPieces (trimmed dir) = ofPieces dir := by
  rw [ofPieces, trimmed_trimmed, ofPieces]

theorem isRooted_eq (h : p.pieces = first :: next :: rest) : p.isRooted = (first == []) := by
  have hjoin : Text.join ['/'] p.pieces = p.text := List.intercalate_splitOn '/'
  have hwhole : '/' ∉ first := by
    apply not_mem_of_mem_pieces (p := p)
    rw [h]
    exact List.mem_cons_self
  rw [h, join_cons_cons] at hjoin
  rw [isRooted, ← hjoin]
  cases first with
  | nil => rfl
  | cons c first =>
    have hc : c ≠ '/' := by
      rintro rfl
      exact hwhole List.mem_cons_self
    simpa using hc

section

variable {dir idle : List Text} (h : p.pieces = dir ++ name :: idle)
  (hidle : ∀ piece ∈ idle, isIdle piece = true)
include h hidle

theorem fileName?_of_pieces (hname : IsFileName name) : p.fileName? = some name := by
  have hlast : p.last? = some name := by
    rw [last?, tail, head, h]
    cases dir with
    | nil =>
      rw [List.nil_append, List.drop_one, List.tail_cons, dropIdle_of_idle hidle]
      exact if_neg hname.ne_nil
    | cons first rest =>
      rw [List.cons_append, List.drop_one, List.tail_cons, dropIdle_append hname.leads hidle,
        List.getLast?_concat]
  rw [fileName?, hlast, Option.filter_some, if_pos]
  rw [Bool.and_eq_true, bne_iff_ne, bne_iff_ne]
  exact ⟨hname.ne_dot, hname.forward⟩

theorem parent?_of_pieces (hname : IsFileName name) : p.parent? = some (ofPieces dir) := by
  cases dir with
  | nil =>
    have htail : p.tail = [] := by
      rw [tail, h]
      exact dropIdle_of_idle hidle
    have hhead : p.head ≠ [] := by
      rw [head, h]
      exact hname.ne_nil
    rw [parent?, if_pos htail, if_neg hhead]
    rfl
  | cons first rest =>
    have htail : p.tail = rest ++ [name] := by
      rw [tail, h, List.cons_append, List.drop_one, List.tail_cons,
        dropIdle_append hname.leads hidle]
    have hhead : p.head = first := by
      rw [head, h]
      rfl
    have hrooted : p.isRooted = (first == []) := by
      cases rest with
      | nil => exact isRooted_eq h
      | cons next rest => exact isRooted_eq h
    rw [parent?, if_neg (by simp [htail]), htail, List.dropLast_concat, hhead, hrooted, ofPieces,
      trimmed]
    cases hrest : dropIdle rest with
    | nil =>
      cases first with
      | nil => rfl
      | cons c first => simp
    | cons next rest => simp

end

theorem text_ofPieces_ne_nil (hdir : dir ≠ []) : (ofPieces dir).text ≠ [] := by
  cases dir with
  | nil => exact (hdir rfl).elim
  | cons first rest =>
    rw [ofPieces, trimmed]
    split
    · exact List.cons_ne_nil _ _
    · next hroot =>
      cases hrest : dropIdle rest with
      | nil =>
        rw [hrest] at hroot
        rw [join_singleton]
        rintro rfl
        exact hroot rfl
      | cons next rest =>
        rw [join_cons_cons]
        simp

theorem trimmed_subset (dir : List Text) : trimmed dir ⊆ dir := by
  cases dir with
  | nil => exact List.Subset.refl []
  | cons first rest =>
    obtain ⟨idle, hrest, -⟩ := exists_idle rest
    apply List.cons_subset_cons
    intro piece hpiece
    rw [hrest]
    exact List.mem_append_left idle hpiece

theorem getLast?_ofPieces_ne (hdir : ∀ piece ∈ dir, '/' ∉ piece) (hne : dir ≠ [])
    (hroot : trimmed dir ≠ [[]]) : (Text.join ['/'] (trimmed dir)).getLast? ≠ some '/' := by
  intro hslash
  obtain ⟨t, ht⟩ := List.getLast?_eq_some_iff.1 hslash
  obtain ⟨first, rest, rfl⟩ := List.exists_cons_of_ne_nil hne
  have hwhole : ∀ piece ∈ trimmed (first :: rest), '/' ∉ piece := by
    intro piece hpiece
    exact hdir piece (trimmed_subset _ hpiece)
  have hpieces : trimmed (first :: rest) = t.splitOn '/' ++ [[]] := by
    rw [← List.splitOn_intercalate '/' hwhole (List.cons_ne_nil _ _), ← Text.join, ht,
      List.splitOn_append_cons_self, List.splitOn_nil]
  rw [trimmed] at hpieces hroot
  cases hrest : dropIdle rest with
  | nil =>
    rw [hrest] at hpieces hroot
    have hlast := congrArg List.getLast? hpieces
    rw [List.getLast?_concat, List.getLast?_singleton] at hlast
    rw [Option.some.inj hlast] at hroot
    exact hroot rfl
  | cons next others =>
    have hlast := congrArg List.getLast? hpieces
    rw [List.getLast?_concat, List.getLast?_cons_of_ne_nil (by simp [hrest])] at hlast
    cases isIdle_of_getLast?_dropIdle hlast

theorem pieces_ofPieces_join (hdir : ∀ piece ∈ dir, '/' ∉ piece) (hname : IsFileName name) :
    ((ofPieces dir).join ⟨name⟩).pieces = trimmed dir ++ [name] := by
  have hlast : name.splitOn '/' = [name] := List.splitOn_eq_singleton hname.whole
  by_cases hne : dir = []
  · have hjoin : (ofPieces dir).join ⟨name⟩ = ⟨name⟩ := by
      rw [hne]
      exact if_pos (Bool.or_true _)
    rw [hjoin, hne]
    exact hlast
  · rw [pieces, text_join_name (text_ofPieces_ne_nil hne) hname.whole, ofPieces]
    split
    · next hroot =>
      rw [hroot]
      change ([] ++ '/' :: name).splitOn '/' = _
      rw [List.splitOn_append_cons_self, hlast]
      rfl
    · next hroot =>
      have hwhole : ∀ piece ∈ trimmed dir, '/' ∉ piece := by
        intro piece hpiece
        exact hdir piece (trimmed_subset _ hpiece)
      have htrimmed : trimmed dir ≠ [] := by
        obtain ⟨first, rest, rfl⟩ := List.exists_cons_of_ne_nil hne
        exact List.cons_ne_nil _ _
      rw [slashed, if_neg (getLast?_ofPieces_ne hdir hne hroot), List.append_assoc,
        List.singleton_append, List.splitOn_append_cons_self, Text.join,
        List.splitOn_intercalate '/' hwhole htrimmed, hlast]

/-- Another name in the place of the last one is the name of a file in the same directory. -/
theorem withFileName_spec {new : Text} (h : p.fileName? = some name) (hnew : IsFileName new) :
    (∃ dir, (p.withFileName new).pieces = dir ++ [new]) ∧
      (p.withFileName new).fileName? = some new ∧
      ∃ dir, p.parent? = some dir ∧ (p.withFileName new).parent? = some dir := by
  obtain ⟨dir, idle, hpieces, hidle, hname⟩ := exists_pieces h
  have hparent := parent?_of_pieces hpieces hidle hname
  have hdir : ∀ piece ∈ dir, '/' ∉ piece := by
    intro piece hpiece
    apply not_mem_of_mem_pieces (p := p)
    rw [hpieces]
    exact List.mem_append_left _ hpiece
  have hwith : p.withFileName new = (ofPieces dir).join ⟨new⟩ := by
    rw [withFileName, h, hparent]
    rfl
  have hsplit := pieces_ofPieces_join hdir hnew
  rw [← hwith] at hsplit
  have hnone : ∀ piece ∈ ([] : List Text), isIdle piece = true := by simp
  refine ⟨⟨_, hsplit⟩, fileName?_of_pieces hsplit hnone hnew, _, hparent, ?_⟩
  rw [parent?_of_pieces hsplit hnone hnew, ofPieces_trimmed]

end CutPath.Path
