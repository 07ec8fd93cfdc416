import CutPath.Proofs.Store.Places

namespace CutPath
set_option autoImplicit true

namespace Path

variable {p : Path} {name stem extension : Text}

theorem cutLastDot?_of_not_mem {t : Text} (h : '.' ∉ t) : cutLastDot? t = none := by
  induction t with
  | nil => rfl
  | cons c t ih =>
    rw [List.mem_cons, not_or] at h
    rw [cutLastDot?, ih h.2]
    exact if_neg (Ne.symm h.1)

theorem cutLastDot?_append (h : '.' ∉ extension) (stem : Text) :
    cutLastDot? (stem ++ '.' :: extension) = some (stem, extension) := by
  induction stem with
  | nil =>
    rw [List.nil_append, cutLastDot?, cutLastDot?_of_not_mem h]
    exact if_pos rfl
  | cons c stem ih => rw [List.cons_append, cutLastDot?, ih]

theorem splitName_append (hstem : stem ≠ []) (h : '.' ∉ extension) :
    splitName (stem ++ '.' :: extension) = (stem, some extension) := by
  obtain ⟨c, stem, rfl⟩ := List.exists_cons_of_ne_nil hstem
  rw [splitName, cutLastDot?_append h]

theorem exists_stem (h : splitName name = (stem, some extension)) :
    name = stem ++ '.' :: extension ∧ stem ≠ [] ∧ '.' ∉ extension := by
  unfold splitName at h
  split at h
  · next hcut =>
    obtain ⟨rfl, he⟩ := Prod.mk.inj h
    obtain rfl := Option.some.inj he
    obtain ⟨hname, hdot⟩ := cutLastDot?_eq hcut
    exact ⟨hname, List.cons_ne_nil _ _, hdot⟩
  · cases (Prod.mk.inj h).2

theorem exists_name (h : p.extension? = some extension) :
    ∃ stem, p.fileName? = some (stem ++ '.' :: extension) ∧ p.stem? = some stem ∧
      '.' ∉ extension := by
  obtain ⟨name, hname, he⟩ := Option.bind_eq_some_iff.1 h
  have hsplit : splitName name = ((splitName name).1, some extension) := Prod.ext rfl he
  obtain ⟨hwhole, -, hdot⟩ := exists_stem hsplit
  exact ⟨_, hname.trans (congrArg some hwhole), by rw [stem?, hname, Option.map_some], hdot⟩

end Path

namespace InputKind

theorem ofPath_eq_ok {p : Path} :
    ofPath p = .ok kind ↔ ∃ extension, p.extension? = some extension ∧
      ofExtension? extension = some kind := by
  rw [← Option.bind_eq_some_iff, ofPath]
  split
  · next hkind => rw [hkind, Except.ok.injEq, Option.some.injEq]
  · next hkind =>
    rw [hkind]
    constructor
    · intro h
      cases h
    · intro h
      cases h

end InputKind

theorem isFileName_output {stem extension : Text} (hstem : '/' ∉ stem) (hext : '/' ∉ extension) :
    Path.IsFileName (stem ++ outputSuffix ++ ['.'] ++ extension) := by
  have hmem : '_' ∈ stem ++ outputSuffix ++ ['.'] ++ extension := by
    simp only [List.mem_append]
    exact .inl (.inl (.inr (by decide)))
  have hne {name : Text} (hname : '_' ∉ name) :
      stem ++ outputSuffix ++ ['.'] ++ extension ≠ name := by
    rintro rfl
    exact hname hmem
  have hsuffix : '/' ∉ outputSuffix := by decide
  refine ⟨?_, hne (by decide), ?_⟩
  · rw [Path.isIdle, Bool.or_eq_false_iff, beq_eq_false_iff_ne, beq_eq_false_iff_ne]
    exact ⟨hne (by decide), hne (by decide)⟩
  · simp [hstem, hext, hsuffix]

theorem defaultOutput_eq {input : Path} (h : InputKind.ofPath input = .ok kind) :
    ∃ stem old new, input.fileName? = some (stem ++ '.' :: old) ∧ input.stem? = some stem ∧
      InputKind.ofExtension? new = some .document ∧ '.' ∉ new ∧ '/' ∉ new ∧
      defaultOutput input kind = input.withFileName (stem ++ outputSuffix ++ ['.'] ++ new) := by
  obtain ⟨old, hold, hkind⟩ := InputKind.ofPath_eq_ok.1 h
  obtain ⟨stem, hname, hstem, hdot⟩ := Path.exists_name hold
  obtain ⟨-, -, -, -, hwhole⟩ := Path.exists_pieces hname
  unfold defaultOutput
  rw [hstem, hold]
  cases kind with
  | document =>
    refine ⟨stem, old, old, hname, rfl, hkind, hdot, ?_, rfl⟩
    intro hslash
    exact hwhole.whole (by simp [hslash])
  | drawing => exact ⟨stem, old, "eps".toList, hname, rfl, by decide, by decide, by decide, rfl⟩

namespace Store

variable {s : Store} {l m : Location} {p : Path} {name : Text}

theorem follow_of_name (hname : Path.IsFileName name) (h : s.follow l name = .ok m) :
    m = l ++ [name] := by
  unfold follow at h
  split at h
  · cases h
  · cases h
  · split_ifs at h with hidle hdots
    · cases hname.leads.symm.trans hidle
    · exact (hname.forward hdots).elim
    · exact (Except.ok.inj h).symm

theorem foldlM_follow_of_idle {idle : List Text} (hidle : ∀ piece ∈ idle, Path.isIdle piece = true)
    (h : idle.foldlM s.follow l = .ok m) : m = l := by
  induction idle generalizing l with
  | nil => exact (Except.ok.inj h).symm
  | cons piece idle ih =>
    obtain ⟨hpiece, hidle⟩ := List.forall_mem_cons.1 hidle
    rw [List.foldlM_cons] at h
    obtain ⟨n, hn, hrest⟩ := bind_eq_ok.1 h
    rw [ih hidle hrest, (follow_of_idle hpiece hn).1]

/-- A path leads to an entry that is called as the path calls its file. -/
theorem getLast?_of_locate (hp : p.fileName? = some name) (h : s.locate p = .ok l) :
    l.getLast? = some name := by
  obtain ⟨dir, idle, hpieces, hidle, hname⟩ := Path.exists_pieces hp
  obtain ⟨-, hfollow⟩ := locate_eq_ok.1 h
  rw [hpieces, List.foldlM_append] at hfollow
  obtain ⟨m, -, hfollow⟩ := bind_eq_ok.1 hfollow
  rw [List.foldlM_cons] at hfollow
  obtain ⟨n, hn, hfollow⟩ := bind_eq_ok.1 hfollow
  rw [foldlM_follow_of_idle hidle hfollow, follow_of_name hname hn, List.getLast?_concat]

theorem getLast?_of_target (hp : p.pieces = dir ++ [name]) (h : s.target p = .ok l) :
    l.getLast? = some name := by
  obtain ⟨dir', name', m, -, hpieces, rfl, -⟩ := target_eq_ok h
  have hlast := congrArg List.getLast? (hpieces.symm.trans hp)
  rw [List.getLast?_concat, List.getLast?_concat] at hlast
  rw [List.getLast?_concat, hlast]

end Store

/-- The default output is in the directory of the input under another name, so it is never written
over the input. It has a longer stem, and it is a document itself. -/
theorem defaultOutput_beside {input : Path} (h : InputKind.ofPath input = .ok kind) :
    (∃ dir, input.parent? = some dir ∧ (defaultOutput input kind).parent? = some dir) ∧
      (defaultOutput input kind).fileName? ≠ input.fileName? ∧ defaultOutput input kind ≠ input ∧
      (∃ stem, input.stem? = some stem ∧
        (defaultOutput input kind).stem? = some (stem ++ outputSuffix)) ∧
      InputKind.ofPath (defaultOutput input kind) = .ok .document ∧
      ∀ (s : Store) (l m : Location), s.locate input = .ok l →
        s.target (defaultOutput input kind) = .ok m → m ≠ l := by
  obtain ⟨stem, old, new, hinput, hstem, hkind, hdot, hslash, houtput⟩ := defaultOutput_eq h
  obtain ⟨-, -, -, -, hwhole⟩ := Path.exists_pieces hinput
  have hnew : Path.IsFileName (stem ++ outputSuffix ++ ['.'] ++ new) := by
    apply isFileName_output _ hslash
    intro hmem
    exact hwhole.whole (List.mem_append_left _ hmem)
  obtain ⟨⟨dir, hpieces⟩, hname, hparent⟩ := Path.withFileName_spec hinput hnew
  rw [← houtput] at hpieces hname hparent
  have hsplit : Path.splitName (stem ++ outputSuffix ++ ['.'] ++ new) =
      (stem ++ outputSuffix, some new) := by
    rw [List.append_assoc]
    apply Path.splitName_append _ hdot
    exact List.append_ne_nil_of_right_ne_nil _ (by decide)
  have hother : stem ++ outputSuffix ++ ['.'] ++ new ≠ stem ++ '.' :: old := by
    rw [List.append_assoc, List.append_assoc]
    intro he
    have hfirst := congrArg List.head? (List.append_cancel_left he)
    cases hfirst
  have hfile : (defaultOutput input kind).fileName? ≠ input.fileName? := by
    rw [hname, hinput]
    intro he
    exact hother (Option.some.inj he)
  have hext : (defaultOutput input kind).extension? = some new := by
    rw [Path.extension?, hname, Option.bind_some, hsplit]
  refine ⟨hparent, hfile, ?_, ⟨stem, hstem, ?_⟩, ?_, ?_⟩
  · intro he
    rw [he] at hfile
    exact hfile rfl
  · rw [Path.stem?, hname, Option.map_some, hsplit]
  · exact InputKind.ofPath_eq_ok.2 ⟨new, hext, hkind⟩
  · intro s l m hl hm he
    have hlast := Store.getLast?_of_target hpieces hm
    rw [he, Store.getLast?_of_locate hinput hl] at hlast
    exact hother (Option.some.inj hlast).symm

theorem defaultOutput_beside_dots :
    let input : Path := ⟨"a//.b..PS/."⟩
    let output : Path := ⟨"a/.b._versaworks.PS"⟩
    InputKind.ofPath input = .ok .document ∧ defaultOutput input .document = output ∧
      output.parent? = input.parent? ∧ InputKind.ofPath output = .ok .document ∧
      ∀ (s : Store) (l m : Location), s.locate input = .ok l → s.target output = .ok m →
        m ≠ l := by
  intro input output
  have hkind : InputKind.ofPath input = .ok .document := rfl
  have houtput : defaultOutput input .document = output := by decide
  have hbeside := defaultOutput_beside hkind
  rw [houtput] at hbeside
  obtain ⟨⟨dir, hinput, hdir⟩, -, -, -, hagain, hother⟩ := hbeside
  exact ⟨hkind, houtput, hdir.trans hinput.symm, hagain, hother⟩

end CutPath
