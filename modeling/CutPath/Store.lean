import CutPath.Path
import CutPath.Text.Utf8

namespace CutPath

abbrev Location := List Text

inductive Entry where
  | directory
  | file (bytes : Bytes)
  deriving DecidableEq, Repr

/-- A tree of entries; the root is always there. -/
structure Store where
  entries : List (Location × Entry)
  workingDirectory : Location
  scratchRoot : Path
  deriving DecidableEq, Repr

namespace Store

def lookup (s : Store) (l : Location) : Option Entry :=
  if l = [] then some .directory else s.entries.lookup l

def put (s : Store) (l : Location) (e : Entry) : Store :=
  { s with entries := (l, e) :: s.entries.filter (·.1 != l) }

/-- Removes what is at a location and below it. -/
def remove (s : Store) (l : Location) : Store :=
  { s with entries := s.entries.filter (!l.isPrefixOf ·.1) }

def maxName : Nat := 255

def maxPath : Nat := 4096

def follow (s : Store) (l : Location) (piece : Text) : Except IoKind Location :=
  match s.lookup l with
  | none => .error .notFound
  | some (.file _) => .error .notADirectory
  | some .directory =>
    if Path.isIdle piece then .ok l
    else if piece = ['.', '.'] then .ok l.dropLast
    else if maxName < Text.Utf8.size piece then .error .nameTooLong
    else if (s.lookup (l ++ [piece])).isSome then .ok (l ++ [piece])
    else .error .notFound

def admits (p : Path) : Except IoKind Unit :=
  if p.text.contains '\x00' then .error .invalidName
  else if p.text.isEmpty then .error .notFound
  else if maxPath ≤ Text.Utf8.size p.text then .error .nameTooLong
  else .ok ()

def start (s : Store) (p : Path) : Location := if p.isRooted then [] else s.workingDirectory

def pathOf (l : Location) : Path := ⟨'/' :: Text.join ['/'] l⟩

def fromRoot (s : Store) (p : Path) : Path := (pathOf s.workingDirectory).join p

def locate (s : Store) (p : Path) : Except IoKind Location := do
  admits p
  p.pieces.foldlM s.follow (s.start p)

def find (s : Store) (p : Path) : Except IoKind (Location × Entry) := do
  let l ← s.locate p
  match s.lookup l with
  | some e => return (l, e)
  | none => throw .notFound

def directory (s : Store) (p : Path) : Except IoKind Location := do
  match ← s.find p with
  | (l, .directory) => return l
  | (_, .file _) => throw .notADirectory

def readEntry : Option Entry → Except IoKind Bytes
  | some (.file bytes) => .ok bytes
  | some .directory => .error .isADirectory
  | none => .error .notFound

def readAt (s : Store) (l : Location) : Except IoKind Bytes := readEntry (s.lookup l)

def read (s : Store) (p : Path) : Except IoKind Bytes := do
  s.readAt (← s.locate p)

def holds (s : Store) (p : Path) : Bool := (s.find p).isOk

def isFile (e : Option Entry) : Bool :=
  match e with
  | some (.file _) => true
  | _ => false

def dropSlashes (pieces : List Text) : Bool × List Text :=
  let kept := (pieces.reverse.dropWhile (·.isEmpty)).reverse
  (kept.length < pieces.length, kept)

def target (s : Store) (p : Path) : Except IoKind Location := do
  admits p
  let (slashes, kept) := dropSlashes p.pieces
  let dir ← (kept.dropLast ++ [[]]).foldlM s.follow (s.start p)
  match kept.getLast? with
  | none => throw .busy
  | some name =>
    if Path.isIdle name || name = ['.', '.'] then throw .busy
    else if maxName < Text.Utf8.size name then throw .nameTooLong
    else if slashes then throw .notADirectory
    else if s.lookup (dir ++ [name]) = some .directory then throw .isADirectory
    else return dir ++ [name]

/-- Whether nothing is at a location or below it, the working directory included. -/
def isVacant (s : Store) (l : Location) : Bool :=
  !l.isPrefixOf s.workingDirectory && s.entries.all fun e => !l.isPrefixOf e.1

def maxTries : Nat := 65536

def temporaryName (before after : Text) (n : Nat) : Text :=
  let digits := Text.ofNat n
  before ++ List.replicate (6 - digits.length) '0' ++ digits ++ after

/-- The first of `tries` numbers from `n` on whose name is vacant in a directory and is not one of
the names to avoid. -/
def freshName? (s : Store) (dir : Location) (avoid : List Text) (before after : Text) :
    (tries n : Nat) → Option Text
  | 0, _ => none
  | tries + 1, n =>
    let name := temporaryName before after n
    if s.isVacant (dir ++ [name]) && !avoid.contains name then some name
    else freshName? s dir avoid before after tries (n + 1)

def move (s : Store) (origin goal : Location) : Store :=
  match s.lookup origin with
  | some e => (s.remove origin).put goal e
  | none => s

@[simp] theorem lookup_nil (s : Store) : s.lookup [] = some .directory := by simp [lookup]

theorem lookup_filter {α β : Type} [BEq α] [LawfulBEq α] (p : α → Bool) (l : List (α × β))
    (a : α) : (l.filter fun e => p e.1).lookup a = if p a then l.lookup a else none := by
  induction l with
  | nil => simp
  | cons e l ih =>
    obtain ⟨b, x⟩ := e
    by_cases hab : a = b
    · subst hab
      cases hp : p a <;> simp [hp, ih]
    · have hf : (a == b) = false := beq_eq_false_iff_ne.2 hab
      cases hp : p b <;> simp [List.lookup_cons, hp, ih, hf]

theorem lookup_put (s : Store) {l : Location} (hl : l ≠ []) (e : Entry) (k : Location) :
    (s.put l e).lookup k = if k = l then some e else s.lookup k := by
  by_cases hk : k = []
  · subst hk
    rw [lookup_nil, lookup_nil, if_neg hl.symm]
  · rw [lookup, lookup, if_neg hk, if_neg hk]
    show ((l, e) :: s.entries.filter fun e => (fun m => m != l) e.1).lookup k = _
    by_cases hkl : k = l
    · subst hkl
      rw [List.lookup_cons_self, if_pos rfl]
    · rw [List.lookup_cons, beq_eq_false_iff_ne.2 hkl, if_neg hkl]
      show (s.entries.filter fun e => (fun m => m != l) e.1).lookup k = _
      rw [lookup_filter (fun m => m != l), if_pos (bne_iff_ne.2 hkl)]

theorem lookup_remove (s : Store) {l : Location} (hl : l ≠ []) (k : Location) :
    (s.remove l).lookup k = if l.isPrefixOf k then none else s.lookup k := by
  by_cases hk : k = []
  · subst hk
    cases l with
    | nil => exact absurd rfl hl
    | cons _ _ => rfl
  · rw [lookup, lookup, if_neg hk, if_neg hk]
    show (s.entries.filter fun e => (fun m => !l.isPrefixOf m) e.1).lookup k = _
    rw [lookup_filter (fun m => !l.isPrefixOf m)]
    cases l.isPrefixOf k <;> rfl

theorem isPrefixOf_self (l : Location) : l.isPrefixOf l = true :=
  List.isPrefixOf_iff_prefix.2 (List.prefix_refl l)

theorem isVacant_iff {s : Store} {l : Location} : s.isVacant l = true ↔
    l.isPrefixOf s.workingDirectory = false ∧ ∀ x ∈ s.entries, (!l.isPrefixOf x.1) = true := by
  rw [isVacant, Bool.and_eq_true, Bool.not_eq_true', List.all_eq_true]

theorem remove_put_of_isVacant {s : Store} {l : Location} (h : s.isVacant l = true) (e : Entry) :
    (s.put l e).remove l = s := by
  obtain ⟨-, hall⟩ := isVacant_iff.1 h
  have h1 : s.entries.filter (·.1 != l) = s.entries := by
    refine List.filter_eq_self.2 fun x hx => bne_iff_ne.2 ?_
    rintro rfl
    have hv := hall x hx
    rw [isPrefixOf_self] at hv
    cases hv
  have h2 : s.entries.filter (!l.isPrefixOf ·.1) = s.entries := List.filter_eq_self.2 hall
  unfold put remove
  rw [h1, List.filter_cons, isPrefixOf_self, h2]
  rfl

/-- A fresh name is vacant, it is not one of the names to avoid, and it is made from one of the
numbers to try. -/
theorem isVacant_of_freshName? {s : Store} {dir : Location} {avoid : List Text}
    {before after name : Text} {tries n : Nat}
    (h : s.freshName? dir avoid before after tries n = some name) :
    s.isVacant (dir ++ [name]) = true ∧ name ∉ avoid ∧
      ∃ m, m < n + tries ∧ name = temporaryName before after m := by
  induction tries generalizing n with
  | zero => cases h
  | succ tries ih =>
    rw [freshName?] at h
    split at h
    · next hv =>
      cases h
      rw [Bool.and_eq_true, Bool.not_eq_true', List.contains_eq_mem, decide_eq_false_iff_not] at hv
      exact ⟨hv.1, hv.2, n, by omega, rfl⟩
    · obtain ⟨hv, hname, m, hm, he⟩ := ih h
      exact ⟨hv, hname, m, by omega, he⟩

def enter (s : Store) (l : Location) (piece : Text) : Except IoKind (Store × Location) :=
  match s.follow l piece with
  | .ok next => .ok (s, next)
  | .error .notFound => .ok (s.put (l ++ [piece]) .directory, l ++ [piece])
  | .error kind => .error kind

def makeDirectories (s : Store) (p : Path) : Except IoKind Store := do
  if p.text.isEmpty then return s
  admits p
  let (s, l) ← p.pieces.foldlM (fun (s, l) piece => s.enter l piece) (s, s.start p)
  if isFile (s.lookup l) then throw .alreadyExists
  return s

def write (s : Store) (p : Path) (bytes : Bytes) : Except IoKind Store :=
  match s.target p with
  | .ok l => .ok (s.put l (.file bytes))
  | .error kind => .error kind

theorem target_ne_nil {s : Store} {p : Path} {l : Location} (h : s.target p = .ok l) : l ≠ [] := by
  unfold target at h
  simp only [bind, Except.bind] at h
  repeat' split at h
  all_goals cases h
  all_goals simp

end Store
end CutPath
