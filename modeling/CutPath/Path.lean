import CutPath.Failure

namespace CutPath

structure Path where
  text : Text
  deriving DecidableEq, Repr

namespace Path

def pieces (p : Path) : List Text := p.text.splitOn '/'

def isRooted (p : Path) : Bool := p.text.head? == some '/'

def isIdle (piece : Text) : Bool := piece == [] || piece == ['.']

def dropIdle (pieces : List Text) : List Text := (pieces.reverse.dropWhile isIdle).reverse

def tail (p : Path) : List Text := dropIdle (p.pieces.drop 1)

def head (p : Path) : Text := p.pieces.headD []

/-- The last piece that leads somewhere; none for the root and the empty path. -/
def last? (p : Path) : Option Text :=
  match p.tail.getLast? with
  | some piece => some piece
  | none => if p.head = [] then none else some p.head

def fileName? (p : Path) : Option Text :=
  p.last?.filter fun piece => piece != ['.'] && piece != ['.', '.']

/-- The path up to its last piece, as it is written; none for the root and the empty path. -/
def parent? (p : Path) : Option Path :=
  if p.tail = [] then if p.head = [] then none else some ⟨[]⟩
  else
    match dropIdle p.tail.dropLast with
    | [] => some ⟨if p.isRooted then ['/'] else p.head⟩
    | rest => some ⟨Text.join ['/'] (p.head :: rest)⟩

/-- Appends a path; a rooted one takes the place of everything before it. -/
def join (p q : Path) : Path :=
  if q.isRooted || p.text.isEmpty then q
  else if p.text.getLast? = some '/' then ⟨p.text ++ q.text⟩
  else ⟨p.text ++ ['/'] ++ q.text⟩

def withFileName (p : Path) (name : Text) : Path :=
  match p.fileName? with
  | some _ => (p.parent?.getD ⟨[]⟩).join ⟨name⟩
  | none => p.join ⟨name⟩

def cutLastDot? : Text → Option (Text × Text)
  | [] => none
  | c :: t =>
    match cutLastDot? t with
    | some (stem, extension) => some (c :: stem, extension)
    | none => if c = '.' then some ([], t) else none

/-- The stem and the extension of a name. A dot at the start alone makes no extension. -/
def splitName (name : Text) : Text × Option Text :=
  match cutLastDot? name with
  | some (c :: stem, extension) => (c :: stem, some extension)
  | _ => (name, none)

def stem? (p : Path) : Option Text := p.fileName?.map fun name => (splitName name).1

def extension? (p : Path) : Option Text := p.fileName?.bind fun name => (splitName name).2

theorem not_mem_of_cutLastDot?_eq_none {t : Text} (h : cutLastDot? t = none) : '.' ∉ t := by
  induction t with
  | nil => simp
  | cons c t ih =>
    rw [cutLastDot?] at h
    split at h
    · cases h
    · next hn =>
      split at h
      · cases h
      · next hc => exact fun hm => (List.mem_cons.1 hm).elim (fun e => hc e.symm) (ih hn)

theorem cutLastDot?_eq {name stem extension : Text}
    (h : cutLastDot? name = some (stem, extension)) :
    name = stem ++ '.' :: extension ∧ '.' ∉ extension := by
  induction name generalizing stem with
  | nil => simp [cutLastDot?] at h
  | cons c t ih =>
    rw [cutLastDot?] at h
    split at h
    · next s e hs =>
      simp only [Option.some.injEq, Prod.mk.injEq] at h
      obtain ⟨rfl, rfl⟩ := h
      obtain ⟨ht, he⟩ := ih hs
      exact ⟨by rw [ht, List.cons_append], he⟩
    · next hn =>
      split at h
      · next hc =>
        simp only [Option.some.injEq, Prod.mk.injEq] at h
        obtain ⟨rfl, rfl⟩ := h
        exact ⟨by rw [hc, List.nil_append], not_mem_of_cutLastDot?_eq_none hn⟩
      · cases h

end Path

inductive InputKind where
  | document
  | drawing
  deriving DecidableEq, Repr

namespace InputKind

def ofExtension? (extension : Text) : Option InputKind :=
  let e := Text.lowerAscii extension
  if e = "eps" || e = "ps" || e = "epsf" then some document
  else if e = "svg" then some drawing
  else none

def ofPath (p : Path) : Except Failure InputKind :=
  match p.extension?.bind ofExtension? with
  | some kind => .ok kind
  | none => .error (.invalidDocument (p.text ++ ": expected an .eps, .ps or .svg file"))

end InputKind

def outputSuffix : Text := "_versaworks"

/-- The path of the result beside the input. A document keeps its extension. -/
def defaultOutput (input : Path) (kind : InputKind) : Path :=
  let stem : Text := input.stem?.getD "output"
  let extension : Text := match kind with
    | .drawing => "eps"
    | .document => input.extension?.getD "eps"
  input.withFileName (stem ++ outputSuffix ++ ['.'] ++ extension)

end CutPath
