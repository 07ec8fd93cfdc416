import CutPath.Drawing.Attribute
import CutPath.Failure
import CutPath.SpotColor

namespace CutPath

inductive Forest where
  | nil
  | leaf (l : Leaf) (next : Forest)
  | empty (tag : Text) (next : Forest)
  | element (tag : Text) (children next : Forest)
  deriving DecidableEq, Repr

namespace Forest

def markup : Forest → List Markup
  | nil => []
  | leaf l next => .leaf l :: next.markup
  | empty tag next => .emptyTag tag :: next.markup
  | element tag children next =>
    .openTag tag :: (children.markup ++ .closeTag (Markup.tagName tag) :: next.markup)

def write (f : Forest) : Text := f.markup.flatMap Markup.write

/-- Puts one piece of markup in front of what has been built from the pieces after it: the forest
up to the next closing tag that is not yet opened, and the forests after each such tag. -/
def prepend (m : Markup) (built : Forest × List Forest) : Forest × List Forest :=
  match m with
  | .leaf l => (leaf l built.1, built.2)
  | .emptyTag tag => (empty tag built.1, built.2)
  | .closeTag _ => (nil, built.1 :: built.2)
  | .openTag tag => (element tag built.1 (built.2.headD nil), built.2.tail)

def ofMarkup (ms : List Markup) : Forest := (ms.foldr prepend (nil, [])).1

theorem foldr_prepend_markup (f : Forest) (built : Forest × List Forest) :
    ∃ g, f.markup.foldr prepend built = (g, built.2) ∧ (built.1 = nil → g = f) := by
  induction f generalizing built with
  | nil => exact ⟨built.1, rfl, id⟩
  | leaf l next ih =>
    obtain ⟨g, hg, hf⟩ := ih built
    exact ⟨leaf l g, by simp only [markup, List.foldr_cons, hg, prepend],
      fun h => by rw [hf h]⟩
  | empty tag next ih =>
    obtain ⟨g, hg, hf⟩ := ih built
    exact ⟨empty tag g, by simp only [markup, List.foldr_cons, hg, prepend],
      fun h => by rw [hf h]⟩
  | element tag children next ihc ihn =>
    obtain ⟨g, hg, hf⟩ := ihn built
    obtain ⟨c, hc, hcf⟩ := ihc (nil, g :: built.2)
    refine ⟨element tag c g, ?_, fun h => by rw [hf h, hcf rfl]⟩
    simp only [markup, List.foldr_cons, List.foldr_append, hg, prepend, hc, List.headD_cons,
      List.tail_cons]

theorem ofMarkup_markup (f : Forest) : ofMarkup f.markup = f := by
  obtain ⟨g, hg, hf⟩ := foldr_prepend_markup f (nil, [])
  rw [ofMarkup, hg]
  exact hf rfl

def hasElement : Forest → Bool
  | nil => false
  | leaf _ next => next.hasElement
  | empty .. => true
  | element .. => true

def rootChildren : Forest → Forest
  | nil => nil
  | leaf _ next => next.rootChildren
  | empty .. => nil
  | element _ children _ => children

def mapRoot (f : Forest → Forest) : Forest → Forest
  | nil => nil
  | leaf l next => leaf l (next.mapRoot f)
  | empty tag next => empty tag next
  | element tag children next => element tag (f children) next

end Forest

structure Drawing where
  content : Forest
  deriving DecidableEq, Repr

namespace Drawing

/-- Pairs closing tags with the elements they close. The result is the names of the elements left
open, the innermost first; a fault comes with the text after it. -/
def pairTags (opened : List Text) :
    List (Markup × Text) → Except (MarkupFault × Text) (List Text)
  | [] => .ok opened
  | (.openTag content, _) :: ms => pairTags (Markup.tagName content :: opened) ms
  | (.closeTag name, rest) :: ms =>
    match opened with
    | [] => .error (.unmatchedClose name, rest)
    | expected :: outer =>
      if name = expected then pairTags outer ms
      else .error (.mismatchedClose expected name, rest)
  | _ :: ms => pairTags opened ms

def faultFailure (t : Text) (fault : MarkupFault × Text) : Failure :=
  .drawing ("XML error at byte " ++
    Text.ofNat (Text.Utf8.size t - Text.Utf8.size fault.2) ++ ": " ++ fault.1.message)

def dropByteOrderMark : Text → Text
  | '\ufeff' :: t => t
  | t => t

def parse (t : Text) : Except Failure Drawing :=
  let t := dropByteOrderMark t
  let scanned := Markup.scan t
  match pairTags [] scanned.1 with
  | .error fault => .error (faultFailure t fault)
  | .ok opened =>
    match scanned.2, opened with
    | some fault, _ => .error (faultFailure t fault)
    | none, name :: _ => .error (.drawing ("unclosed element <" ++ name ++ ">"))
    | none, [] =>
      let content := Forest.ofMarkup (scanned.1.map Prod.fst)
      if content.hasElement then .ok ⟨content⟩
      else .error (.drawing "document has no root element")

def write (d : Drawing) : Text := d.content.write

end Drawing

def RegionTag.marks (tag : RegionTag) (content : Text) : Bool :=
  (Markup.names content).any tag.accepts

namespace Forest

/-- The number of tagged elements; what is inside one of them is not looked at. -/
def countRegions (tag : RegionTag) : Forest → Nat
  | nil => 0
  | leaf _ next => next.countRegions tag
  | empty content next =>
    (if !Markup.isStructural content && tag.marks content then 1 else 0) + next.countRegions tag
  | element content children next =>
    (if Markup.isStructural content then 0
      else if tag.marks content then 1
      else children.countRegions tag) + next.countRegions tag

/-- The tagged elements with the groups that lead to them, all made visible. -/
def keepRegions (tag : RegionTag) : Forest → Forest
  | nil => nil
  | leaf l next => leaf l (next.keepRegions tag)
  | empty content next =>
    if Markup.isStructural content then empty content (next.keepRegions tag)
    else if tag.marks content then empty (revealTag content) (next.keepRegions tag)
    else next.keepRegions tag
  | element content children next =>
    if Markup.isStructural content then element content children (next.keepRegions tag)
    else if tag.marks content then
      element (revealTag content) children (next.keepRegions tag)
    else if 0 < children.countRegions tag then
      element (revealTag content) (children.keepRegions tag) (next.keepRegions tag)
    else next.keepRegions tag

def dropRegions (tag : RegionTag) : Forest → Forest
  | nil => nil
  | leaf l next => leaf l (next.dropRegions tag)
  | empty content next =>
    if !Markup.isStructural content && tag.marks content then next.dropRegions tag
    else empty content (next.dropRegions tag)
  | element content children next =>
    if Markup.isStructural content then element content children (next.dropRegions tag)
    else if tag.marks content then next.dropRegions tag
    else element content (children.dropRegions tag) (next.dropRegions tag)

end Forest

structure LayerSplit where
  cut : Text
  print : Text
  regions : Nat
  deriving DecidableEq, Repr

namespace Drawing

def countRegions (d : Drawing) (tag : RegionTag) : Nat := d.content.rootChildren.countRegions tag

def cutLayer (d : Drawing) (tag : RegionTag) : Drawing :=
  ⟨d.content.mapRoot (Forest.keepRegions tag)⟩

def printLayer (d : Drawing) (tag : RegionTag) : Drawing :=
  ⟨d.content.mapRoot (Forest.dropRegions tag)⟩

def split? (d : Drawing) (tag : RegionTag) : Option LayerSplit :=
  if d.countRegions tag = 0 then none
  else some ⟨(d.cutLayer tag).write, (d.printLayer tag).write, d.countRegions tag⟩

end Drawing

def splitLayers (t : Text) (tag : RegionTag) : Except Failure (Option LayerSplit) :=
  match Drawing.parse t with
  | .error f => .error f
  | .ok d => .ok (d.split? tag)

end CutPath
