import CutPath.Proofs.Drawing.RevealedTag

namespace CutPath
open Text Markup
set_option autoImplicit true

/-- Whether a declaration gives a property a value, with or without blanks around the two. -/
def Declares (property value declaration : Text) : Prop :=
  ∃ p v, declaration = p ++ ':' :: v ∧ trim p = property ∧ trim v = value

/-- Whether a declaration sets a property to a value, which may be marked as important. -/
def Sets (property value declaration : Text) : Prop :=
  Declares property value declaration ∨
    ∃ v mark, Declares property (v ++ '!' :: mark) declaration ∧ trim v = value ∧
      trim mark = "important"

theorem compactDeclaration_append (t t' : Text) :
    compactDeclaration (t ++ t') = compactDeclaration t ++ compactDeclaration t' :=
  List.filter_append ..

theorem compactDeclaration_blanks (hb : isBlankText b = true) : compactDeclaration b = [] := by
  apply List.filter_eq_nil_iff.2
  intro c hc
  simpa using List.all_eq_true.1 hb c hc

theorem compactDeclaration_trim (t : Text) :
    compactDeclaration (trim t) = compactDeclaration t := by
  obtain ⟨b, hb, hend⟩ := trimEnd_append (trimStart t)
  have hstart : t.takeWhile isBlank ++ trimStart t = t := List.takeWhile_append_dropWhile
  have hfront : isBlankText (t.takeWhile isBlank) = true := List.all_takeWhile
  conv_rhs => rw [← hstart, hend]
  rw [compactDeclaration_append, compactDeclaration_append, compactDeclaration_blanks hfront,
    compactDeclaration_blanks hb, List.nil_append, List.append_nil]
  rfl

theorem Declares.compact (h : Declares property value declaration) :
    compactDeclaration declaration =
      compactDeclaration property ++ ':' :: compactDeclaration value := by
  obtain ⟨p, v, rfl, rfl, rfl⟩ := h
  rw [compactDeclaration_append, compactDeclaration_trim, compactDeclaration_trim]
  rfl

theorem Sets.compact (h : Sets property value declaration) :
    compactDeclaration property ++ ':' :: compactDeclaration value <+:
      compactDeclaration declaration := by
  rcases h with h | ⟨v, mark, h, rfl, -⟩
  · exact h.compact.symm ▸ List.prefix_rfl
  · rw [h.compact, compactDeclaration_append, compactDeclaration_trim]
    exact ⟨compactDeclaration ('!' :: mark), List.append_assoc ..⟩

theorem hides_iff (declaration : Text) : hides declaration = true ↔
    compactDeclaration declaration = "display:none" ∨
      "visibility:hidden".toList <+: compactDeclaration declaration := by
  rw [hides, Bool.or_eq_true, beq_iff_eq, List.isPrefixOf_iff_prefix]

theorem hides_of_display (h : Declares "display" "none" declaration) :
    hides declaration = true :=
  (hides_iff declaration).2 (.inl h.compact)

theorem hides_of_visibility (h : Sets "visibility" "hidden" declaration) :
    hides declaration = true :=
  (hides_iff declaration).2 (.inr h.compact)

namespace Attribute

def styleDeclarations (a : Attribute) : List Text :=
  if a.key = "style" then declarations (a.value?.getD []) else []

theorem filter_reveal (a : Attribute) :
    (reveal? a).filter (fun b : Attribute => b.key ≠ "style") =
      if a.key ≠ "style" ∧ ¬ a.Hides then some a else none := by
  by_cases hstyle : a.key = "style"
  · rw [if_neg fun h => h.1 hstyle, Option.filter_eq_none_iff]
    intro b hb hkept
    exact of_decide_eq_true hkept ((key_of_reveal hb).trans hstyle)
  · by_cases hhides : a.Hides
    · rw [reveal?_of_hides hhides, if_neg fun h => h.2 hhides, Option.filter_none]
    · rw [reveal?_of_ne_style hstyle hhides, if_pos ⟨hstyle, hhides⟩]
      exact Option.filter_some_pos (decide_eq_true hstyle)

theorem styleDeclarations_reveal (a : Attribute) :
    (reveal? a).toList.flatMap styleDeclarations = a.styleDeclarations.filter (!hides ·) := by
  by_cases h : a.key = "style"
  · rw [reveal?_style h, styleDeclarations, if_pos h, ← declarations_cleanStyle]
    split
    · next hnil =>
      rw [hnil]
      rfl
    · rw [Option.toList_some, List.flatMap_singleton, styleDeclarations, if_pos h, value?,
        Entity.unescape?_escape, Option.getD_some]
  · rw [styleDeclarations, if_neg h]
    cases hb : reveal? a with
    | none => rfl
    | some b =>
      have hkey : b.key ≠ "style" := key_of_reveal hb ▸ h
      rw [Option.toList_some, List.flatMap_singleton, styleDeclarations, if_neg hkey]
      rfl

theorem revealed_eq (content : Text) :
    revealed content = (ofTag content).flatMap fun a => (reveal? a).toList :=
  List.filterMap_eq_flatMap_toList ..

theorem styleDeclarations_revealed (content : Text) :
    (revealed content).flatMap styleDeclarations =
      ((ofTag content).flatMap styleDeclarations).filter (!hides ·) := by
  rw [revealed_eq, List.flatMap_assoc, List.filter_flatMap]
  exact List.flatMap_congr fun a _ => styleDeclarations_reveal a

theorem filter_revealed (content : Text) :
    ((revealed content).filter fun a : Attribute => a.key ≠ "style") =
      (ofTag content).filter fun a : Attribute => a.key ≠ "style" ∧ ¬ a.Hides := by
  rw [revealed, List.filter_filterMap, ← List.filterMap_eq_filter]
  apply List.filterMap_congr
  intro a _
  rw [filter_reveal, Option.guard_def]
  simp only [decide_eq_true_eq]

theorem cleanStyle_ne_nil_iff (style : Text) :
    cleanStyle style ≠ [] ↔ ∃ d ∈ declarations style, hides d = false := by
  constructor
  · intro h
    have hleft : (declarations style).filter (!hides ·) ≠ [] := by
      intro he
      rw [cleanStyle, he] at h
      exact h rfl
    obtain ⟨d, hd⟩ := List.exists_mem_of_ne_nil _ hleft
    obtain ⟨hmem, hshown⟩ := List.mem_filter.1 hd
    exact ⟨d, hmem, by simpa using hshown⟩
  · rintro ⟨d, hmem, hshown⟩ he
    have hd : d ∈ declarations (cleanStyle style) := by
      rw [declarations_cleanStyle]
      exact List.mem_filter.2 ⟨hmem, by simp [hshown]⟩
    rw [he] at hd
    cases hd

/-- Nothing is left of a style that cannot be resolved. -/
theorem exists_reveal_style_iff {a : Attribute} (h : a.key = "style") : (∃ b, reveal? a = some b) ↔
    ∃ style, a.value? = some style ∧ ∃ d ∈ declarations style, hides d = false := by
  have hsome : (∃ b, reveal? a = some b) ↔ cleanStyle (a.value?.getD []) ≠ [] := by
    rw [reveal?_style h]
    split
    · next hnil => simp [hnil]
    · next hclean => simp [hclean]
  rw [hsome, cleanStyle_ne_nil_iff]
  cases a.value? with
  | none =>
    refine iff_of_false ?_ (by simp)
    rintro ⟨d, hd, -⟩
    cases hd
  | some style => simp

theorem exists_style_revealed_iff (content : Text) :
    (∃ b ∈ revealed content, b.key = "style") ↔ ∃ a ∈ ofTag content, a.key = "style" ∧
      ∃ style, a.value? = some style ∧ ∃ d ∈ declarations style, hides d = false := by
  constructor
  · rintro ⟨b, hb, hkey⟩
    obtain ⟨a, ha, hreveal⟩ := List.mem_filterMap.1 hb
    have hstyle : a.key = "style" := (key_of_reveal hreveal).symm.trans hkey
    exact ⟨a, ha, hstyle, (exists_reveal_style_iff hstyle).1 ⟨b, hreveal⟩⟩
  · rintro ⟨a, ha, hstyle, hshown⟩
    obtain ⟨b, hreveal⟩ := (exists_reveal_style_iff hstyle).2 hshown
    exact ⟨b, List.mem_filterMap.2 ⟨a, ha, hreveal⟩, (key_of_reveal hreveal).trans hstyle⟩

theorem keys_sublist (as : List Attribute) :
    ((as.filterMap reveal?).map key).Sublist (as.map key) := by
  induction as with
  | nil => exact .slnil
  | cons a as ih =>
    rw [List.filterMap_cons]
    cases hb : reveal? a with
    | none => exact ih.cons a.key
    | some b =>
      have hkey : b.key = a.key := key_of_reveal hb
      rw [List.map_cons, List.map_cons, hkey]
      exact ih.cons_cons a.key

end Attribute

namespace Markup

open Attribute

/-- A tag that is made visible is left with attributes and declarations that do not hide, but for a
display of none that is marked as important. All other attributes are left as they stood, and so are
the declarations that read, without their blanks, neither like a display of none nor like the start
of a hidden visibility; a style without such a declaration goes as a whole, and so does one that
cannot be resolved. What is left is read from the tag again exactly when no attribute but a style
has a double quote inside. -/
theorem revealTag_shown (content : Text) :
    (∀ a ∈ revealed content, ¬ a.Hides ∧ ∀ d ∈ a.styleDeclarations,
      ¬ Declares "display" "none" d ∧ ¬ Sets "visibility" "hidden" d) ∧
    ((revealed content).map key).Sublist ((ofTag content).map key) ∧
    ((revealed content).filter fun a : Attribute => a.key ≠ "style") =
      ((ofTag content).filter fun a : Attribute => a.key ≠ "style" ∧ ¬ a.Hides) ∧
    (revealed content).flatMap styleDeclarations =
      ((ofTag content).flatMap styleDeclarations).filter (!hides ·) ∧
    ((∃ b ∈ revealed content, b.key = "style") ↔ ∃ a ∈ ofTag content, a.key = "style" ∧
      ∃ style, a.value? = some style ∧ ∃ d ∈ declarations style, hides d = false) ∧
    (∀ d, hides d = true ↔ compactDeclaration d = "display:none" ∨
      "visibility:hidden".toList <+: compactDeclaration d) ∧
    tagName (revealTag content) = tagName content ∧
    (ofTag (revealTag content) = revealed content ↔
      ∀ a ∈ revealed content, a.key ≠ "style" → '"' ∉ a.raw) := by
  refine ⟨fun a ha => ⟨?_, fun d hd => ?_⟩, keys_sublist _, filter_revealed content,
    styleDeclarations_revealed content, exists_style_revealed_iff content, hides_iff,
    tagName_revealTag content, ofTag_revealTag_iff content⟩
  · obtain ⟨b, -, hb⟩ := List.mem_filterMap.1 ha
    exact not_hides_of_reveal hb
  · have hkept : d ∈ (revealed content).flatMap styleDeclarations :=
      List.mem_flatMap.2 ⟨a, ha, hd⟩
    rw [styleDeclarations_revealed, List.mem_filter, Bool.not_eq_true'] at hkept
    refine ⟨fun hdisplay => ?_, fun hvisibility => ?_⟩
    · cases hkept.2.symm.trans (hides_of_display hdisplay)
    · cases hkept.2.symm.trans (hides_of_visibility hvisibility)

def hiddenPath : Text :=
  "path id='CutContour' display=' none ' visibility='collapse' " ++
    "style=' fill : red ;; visibility: hidden !important;\tdisplay :none; font:\"A\"'"

theorem revealTag_shown_hiddenPath :
    revealed hiddenPath =
      [⟨"id", "CutContour"⟩, ⟨"style", "fill : red;font:&quot;A&quot;"⟩] ∧
    (∀ a ∈ revealed hiddenPath, a.key ≠ "style" → '"' ∉ a.raw) ∧
    ofTag (revealTag hiddenPath) = revealed hiddenPath := by
  have hleft : revealed hiddenPath =
      [⟨"id", "CutContour"⟩, ⟨"style", "fill : red;font:&quot;A&quot;"⟩] := by
    decide +kernel
  have hvalues : ∀ a ∈ revealed hiddenPath, a.key ≠ "style" → '"' ∉ a.raw := by
    rw [hleft]
    decide
  obtain ⟨-, -, -, -, -, -, -, hread⟩ := revealTag_shown hiddenPath
  exact ⟨hleft, hvalues, hread.2 hvalues⟩

def importantlyHidden : Text := "path id='CutContour' style='display:none !important;stroke:#000'"

/-- The mark keeps the declaration in the style, and the path hidden. -/
theorem revealTag_shown_importantlyHidden :
    ∃ a ∈ ofTag (revealTag importantlyHidden), ∃ d ∈ a.styleDeclarations,
      Sets "display" "none" d := by
  have hleft : ofTag (revealTag importantlyHidden) =
      [⟨"id", "CutContour"⟩, ⟨"style", "display:none !important;stroke:#000"⟩] := by
    decide +kernel
  have hdeclarations : styleDeclarations ⟨"style", "display:none !important;stroke:#000"⟩ =
      ["display:none !important", "stroke:#000"] := by
    decide +kernel
  have hsets : Sets "display" "none" "display:none !important" :=
    .inr ⟨"none ", "important", ⟨"display", "none !important", rfl, rfl, rfl⟩, rfl, rfl⟩
  rw [hleft]
  refine ⟨_, List.mem_cons_of_mem _ List.mem_cons_self, "display:none !important", ?_, hsets⟩
  rw [hdeclarations]
  exact List.mem_cons_self

end Markup
end CutPath
