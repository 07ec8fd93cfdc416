import CutPath.Proofs.Document.Instructions

namespace CutPath
open Text
set_option autoImplicit true

namespace Instruction

/-- So many numerals with one of the operators behind them. -/
def IsSetting (count : Nat) (operators ws : List Text) : Prop :=
  ∃ numerals op, ws = numerals ++ [op] ∧ numerals.length = count ∧ (∀ n ∈ numerals, IsNumeral n) ∧
    op ∈ operators

/-- Whether words have the shape that a label stands for. -/
def HasShape (ws : List Text) : Label → Prop
  | .colorSet => IsSetting 3 ["rg", "setrgbcolor"] ws
  | .cmykSet => IsSetting 4 ["k", "setcmykcolor"] ws
  | .graySet => IsSetting 1 ["g", "setgray"] ws
  | .widthSet => IsSetting 1 ["w", "setlinewidth"] ws
  | .strokeStandalone => ∃ w ∈ strokeTokens, ws = [w]
  | .strokeInline => 2 ≤ ws.length ∧ ∃ w ∈ strokeTokens, w ∈ ws
  | .outsidePage | .pageStart | .pageEnd | .other => False

def shaped : List Label :=
  [.colorSet, .cmykSet, .graySet, .widthSet, .strokeStandalone, .strokeInline]

instance (w : Text) : Decidable (IsNumeral w) :=
  decidable_of_iff (w ≠ [] ∧ w.all isNumeralChar = true) (and_congr_right fun _ => List.all_eq_true)

theorem isSetting_iff : IsSetting count operators ws ↔
    ws.length = count + 1 ∧ (∀ n ∈ ws.dropLast, IsNumeral n) ∧
      ∃ op ∈ ws.getLast?, op ∈ operators := by
  constructor
  · rintro ⟨numerals, op, rfl, hlength, hn, ho⟩
    refine ⟨by simp [hlength], ?_, op, by simp, ho⟩
    rwa [List.dropLast_concat]
  · rintro ⟨hlength, hn, op, hop, ho⟩
    obtain ⟨numerals, rfl⟩ := List.getLast?_eq_some_iff.1 hop
    rw [List.dropLast_concat] at hn
    exact ⟨numerals, op, rfl, by simpa using hlength, hn, ho⟩

instance (count : Nat) (operators ws : List Text) : Decidable (IsSetting count operators ws) :=
  decidable_of_iff _ isSetting_iff.symm

theorem standalone_iff :
    HasShape ws .strokeStandalone ↔ ws.length = 1 ∧ ∃ w ∈ strokeTokens, w ∈ ws := by
  constructor
  · rintro ⟨w, hw, rfl⟩
    exact ⟨rfl, w, hw, List.mem_singleton_self w⟩
  · rintro ⟨hlength, w, hw, hmem⟩
    obtain ⟨v, rfl⟩ := List.length_eq_one_iff.1 hlength
    exact ⟨w, hw, by rw [List.mem_singleton.1 hmem]⟩

instance (ws : List Text) : (l : Label) → Decidable (HasShape ws l)
  | .colorSet => inferInstanceAs (Decidable (IsSetting 3 ["rg", "setrgbcolor"] ws))
  | .cmykSet => inferInstanceAs (Decidable (IsSetting 4 ["k", "setcmykcolor"] ws))
  | .graySet => inferInstanceAs (Decidable (IsSetting 1 ["g", "setgray"] ws))
  | .widthSet => inferInstanceAs (Decidable (IsSetting 1 ["w", "setlinewidth"] ws))
  | .strokeStandalone => decidable_of_iff _ standalone_iff.symm
  | .strokeInline => inferInstanceAs (Decidable (2 ≤ ws.length ∧ ∃ w ∈ strokeTokens, w ∈ ws))
  | .outsidePage | .pageStart | .pageEnd | .other => inferInstanceAs (Decidable False)

/-- The labels of lines that set something, with the number of numerals and the operators. -/
def settings : List (Label × Nat × List Text) :=
  [(.colorSet, 3, ["rg", "setrgbcolor"]), (.cmykSet, 4, ["k", "setcmykcolor"]),
   (.graySet, 1, ["g", "setgray"]), (.widthSet, 1, ["w", "setlinewidth"])]

theorem count_pos_of_settings (hl : (l, count, operators) ∈ settings) : 0 < count := by
  have h : ∀ s ∈ settings, 0 < s.2.1 := by decide
  exact h _ hl

theorem not_stroke_of_settings (hl : (l, count, operators) ∈ settings) :
    ∀ op ∈ operators, op ∉ strokeTokens := by
  have h : ∀ s ∈ settings, ∀ op ∈ s.2.2, op ∉ strokeTokens := by decide
  exact h _ hl

theorem settings_inj (hl : (l, count, operators) ∈ settings)
    (hl' : (l', count', operators') ∈ settings) (ho : op ∈ operators) (ho' : op ∈ operators') :
    l = l' := by
  have h : ∀ s ∈ settings, ∀ s' ∈ settings, ∀ op ∈ s.2.2, op ∈ s'.2.2 → s.1 = s'.1 := by decide
  exact h _ hl _ hl' op ho ho'

namespace IsSetting

theorem not_mem_of_stroke (h : IsSetting count operators ws)
    (hl : (l, count, operators) ∈ settings) (hw : w ∈ strokeTokens) : w ∉ ws := by
  obtain ⟨numerals, op, rfl, -, hn, ho⟩ := h
  intro hm
  rcases List.mem_append.1 hm with hm | hm
  · exact not_numeral_of_stroke hw (hn w hm)
  · obtain rfl := List.mem_singleton.1 hm
    exact not_stroke_of_settings hl w ho hw

theorem label_unique (h : IsSetting count operators ws) (h' : IsSetting count' operators' ws)
    (hl : (l, count, operators) ∈ settings) (hl' : (l', count', operators') ∈ settings) :
    l = l' := by
  obtain ⟨numerals, op, rfl, -, -, ho⟩ := h
  obtain ⟨numerals', op', hws, -, -, ho'⟩ := h'
  obtain rfl := List.singleton_inj.1 (List.append_inj' hws rfl).2
  exact settings_inj hl hl' ho ho'

end IsSetting

namespace HasShape

theorem kinds (h : HasShape ws l) :
    (∃ count operators, (l, count, operators) ∈ settings ∧ IsSetting count operators ws) ∨
      (∃ w ∈ strokeTokens, w ∈ ws) ∧
        (l = .strokeStandalone ∧ ws.length = 1 ∨ l = .strokeInline ∧ 2 ≤ ws.length) := by
  cases l with
  | colorSet => exact .inl ⟨3, _, by decide, h⟩
  | cmykSet => exact .inl ⟨4, _, by decide, h⟩
  | graySet => exact .inl ⟨1, ["g", "setgray"], by decide, h⟩
  | widthSet => exact .inl ⟨1, ["w", "setlinewidth"], by decide, h⟩
  | strokeStandalone =>
    obtain ⟨hlength, hstroke⟩ := standalone_iff.1 h
    exact .inr ⟨hstroke, .inl ⟨rfl, hlength⟩⟩
  | strokeInline => exact .inr ⟨h.2, .inr ⟨rfl, h.1⟩⟩
  | outsidePage | pageStart | pageEnd | other => exact h.elim

theorem unique (h : HasShape ws l) (h' : HasShape ws l') : l = l' := by
  rcases h.kinds with ⟨count, operators, hl, hs⟩ | ⟨⟨w, hw, hmem⟩, hl⟩
  · rcases h'.kinds with ⟨count', operators', hl', hs'⟩ | ⟨⟨w, hw, hmem⟩, -⟩
    · exact hs.label_unique hs' hl hl'
    · exact (hs.not_mem_of_stroke hl hw hmem).elim
  · rcases h'.kinds with ⟨count', operators', hl', hs'⟩ | ⟨-, hl'⟩
    · exact (hs'.not_mem_of_stroke hl' hw hmem).elim
    · rcases hl with ⟨rfl, hlone⟩ | ⟨rfl, hmany⟩
      · rcases hl' with ⟨rfl, -⟩ | ⟨-, hmany⟩
        · rfl
        · omega
      · rcases hl' with ⟨-, hlone⟩ | ⟨rfl, -⟩
        · omega
        · rfl

theorem mem_shaped (h : HasShape ws l) : l ∈ shaped := by
  cases l with
  | outsidePage | pageStart | pageEnd | other => exact h.elim
  | colorSet | cmykSet | graySet | widthSet | strokeStandalone | strokeInline => decide

end HasShape

/-- The test that a line of a page is put to for a label. A lone stroke passes the last one too. -/
def passes (line : Text) : Label → Bool
  | .colorSet => sets 3 ["rg", "setrgbcolor"] line
  | .cmykSet => sets 4 ["k", "setcmykcolor"] line
  | .graySet => sets 1 ["g", "setgray"] line
  | .widthSet => sets 1 ["w", "setlinewidth"] line
  | .strokeStandalone => isStrokeToken (trim line)
  | .strokeInline => (words line).any isStrokeToken
  | .outsidePage | .pageStart | .pageEnd | .other => false

/-- The label of the first test that a line passes, when the tests are made in some order. -/
def firstPassed (order : List Label) (line : Text) : Label :=
  (order.find? (passes line)).getD .other

theorem label_eq (line : Text) : label line = firstPassed shaped line := by
  simp only [label, firstPassed, shaped, List.find?_cons, List.find?_nil, passes]
  cases sets 3 ["rg", "setrgbcolor"] line with
  | true => rfl
  | false =>
  cases sets 4 ["k", "setcmykcolor"] line with
  | true => rfl
  | false =>
  cases sets 1 ["g", "setgray"] line with
  | true => rfl
  | false =>
  cases sets 1 ["w", "setlinewidth"] line with
  | true => rfl
  | false =>
  cases isStrokeToken (trim line) with
  | true => rfl
  | false => cases (words line).any isStrokeToken <;> rfl

theorem passes_iff (line : Text) (hl : l ≠ .strokeInline) :
    passes line l = true ↔ HasShape (words line) l := by
  cases l with
  | colorSet | cmykSet | graySet | widthSet => exact sets_iff (by decide)
  | strokeStandalone =>
    rw [passes, isStrokeToken_trim_iff]
    constructor
    · exact fun ⟨w, hws, hw⟩ => ⟨w, List.contains_iff_mem.1 hw, hws⟩
    · exact fun ⟨w, hw, hws⟩ => ⟨w, hws, List.contains_iff_mem.2 hw⟩
  | strokeInline => exact (hl rfl).elim
  | outsidePage | pageStart | pageEnd | other => exact ⟨fun h => (nomatch h), False.elim⟩

theorem passes_inline_iff (line : Text) : passes line .strokeInline = true ↔
    HasShape (words line) .strokeStandalone ∨ HasShape (words line) .strokeInline := by
  have hany : passes line .strokeInline = true ↔ ∃ w ∈ strokeTokens, w ∈ words line := by
    rw [passes, List.any_eq_true]
    constructor
    · exact fun ⟨w, hmem, hw⟩ => ⟨w, List.contains_iff_mem.1 hw, hmem⟩
    · exact fun ⟨w, hw, hmem⟩ => ⟨w, hmem, List.contains_iff_mem.2 hw⟩
  rw [hany, standalone_iff, HasShape]
  constructor
  · rintro ⟨w, hw, hmem⟩
    have hpos := List.length_pos_of_mem hmem
    rcases Nat.eq_or_lt_of_le hpos with hone | htwo
    · exact .inl ⟨hone.symm, w, hw, hmem⟩
    · exact .inr ⟨htwo, w, hw, hmem⟩
  · exact fun h => h.elim And.right And.right

theorem mem_of_pair_sublist {a b : α} (h : [a, b].Sublist (l ++ b :: l')) (hb : b ∉ l') :
    a ∈ l := by
  obtain ⟨u, v, huv, hu, hv⟩ := List.sublist_append_iff.1 h
  cases u with
  | cons c u =>
    obtain ⟨rfl, -⟩ := List.cons.inj huv
    exact hu.subset List.mem_cons_self
  | nil =>
    rw [List.nil_append] at huv
    rw [← huv] at hv
    cases hv with
    | cons _ hv => exact (hb (hv.subset (by simp))).elim
    | cons_cons _ hv => exact (hb (hv.subset (by simp))).elim

theorem hasShape_firstPassed (ho : order.Perm shaped)
    (hlone : [Label.strokeStandalone, .strokeInline].Sublist order) (line : Text) :
    HasShape (words line) (firstPassed order line) ∨
      firstPassed order line = .other ∧ ∀ l, ¬ HasShape (words line) l := by
  rw [firstPassed]
  cases hfind : order.find? (passes line) with
  | some l =>
    refine .inl ?_
    obtain ⟨hl, before, after, rfl, hbefore⟩ := List.find?_eq_some_iff_append.1 hfind
    by_cases hinline : l = .strokeInline
    · subst hinline
      have hnodup : (before ++ Label.strokeInline :: after).Nodup := ho.nodup_iff.2 (by decide)
      have hafter : Label.strokeInline ∉ after :=
        (List.nodup_cons.1 (List.nodup_append.1 hnodup).2.1).1
      have hmem := hbefore _ (mem_of_pair_sublist hlone hafter)
      refine ((passes_inline_iff line).1 hl).resolve_left fun h => ?_
      rw [(passes_iff line (by decide)).2 h] at hmem
      cases hmem
    · exact (passes_iff line hinline).1 hl
  | none =>
    rw [List.find?_eq_none] at hfind
    refine .inr ⟨rfl, fun l hl => ?_⟩
    have hnot := hfind l (ho.mem_iff.2 hl.mem_shaped)
    by_cases hinline : l = .strokeInline
    · subst hinline
      exact hnot ((passes_inline_iff line).2 (.inr hl))
    · exact hnot ((passes_iff line hinline).2 hl)

theorem hasShape_label (line : Text) : HasShape (words line) (label line) ∨
    label line = .other ∧ ∀ l, ¬ HasShape (words line) l := by
  rw [label_eq]
  exact hasShape_firstPassed (.refl shaped) (by decide) line

theorem find?_eq_of_unique {l : List α} {p : α → Bool} (hx : x ∈ l) (hp : p x = true)
    (hu : ∀ y, p y = true → y = x) : l.find? p = some x := by
  cases hfind : l.find? p with
  | some y => rw [hu y (List.find?_some hfind)]
  | none => exact (List.find?_eq_none.1 hfind x hx hp).elim

/-- A line of a page has the label of the shape of its words, and the label of all other lines when
they have none. No words have two shapes; so the label is that of the first shape in any order, and
also of the first test that is passed, if only a lone stroke is tried before one among others. -/
theorem label_iff_hasShape (line : Text) :
    (∀ l ∈ shaped, label line = l ↔ HasShape (words line) l) ∧
    (label line = .other ↔ ∀ l, ¬ HasShape (words line) l) ∧
    (∀ ws l l', HasShape ws l → HasShape ws l' → l = l') ∧
    ∀ order : List Label, order.Perm shaped →
      (order.find? fun l => decide (HasShape (words line) l)).getD .other = label line ∧
      ([.strokeStandalone, .strokeInline].Sublist order → firstPassed order line = label line) := by
  have hlabel := hasShape_label line
  refine ⟨fun l hl => ⟨?_, fun h => ?_⟩, ⟨?_, fun h => ?_⟩, fun ws l l' => HasShape.unique,
    fun order ho => ⟨?_, ?_⟩⟩
  · rintro rfl
    rcases hlabel with hlabel | ⟨hother, -⟩
    · exact hlabel
    · rw [hother] at hl
      exact absurd hl (by decide)
  · rcases hlabel with hlabel | ⟨-, hnone⟩
    · exact hlabel.unique h
    · exact (hnone l h).elim
  · intro hother
    rcases hlabel with hlabel | ⟨-, hnone⟩
    · rw [hother] at hlabel
      exact hlabel.elim
    · exact hnone
  · exact (hlabel.resolve_left (h _)).1
  · rcases hlabel with hlabel | ⟨hother, hnone⟩
    · have hfind : (order.find? fun l => decide (HasShape (words line) l)) = some (label line) :=
        find?_eq_of_unique (ho.mem_iff.2 hlabel.mem_shaped) (decide_eq_true hlabel)
          fun l hl => (of_decide_eq_true hl).unique hlabel
      rw [hfind, Option.getD_some]
    · have hfind : (order.find? fun l => decide (HasShape (words line) l)) = none :=
        List.find?_eq_none.2 fun l _ hl => hnone l (of_decide_eq_true hl)
      rw [hfind, Option.getD_none, hother]
  · intro hlone
    rcases hasShape_firstPassed ho hlone line with hfirst | ⟨hfirst, hnone⟩
    · exact hfirst.unique (hlabel.resolve_right fun h => h.2 _ hfirst)
    · rw [hfirst, (hlabel.resolve_left (hnone _)).1]

def strokesFirst : List Label :=
  [.strokeStandalone, .strokeInline, .widthSet, .graySet, .cmykSet, .colorSet]

theorem label_iff_hasShape_blanks :
    label "\t1 .5\u00a0٣.\u2003setrgbcolor\r" = .colorSet ∧
    HasShape (words "\t1 .5\u00a0٣.\u2003setrgbcolor\r") .colorSet ∧
    strokesFirst.Perm shaped ∧ [Label.strokeStandalone, .strokeInline].Sublist strokesFirst ∧
    firstPassed strokesFirst "S" = label "S" := by
  have hcolor : HasShape (words "\t1 .5\u00a0٣.\u2003setrgbcolor\r") .colorSet := by decide +kernel
  have hperm : strokesFirst.Perm shaped := by decide
  have hlone : [Label.strokeStandalone, .strokeInline].Sublist strokesFirst := by decide
  obtain ⟨hlabel, -⟩ := label_iff_hasShape "\t1 .5\u00a0٣.\u2003setrgbcolor\r"
  obtain ⟨-, -, -, horder⟩ := label_iff_hasShape "S"
  exact ⟨(hlabel _ (by decide)).2 hcolor, hcolor, hperm, hlone, (horder strokesFirst hperm).2 hlone⟩

end Instruction
end CutPath
