import CutPath.Proofs.Document.MarkedStrokes
import CutPath.Proofs.Document.MergeLayout

namespace CutPath
open Text
set_option autoImplicit true

/-- What a line is to those who look for pages: whether it ends a page setup, paints a page, opens
a page region or closes one. -/
structure Landmark where
  setup : Bool
  paint : Bool
  starts : Bool
  ends : Bool
  deriving DecidableEq, Repr

namespace Landmark

def plain : Landmark := ⟨false, false, false, false⟩

def ofLine (line : Text) : Landmark :=
  ⟨Marker.opens Marker.endPageSetup line, Marker.isPaint line, Marker.isPageStart line,
    Marker.isPageEnd line⟩

def ofLine? (line : Text) : Option Landmark :=
  if ofLine line = plain then none else some (ofLine line)

def ofLines (lines : List Text) : List Landmark := lines.filterMap ofLine?

theorem ofLine_congr (h : words a = words b) : ofLine a = ofLine b := by
  have hm : IsWord Marker.endPageSetup := by decide
  simp only [ofLine, Marker.opens_eq hm, Marker.isPaint_eq, Marker.isPageStart_eq a,
    Marker.isPageStart_eq b, Marker.isPageEnd_eq a, Marker.isPageEnd_eq b, h]

theorem ofLine?_congr (h : words a = words b) : ofLine? a = ofLine? b := by
  rw [ofLine?, ofLine?, ofLine_congr h]

theorem ofLine?_eq_none (h : ofLine line = plain) : ofLine? line = none := if_pos h

theorem ofLine?_eq_some {p : Landmark → Bool} (hp : p plain = false)
    (h : p (ofLine line) = true) : ofLine? line = some (ofLine line) := by
  apply if_neg
  intro hl
  rw [hl, hp] at h
  cases h

theorem ofLine_of_eq_some (h : ofLine? line = some k) : ofLine line = k := by
  unfold ofLine? at h
  split at h
  · cases h
  · exact Option.some.inj h

theorem forall_ofLine_iff {p : Landmark → Bool} (hp : p plain = false) (lines : List Text) :
    (∀ line ∈ lines, p (ofLine line) = false) ↔ ∀ k ∈ ofLines lines, p k = false := by
  rw [ofLines, List.forall_mem_filterMap]
  constructor
  · intro h line hm k hk
    exact ofLine_of_eq_some hk ▸ h line hm
  · intro h line hm
    by_cases hl : ofLine line = plain
    · rw [hl, hp]
    · exact h line hm (ofLine line) (if_neg hl)

end Landmark

namespace Region

def pass (r : Region) (k : Landmark) : Region :=
  if k.starts then .page else if k.ends then .outside else r

theorem read_snd (r : Region) (line : Text) : (r.read line).2 = r.pass (.ofLine line) := by
  unfold read pass Landmark.ofLine
  split
  · rfl
  split
  · rfl
  · cases r <;> rfl

theorem after_eq_foldl (r : Region) (lines : List Text) :
    r.after lines = (Landmark.ofLines lines).foldl pass r := by
  induction lines generalizing r with
  | nil => rfl
  | cons line lines ih =>
    rw [after_cons, ih, read_snd, Landmark.ofLines, Landmark.ofLines, List.filterMap_cons]
    by_cases hl : Landmark.ofLine line = .plain
    · rw [Landmark.ofLine?_eq_none hl, hl]
      rfl
    · rw [Landmark.ofLine?, if_neg hl, List.foldl_cons]

end Region

theorem filterMap_split {view : α → Option κ} (h : lines.filterMap view = ks ++ k :: ks') :
    ∃ a x b, lines = a ++ x :: b ∧ a.filterMap view = ks ∧ view x = some k ∧
      b.filterMap view = ks' := by
  obtain ⟨a, rest, rfl, ha, hrest⟩ := List.filterMap_eq_append_iff.1 h
  obtain ⟨skipped, x, b, rfl, hskipped, hx, hb⟩ := List.filterMap_eq_cons_iff.1 hrest
  refine ⟨a ++ skipped, x, b, by simp, ?_, hx, hb⟩
  rw [List.filterMap_append, ha, List.filterMap_eq_nil_iff.2 hskipped, List.append_nil]

namespace Document

theorem PageAt.of_landmarks {d d' : Document} (h : d.PageAt head body tail)
    (he : Landmark.ofLines d'.lines = Landmark.ofLines d.lines) :
    ∃ head' body' tail', d'.PageAt head' body' tail' ∧
      Landmark.ofLines head' = Landmark.ofLines head ∧
      Landmark.ofLines body' = Landmark.ofLines body := by
  obtain ⟨before, setup, rfl, hsetup, hbefore⟩ := h.setup
  obtain ⟨paint, rest, rfl, hpaint⟩ := h.paint
  have hs := Landmark.ofLine?_eq_some (p := Landmark.setup) rfl hsetup
  have hp := Landmark.ofLine?_eq_some (p := Landmark.paint) rfl hpaint
  simp only [Landmark.ofLines] at he ⊢
  rw [h.lines_eq, List.append_assoc, List.append_assoc, List.filterMap_append,
    List.singleton_append, List.filterMap_cons_some hs] at he
  obtain ⟨before', setup', others, hd, hb, hs', hrest⟩ := filterMap_split he
  rw [List.filterMap_append, List.filterMap_cons_some hp] at hrest
  obtain ⟨body', paint', rest', rfl, hbody, hp', -⟩ := filterMap_split hrest
  refine ⟨before' ++ [setup'], body', paint' :: rest', ⟨?_, ?_, ?_, ?_⟩, ?_, hbody⟩
  · rw [hd]
    simp
  · refine ⟨before', setup', rfl, ?_, ?_⟩
    · exact (congrArg Landmark.setup (Landmark.ofLine_of_eq_some hs')).trans hsetup
    · apply (Landmark.forall_ofLine_iff (p := Landmark.setup) rfl before').2
      rw [Landmark.ofLines, hb]
      exact (Landmark.forall_ofLine_iff rfl before).1 hbefore
  · apply (Landmark.forall_ofLine_iff (p := Landmark.paint) rfl body').2
    rw [Landmark.ofLines, hbody]
    exact (Landmark.forall_ofLine_iff rfl body).1 h.not_paint
  · refine ⟨paint', rest', rfl, ?_⟩
    exact (congrArg Landmark.paint (Landmark.ofLine_of_eq_some hp')).trans hpaint
  · rw [List.filterMap_append, List.filterMap_append, hb, List.filterMap_cons_some hs',
      List.filterMap_cons_some hs, List.filterMap_nil]

end Document
end CutPath
