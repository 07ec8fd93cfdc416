import CutPath.Proofs.Document.Passes

namespace CutPath
set_option autoImplicit true

def Marker.afterFirst? (m : Text) : List (List Text) → Option (List (List Text))
  | [] => none
  | ms :: rest => if ms.contains m then some rest else afterFirst? m rest

theorem Marker.afterFirst?_markers {p : Text → Bool}
    (hp : ∀ line, p line = (borne line).contains m) (lines : List Text) :
    afterFirst? m (markers lines) =
      (lines.findIdx? p).map fun i => markers (lines.drop (i + 1)) := by
  induction lines with
  | nil => rfl
  | cons line lines ih =>
    rw [List.findIdx?_cons]
    by_cases hb : borne line = []
    · have hmarkers : markers (line :: lines) = markers lines :=
        List.filterMap_cons_none (borne?_eq_none hb)
      have hline : p line = false := by
        rw [hp, hb]
        rfl
      rw [hmarkers, ih, hline, if_neg Bool.false_ne_true, Option.map_map]
      rfl
    · have hmarkers : markers (line :: lines) = borne line :: markers lines :=
        List.filterMap_cons_some (if_neg hb)
      rw [hmarkers, afterFirst?, ← hp]
      split
      · rfl
      · rw [ih, Option.map_map]
        rfl

/-- The markers after a page, or the marker that is missing. -/
def Page.markersAfter (layer : Layer) (ms : List (List Text)) : Except Failure (List (List Text)) :=
  match Marker.afterFirst? Marker.boundingBox ms with
  | none => .error (.markerNotFound layer.headerStep Marker.boundingBox)
  | some _ =>
    match Marker.afterFirst? Marker.endPageSetup ms with
    | none => .error (.markerNotFound layer.setupStep Marker.endPageSetup)
    | some rest =>
      match Marker.afterFirst? Marker.showpage rest with
      | none => .error (.markerNotFound layer.bodyStep Marker.showpage)
      | some rest => .ok rest

theorem PageParts.map_ofLines (layer : Layer) (lines : List Text) :
    (ofLines layer lines).map (fun p => Marker.markers (lines.drop (p.paint + 1))) =
      Page.markersAfter layer (Marker.markers lines) := by
  have hbox := Marker.afterFirst?_markers (m := Marker.boundingBox)
    (fun line => (Marker.contains_borne (by decide) line).symm) lines
  have hsetup := Marker.afterFirst?_markers (m := Marker.endPageSetup)
    (fun line => (Marker.contains_borne (by decide) line).symm) lines
  have hpaint := Marker.afterFirst?_markers
    fun line => (Marker.contains_borne_showpage line).symm
  rw [← Marker.boundingBox?] at hbox
  rw [← Marker.pageSetupEnd?] at hsetup
  unfold ofLines Page.markersAfter
  rw [hbox, hsetup]
  cases Marker.boundingBox? lines with
  | none => rfl
  | some box =>
    cases Marker.pageSetupEnd? lines with
    | none => rfl
    | some setupEnd =>
      simp only [Option.map_some, hpaint, Marker.pagePaint?, Marker.indexFrom?]
      cases (lines.drop (setupEnd + 1)).findIdx? Marker.isPaint with
      | none => rfl
      | some i =>
        simp only [Option.map_some, Except.map, List.drop_drop]
        congr 3
        omega

namespace Document

/-- What a merge comes to, by the markers of the print and of the cut document. -/
def mergeOutcome (print cut : List (List Text)) : Except Failure Unit :=
  match Page.markersAfter .print print with
  | .error f => .error f
  | .ok _ =>
    match Page.markersAfter .cut cut with
    | .error f => .error f
    | .ok rest =>
      match Marker.afterFirst? Marker.trailer rest with
      | none => .error (.markerNotFound "cut document trailer" Marker.trailer)
      | some _ => .ok ()

theorem merge_outcome (print cut : Document) :
    (print.merge cut).2.map (fun _ => ()) =
      mergeOutcome (Marker.markers print.lines) (Marker.markers cut.lines) := by
  have htrailer := Marker.afterFirst?_markers (m := Marker.trailer)
    fun line => (Marker.contains_borne (by decide) line).symm
  rw [mergeOutcome, ← PageParts.map_ofLines, ← PageParts.map_ofLines, merge]
  cases PageParts.ofLines .print print.lines with
  | error f => rfl
  | ok p =>
    cases PageParts.ofLines .cut cut.lines with
    | error f => rfl
    | ok c =>
      simp only [Except.map, htrailer, Marker.trailer?, Marker.indexFrom?]
      cases (cut.lines.drop (c.paint + 1)).findIdx? (Marker.opens Marker.trailer) <;> rfl

theorem Page.markersAfter_error (h : Page.markersAfter layer ms = .error f) :
    ∃ step marker, f = .markerNotFound step marker := by
  unfold Page.markersAfter at h
  split at h
  · cases h
    exact ⟨_, _, rfl⟩
  split at h
  · cases h
    exact ⟨_, _, rfl⟩
  split at h
  · cases h
    exact ⟨_, _, rfl⟩
  · cases h

theorem mergeOutcome_error (h : mergeOutcome print cut = .error f) :
    ∃ step marker, f = .markerNotFound step marker := by
  unfold mergeOutcome at h
  split at h
  · next he =>
    cases h
    exact Page.markersAfter_error he
  split at h
  · next he =>
    cases h
    exact Page.markersAfter_error he
  split at h
  · cases h
    exact ⟨_, _, rfl⟩
  · cases h

/-- Passes over the layers never change whether a merge fails, nor what it misses when it does. -/
theorem merge_outcome_of_passed {print print' cut cut' : Document} (hp : Passed print print')
    (hc : Passed cut cut') :
    ((∃ m, (print'.merge cut').2 = .ok m) ↔ ∃ m, (print.merge cut).2 = .ok m) ∧
    ∀ f, (print.merge cut).2 = .error f →
      (print'.merge cut').2 = .error f ∧ ∃ step marker, f = .markerNotFound step marker := by
  have hbefore := merge_outcome print cut
  have hafter := merge_outcome print' cut'
  rw [hp.markers_eq, hc.markers_eq, ← hbefore] at hafter
  constructor
  · cases h : (print.merge cut).2 <;> cases h' : (print'.merge cut').2 <;>
      simp [h, h', Except.map] at hafter ⊢
  · intro f hf
    rw [hf] at hbefore hafter
    refine ⟨?_, mergeOutcome_error hbefore.symm⟩
    cases h' : (print'.merge cut').2 with
    | error f' =>
      rw [h'] at hafter
      exact congrArg Except.error (Except.error.inj hafter)
    | ok m =>
      rw [h'] at hafter
      cases hafter

def markerColor : SpotColor := ⟨" S %%EndPageSetup", .zero, .one, .zero, .zero⟩

def earlyTrailer : Document :=
  ⟨["%%BoundingBox: 0 0 9 9", "%%Trailer", "%%EndProlog", "%%Page: 1 1", "%%EndPageSetup", "1 w",
    "S", "showpage"]⟩

theorem merge_outcome_of_passed_trailer :
    Passed printSample (printSample.annotateHeader markerColor).2 ∧
    Passed earlyTrailer (earlyTrailer.markCut markerColor .hairline).2.markStrokes.2 ∧
    (printSample.merge earlyTrailer).2 =
      .error (.markerNotFound "cut document trailer" "%%Trailer") ∧
    ((printSample.annotateHeader markerColor).2.merge
      (earlyTrailer.markCut markerColor .hairline).2.markStrokes.2).2 =
      .error (.markerNotFound "cut document trailer" "%%Trailer") := by
  have hname : '\n' ∉ markerColor.name := by decide
  have hprint : Passed printSample (printSample.annotateHeader markerColor).2 :=
    .header .refl hname
  have hcut : Passed earlyTrailer (earlyTrailer.markCut markerColor .hairline).2.markStrokes.2 :=
    .strokes (.cut .refl hname)
  have hmerge : (printSample.merge earlyTrailer).2 =
      .error (.markerNotFound "cut document trailer" "%%Trailer") := rfl
  exact ⟨hprint, hcut, hmerge, ((merge_outcome_of_passed hprint hcut).2 _ hmerge).1⟩

end Document
end CutPath
