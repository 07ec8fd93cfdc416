import CutPath.Proofs.Conversion.Consent
import CutPath.Proofs.Conversion.Delivery
import CutPath.Proofs.Document.Mentions
import CutPath.Proofs.Document.RoundTrip

namespace CutPath.Conversion
set_option autoImplicit true

/-- The characters of the files that are read and written. -/
def isLatin1 (c : Char) : Prop := c.toNat < 256

variable {tools : Tools σ} {settings : Settings} {request : Request} {r s : Run σ}

namespace Opened

variable {o : Opened}

theorem From.reachable (h : o.From tools settings state input kind exports) :
    ∀ d ∈ o.documents, Document.Reachable isLatin1 d := by
  intro d hd
  cases h with
  | document hparse =>
    rw [List.mem_singleton.1 hd]
    exact .ofLatin1 hparse
  | drawing _ _ _ hexport =>
    obtain ⟨bytes, -, hparse⟩ := hexport.left
    rw [List.mem_singleton.1 hd]
    exact .ofLatin1 hparse
  | layers _ _ _ hfirst _ hsecond =>
    obtain ⟨_, -, hprint⟩ := hfirst.left
    obtain ⟨_, -, hcut⟩ := hsecond.left
    rcases List.mem_cons.1 hd with rfl | hd
    · exact .ofLatin1 hprint
    · rw [List.mem_singleton.1 hd]
      exact .ofLatin1 hcut

theorem converted_layers_eq_ok (h : (layers print cut regions).converted settings = .ok made) :
    ∃ m, (print.merge (cut.markCut .cutContour settings.stroke).2).2 = .ok m ∧ made =
      ⟨m, .merged regions, (cut.markCut .cutContour settings.stroke).1.strokes.activations⟩ := by
  simp only [converted] at h
  cases hm : (print.merge (cut.markCut .cutContour settings.stroke).2).2 with
  | error f =>
    rw [hm] at h
    cases h
  | ok m =>
    rw [hm] at h
    exact ⟨m, rfl, (Except.ok.inj h).symm⟩

theorem converted_reachable (h : o.converted settings = .ok made)
    (hdocs : ∀ d ∈ o.documents, Document.Reachable isLatin1 d) :
    Document.Reachable isLatin1 made.document := by
  have hall : SpotColor.cutContour.name.all
      (fun c => c != '\n' && decide (c.toNat < 256)) = true := by
    decide
  have hname : ∀ c ∈ SpotColor.cutContour.name, c ≠ '\n' ∧ isLatin1 c := by
    intro c hc
    simpa [isLatin1] using List.all_eq_true.1 hall c hc
  cases o with
  | single d =>
    cases h
    exact .cut (hdocs d List.mem_cons_self) hname
  | layers print cut regions =>
    obtain ⟨m, hm, rfl⟩ := converted_layers_eq_ok h
    exact .merge (hdocs print (by simp [documents]))
      (.cut (hdocs cut (by simp [documents])) hname) hm

/-- A converted document with a marked stroke names the color. -/
theorem converted_mentions (h : o.converted settings = .ok made) (hs : 0 < made.strokes) :
    made.document.mentions SpotColor.cutContourName = true := by
  cases o with
  | single d =>
    cases h
    exact (Document.mentions_markCut d settings.stroke).2 (.inr (.inr (.inr hs)))
  | layers print cut regions =>
    obtain ⟨m, hm, rfl⟩ := converted_layers_eq_ok h
    have hcut := (Document.mentions_markCut cut settings.stroke).2 (.inr (.inr (.inr hs)))
    exact Document.mentions_merge hm hcut

end Opened

theorem opening_of_convert (h : convert tools settings request r = (.ok summary, s)) :
    ∃ o kind input exports, (opening tools settings request r).1 = .ok o ∧
      InputKind.ofPath request.input = .ok kind ∧ r.store.read request.input = .ok input ∧
      o.From tools settings r.state input kind exports := by
  rcases convert_opening tools settings request r with
    ⟨f, -, hrun⟩ | ⟨avoid, destination, l, x, t, -, hopen, hrun⟩
  · cases (hrun tools.confirm).symm.trans h
  cases x with
  | error f => cases (hrun tools.confirm).symm.trans h
  | ok o =>
    obtain ⟨kind, scratch, u, hkind, hfresh, hbody, -⟩ := inScratch_eq_ok hopen
    obtain ⟨input, exports, hread, hfrom, -⟩ := openInput_eq_ok hbody (hfresh.lookup_below _)
    rw [hfresh.read_put (List.subset_append_left _ _)] at hread
    exact ⟨o, kind, input, exports, congrArg Prod.fst hopen, hkind, hread, hfrom⟩

theorem asks_of_mentions (h : convert tools settings request r = (.ok summary, s))
    (hkind : InputKind.ofPath request.input = .ok .document)
    (hread : r.store.read request.input = .ok bytes) (hparse : Document.ofLatin1 bytes = .ok d)
    (hname : d.mentions SpotColor.cutContourName = true) : Asks tools settings request r := by
  obtain ⟨o, kind, input, exports, hopen, hkind', hread', hfrom⟩ := opening_of_convert h
  cases hkind.symm.trans hkind'
  cases hread.symm.trans hread'
  refine ⟨o, hopen, o.mentionsColor_iff.1 ?_⟩
  cases hfrom with
  | document hparse' =>
    cases hparse.symm.trans hparse'
    rw [Opened.mentionsColor, Opened.documents, List.any_cons, hname, Bool.true_or]

theorem answer_of_asks (h : convert tools settings request r = (.ok summary, s))
    (hasks : Asks tools settings request r) : answer tools settings request r = .ok true := by
  cases ha : consent (answer tools settings request r) with
  | ok => exact eq_of_consent ha
  | error f =>
    obtain ⟨_, _, -, -, hfailed, -⟩ := convert_of_refusal hasks ha
    rw [h] at hfailed
    cases hfailed

/-- What the cut pass leaves names the spot color exactly when the document did or the pass reports
that it declared the color, defined the procedures or marked a stroke; a merge keeps the name that
the cut document has. So what a conversion has written with a marked stroke is converted once more
only when the operator has been asked and has said yes. -/
theorem convert_recognizes_converted :
    (∀ (d : Document) (style : StrokeStyle),
      (d.markCut .cutContour style).2.mentions SpotColor.cutContourName = true ↔
        d.mentions SpotColor.cutContourName = true ∨
          (∃ i, (d.markCut .cutContour style).1.header = .inserted i) ∨
          (d.markCut .cutContour style).1.prolog ≠ .skipped ∨
          1 ≤ (d.markCut .cutContour style).1.strokes.activations) ∧
    (∀ print cut m : Document, (print.merge cut).2 = .ok m →
      cut.mentions SpotColor.cutContourName = true →
      m.mentions SpotColor.cutContourName = true) ∧
    ∀ {σ τ : Type} (tools : Tools σ) (settings : Settings) (request : Request) (r s : Run σ)
      (summary : Summary), convert tools settings request r = (.ok summary, s) →
      1 ≤ summary.strokes →
      ∃ bytes, s.store.read summary.output = .ok bytes ∧
        ∀ (tools' : Tools τ) (settings' : Settings) (request' : Request) (r' s' : Run τ)
          (summary' : Summary), InputKind.ofPath request'.input = .ok .document →
          r'.store.read request'.input = .ok bytes →
          convert tools' settings' request' r' = (.ok summary', s') →
          answer tools' settings' request' r' = .ok true ∧
            ∃ exports t later,
              s'.history = r'.history ++ exports ++ [(.asking question, t)] ++ later := by
  refine ⟨Document.mentions_markCut, fun print cut m h => Document.mentions_merge h, ?_⟩
  intro σ τ tools settings request r s summary h hs
  obtain ⟨d⟩ := Delivery.of_convert h
  refine ⟨d.bytes, d.output ▸ d.written, ?_⟩
  have hsound := (Opened.converted_reachable d.converted d.source.reachable).sound
  obtain ⟨bytes, hbytes, hparse⟩ := hsound.ofLatin1_toLatin1
  have hlatin1 : d.made.document.toLatin1 = .ok d.bytes := Document.toLatin1_eq_ok_iff.2 d.latin1
  obtain rfl : d.bytes = bytes := Except.ok.inj (hlatin1.symm.trans hbytes)
  intro tools' settings' request' r' s' summary' hkind' hread' h'
  have hasks := asks_of_mentions h' hkind' hread' hparse
    (Opened.converted_mentions d.converted (d.strokes ▸ hs))
  have hyes := answer_of_asks h' hasks
  obtain ⟨exports', t, later, hhistory, -, -⟩ := convert_of_consent hasks hyes
  rw [h'] at hhistory
  exact ⟨hyes, exports', t, later, hhistory⟩

def willingTools : Tools Unit := { pageTools with confirm := fun _ _ => (.ok true, ()) }

theorem convert_recognizes_converted_layers :
    (∃ m, (Document.printSample.merge (Document.cutSample.markCut .cutContour .hairline).2).2 =
        .ok m ∧ m.mentions SpotColor.cutContourName = true) ∧
    ∃ summary s summary' s' exports t later,
      convert pageTools .default ⟨⟨"logo.svg"⟩, none⟩ regionRun = (.ok summary, s) ∧
      summary.strokes = 1 ∧
      convert willingTools .default ⟨⟨"logo_versaworks.eps"⟩, none⟩ s = (.ok summary', s') ∧
      s'.history = s.history ++ exports ++ [(.asking question, t)] ++ later := by
  constructor
  · have hcut : (Document.cutSample.markCut .cutContour .hairline).2.mentions
        SpotColor.cutContourName = true := by
      decide +kernel
    have hmerge : (Document.printSample.merge
        (Document.cutSample.markCut .cutContour .hairline).2).2.isOk = true := by
      decide +kernel
    cases hm : (Document.printSample.merge
        (Document.cutSample.markCut .cutContour .hairline).2).2 with
    | error f =>
      rw [hm] at hmerge
      cases hmerge
    | ok m => exact ⟨m, rfl, convert_recognizes_converted.2.1 _ _ m hm hcut⟩
  · have hkind : InputKind.ofPath ⟨"logo_versaworks.eps"⟩ = .ok .document := by decide +kernel
    have hsummary : (convert pageTools .default ⟨⟨"logo.svg"⟩, none⟩ regionRun).1.map
        (fun summary => (summary.output, summary.strokes)) =
          .ok (⟨"logo_versaworks.eps"⟩, 1) := by
      decide +kernel
    have hagain : (convert willingTools .default ⟨⟨"logo_versaworks.eps"⟩, none⟩
        (convert pageTools .default ⟨⟨"logo.svg"⟩, none⟩ regionRun).2).1.isOk = true := by
      decide +kernel
    cases h : convert pageTools .default ⟨⟨"logo.svg"⟩, none⟩ regionRun with
    | mk x s =>
      rw [h] at hsummary hagain
      cases x with
      | error f => cases hsummary
      | ok summary =>
        obtain ⟨houtput, hstrokes⟩ := Prod.mk.inj (Except.ok.inj hsummary)
        cases h' : convert willingTools .default ⟨⟨"logo_versaworks.eps"⟩, none⟩ s with
        | mk x' s' =>
          rw [h'] at hagain
          cases x' with
          | error f => cases hagain
          | ok summary' =>
            obtain ⟨bytes, hread, hasked⟩ :=
              convert_recognizes_converted.2.2 pageTools .default ⟨⟨"logo.svg"⟩, none⟩ regionRun s
                summary h (Nat.le_of_eq hstrokes.symm)
            rw [houtput] at hread
            obtain ⟨-, exports, t, later, hhistory⟩ :=
              hasked willingTools .default ⟨⟨"logo_versaworks.eps"⟩, none⟩ s s' summary' hkind hread
                h'
            exact ⟨summary, s, summary', s', exports, t, later, rfl, hstrokes, h', hhistory⟩

end CutPath.Conversion
