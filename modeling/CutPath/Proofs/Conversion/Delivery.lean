import CutPath.Proofs.Conversion.Cleanup
import CutPath.Proofs.Conversion.Sources

namespace CutPath.Conversion
set_option autoImplicit true

/-- What becomes of documents that have been opened: one document has its strokes marked, and two
layers are merged when those of the cut layer have been marked. -/
def Opened.converted (settings : Settings) : Opened → Except Failure Converted
  | single d =>
    let (report, marked) := d.markCut .cutContour settings.stroke
    .ok ⟨marked, .singleLayer, report.strokes.activations⟩
  | layers print cut regions =>
    let (report, marked) := cut.markCut .cutContour settings.stroke
    (print.merge marked).2.map fun merged =>
      ⟨merged, .merged regions, report.strokes.activations⟩

theorem finish_eq (settings : Settings) (o : Opened) (r : Run σ) :
    ((finish settings o : Action σ Converted) r).1 = o.converted settings := by
  cases o with
  | single d => rfl
  | layers print cut regions =>
    simp only [finish, markCut, Opened.converted, bind_assoc, pure_bind]
    cases h : (print.merge (cut.markCut .cutContour settings.stroke).2).2 with
    | error f => rfl
    | ok merged => rfl

theorem settle_eq (tools : Tools σ) (staged : Place) (destination : Path)
    (result : Verdict → Summary) (r : Run σ) :
    ∃ s, s.store = r.store ∧ s.history = r.history ++ [(.validating staged, r.store)] ∧
      (do
        let verdict ← runValidator tools staged
        commit staged destination
        return result verdict : Action σ Summary) r =
        match r.store.target destination with
        | .error e => (.error (.ofIo e), s)
        | .ok l => (.ok (result (verdictOf (tools.validator r.state r.store staged).2.1)),
          { s with store := r.store.move staged.location l }) := by
  obtain ⟨s, hrun, hstore, hhistory⟩ := runValidator_ok tools staged r
  refine ⟨s, hstore, hhistory, ?_⟩
  rw [run_bind, hrun]
  dsimp only
  rw [run_bind, commit_eq, hstore]
  cases r.store.target destination <;> rfl

variable {tools : Tools σ} {settings : Settings} {request : Request} {r s : Run σ}

theorem deliver_eq_ok (h : deliver tools avoid destination made r = (.ok summary, s))
    (havoid : destination.pieces ⊆ avoid) :
    ∃ bytes staged l, made.document.toLatin1 = .ok bytes ∧
      (r.store.put staged.location (.file bytes)).read staged.path = .ok bytes ∧
      r.store.target destination = .ok l ∧ s.store = r.store.put l (.file bytes) ∧
      s.history = r.history ++ [(.staging destination, r.store),
        (.validating staged, r.store.put staged.location (.file bytes))] ∧
      summary = ⟨destination, made.mode, made.strokes, Digest.fingerprint bytes,
        verdictOf (tools.validator r.state (r.store.put staged.location (.file bytes))
          staged).2.1⟩ := by
  obtain ⟨bytes, hbytes, h⟩ := attempt_bind_eq_ok h
  rw [run_bind, run_note] at h
  have haffixes : Store.Affixes ".cutcontour-" ".eps" := ⟨by decide, by decide⟩
  obtain ⟨staged, u, hfresh, hleads, hbody, rfl⟩ := withTemporary_eq_ok h haffixes
  obtain ⟨v, -, hhistory, hsettle⟩ := settle_eq tools staged destination
    (fun verdict => ⟨destination, made.mode, made.strokes, Digest.fingerprint bytes, verdict⟩)
    { r with
      store := r.store.put staged.location (.file bytes)
      history := r.history ++ [(.staging destination, r.store)] }
  have hdone := hsettle.symm.trans hbody
  cases hl : (r.store.put staged.location (.file bytes)).target destination with
  | error e =>
    rw [hl] at hdone
    cases hdone
  | ok l =>
    rw [hl] at hdone
    obtain ⟨hsummary, hu⟩ := Prod.mk.inj hdone
    obtain ⟨htarget, -, hout⟩ := hfresh.target_of_remove havoid
      (Store.remove_put_of_isVacant hfresh.vacant _) hl
    have hread := Store.read_of_locate hleads (r.store.readAt_put hfresh.ne_nil bytes)
    refine ⟨bytes, staged, l, hbytes, hread, htarget, ?_, ?_, (Except.ok.inj hsummary).symm⟩
    · rw [← hu]
      show ((r.store.put staged.location _).move staged.location l).remove staged.location = _
      rw [hfresh.move_put, Store.remove_put_outside hout, Store.remove_of_isVacant hfresh.vacant]
    · rw [← hu]
      exact hhistory.trans (List.append_assoc _ _ _)

theorem ensureNotConverted_eq_ok {o : Opened}
    (h : ensureNotConverted tools o.documents r = (.ok ⟨⟩, s)) :
    ∃ asking, s.history = r.history ++ asking ∧
      (asking = [] ∨ asking = [(.asking question, r.store)]) := by
  rw [ensureNotConverted_eq] at h
  split at h
  · obtain ⟨-, rfl⟩ := Prod.mk.inj h
    exact ⟨_, rfl, .inr rfl⟩
  · obtain ⟨-, rfl⟩ := Prod.mk.inj h
    exact ⟨[], (List.append_nil _).symm, .inl rfl⟩

theorem convertInput_eq_ok
    (h : convertInput tools settings avoid input scratch kind r = (.ok made, s))
    (hvacant : ∀ name, r.store.lookup (scratch.location ++ [name]) = none) :
    ∃ bytes exports asking, ∃ opened : Opened, r.store.read input = .ok bytes ∧
      opened.From tools settings r.state bytes kind exports ∧
      opened.converted settings = .ok made ∧ s.history = r.history ++ exports ++ asking ∧
      (asking = [] ∨ ∃ store, asking = [(.asking question, store)]) := by
  rw [convertInput_eq] at h
  obtain ⟨opened, t, hopen, h⟩ := bind_eq_ok h
  obtain ⟨⟨⟩, u, hconsent, hfinish⟩ := bind_eq_ok h
  obtain ⟨bytes, exports, hread, hfrom, hexports⟩ := openInput_eq_ok hopen hvacant
  obtain ⟨asking, hasking, hquestion⟩ := ensureNotConverted_eq_ok hconsent
  have hquiet := quiet_finish settings opened u
  have hconverted := finish_eq settings opened u
  rw [hfinish] at hquiet hconverted
  refine ⟨bytes, exports, asking, opened, hread, hfrom, hconverted.symm, ?_, ?_⟩
  · rw [hquiet.history, hasking, hexports]
  · exact hquestion.imp_right fun he => ⟨_, he⟩

/-- Two actions that leave the same files, with results that look the same through a function. -/
def Alike (f : α → β) (a b : Action σ α) : Prop :=
  ∀ r, (a r).1.map f = (b r).1.map f ∧ (a r).2.store = (b r).2.store

namespace Alike

theorem bind {f : α → β} (a : Action σ γ) {b c : γ → Action σ α} (h : ∀ x, Alike f (b x) (c x)) :
    Alike f (a >>= b) (a >>= c) := by
  intro r
  rw [run_bind, run_bind]
  cases a r with
  | mk x s =>
    cases x with
    | ok x => exact h x s
    | error e => exact ⟨rfl, rfl⟩

theorem withTemporary {f : α → β} {b c : Place → Action σ α}
    (h : ∀ place, Alike f (b place) (c place)) :
    Alike f (withTemporary avoid dir before after e b)
      (withTemporary avoid dir before after e c) := by
  refine bind _ fun place r => ?_
  obtain ⟨hresult, hstore⟩ := h place r
  exact ⟨hresult, congrArg (Store.remove · place.location) hstore⟩

theorem deliver (tools : Tools σ) (validator) (avoid : List Text) (destination : Path)
    (made : Converted) (verdict : Verdict) :
    Alike (fun summary : Summary => { summary with verdict })
      (deliver { tools with validator } avoid destination made)
      (deliver tools avoid destination made) := by
  refine bind _ fun bytes => bind _ fun _ => withTemporary fun staged r => ?_
  obtain ⟨s, hs, -, hsettle⟩ := settle_eq { tools with validator } staged destination
    (fun verdict => ⟨destination, made.mode, made.strokes, Digest.fingerprint bytes, verdict⟩) r
  obtain ⟨t, ht, -, hsettle'⟩ := settle_eq tools staged destination
    (fun verdict => ⟨destination, made.mode, made.strokes, Digest.fingerprint bytes, verdict⟩) r
  rw [hsettle, hsettle']
  cases r.store.target destination with
  | error e => exact ⟨rfl, hs.trans ht.symm⟩
  | ok l => exact ⟨rfl, rfl⟩

/-- The validator sees a conversion only when it has nothing left to decide. -/
theorem convert (tools : Tools σ) (validator) (settings : Settings) (request : Request)
    (verdict : Verdict) :
    Alike (fun summary : Summary => { summary with verdict })
      (convert { tools with validator } settings request) (convert tools settings request) := by
  refine bind _ fun _ => bind _ fun kind => bind _ fun r => withTemporary fun scratch => ?_
  have hinput (avoid : List Text) :
      convertInput { tools with validator } settings avoid request.input scratch kind =
        convertInput tools settings avoid request.input scratch kind := rfl
  rw [hinput]
  exact bind _ fun made => deliver tools validator _ _ made verdict

end Alike

/-- What a conversion that succeeds has done: the documents that it opened, the document that it
made of them, and the bytes that the validator was shown and that stand at the destination now. The
bytes are the code points of the document's lines, with a line feed between two of them. -/
structure Delivery (tools : Tools σ) (settings : Settings) (request : Request) (r s : Run σ)
    (summary : Summary) where
  kind : InputKind
  input : Bytes
  opened : Opened
  exports : List (Event × Store)
  asking : List (Event × Store)
  made : Converted
  bytes : Bytes
  location : Location
  staged : Place
  before : Store
  shown : Store
  state : σ
  ofPath : InputKind.ofPath request.input = .ok kind
  read : r.store.read request.input = .ok input
  source : opened.From tools settings r.state input kind exports
  converted : opened.converted settings = .ok made
  latin1 : bytes.map UInt8.toNat = (['\n'].intercalate made.document.lines).map Char.toNat
  output : summary.output = request.destination kind
  mode : summary.mode = made.mode
  strokes : summary.strokes = made.strokes
  fingerprint : summary.fingerprint = Digest.fingerprint bytes
  verdict : summary.verdict = verdictOf (tools.validator state shown staged).2.1
  target : r.store.target (request.destination kind) = .ok location
  written : s.store.read (request.destination kind) = .ok bytes
  frame : ∀ l, s.store.lookup l =
    if l = location then some (.file bytes) else r.store.lookup l
  history : s.history = r.history ++ exports ++ asking ++
    [(.staging (request.destination kind), before), (.validating staged, shown)]
  asked : asking = [] ∨ ∃ t, asking = [(.asking question, t)]
  validated : shown.read staged.path = .ok bytes

theorem Delivery.of_convert (h : convert tools settings request r = (.ok summary, s)) :
    Nonempty (Delivery tools settings request r s summary) := by
  rw [convert_inScratch] at h
  obtain ⟨kind, scratch, t, hkind, hfresh, hbody, rfl⟩ := inScratch_eq_ok h
  obtain ⟨made, u, hmade, hdeliver⟩ := bind_eq_ok hbody
  obtain ⟨input, exports, asking, opened, hread, hfrom, hconverted, hhistory, hquestion⟩ :=
    convertInput_eq_ok hmade (hfresh.lookup_below _)
  rw [hfresh.read_put (List.subset_append_left _ _)] at hread
  -- Without the scratch directory, the files before the delivery are those of the start.
  have hspares := spares_convertInput tools settings (request.pieces kind) request.input scratch
    kind { r with store := r.store.put scratch.location .directory }
  rw [hmade] at hspares
  have hu : u.store.remove scratch.location = r.store :=
    hspares.trans (Store.remove_put_of_isVacant hfresh.vacant _)
  obtain ⟨bytes, staged, l, hbytes, hstaged, hl, ht, hhistory', hsummary⟩ :=
    deliver_eq_ok hdeliver (List.subset_append_right _ _)
  obtain ⟨htarget, -, hout⟩ := hfresh.target_of_remove (List.subset_append_right _ _) hu hl
  have hs : t.store.remove scratch.location = r.store.put l (.file bytes) := by
    rw [ht, Store.remove_put_outside hout, hu]
  exact ⟨{
    kind, input, opened, exports, asking, made, bytes, staged
    location := l
    before := u.store
    shown := _
    state := u.state
    ofPath := hkind
    read := hread
    source := hfrom
    converted := hconverted
    latin1 := Document.toLatin1_eq_ok_iff.1 hbytes
    output := congrArg Summary.output hsummary
    mode := congrArg Summary.mode hsummary
    strokes := congrArg Summary.strokes hsummary
    fingerprint := congrArg Summary.fingerprint hsummary
    verdict := congrArg Summary.verdict hsummary
    target := htarget
    written := by rw [hs, Store.read_put_target htarget]
    frame := fun k => by rw [hs, Store.lookup_put r.store (Store.target_ne_nil htarget)]
    history := hhistory'.trans (congrArg (· ++ _) hhistory)
    asked := hquestion
    validated := hstaged }⟩

/-- A conversion that succeeds writes the Latin-1 encoding of the converted document to its
destination and changes no other file; the fingerprint is that of these bytes, and the validator was
shown the same bytes. The validator has no say in any of it: whatever it answers, the conversion
succeeds or fails alike, leaves the same files and gives the same summary up to the verdict. -/
theorem convert_writes (tools : Tools σ) (settings : Settings) (request : Request) (r : Run σ) :
    (∀ summary s, convert tools settings request r = (.ok summary, s) →
      Nonempty (Delivery tools settings request r s summary)) ∧
    ∀ validator verdict,
      (convert { tools with validator } settings request r).1.map
          (fun summary => { summary with verdict }) =
        (convert tools settings request r).1.map (fun summary => { summary with verdict }) ∧
      (convert { tools with validator } settings request r).2.store =
        (convert tools settings request r).2.store :=
  ⟨fun _ _ h => Delivery.of_convert h, fun validator verdict =>
    Alike.convert tools validator settings request verdict r⟩

def exportedPage : Text :=
  "%!PS-Adobe\n%%BoundingBox: 0 0 9 9\n%%Page: 1 1\n%%EndPageSetup\n(\u00e9) show\nS\nshowpage\n" ++
    "%%Trailer"

def mergedPage : Text :=
  "%!PS-Adobe\n%%BoundingBox: 0 0 9 9\n%%DocumentCustomColors: (CutContour)\n" ++
    "%%CMYKCustomColor: 0.00 1.00 0.00 0.00 (CutContour)\n%%Page: 1 1\n%%EndPageSetup\n" ++
    "(\u00e9) show\nS\n(\u00e9) show\nSetCutContourStroke\nSetHairlineStroke\nS\nshowpage\n" ++
    "%%Trailer"

/-- Tools that export one and the same page for every layer; the validator does not work. -/
def pageTools : Tools Unit where
  exporter := fun _ _ _ =>
    (some (.file (exportedPage.map fun c => UInt8.ofNat c.toNat)), .ok (), ())
  validator := fun _ _ _ => ([], .error (.validator "no display"), ())
  confirm := fun _ _ => (.ok false, ())

def regionRun : Run Unit where
  store := ⟨[(["tmp"], .directory), (["logo.svg"], .file (Text.Utf8.encode
    "<svg><path id=\"CutContour\"/><rect/></svg>"))], [], ⟨"/tmp"⟩⟩
  state := ()
  warnings := []
  history := []

theorem convert_writes_region :
    ∃ summary s bytes,
      convert pageTools .default ⟨⟨"logo.svg"⟩, none⟩ regionRun = (.ok summary, s) ∧
      summary.mode = .merged 1 ∧ summary.fingerprint = Digest.fingerprint bytes ∧
      summary.fingerprint = "63713285d48b3a3a177c5866b8b518d777d120ef61f21687c75f3838a1afe146" ∧
      bytes.map UInt8.toNat = mergedPage.map Char.toNat ∧
      s.store.lookup ["logo_versaworks.eps"] = some (.file bytes) := by
  have hmode : (convert pageTools .default ⟨⟨"logo.svg"⟩, none⟩ regionRun).1.map (·.mode) =
      .ok (.merged 1) := by
    decide +kernel
  have hfile : (convert pageTools .default ⟨⟨"logo.svg"⟩, none⟩ regionRun).2.store.lookup
      ["logo_versaworks.eps"] = some (.file (mergedPage.map fun c => UInt8.ofNat c.toNat)) := by
    decide +kernel
  have hbytes : (mergedPage.map fun c => UInt8.ofNat c.toNat).map UInt8.toNat =
      mergedPage.map Char.toNat := by
    decide +kernel
  have hdigest : Digest.fingerprint (mergedPage.map fun c => UInt8.ofNat c.toNat) =
      "63713285d48b3a3a177c5866b8b518d777d120ef61f21687c75f3838a1afe146" := by
    decide +kernel
  have hnew : regionRun.store.lookup ["logo_versaworks.eps"] = none := by decide +kernel
  cases h : convert pageTools .default ⟨⟨"logo.svg"⟩, none⟩ regionRun with
  | mk x s =>
    rw [h] at hmode hfile
    cases x with
    | error f => cases hmode
    | ok summary =>
      obtain ⟨d⟩ :=
        (convert_writes pageTools .default ⟨⟨"logo.svg"⟩, none⟩ regionRun).1 summary s h
      -- Nothing stood at this place before, so it is the destination.
      have hplace := d.frame ["logo_versaworks.eps"]
      split at hplace
      · have hdone : d.bytes = mergedPage.map fun c => UInt8.ofNat c.toNat :=
          Entry.file.inj (Option.some.inj (hplace.symm.trans hfile))
        exact ⟨summary, s, d.bytes, rfl, Except.ok.inj hmode, d.fingerprint,
          d.fingerprint.trans (hdone ▸ hdigest), hdone ▸ hbytes, hplace⟩
      · cases hfile.symm.trans (hplace.trans hnew)

end CutPath.Conversion
