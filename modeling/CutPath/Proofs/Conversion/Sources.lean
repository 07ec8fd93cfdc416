import CutPath.Proofs.Conversion.Frame
import CutPath.Proofs.Store.Places

namespace CutPath.Conversion
set_option autoImplicit true

theorem bind_eq_ok {a : Action σ α} {f : α → Action σ β} (h : (a >>= f) r = (.ok y, t)) :
    ∃ x s, a r = (.ok x, s) ∧ f x s = (.ok y, t) := by
  rw [run_bind] at h
  cases ha : a r with
  | mk x s =>
    rw [ha] at h
    cases x with
    | ok x => exact ⟨x, s, rfl, h⟩
    | error e => cases h

theorem get_bind_eq_ok {f : Run σ → Action σ α} (h : (get >>= f) r = (.ok y, t)) :
    f r r = (.ok y, t) := h

theorem pure_eq_ok (h : (pure x : Action σ α) r = (.ok y, s)) : y = x ∧ s = r := by
  cases h
  exact ⟨rfl, rfl⟩

theorem attempt_bind_eq_ok {x : Except Failure α} {f : α → Action σ β}
    (h : (attempt x >>= f) r = (.ok y, t)) : ∃ a, x = .ok a ∧ f a r = (.ok y, t) := by
  cases x with
  | error e => cases h
  | ok a => exact ⟨a, rfl, h⟩

theorem attemptIo_bind_eq_ok {x : Except IoKind α} {f : α → Action σ β}
    (h : (attemptIo x >>= f) r = (.ok y, t)) : ∃ a, x = .ok a ∧ f a r = (.ok y, t) := by
  cases x with
  | error e => cases h
  | ok a => exact ⟨a, rfl, h⟩

theorem openAt_eq_ok (h : openAt l r = (.ok d, s)) :
    ∃ bytes, r.store.readAt l = .ok bytes ∧ Document.ofLatin1 bytes = .ok d ∧ s = r := by
  obtain ⟨bytes, hread, h⟩ := attemptIo_bind_eq_ok (get_bind_eq_ok h)
  rw [run_attempt] at h
  obtain ⟨hparse, hs⟩ := Prod.mk.inj h
  exact ⟨bytes, hread, hparse, hs.symm⟩

theorem makeTemporary_leads (h : makeTemporary avoid dir before after e r = (.ok place, s))
    (haffixes : Store.Affixes before after) :
    s.store.locate place.path = .ok place.location := by
  obtain ⟨⟨⟩, hadmits, h⟩ := attemptIo_bind_eq_ok (get_bind_eq_ok h)
  obtain ⟨l, hdirectory, h⟩ := attemptIo_bind_eq_ok h
  cases hname : r.store.freshName? l avoid before after Store.maxTries 0 with
  | none =>
    rw [hname] at h
    cases h
  | some name =>
    rw [hname] at h
    cases h
    obtain ⟨hvacant, -, n, hn, rfl⟩ := Store.isVacant_of_freshName? hname
    have hnumber : n < 10 ^ 6 := by
      rw [Store.maxTries] at hn
      omega
    have hp := Store.text_ne_nil_of_directory hdirectory
    rw [← Store.admits_join_temporaryName hp haffixes hnumber] at hadmits
    exact Store.locate_put_join_name (haffixes.isName hnumber) (haffixes.not_mem n) hdirectory
      hadmits (Store.lookup_of_isVacant hvacant (by simp)) e

theorem withTemporary_eq_ok {body : Place → Action σ α}
    (h : withTemporary avoid dir before after e body r = (.ok x, s))
    (haffixes : Store.Affixes before after) :
    ∃ place t, r.store.Fresh avoid before after place.location ∧
      (r.store.put place.location e).locate place.path = .ok place.location ∧
      body place { r with store := r.store.put place.location e } = (.ok x, t) ∧
      s = { t with store := t.store.remove place.location } := by
  obtain ⟨place, t, hmake, h⟩ := bind_eq_ok h
  have hleads := makeTemporary_leads hmake haffixes
  rcases makeTemporary_cases avoid dir before after e r with ⟨f, hf⟩ | ⟨place', hfresh, hrun⟩
  · rw [hf] at hmake
    cases hmake
  · rw [hrun] at hmake
    cases hmake
    obtain ⟨hx, hs⟩ := Prod.mk.inj h
    exact ⟨place, _, hfresh, hleads, Prod.ext hx rfl, hs.symm⟩

def Request.destination (request : Request) (kind : InputKind) : Path :=
  request.output.getD (defaultOutput request.input kind)

def Request.pieces (request : Request) (kind : InputKind) : List Text :=
  request.input.pieces ++ (request.destination kind).pieces

theorem inScratch_eq_ok {body : List Text → Path → InputKind → Place → Action σ α}
    (h : inScratch settings request body r = (.ok x, s)) :
    ∃ kind scratch t, InputKind.ofPath request.input = .ok kind ∧
      r.store.Fresh (request.pieces kind) "cutcontour-" [] scratch.location ∧
      body (request.pieces kind) (request.destination kind) kind scratch
        { r with store := r.store.put scratch.location .directory } = (.ok x, t) ∧
      s = { t with store := t.store.remove scratch.location } := by
  obtain ⟨⟨⟩, -, h⟩ := attempt_bind_eq_ok h
  obtain ⟨kind, hkind, h⟩ := attempt_bind_eq_ok h
  have haffixes : Store.Affixes "cutcontour-" [] := ⟨by decide, by decide⟩
  obtain ⟨scratch, t, hfresh, -, hbody, hs⟩ := withTemporary_eq_ok (get_bind_eq_ok h) haffixes
  exact ⟨kind, scratch, t, hkind, hfresh, hbody, hs⟩

/-- A call of the exporter that has succeeded: the drawing that it was given, and the document that
it has left at the output. -/
structure Exported (tools : Tools σ) (state : σ) (store : Store) (call : Export) (drawing : Bytes)
    (d : Document) : Prop where
  given : store.read call.drawing.path = .ok drawing
  succeeded : (tools.exporter state store call).2.1 = .ok ()
  left : ∃ bytes, (tools.exporter state store call).1 = some (.file bytes) ∧
    Document.ofLatin1 bytes = .ok d

theorem runExporter_eq_ok (h : runExporter tools call r = (.ok d, s))
    (hgiven : r.store.read call.drawing.path = .ok drawing)
    (hvacant : r.store.lookup call.output.location = none) :
    Exported tools r.state r.store call drawing d ∧
      s.state = (tools.exporter r.state r.store call).2.2 ∧
      s.history = r.history ++ [(.exporting call, r.store)] ∧
      ∀ l, l ≠ call.output.location → s.store.lookup l = r.store.lookup l := by
  have hne : call.output.location ≠ [] := by
    intro hnil
    rw [hnil] at hvacant
    cases hvacant
  rw [runExporter_eq] at h
  obtain ⟨⟨⟩, hsucceeded, h⟩ := attempt_bind_eq_ok h
  obtain ⟨bytes, hread, hparse, rfl⟩ := openAt_eq_ok h
  cases hleft : (tools.exporter r.state r.store call).1 with
  | none =>
    simp only [hleft, Store.readAt, hvacant] at hread
    cases hread
  | some e =>
    simp only [hleft, Store.readAt, Store.lookup_put r.store hne, if_true] at hread
    cases e with
    | directory => cases hread
    | file content =>
      cases hread
      refine ⟨⟨hgiven, hsucceeded, bytes, hleft, hparse⟩, rfl, rfl, fun l hl => ?_⟩
      simp only [Store.lookup_put r.store hne, if_neg hl]

theorem temporaryName_ne_export (layer : Layer) (after : Text) (n : Nat) :
    Store.temporaryName (".cutcontour-" ++ layerName layer ++ ['-']) after n ≠
      layerName layer ++ ".eps" := by
  intro h
  have hhead := congrArg List.head? h
  cases layer <;> cases hhead

theorem affixes_layer (layer : Layer) :
    Store.Affixes (".cutcontour-" ++ layerName layer ++ ['-']) ".svg" := by
  cases layer with
  | print => exact ⟨by decide, by decide⟩
  | cut => exact ⟨by decide, by decide⟩

theorem exportLayer_eq_ok
    (h : exportLayer tools avoid input scratch layer drawing r = (.ok d, s))
    (hvacant : r.store.lookup (scratch.location ++ [layerName layer ++ ".eps"]) = none) :
    ∃ call store, call.layer = some layer ∧
      Exported tools r.state store call (Text.Utf8.encode drawing) d ∧
      s.state = (tools.exporter r.state store call).2.2 ∧
      s.history = r.history ++ [(.exporting call, store)] ∧
      ∀ l, l ≠ scratch.location ++ [layerName layer ++ ".eps"] → r.store.lookup l = none →
        s.store.lookup l = none := by
  obtain ⟨place, t, hfresh, hleads, hexport, rfl⟩ := withTemporary_eq_ok h (affixes_layer layer)
  have hput := Store.lookup_put r.store hfresh.ne_nil (.file (Text.Utf8.encode drawing))
  have hgiven := Store.read_of_locate hleads (r.store.readAt_put hfresh.ne_nil _)
  have hne : scratch.location ++ [layerName layer ++ ".eps"] ≠ place.location := by
    intro he
    obtain ⟨n, hn⟩ := hfresh.named
    rw [← he, List.getLast?_concat] at hn
    exact temporaryName_ne_export layer _ n (Option.some.inj hn).symm
  obtain ⟨hexported, hstate, hhistory, hframe⟩ := runExporter_eq_ok hexport hgiven
    ((hput _).trans ((if_neg hne).trans hvacant))
  refine ⟨_, _, rfl, hexported, hstate, hhistory, fun l hl hnone => ?_⟩
  rw [Store.lookup_remove t.store hfresh.ne_nil, hframe l hl, hput]
  split_ifs with hbelow hsame
  · rfl
  · rw [hsame, Store.isPrefixOf_self] at hbelow
    exact absurd rfl hbelow
  · exact hnone

/-- How the documents to convert have been opened, and which calls of the exporter that took. -/
inductive Opened.From (tools : Tools σ) (settings : Settings) (state : σ) (input : Bytes) :
    InputKind → Opened → List (Event × Store) → Prop
  | document (hparse : Document.ofLatin1 input = .ok d) :
      From tools settings state input .document (.single d) []
  | drawing (hdecode : decodeDrawing input = .ok drawing)
      (hlayers : layersOf settings drawing = .ok none) (hcall : call.layer = none)
      (hexport : Exported tools state store call input d) :
      From tools settings state input .drawing (.single d) [(.exporting call, store)]
  | layers (hdecode : decodeDrawing input = .ok drawing)
      (hlayers : layersOf settings drawing = .ok (some split))
      (hprint : first.layer = some .print)
      (hfirst : Exported tools state store first (Text.Utf8.encode split.print) print)
      (hcut : second.layer = some .cut)
      (hsecond : Exported tools (tools.exporter state store first).2.2 store' second
        (Text.Utf8.encode split.cut) cut) :
      From tools settings state input .drawing (.layers print cut split.regions)
        [(.exporting first, store), (.exporting second, store')]

/-- Documents that have been opened come from the input, when the scratch directory was empty. -/
theorem openInput_eq_ok (h : openInput tools settings avoid input scratch kind r = (.ok o, s))
    (hvacant : ∀ name, r.store.lookup (scratch.location ++ [name]) = none) :
    ∃ bytes exports, r.store.read input = .ok bytes ∧
      o.From tools settings r.state bytes kind exports ∧ s.history = r.history ++ exports := by
  cases kind with
  | document =>
    obtain ⟨l, hl, h⟩ := attemptIo_bind_eq_ok (get_bind_eq_ok h)
    obtain ⟨d, t, hopen, hdone⟩ := bind_eq_ok h
    obtain ⟨bytes, hread, hparse, rfl⟩ := openAt_eq_ok hopen
    obtain ⟨rfl, rfl⟩ := pure_eq_ok hdone
    exact ⟨bytes, [], Store.read_of_locate hl hread, .document hparse, (List.append_nil _).symm⟩
  | drawing =>
    obtain ⟨l, hl, h⟩ := attemptIo_bind_eq_ok (get_bind_eq_ok h)
    obtain ⟨bytes, hread, h⟩ := attemptIo_bind_eq_ok h
    obtain ⟨drawing, hdecode, h⟩ := attempt_bind_eq_ok h
    obtain ⟨split, hsplit, h⟩ := attempt_bind_eq_ok h
    have hinput := Store.read_of_locate hl hread
    refine ⟨bytes, ?_⟩
    cases split with
    | none =>
      obtain ⟨d, t, hexport, hdone⟩ := bind_eq_ok h
      obtain ⟨hexported, -, hhistory, -⟩ := runExporter_eq_ok hexport hinput (hvacant _)
      obtain ⟨rfl, rfl⟩ := pure_eq_ok hdone
      exact ⟨_, hinput, .drawing hdecode hsplit rfl hexported, hhistory⟩
    | some split =>
      obtain ⟨print, t, hexport, h⟩ := bind_eq_ok h
      obtain ⟨first, store, hprint, hfirst, hstate, hhistory, hframe⟩ :=
        exportLayer_eq_ok hexport (hvacant _)
      have hne : scratch.location ++ [layerName .cut ++ ".eps"] ≠
          scratch.location ++ [layerName .print ++ ".eps"] := by
        intro he
        cases List.append_cancel_left he
      obtain ⟨cut, u, hexport', hdone⟩ := bind_eq_ok h
      obtain ⟨second, store', hcut, hsecond, -, hhistory', -⟩ :=
        exportLayer_eq_ok hexport' (hframe _ hne (hvacant _))
      obtain ⟨rfl, rfl⟩ := pure_eq_ok hdone
      rw [hstate] at hsecond
      rw [hhistory, List.append_assoc] at hhistory'
      exact ⟨_, hinput, .layers hdecode hsplit hprint hfirst hcut hsecond, hhistory'⟩

end CutPath.Conversion
