import Mathlib.Order.Defs.Unbundled
import CutPath.Proofs.Conversion.Phases
import CutPath.Proofs.Store.Temporaries

namespace CutPath
set_option autoImplicit true

namespace Conversion

/-- Whatever comes of an action, it leaves a run that is related to the one before. -/
def Respects (R : Run σ → Run σ → Prop) (a : Action σ α) : Prop := ∀ r, R r (a r).2

namespace Respects

variable {R : Run σ → Run σ → Prop}

theorem mono {R' : Run σ → Run σ → Prop} (h : ∀ r s, R r s → R' r s) {a : Action σ α}
    (ha : Respects R a) : Respects R' a := fun r => h _ _ (ha r)

theorem get_bind {f : Run σ → Action σ α} (h : ∀ r, R r (f r r).2) : Respects R (get >>= f) := h

variable [IsPreorder (Run σ) R]

theorem attempt (x : Except Failure α) : Respects R (attempt x) := by
  intro r
  rw [run_attempt]
  exact refl_of R r

theorem pure (x : α) : Respects R (Pure.pure x : Action σ α) := fun r => refl_of R r

theorem bind {a : Action σ α} {f : α → Action σ β} (ha : Respects R a)
    (hf : ∀ x, Respects R (f x)) : Respects R (a >>= f) := by
  intro r
  have hr := ha r
  rw [run_bind]
  cases h : a r with
  | mk x s =>
    rw [h] at hr
    cases x with
    | ok x => exact trans_of R hr (hf x s)
    | error e => exact hr

theorem bind_error {a : Action σ α} {f : α → Action σ β} {r : Run σ} (ha : Respects R a)
    (hf : ∀ x s e, (f x s).1 = .error e → R s (f x s).2) (h : ((a >>= f) r).1 = .error e) :
    R r ((a >>= f) r).2 := by
  have hr := ha r
  rw [run_bind] at h ⊢
  cases hx : a r with
  | mk x s =>
    rw [hx] at hr h
    cases x with
    | ok x => exact trans_of R hr (hf x s e h)
    | error e => exact hr

theorem openAt (l : Location) : Respects R (openAt l : Action σ Document) := by
  refine get_bind fun r => ?_
  exact (attempt _).bind (fun _ => attempt _) r

end Respects

def Event.isExport : Event → Prop
  | exporting _ => True
  | _ => False

def Event.isDelivery : Event → Prop
  | staging _ | validating _ => True
  | _ => False

/-- The files outside a location are the same. -/
def Spares (l : Location) (r s : Run σ) : Prop := s.store.remove l = r.store.remove l

instance (l : Location) : IsPreorder (Run σ) (Spares l) where
  refl _ := rfl
  trans _ _ _ h h' := h'.trans h

/-- Only certain events have been added to the history. -/
def Logs (P : Event → Prop) (r s : Run σ) : Prop :=
  ∃ new, s.history = r.history ++ new ∧ ∀ e ∈ new, P e.1

instance (P : Event → Prop) : IsPreorder (Run σ) (Logs P) where
  refl r := ⟨[], (List.append_nil _).symm, fun _ h => (List.not_mem_nil h).elim⟩
  trans := by
    rintro r s t ⟨new, hs, hn⟩ ⟨later, ht, hl⟩
    refine ⟨new ++ later, by rw [ht, hs, List.append_assoc], fun e he => ?_⟩
    rcases List.mem_append.1 he with he | he
    · exact hn e he
    · exact hl e he

theorem makeTemporary_cases (avoid : List Text) (dir : Path) (before after : Text) (e : Entry)
    (r : Run σ) :
    (∃ f, makeTemporary avoid dir before after e r = (.error f, r)) ∨
      ∃ place, r.store.Fresh avoid before after place.location ∧
        makeTemporary avoid dir before after e r =
          (.ok place, { r with store := r.store.put place.location e }) := by
  simp only [makeTemporary, run_bind, run_get, attemptIo, run_attempt]
  split
  · next hadmits =>
    obtain ⟨-, rfl⟩ := Prod.mk.inj hadmits
    split
    · next l _ hdirectory =>
      obtain ⟨-, rfl⟩ := Prod.mk.inj hdirectory
      cases hname : r.store.freshName? l avoid before after Store.maxTries 0 with
      | none => exact .inl ⟨_, rfl⟩
      | some name => exact .inr ⟨_, .of_freshName? hname, rfl⟩
    · next f _ hdirectory =>
      obtain ⟨-, rfl⟩ := Prod.mk.inj hdirectory
      exact .inl ⟨f, rfl⟩
  · next f _ hadmits =>
    obtain ⟨-, rfl⟩ := Prod.mk.inj hadmits
    exact .inl ⟨f, rfl⟩

theorem withTemporary_cases (avoid : List Text) (dir : Path) (before after : Text) (e : Entry)
    (r : Run σ) :
    (∃ f, ∀ {α : Type} (body : Place → Action σ α),
      withTemporary avoid dir before after e body r = (.error f, r)) ∨
      ∃ place, r.store.Fresh avoid before after place.location ∧
        ∀ {α : Type} (body : Place → Action σ α), withTemporary avoid dir before after e body r =
          removingAfter place.location (body place)
            { r with store := r.store.put place.location e } := by
  rcases makeTemporary_cases avoid dir before after e r with ⟨f, h⟩ | ⟨place, hv, h⟩
  · refine .inl ⟨f, fun body => ?_⟩
    rw [withTemporary, run_bind, h]
  · refine .inr ⟨place, hv, fun body => ?_⟩
    rw [withTemporary, run_bind, h]

theorem Respects.withTemporary {R : Run σ → Run σ → Prop} [IsPreorder (Run σ) R]
    (hR : ∀ r s l e, r.store.isVacant l = true → R { r with store := r.store.put l e } s →
      R r { s with store := s.store.remove l })
    {body : Place → Action σ α} (h : ∀ place, Respects R (body place)) {avoid : List Text}
    {dir : Path} {before after : Text} {e : Entry} :
    Respects R (withTemporary avoid dir before after e body) := by
  intro r
  rcases withTemporary_cases avoid dir before after e r with ⟨f, hf⟩ | ⟨place, hv, hb⟩
  · rw [hf]
    exact refl_of R r
  · rw [hb]
    exact hR _ _ _ _ hv.vacant (h place _)

theorem Spares.of_temporary (r s : Run σ) (k : Location) (e : Entry)
    (hv : r.store.isVacant k = true) (h : Spares l { r with store := r.store.put k e } s) :
    Spares l r { s with store := s.store.remove k } := by
  have hs : s.store.remove l = (r.store.put k e).remove l := h
  show (s.store.remove k).remove l = r.store.remove l
  rw [Store.remove_comm, hs, Store.remove_comm, Store.remove_put_of_isVacant hv]

theorem Logs.of_temporary (r s : Run σ) (k : Location) (e : Entry)
    (_ : r.store.isVacant k = true) (h : Logs P { r with store := r.store.put k e } s) :
    Logs P r { s with store := s.store.remove k } := h

/-- Only files at and below a location have changed, and only exports have been logged. -/
structure Opens (l : Location) (r s : Run σ) : Prop where
  spares : Spares l r s
  logs : Logs Event.isExport r s

instance (l : Location) : IsPreorder (Run σ) (Opens l) where
  refl r := ⟨refl_of _ r, refl_of _ r⟩
  trans _ _ _ h h' := ⟨trans_of _ h.spares h'.spares, trans_of _ h.logs h'.logs⟩

theorem Opens.of_temporary (r s : Run σ) (k : Location) (e : Entry)
    (hv : r.store.isVacant k = true) (h : Opens l { r with store := r.store.put k e } s) :
    Opens l r { s with store := s.store.remove k } :=
  ⟨.of_temporary r s k e hv h.spares, h.logs⟩

theorem runExporter_eq (tools : Tools σ) (call : Export) (r : Run σ) :
    runExporter tools call r =
      ((attempt (tools.exporter r.state r.store call).2.1 : Action σ Unit) >>= fun _ =>
        openAt call.output.location)
        { r with
          store := match (tools.exporter r.state r.store call).1 with
            | some e => r.store.put call.output.location e
            | none => r.store
          state := (tools.exporter r.state r.store call).2.2
          history := r.history ++ [(.exporting call, r.store)] } := rfl

theorem opens_runExporter (tools : Tools σ) {call : Export} {l : Location}
    (h : l <+: call.output.location) : Respects (Opens l) (runExporter tools call) := by
  intro r
  rw [runExporter_eq]
  refine trans_of (Opens l) ⟨?_, ?_⟩ ((Respects.attempt _).bind (fun _ => Respects.openAt _) _)
  · show Store.remove (match (tools.exporter r.state r.store call).1 with
      | some e => r.store.put call.output.location e
      | none => r.store) l = r.store.remove l
    cases (tools.exporter r.state r.store call).1 with
    | some e => exact Store.remove_put_of_prefix h r.store e
    | none => rfl
  · refine ⟨_, rfl, fun e he => ?_⟩
    rw [List.mem_singleton.1 he]
    exact trivial

theorem opens_exportLayer (tools : Tools σ) (avoid : List Text) (input : Path) (scratch : Place)
    (layer : Layer) (drawing : Text) :
    Respects (Opens scratch.location) (exportLayer tools avoid input scratch layer drawing) :=
  .withTemporary Opens.of_temporary fun _ => opens_runExporter tools (List.prefix_append _ _)

theorem opens_openInput (tools : Tools σ) (settings : Settings) (avoid : List Text) (input : Path)
    (scratch : Place) (kind : InputKind) :
    Respects (Opens scratch.location) (openInput tools settings avoid input scratch kind) := by
  cases kind with
  | document =>
    refine .get_bind fun r => ?_
    exact (Respects.attempt _).bind (fun _ => (Respects.openAt _).bind fun _ => .pure _) r
  | drawing =>
    refine .get_bind fun r => ?_
    refine (Respects.attempt _).bind (fun l => (Respects.attempt _).bind fun bytes =>
      (Respects.attempt _).bind fun drawing => (Respects.attempt _).bind fun layers => ?_) r
    cases layers with
    | some layers =>
      exact (opens_exportLayer tools avoid input scratch _ _).bind fun _ =>
        (opens_exportLayer tools avoid input scratch _ _).bind fun _ => .pure _
    | none => exact (opens_runExporter tools (List.prefix_append _ _)).bind fun _ => .pure _

/-- Neither a file nor the history has changed. -/
structure Quiet (r s : Run σ) : Prop where
  store : s.store = r.store
  history : s.history = r.history

instance : IsPreorder (Run σ) Quiet where
  refl _ := ⟨rfl, rfl⟩
  trans _ _ _ h h' := ⟨h'.store.trans h.store, h'.history.trans h.history⟩

theorem quiet_warn (ws : List Warning) : Respects Quiet (warn ws : Action σ Unit) :=
  fun _ => ⟨rfl, rfl⟩

theorem quiet_markCut (settings : Settings) (d : Document) :
    Respects Quiet (markCut settings d : Action σ (Nat × Document)) :=
  (quiet_warn _).bind fun _ => .pure _

theorem quiet_finish (settings : Settings) (o : Opened) :
    Respects Quiet (finish settings o : Action σ Converted) := by
  cases o with
  | single d => exact (quiet_markCut settings d).bind fun _ => .pure _
  | layers print cut regions =>
    exact (quiet_markCut settings cut).bind fun _ => (quiet_warn _).bind fun _ =>
      (Respects.attempt _).bind fun _ => .pure _

def consent : Except Failure Bool → Except Failure Unit
  | .ok true => .ok ()
  | .ok false => .error .declined
  | .error e => .error e

def asked (tools : Tools σ) (r : Run σ) : Run σ :=
  { r with
    state := (tools.confirm r.state question).2
    warnings := r.warnings ++ [.alreadyConverted SpotColor.cutContourName]
    history := r.history ++ [(.asking question, r.store)] }

theorem ensureNotConverted_eq (tools : Tools σ) (o : Opened) (r : Run σ) :
    ensureNotConverted tools o.documents r =
      if o.mentionsColor then (consent (tools.confirm r.state question).1, asked tools r)
      else (.ok (), r) := by
  unfold ensureNotConverted Opened.mentionsColor
  split
  · show ((attempt (tools.confirm r.state question).1 : Action σ Bool) >>= fun b =>
      if !b then throw .declined else pure ()) (asked tools r) = _
    rw [run_bind, run_attempt]
    cases (tools.confirm r.state question).1 with
    | error e => rfl
    | ok yes => cases yes <;> rfl
  · rfl

def verdictOf : Except Failure Verdict → Verdict
  | .ok verdict => verdict
  | .error f => .skipped f.message

/-- The validator never ends a conversion, and all that it adds to the result is its verdict. -/
theorem runValidator_ok (tools : Tools σ) (staged : Place) (r : Run σ) :
    ∃ s, runValidator tools staged r =
        (.ok (verdictOf (tools.validator r.state r.store staged).2.1), s) ∧
      s.store = r.store ∧ s.history = r.history ++ [(.validating staged, r.store)] := by
  obtain ⟨exporter, validator, confirm⟩ := tools
  simp only [runValidator, run_bind, run_note, run_get, run_set]
  obtain ⟨warnings, result, state⟩ := validator r.state r.store staged
  match result with
  | .ok (.invalid detail) => exact ⟨_, rfl, rfl, rfl⟩
  | .ok .valid => exact ⟨_, rfl, rfl, rfl⟩
  | .ok (.skipped reason) => exact ⟨_, rfl, rfl, rfl⟩
  | .error f => exact ⟨_, rfl, rfl, rfl⟩

theorem commit_eq (staged : Place) (destination : Path) (r : Run σ) :
    commit staged destination r =
      match r.store.target destination with
      | .error e => (.error (.ofIo e), r)
      | .ok l => (.ok (), { r with store := r.store.move staged.location l }) := by
  have h : commit staged destination r =
      ((attemptIo (r.store.target destination) : Action σ Location) >>= fun l =>
        set { r with store := r.store.move staged.location l }) r := rfl
  rw [h, run_bind, attemptIo, run_attempt]
  cases r.store.target destination <;> rfl

theorem commit_cases (staged : Place) (destination : Path) (r : Run σ) :
    (∃ f, commit staged destination r = (.error f, r)) ∨
      ∃ l, commit staged destination r =
        (.ok (), { r with store := r.store.move staged.location l }) := by
  rw [commit_eq]
  cases r.store.target destination with
  | error e => exact .inl ⟨_, rfl⟩
  | ok l => exact .inr ⟨l, rfl⟩

theorem inScratch_cases (settings : Settings) (request : Request) (r : Run σ) :
    (∃ f, ∀ {α : Type} (body : List Text → Path → InputKind → Place → Action σ α),
      inScratch settings request body r = (.error f, r)) ∨
      ∃ avoid destination kind scratch, r.store.isVacant scratch.location = true ∧
        ∀ {α : Type} (body : List Text → Path → InputKind → Place → Action σ α),
          inScratch settings request body r =
            removingAfter scratch.location (body avoid destination kind scratch)
              { r with store := r.store.put scratch.location .directory } := by
  cases hs : settings.check with
  | error f =>
    refine .inl ⟨f, fun body => ?_⟩
    rw [inScratch, hs]
    rfl
  | ok =>
    cases hk : InputKind.ofPath request.input with
    | error f =>
      refine .inl ⟨f, fun body => ?_⟩
      rw [inScratch, hs, hk]
      rfl
    | ok kind =>
      have hrun {α : Type} (body : List Text → Path → InputKind → Place → Action σ α) :
          inScratch settings request body r =
            withTemporary (request.input.pieces ++
              (request.output.getD (defaultOutput request.input kind)).pieces) r.store.scratchRoot
              "cutcontour-" [] .directory
              (body (request.input.pieces ++
                (request.output.getD (defaultOutput request.input kind)).pieces)
                (request.output.getD (defaultOutput request.input kind)) kind) r := by
        rw [inScratch, hs, hk]
        rfl
      rcases withTemporary_cases _ r.store.scratchRoot "cutcontour-" [] .directory r with
        ⟨f, hf⟩ | ⟨scratch, hv, hb⟩
      · exact .inl ⟨f, fun body => (hrun body).trans (hf _)⟩
      · exact .inr ⟨_, _, kind, scratch, hv.vacant, fun body => (hrun body).trans (hb _)⟩

end Conversion
end CutPath
