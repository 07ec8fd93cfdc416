import Mathlib.Data.List.Basic
import CutPath.Proofs.Conversion.Frame

namespace CutPath.Conversion
set_option autoImplicit true

theorem Quiet.spares {r s : Run σ} (h : Quiet r s) (l : Location) : Spares l r s :=
  congrArg (Store.remove · l) h.store

theorem spares_ensureNotConverted (tools : Tools σ) (o : Opened) (l : Location) :
    Respects (Spares l) (ensureNotConverted tools o.documents) := by
  intro r
  rw [ensureNotConverted_eq]
  split
  · exact rfl
  · exact rfl

theorem spares_convertInput (tools : Tools σ) (settings : Settings) (avoid : List Text)
    (input : Path) (scratch : Place) (kind : InputKind) :
    Respects (Spares scratch.location)
      (convertInput tools settings avoid input scratch kind) := by
  rw [convertInput_eq]
  have hopen := (opens_openInput tools settings avoid input scratch kind).mono
    fun _ _ h => h.spares
  refine hopen.bind fun o => ?_
  have hfinish : Respects (Spares scratch.location) (finish settings o : Action σ Converted) :=
    (quiet_finish settings o).mono fun _ _ h => h.spares _
  exact (spares_ensureNotConverted tools o _).bind fun _ => hfinish

theorem deliver_error {tools : Tools σ} {r : Run σ}
    (h : (deliver tools avoid destination made r).1 = .error f) :
    (deliver tools avoid destination made r).2.store = r.store := by
  unfold deliver at h ⊢
  rw [run_bind, run_attempt] at h ⊢
  cases hb : made.document.toLatin1 with
  | error e => rfl
  | ok bytes =>
    rw [hb] at h
    dsimp only at h ⊢
    rw [run_bind, run_note] at h ⊢
    dsimp only at h ⊢
    rcases withTemporary_cases avoid (directoryOf destination) ".cutcontour-" ".eps" (.file bytes)
      { r with history := r.history ++ [(.staging destination, r.store)] } with
      ⟨e, he⟩ | ⟨staged, hv, hrun⟩
    · rw [he]
    · rw [hrun, removingAfter] at h ⊢
      obtain ⟨s, hvalidator, hstore, -⟩ := runValidator_ok tools staged
        { r with
          store := r.store.put staged.location (.file bytes)
          history := r.history ++ [(.staging destination, r.store)] }
      rw [run_bind, hvalidator] at h ⊢
      dsimp only at h ⊢
      rw [run_bind] at h ⊢
      -- Nothing after the move to the destination can fail.
      rcases commit_cases staged destination s with ⟨e, he⟩ | ⟨l, hl⟩
      · rw [he]
        show s.store.remove staged.location = r.store
        rw [hstore]
        exact Store.remove_put_of_isVacant hv.vacant _
      · rw [hl] at h
        cases h

/-- A failed conversion leaves no trace: whatever the collaborators do, all files are as they were,
and nothing has been added. -/
theorem convert_error_store {tools : Tools σ} {settings : Settings} {request : Request} {r : Run σ}
    {f : Failure} (h : (convert tools settings request r).1 = .error f) :
    (convert tools settings request r).2.store = r.store := by
  rw [convert_inScratch] at h ⊢
  rcases inScratch_cases settings request r with
    ⟨e, he⟩ | ⟨avoid, destination, kind, scratch, hv, hb⟩
  · rw [he]
  · rw [hb, removingAfter] at h ⊢
    refine Eq.trans ?_ (Store.remove_put_of_isVacant hv .directory)
    show Spares scratch.location { r with store := r.store.put scratch.location .directory } _
    refine (spares_convertInput tools settings avoid request.input scratch kind).bind_error ?_ h
    intro made s e he
    show _ = _
    rw [deliver_error he]

def failingTools : Tools Unit where
  exporter := fun _ _ _ => (some (.file [0x25, 0x21]), .error (.exporter "no display"), ())
  validator := fun _ _ _ => ([], .ok .valid, ())
  confirm := fun _ _ => (.ok true, ())

def drawingRun : Run Unit where
  store := ⟨[(["tmp"], .directory), (["logo.svg"], .file [0x3c, 0x67, 0x2f, 0x3e])], [], ⟨"/tmp"⟩⟩
  state := ()
  warnings := []
  history := []

theorem convert_error_store_export :
    (convert failingTools { Settings.default with ignoreRegion := true } ⟨⟨"logo.svg"⟩, none⟩
      drawingRun).1 = .error (.exporter "no display") ∧
    (convert failingTools { Settings.default with ignoreRegion := true } ⟨⟨"logo.svg"⟩, none⟩
      drawingRun).2.store = drawingRun.store := by
  have h : (convert failingTools { Settings.default with ignoreRegion := true }
      ⟨⟨"logo.svg"⟩, none⟩ drawingRun).1 = .error (.exporter "no display") := by
    decide +kernel
  exact ⟨h, convert_error_store h⟩

end CutPath.Conversion
