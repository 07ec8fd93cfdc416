import CutPath.Proofs.Conversion.Cleanup

namespace CutPath.Conversion
set_option autoImplicit true

theorem Quiet.logs {r s : Run σ} (h : Quiet r s) (P : Event → Prop) : Logs P r s :=
  ⟨[], by rw [h.history, List.append_nil], fun _ he => (List.not_mem_nil he).elim⟩

theorem logs_runValidator (tools : Tools σ) (staged : Place) :
    Respects (Logs Event.isDelivery) (runValidator tools staged) := by
  intro r
  obtain ⟨s, h, -, hs⟩ := runValidator_ok tools staged r
  rw [h]
  refine ⟨_, hs, fun e he => ?_⟩
  rw [List.mem_singleton.1 he]
  exact trivial

theorem logs_commit (staged : Place) (destination : Path) :
    Respects (Logs P) (commit staged destination : Action σ Unit) := by
  intro r
  rcases commit_cases staged destination r with ⟨f, h⟩ | ⟨l, h⟩
  · rw [h]
    exact refl_of (Logs P) r
  · rw [h]
    exact refl_of (Logs P) r

theorem logs_deliver (tools : Tools σ) (avoid : List Text) (destination : Path)
    (made : Converted) :
    Respects (Logs Event.isDelivery) (deliver tools avoid destination made) := by
  refine (Respects.attempt _).bind fun bytes => ?_
  have hnote : Respects (Logs Event.isDelivery) (note (.staging destination) : Action σ Unit) := by
    refine fun r => ⟨_, rfl, fun e he => ?_⟩
    rw [List.mem_singleton.1 he]
    exact trivial
  refine hnote.bind fun _ => .withTemporary Logs.of_temporary fun staged => ?_
  exact (logs_runValidator tools staged).bind fun verdict =>
    (logs_commit staged destination).bind fun _ => .pure _

theorem logs_finish_deliver (tools : Tools σ) (settings : Settings) (avoid : List Text)
    (destination : Path) (o : Opened) :
    Respects (Logs Event.isDelivery)
      (finish settings o >>= fun made => deliver tools avoid destination made) :=
  ((quiet_finish settings o).mono fun _ _ h => h.logs _).bind fun made =>
    logs_deliver tools avoid destination made

theorem convert_opening (tools : Tools σ) (settings : Settings) (request : Request) (r : Run σ) :
    (∃ f, opening tools settings request r = (.error f, r) ∧
      ∀ confirm, convert { tools with confirm } settings request r = (.error f, r)) ∨
      ∃ avoid destination l x s, Logs Event.isExport r s ∧
        opening tools settings request r = (x, { s with store := s.store.remove l }) ∧
        ∀ confirm, convert { tools with confirm } settings request r =
          match x with
          | .error f => (.error f, { s with store := s.store.remove l })
          | .ok o => removingAfter l (do
              ensureNotConverted { tools with confirm } o.documents
              let made ← finish settings o
              deliver tools avoid destination made) s := by
  rcases inScratch_cases settings request r with
    ⟨f, hf⟩ | ⟨avoid, destination, kind, scratch, -, hb⟩
  · exact .inl ⟨f, hf _, fun confirm => by rw [convert_eq, hf]⟩
  · have hlogs := (opens_openInput tools settings avoid request.input scratch kind
      { r with store := r.store.put scratch.location .directory }).logs
    cases h : openInput tools settings avoid request.input scratch kind
      { r with store := r.store.put scratch.location .directory } with
    | mk x s =>
      rw [h] at hlogs
      refine .inr ⟨avoid, destination, scratch.location, x, s, hlogs, ?_, fun confirm => ?_⟩
      · rw [opening, hb, removingAfter, h]
      · have hopen : openInput { tools with confirm } settings avoid request.input scratch kind =
            openInput tools settings avoid request.input scratch kind := rfl
        rw [convert_eq, hb, removingAfter, run_bind, hopen, h]
        cases x <;> rfl

theorem removingAfter_ensureNotConverted (tools : Tools σ) (o : Opened) (rest : Action σ α)
    (l : Location) (s : Run σ) :
    removingAfter l (ensureNotConverted tools o.documents >>= fun _ => rest) s =
      if o.mentionsColor then
        match consent (tools.confirm s.state question).1 with
        | .ok _ => removingAfter l rest (asked tools s)
        | .error f => (.error f, { asked tools s with store := s.store.remove l })
      else removingAfter l rest s := by
  rw [removingAfter, run_bind, ensureNotConverted_eq]
  cases o.mentionsColor with
  | false => rfl
  | true =>
    rw [if_pos rfl, if_pos rfl]
    cases consent (tools.confirm s.state question).1 with
    | ok => rfl
    | error f => rfl

theorem Opened.mentionsColor_iff (o : Opened) : o.mentionsColor = true ↔
    ∃ d ∈ o.documents, ∃ line ∈ d.lines, SpotColor.cutContourName <:+: line := by
  simp only [Opened.mentionsColor, Document.mentions, List.any_eq_true, Text.occursIn_iff]

/-- Whether a conversion comes to the question: its documents have been opened, and one of them has
the name of the spot color on a line. -/
def Asks (tools : Tools σ) (settings : Settings) (request : Request) (r : Run σ) : Prop :=
  ∃ o, (opening tools settings request r).1 = .ok o ∧
    ∃ d ∈ o.documents, ∃ line ∈ d.lines, SpotColor.cutContourName <:+: line

/-- What the operator says, or would say, when the documents have been opened. -/
def answer (tools : Tools σ) (settings : Settings) (request : Request) (r : Run σ) :
    Except Failure Bool :=
  (tools.confirm (opening tools settings request r).2.state question).1

variable {tools : Tools σ} {settings : Settings} {request : Request} {r : Run σ}

theorem convert_of_not_asks (h : ¬ Asks tools settings request r) :
    ∃ x s exports later, (∀ confirm, convert { tools with confirm } settings request r = (x, s)) ∧
      s.history = r.history ++ exports ++ later ∧ (∀ e ∈ exports, e.1.isExport) ∧
      ∀ e ∈ later, e.1.isDelivery := by
  rcases convert_opening tools settings request r with
    ⟨f, -, hrun⟩ | ⟨avoid, destination, l, x, s, ⟨exports, hs, hexports⟩, hopen, hrun⟩
  · exact ⟨_, _, [], [], hrun, by simp, by simp, by simp⟩
  cases x with
  | error f => exact ⟨_, _, exports, [], hrun, by simp [hs], hexports, by simp⟩
  | ok o =>
    have hm : o.mentionsColor = false := by
      rw [← Bool.not_eq_true, o.mentionsColor_iff]
      exact fun hname => h ⟨o, congrArg Prod.fst hopen, hname⟩
    simp only [removingAfter_ensureNotConverted, hm, Bool.false_eq_true, if_false] at hrun
    obtain ⟨later, hl, hlater⟩ := logs_finish_deliver tools settings avoid destination o s
    exact ⟨_, _, exports, later, hrun, hs ▸ hl, hexports, hlater⟩

/-- With a question, the operator makes a difference by one answer only. -/
theorem convert_of_asks (h : Asks tools settings request r) :
    ∃ (rest : Action σ Summary) (l : Location) (s : Run σ) (exports : List (Event × Store)),
      Respects (Logs Event.isDelivery) rest ∧
      s.state = (opening tools settings request r).2.state ∧
      s.history = r.history ++ exports ∧ (∀ e ∈ exports, e.1.isExport) ∧
      ∀ confirm, convert { tools with confirm } settings request r =
        match consent (confirm s.state question).1 with
        | .ok _ => removingAfter l rest (asked { tools with confirm } s)
        | .error f =>
          (.error f, { asked { tools with confirm } s with store := s.store.remove l }) := by
  obtain ⟨o, ho, hname⟩ := h
  have hm := o.mentionsColor_iff.2 hname
  rcases convert_opening tools settings request r with
    ⟨f, hopen, -⟩ | ⟨avoid, destination, l, x, s, ⟨exports, hs, hexports⟩, hopen, hrun⟩
  · rw [hopen] at ho
    cases ho
  · rw [hopen] at ho ⊢
    obtain rfl : x = .ok o := ho
    simp only [removingAfter_ensureNotConverted, hm, if_true] at hrun
    exact ⟨_, l, s, exports, logs_finish_deliver tools settings avoid destination o, rfl, hs,
      hexports, hrun⟩

theorem eq_of_consent {x : Except Failure Bool} (h : consent x = .ok ()) : x = .ok true := by
  cases x with
  | error f => cases h
  | ok yes =>
    cases yes with
    | false => cases h
    | true => rfl

theorem convert_confirm_congr (confirm : σ → Text → Except Failure Bool × σ)
    (h : Asks tools settings request r →
      confirm (opening tools settings request r).2.state question =
        tools.confirm (opening tools settings request r).2.state question) :
    convert { tools with confirm } settings request r = convert tools settings request r := by
  by_cases hasks : Asks tools settings request r
  · obtain ⟨rest, l, s, -, -, hstate, -, -, hrun⟩ := convert_of_asks hasks
    have hc : confirm s.state question = tools.confirm s.state question := hstate ▸ h hasks
    have hasked : asked { tools with confirm } s = asked tools s := by simp only [asked, hc]
    have hconvert : convert tools settings request r = _ := hrun tools.confirm
    rw [hrun confirm, hconvert, hasked, hc]
  · obtain ⟨x, s, -, -, hrun, -⟩ := convert_of_not_asks hasks
    exact (hrun confirm).trans (hrun tools.confirm).symm

theorem convert_of_refusal (hasks : Asks tools settings request r)
    (h : consent (answer tools settings request r) = .error f) :
    ∃ exports s,
      (convert tools settings request r).2.history =
        r.history ++ exports ++ [(.asking question, s)] ∧
      (∀ e ∈ exports, e.1.isExport) ∧ (convert tools settings request r).1 = .error f ∧
      (convert tools settings request r).2.store = r.store := by
  obtain ⟨rest, l, s, exports, -, hstate, hs, hexports, hrun⟩ := convert_of_asks hasks
  have hconvert : convert tools settings request r = _ := hrun tools.confirm
  rw [answer, ← hstate] at h
  rw [h] at hconvert
  have hfailed : (convert tools settings request r).1 = .error f := congrArg Prod.fst hconvert
  refine ⟨exports, s.store, ?_, hexports, hfailed, convert_error_store hfailed⟩
  rw [hconvert, ← hs]
  rfl

theorem convert_of_consent (hasks : Asks tools settings request r)
    (h : answer tools settings request r = .ok true) :
    ∃ exports s later,
      (convert tools settings request r).2.history =
        r.history ++ exports ++ [(.asking question, s)] ++ later ∧
      (∀ e ∈ exports, e.1.isExport) ∧ ∀ e ∈ later, e.1.isDelivery := by
  obtain ⟨rest, l, s, exports, hrest, hstate, hs, hexports, hrun⟩ := convert_of_asks hasks
  have hconvert : convert tools settings request r = _ := hrun tools.confirm
  rw [answer, ← hstate] at h
  rw [h] at hconvert
  obtain ⟨later, hl, hlater⟩ := hrest (asked tools s)
  refine ⟨exports, s.store, later, ?_, hexports, hlater⟩
  rw [hconvert, ← hs]
  exact hl

/-- A conversion never goes on without consent: it asks once at most, and exactly when a document it
has opened names the spot color; without a yes it ends there with nothing written. Who answers
matters for nothing else. -/
theorem convert_consent (tools : Tools σ) (settings : Settings) (request : Request) (r : Run σ) :
    ∃ exports asking later,
      (convert tools settings request r).2.history = r.history ++ exports ++ asking ++ later ∧
      (∀ e ∈ exports, e.1.isExport) ∧ (∀ e ∈ later, e.1.isDelivery) ∧
      (asking = [] ∨ ∃ s, asking = [(.asking question, s)]) ∧
      (asking ≠ [] ↔ Asks tools settings request r) ∧
      (asking ≠ [] → answer tools settings request r ≠ .ok true →
        later = [] ∧ (convert tools settings request r).2.store = r.store) ∧
      (asking ≠ [] → answer tools settings request r = .ok false →
        (convert tools settings request r).1 = .error .declined) ∧
      (∀ f, asking ≠ [] → answer tools settings request r = .error f →
        (convert tools settings request r).1 = .error f) ∧
      ∀ confirm : σ → Text → Except Failure Bool × σ,
        (asking ≠ [] → confirm (opening tools settings request r).2.state question =
          tools.confirm (opening tools settings request r).2.state question) →
        convert { tools with confirm } settings request r = convert tools settings request r := by
  by_cases hasks : Asks tools settings request r
  · cases ha : consent (answer tools settings request r) with
    | error e =>
      obtain ⟨exports, s, hhistory, hexports, hfailed, hstore⟩ := convert_of_refusal hasks ha
      refine ⟨exports, [(.asking question, s)], [], by rw [hhistory, List.append_nil], hexports,
        by simp, .inr ⟨s, rfl⟩, by simp [hasks], fun _ _ => ⟨rfl, hstore⟩, fun _ hno => ?_,
        fun f _ hf => ?_, fun confirm h => convert_confirm_congr confirm fun _ => h (by simp)⟩
      · rw [hno] at ha
        cases ha
        exact hfailed
      · rw [hf] at ha
        cases ha
        exact hfailed
    | ok =>
      have hyes := eq_of_consent ha
      obtain ⟨exports, s, later, hhistory, hexports, hlater⟩ := convert_of_consent hasks hyes
      exact ⟨exports, [(.asking question, s)], later, hhistory, hexports, hlater, .inr ⟨s, rfl⟩,
        by simp [hasks], by simp [hyes], by simp [hyes], by simp [hyes],
        fun confirm h => convert_confirm_congr confirm fun _ => h (by simp)⟩
  · obtain ⟨x, s, exports, later, hrun, hs, hexports, hlater⟩ := convert_of_not_asks hasks
    have hconvert : convert tools settings request r = (x, s) := hrun tools.confirm
    refine ⟨exports, [], later, ?_, hexports, hlater, .inl rfl, ?_, by simp, by simp, by simp,
      fun confirm _ => convert_confirm_congr confirm fun h => (hasks h).elim⟩
    · rw [hconvert, List.append_nil]
      exact hs
    · simp [hasks]

end CutPath.Conversion
