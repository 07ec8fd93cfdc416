import CutPath.Proofs.Document.Passes

namespace CutPath
open Text
set_option autoImplicit true

theorem findIdx?_append_cons {p : α → Bool} (hx : p x = true) (ha : ∀ y ∈ a, p y = false)
    (b : List α) : (a ++ x :: b).findIdx? p = some a.length := by
  rw [List.findIdx?_append, List.findIdx?_eq_none_iff.2 ha, List.findIdx?_cons, hx]
  simp

def procedureBlockLike (c : SpotColor) (style : StrokeStyle) (line : Text) : List Text :=
  (procedureBlock c style).map (· ++ lineEnding line)

/-- So many blocks of procedures, one behind the other. -/
def procedureBlocks (c : SpotColor) (style : StrokeStyle) (line : Text) (n : Nat) : List Text :=
  (List.replicate n (procedureBlockLike c style line)).flatten

theorem procedureBlocks_succ (c : SpotColor) (style : StrokeStyle) (line : Text) (n : Nat) :
    procedureBlocks c style line (n + 1) =
      procedureBlocks c style line n ++ procedureBlockLike c style line := by
  rw [procedureBlocks, List.replicate_succ', List.flatten_append, List.flatten_singleton,
    procedureBlocks]

theorem length_procedureBlocks (c : SpotColor) (style : StrokeStyle) (line : Text) (n : Nat) :
    (procedureBlocks c style line n).length = n * (procedureBlock c style).length := by
  induction n with
  | zero => rw [Nat.zero_mul]; rfl
  | succ n ih =>
    rw [procedureBlocks_succ, List.length_append, ih, procedureBlockLike, List.length_map,
      Nat.succ_mul]

theorem opens_procedureBlockLike {c : SpotColor} (hc : '\n' ∉ c.name) (hm : m ∈ Marker.opening)
    (style : StrokeStyle) (like : Text) :
    ∀ line ∈ procedureBlockLike c style like, Marker.opens m line = false := by
  intro _ h
  obtain ⟨line, hline, rfl⟩ := List.mem_map.1 h
  rw [procedureBlock_eq hc] at hline
  have hborne : Marker.borne (line ++ lineEnding like) = [] := by
    rw [Marker.borne_congr_words (words_append_lineEnding line like)]
    exact (procedureLines_inert hc style line hline).2
  rw [← Marker.contains_borne hm, hborne]
  rfl

namespace Document

/-- A document that has been given its procedures so many times. -/
def injected (d : Document) (c : SpotColor) (style : StrokeStyle) : Nat → Document
  | 0 => d
  | n + 1 => ((d.injected c style n).injectProlog c style).2

/-- A document takes its procedures behind some lines and in front of another one: the first that
ends a prolog, or the first that begins a setup where no line ends a prolog. The last argument is
how the place is reported. -/
inductive Takes (d : Document) (before : List Text) (line : Text) (rest : List Text) :
    (Nat → PrologOutcome) → Prop
  | prologEnd (hlines : d.lines = before ++ line :: rest)
      (hline : Marker.opens Marker.endProlog line = true)
      (hbefore : ∀ l ∈ before, Marker.opens Marker.endProlog l = false) :
      Takes d before line rest .beforePrologEnd
  | setup (hlines : d.lines = before ++ line :: rest)
      (hprolog : ∀ l ∈ d.lines, Marker.opens Marker.endProlog l = false)
      (hline : Marker.opens Marker.beginSetup line = true)
      (hbefore : ∀ l ∈ before, Marker.opens Marker.beginSetup l = false) :
      Takes d before line rest .beforeSetup

namespace Takes

variable {d : Document} {report : Nat → PrologOutcome}

theorem lines_eq (h : Takes d before line rest report) : d.lines = before ++ line :: rest := by
  cases h with
  | prologEnd hlines => exact hlines
  | setup hlines => exact hlines

theorem injectProlog (h : Takes d before line rest report) (c : SpotColor) (style : StrokeStyle) :
    d.injectProlog c style = (report before.length,
      ⟨before ++ procedureBlockLike c style line ++ line :: rest⟩) := by
  have hinsert : d.insertLike before.length (procedureBlock c style) =
      ⟨before ++ procedureBlockLike c style line ++ line :: rest⟩ := by
    rw [insertLike, insert, h.lines_eq, List.drop_left, List.take_left, List.headD_cons,
      procedureBlockLike]
  cases h with
  | prologEnd hlines hline hbefore =>
    have hplace : Marker.prologEnd? d.lines = some before.length := by
      rw [Marker.prologEnd?, hlines, findIdx?_append_cons hline hbefore]
    simp only [Document.injectProlog, prologPlace, hplace, hinsert]
  | setup hlines hprolog hline hbefore =>
    have hnone : Marker.prologEnd? d.lines = none := List.findIdx?_eq_none_iff.2 hprolog
    have hplace : Marker.setupBegin? d.lines = some before.length := by
      rw [Marker.setupBegin?, hlines, findIdx?_append_cons hline hbefore]
    simp only [Document.injectProlog, prologPlace, hnone, hplace, hinsert]

theorem insert (h : Takes d before line rest report)
    (hnew : ∀ m ∈ Marker.opening, ∀ l ∈ new, Marker.opens m l = false) :
    Takes ⟨before ++ new ++ line :: rest⟩ (before ++ new) line rest report := by
  have hinsert {m : Text} (hm : m ∈ Marker.opening)
      (hbefore : ∀ l ∈ before, Marker.opens m l = false) :
      ∀ l ∈ before ++ new, Marker.opens m l = false :=
    List.forall_mem_append.2 ⟨hbefore, hnew m hm⟩
  cases h with
  | prologEnd hlines hline hbefore => exact .prologEnd rfl hline (hinsert (by decide) hbefore)
  | setup hlines hprolog hline hbefore =>
    rw [hlines, List.forall_mem_append] at hprolog
    refine .setup rfl ?_ hline (hinsert (by decide) hbefore)
    exact List.forall_mem_append.2 ⟨hinsert (by decide) hprolog.1, hprolog.2⟩

theorem injected (h : Takes d before line rest report) {c : SpotColor} (hc : '\n' ∉ c.name)
    (style : StrokeStyle) (n : Nat) :
    Takes (d.injected c style n) (before ++ procedureBlocks c style line n) line rest report := by
  induction n with
  | zero =>
    rw [procedureBlocks, List.replicate_zero, List.flatten_nil, List.append_nil]
    exact h
  | succ n ih =>
    have hnew : ∀ m ∈ Marker.opening, ∀ l ∈ procedureBlockLike c style line,
        Marker.opens m l = false := fun m hm => opens_procedureBlockLike hc hm style line
    have hstep := ih.insert hnew
    rw [Document.injected, ih.injectProlog, procedureBlocks_succ, ← List.append_assoc]
    exact hstep

/-- What so many runs leave, and what the next one reports. -/
theorem after_runs (h : Takes d before line rest report) {c : SpotColor} (hc : '\n' ∉ c.name)
    (style : StrokeStyle) (n : Nat) :
    d.lines[before.length]? = some line ∧
      (d.injected c style n).lines = d.lines.take before.length ++
        procedureBlocks c style line n ++ d.lines.drop before.length ∧
      ((d.injected c style n).injectProlog c style).1 =
        report (before.length + n * (procedureBlock c style).length) := by
  have hn := h.injected hc style n
  refine ⟨?_, ?_, ?_⟩
  · rw [h.lines_eq, List.getElem?_append_right (Nat.le_refl _), Nat.sub_self,
      List.getElem?_cons_zero]
  · rw [hn.lines_eq, h.lines_eq, List.take_left, List.drop_left]
  · rw [hn.injectProlog, List.length_append, length_procedureBlocks]

end Takes

/-- Putting the procedures in again and again. In a document with a place for them, so many runs
leave as many blocks in front of the line that marks the place, and each run reports an index that
is one block further on; in a document without one, no run changes anything. -/
theorem injectProlog_repeated {c : SpotColor} (hc : '\n' ∉ c.name) (style : StrokeStyle)
    (d : Document) (n : Nat) :
    (∀ i, d.lines.findIdx? (Marker.opens Marker.endProlog) = some i →
      ∃ line, d.lines[i]? = some line ∧
        (d.injected c style n).lines =
          d.lines.take i ++ procedureBlocks c style line n ++ d.lines.drop i ∧
        ((d.injected c style n).injectProlog c style).1 =
          .beforePrologEnd (i + n * (procedureBlock c style).length)) ∧
    (d.lines.findIdx? (Marker.opens Marker.endProlog) = none →
      (∀ i, d.lines.findIdx? (Marker.opens Marker.beginSetup) = some i →
        ∃ line, d.lines[i]? = some line ∧
          (d.injected c style n).lines =
            d.lines.take i ++ procedureBlocks c style line n ++ d.lines.drop i ∧
          ((d.injected c style n).injectProlog c style).1 =
            .beforeSetup (i + n * (procedureBlock c style).length)) ∧
      (d.lines.findIdx? (Marker.opens Marker.beginSetup) = none →
        d.injected c style n = d ∧
          ((d.injected c style n).injectProlog c style).1 = .skipped)) := by
  refine ⟨fun i hi => ?_, fun hprolog => ⟨fun i hi => ?_, fun hsetup => ?_⟩⟩
  · obtain ⟨before, line, rest, hlines, rfl, hline, hbefore⟩ := Marker.split_at_first hi
    have htakes : Takes d before line rest .beforePrologEnd := .prologEnd hlines hline hbefore
    exact ⟨line, htakes.after_runs hc style n⟩
  · obtain ⟨before, line, rest, hlines, rfl, hline, hbefore⟩ := Marker.split_at_first hi
    have hnone := List.findIdx?_eq_none_iff.1 hprolog
    have htakes : Takes d before line rest .beforeSetup := .setup hlines hnone hline hbefore
    exact ⟨line, htakes.after_runs hc style n⟩
  · have hstep : d.injectProlog c style = (.skipped, d) := by
      simp only [injectProlog, prologPlace, Marker.prologEnd?, hprolog, Marker.setupBegin?, hsetup]
    have hsame : d.injected c style n = d := by
      induction n with
      | zero => rfl
      | succ n ih => rw [injected, ih, hstep]
    rw [hsame, hstep]
    exact ⟨rfl, rfl⟩

def twoPrologs : Document :=
  ⟨["%!PS-Adobe-3.0", "%%BeginSetup", "  %%EndProlog\r", "%%EndProlog", "showpage"]⟩

def prologColor : SpotColor := ⟨"%%EndProlog", .zero, .nan, .one, .zero⟩

theorem injectProlog_repeated_marker :
    '\n' ∉ prologColor.name ∧
    twoPrologs.lines.findIdx? (Marker.opens Marker.endProlog) = some 2 ∧
    (twoPrologs.injected prologColor .hairline 2).lines =
      (["%!PS-Adobe-3.0", "%%BeginSetup"] : List Text) ++
        procedureBlocks prologColor .hairline "  %%EndProlog\r" 2 ++
        (["  %%EndProlog\r", "%%EndProlog", "showpage"] : List Text) ∧
    ((twoPrologs.injected prologColor .hairline 2).injectProlog prologColor .hairline).1 =
      .beforePrologEnd 68 := by
  have hname : '\n' ∉ prologColor.name := by decide
  have hfirst : twoPrologs.lines.findIdx? (Marker.opens Marker.endProlog) = some 2 := by decide
  have hlength : (procedureBlock prologColor .hairline).length = 33 := by decide +kernel
  obtain ⟨line, hline, hlines, hreport⟩ :=
    (injectProlog_repeated hname .hairline twoPrologs 2).1 2 hfirst
  cases hline
  rw [hlength] at hreport
  exact ⟨hname, hfirst, hlines, hreport⟩

end Document
end CutPath
