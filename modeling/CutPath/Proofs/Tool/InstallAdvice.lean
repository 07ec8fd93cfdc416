import Mathlib.Data.List.Infix
import Mathlib.Data.Nat.Digits.Defs
import CutPath.Failure.Advice
import CutPath.Tool

namespace CutPath
set_option autoImplicit true

namespace Text

/-- No occurrence of a word meets such a text, whatever stands on either side of it. -/
structure Severs (word s : Text) : Prop where
  not_inside : ¬ word <:+: s
  not_around : ¬ s <:+: word
  not_before : ∀ u ∈ s.inits, u ≠ [] → ¬ u <:+ word
  not_behind : ∀ u ∈ s.tails, u ≠ [] → ¬ u <+: word

instance (word s : Text) : Decidable (Severs word s) :=
  decidable_of_iff
    (¬ word <:+: s ∧ ¬ s <:+: word ∧ (∀ u ∈ s.inits, u ≠ [] → ¬ u <:+ word) ∧
      ∀ u ∈ s.tails, u ≠ [] → ¬ u <+: word)
    ⟨fun ⟨hin, hout, hinits, htails⟩ => ⟨hin, hout, hinits, htails⟩,
      fun ⟨hin, hout, hinits, htails⟩ => ⟨hin, hout, hinits, htails⟩⟩

variable {word s : Text}

theorem Severs.infix_right (h : Severs word s) (hw : s ++ b = d ++ word ++ q) : word <:+: b := by
  rw [List.append_assoc] at hw
  rcases List.append_eq_append_iff.1 hw with ⟨e, rfl, rfl⟩ | ⟨e, rfl, he⟩
  · exact ⟨e, q, by rw [List.append_assoc]⟩
  · rcases List.append_eq_append_iff.1 he with ⟨e', rfl, rfl⟩ | ⟨e', rfl, rfl⟩
    · exact (h.not_inside ⟨d, e', by rw [List.append_assoc]⟩).elim
    · cases e with
      | nil => exact ⟨[], q, rfl⟩
      | cons c e =>
        have htail : c :: e ∈ (d ++ c :: e).tails :=
          (List.mem_tails _ _).2 (List.suffix_append d _)
        exact (h.not_behind _ htail (List.cons_ne_nil c e) (List.prefix_append _ e')).elim

theorem Severs.infix_left (h : Severs (d ++ c) s) (hc : s ++ b = c ++ q) : c = [] := by
  rcases List.append_eq_append_iff.1 hc with ⟨e, rfl, rfl⟩ | ⟨e, rfl, rfl⟩
  · exact (h.not_around ⟨d, e, by rw [List.append_assoc]⟩).elim
  · have hinit : c ∈ (c ++ e).inits := (List.mem_inits _ _).2 (List.prefix_append c e)
    by_contra hne
    exact h.not_before c hinit hne (List.suffix_append d c)

/-- A word in a text that is put together stands in one of the parts. -/
theorem Severs.infix_append_iff (h : Severs word s) (a b : Text) :
    word <:+: a ++ s ++ b ↔ word <:+: a ∨ word <:+: b := by
  constructor
  · rintro ⟨p, q, hw⟩
    rw [List.append_assoc a] at hw
    rcases List.append_eq_append_iff.1 hw with ⟨c, rfl, -⟩ | ⟨c, hpw, hsb⟩
    · exact .inl ⟨p, c, rfl⟩
    · rcases List.append_eq_append_iff.1 hpw with ⟨d, rfl, rfl⟩ | ⟨d, rfl, rfl⟩
      · obtain rfl := h.infix_left hsb
        exact .inl ⟨p, [], by simp⟩
      · exact .inr (h.infix_right hsb)
  · rintro (hw | hw)
    · exact hw.trans ⟨[], s ++ b, by simp⟩
    · exact hw.trans ⟨a ++ s, [], by simp⟩

theorem lowerAscii_append (a b : Text) : lowerAscii (a ++ b) = lowerAscii a ++ lowerAscii b :=
  List.map_append

theorem toLower_of_isDigit {d : Char} (h : d.isDigit = true) : d.toLower = d := by
  have hsmall : ¬ (d.val ≥ ('A' : Char).val ∧ d.val ≤ ('Z' : Char).val) := by
    simp only [Char.isDigit, Bool.and_eq_true, decide_eq_true_eq, UInt32.le_iff_toNat_le] at h ⊢
    have hnine : ('9' : Char).val.toNat < ('A' : Char).val.toNat := by decide
    omega
  exact dif_neg hsmall

theorem isDigit_of_mem_ofNat {d : Char} (h : d ∈ ofNat n) : d.isDigit = true :=
  Nat.isDigit_of_mem_toDigits (by omega) (by omega) h

theorem lowerAscii_ofNat (n : Nat) : lowerAscii (ofNat n) = ofNat n := by
  have hsame : ∀ d ∈ ofNat n, d.toLower = id d := by
    intro d hd
    exact toLower_of_isDigit (isDigit_of_mem_ofNat hd)
  rw [lowerAscii, List.map_congr_left hsame, List.map_id]

end Text

namespace Advice

/-- The phrases by which a missing program is told. -/
def missingPhrases : List Text := ["not found", "no such file"]

/-- Whether a text says that something is not there. -/
def SaysMissing (t : Text) : Prop := ∃ phrase ∈ missingPhrases, phrase <:+: Text.lowerAscii t

instance (t : Text) : Decidable (SaysMissing t) :=
  inferInstanceAs (Decidable (∃ phrase ∈ missingPhrases, _))

theorem severity_exporter (detail : Text) :
    (ofFailure (.exporter detail)).severity = .installRequired ↔ SaysMissing detail := by
  change (ofExporterDetail detail).severity = _ ↔ _
  have hsearch : SaysMissing detail ↔ (Text.occursIn "not found" (Text.lowerAscii detail) ||
      Text.occursIn "no such file" (Text.lowerAscii detail)) = true := by
    rw [Bool.or_eq_true, Text.occursIn_iff, Text.occursIn_iff]
    simp [SaysMissing, missingPhrases]
  rw [hsearch, ofExporterDetail]
  split
  · next h => exact iff_of_true rfl h
  · next h =>
    apply iff_of_false _ h
    intro he
    split at he <;> cases he

theorem severity_timeout (tool : Text) (seconds : Nat) :
    (ofFailure (.timeout tool seconds)).severity = .transient := rfl

theorem saysMissing_append {s : Text}
    (hs : ∀ phrase ∈ missingPhrases, Text.Severs phrase (Text.lowerAscii s)) (a b : Text) :
    SaysMissing (a ++ s ++ b) ↔ SaysMissing a ∨ SaysMissing b := by
  simp only [SaysMissing, Text.lowerAscii_append]
  constructor
  · rintro ⟨phrase, hphrase, hin⟩
    rcases ((hs phrase hphrase).infix_append_iff _ _).1 hin with ha | hb
    · exact .inl ⟨phrase, hphrase, ha⟩
    · exact .inr ⟨phrase, hphrase, hb⟩
  · rintro (⟨phrase, hphrase, ha⟩ | ⟨phrase, hphrase, hb⟩)
    · exact ⟨phrase, hphrase, ((hs phrase hphrase).infix_append_iff _ _).2 (.inl ha)⟩
    · exact ⟨phrase, hphrase, ((hs phrase hphrase).infix_append_iff _ _).2 (.inr hb)⟩

theorem not_saysMissing_of_not_mem {t : Text} (h : ' ' ∉ Text.lowerAscii t) : ¬ SaysMissing t := by
  have hblank : ∀ phrase ∈ missingPhrases, ' ' ∈ phrase := by decide
  rintro ⟨phrase, hphrase, hin⟩
  exact h (hin.subset (hblank phrase hphrase))

theorem not_saysMissing_ofNat (n : Nat) : ¬ SaysMissing (Text.ofNat n) := by
  apply not_saysMissing_of_not_mem
  rw [Text.lowerAscii_ofNat]
  intro hblank
  cases Text.isDigit_of_mem_ofNat hblank

theorem signalName_cases (signal : Nat) : ExitStatus.signalName signal = [] ∨
    ∃ name ∈ ExitStatus.signalNames, ExitStatus.signalName signal = " (SIG" ++ name ++ ")" := by
  rw [ExitStatus.signalName]
  split
  · exact .inl rfl
  · next name hne h =>
    cases signal with
    | zero => exact (hne (Option.some.inj h).symm).elim
    | succ n => exact .inr ⟨name, List.mem_of_getElem? h, rfl⟩
  · exact .inl rfl

theorem not_saysMissing_signal (signal : Nat) :
    ¬ SaysMissing (Text.ofNat signal ++ ExitStatus.signalName signal) := by
  have hnames : ∀ name ∈ ExitStatus.signalNames, ¬ SaysMissing (name ++ ")") := by decide +kernel
  intro h
  rcases signalName_cases signal with hname | ⟨name, hmem, hname⟩
  · rw [hname, List.append_nil] at h
    exact not_saysMissing_ofNat signal h
  · rw [hname, List.append_assoc, ← List.append_assoc,
      saysMissing_append (s := " (SIG") (by decide +kernel)] at h
    rcases h with hsignal | hrest
    · exact not_saysMissing_ofNat signal hsignal
    · exact hnames name hmem hrest

theorem saysMissing_colon (a b : Text) :
    SaysMissing (a ++ ": " ++ b) ↔ SaysMissing a ∨ SaysMissing b :=
  saysMissing_append (by decide +kernel) a b

theorem not_saysMissing_dumpNote (h : ¬ SaysMissing t) (dumped : Bool) :
    ¬ SaysMissing (t ++ ExitStatus.dumpNote dumped) := by
  cases dumped with
  | false => rwa [ExitStatus.dumpNote, if_neg Bool.false_ne_true, List.append_nil]
  | true =>
    have hnote : t ++ ExitStatus.dumpNote true = t ++ " (" ++ "core dumped)" :=
      (List.append_assoc t " (".toList "core dumped)".toList).symm
    rw [hnote, saysMissing_append (by decide +kernel), not_or]
    exact ⟨h, by decide⟩

theorem not_saysMissing_message (status : ExitStatus) : ¬ SaysMissing status.message := by
  intro h
  cases status with
  | exited code =>
    have hmessage : (ExitStatus.exited code).message =
        "exit status" ++ ": " ++ Text.ofNat code.toNat := rfl
    rw [hmessage, saysMissing_colon] at h
    rcases h with hword | hcode
    · exact absurd hword (by decide)
    · exact not_saysMissing_ofNat _ hcode
  | signalled signal dumped =>
    have hmessage : (ExitStatus.signalled signal dumped).message = "signal" ++ ": " ++
        (Text.ofNat signal ++ ExitStatus.signalName signal ++ ExitStatus.dumpNote dumped) := rfl
    rw [hmessage, saysMissing_colon] at h
    rcases h with hword | hsignal
    · exact absurd hword (by decide)
    · exact not_saysMissing_dumpNote (not_saysMissing_signal signal) dumped hsignal

theorem saysMissing_notFound (called : Text) : SaysMissing (called ++ ": program not found") := by
  have hphrase : SaysMissing "program not found" := by decide
  have hsplit : called ++ ": program not found" = called ++ ": " ++ "program not found" :=
    (List.append_assoc called ": ".toList _).symm
  rw [hsplit, saysMissing_colon]
  exact .inr hphrase

theorem saysMissing_silent (called place : Text) :
    SaysMissing (called ++ " reported success but produced no output at " ++ place) ↔
      SaysMissing called ∨ SaysMissing place :=
  saysMissing_append (by decide +kernel) called place

theorem saysMissing_exited (called said : Text) (status : ExitStatus) :
    SaysMissing (called ++ " exited with " ++ status.message ++ ": " ++ said) ↔
      SaysMissing called ∨ SaysMissing said := by
  rw [saysMissing_colon, saysMissing_append (s := " exited with ") (by decide +kernel),
    or_iff_left (not_saysMissing_message status)]

end Advice

def Launch.IsMissing (l : Launch) : Prop := ∃ detail, l = .notStarted .notFound detail

theorem Launch.isMissing_iff (kind : IoKind) (detail : Text) :
    IsMissing (.notStarted kind detail) ↔ kind = .notFound := by
  constructor
  · rintro ⟨_, h⟩
    exact (Launch.notStarted.inj h).1
  · rintro rfl
    exact ⟨detail, rfl⟩

namespace Exporter

/-- The texts that a failed export quotes: what the program is called, and what is known about the
end of it. -/
def quoted (program output : Path) : Launch → List Text
  | .notStarted _ detail => [Tool.name program, detail]
  | .overran => []
  | .finished status errors =>
    [Tool.name program,
      if status.isSuccess then output.text else Tool.tail (Text.Utf8.decodeLossy errors)]

variable {c : Command} {output : Path} {produced : Bool} {status : ExitStatus}

theorem outcome_notStarted {kind : IoKind} (hkind : kind ≠ .notFound) (detail : Text) :
    outcome c output produced (.notStarted kind detail) =
      .error (.exporter (Tool.name c.program ++ ": " ++ detail)) := by
  cases kind
  case notFound => exact (hkind rfl).elim
  all_goals rfl

theorem outcome_failed (hstatus : status.isSuccess = false) (errors : Bytes) :
    outcome c output produced (.finished status errors) =
      .error (.exporter (Tool.name c.program ++ " exited with " ++ status.message ++ ": " ++
        Tool.tail (Text.Utf8.decodeLossy errors))) := by
  rw [outcome, hstatus]
  rfl

theorem outcome_silent (hstatus : status.isSuccess = true) (errors : Bytes)
    (h : outcome c output produced (.finished status errors) = .error f) :
    f = .exporter (Tool.name c.program ++ " reported success but produced no output at " ++
      output.text) := by
  rw [outcome, hstatus] at h
  cases produced with
  | false => exact (Except.error.inj h).symm
  | true => cases h

/-- The advice on a failed export is to install the program exactly when the program is not there,
or when a quoted text says that something is not there. -/
theorem outcome_installRequired_iff (program drawing output : Path) (selector : Option Text)
    (timeout : Nat) (produced : Bool) (launch : Launch) {f : Failure}
    (h : outcome (command program drawing output selector timeout) output produced launch =
      .error f) :
    (Advice.ofFailure f).severity = .installRequired ↔
      launch.IsMissing ∨ ∃ t ∈ quoted program output launch, Advice.SaysMissing t := by
  cases launch with
  | overran =>
    obtain rfl := Except.error.inj h
    rw [Tool.overrun, Advice.severity_timeout]
    simp [quoted, Launch.IsMissing]
  | notStarted kind detail =>
    rw [Launch.isMissing_iff, quoted]
    by_cases hkind : kind = .notFound
    · subst hkind
      rw [← Except.error.inj h, Advice.severity_exporter]
      exact iff_of_true (Advice.saysMissing_notFound _) (.inl rfl)
    · rw [outcome_notStarted hkind] at h
      rw [← Except.error.inj h, Advice.severity_exporter, Advice.saysMissing_colon]
      simp [hkind, command]
  | finished status errors =>
    have hthere : ¬ Launch.IsMissing (.finished status errors) := by simp [Launch.IsMissing]
    rw [or_iff_right hthere, quoted]
    cases hstatus : status.isSuccess with
    | false =>
      rw [outcome_failed hstatus] at h
      rw [← Except.error.inj h, Advice.severity_exporter, Advice.saysMissing_exited]
      simp [command]
    | true =>
      rw [outcome_silent hstatus errors h, Advice.severity_exporter, Advice.saysMissing_silent]
      simp [command]

theorem outcome_installRequired_iff_inkscape :
    let c := command ⟨"inkscape"⟩ ⟨"d.svg"⟩ ⟨"d.eps"⟩ none 30000
    let launch := Launch.notStarted .notFound IoKind.notFound.detail
    let f := Failure.exporter "inkscape: program not found"
    outcome c ⟨"d.eps"⟩ false launch = .error f ∧
      (Advice.ofFailure f).severity = .installRequired := by
  intro c launch f
  have hf : outcome c ⟨"d.eps"⟩ false launch = .error f := by decide +kernel
  exact ⟨hf, (outcome_installRequired_iff _ _ _ none 30000 false launch hf).2 (.inl ⟨_, rfl⟩)⟩

/-- A program that is there and misses something itself: the operator is told to install it. -/
theorem outcome_installRequired_font :
    ¬ ∀ (program drawing output : Path) (selector : Option Text) (timeout : Nat) (produced : Bool)
      (launch : Launch) (f : Failure),
      outcome (command program drawing output selector timeout) output produced launch = .error f →
        ((Advice.ofFailure f).severity = .installRequired ↔ launch.IsMissing) := by
  intro hall
  have herror := hall ⟨"inkscape"⟩ ⟨"d.svg"⟩ ⟨"d.eps"⟩ none 30000 false
    (.finished (.exited 1) (Text.Utf8.encode "font Foo not found\n"))
    (.exporter "inkscape exited with exit status: 1: font Foo not found") (by decide +kernel)
  rw [Advice.severity_exporter] at herror
  obtain ⟨_, h⟩ := herror.1 (by decide)
  cases h

end Exporter
end CutPath
