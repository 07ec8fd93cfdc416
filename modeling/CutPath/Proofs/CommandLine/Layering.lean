import Mathlib.Control.Monad.Basic
import CutPath.CommandLine.Arguments

namespace CutPath
set_option autoImplicit true

namespace Settings

/-- What a file says, whether or not it can be honoured. -/
inductive FileSays (store : Store) (p : Path) : Settings → Prop where
  | missing (h : store.read p = .error .notFound) : FileSays store p default
  | file (hread : store.read p = .ok bytes) (h : ofBytes bytes = .ok s) : FileSays store p s

theorem fileSays_iff {store : Store} {p : Path} :
    FileSays store p s ↔ readFile store p = .ok s := by
  constructor
  · intro h
    cases h with
    | missing h => rw [readFile, h]
    | file hread h => rw [readFile, hread, ← h]
  · intro h
    rw [readFile] at h
    split at h
    · next hread => exact .file hread h
    · next hread =>
      obtain rfl := Except.ok.inj h
      exact .missing hread
    · cases h

theorem checked_ok_iff (c s : Settings) :
    (c.check >>= fun _ => pure c) = .ok s ↔ c.check = .ok () ∧ s = c := by
  cases c.check with
  | error f =>
    constructor
    · intro h
      cases h
    · rintro ⟨h, -⟩
      cases h
  | ok u =>
    constructor
    · intro h
      exact ⟨rfl, (Except.ok.inj h).symm⟩
    · rintro ⟨-, rfl⟩
      rfl

theorem load_ok_iff {store : Store} {p : Path} (h : FileSays store p c) :
    load store p = .ok s ↔ c.check = .ok () ∧ s = c := by
  rw [load, fileSays_iff.1 h]
  exact checked_ok_iff c s

theorem check_default : check default = .ok () := rfl

end Settings

namespace CommandLine.Arguments
open Settings (FileSays)

/-- The settings that the arguments make of others. -/
structure Layered (a : Arguments) (c s : Settings) : Prop where
  width_given : ∀ w, a.strokeWidth = some w → s.strokeWidth = w
  width_kept : a.strokeWidth = none → s.strokeWidth = c.strokeWidth
  ignoreRegion : s.ignoreRegion = true ↔ c.ignoreRegion = true ∨ a.ignoreRegion = true
  assumeYes : s.assumeYes = true ↔ c.assumeYes = true ∨ a.yes = true
  validate : s.validate = true ↔ c.validate = true ∧ a.noValidate = false
  regionTags : s.regionTags = c.regionTags
  exporter : s.exporter = c.exporter
  validator : s.validator = c.validator
  timeout : s.timeout = c.timeout

theorem layered_layer (a : Arguments) (c : Settings) : Layered a c (a.layer c) where
  width_given w h := by rw [layer, h]; rfl
  width_kept h := by rw [layer, h]; rfl
  ignoreRegion := by rw [layer, Bool.or_eq_true]
  assumeYes := by rw [layer, Bool.or_eq_true]
  validate := by rw [layer, Bool.and_eq_true, Bool.not_eq_true']
  regionTags := rfl
  exporter := rfl
  validator := rfl
  timeout := rfl

theorem Layered.unique (hs : Layered a c s) (ht : Layered a c t) : s = t := by
  have hwidth : s.strokeWidth = t.strokeWidth := by
    cases h : a.strokeWidth with
    | none => rw [hs.width_kept h, ht.width_kept h]
    | some w => rw [hs.width_given w h, ht.width_given w h]
  have hignore : s.ignoreRegion = t.ignoreRegion :=
    Bool.eq_iff_iff.2 (hs.ignoreRegion.trans ht.ignoreRegion.symm)
  have hyes : s.assumeYes = t.assumeYes :=
    Bool.eq_iff_iff.2 (hs.assumeYes.trans ht.assumeYes.symm)
  have hvalidate : s.validate = t.validate :=
    Bool.eq_iff_iff.2 (hs.validate.trans ht.validate.symm)
  have htags := hs.regionTags.trans ht.regionTags.symm
  have hexporter := hs.exporter.trans ht.exporter.symm
  have hvalidator := hs.validator.trans ht.validator.symm
  have htimeout := hs.timeout.trans ht.timeout.symm
  cases s
  cases t
  simp only at hwidth hignore hyes hvalidate htags hexporter hvalidator htimeout
  subst_vars
  rfl

theorem layered_iff (a : Arguments) (c s : Settings) : Layered a c s ↔ s = a.layer c := by
  constructor
  · intro h
    exact h.unique (layered_layer a c)
  · rintro rfl
    exact layered_layer a c

variable {a : Arguments} {e : Settings.Environment} {store : Store}

theorem settings_ok_iff (h : FileSays store (a.settingsPath e) c) :
    a.settings e store = .ok s ↔
      c.check = .ok () ∧ (a.layer c).check = .ok () ∧ s = a.layer c := by
  rw [settings]
  cases hload : Settings.load store (a.settingsPath e) with
  | error f =>
    constructor
    · intro hs
      cases hs
    · rintro ⟨hc, -⟩
      rw [(Settings.load_ok_iff h).2 ⟨hc, rfl⟩] at hload
      cases hload
  | ok c' =>
    obtain ⟨hc, rfl⟩ := (Settings.load_ok_iff h).1 hload
    rw [and_iff_right hc]
    exact Settings.checked_ok_iff (a.layer c') s

/-- The settings of a run are those of the file with the arguments on top, where both can be
honoured; what a missing file says can. -/
theorem settings_iff_layered (a : Arguments) (e : Settings.Environment) (store : Store)
    (h : FileSays store (a.settingsPath e) c) :
    (∀ s, a.settings e store = .ok s ↔
      c.check = .ok () ∧ s.check = .ok () ∧ Layered a c s) ∧
    (store.read (a.settingsPath e) = .error .notFound → c.check = .ok ()) := by
  constructor
  · intro s
    rw [settings_ok_iff h, layered_iff]
    constructor
    · rintro ⟨hc, hlayer, rfl⟩
      exact ⟨hc, hlayer, rfl⟩
    · rintro ⟨hc, hs, rfl⟩
      exact ⟨hc, hs, rfl⟩
  · intro hmissing
    cases h with
    | missing => exact Settings.check_default
    | file hread =>
      rw [hread] at hmissing
      cases hmissing

def storeSaying (text : Text) : Store :=
  ⟨[(["cut.json"], .file (Text.Utf8.encode text))], [], ⟨"/tmp"⟩⟩

def halfPoint : Arguments where
  input := ⟨"logo.svg"⟩
  output := none
  strokeWidth := some (.finite false (Nat.pow 2 52) (-53))
  ignoreRegion := false
  noValidate := true
  yes := false
  config := some ⟨"cut.json"⟩
  verbose := false
  quiet := false

theorem settings_iff_layered_onePoint :
    halfPoint.settings ⟨none, none⟩ (storeSaying "\x7b\"stroke_width\":1,\"assume_yes\":true\x7d") =
      .ok { Settings.default with
        strokeWidth := .finite false (Nat.pow 2 52) (-53)
        validate := false
        assumeYes := true } := by
  have h : FileSays (storeSaying "\x7b\"stroke_width\":1,\"assume_yes\":true\x7d") ⟨"cut.json"⟩
      { Settings.default with strokeWidth := .one, assumeYes := true } :=
    .file rfl (by decide +kernel)
  exact ((settings_iff_layered halfPoint ⟨none, none⟩ _ h).1 _).2
    ⟨by decide, by decide, layered_layer halfPoint _⟩

/-- A file that asks for no width is refused, though the arguments give one in its place. -/
theorem settings_zeroWidth :
    ¬ ∀ (a : Arguments) (e : Settings.Environment) (store : Store) (c : Settings),
      FileSays store (a.settingsPath e) c →
        ∀ s, a.settings e store = .ok s ↔ s.check = .ok () ∧ Layered a c s := by
  intro hall
  have h : FileSays (storeSaying "\x7b\"stroke_width\":0\x7d") ⟨"cut.json"⟩
      { Settings.default with strokeWidth := .zero } :=
    .file rfl (by decide +kernel)
  have hok := (hall halfPoint ⟨none, none⟩ _ _ h _).2 ⟨by decide, layered_layer halfPoint _⟩
  obtain ⟨hcheck, -⟩ := (settings_ok_iff h).1 hok
  cases hcheck

end CommandLine.Arguments
end CutPath
