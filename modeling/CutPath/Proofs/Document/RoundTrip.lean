import CutPath.Proofs.Document.Characters

namespace CutPath
open Text
set_option autoImplicit true

namespace Text.Latin1

theorem toNat_of_mem_decode (h : c ∈ decode bytes) : c.toNat < 256 := by
  obtain ⟨b, -, rfl⟩ := List.mem_map.1 h
  rw [toNat_ofNat_byte]
  exact b.toNat_lt

theorem encode_of_lt (h : ∀ c ∈ t, c.toNat < 256) :
    encode t = .ok (t.map fun c => UInt8.ofNat c.toNat) := by
  rw [encode_eq_ok_iff, List.map_map]
  exact List.map_congr_left fun c hc => UInt8.toNat_ofNat_of_lt' (h c hc)

theorem toNat_lt_of_all {t : Text} (h : (t.all fun c => decide (c.toNat < 256)) = true) :
    ∀ c ∈ t, c.toNat < 256 :=
  fun c hc => of_decide_eq_true (List.all_eq_true.1 h c hc)

theorem decode_map_ofNat (h : ∀ c ∈ t, c.toNat < 256) :
    decode (t.map fun c => UInt8.ofNat c.toNat) = t := by
  rw [decode, List.map_map]
  refine (List.map_congr_left ?_).trans (List.map_id t)
  intro c hc
  have hbyte : (UInt8.ofNat c.toNat).toNat = c.toNat := UInt8.toNat_ofNat_of_lt' (h c hc)
  rw [Function.comp_apply, hbyte, Char.ofNat_toNat, id_eq]

end Text.Latin1

namespace Document

/-- The documents that come of texts and bytes by passes and merges; `source` holds the characters
of the texts and of the names of the colors. -/
inductive Reachable (source : Char → Prop) : Document → Prop
  | parse (h : Document.parse t = .ok d) (ht : ∀ c ∈ t, source c) : Reachable source d
  | ofLatin1 (h : Document.ofLatin1 bytes = .ok d) : Reachable source d
  | header (h : Reachable source d) (hc : ∀ x ∈ c.name, x ≠ '\n' ∧ source x) :
    Reachable source (d.annotateHeader c).2
  | prolog (h : Reachable source d) (hc : ∀ x ∈ c.name, x ≠ '\n' ∧ source x) :
    Reachable source (d.injectProlog c style).2
  | strokes (h : Reachable source d) : Reachable source d.markStrokes.2
  | cut (h : Reachable source d) (hc : ∀ x ∈ c.name, x ≠ '\n' ∧ source x) :
    Reachable source (d.markCut c style).2
  | merge (hp : Reachable source print) (hc : Reachable source cut)
    (h : (print.merge cut).2 = .ok m) : Reachable source m

/-- What stands on the lines of a document that can be reached. -/
def Reaches (source : Char → Prop) (c : Char) : Prop := c ≠ '\n' ∧ (source c ∨ c.toNat < 256)

theorem alphabet_reaches (source : Char → Prop) : Alphabet (Reaches source) := by
  intro c hc
  simp only [isPrintable, Bool.and_eq_true, decide_eq_true_eq] at hc
  have hfirst : 32 ≤ c.toNat := UInt32.le_iff_toNat_le.1 hc.1
  have hlast : c.toNat ≤ 126 := UInt32.le_iff_toNat_le.1 hc.2
  refine ⟨?_, .inr (by omega)⟩
  rintro rfl
  revert hfirst
  decide

theorem Reachable.sound {source : Char → Prop} {d : Document} (h : Reachable source d) :
    d.Sound (Reaches source) := by
  have hP := alphabet_reaches source
  have hname {c : SpotColor} (hc : ∀ x ∈ c.name, x ≠ '\n' ∧ source x) :
      Over (Reaches source) c.name ∧ '\n' ∉ c.name :=
    ⟨fun x hx => ⟨(hc x hx).1, .inl (hc x hx).2⟩, fun hx => (hc '\n' hx).1 rfl⟩
  induction h with
  | parse h ht => exact sound_parse h fun c hc hne => ⟨hne, .inl (ht c hc)⟩
  | ofLatin1 h => exact sound_parse h fun c hc hne => ⟨hne, .inr (Latin1.toNat_of_mem_decode hc)⟩
  | header _ hc ih => exact ih.annotateHeader hP (hname hc).1
  | prolog _ hc ih => exact ih.injectProlog hP (hname hc).1 (hname hc).2 _
  | strokes _ ih => exact ih.markStrokes hP
  | cut _ hc ih => exact ih.markCut hP (hname hc).1 (hname hc).2 _
  | merge _ _ h ihp ihc => exact ihp.merge ihc hP h

theorem Sound.ofLatin1_toLatin1 {d : Document} (h : d.Sound (Reaches fun c => c.toNat < 256)) :
    ∃ bytes, d.toLatin1 = .ok bytes ∧ ofLatin1 bytes = .ok d := by
  have hchars : ∀ c ∈ d.text, c.toNat < 256 := by
    intro c hc
    rcases mem_join hc with hc | ⟨line, hl, hc⟩
    · rw [List.mem_singleton.1 hc]
      decide
    · exact (h.lines_over line hl c hc).2.elim id id
  refine ⟨d.text.map fun c => UInt8.ofNat c.toNat, ?_, ?_⟩
  · rw [toLatin1, encodeText, Latin1.encode_of_lt hchars]
  · rw [ofLatin1, Latin1.decode_map_ofNat hchars, h.parse_text fun hn => hn.1 rfl]

def startBytes : Bytes := startMarker.map fun c => UInt8.ofNat c.toNat

theorem ofLatin1_of_startBytes (h : startBytes <+: bytes) : ∃ d, ofLatin1 bytes = .ok d := by
  obtain ⟨rest, rfl⟩ := h
  have hstart : Latin1.decode startBytes = startMarker :=
    Latin1.decode_map_ofNat (Latin1.toNat_lt_of_all (by decide))
  have hbytes : startMarker <+: Latin1.decode (startBytes ++ rest) := by
    rw [Latin1.decode, List.map_append, ← Latin1.decode, hstart]
    exact List.prefix_append _ _
  exact ⟨_, parse_eq_ok_iff.2 ⟨hbytes, rfl⟩⟩

/-- Every document that can be reached starts as page descriptions do, has no line feed on a line,
and is what is read when its text is written; when only Latin-1 went into it, the same holds of its
bytes. And all bytes that start as page descriptions do are the bytes of the document that is read
from them. -/
theorem reachable_roundTrip :
    (∀ d, Reachable (fun _ => True) d →
      (∃ first rest, d.lines = first :: rest ∧ startMarker <+: first) ∧
        (∀ line ∈ d.lines, '\n' ∉ line) ∧ parse d.text = .ok d) ∧
    (∀ d, Reachable (fun c => c.toNat < 256) d →
      ∃ bytes, d.toLatin1 = .ok bytes ∧ ofLatin1 bytes = .ok d) ∧
    ∀ bytes, startBytes <+: bytes → ∃ d, ofLatin1 bytes = .ok d ∧ d.toLatin1 = .ok bytes := by
  refine ⟨fun d h => ?_, fun d h => h.sound.ofLatin1_toLatin1, fun bytes h => ?_⟩
  · have hs := h.sound
    exact ⟨hs.starts, fun line hl hm => (hs.lines_over line hl '\n' hm).1 rfl,
      hs.parse_text fun hn => hn.1 rfl⟩
  · obtain ⟨d, hd⟩ := ofLatin1_of_startBytes h
    exact ⟨d, hd, toLatin1_ofLatin1 hd⟩

def accentPage : Document :=
  ⟨["%!PS-Adobe-3.0\r", "%%BoundingBox: 0 0 9 9\r", "", "%%EndPageSetup", "q rectclip",
    "(\u00e9) S", "Q Q\r", "showpage\r", "%%Trailer"]⟩

def accentColor : SpotColor := ⟨"\u00e9\u00ff )", .zero, .one, .nan, .infinite true⟩

def mergedAccentPage : Document :=
  ⟨["%!PS-Adobe-3.0\r", "%%BoundingBox: 0 0 9 9\r",
    "%%DocumentCustomColors: (\u00e9\u00ff ))\r",
    "%%CMYKCustomColor: 0.00 1.00 NaN -inf (\u00e9\u00ff ))\r", "", "%%EndPageSetup", "q rectclip",
    "(\u00e9) S", "Q\r", "(\u00e9) S", "Q\r", "Q\r", "showpage\r", "%%Trailer"]⟩

theorem reachable_roundTrip_accents :
    Reachable (fun c => c.toNat < 256) mergedAccentPage ∧
      (∃ bytes, mergedAccentPage.toLatin1 = .ok bytes ∧ ofLatin1 bytes = .ok mergedAccentPage) ∧
      ∃ d, ofLatin1 startBytes = .ok d ∧ d.toLatin1 = .ok startBytes := by
  have hparse : parse accentPage.text = .ok accentPage := by decide +kernel
  have hpage : Reachable (fun c => c.toNat < 256) accentPage :=
    .parse hparse (Latin1.toNat_lt_of_all (by decide +kernel))
  have hname : ∀ x ∈ accentColor.name, x ≠ '\n' ∧ x.toNat < 256 := fun x hx =>
    ⟨ne_of_mem_of_not_mem hx (by decide), Latin1.toNat_lt_of_all (by decide) x hx⟩
  have hmerge : (accentPage.merge (accentPage.markCut accentColor .hairline).2).2 =
      .ok mergedAccentPage := by decide +kernel
  have hmerged := Reachable.merge hpage (.cut hpage hname) hmerge
  obtain ⟨-, hbytes, hstart⟩ := reachable_roundTrip
  exact ⟨hmerged, hbytes _ hmerged, hstart startBytes List.prefix_rfl⟩

end Document
end CutPath
