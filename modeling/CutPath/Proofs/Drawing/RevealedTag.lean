import CutPath.Proofs.Drawing.Readable
import CutPath.Proofs.Drawing.Reveal

namespace CutPath
open Markup
set_option autoImplicit true

namespace Attribute

def IsKey (key : Text) : Prop :=
  ∃ c t, key = c :: t ∧ ¬ isSpace c = true ∧ ∀ d ∈ t, isKeyChar d = true

/-- Attributes whose keys differ from each other and from all that have been seen before. -/
def Fresh (seen : List Text) : List Attribute → Prop
  | [] => True
  | a :: as => IsKey a.key ∧ a.key ∉ seen ∧ Fresh (a.key :: seen) as

theorem Fresh.of_seen (h : Fresh seen' as) (hs : ∀ key ∈ seen, key ∈ seen') : Fresh seen as := by
  induction as generalizing seen seen' with
  | nil => trivial
  | cons a as ih =>
    refine ⟨h.1, fun hm => h.2.1 (hs _ hm), ih h.2.2 ?_⟩
    exact List.forall_mem_cons.2
      ⟨List.mem_cons_self, fun key hk => List.mem_cons_of_mem _ (hs key hk)⟩

theorem readFrom_nil (seen : List Text) : readFrom seen [] = [] := by rw [readFrom]

theorem readFrom_space (hc : isSpace c = true) (seen : List Text) (t : Text) :
    readFrom seen (c :: t) = readFrom seen t := by
  rw [readFrom, if_pos hc]

section key

variable (hc : ¬ isSpace c = true)

include hc

theorem readFrom_end (ht : (t.dropWhile isKeyChar).dropWhile isSpace = []) (seen : List Text) :
    readFrom seen (c :: t) = [] := by
  rw [readFrom, if_neg hc]
  split
  · rfl
  · next hd => cases ht.symm.trans hd

theorem readFrom_value (ht : (t.dropWhile isKeyChar).dropWhile isSpace = '=' :: rest)
    (seen : List Text) :
    readFrom seen (c :: t) =
      (readValue seen (c :: t.takeWhile isKeyChar) rest).1.toList ++
        readFrom ((c :: t.takeWhile isKeyChar) :: seen)
          (readValue seen (c :: t.takeWhile isKeyChar) rest).2 := by
  rw [readFrom, if_neg hc]
  split
  · next hd => cases ht.symm.trans hd
  · next hd =>
    obtain ⟨rfl, rfl⟩ := List.cons.inj (ht.symm.trans hd)
    rfl

theorem readFrom_other (ht : (t.dropWhile isKeyChar).dropWhile isSpace = d :: rest) (hd : d ≠ '=')
    (seen : List Text) : readFrom seen (c :: t) = readFrom seen (d :: rest) := by
  rw [readFrom, if_neg hc]
  split
  · next he => cases ht.symm.trans he
  · next he =>
    obtain ⟨rfl, rfl⟩ := List.cons.inj (ht.symm.trans he)
    exact if_neg hd

end key

theorem key_of_readValue {key : Text} (h : (readValue seen key t).1 = some a) :
    a.key = key ∧ key ∉ seen := by
  unfold readValue at h
  split at h
  · cases h
  · next hseen =>
    rw [List.contains_iff_mem] at hseen
    refine ⟨?_, hseen⟩
    split at h
    · cases h
    · split at h
      · split at h <;> cases h
        rfl
      · cases h

theorem fresh_readFrom (seen : List Text) (t : Text) : Fresh seen (readFrom seen t) := by
  induction seen, t using readFrom.induct with
  | case1 seen =>
    rw [readFrom_nil]
    trivial
  | case2 seen c t hc ih =>
    rw [readFrom_space hc]
    exact ih
  | case3 seen c t hc ht =>
    rw [readFrom_end hc ht]
    trivial
  | case4 seen c t hc rest key _ value ht _ ih =>
    rw [readFrom_value hc ht]
    cases ha : (readValue seen key rest).1 with
    | none => exact ih.of_seen fun k hk => List.mem_cons_of_mem key hk
    | some a =>
      obtain ⟨hkey, hseen⟩ := key_of_readValue ha
      refine ⟨⟨c, t.takeWhile isKeyChar, hkey, hc, fun d hd => List.mem_takeWhile_imp hd⟩, ?_, ?_⟩
      · rwa [hkey]
      · rw [hkey]
        exact ih
  | case5 seen c t hc d rest ht _ hd ih =>
    rw [readFrom_other hc ht hd]
    exact ih

theorem cutAt?_quote {raw : Text} (h : '"' ∉ raw) (rest : Text) :
    cutAt? ['"'] (raw ++ '"' :: rest) = some (raw, rest) := by
  induction raw with
  | nil => exact cutAt?_self (List.cons_ne_nil _ _) rest
  | cons c raw ih =>
    rw [List.mem_cons, not_or] at h
    have hp : ¬ ['"'].isPrefixOf (c :: (raw ++ '"' :: rest)) = true := by
      simpa [List.isPrefixOf] using h.1
    rw [List.cons_append, cutAt?, if_neg hp, ih h.2]
    rfl

theorem readValue_quoted {key raw : Text} (hk : key ∉ seen) (hr : '"' ∉ raw) (rest : Text) :
    readValue seen key ('"' :: (raw ++ '"' :: rest)) = (some ⟨key, raw⟩, rest) := by
  have hseen : ¬ seen.contains key = true := fun h => hk (List.contains_iff_mem.1 h)
  have hdrop : ('"' :: (raw ++ '"' :: rest)).dropWhile isSpace = '"' :: (raw ++ '"' :: rest) := rfl
  simp only [readValue, if_neg hseen, hdrop, cutAt?_quote hr]
  rfl

theorem readFrom_write_cons {a : Attribute} (hkey : IsKey a.key) (seen : List Text) (rest : Text) :
    readFrom seen (a.write ++ rest) =
      (readValue seen a.key ('"' :: (a.raw ++ '"' :: rest))).1.toList ++
        readFrom (a.key :: seen) (readValue seen a.key ('"' :: (a.raw ++ '"' :: rest))).2 := by
  obtain ⟨key, raw⟩ := a
  obtain ⟨c, t, rfl, hc, ht⟩ := hkey
  have hwrite : write ⟨c :: t, raw⟩ ++ rest =
      ' ' :: c :: (t ++ '=' :: '"' :: (raw ++ '"' :: rest)) := by
    simp [write]
  have hdrop : ((t ++ '=' :: '"' :: (raw ++ '"' :: rest)).dropWhile isKeyChar).dropWhile isSpace =
      '=' :: '"' :: (raw ++ '"' :: rest) := by
    rw [List.dropWhile_append_of_pos ht]
    rfl
  have htake : (t ++ '=' :: '"' :: (raw ++ '"' :: rest)).takeWhile isKeyChar = t := by
    rw [List.takeWhile_append_of_pos ht]
    exact List.append_nil t
  rw [hwrite, readFrom_space rfl, readFrom_value hc hdrop, htake]

/-- Attributes are read back from what is written for them exactly when no value has a quote. -/
theorem readFrom_write_iff (h : Fresh seen as) :
    readFrom seen (as.flatMap write) = as ↔ ∀ a ∈ as, '"' ∉ a.raw := by
  induction as generalizing seen with
  | nil => exact iff_of_true (readFrom_nil seen) fun a ha => by cases ha
  | cons a as ih =>
    obtain ⟨hkey, hseen, hfresh⟩ := h
    rw [List.flatMap_cons, readFrom_write_cons hkey, List.forall_mem_cons]
    by_cases hraw : '"' ∈ a.raw
    · -- The value ends at its first quote, so another one is read.
      obtain ⟨before, after, hsplit, hbefore⟩ := List.eq_append_cons_of_mem hraw
      refine iff_of_false (fun hread => ?_) fun hall => hall.1 hraw
      rw [hsplit, List.append_assoc, List.cons_append, readValue_quoted hseen hbefore] at hread
      have hvalue : before = a.raw := congrArg raw (List.cons.inj hread).1
      exact hbefore (hvalue ▸ hraw)
    · rw [readValue_quoted hseen hraw, Option.toList_some, List.singleton_append,
        ← ih hfresh, List.cons_inj_right]
      exact (and_iff_right hraw).symm

theorem fresh_reveal (h : Fresh seen as) : Fresh seen (as.filterMap reveal?) := by
  induction as generalizing seen with
  | nil => trivial
  | cons a as ih =>
    obtain ⟨hkey, hseen, hfresh⟩ := h
    rw [List.filterMap_cons]
    split
    · exact (ih hfresh).of_seen fun k hk => List.mem_cons_of_mem _ hk
    · next b hb =>
      have hkeys := key_of_reveal hb
      rw [Fresh, hkeys]
      exact ⟨hkey, hseen, ih hfresh⟩

theorem filterMap_reveal_reveal (as : List Attribute) :
    (as.filterMap reveal?).filterMap reveal? = as.filterMap reveal? := by
  rw [List.filterMap_filterMap]
  apply List.filterMap_congr
  intro a ha
  cases hb : reveal? a with
  | none => rfl
  | some b => exact reveal?_reveal hb

/-- The attributes that are left of a tag when it is made visible. -/
def revealed (content : Text) : List Attribute := (ofTag content).filterMap reveal?

theorem fresh_revealed (content : Text) : Fresh [] (revealed content) :=
  fresh_reveal (fresh_readFrom [] _)

theorem head?_flatMap_write (as : List Attribute) : ∀ c ∈ (as.flatMap write).head?, c = ' ' := by
  cases as with
  | nil => simp
  | cons a as => simp [write]

theorem find?_reveal (hk : k ∉ (["display", "visibility", "style"] : List Text))
    (as : List Attribute) :
    (as.filterMap reveal?).find? (·.key == k) = as.find? (·.key == k) := by
  induction as with
  | nil => rfl
  | cons a as ih =>
    by_cases ha : a.key = k
    · have hkept : reveal? a = some a := reveal?_other (ha ▸ hk)
      rw [List.filterMap_cons, hkept, List.find?_cons_of_pos (by simpa using ha),
        List.find?_cons_of_pos (by simpa using ha)]
    · rw [List.filterMap_cons, List.find?_cons_of_neg (by simpa using ha)]
      split
      · exact ih
      · next b hb =>
        have hb' : b.key ≠ k := key_of_reveal hb ▸ ha
        rw [List.find?_cons_of_neg (by simpa using hb'), ih]

end Attribute

namespace Markup

open Attribute

/-- A tag whose attributes can be put between double quotes as they stand; a style is escaped
first. -/
structure Quotable (content : Text) : Prop where
  name : (tagName content).all isPlain = true
  slash : (tagName content).getLast? ≠ some '/'
  keys : ∀ a ∈ revealed content, a.key.all isPlain = true
  values : ∀ a ∈ revealed content, a.key ≠ "style" → '"' ∉ a.raw

theorem quotable_iff (content : Text) : Quotable content ↔
    (tagName content).all isPlain = true ∧ (tagName content).getLast? ≠ some '/' ∧
      (∀ a ∈ revealed content, a.key.all isPlain = true) ∧
      ∀ a ∈ revealed content, a.key ≠ "style" → '"' ∉ a.raw :=
  ⟨fun h => ⟨h.name, h.slash, h.keys, h.values⟩, fun h => ⟨h.1, h.2.1, h.2.2.1, h.2.2.2⟩⟩

instance (content : Text) : Decidable (Quotable content) :=
  decidable_of_iff _ (quotable_iff content).symm

theorem revealTag_eq (content : Text) :
    revealTag content = tagName content ++ (revealed content).flatMap Attribute.write := rfl

theorem span_tagName (content : Text) (as : List Attribute) :
    (tagName content ++ as.flatMap Attribute.write).takeWhile (!isSpace ·) = tagName content ∧
      (tagName content ++ as.flatMap Attribute.write).dropWhile (!isSpace ·) =
        as.flatMap Attribute.write := by
  have hname : ∀ c ∈ tagName content, (!isSpace c) = true :=
    fun c hc => List.mem_takeWhile_imp (p := (!isSpace ·)) hc
  have hhead := head?_flatMap_write as
  rw [List.takeWhile_append_of_pos hname, List.dropWhile_append_of_pos hname]
  cases hrest : as.flatMap Attribute.write with
  | nil => simp
  | cons c rest =>
    rw [hrest] at hhead
    obtain rfl := hhead c rfl
    exact ⟨List.append_nil _, rfl⟩

theorem tagName_revealTag (content : Text) : tagName (revealTag content) = tagName content :=
  (span_tagName content _).1

theorem quote_not_mem_revealed (h : ∀ a ∈ revealed content, a.key ≠ "style" → '"' ∉ a.raw) :
    ∀ a ∈ revealed content, '"' ∉ a.raw := by
  intro a ha
  by_cases hk : a.key = "style"
  · obtain ⟨b, -, hb⟩ := List.mem_filterMap.1 ha
    exact quote_not_mem_of_style hb hk
  · exact h a ha hk

theorem ofTag_revealTag_iff (content : Text) : ofTag (revealTag content) = revealed content ↔
    ∀ a ∈ revealed content, a.key ≠ "style" → '"' ∉ a.raw := by
  rw [ofTag, revealTag_eq, (span_tagName content _).2, readFrom_write_iff (fresh_revealed content)]
  exact ⟨fun h a ha _ => h a ha, quote_not_mem_revealed⟩

theorem isStructural_revealTag (content : Text) :
    isStructural (revealTag content) = isStructural content := by
  rw [isStructural, localName, tagName_revealTag]
  rfl

theorem sealed_write {as : List Attribute} (hkeys : ∀ a ∈ as, a.key.all isPlain = true)
    (hvalues : ∀ a ∈ as, '"' ∉ a.raw) : Sealed none (as.flatMap Attribute.write) := by
  induction as with
  | nil => rfl
  | cons a as ih =>
    obtain ⟨hkey, hkeys⟩ := List.forall_mem_cons.1 hkeys
    obtain ⟨hraw, hvalues⟩ := List.forall_mem_cons.1 hvalues
    have hplain : ∀ c ∈ ' ' :: a.key ++ ['='], isPlain c = true := by
      intro c hc
      rcases List.mem_append.1 hc with hc | hc
      · rcases List.mem_cons.1 hc with rfl | hc
        · rfl
        · exact List.all_eq_true.1 hkey c hc
      · obtain rfl := List.mem_singleton.1 hc
        rfl
    have hvalue : Sealed none ('"' :: (a.raw ++ ['"'])) := by
      refine ⟨fun h => ?_, Sealed.quoted hraw⟩
      cases h.1
    have hwrite : a.write = (' ' :: a.key ++ ['=']) ++ '"' :: (a.raw ++ ['"']) := by
      simp [Attribute.write]
    rw [List.flatMap_cons, hwrite]
    exact ((sealed_plain hplain).append hvalue).append (ih hkeys hvalues)

theorem getLast?_write (as : List Attribute) :
    ∀ c ∈ (as.flatMap Attribute.write).getLast?, c = '"' := by
  rcases List.eq_nil_or_concat as with rfl | ⟨as, a, rfl⟩
  · simp
  · intro c hc
    rw [List.concat_eq_append, List.flatMap_append, List.flatMap_singleton, Attribute.write,
      ← List.append_assoc] at hc
    exact (Option.some.inj ((List.getLast?_concat (a := '"') ..).symm.trans hc)).symm

theorem startsTag_revealTag (hs : StartsTag content) : StartsTag (revealTag content) := by
  rw [revealTag_eq]
  cases hn : tagName content with
  | cons c name =>
    obtain ⟨rest, hrest⟩ := List.takeWhile_prefix (!isSpace ·) (l := content)
    rw [← tagName, hn] at hrest
    rw [← hrest] at hs
    exact hs
  | nil =>
    have hhead := head?_flatMap_write (revealed content)
    rw [List.nil_append]
    cases hrest : (revealed content).flatMap Attribute.write with
    | nil => simp [StartsTag]
    | cons c rest =>
      rw [hrest] at hhead
      rw [hhead c rfl]
      simp [StartsTag]

namespace Quotable

variable (h : Quotable content)

include h

theorem quote_not_mem : ∀ a ∈ revealed content, '"' ∉ a.raw := quote_not_mem_revealed h.values

theorem ofTag_revealTag : ofTag (revealTag content) = revealed content :=
  (ofTag_revealTag_iff content).2 h.values

theorem revealTag_revealTag : revealTag (revealTag content) = revealTag content := by
  have hrevealed : revealed (revealTag content) = revealed content := by
    rw [revealed, h.ofTag_revealTag]
    exact filterMap_reveal_reveal _
  rw [revealTag_eq, hrevealed, tagName_revealTag, ← revealTag_eq]

theorem attribute?_revealTag (hk : k ∉ (["display", "visibility", "style"] : List Text)) :
    attribute? k (revealTag content) = attribute? k content := by
  rw [attribute?, h.ofTag_revealTag, revealed, find?_reveal hk, attribute?]

theorem names_revealTag : names (revealTag content) = names content := by
  have hid := h.attribute?_revealTag (k := "id") (by decide)
  have hlabel := h.attribute?_revealTag (k := "inkscape:label") (by decide)
  rw [names, names, List.filterMap_cons, List.filterMap_cons, hid, hlabel]
  rfl

theorem sealed_revealTag : Sealed none (revealTag content) :=
  (sealed_plain (List.all_eq_true.1 h.name)).append (sealed_write h.keys h.quote_not_mem)

theorem getLast?_revealTag : (revealTag content).getLast? ≠ some '/' := by
  intro hl
  rw [revealTag_eq, List.getLast?_append, Option.or_eq_some_iff] at hl
  rcases hl with hl | ⟨-, hl⟩
  · cases getLast?_write _ _ hl
  · exact h.slash hl

theorem readable_openTag_revealTag (hr : Readable (openTag content)) :
    Readable (openTag (revealTag content)) := by
  have hs : StartsTag (revealTag content) :=
    startsTag_revealTag (hr.startsTag (t := content ++ ['>']) rfl rfl).of_append
  exact readable_openTag h.sealed_revealTag hs h.getLast?_revealTag

theorem readable_emptyTag_revealTag (hr : Readable (emptyTag content))
    (hne : revealTag content ≠ []) : Readable (emptyTag (revealTag content)) := by
  have hslash : Sealed none ['/'] := sealed_plain (List.forall_mem_singleton.2 rfl)
  refine readable_emptyTag (h.sealed_revealTag.append hslash) ?_
  have hs : StartsTag (revealTag content) :=
    startsTag_revealTag (hr.startsTag (t := content ++ ['/', '>']) rfl rfl).of_append
  obtain ⟨c, rest, he⟩ := List.exists_cons_of_ne_nil hne
  rw [he] at hs ⊢
  exact hs

end Quotable

end Markup
end CutPath
