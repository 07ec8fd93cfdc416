import Mathlib.Data.List.DropRight
import CutPath.Drawing.Markup

namespace CutPath
set_option autoImplicit true

namespace Markup

theorem cutAt?_self (hs : stop ≠ []) (rest : Text) :
    cutAt? stop (stop ++ rest) = some ([], rest) := by
  obtain ⟨c, stop, rfl⟩ := List.exists_cons_of_ne_nil hs
  have hp : (c :: stop).isPrefixOf (c :: (stop ++ rest)) = true :=
    List.isPrefixOf_iff_prefix.2 (List.prefix_append _ _)
  rw [List.cons_append, cutAt?, if_pos hp, ← List.cons_append, List.drop_left]

theorem cutAt?_append (hs : stop ≠ []) (h : cutAt? stop t = some (body, rest)) (rest' : Text) :
    cutAt? stop (body ++ stop ++ rest') = some (body, rest') := by
  induction t generalizing body with
  | nil => cases h
  | cons c t ih =>
    rw [cutAt?] at h
    split at h
    · obtain ⟨rfl, -⟩ := Prod.mk.inj (Option.some.inj h)
      exact cutAt?_self hs rest'
    · next hp =>
      obtain ⟨⟨b, r⟩, hcut, he⟩ := Option.map_eq_some_iff.1 h
      obtain ⟨rfl, rfl⟩ := Prod.mk.inj he
      have hp' : ¬ stop.isPrefixOf (c :: (b ++ stop ++ rest')) = true := by
        rw [List.isPrefixOf_iff_prefix] at hp ⊢
        intro hpre
        apply hp
        have hwindow : stop <+: c :: (b ++ stop) :=
          List.prefix_of_prefix_length_le hpre
            (List.prefix_append (c :: (b ++ stop)) rest') (by simp; omega)
        rw [cutAt?_eq hcut]
        exact hwindow.trans (List.prefix_append (c :: (b ++ stop)) r)
      rw [List.cons_append, List.cons_append, cutAt?, if_neg hp', ih hcut]
      rfl

theorem cutBalanced?_append (h : cutBalanced? depth t = some (body, rest)) (rest' : Text) :
    cutBalanced? depth (body ++ '>' :: rest') = some (body, rest') := by
  induction t generalizing depth body with
  | nil => cases h
  | cons c t ih =>
    rw [cutBalanced?] at h
    split at h
    · next hc =>
      obtain ⟨rfl, -⟩ := Prod.mk.inj (Option.some.inj h)
      rw [List.nil_append, cutBalanced?, if_pos ⟨rfl, hc.2⟩]
    · next hc =>
      obtain ⟨⟨b, r⟩, hcut, he⟩ := Option.map_eq_some_iff.1 h
      obtain ⟨rfl, rfl⟩ := Prod.mk.inj he
      rw [List.cons_append, cutBalanced?, if_neg hc]
      exact congrArg (Option.map _) (ih hcut)

theorem cutBalanced?_plain (hp : ∀ c ∈ p, c ≠ '<' ∧ c ≠ '>') (depth : Nat) (t : Text) :
    cutBalanced? depth (p ++ t) = (cutBalanced? depth t).map fun q => (p ++ q.1, q.2) := by
  induction p with
  | nil => simp
  | cons c p ih =>
    obtain ⟨⟨hopen, hclose⟩, hp⟩ := List.forall_mem_cons.1 hp
    rw [List.cons_append, cutBalanced?, if_neg fun h => hclose h.1]
    simp only [if_neg hopen, if_neg hclose]
    rw [ih hp, Option.map_map]
    rfl

/-- A text that leaves no quote open and has no closing bracket outside quotes. -/
def Sealed (inside : Option Char) : Text → Prop
  | [] => inside = none
  | c :: t => ¬(c = '>' ∧ inside = none) ∧ Sealed (quoteAfter inside c) t

theorem cutTag?_eq_some_iff :
    cutTag? inside t = some (body, rest) ↔ t = body ++ '>' :: rest ∧ Sealed inside body := by
  induction t generalizing inside body with
  | nil => simp [cutTag?]
  | cons c t ih =>
    rw [cutTag?]
    split
    · next hc =>
      obtain ⟨rfl, rfl⟩ := hc
      cases body with
      | nil => simp [Sealed]
      | cons d body => simp +contextual [Sealed, eq_comm]
    · next hc =>
      simp only [Option.map_eq_some_iff, Prod.exists, Prod.mk.injEq]
      constructor
      · rintro ⟨b, r, hcut, rfl, rfl⟩
        obtain ⟨rfl, hs⟩ := ih.1 hcut
        exact ⟨rfl, hc, hs⟩
      · rintro ⟨ht, hs⟩
        cases body with
        | nil => exact absurd ⟨(List.cons.inj ht).1, hs⟩ hc
        | cons d body =>
          obtain ⟨rfl, rfl⟩ := List.cons.inj ht
          exact ⟨body, rest, ih.2 ⟨rfl, hs.2⟩, rfl, rfl⟩

theorem cutTag?_of_sealed (h : Sealed none body) (rest : Text) :
    cutTag? none (body ++ '>' :: rest) = some (body, rest) :=
  cutTag?_eq_some_iff.2 ⟨rfl, h⟩

namespace Sealed

theorem append_iff (ha : Sealed inside a) : Sealed inside (a ++ b) ↔ Sealed none b := by
  induction a generalizing inside with
  | nil =>
    change inside = none at ha
    rw [ha, List.nil_append]
  | cons c a ih => exact (and_iff_right ha.1).trans (ih ha.2)

theorem append (ha : Sealed inside a) (hb : Sealed none b) : Sealed inside (a ++ b) :=
  ha.append_iff.2 hb

theorem quoted (h : q ∉ raw) : Sealed (some q) (raw ++ [q]) := by
  induction raw with
  | nil => exact ⟨fun h => (by cases h.2), if_pos rfl⟩
  | cons c raw ih =>
    rw [List.mem_cons, not_or] at h
    refine ⟨fun h => (by cases h.2), ?_⟩
    rw [quoteAfter, if_neg (Ne.symm h.1)]
    exact ih h.2

end Sealed

/-- Characters that can stand in a tag outside quotes. -/
def isPlain (c : Char) : Bool := c != '"' && c != '\'' && c != '>'

theorem quoteAfter_plain (hc : isPlain c = true) : quoteAfter none c = none := by
  simp only [isPlain, Bool.and_eq_true, bne_iff_ne] at hc
  exact if_neg (not_or.2 ⟨hc.1.1, hc.1.2⟩)

theorem sealed_plain (h : ∀ c ∈ t, isPlain c = true) : Sealed none t := by
  induction t with
  | nil => rfl
  | cons c t ih =>
    obtain ⟨hc, ht⟩ := List.forall_mem_cons.1 h
    refine ⟨?_, (quoteAfter_plain hc).symm ▸ ih ht⟩
    rintro ⟨rfl, -⟩
    cases hc

theorem quoteAfter_cases (h : ∀ q ∈ inside, q = '"' ∨ q = '\'') :
    ∀ q ∈ quoteAfter inside c, q = '"' ∨ q = '\'' := by
  intro q hq
  cases inside with
  | none =>
    simp only [quoteAfter, Option.mem_def] at hq
    split at hq
    · next hc => exact Option.some.inj hq ▸ hc
    · cases hq
  | some p =>
    simp only [quoteAfter, Option.mem_def] at hq
    split at hq
    · cases hq
    · exact Option.some.inj hq ▸ h p rfl

/-- Characters at the end that are no quotes leave no quote open that was not open before. -/
theorem Sealed.of_append (hq : ∀ q ∈ inside, q = '"' ∨ q = '\'')
    (hb : ∀ c ∈ b, c ≠ '"' ∧ c ≠ '\'') (h : Sealed inside (a ++ b)) : Sealed inside a := by
  induction a generalizing inside with
  | nil =>
    induction b with
    | nil => exact h
    | cons c b ih =>
      obtain ⟨hc, hb⟩ := List.forall_mem_cons.1 hb
      refine ih hb ?_
      have hafter : quoteAfter inside c = inside := by
        cases inside with
        | none => exact if_neg (not_or.2 hc)
        | some q =>
          refine if_neg ?_
          rintro rfl
          rcases hq c rfl with h | h
          · exact hc.1 h
          · exact hc.2 h
      rw [← hafter]
      exact h.2
  | cons c a ih => exact ⟨h.1, ih (quoteAfter_cases hq) h.2⟩

theorem closingName_cases (content : Text) :
    closingName (closingName content) = closingName content ∧
      ∃ b, content = closingName content ++ b ∧ ∀ c ∈ b, isSpace c = true := by
  have hsplit : content = (content.reverse.dropWhile isSpace).reverse ++
      (content.reverse.takeWhile isSpace).reverse := by
    rw [← List.reverse_append, List.takeWhile_append_dropWhile, List.reverse_reverse]
  cases hname : (content.reverse.dropWhile isSpace).reverse with
  | nil =>
    have hself : closingName content = content := by rw [closingName, hname]
    rw [hself, hself]
    exact ⟨rfl, [], (List.append_nil _).symm, fun c hc => (List.not_mem_nil hc).elim⟩
  | cons d name =>
    have hself : closingName content = d :: name := by rw [closingName, hname]
    have hagain : closingName (d :: name) = d :: name := by
      rw [closingName, ← hname, List.reverse_reverse, List.dropWhile_idempotent, hname]
    rw [hself]
    refine ⟨hagain, (content.reverse.takeWhile isSpace).reverse, ?_, ?_⟩
    · rw [← hname]
      exact hsplit
    · intro c hc
      exact (List.mem_takeWhile_imp (List.mem_reverse.1 hc))

end Markup
end CutPath
