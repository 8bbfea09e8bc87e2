import Upnp.Lib.CString

/-!
# Substrings and separators

Where `strstr` finds something in a text whose parts are joined by a separator: a pattern without
the separator lies in one of the parts, and one with it ends one part and begins the next.
-/

namespace Upnp.Lib

variable {a b s t pat p q : CString} {c d : Char}

/-- The first separator is at one place. -/
theorem append_sep_inj (ha : c ∉ a) (hb : c ∉ b) (h : a ++ c :: s = b ++ c :: t) :
    a = b ∧ s = t := by
  induction a generalizing b with
  | nil =>
    cases b with
    | nil => exact ⟨rfl, (List.cons.inj h).2⟩
    | cons d b => exact absurd ((List.cons.inj h).1 ▸ List.mem_cons_self) hb
  | cons d a ih =>
    cases b with
    | nil => exact absurd ((List.cons.inj h).1 ▸ List.mem_cons_self) ha
    | cons e b =>
      obtain ⟨rfl, htail⟩ := List.cons.inj h
      obtain ⟨rfl, rfl⟩ :=
        ih (List.not_mem_of_not_mem_cons ha) (List.not_mem_of_not_mem_cons hb) htail
      exact ⟨rfl, rfl⟩

/-- What begins in front of a separator that it does not have ends in front of it. -/
theorem isPrefix_append_sep (hpat : c ∉ pat) : pat <+: a ++ c :: s ↔ pat <+: a := by
  refine ⟨fun h ↦ ?_, fun h ↦ h.trans (List.prefix_append _ _)⟩
  induction pat generalizing a with
  | nil => exact List.nil_prefix
  | cons d pat ih =>
    cases a with
    | nil => exact absurd (List.cons_prefix_cons.mp h).1.symm (List.ne_of_not_mem_cons hpat)
    | cons e a =>
      obtain ⟨rfl, htail⟩ := List.cons_prefix_cons.mp h
      exact List.cons_prefix_cons.mpr ⟨rfl, ih (List.not_mem_of_not_mem_cons hpat) htail⟩

/-- `strstr` goes on where the pattern does not begin. -/
theorem strstr_cons (h : ¬ pat <+: c :: s) : strstr (c :: s) pat = strstr s pat := by
  rw [strstr, if_neg (mt List.isPrefixOf_iff_prefix.mp h)]

/-- A pattern without the separator that does not lie in front of it is looked for behind it. -/
theorem strstr_append_sep (hpat : c ∉ pat) (ha : ¬ pat <:+: a) :
    strstr (a ++ c :: s) pat = strstr s pat := by
  induction a with
  | nil => exact strstr_cons fun h ↦ ha ((@isPrefix_append_sep [] _ _ _ hpat).mp h).isInfix
  | cons d a ih =>
    have hprefix : ¬ pat <+: d :: (a ++ c :: s) := fun h ↦
      ha ((@isPrefix_append_sep (d :: a) _ _ _ hpat).mp h).isInfix
    rw [List.cons_append, strstr_cons hprefix]
    exact ih fun h ↦ ha (h.trans (List.suffix_cons d a).isInfix)

/-- Where its first character is not, a pattern does not begin. -/
theorem strstr_append_of_notMem (hd : d ∉ a) :
    strstr (a ++ s) (d :: pat) = strstr s (d :: pat) := by
  induction a with
  | nil => rfl
  | cons c a ih =>
    have hprefix : ¬ d :: pat <+: c :: (a ++ s) := fun h ↦
      List.ne_of_not_mem_cons hd (List.cons_prefix_cons.mp h).1
    rw [List.cons_append, strstr_cons hprefix, ih (List.not_mem_of_not_mem_cons hd)]

/-- `strstr` finds a pattern that is at the start. -/
theorem strstr_of_prefix (h : pat <+: s) : strstr s pat = some s := by
  cases s with
  | nil => rw [strstr, if_pos (List.prefix_nil.mp h)]
  | cons c s => rw [strstr, if_pos (List.isPrefixOf_iff_prefix.mpr h)]

theorem strstr_eq_none (hne : pat ≠ []) (h : ¬ pat <:+: s) : strstr s pat = none :=
  not_not.mp fun hs ↦ h ((strstr_ne_none_iff hne).mp hs)

/-- A pattern with the separator ends one part and begins the next, or lies behind. -/
theorem isInfix_append_sep (ha : c ∉ a) (hp : c ∉ p) (h : p ++ c :: q <:+: a ++ c :: s) :
    p <:+ a ∧ q <+: s ∨ p ++ c :: q <:+: s := by
  obtain ⟨front, rest, heq⟩ := h
  by_cases hfront : c ∈ front
  · obtain ⟨front₁, front₂, rfl, hfront₁⟩ := List.eq_append_cons_of_mem hfront
    rw [List.append_assoc, List.append_assoc, List.cons_append] at heq
    obtain ⟨-, rfl⟩ := append_sep_inj hfront₁ ha heq
    exact .inr ⟨front₂, rest, by rw [List.append_assoc]⟩
  · have hmem : c ∉ front ++ p := List.not_mem_append hfront hp
    rw [List.append_assoc, List.append_assoc, List.cons_append, ← List.append_assoc] at heq
    obtain ⟨rfl, rfl⟩ := append_sep_inj hmem ha heq
    exact .inl ⟨List.suffix_append _ _, List.prefix_append _ _⟩

end Upnp.Lib
