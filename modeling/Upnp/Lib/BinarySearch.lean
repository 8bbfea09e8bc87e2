import Mathlib.Data.List.Sort
import Upnp.Lib.CString

/-!
# Binary search

The search between two indices, for any comparison with what stands there.  What it finds compares
equal whatever the table; that it finds what is there needs the table in order.
-/

namespace Upnp.Lib

/-- The indices from `top` to `bot`, probed in the middle. -/
def bisect (cmp : Nat → Ordering) (top bot : Int) : Option Nat :=
  if top ≤ bot then
    let mid := (top + bot) / 2
    match cmp mid.toNat with
    | .gt => bisect cmp (mid + 1) bot
    | .lt => bisect cmp top (mid - 1)
    | .eq => some mid.toNat
  else none
termination_by (bot + 1 - top).toNat

variable {cmp : Nat → Ordering} {top bot : Int} {i : Nat}

/-- One probe. -/
theorem bisect_step (hle : top ≤ bot) : bisect cmp top bot =
    match cmp ((top + bot) / 2).toNat with
    | .gt => bisect cmp ((top + bot) / 2 + 1) bot
    | .lt => bisect cmp top ((top + bot) / 2 - 1)
    | .eq => some ((top + bot) / 2).toNat := by
  rw [bisect, if_pos hle]

/-- What is found lies between the bounds and compares equal. -/
theorem bisect_sound (htop : 0 ≤ top) (h : bisect cmp top bot = some i) :
    cmp i = .eq ∧ (i : Int) ≤ bot := by
  induction top, bot using bisect.induct cmp with
  | case1 top bot hle mid hmid ih =>
    rw [bisect_step hle, hmid] at h
    exact ih (by omega) h
  | case2 top bot hle mid hmid ih =>
    rw [bisect_step hle, hmid] at h
    obtain ⟨heq, hi⟩ := ih htop h
    exact ⟨heq, by omega⟩
  | case3 top bot hle mid hmid =>
    rw [bisect_step hle, hmid] at h
    obtain rfl := Option.some.inj h
    exact ⟨hmid, by omega⟩
  | case4 top bot hle =>
    rw [bisect, if_neg hle] at h
    cases h

/-- The key is above what stands before its place and below what stands behind. -/
structure Places (cmp : Nat → Ordering) (bot : Int) (i : Nat) : Prop where
  here : cmp i = .eq
  above : ∀ j < i, cmp j = .gt
  below : ∀ j > i, (j : Int) ≤ bot → cmp j = .lt

/-- In a table in order the key is found. -/
theorem bisect_complete {size : Int} (hi : Places cmp size i) (htop : 0 ≤ top) (hbot : bot ≤ size)
    (hfrom : top ≤ i) (hto : (i : Int) ≤ bot) : bisect cmp top bot = some i := by
  induction top, bot using bisect.induct cmp with
  | case1 top bot hle mid hmid ih =>
    rw [bisect_step hle, hmid]
    refine ih (by omega) hbot ?_ hto
    -- The key is not at the middle or before it, where it would compare equal or below.
    by_contra hlt
    rcases Nat.lt_or_ge i mid.toNat with hi' | hi'
    · rw [hi.below _ hi' (by omega)] at hmid
      cases hmid
    · obtain rfl : i = mid.toNat := by omega
      rw [hi.here] at hmid
      cases hmid
  | case2 top bot hle mid hmid ih =>
    rw [bisect_step hle, hmid]
    refine ih htop (by omega) hfrom ?_
    by_contra hlt
    rcases Nat.lt_or_ge mid.toNat i with hi' | hi'
    · rw [hi.above _ hi'] at hmid
      cases hmid
    · obtain rfl : i = mid.toNat := by omega
      rw [hi.here] at hmid
      cases hmid
  | case3 top bot hle mid hmid =>
    rw [bisect_step hle, hmid]
    rcases Nat.lt_trichotomy mid.toNat i with hlt | heq | hgt
    · rw [hi.above _ hlt] at hmid
      cases hmid
    · exact congrArg some heq
    · rw [hi.below _ hgt (by omega)] at hmid
      cases hmid
  | case4 top bot hle => omega

/-! ## Comparisons of strings -/

/-- The sign of `strcmp( a, b )`. -/
def strcmp (a b : CString) : Ordering :=
  if a = b then .eq else if a < b then .lt else .gt

/-- The sign of `strcasecmp( a, b )`. -/
def strcasecmp (a b : CString) : Ordering := strcmp (a.map Char.toLower) (b.map Char.toLower)

/-- Equal strings are the ones that compare equal. -/
theorem strcmp_eq_iff {a b : CString} : strcmp a b = .eq ↔ a = b := by
  unfold strcmp
  constructor
  · intro h
    by_contra hne
    rw [if_neg hne] at h
    split at h <;> cases h
  · intro h
    exact if_pos h

/-- Strings that differ in case at most are the ones that compare equal. -/
theorem strcasecmp_eq_iff {a b : CString} : strcasecmp a b = .eq ↔ strcaseEq a b = true := by
  unfold strcasecmp strcaseEq
  rw [strcmp_eq_iff, decide_eq_true_iff]

end Upnp.Lib
