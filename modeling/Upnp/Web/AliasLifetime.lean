import Mathlib.Data.List.Nodup
import Upnp.Web.AliasList

/-!
# The lifetime of aliased entities

An entity is freed when its count reaches zero, and the count is meant to be the
number of requests that hold it, and one for the list until the alias is removed.
This holds along runs in which no alias is removed twice, no request ends on a
removed entity that another request still holds, and no constructed name is taken.
-/

namespace Upnp.Web

open Upnp.Lib

variable {ι : Type}

/-! ## The node of a name -/

theorem find_some {aliasName : CString} {l before behind : List (AliasedEntity ι)}
    {ae : AliasedEntity ι} (h : find aliasName l = some (before, ae, behind)) :
    l = before ++ ae :: behind ∧ ae.aliasName = aliasName := by
  induction l generalizing before with
  | nil => cases h
  | cons x l ih =>
    simp only [find] at h
    split at h
    case isTrue hx =>
      cases h
      exact ⟨rfl, hx⟩
    case isFalse =>
      simp only [Option.map_eq_some_iff, Prod.mk.injEq, Prod.exists] at h
      obtain ⟨before', ae', behind', h, rfl, rfl, rfl⟩ := h
      obtain ⟨rfl, hname⟩ := ih h
      exact ⟨rfl, hname⟩

theorem find_none {aliasName : CString} {l : List (AliasedEntity ι)}
    (h : find aliasName l = none) : ∀ e ∈ l, e.aliasName ≠ aliasName := by
  induction l with
  | nil => nofun
  | cons x l ih =>
    simp only [find] at h
    split at h
    case isTrue => cases h
    case isFalse hx =>
      rintro e (_ | ⟨_, he⟩)
      · exact hx
      · exact ih (Option.map_eq_none_iff.mp h) e he

/-! ## The invariant -/

/-- How many requests hold the entity. -/
def holders (grabs : Multiset Grab) (serial : Nat) : Nat :=
  grabs.countP fun g ↦ g.serial = serial

/-- What the record of an entity says about those who hold it. -/
structure Entry (grabs : Multiset Grab) (removed : List Nat) (e : AliasedEntity ι) : Prop where
  count : e.count = holders grabs e.serial + if e.serial ∈ removed then 0 else 1
  stopServing : e.stopServing = decide (e.serial ∈ removed)
  held : 0 < e.count

/-- The invariant of the alias list. -/
structure Custody (s : State ι) : Prop where
  names : (s.aliasList.map AliasedEntity.aliasName).Nodup
  serials : (s.aliasList.map AliasedEntity.serial).Nodup
  listed_lt : ∀ e ∈ s.aliasList, e.serial < s.added
  removed_lt : ∀ k ∈ s.removed, k < s.added
  /-- What a request holds is in the list under the name it keeps. -/
  grabs : ∀ g ∈ s.grabs, ∃ e ∈ s.aliasList, e.serial = g.serial ∧ e.aliasName = g.aliasName
  entries : ∀ e ∈ s.aliasList, Entry s.grabs s.removed e
  freed : ∀ k ∈ s.freed, k ∈ s.removed ∧ ∀ e ∈ s.aliasList, e.serial ≠ k

/-- Two states of the requests and removals that differ at most at one entity. -/
structure SameElsewhere (k : Nat) (grabs grabs' : Multiset Grab) (removed removed' : List Nat) :
    Prop where
  holders : ∀ j, j ≠ k → holders grabs' j = holders grabs j
  removed : ∀ j, j ≠ k → (j ∈ removed' ↔ j ∈ removed)

theorem Entry.elsewhere {k : Nat} {grabs grabs' : Multiset Grab} {removed removed' : List Nat}
    {e : AliasedEntity ι} (h : Entry grabs removed e)
    (hs : SameElsewhere k grabs grabs' removed removed') (hk : e.serial ≠ k) :
    Entry grabs' removed' e := by
  constructor
  · rw [h.count, hs.holders _ hk, if_congr (hs.removed _ hk).symm rfl rfl]
  · rw [h.stopServing, decide_eq_decide]
    exact (hs.removed _ hk).symm
  · exact h.held

theorem holders_cons (g : Grab) (grabs : Multiset Grab) (k : Nat) :
    holders (g ::ₘ grabs) k = holders grabs k + if g.serial = k then 1 else 0 :=
  Multiset.countP_cons _ _ _

theorem holders_erase {g : Grab} {grabs : Multiset Grab} (hg : g ∈ grabs) (k : Nat) :
    holders (grabs.erase g) k + (if g.serial = k then 1 else 0) = holders grabs k := by
  rw [← holders_cons, Multiset.cons_erase hg]

section Node

variable {s : State ι} {before behind : List (AliasedEntity ι)} {ae : AliasedEntity ι}

/-- The other records are of other entities. -/
theorem Custody.serial_ne (h : Custody s) (hl : s.aliasList = before ++ ae :: behind)
    {e : AliasedEntity ι} (he : e ∈ before ++ behind) : e.serial ≠ ae.serial := by
  have hnd := h.serials
  rw [hl, List.map_append, List.map_cons, List.nodup_middle, ← List.map_append,
    List.nodup_cons] at hnd
  exact fun heq ↦ hnd.1 (heq ▸ List.mem_map_of_mem he)

/-- The node's record is rewritten, name and number kept. -/
theorem Custody.update (h : Custody s) (hl : s.aliasList = before ++ ae :: behind)
    (ae' : AliasedEntity ι) (grabs' : Multiset Grab) (removed' : List Nat)
    (hname : ae'.aliasName = ae.aliasName) (hserial : ae'.serial = ae.serial)
    (hsame : SameElsewhere ae.serial s.grabs grabs' s.removed removed')
    (hentry : Entry grabs' removed' ae')
    (hgrabs : ∀ g ∈ grabs', g ∈ s.grabs ∨ g = ⟨ae.aliasName, ae.serial⟩)
    (hremoved : ∀ k ∈ removed', k < s.added) (hsub : s.removed ⊆ removed') :
    Custody { s with
      aliasList := before ++ ae' :: behind, grabs := grabs', removed := removed' } := by
  have hmem : ae ∈ s.aliasList := hl ▸ by simp
  have hcases : ∀ e ∈ before ++ ae' :: behind, e = ae' ∨ e ∈ before ++ behind := by
    intro e he
    simp only [List.mem_append, List.mem_cons] at he ⊢
    tauto
  have hother : ∀ e ∈ before ++ behind, e ∈ s.aliasList := by
    intro e he
    rw [hl]
    simp only [List.mem_append, List.mem_cons] at he ⊢
    tauto
  constructor
  case names =>
    have hnd := h.names
    rw [hl, List.map_append, List.map_cons] at hnd
    simpa only [List.map_append, List.map_cons, hname] using hnd
  case serials =>
    have hnd := h.serials
    rw [hl, List.map_append, List.map_cons] at hnd
    simpa only [List.map_append, List.map_cons, hserial] using hnd
  case listed_lt =>
    intro e he
    rcases hcases e he with rfl | he
    · exact hserial ▸ h.listed_lt ae hmem
    · exact h.listed_lt e (hother e he)
  case removed_lt => exact hremoved
  case grabs =>
    have hnew : ∀ e ∈ s.aliasList, ∃ e' ∈ before ++ ae' :: behind,
        e'.serial = e.serial ∧ e'.aliasName = e.aliasName := by
      intro e he
      rw [hl] at he
      simp only [List.mem_append, List.mem_cons] at he
      rcases he with he | rfl | he
      · exact ⟨e, by simp [he], rfl, rfl⟩
      · exact ⟨ae', by simp, hserial, hname⟩
      · exact ⟨e, by simp [he], rfl, rfl⟩
    intro g hg
    rcases hgrabs g hg with hg | rfl
    · obtain ⟨e, he, hs, hn⟩ := h.grabs g hg
      obtain ⟨e', he', hs', hn'⟩ := hnew e he
      exact ⟨e', he', hs'.trans hs, hn'.trans hn⟩
    · obtain ⟨e', he', hs', hn'⟩ := hnew ae hmem
      exact ⟨e', he', hs', hn'⟩
  case entries =>
    intro e he
    rcases hcases e he with rfl | he
    · exact hentry
    · exact (h.entries e (hother e he)).elsewhere hsame (h.serial_ne hl he)
  case freed =>
    intro k hk
    obtain ⟨hk, hne⟩ := h.freed k hk
    refine ⟨hsub hk, fun e he ↦ ?_⟩
    rcases hcases e he with rfl | he
    · exact hserial ▸ hne ae hmem
    · exact hne e (hother e he)

/-- The node is taken out and its entity freed. -/
theorem Custody.free (h : Custody s) (hl : s.aliasList = before ++ ae :: behind)
    {grabs' : Multiset Grab} {removed' : List Nat}
    (hsame : SameElsewhere ae.serial s.grabs grabs' s.removed removed')
    (hgrabs : ∀ g ∈ grabs', g ∈ s.grabs ∧ g.serial ≠ ae.serial)
    (hremoved : ∀ k ∈ removed', k < s.added) (hsub : s.removed ⊆ removed')
    (hae : ae.serial ∈ removed') :
    Custody { s with
      aliasList := before ++ behind, grabs := grabs', removed := removed',
      freed := ae.serial :: s.freed } := by
  have hsublist : (before ++ behind).Sublist s.aliasList :=
    hl ▸ (List.sublist_cons_self ae behind).append_left before
  constructor
  case names => exact h.names.sublist (hsublist.map _)
  case serials => exact h.serials.sublist (hsublist.map _)
  case listed_lt => exact fun e he ↦ h.listed_lt e (hsublist.subset he)
  case removed_lt => exact hremoved
  case grabs =>
    intro g hg
    obtain ⟨hg, hne⟩ := hgrabs g hg
    obtain ⟨e, he, hs, hn⟩ := h.grabs g hg
    refine ⟨e, ?_, hs, hn⟩
    rw [hl] at he
    simp only [List.mem_append, List.mem_cons] at he ⊢
    rcases he with he | rfl | he
    · exact .inl he
    · exact absurd hs.symm hne
    · exact .inr he
  case entries =>
    intro e he
    exact (h.entries e (hsublist.subset he)).elsewhere hsame (h.serial_ne hl he)
  case freed =>
    rintro k (_ | ⟨_, hk⟩)
    · exact ⟨hae, fun e he ↦ h.serial_ne hl he⟩
    · obtain ⟨hk, hne⟩ := h.freed k hk
      exact ⟨hsub hk, fun e he ↦ hne e (hsublist.subset he)⟩

end Node

/-! ## One lemma per action -/

/-- The steps that keep to the protocol the counts are meant for. -/
def Orderly (s : State ι) : Action ι → Prop
  | .add aliasName _ ae =>
    ∀ e ∈ s.aliasList, e.aliasName ≠ actualAlias s.aliasList aliasName ae
  | .remove aliasName =>
    ∀ e ∈ s.aliasList, e.aliasName = aliasName → e.serial ∉ s.removed
  | .freeAlias g => g.serial ∈ s.removed → holders (s.grabs.erase g) g.serial = 0
  | .grab _ => True

section Steps

variable {s s' : State ι}

theorem Custody.add (h : Custody s) {aliasName : CString} {info : ι} {ae : Nat}
    (hok : Orderly s (.add aliasName info ae)) :
    Custody { s with
      aliasList := addEntity aliasName info ae s.added s.aliasList, added := s.added + 1 } := by
  have hcases : ∀ e ∈ addEntity aliasName info ae s.added s.aliasList,
      e ∈ s.aliasList ∨ e = ⟨actualAlias s.aliasList aliasName ae, info, 1, false, s.added⟩ := by
    intro e he
    simpa [addEntity] using he
  have hnone : holders s.grabs s.added = 0 := by
    apply Multiset.countP_eq_zero.mpr
    intro g hg heq
    obtain ⟨e, he, hs, -⟩ := h.grabs g hg
    exact (h.listed_lt e he).ne (hs.trans heq)
  have hnew : s.added ∉ s.removed := fun hk ↦ (h.removed_lt _ hk).false
  constructor
  case names =>
    simp only [addEntity, List.map_append, List.map_singleton]
    refine List.nodup_append'.mpr ⟨h.names, List.nodup_singleton _, ?_⟩
    rw [List.disjoint_singleton]
    intro hmem
    obtain ⟨e, he, heq⟩ := List.mem_map.mp hmem
    exact hok e he heq
  case serials =>
    simp only [addEntity, List.map_append, List.map_singleton]
    refine List.nodup_append'.mpr ⟨h.serials, List.nodup_singleton _, ?_⟩
    rw [List.disjoint_singleton]
    intro hmem
    obtain ⟨e, he, heq⟩ := List.mem_map.mp hmem
    exact (h.listed_lt e he).ne heq
  case listed_lt =>
    intro e he
    rcases hcases e he with he | rfl
    · exact (h.listed_lt e he).trans (Nat.lt_succ_self _)
    · exact Nat.lt_succ_self _
  case removed_lt => exact fun k hk ↦ (h.removed_lt k hk).trans (Nat.lt_succ_self _)
  case grabs =>
    intro g hg
    obtain ⟨e, he, hs⟩ := h.grabs g hg
    exact ⟨e, List.mem_append_left _ he, hs⟩
  case entries =>
    intro e he
    rcases hcases e he with he | rfl
    · exact h.entries e he
    · constructor <;> simp [hnone, hnew]
  case freed =>
    intro k hk
    obtain ⟨hk, hne⟩ := h.freed k hk
    refine ⟨hk, fun e he ↦ ?_⟩
    rcases hcases e he with he | rfl
    · exact hne e he
    · exact (h.removed_lt k hk).ne'

theorem Custody.grab (h : Custody s) (aliasName : CString) : Custody (s.grab aliasName) := by
  cases hf : find aliasName s.aliasList with
  | none => simpa [State.grab, grabEntity, hf] using h
  | some node =>
    obtain ⟨before, ae, behind⟩ := node
    obtain ⟨hl, hname⟩ := find_some hf
    cases hstop : ae.stopServing with
    | true => simpa [State.grab, grabEntity, hf, hstop] using h
    | false =>
      have hentry := h.entries ae (hl ▸ by simp)
      have heq : s.grab aliasName = { s with
          aliasList := before ++ { ae with count := ae.count + 1 } :: behind
          grabs := ⟨aliasName, ae.serial⟩ ::ₘ s.grabs } := by
        simp [State.grab, grabEntity, hf, hstop]
      rw [heq]
      refine h.update hl { ae with count := ae.count + 1 } (⟨aliasName, ae.serial⟩ ::ₘ s.grabs)
        s.removed rfl rfl ⟨?_, fun _ _ ↦ Iff.rfl⟩ ?_ ?_ h.removed_lt (List.Subset.refl _)
      · intro j hj
        rw [holders_cons, if_neg (Ne.symm hj), Nat.add_zero]
      · constructor
        · show ae.count + 1 = _
          rw [hentry.count, holders_cons, if_pos rfl]
          push_cast
          ring
        · exact hstop ▸ hentry.stopServing
        · show 0 < ae.count + 1
          have := hentry.held
          omega
      · intro g hg
        rcases Multiset.mem_cons.mp hg with rfl | hg
        · exact .inr (by rw [hname])
        · exact .inl hg

theorem Custody.remove (h : Custody s) {aliasName : CString} (hok : Orderly s (.remove aliasName)) :
    Custody (s.remove aliasName) := by
  unfold State.remove releaseEntity
  cases hf : find aliasName s.aliasList with
  | none => exact h
  | some node =>
    obtain ⟨before, ae, behind⟩ := node
    obtain ⟨hl, hname⟩ := find_some hf
    have hmem : ae ∈ s.aliasList := hl ▸ by simp
    have hout : ae.serial ∉ s.removed := hok ae hmem hname
    have hentry := h.entries ae hmem
    have hcount : ae.count = holders s.grabs ae.serial + 1 := by
      rw [hentry.count, if_neg hout]
    have hsame : SameElsewhere ae.serial s.grabs s.grabs s.removed (ae.serial :: s.removed) :=
      ⟨fun _ _ ↦ rfl, fun j hj ↦ by simp [hj]⟩
    have hlt : ∀ k ∈ ae.serial :: s.removed, k < s.added := by
      rintro k (_ | ⟨_, hk⟩)
      · exact h.listed_lt ae hmem
      · exact h.removed_lt k hk
    by_cases hzero : ae.count - 1 ≤ 0
    · simp only [hzero, if_true]
      refine h.free hl hsame ?_ hlt (List.subset_cons_self _ _) List.mem_cons_self
      intro g hg
      refine ⟨hg, fun heq ↦ ?_⟩
      have hpos : 0 < holders s.grabs ae.serial := Multiset.countP_pos.mpr ⟨g, hg, heq⟩
      omega
    · simp only [hzero, if_false]
      refine h.update hl { ae with count := ae.count - 1, stopServing := true } s.grabs
        (ae.serial :: s.removed) rfl rfl hsame ?_ (fun g hg ↦ .inl hg) hlt
        (List.subset_cons_self _ _)
      constructor
      · simp [hcount]
      · simp
      · show 0 < ae.count - 1
        omega

theorem Custody.freeAlias (h : Custody s) {g : Grab} (hg : g ∈ s.grabs)
    (hok : Orderly s (.freeAlias g)) : Custody (s.freeAlias g) := by
  obtain ⟨e, he, hserial, hname⟩ := h.grabs g hg
  unfold State.freeAlias releaseEntity
  cases hf : find g.aliasName s.aliasList with
  | none => exact absurd hname (find_none hf e he)
  | some node =>
    obtain ⟨before, ae, behind⟩ := node
    obtain ⟨hl, hname'⟩ := find_some hf
    have hmem : ae ∈ s.aliasList := hl ▸ by simp
    -- names are distinct: the node is that of the entity the request holds
    have hae : ae = e := List.inj_on_of_nodup_map h.names hmem he (hname'.trans hname.symm)
    rw [← hae] at hserial
    have hentry := h.entries ae hmem
    have hholders := holders_erase hg ae.serial
    rw [if_pos hserial.symm] at hholders
    have hsame : SameElsewhere ae.serial s.grabs (s.grabs.erase g) s.removed s.removed := by
      refine ⟨fun j hj ↦ ?_, fun _ _ ↦ Iff.rfl⟩
      have hj' := holders_erase hg j
      rwa [if_neg (by rw [← hserial]; exact hj.symm), Nat.add_zero] at hj'
    have hcount := hentry.count
    by_cases hrem : ae.serial ∈ s.removed
    · -- removed: the last holder leaves, and the entity is freed
      have hlast : holders (s.grabs.erase g) ae.serial = 0 := hserial ▸ hok (hserial ▸ hrem)
      rw [if_pos hrem] at hcount
      have hzero : ae.count - 1 ≤ 0 := by omega
      simp only [hzero, if_true]
      refine h.free hl hsame ?_ h.removed_lt (List.Subset.refl _) hrem
      intro g' hg'
      refine ⟨Multiset.mem_of_mem_erase hg', fun heq ↦ ?_⟩
      exact Multiset.countP_eq_zero.mp hlast g' hg' heq
    · rw [if_neg hrem] at hcount
      have hzero : ¬ae.count - 1 ≤ 0 := by omega
      simp only [hzero, if_false]
      refine h.update hl { ae with count := ae.count - 1, stopServing := false }
        (s.grabs.erase g) s.removed rfl rfl hsame ?_ (fun g' hg' ↦ .inl (Multiset.mem_of_mem_erase hg')) h.removed_lt (List.Subset.refl _)
      constructor
      · show ae.count - 1 = (holders (s.grabs.erase g) ae.serial : Int) +
          if ae.serial ∈ s.removed then 0 else 1
        rw [if_neg hrem]
        omega
      · simp [hrem]
      · show 0 < ae.count - 1
        omega

theorem Custody.step (h : Custody s) {l : Action ι} (hok : Orderly s l)
    (hs : Web.step s l = some s') : Custody s' := by
  cases l with
  | add aliasName info ae => exact Option.some.inj hs ▸ h.add hok
  | remove aliasName => exact Option.some.inj hs ▸ h.remove hok
  | grab aliasName => exact Option.some.inj hs ▸ h.grab aliasName
  | freeAlias g =>
    obtain ⟨hg, hs⟩ := Option.ite_none_right_eq_some.mp hs
    exact Option.some.inj hs ▸ h.freeAlias hg hok

end Steps

theorem Custody.empty : Custody (State.empty (ι := ι)) :=
  ⟨List.nodup_nil, List.nodup_nil, nofun, nofun, nofun, nofun, nofun⟩

/-- The invariant is inductive along orderly runs. -/
theorem custody_inductive : (machine (ι := ι)).Inductive Orderly Custody where
  init _ h := h ▸ Custody.empty
  step _ _ _ h hok hs := h.step hok hs

/-- Along orderly runs the names in the list are distinct, each count is the number of requests
that hold the entity and one more until its alias is removed, an entity was freed only when it was
removed and held by no request, and a removed entity is not served. -/
theorem alias_lifetime (s : State ι) (h : machine.Reach Orderly s) :
    (s.aliasList.map AliasedEntity.aliasName).Nodup ∧
    (∀ e ∈ s.aliasList,
      e.count = holders s.grabs e.serial + if e.serial ∈ s.removed then 0 else 1) ∧
    (∀ k ∈ s.freed, k ∈ s.removed ∧ ∀ g ∈ s.grabs, g.serial ≠ k) ∧
    (∀ aliasName ae l, grabEntity aliasName s.aliasList = some (ae, l) → ae.serial ∉ s.removed) := by
  have hc : Custody s := Machine.Reach.invariant custody_inductive h
  refine ⟨hc.names, fun e he ↦ (hc.entries e he).count, ?_, ?_⟩
  · intro k hk
    obtain ⟨hk, hne⟩ := hc.freed k hk
    refine ⟨hk, fun g hg heq ↦ ?_⟩
    obtain ⟨e, he, hs, -⟩ := hc.grabs g hg
    exact hne e he (hs.trans heq)
  · intro aliasName ae l hgrab hrem
    unfold grabEntity at hgrab
    cases hf : find aliasName s.aliasList with
    | none => simp [hf] at hgrab
    | some node =>
      obtain ⟨before, ae', behind⟩ := node
      obtain ⟨hl, -⟩ := find_some hf
      simp only [hf] at hgrab
      obtain ⟨hstop, heq⟩ := Option.ite_none_left_eq_some.mp hgrab
      cases heq
      have hentry := hc.entries ae (hl ▸ by simp)
      rw [hentry.stopServing] at hstop
      simp [hrem] at hstop

/-- A request holds an entity whose alias is then removed. -/
theorem alias_lifetime_one :
    ∃ s : State Unit, machine.run State.empty
        [.add "/a".toList () 0, .grab "/a".toList, .remove "/a".toList] = some s ∧
      (∀ e ∈ s.aliasList, e.count = holders s.grabs e.serial +
        if e.serial ∈ s.removed then 0 else 1) ∧ s.aliasList.length = 1 := by
  refine ⟨_, rfl, (alias_lifetime _ ?_).2.1, rfl⟩
  have h₀ : (machine (ι := Unit)).Reach Orderly State.empty := .init rfl
  have h₁ := h₀.step (l := .add "/a".toList () 0) 
    (show Orderly _ (.add _ _ _) from fun _ he ↦ absurd he List.not_mem_nil) rfl
  have h₂ := h₁.step (l := .grab "/a".toList) (show Orderly _ (.grab _) from trivial) rfl
  refine h₂.step (l := .remove "/a".toList) (show Orderly _ (.remove _) from ?_) rfl
  intro e _ _ hrem
  cases hrem

/-- Two requests hold an entity whose alias is removed.  The end of one request has the entity
served again; a repeated removal frees it while the other request holds it. -/
theorem removed_alias_served :
    (∃ s : State Unit, machine.Reachable s ∧
      ∃ ae l, grabEntity "/a".toList s.aliasList = some (ae, l) ∧ ae.serial ∈ s.removed) ∧
    (∃ s : State Unit, machine.Reachable s ∧ ∃ k ∈ s.freed, ∃ g ∈ s.grabs, g.serial = k) := by
  constructor
  · refine ⟨_, Machine.Reach.of_run (s := State.empty) rfl
      [.add "/a".toList () 0, .grab "/a".toList, .grab "/a".toList, .remove "/a".toList,
        .freeAlias ⟨"/a".toList, 0⟩] (fun _ _ _ ↦ trivial) rfl, _, _, rfl, ?_⟩
    exact List.mem_cons_self
  · refine ⟨_, Machine.Reach.of_run (s := State.empty) rfl
      [.add "/a".toList () 0, .grab "/a".toList, .remove "/a".toList,
        .remove "/a".toList] (fun _ _ _ ↦ trivial) rfl, 0, ?_, ⟨"/a".toList, 0⟩, ?_, rfl⟩
    · exact List.mem_cons_self
    · decide

end Upnp.Web
