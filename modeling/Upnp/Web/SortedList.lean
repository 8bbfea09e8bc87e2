import Upnp.Web.CommaList
import Upnp.Web.QValue

/-!
# Lists that are sorted by quality

`AddValueToSortedListCallback`, and the texts of the lists that it is used for.  An element stands
for itself and for its place in the header.
-/

namespace Upnp.Web

open Upnp.Lib
open TokenType

section Sorted

variable {β : Type}

/-- `AddValueToSortedListCallback`, where `q` is the quality that an element has. -/
def AddValueToSortedListCallback (q : β → Int) : List β → β → List β
  | [], b => [b]
  | a :: list, b => if q a < q b then b :: a :: list else a :: AddValueToSortedListCallback q list b

theorem perm_add (q : β → Int) (list : List β) (b : β) :
    (AddValueToSortedListCallback q list b).Perm (b :: list) := by
  induction list with
  | nil => exact List.Perm.refl _
  | cons a list ih =>
    rw [AddValueToSortedListCallback]
    split
    · exact List.Perm.refl _
    · exact (ih.cons a).trans (List.Perm.swap ..)

/-- One element comes before another: it has a better quality, or the same and an earlier place. -/
def Preferred (q : β → Int) (place : β → Nat) (a b : β) :
    Prop := q b < q a ∨ q b = q a ∧ place a < place b

variable {q : β → Int} {place : β → Nat} {list : List β} {a b : β}

/-- An element that comes later than all others is put where it has to be. -/
theorem pairwise_add (hlist : list.Pairwise (Preferred q place)) (hb : ∀ a ∈ list, place a < place b) :
    (AddValueToSortedListCallback q list b).Pairwise (Preferred q place) := by
  induction list with
  | nil => exact List.pairwise_singleton ..
  | cons a list ih =>
    rw [List.pairwise_cons] at hlist
    rw [List.forall_mem_cons] at hb
    rw [AddValueToSortedListCallback]
    split
    · next hlt =>
      refine List.pairwise_cons.mpr
        ⟨List.forall_mem_cons.mpr ⟨.inl hlt, fun c hc ↦ ?_⟩, List.pairwise_cons.mpr hlist⟩
      rcases hlist.1 c hc with h | ⟨h, -⟩
      · exact .inl (h.trans hlt)
      · exact .inl (h ▸ hlt)
    · next hle =>
      refine List.pairwise_cons.mpr ⟨fun c hc ↦ ?_, ih hlist.2 hb.2⟩
      rcases List.mem_cons.mp ((perm_add q list b).mem_iff.mp hc) with rfl | hc
      · rcases Int.lt_or_eq_of_le (not_lt.mp hle) with h | h
        · exact .inl h
        · exact .inr ⟨h, hb.1⟩
      · exact hlist.1 c hc

end Sorted

variable {α : Type}

/-- The list of what was added, each with its place. -/
def sortedList (q : α × Nat → Int) (added : List α) : List (α × Nat) :=
  added.zipIdx.foldl (AddValueToSortedListCallback q) []

theorem sortedList_append (q : α × Nat → Int) (added : List α) (value : α) :
    sortedList q (added ++ [value]) =
      AddValueToSortedListCallback q (sortedList q added) (value, added.length) := by
  rw [sortedList, List.zipIdx_append, List.zipIdx_singleton, Nat.zero_add, List.foldl_append]
  rfl

theorem perm_sortedList (q : α × Nat → Int) (added : List α) :
    (sortedList q added).Perm added.zipIdx := by
  induction added using List.reverseRecOn with
  | nil => exact List.Perm.refl _
  | append_singleton added value ih =>
    rw [sortedList_append, List.zipIdx_append, List.zipIdx_singleton, Nat.zero_add]
    exact (perm_add ..).trans ((ih.cons _).trans (List.perm_append_singleton ..).symm)

/-- The list is sorted, and elements of the same quality keep their order. -/
theorem pairwise_sortedList (q : α × Nat → Int) (added : List α) :
    (sortedList q added).Pairwise (Preferred q Prod.snd) := by
  induction added using List.reverseRecOn with
  | nil => exact List.Pairwise.nil
  | append_singleton added value ih =>
    rw [sortedList_append]
    refine pairwise_add ih fun a ha ↦ ?_
    have hmem := (perm_sortedList q added).mem_iff.mp ha
    exact (List.mem_zipIdx hmem).2.1.trans_eq (Nat.zero_add _)

/-- `CommaSeparatedList::load` of a list that is sorted.  No such list has a greatest number of
elements. -/
def loadSorted (p : ElementParser α) (minItems : Int) (q : α × Nat → Int) (s : Scanner) :
    Except ParseException Unit × List (α × Nat) :=
  let read := ReadCommaSeparatedList p minItems (-1) s
  (read.outcome, sortedList q read.added)

/-- What has to come of a list of elements with their qualities. -/
structure SortedAs (declared : List (α × Int)) (list : List (α × Nat)) : Prop where
  perm : list.Perm (declared.map Prod.fst).zipIdx
  sorted : list.Pairwise (Preferred (fun x ↦ (declared[x.2]?.map Prod.snd).getD 0) Prod.snd)

/-- A list that is sorted by the qualities that the elements have is the one that has to come. -/
theorem sortedAs_sortedList {q : α × Nat → Int} {declared : List (α × Int)} {added : List α}
    (hadded : added = declared.map Prod.fst)
    (hq : ∀ x ∈ added.zipIdx, q x = (declared[x.2]?.map Prod.snd).getD 0) :
    SortedAs declared (sortedList q added) := by
  have hmem {x : α × Nat} (hx : x ∈ sortedList q added) : q x = _ :=
    hq x ((perm_sortedList q added).mem_iff.mp hx)
  constructor
  · rw [← hadded]
    exact perm_sortedList q added
  · refine (pairwise_sortedList q added).imp_of_mem fun ha hb h ↦ ?_
    rw [Preferred, hmem ha, hmem hb] at h
    exact h

/-- What was added has to be the elements. -/
theorem added_of_sortedAs {q : α × Nat → Int} {declared : List (α × Int)} {added : List α}
    (h : SortedAs declared (sortedList q added)) : added = declared.map Prod.fst := by
  have hperm := (perm_sortedList q added).symm.trans h.perm
  have hlength : added.length = (declared.map Prod.fst).length := by
    have heq := hperm.length_eq
    rwa [List.length_zipIdx, List.length_zipIdx] at heq
  refine List.ext_getElem hlength fun i hi hi' ↦ ?_
  have hmem : (added[i], i) ∈ added.zipIdx := by
    rw [List.mk_mem_zipIdx_iff_getElem?]
    exact List.getElem?_eq_getElem hi
  have hmem' := hperm.mem_iff.mp hmem
  rw [List.mk_mem_zipIdx_iff_getElem?, List.getElem?_eq_getElem hi'] at hmem'
  exact (Option.some.inj hmem').symm

/-! ## Texts of lists -/

/-- An element with the white space behind it, and the white space behind the comma that follows. -/
structure ListEntry (ε : Type) where
  element : ε
  trail : Space
  lead : Space

section Entries

variable {ε : Type} {tok : ε → List Token} {value : Bool → ListEntry ε → α}

/-- The tokens of a list. -/
def entriesTokens (tok : ε → List Token) : List (ListEntry ε) → List Token
  | [] => []
  | [e] => tok e.element ++ e.trail.val
  | e :: f :: entries =>
    tok e.element ++ (e.trail.val ++ separator ',' :: (e.lead.val ++ entriesTokens tok (f :: entries)))

/-- The values of a list, where the last one may be another. -/
def entriesValues (value : Bool → ListEntry ε → α) : List (ListEntry ε) → List α
  | [] => []
  | [e] => [value true e]
  | e :: f :: entries => value false e :: entriesValues value (f :: entries)

theorem entriesValues_ne_nil (value : Bool → ListEntry ε → α) (e : ListEntry ε)
    (entries : List (ListEntry ε)) :
    1 ≤ (entriesValues value (e :: entries)).length := by
  cases entries with
  | nil => exact Nat.le_refl 1
  | cons f entries => exact Nat.succ_le_succ (Nat.zero_le _)

/-- An element is read, in states that satisfy `I`, and the list goes on in such a state. -/
structure ReadsEntry (p : ElementParser α) (I : Scanner → Prop) (ts : List Token) (trail lead : Space)
    (value : Bool → α) : Prop where
  next {s : Scanner} {t : Token} {more : List Token} (hI : I s)
    (ht : t.tokType ≠ CRLF ∧ t.tokType ≠ WHITESPACE)
    (hs : s.unread = ts ++ (trail.val ++ separator ',' :: (lead.val ++ t :: more))) :
    ∃ s₁ s₂ s₃, p.load s = (.ok (value false), s₁) ∧ SkipOptionalLWS s₁ = (.ok (), s₂) ∧
      behindComma s₂ = some (some s₃) ∧ s₃.unread = t :: more ∧ I s₃
  last {s : Scanner} {u : Token} {more : List Token} (hI : I s) (hu : u.tokType ≠ WHITESPACE)
    (hs : s.unread = ts ++ (trail.val ++ lineEnd :: u :: more)) :
    ∃ s₁ s₂, p.load s = (.ok (value true), s₁) ∧ SkipOptionalLWS s₁ = (.ok (), s₂) ∧
      behindComma s₂ = some none

variable {p : ElementParser α} {I : Scanner → Prop} {minItems : Int} {s : Scanner} {u : Token}
    {more : List Token}
variable {e : ListEntry ε} {entries : List (ListEntry ε)}

theorem exists_word_entries (hhead : ∀ e, ∃ name ts, tok e = word name :: ts) (e : ListEntry ε)
    (entries : List (ListEntry ε)) (more : List Token) :
    ∃ name ts, entriesTokens tok (e :: entries) ++ more = word name :: ts := by
  obtain ⟨name, ts, htok⟩ := hhead e.element
  cases entries with
  | nil =>
    rw [entriesTokens, htok, List.append_assoc, List.cons_append]
    exact ⟨name, _, rfl⟩
  | cons f entries =>
    rw [entriesTokens, htok, List.append_assoc, List.cons_append]
    exact ⟨name, _, rfl⟩

/-- The loop reads a list whose elements are read. -/
theorem listLoop_entries (hhead : ∀ e, ∃ name ts, tok e = word name :: ts)
    (hreads : ∀ f ∈ e :: entries, ReadsEntry p I (tok f.element) f.trail f.lead (value · f)) (hI : I s)
    (hu : u.tokType ≠ WHITESPACE)
    (hs : s.unread = entriesTokens tok (e :: entries) ++ lineEnd :: u :: more)
    (minItems : Int) (added : List α) :
    (listLoop p minItems (-1) added s).outcome =
        endOfList minItems (-1) (added ++ entriesValues value (e :: entries)).length ∧
      (listLoop p minItems (-1) added s).added = added ++ entriesValues value (e :: entries) := by
  induction entries generalizing e s added with
  | nil =>
    have he := hreads e (List.mem_cons_self ..)
    rw [entriesTokens, List.append_assoc] at hs
    obtain ⟨s₁, s₂, hload, hskip, hbehind⟩ := he.last hI hu hs
    have hstep := listLoop_step minItems (-1) added hload hskip
    rw [hbehind] at hstep
    exact hstep
  | cons f entries ih =>
    have he := hreads e (List.mem_cons_self ..)
    obtain ⟨name, ts, htokens⟩ := exists_word_entries hhead f entries (lineEnd :: u :: more)
    have hrest := hs
    rw [entriesTokens, List.append_assoc, List.append_assoc, List.cons_append, List.append_assoc,
      htokens] at hrest
    obtain ⟨s₁, s₂, s₃, hload, hskip, hbehind, hs₃, hI₃⟩ := he.next hI (word_ne name) hrest
    have hstep := listLoop_step minItems (-1) added hload hskip
    rw [hbehind] at hstep
    have hrun := ih (fun g hg ↦ hreads g (List.mem_cons_of_mem _ hg)) hI₃ (hs₃.trans htokens.symm)
      (added ++ [value false e])
    rw [List.append_assoc] at hrun
    rw [hstep]
    exact hrun

/-- A list whose elements are read is loaded, and sorted by the qualities that are compared. -/
theorem loadSorted_entries (value : Bool → ListEntry ε → α)
    (hhead : ∀ e, ∃ name ts, tok e = word name :: ts)
    (hreads : ∀ f ∈ e :: entries, ReadsEntry p I (tok f.element) f.trail f.lead (value · f))
    (hI : ∀ t s₁, peek s = (.ok t, s₁) → I s₁)
    (hu : u.tokType ≠ WHITESPACE)
    (hs : s.unread = entriesTokens tok (e :: entries) ++ lineEnd :: u :: more)
    (hmin : minItems ≤ 1) (q : α × Nat → Int) : loadSorted p minItems q s =
      (.ok (), sortedList q (entriesValues value (e :: entries))) := by
  obtain ⟨name, ts, htokens⟩ := exists_word_entries hhead e entries (lineEnd :: u :: more)
  obtain ⟨s₁, hpeek, hs₁⟩ := yields_peek s (hs.trans htokens) (List.nil_prefix ..)
  have hrun := listLoop_entries hhead hreads (hI _ s₁ hpeek) hu (hs₁.trans htokens.symm) minItems []
  have hcount : endOfList minItems (-1) (entriesValues value (e :: entries)).length = .ok () := by
    refine endOfList_of_inRange ⟨?_, fun h ↦ absurd h (by decide)⟩
    have hlength := entriesValues_ne_nil value e entries
    omega
  rw [List.nil_append, hcount] at hrun
  rw [loadSorted, ReadCommaSeparatedList_eq, hpeek]
  dsimp only
  rw [if_neg (word_ne name).1, hrun.1, hrun.2]

/-- An element that is read up to white space. -/
theorem readsEntry_of_yields {ts : List Token} {trail : Space} {a : α}
    (h : ∀ ts', EndsElement ts' → ∃ ts'', Yields [] p.load (ts ++ (trail.val ++ ts')) (.ok a) ts'' ∧
      Yields [] SkipOptionalLWS ts'' (.ok ()) ts') (lead : Space) :
    ReadsEntry p (fun _ ↦ True) ts trail lead (fun _ ↦ a) := by
  constructor
  · intro s t more _ ht hs
    obtain ⟨ts'', hload, hskip⟩ := h (separator ',' :: (lead.val ++ t :: more)) (.inl ⟨_, rfl⟩)
    obtain ⟨s₁, hload, hs₁⟩ := hload s hs (List.nil_prefix ..)
    obtain ⟨s₂, hskip, hs₂⟩ := hskip s₁ hs₁ (List.nil_prefix ..)
    obtain ⟨s₃, hbehind, hs₃⟩ := behindComma_comma hs₂ rfl (lead.property.skip_other ht)
    exact ⟨s₁, s₂, s₃, hload, hskip, hbehind, hs₃, trivial⟩
  · intro s u more _ hu hs
    obtain ⟨ts'', hload, hskip⟩ := h (lineEnd :: u :: more) (.inr ⟨u, more, rfl, hu⟩)
    obtain ⟨s₁, hload, hs₁⟩ := hload s hs (List.nil_prefix ..)
    obtain ⟨s₂, hskip, hs₂⟩ := hskip s₁ hs₁ (List.nil_prefix ..)
    exact ⟨s₁, s₂, hload, hskip, behindComma_crlf hs₂ rfl (by decide)⟩

end Entries

end Upnp.Web
