import Mathlib.Data.List.Pairwise
import Upnp.Web.LanguageTag
import Upnp.Web.MediaText

/-!
# The lists of what is accepted

`Accept`, `Accept-Charset`, `Accept-Encoding` and `Accept-Language`.  The factor of a media range is
read into its parameters, and the list is sorted by a factor that is never set.
-/

namespace Upnp.Web

open Upnp.Lib
open TokenType
open Parse (throw)

/-! ## Character sets and encodings -/

/-- `IdentifierQValue`. -/
structure IdentifierQValue where
  value : CString
  q : Nat
deriving DecidableEq, Repr

/-- `IdentifierQValue::load` with a quality factor. -/
def IdentifierQValue.load : Parse IdentifierQValue := do
  let token ← getToken
  if token.tokType ≠ IDENTIFIER then
    pushBack
    throw parseFailure
  else
    let value := token.s
    let q ← loadOptionalQValue
    return ⟨value, q⟩

theorem IdentifierQValue.spends_load : Spends [] IdentifierQValue.load := by
  refine spends_getToken fun t ↦ spends_ite (spends_pushBack (spends_throw _)) ?_
  exact spends_loadOptionalQValue.bind fun _ ↦ spends_pure _

/-- `IdentifierQValue`, as `CreateIdentifierQValue` makes them for lists. -/
def identifierQValue : ElementParser IdentifierQValue where
  load := IdentifierQValue.load
  left_load := IdentifierQValue.spends_load.left_load

/-- An identifier and its quality factor. -/
structure IdentifierText where
  value : CString
  q : Option QText

namespace IdentifierText

def tokens (i : IdentifierText) : List Token := word i.value :: (i.q.map QText.tokens).getD []

/-- What the text says. -/
def element (i : IdentifierText) : IdentifierQValue := ⟨i.value, (i.q.map QText.q).getD 1000⟩

end IdentifierText

variable {ts : List Token}

/-- An identifier is loaded with its quality. -/
theorem load_identifier (i : IdentifierText) (sp : Space) (hts : EndsElement ts) :
    ∃ ts', Yields [] IdentifierQValue.load (i.tokens ++ (sp.val ++ ts)) (.ok i.element) ts' ∧
      Yields [] SkipOptionalLWS ts' (.ok ()) ts := by
  have hload {ts' : List Token}
      (h : Yields [] loadOptionalQValue ((i.q.map QText.tokens).getD [] ++ (sp.val ++ ts))
      (.ok i.element.q) ts') :
      Yields [] IdentifierQValue.load (i.tokens ++ (sp.val ++ ts)) (.ok i.element) ts' := by
    refine yields_getToken ?_
    rw [if_neg (not_word_ne _)]
    have hpure : Yields [] (pure i.element : Parse IdentifierQValue) ts' (.ok i.element) ts' :=
      yields_pure _
    exact (h.bind hpure).weaken
  cases hq : i.q with
  | none =>
    refine ⟨ts, hload ?_, hts.skip⟩
    rw [IdentifierText.element, hq]
    exact yields_loadOptionalQValue_none sp hts
  | some text =>
    refine ⟨sp.val ++ ts, hload ?_, sp.property.skip hts.skip⟩
    rw [IdentifierText.element, hq]
    exact yields_loadOptionalQValue text.layout text.isQValue

/-! ## Media ranges -/

theorem spends_loadExtensions (extList : List MediaExtension) : Spends [] (loadExtensions extList) := by
  intro s exts s' hback hrun
  clear hback
  rw [List.map_nil, List.sum_nil, Nat.add_zero]
  fun_induction loadExtensions extList s with
  | case1 => cases hrun
  | case2 => cases hrun
  | case3 extList s token s₁ hget hsemicolon ext s₂ hext ih =>
    have hleft := left_getToken hget
    have hnext := spends_nextExtension.left_load hext
    have hmore := ih hrun
    omega
  | case4 => cases hrun
  | case5 extList s token s₁ hget hsemicolon s₂ hpush =>
    cases hrun
    have hleft := left_getToken hget
    obtain ⟨-, -, n, -, hreturned⟩ := getToken_ok hget
    obtain ⟨s₃, hpush', hs₃, -⟩ := left_pushBack hreturned
    rw [hpush] at hpush'
    cases hpush'
    omega

theorem MediaParam.spends_load : Spends [] MediaParam.load := by
  refine spends_getToken fun t ↦ spends_ite (spends_pushBack (spends_throw _)) ?_
  refine spends_SkipOptionalLWS.bind fun _ ↦ spends_getToken fun u ↦ spends_ite (spends_pushBack ?_) ?_
  · refine spends_LoadQValue.bind fun _ ↦ spends_SkipOptionalLWS.bind fun _ ↦ ?_
    exact (spends_loadExtensions []).bind fun _ ↦ spends_pure _
  · exact spends_SkipOptionalLWS.bind fun _ ↦ (spends_loadExtensions []).bind fun _ ↦ spends_pure _

theorem MediaRange.spends_load : Spends [] MediaRange.load := by
  refine spends_getToken fun t ↦ spends_ite (spends_pushBack (spends_throw _)) ?_
  refine spends_SkipOptionalLWS.bind fun _ ↦ spends_getToken fun u ↦ spends_ite
    (spends_pushBack (spends_throw _)) ?_
  refine spends_SkipOptionalLWS.bind fun _ ↦ spends_getToken fun v ↦ spends_ite
    (spends_pushBack (spends_throw _)) ?_
  exact MediaParam.spends_load.weaken.bind fun _ ↦ spends_pure _

/-- `MediaRange`, as `CreateMediaRange` makes them for lists. -/
def mediaRange : ElementParser (MediaRange (Option Nat)) where
  load := MediaRange.load
  left_load := MediaRange.spends_load.left_load

/-- The quality that is declared. -/
def RangeText.quality (r : RangeText) : Nat := (r.q.map (·.1.q)).getD 1000

/-- A range that is loadable is read as what it says. -/
theorem readsEntry_range (e : ListEntry RangeText) (h : e.element.Loadable) :
    ReadsEntry mediaRange (fun _ ↦ True) e.element.tokens e.trail e.lead fun _ ↦ e.element.range := by
  refine readsEntry_of_yields (fun ts hts ↦ ?_) e.lead
  obtain ⟨ts', hload, hskip, -⟩ := h.load e.trail hts
  exact ⟨ts', hload, hskip⟩

/-! ## The lists -/

/-- What is declared by a tag and its quality factor. -/
def LanguageText.element (l : LanguageText) : LanguageTag := ⟨l.tag, l.quality⟩

section Lists

variable {ε α : Type}

/-- A header is read as a list that is sorted as the elements declare it, by any scanner that comes to
the tokens of the list and has looked at the first one at most. -/
def ReadSorted (p : ElementParser α) (minItems : Int) (q : α × Nat → Int) (tok : ε → List Token)
    (value : ε → α) (quality : ε → Nat) (entries : List (ListEntry ε)) : Prop :=
  ∀ s u more, (entries ≠ [] → s.pending.length ≤ 1) → u.tokType ≠ WHITESPACE →
    s.unread = entriesTokens tok entries ++ lineEnd :: u :: more →
      (loadSorted p minItems q s).1 = .ok () ∧
        SortedAs (entries.map fun e ↦ (value e.element, (quality e.element : Int)))
          (loadSorted p minItems q s).2

/-- `Accept`, where the factors of the ranges are in `memory`. -/
def AcceptSorted (memory : Nat → Int) (ranges : List (ListEntry RangeText)) : Prop :=
  ReadSorted mediaRange 0 (fun x ↦ memory x.2) RangeText.tokens RangeText.range RangeText.quality ranges

/-- `Accept-Charset` and `Accept-Encoding`. -/
def IdentifiersSorted (identifiers : List (ListEntry IdentifierText)) : Prop :=
  ReadSorted identifierQValue 1 (fun x ↦ x.1.q) IdentifierText.tokens IdentifierText.element
    (·.element.q) identifiers

/-- `Accept-Language`, where a tag that was deleted reads as `freed`. -/
def LanguagesSorted (freed : CString) (languages : List (ListEntry LanguageText)) : Prop :=
  ReadSorted (languageTag freed) 1 (fun x ↦ x.1.q) LanguageText.tokens LanguageText.element
    LanguageText.quality languages

theorem entriesValues_map (value : ε → α) (entries : List (ListEntry ε)) :
    entriesValues (fun _ e ↦ value e.element) entries = entries.map fun e ↦ value e.element := by
  induction entries with
  | nil => rfl
  | cons e entries ih =>
    cases entries with
    | nil => rfl
    | cons f entries => exact congrArg (value e.element :: ·) ih

/-- A list that is sorted by the factors that the elements were read with. -/
theorem sortedAs_entries (value : ε → α) {quality : ε → Nat} {entries : List (ListEntry ε)}
    (f : α → Nat) (hq : ∀ e, f (value e) = quality e) :
    SortedAs (entries.map fun e ↦ (value e.element, (quality e.element : Int)))
      (sortedList (fun x ↦ (f x.1 : Int)) (entries.map fun e ↦ value e.element)) := by
  refine sortedAs_sortedList (by rw [List.map_map]; rfl) fun x hx ↦ ?_
  rw [List.mem_zipIdx_iff_getElem?, List.getElem?_map] at hx
  rw [List.getElem?_map]
  cases he : entries[x.2]? with
  | none =>
    rw [he] at hx
    cases hx
  | some e =>
    rw [he] at hx
    show (f x.1 : Int) = (quality e.element : Int)
    rw [← Option.some.inj hx, hq]

/-- Charsets and encodings are sorted. -/
theorem identifiersSorted (e : ListEntry IdentifierText) (entries : List (ListEntry IdentifierText)) :
    IdentifiersSorted (e :: entries) := by
  intro s u more _ hu hs
  have hload := loadSorted_entries (p := identifierQValue) (fun _ e ↦ e.element.element)
    (fun i ↦ ⟨i.value, _, rfl⟩)
    (fun f _ ↦ readsEntry_of_yields (fun ts hts ↦ load_identifier f.element f.trail hts) f.lead)
    (fun _ _ _ ↦ trivial) hu hs (Int.le_refl 1) (fun x ↦ (x.1.q : Int))
  rw [hload, entriesValues_map]
  exact ⟨rfl, sortedAs_entries IdentifierText.element IdentifierQValue.q fun _ ↦ rfl⟩

/-! ## Languages -/

/-- Every tag is held when it is read again. -/
def AllHeld : List (ListEntry LanguageText) → Prop
  | [] => True
  | [e] => e.element.Held e.trail true = true
  | e :: f :: entries => e.element.Held e.trail false = true ∧ AllHeld (f :: entries)

theorem loaded_eq_iff (e : ListEntry LanguageText) (last : Bool) :
    LanguageText.loaded [] last e = e.element.element ↔ e.element.Held e.trail last = true := by
  have hne : [] ≠ e.element.tag := fun h ↦ e.element.isLanguage.isIdentifier.1 h.symm
  rw [LanguageText.loaded, LanguageText.element, LanguageTag.mk.injEq, and_iff_left rfl]
  constructor
  · intro h
    by_contra hheld
    rw [if_neg hheld] at h
    exact hne h
  · exact fun h ↦ if_pos h

theorem loaded_of_held {freed : CString} {e : ListEntry LanguageText} {last : Bool}
    (h : e.element.Held e.trail last = true) :
    LanguageText.loaded freed last e = e.element.element := by
  rw [LanguageText.loaded, if_pos h]
  rfl

/-- The tags are loaded as they are exactly if they are all held. -/
theorem entriesValues_language (freed : CString) (languages : List (ListEntry LanguageText)) :
    (AllHeld languages →
      entriesValues (LanguageText.loaded freed) languages = languages.map fun e ↦ e.element.element) ∧
    (entriesValues (LanguageText.loaded []) languages = languages.map (fun e ↦ e.element.element) →
      AllHeld languages) := by
  induction languages with
  | nil => exact ⟨fun _ ↦ rfl, fun _ ↦ trivial⟩
  | cons e languages ih =>
    cases languages with
    | nil =>
      constructor
      · intro h
        exact congrArg (fun v ↦ [v]) (loaded_of_held h)
      · intro h
        exact (loaded_eq_iff e true).mp (List.cons.inj h).1
    | cons f languages =>
      constructor
      · rintro ⟨h, hmore⟩
        rw [entriesValues, loaded_of_held h, ih.1 hmore]
        rfl
      · intro h
        obtain ⟨hhead, htail⟩ := List.cons.inj h
        exact ⟨(loaded_eq_iff e false).mp hhead, ih.2 htail⟩

theorem pending_of_peek {s s₁ : Scanner} {t : Token} (h : s.pending.length ≤ 1) (hne : s.unread ≠ [])
    (hpeek : peek s = (.ok t, s₁)) : s₁.pending.length = 1 := by
  obtain ⟨returned, pending, source, failure⟩ := s
  cases pending with
  | nil =>
    cases source with
    | nil => exact absurd rfl hne
    | cons u source =>
      cases hpeek
      rfl
  | cons u pending =>
    cases pending with
    | nil =>
      cases hpeek
      rfl
    | cons v pending => exact absurd h (by simp)

/-- A list of languages is loaded and sorted, with what is in the place of the tags. -/
theorem loadSorted_languages (freed : CString) {e : ListEntry LanguageText}
    {languages : List (ListEntry LanguageText)}
    {s : Scanner} {u : Token} {more : List Token} (hpending : s.pending.length ≤ 1)
    (hu : u.tokType ≠ WHITESPACE)
    (hs : s.unread = entriesTokens LanguageText.tokens (e :: languages) ++ lineEnd :: u :: more) :
    loadSorted (languageTag freed) 1 (fun x ↦ x.1.q) s = (.ok (), sortedList (fun x ↦ (x.1.q : Int))
      (entriesValues (LanguageText.loaded freed) (e :: languages))) := by
  have hne : s.unread ≠ [] := by
    rw [hs]
    exact List.append_ne_nil_of_right_ne_nil _ (List.cons_ne_nil _ _)
  refine loadSorted_entries (LanguageText.loaded freed) (fun l ↦ ⟨l.tag, _, rfl⟩)
    (fun f _ ↦ readsEntry_language freed f) (fun t s₁ hpeek ↦ pending_of_peek hpending hne hpeek) hu
      hs (Int.le_refl 1) _

/-- Languages are sorted, whatever is in the place of a tag that was deleted, exactly if every tag is
held. -/
theorem languagesSorted_iff (e : ListEntry LanguageText) (languages : List (ListEntry LanguageText)) :
    (∀ freed, LanguagesSorted freed (e :: languages)) ↔ AllHeld (e :: languages) := by
  constructor
  · intro h
    have hlineEnd : lineEnd.tokType ≠ WHITESPACE := fun h ↦ by cases h
    obtain ⟨s, hpending, hs⟩ : ∃ s : Scanner, s.pending.length ≤ 1 ∧
        s.unread = entriesTokens LanguageText.tokens (e :: languages) ++ [lineEnd, lineEnd] :=
      ⟨⟨[], [], _, none⟩, Nat.zero_le 1, rfl⟩
    obtain ⟨-, hsorted⟩ := h [] s lineEnd [] (fun _ ↦ hpending) hlineEnd hs
    rw [loadSorted_languages [] hpending hlineEnd hs] at hsorted
    have hadded := added_of_sortedAs hsorted
    rw [List.map_map] at hadded
    exact (entriesValues_language [] (e :: languages)).2 hadded
  · intro h freed s u more hpending hu hs
    rw [loadSorted_languages freed (hpending (List.cons_ne_nil _ _)) hu hs,
      (entriesValues_language freed _).1 h]
    exact ⟨rfl, sortedAs_entries LanguageText.element LanguageTag.q fun _ ↦ rfl⟩

/-! ## Media ranges, sorted by nothing -/

/-- Two elements of a list that satisfies a relation are related. -/
theorem related_of_pairwise {β : Type} {R : β → β → Prop} {list : List β} (h : list.Pairwise R)
    {a b : β}
    (ha : a ∈ list) (hb : b ∈ list) (hne : a ≠ b) : R a b ∨ R b a := by
  have hsymm : list.Pairwise fun a b ↦ R a b ∨ R b a := h.imp Or.inl
  have hor : Std.Symm fun a b ↦ R a b ∨ R b a := ⟨fun _ _ ↦ Or.symm⟩
  exact hsymm.forall ha hb hne

/-- Where a list is sorted as it has to be whatever the factors in the memory are, it has one element
at most. -/
theorem length_le_of_sorted {declared : List (α × Int)} {added : List α}
    (h : ∀ memory : Nat → Int, SortedAs declared (sortedList (fun x ↦ memory x.2) added)) :
    added.length ≤ 1 := by
  by_contra hlen
  rw [not_le] at hlen
  have hx : (added[0], 0) ∈ added.zipIdx := by
    rw [List.mk_mem_zipIdx_iff_getElem?]
    exact List.getElem?_eq_getElem (Nat.zero_lt_of_lt hlen)
  have hy : (added[1], 1) ∈ added.zipIdx := by
    rw [List.mk_mem_zipIdx_iff_getElem?]
    exact List.getElem?_eq_getElem hlen
  have hne : (added[0], 0) ≠ (added[1], 1) := by
    intro heq
    cases congrArg Prod.snd heq
  -- how the first two elements come to lie, and how they have to
  have hboth (memory : Nat → Int) := related_of_pairwise
    ((pairwise_sortedList (fun x : α × Nat ↦ memory x.2) added).and (h memory).sorted)
    ((perm_sortedList _ added).mem_iff.mpr hx) ((perm_sortedList _ added).mem_iff.mpr hy) hne
  have hfirst := hboth fun _ ↦ 0
  have hlast := hboth fun i ↦ i
  simp only [Preferred] at hfirst hlast
  omega

theorem loadSorted_range (q : MediaRange (Option Nat) × Nat → Int) {e : ListEntry RangeText}
    (h : e.element.Loadable)
    {s : Scanner} {u : Token} {more : List Token} (hu : u.tokType ≠ WHITESPACE)
    (hs : s.unread = entriesTokens RangeText.tokens [e] ++ lineEnd :: u :: more) :
    loadSorted mediaRange 0 q s = (.ok (), [(e.element.range, 0)]) := by
  have hmin : (0 : Int) ≤ 1 := by decide
  exact loadSorted_entries (p := mediaRange) (fun _ (e : ListEntry RangeText) ↦ e.element.range)
    (fun r : RangeText ↦ ⟨r.type, _, rfl⟩) (List.forall_mem_singleton.mpr (readsEntry_range e h))
    (fun _ _ _ ↦ trivial) hu hs hmin q

/-- A range that is not loadable is not added, or the list is thrown away. -/
theorem not_loadSorted_range (q : MediaRange (Option Nat) × Nat → Int) {e : ListEntry RangeText}
    (h : ¬ e.element.Loadable) {s : Scanner} {u : Token} {more : List Token}
    (hu : u.tokType ≠ WHITESPACE)
    (hs : s.unread = entriesTokens RangeText.tokens [e] ++ lineEnd :: u :: more) :
    (∃ err, (loadSorted mediaRange 0 q s).1 = .error err) ∨ (loadSorted mediaRange 0 q s).2 = [] := by
  have hends : EndsElement (lineEnd :: u :: more) := .inr ⟨u, more, rfl, hu⟩
  rw [entriesTokens, List.append_assoc] at hs
  have hhead : s.unread = word e.element.type :: _ := hs
  obtain ⟨s₁, hpeek, hs₁⟩ := yields_peek s hhead (List.nil_prefix ..)
  have hunread := hs₁.trans (hhead.symm.trans hs)
  rw [loadSorted, ReadCommaSeparatedList_eq, hpeek]
  dsimp only
  rw [if_neg (word_ne _).1]
  rcases RangeText.load_of_not_loadable h e.trail hends with ⟨ts', hload⟩ |
    ⟨range, ts', t, ts'', hload, hskip, ht, hcomma⟩
  · obtain ⟨s₂, hload, -⟩ := hload s₁ hunread (List.nil_prefix ..)
    have hfails := (FailsBehind.here (p := mediaRange) hload).listLoop 0 (-1) []
    rw [hfails.2]
    exact .inr rfl
  · obtain ⟨s₂, hload, hs₂⟩ := hload s₁ hunread (List.nil_prefix ..)
    obtain ⟨s₃, hskip, hs₃⟩ := hskip s₂ hs₂ (List.nil_prefix ..)
    have hstep := listLoop_step (p := mediaRange) 0 (-1) [] hload hskip
    rw [behindComma_other hs₃ ht hcomma] at hstep
    exact .inl hstep

/-- Media ranges are sorted, whatever their factors are in the memory, exactly if there is one at most
and it is loadable. -/
theorem acceptSorted_iff (ranges : List (ListEntry RangeText)) :
    (∀ memory, AcceptSorted memory ranges) ↔
    ranges.length ≤ 1 ∧ ∀ e ∈ ranges, e.element.Loadable := by
  have hlineEnd : lineEnd.tokType ≠ WHITESPACE := fun h ↦ by cases h
  constructor
  · intro h
    obtain ⟨s, hpending, hs⟩ : ∃ s : Scanner, s.pending.length ≤ 1 ∧
        s.unread = entriesTokens RangeText.tokens ranges ++ [lineEnd, lineEnd] :=
      ⟨⟨[], [], _, none⟩, Nat.zero_le 1, rfl⟩
    have hsorted (memory : Nat → Int) := h memory s lineEnd [] (fun _ ↦ hpending) hlineEnd hs
    have hlength : ranges.length ≤ 1 := by
      have hle := length_le_of_sorted fun memory ↦ (hsorted memory).2
      have hadded := added_of_sortedAs (hsorted fun _ ↦ 0).2
      rwa [hadded, List.length_map, List.length_map] at hle
    refine ⟨hlength, ?_⟩
    match ranges, hlength with
    | [], _ => exact fun e he ↦ absurd he List.not_mem_nil
    | [e], _ =>
      rw [List.forall_mem_singleton]
      by_contra hnot
      obtain ⟨hok, hsorted⟩ := hsorted fun _ ↦ 0
      rcases not_loadSorted_range (fun _ ↦ 0) hnot hlineEnd hs with ⟨err, herror⟩ | hnil
      · rw [hok] at herror
        cases herror
      · have hlen := hsorted.perm.length_eq
        rw [hnil] at hlen
        cases hlen
  · rintro ⟨hlength, hloadable⟩ memory s u more _ hu hs
    match ranges, hlength with
    | [], _ =>
      obtain ⟨s₁, hpeek, hs₁⟩ := yields_peek s hs (List.nil_prefix ..)
      have hload : loadSorted mediaRange 0 (fun x ↦ memory x.2) s = (.ok (), []) := by
        rw [loadSorted, ReadCommaSeparatedList_eq, hpeek]
        rfl
      rw [hload]
      exact ⟨rfl, List.Perm.refl _, List.Pairwise.nil⟩
    | [e], _ =>
      rw [loadSorted_range _ (hloadable e (List.mem_singleton_self e)) hu hs]
      exact ⟨rfl, List.Perm.refl _, List.pairwise_singleton ..⟩

/-- The four headers: media ranges are sorted if there is one at most and it is loadable, charsets
and encodings are, and languages are if every tag is held. -/
theorem acceptLists_sorted (ranges : List (ListEntry RangeText)) (e : ListEntry IdentifierText)
    (identifiers : List (ListEntry IdentifierText)) (l : ListEntry LanguageText)
    (languages : List (ListEntry LanguageText)) :
    ((∀ memory, AcceptSorted memory ranges) ↔
      ranges.length ≤ 1 ∧ ∀ e ∈ ranges, e.element.Loadable) ∧
    IdentifiersSorted (e :: identifiers) ∧
    ((∀ freed, LanguagesSorted freed (l :: languages)) ↔ AllHeld (l :: languages)) :=
  ⟨acceptSorted_iff ranges, identifiersSorted e identifiers, languagesSorted_iff l languages⟩

/-- A factor of 1 behind a blank. -/
def spacedFactor : QText where
  layout := { noSpace with semicolon := ⟨[blank], .space rfl (List.all_eq_true.mp rfl) .nil⟩ }
  text := ['1']
  q := 1000
  isQValue := .one

theorem isTag_en : IsTag ['e', 'n'] :=
    .subtag ⟨List.cons_ne_nil _ _, by decide, List.all_eq_true.mp rfl⟩

/-- `en ;q=1`. -/
def spacedEnglish : ListEntry LanguageText where
  element := ⟨['e', 'n'], some spacedFactor, .inr isTag_en⟩
  trail := ⟨[], .nil⟩
  lead := ⟨[], .nil⟩

/-- A range without parameters is not in the list, and a tag with a blank behind it is read when it
was deleted. -/
theorem not_acceptLists_sorted : (¬ ∀ ranges memory, AcceptSorted memory ranges) ∧
    ¬ ∀ e languages freed, LanguagesSorted freed (e :: languages) := by
  constructor
  · intro h
    obtain ⟨-, hloadable⟩ := (acceptSorted_iff [⟨textHtml, ⟨[], .nil⟩, ⟨[], .nil⟩⟩]).mp (h _)
    obtain ⟨-, text, behind, hq, -⟩ := hloadable _ (List.mem_singleton_self _)
    cases hq
  · intro h
    have hheld : AllHeld [spacedEnglish] :=
      (languagesSorted_iff spacedEnglish []).mp (h spacedEnglish [])
    cases hheld

end Lists

end Upnp.Web
