import Upnp.Dom.Dump
import Upnp.Soap.CtrlUrl

/-!
# Action names

`GetActionName` takes the name of an action from behind the first `#` of a request, or from behind
the first colon of a printed document; which of the two it has, it tells by the word `SOAPACTION`
anywhere in the text.
-/

namespace Upnp.Soap

open Upnp.Lib

/-- `isalnum` in the C locale. -/
def isalnum (c : Char) : Bool := c.isAlphanum

/-- `isblank`. -/
def isblank (c : Char) : Bool := c = ' ' || c = '\t'

/-- The characters that are copied behind the `#`. -/
def isName (c : Char) : Bool := isalnum c && !isblank c

/-- `while(isalnum(*Ptr) != 0 && isblank(*Ptr) == 0) *(Name+Index++) = *(Ptr++)`. -/
def copyAlnum : CString → Int → Buffer → Option (Int × Buffer)
  | [], Index, Name => some (Index, Name)
  | c :: Ptr, Index, Name =>
    if isName c then
      (Buffer.store Index c Name).bind (copyAlnum Ptr (wrap8 (Index + 1)))
    else some (Index, Name)

/-- `while(*Ptr != ' ') *(Name+Index++) = *(Ptr++)`; without a blank it leaves the text. -/
def copyToBlank : CString → Int → Buffer → Option (Int × Buffer)
  | [], _, _ => none
  | c :: Ptr, Index, Name =>
    if c ≠ ' ' then (Buffer.store Index c Name).bind (copyToBlank Ptr (wrap8 (Index + 1)))
    else some (Index, Name)

/-- `GetActionName`: the return value and the array; `none` when it writes or reads outside. -/
def GetActionName (Header : CString) (Name : Buffer) : Option (Int × Buffer) :=
  match strstrcase Header "SOAPACTION".toList with
  | some _ =>
    match strstr Header ['#'] with
    | some Ptr => ((copyAlnum (Ptr.drop 1) 0 Name).bind Buffer.terminate).map ((1, ·))
    | none => some (-1, Name)
  | none =>
    match strstr Header ['<'] with
    | some Tmp =>
      match strstr Tmp [':'] with
      | some Ptr => ((copyToBlank (Ptr.drop 1) 0 Name).bind Buffer.terminate).map ((1, ·))
      | none => some (-1, Name)
    | none => some (1, Name)

/-! ## The copies -/

variable {s t action : CString} {c : Char}

/-- The letters and digits at the start of a text. -/
def alnumRun (s : CString) : CString := s.takeWhile isName

theorem copyAlnum_eq (s : CString) (i : Int) (Name : Buffer) :
    copyAlnum s i Name = Buffer.storeChars i (alnumRun s) Name := by
  induction s generalizing i Name with
  | nil => rfl
  | cons c s ih =>
    rw [copyAlnum, alnumRun]
    by_cases hc : isName c
    · rw [if_pos hc, List.takeWhile_cons_of_pos hc, Buffer.storeChars]
      congr 1
      funext Name'
      exact ih _ Name'
    · rw [if_neg hc, List.takeWhile_cons_of_neg hc, Buffer.storeChars]

theorem copyToBlank_append (h : ' ' ∉ s) (t : CString) (i : Int) (Name : Buffer) :
    copyToBlank (s ++ ' ' :: t) i Name = Buffer.storeChars i s Name := by
  induction s generalizing i Name with
  | nil =>
    rw [List.nil_append, copyToBlank, if_neg (not_not.mpr rfl), Buffer.storeChars]
  | cons c s ih =>
    obtain ⟨hc, hs⟩ := not_or.mp (List.mem_cons.not.mp h)
    rw [List.cons_append, copyToBlank, if_pos (Ne.symm hc), Buffer.storeChars]
    congr 1
    funext Name'
    exact ih hs _ Name'

theorem copyToBlank_none (h : ' ' ∉ s) (i : Int) (Name : Buffer) : copyToBlank s i Name = none := by
  induction s generalizing i Name with
  | nil => rfl
  | cons c s ih =>
    obtain ⟨hc, hs⟩ := not_or.mp (List.mem_cons.not.mp h)
    rw [copyToBlank, if_pos (Ne.symm hc)]
    cases Buffer.store i c Name with
    | none => rfl
    | some Name' => exact ih hs _ Name'

/-- What is to hold of the name that is taken: the copy stays in the array, and is the action when
that fits. -/
def NameRight (r : Option (Int × Buffer)) (action : CString) : Prop :=
  ∃ ret Name, r = some (ret, Name) ∧ (action.length < NAME_SIZE → ret = 1 ∧ Name.Holds action)

/-- The copy of a text is the action when the text fits and is the action, or the action does not
fit. -/
theorem nameRight_copy (hs : '\x00' ∉ s) (haction : '\x00' ∉ action) :
    NameRight (((Buffer.storeChars 0 s (Buffer.alloc NAME_SIZE)).bind Buffer.terminate).map
      ((1, ·))) action ↔
        s.length < NAME_SIZE ∧ (action.length < NAME_SIZE → s = action) := by
  by_cases hlen : s.length < NAME_SIZE
  · obtain ⟨Name, hName, hholds⟩ := @Buffer.terminate_eq_some s (Buffer.alloc NAME_SIZE)
      (by rwa [Buffer.length_alloc]) (Nat.lt_trans hlen (by decide))
    rw [hName, Option.map_some, and_iff_right hlen]
    constructor
    · rintro ⟨ret, Name', heq, hright⟩ hfits
      cases heq
      exact Buffer.Holds.unique hs haction hholds (hright hfits).2
    · intro h
      refine ⟨1, Name, rfl, fun hfits ↦ ⟨rfl, ?_⟩⟩
      rw [← h hfits]
      exact hholds
  · rw [Buffer.terminate_eq_none (.inl (by rw [Buffer.length_alloc]; exact not_lt.mp hlen))]
    refine iff_of_false ?_ fun h ↦ hlen h.1
    rintro ⟨ret, Name, heq, -⟩
    cases heq

/-! ## Behind the first `#` -/

/-- The letters and digits behind the first `#` of the text are the action, and fit; when the action
does not fit it is enough that they do, or that there is no `#`. -/
def HashNames (text action : CString) : Prop :=
  match strstr text ['#'] with
  | some hash => (alnumRun (hash.drop 1)).length < NAME_SIZE ∧
      (action.length < NAME_SIZE → alnumRun (hash.drop 1) = action)
  | none => NAME_SIZE ≤ action.length

theorem isName_nul : isName '\x00' = false := by decide

theorem nul_notMem_alnumRun (s : CString) : '\x00' ∉ alnumRun s := by
  intro h
  have hp := List.all_eq_true.mp List.all_takeWhile _ h
  rw [isName_nul] at hp
  cases hp

theorem nameRight_hash {text : CString} (hword : strstrcase text "SOAPACTION".toList ≠ none)
    (haction : '\x00' ∉ action) :
    NameRight (GetActionName text (Buffer.alloc NAME_SIZE)) action ↔ HashNames text action := by
  obtain ⟨word, hword⟩ := Option.ne_none_iff_exists'.mp hword
  rw [GetActionName, hword, HashNames]
  cases strstr text ['#'] with
  | some hash =>
    dsimp only
    rw [copyAlnum_eq]
    exact nameRight_copy (nul_notMem_alnumRun _) haction
  | none =>
    constructor
    · rintro ⟨ret, Name, heq, hright⟩
      cases heq
      exact not_lt.mp fun hfits ↦ absurd (hright hfits).1 (by decide)
    · exact fun hlong ↦ ⟨-1, _, rfl, fun hfits ↦ absurd hfits (not_lt.mpr hlong)⟩

/-! ## Requests -/

/-- A request with a header `SOAPACTION`, in whatever case, and its quoted value. -/
structure ActionRequest where
  before : CString
  name : CString
  space : CString
  serviceType : CString
  action : CString
  rest : CString
  isSoapAction : strcaseEq name "SOAPACTION".toList
  action_chars : ∀ c ∈ action, c ≠ '\x00' ∧ c ≠ '"'

/-- The text of the request. -/
def ActionRequest.text (r : ActionRequest) : CString :=
  r.before ++ (r.name ++ (':' :: (r.space ++ '"' :: (r.serviceType ++ '#' :: (r.action ++
    '"' :: r.rest)))))

theorem nameRight_request (r : ActionRequest) :
    NameRight (GetActionName r.text (Buffer.alloc NAME_SIZE)) r.action ↔
      HashNames r.text r.action :=
  nameRight_hash (strstrcase_ne_none _ _ r.isSoapAction (by decide))
    fun hc ↦ (r.action_chars _ hc).1 rfl

/-! ## Documents -/

/-- An action document: its root element. -/
structure ActionDocument where
  nsPrefix : CString
  action : CString
  attributes : List (CString × CString)
  children : List Xml.Content
  prefix_chars : ':' ∉ nsPrefix
  action_chars : ' ' ∉ action

/-- The printed document. -/
def ActionDocument.text (d : ActionDocument) : CString :=
  Dom.dump_doc (.element (d.nsPrefix ++ ':' :: d.action) d.attributes d.children)

theorem strstr_singleton {s : CString} {c : Char} (h : c ∉ s) (t : CString) :
    strstr (s ++ c :: t) [c] = some (c :: t) := by
  induction s with
  | nil => simp [strstr]
  | cons d s ih =>
    obtain ⟨hd, hs⟩ := not_or.mp (List.mem_cons.not.mp h)
    rw [List.cons_append, strstr, if_neg, ih hs]
    simpa [List.isPrefixOf] using hd

/-- The name of a document is taken right exactly when there is an attribute behind it, and it
fits. -/
theorem nameRight_document (d : ActionDocument) (hnul : '\x00' ∉ d.text)
    (hword : strstrcase d.text "SOAPACTION".toList = none) :
    NameRight (GetActionName d.text (Buffer.alloc NAME_SIZE)) d.action ↔
      d.attributes ≠ [] ∧ d.action.length < NAME_SIZE := by
  obtain ⟨c, rest, htext, hblank, hclose⟩ :=
    Dom.dump_element (d.nsPrefix ++ ':' :: d.action) d.attributes d.children
  change d.text = _ at htext
  rw [List.append_assoc, List.cons_append] at htext
  have hname : GetActionName d.text (Buffer.alloc NAME_SIZE) =
      ((copyToBlank (d.action ++ c :: rest) 0 (Buffer.alloc NAME_SIZE)).bind
        Buffer.terminate).map ((1, ·)) := by
    have hstart : strstr d.text ['<'] = some d.text := by
      rw [htext]
      exact strstr_singleton List.not_mem_nil _
    have hcolon : strstr d.text [':'] = some (':' :: (d.action ++ c :: rest)) := by
      rw [htext, ← List.cons_append]
      refine strstr_singleton ?_ _
      rw [List.mem_cons, not_or]
      exact ⟨by decide, d.prefix_chars⟩
    rw [GetActionName, hword, hstart]
    dsimp only
    rw [hcolon]
    rfl
  have hnul' : '\x00' ∉ d.action ++ c :: rest := fun hc ↦ hnul (by
    rw [htext]
    exact List.mem_cons_of_mem _ (List.mem_append_right _ (List.mem_cons_of_mem _ hc)))
  have haction : '\x00' ∉ d.action := fun hc ↦ hnul' (List.mem_append_left _ hc)
  rw [hname]
  by_cases hattributes : d.attributes = []
  · refine iff_of_false ?_ fun h ↦ h.1 hattributes
    have hc : c ≠ ' ' := by
      rcases hclose hattributes with rfl | rfl <;> decide
    by_cases hany : ' ' ∈ d.action ++ c :: rest
    · obtain ⟨u, t, hu, hfirst⟩ := List.eq_append_cons_of_mem hany
      -- the copy goes on behind the name
      have hlonger : d.action.length < u.length := by
        refine not_le.mp fun hle ↦ ?_
        have hget := congrArg (·[u.length]?) hu
        simp only [List.getElem?_append_right (Nat.le_refl _), Nat.sub_self,
          List.getElem?_cons_zero] at hget
        rcases Nat.lt_or_eq_of_le hle with hlt | heq
        · rw [List.getElem?_append_left hlt] at hget
          exact d.action_chars (List.mem_of_getElem? hget)
        · rw [heq, List.getElem?_append_right (Nat.le_refl _), Nat.sub_self,
            List.getElem?_cons_zero] at hget
          exact hc (Option.some.inj hget)
      have hnul_u : '\x00' ∉ u := fun hmem ↦ hnul' (by
        rw [hu]
        exact List.mem_append_left _ hmem)
      rw [hu, copyToBlank_append hfirst, nameRight_copy hnul_u haction]
      rintro ⟨hfits, hright⟩
      have heq := hright (Nat.lt_trans hlonger hfits)
      rw [heq] at hlonger
      exact Nat.lt_irrefl _ hlonger
    · rw [copyToBlank_none hany]
      rintro ⟨ret, Name, heq, -⟩
      cases heq
  · rw [hblank hattributes, copyToBlank_append d.action_chars, nameRight_copy haction haction,
      and_iff_right hattributes]
    exact and_iff_left fun _ ↦ rfl

/-- A request or a printed document. -/
inductive Source where
  | request (r : ActionRequest)
  | document (d : ActionDocument) (hnul : '\x00' ∉ d.text)

def Source.text : Source → CString
  | request r => r.text
  | document d _ => d.text

def Source.actionName : Source → CString
  | request r => r.action
  | document d _ => d.action

/-- Where the name of the action can be told from the text: in a text with the word `SOAPACTION` it
stands behind the first `#`, in another document it fits and an attribute follows. -/
def Source.Named : Source → Prop
  | request r => HashNames r.text r.action
  | document d _ =>
    if strstrcase d.text "SOAPACTION".toList = none then
      d.attributes ≠ [] ∧ d.action.length < NAME_SIZE
    else HashNames d.text d.action

/-- For every request and every document, the action name is taken right exactly when it can be
told from the text. -/
theorem nameRight_iff (src : Source) :
    NameRight (GetActionName src.text (Buffer.alloc NAME_SIZE)) src.actionName ↔ src.Named := by
  cases src with
  | request r => exact nameRight_request r
  | document d hnul =>
    rw [Source.Named]
    by_cases hword : strstrcase d.text "SOAPACTION".toList = none
    · rw [if_pos hword]
      exact nameRight_document d hnul hword
    · rw [if_neg hword]
      refine nameRight_hash hword fun hc ↦ hnul ?_
      change '\x00' ∈ Dom.dump_doc _
      rw [Dom.dump_doc]
      refine List.mem_cons_of_mem _ (List.mem_append_left _ (List.mem_append_left _ ?_))
      exact List.mem_append_right _ (List.mem_cons_of_mem _ hc)

/-- An action whose name has an underscore. -/
def underscoreRequest : ActionRequest where
  before := "POST /c HTTP/1.0\r\n".toList
  name := "SOAPACTION".toList
  space := [' ']
  serviceType := "urn:tv:1".toList
  action := "Set_Power".toList
  rest := "\r\n\r\n".toList
  isSoapAction := by decide
  action_chars := forall_mem_of_all (by decide)

/-- The copy of an action name ends at an underscore. -/
theorem not_nameRight : ¬ ∀ src : Source,
    NameRight (GetActionName src.text (Buffer.alloc NAME_SIZE)) src.actionName := by
  intro h
  have hhash := (nameRight_request underscoreRequest).mp (h (.request underscoreRequest))
  have hfirst : strstr underscoreRequest.text ['#'] =
      some "#Set_Power\"\r\n\r\n".toList := by decide +kernel
  rw [HashNames, hfirst] at hhash
  exact absurd (hhash.2 (by decide)) (by decide +kernel)

/-! ## Names of any text -/

/-- What there is to copy in a text: the word and no `#`, or a tag without a colon, for which a
failure is reported; no tag, for which it is not; a name; or the rest of a text without a blank. -/
inductive NamePart where
  | refused
  | untouched
  | copied (name : CString)
  | endless

/-- The part of a text that is its action name. -/
def namePart (text : CString) : NamePart :=
  match strstrcase text "SOAPACTION".toList with
  | some _ =>
    match strstr text ['#'] with
    | some hash => .copied (alnumRun (hash.drop 1))
    | none => .refused
  | none =>
    match strstr text ['<'] with
    | some tag =>
      match strstr tag [':'] with
      | some colon =>
        if ' ' ∈ colon.drop 1 then .copied ((colon.drop 1).takeWhile (· ≠ ' ')) else .endless
      | none => .refused
    | none => .untouched

/-- `GetActionName` copies that part. -/
theorem GetActionName_eq (text : CString) (Name : Buffer) : GetActionName text Name =
    match namePart text with
    | .refused => some (-1, Name)
    | .untouched => some (1, Name)
    | .copied name => ((Buffer.storeChars 0 name Name).bind Buffer.terminate).map ((1, ·))
    | .endless => none := by
  rw [GetActionName, namePart]
  cases strstrcase text "SOAPACTION".toList with
  | some word =>
    cases strstr text ['#'] with
    | none => rfl
    | some hash =>
      dsimp only
      rw [copyAlnum_eq]
  | none =>
    cases strstr text ['<'] with
    | none => rfl
    | some tag =>
      dsimp only
      cases strstr tag [':'] with
      | none => rfl
      | some colon =>
        dsimp only
        by_cases hblank : ' ' ∈ colon.drop 1
        · obtain ⟨u, t, hu, hfirst⟩ := List.eq_append_cons_of_mem hblank
          have hname : (colon.drop 1).takeWhile (· ≠ ' ') = u := by
            rw [hu, List.takeWhile_append_of_pos]
            · simp
            · intro c hc
              rw [decide_eq_true_iff]
              rintro rfl
              exact hfirst hc
          rw [if_pos hblank, hname, hu, copyToBlank_append hfirst]
        · rw [if_neg hblank, copyToBlank_none hblank]
          rfl

/-- The name of a text without NUL has none. -/
theorem nul_notMem_namePart {text name : CString} (hnul : '\x00' ∉ text)
    (h : namePart text = .copied name) : '\x00' ∉ name := by
  rw [namePart] at h
  cases hword : strstrcase text "SOAPACTION".toList with
  | some word =>
    rw [hword] at h
    cases hhash : strstr text ['#'] with
    | none =>
      rw [hhash] at h
      cases h
    | some hash =>
      rw [hhash] at h
      cases h
      exact nul_notMem_alnumRun _
  | none =>
    rw [hword] at h
    cases htag : strstr text ['<'] with
    | none =>
      rw [htag] at h
      cases h
    | some tag =>
      rw [htag] at h
      dsimp only at h
      cases hcolon : strstr tag [':'] with
      | none =>
        rw [hcolon] at h
        cases h
      | some colon =>
        rw [hcolon] at h
        dsimp only at h
        have hsuffix : colon.drop 1 <:+ text :=
          (List.drop_suffix 1 colon).trans ((strstr_spec hcolon).1.trans (strstr_spec htag).1)
        split at h
        · cases h
          intro hc
          exact hnul (hsuffix.subset ((List.takeWhile_prefix _).subset hc))
        · cases h

end Upnp.Soap
