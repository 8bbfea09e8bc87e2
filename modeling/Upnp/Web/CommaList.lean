import Upnp.Web.Scanner

/-!
# Comma-separated lists

`ReadCommaSeparatedList`, for any parser of elements.  An exception that an element throws is
swallowed together with the element: the list is taken as far as it was read, and nothing is
counted.
-/

namespace Upnp.Web

open Upnp.Lib
open TokenType ParseException

/-- The parser of the elements of a list, which takes nothing into the stream. -/
structure ElementParser (α : Type) where
  load : Parse α
  left_load {s s' : Scanner} {a : α} (h : load s = (.ok a, s')) : s'.left ≤ s.left

/-- What a list gives: the outcome, the values that `addCallback` got, and the scanner. -/
structure ListRead (α : Type) where
  outcome : Except ParseException Unit
  added : List α
  scanner : Scanner

/-- What `catch( HttpParseException& )` leaves of an exception. -/
def caught : ParseException → Except ParseException Unit
  | HttpParseException _ => .ok ()
  | e => .error e

/-- The end of a list, where the items are counted. -/
def endOfList (minItems maxItems : Int) (itemCount : Nat) : Except ParseException Unit :=
  if itemCount < minItems then .error (HttpParseException PARSERR_BAD_LISTCOUNT)
  else if 0 ≤ maxItems ∧ maxItems < itemCount then .error (HttpParseException PARSERR_BAD_LISTCOUNT)
  else .ok ()

section Loop

variable {α : Type}

/-- The loop of `ReadCommaSeparatedList` behind the first token, with the values that were added. -/
def listLoop (p : ElementParser α) (minItems maxItems : Int) (added : List α) (s : Scanner) :
    ListRead α :=
  match hload : p.load s with
  | (.error e, s) => ⟨caught e, added, s⟩
  | (.ok value, s₁) =>
    match hskip : SkipOptionalLWS s₁ with
    | (.error e, s) => ⟨caught e, added ++ [value], s⟩
    | (.ok (), s₂) =>
      match hget : getToken s₂ with
      | (.error e, s) => ⟨caught e, added ++ [value], s⟩
      | (.ok token, s₃) =>
        if hcomma : token.s = [','] then
          match hmore : SkipOptionalLWS s₃ with
          | (.error e, s) => ⟨caught e, added ++ [value], s⟩
          | (.ok (), s₄) => listLoop p minItems maxItems (added ++ [value]) s₄
        else
          match pushBack s₃ with
          | (.error e, s) => ⟨caught e, added ++ [value], s⟩
          | (.ok (), s) =>
            if token.tokType = CRLF then
              ⟨endOfList minItems maxItems (added ++ [value]).length, added ++ [value], s⟩
            else ⟨.error (HttpParseException PARSERR_BAD_COMMALIST), added ++ [value], s⟩
termination_by s.left
decreasing_by
  have hload := p.left_load hload
  have hskip := left_SkipOptionalLWS hskip
  have hmore := left_SkipOptionalLWS hmore
  have hget := left_getToken hget
  have hweight := weight_of_char hcomma
  omega

/-- `ReadCommaSeparatedList`. -/
def ReadCommaSeparatedList (p : ElementParser α) (minItems maxItems : Int) (s : Scanner) : ListRead α :=
  match getToken s with
  | (.error e, s) => ⟨caught e, [], s⟩
  | (.ok token, s) =>
    match pushBack s with
    | (.error e, s) => ⟨caught e, [], s⟩
    | (.ok (), s) =>
      if token.tokType = CRLF then ⟨endOfList minItems maxItems 0, [], s⟩
      else listLoop p minItems maxItems [] s

/-- `PrintCommaSeparatedList`. -/
def PrintCommaSeparatedList {α : Type} (toString : α → CString) : List α → CString
  | [] => []
  | value :: list => toString value ++ list.flatMap fun data ↦ ", ".toList ++ toString data

/-! ## The texts of lists -/

/-- A comma and the white space behind it. -/
def skipComma : Parse Unit := do
  let _ ← getToken
  SkipOptionalLWS

/-- Where a list goes on behind an element: behind a comma, or nowhere at the end of the line. -/
def behindComma (s : Scanner) : Option (Option Scanner) :=
  match s.unread.head? with
  | none => none
  | some token =>
    if token.s = [','] then
      match skipComma s with
      | (.ok (), s') => some (some s')
      | (.error _, _) => none
    else if token.tokType = CRLF then some none
    else none

theorem left_behindComma {s s' : Scanner} (h : behindComma s = some (some s')) : s'.left < s.left := by
  rw [behindComma] at h
  split at h
  · cases h
  · next token hhead =>
    split at h
    · next hcomma =>
      split at h
      · next hskip =>
        cases h
        obtain ⟨ts, hunread⟩ := List.head?_eq_some_iff.mp hhead
        obtain ⟨s₁, hget, -⟩ := getToken_cons hunread
        rw [skipComma, Parse.bind_ok hget] at hskip
        have hle := left_SkipOptionalLWS hskip
        have hleft := left_getToken hget
        have hweight := weight_of_char hcomma
        omega
      · cases h
    · split at h
      · cases h
      · cases h

/-- The elements of a text: what can be read where one may be, and nothing else but commas, white
space and the end of the line.  An element that cannot be read may be left out. -/
def elements (p : ElementParser α) (s : Scanner) : Option (List α) :=
  match hload : p.load s with
  | (.ok value, s₁) =>
    match hskip : SkipOptionalLWS s₁ with
    | (.error _, _) => none
    | (.ok (), s₂) =>
      match hbehind : behindComma s₂ with
      | none => none
      | some none => some [value]
      | some (some s₃) => (elements p s₃).map (value :: ·)
  | (.error (HttpParseException _), _) =>
    match hbehind : behindComma s with
    | none => none
    | some none => some []
    | some (some s₁) => elements p s₁
  | (.error (ofScanner _), _) => none
termination_by s.left
decreasing_by
  · have hload := p.left_load hload
    have hskip := left_SkipOptionalLWS hskip
    have hbehind := left_behindComma hbehind
    omega
  · exact left_behindComma hbehind

/-- The first token, which stays. -/
def peek : Parse Token := do
  let token ← getToken
  pushBack
  return token

/-- The elements of the text of a whole list, which may be empty. -/
def listElements (p : ElementParser α) (s : Scanner) : Option (List α) :=
  match peek s with
  | (.error _, _) => none
  | (.ok token, s) => if token.tokType = CRLF then some [] else elements p s

/-- As many items as there may be. -/
def InRange (minItems maxItems : Int) (itemCount : Nat) : Prop :=
  minItems ≤ itemCount ∧ (0 ≤ maxItems → itemCount ≤ maxItems)

/-- What has to be done with the text of a list. -/
structure ReadsList (p : ElementParser α) (minItems maxItems : Int) (s : Scanner) : Prop where
  accepted : ∀ values, listElements p s = some values → InRange minItems maxItems values.length →
    (ReadCommaSeparatedList p minItems maxItems s).outcome = .ok () ∧
      (ReadCommaSeparatedList p minItems maxItems s).added = values
  rejected : (∀ values, listElements p s = some values → ¬ InRange minItems maxItems values.length) →
    ∃ e, (ReadCommaSeparatedList p minItems maxItems s).outcome = .error e

/-- Behind some elements there is one that fails. -/
inductive FailsBehind (p : ElementParser α) : Scanner → List α → Scanner → Prop where
  | here {s s' : Scanner} {errorCode : Int}
      (h : p.load s = (.error (HttpParseException errorCode), s')) : FailsBehind p s [] s
  | later {s s₁ s₂ s₃ s' : Scanner} {value : α} {values : List α} (hload : p.load s = (.ok value, s₁))
      (hskip : SkipOptionalLWS s₁ = (.ok (), s₂)) (hbehind : behindComma s₂ = some (some s₃))
      (h : FailsBehind p s₃ values s') : FailsBehind p s (value :: values) s'

/-- Where an element fails, nothing but empty elements is left, and there were as many as there may
be. -/
def FailsLast (p : ElementParser α) (minItems maxItems : Int) (s : Scanner) : Prop :=
  ∀ token s₁, peek s = (.ok token, s₁) → token.tokType ≠ CRLF →
    ∀ values s', FailsBehind p s₁ values s' →
      elements p s' = some [] ∧ InRange minItems maxItems values.length

/-! ## The loop on a text -/

variable {p : ElementParser α} {minItems maxItems : Int} {s s' : Scanner} {added values : List α}

theorem endOfList_of_inRange {n : Nat} (h : InRange minItems maxItems n) :
    endOfList minItems maxItems n = .ok () := by
  rw [endOfList, if_neg h.1.not_gt, if_neg]
  rintro ⟨hmax, hlt⟩
  exact (h.2 hmax).not_gt hlt

theorem endOfList_of_not {n : Nat} (h : ¬ InRange minItems maxItems n) :
    ∃ e, endOfList minItems maxItems n = .error e := by
  rw [endOfList]
  split_ifs with hmin hmax
  · exact ⟨_, rfl⟩
  · exact ⟨_, rfl⟩
  · refine absurd ⟨not_lt.mp hmin, fun h₀ ↦ ?_⟩ h
    by_contra hlt
    exact hmax ⟨h₀, not_le.mp hlt⟩

theorem caught_of_scanner {e : ParseException} (h : ∃ x, e = ofScanner x) :
    ∃ e', caught e = .error e' := by
  obtain ⟨x, rfl⟩ := h
  exact ⟨_, rfl⟩

theorem listLoop_of_load {value : α} {s₁ : Scanner} (hload : p.load s = (.ok value, s₁)) :
    listLoop p minItems maxItems added s =
      match SkipOptionalLWS s₁ with
      | (.error e, s) => ⟨caught e, added ++ [value], s⟩
      | (.ok (), s₂) =>
        match getToken s₂ with
        | (.error e, s) => ⟨caught e, added ++ [value], s⟩
        | (.ok token, s₃) =>
          if token.s = [','] then
            match SkipOptionalLWS s₃ with
            | (.error e, s) => ⟨caught e, added ++ [value], s⟩
            | (.ok (), s₄) => listLoop p minItems maxItems (added ++ [value]) s₄
          else
            match pushBack s₃ with
            | (.error e, s) => ⟨caught e, added ++ [value], s⟩
            | (.ok (), s) =>
              if token.tokType = CRLF then
                ⟨endOfList minItems maxItems (added ++ [value]).length, added ++ [value], s⟩
              else ⟨.error (HttpParseException PARSERR_BAD_COMMALIST), added ++ [value], s⟩ := by
  rw [listLoop]
  split
  · next heq =>
    rw [hload] at heq
    cases heq
  · next heq =>
    rw [hload] at heq
    cases heq
    split
    · next hskip => rw [hskip]
    · next hskip =>
      rw [hskip]
      dsimp only
      split
      · next hget => rw [hget]
      · next hget =>
        rw [hget]
        dsimp only
        split
        · split
          · next hmore => rw [hmore]
          · next hmore => rw [hmore]
        · rfl

/-- How the loop goes on behind an element. -/
theorem listLoop_step (minItems maxItems : Int) (added : List α) {value : α} {s₁ s₂ : Scanner}
    (hload : p.load s = (.ok value, s₁))
    (hskip : SkipOptionalLWS s₁ = (.ok (), s₂)) :
    match behindComma s₂ with
    | none => ∃ e, (listLoop p minItems maxItems added s).outcome = .error e
    | some none => (listLoop p minItems maxItems added s).outcome =
          endOfList minItems maxItems (added ++ [value]).length ∧
        (listLoop p minItems maxItems added s).added = added ++ [value]
    | some (some s₃) => listLoop p minItems maxItems added s =
        listLoop p minItems maxItems (added ++ [value]) s₃ := by
  rw [listLoop_of_load hload, hskip]
  dsimp only
  rw [behindComma]
  cases hunread : s₂.unread with
  | nil =>
    -- the stream has ended
    dsimp only [List.head?_nil]
    cases hget : getToken s₂ with
    | mk r s₃ =>
      cases r with
      | error e => exact caught_of_scanner (onlyScanner_getToken _ _ _ hget)
      | ok token =>
        obtain ⟨-, hcons | ⟨-, -, rfl⟩, n, -, hreturned⟩ := getToken_ok hget
        · rw [hunread] at hcons
          cases hcons
        · obtain ⟨s₄, hpush, -⟩ := pushBack_of_returned hreturned
          dsimp only
          rw [if_neg (by simp), hpush]
          exact ⟨_, rfl⟩
  | cons token ts =>
    obtain ⟨s₃, hget, -, n, -, hreturned⟩ := getToken_cons hunread
    dsimp only [List.head?_cons]
    rw [hget, skipComma, Parse.bind_ok hget]
    dsimp only
    by_cases hcomma : token.s = [',']
    · rw [if_pos hcomma, if_pos hcomma]
      cases hmore : SkipOptionalLWS s₃ with
      | mk r s₄ =>
        cases r with
        | error e => exact caught_of_scanner (onlyScanner_SkipOptionalLWS _ _ _ hmore)
        | ok u => rfl
    · obtain ⟨s₄, hpush, -⟩ := pushBack_of_returned hreturned
      rw [if_neg hcomma, if_neg hcomma, hpush]
      dsimp only
      by_cases hcrlf : token.tokType = CRLF
      · rw [if_pos hcrlf, if_pos hcrlf]
        exact ⟨rfl, rfl⟩
      · rw [if_neg hcrlf, if_neg hcrlf]
        exact ⟨_, rfl⟩

/-- What was added stays. -/
theorem added_prefix (p : ElementParser α) (minItems maxItems : Int) (added : List α) (s : Scanner) :
    added <+: (listLoop p minItems maxItems added s).added := by
  induction hn : s.left using Nat.strong_induction_on generalizing s added with
  | h n ih =>
    rw [listLoop]
    have happend (value : α) : added <+: added ++ [value] := List.prefix_append ..
    split
    · exact List.prefix_rfl
    · next value s₁ hload =>
      split
      · exact happend value
      · next hskip =>
        split
        · exact happend value
        · next token s₃ hget =>
          split
          · next hcomma =>
            split
            · exact happend value
            · next s₄ hmore =>
              have hlt : s₄.left < n := by
                have hload := p.left_load hload
                have hskip := left_SkipOptionalLWS hskip
                have hmore := left_SkipOptionalLWS hmore
                have hget := left_getToken hget
                have hweight := weight_of_char hcomma
                omega
              exact (happend value).trans (ih _ hlt _ _ rfl)
          · split
            · exact happend value
            · split
              · exact happend value
              · exact happend value

theorem added_prefix_of_load (minItems maxItems : Int) (added : List α) {value : α} {s₁ : Scanner}
    (hload : p.load s = (.ok value, s₁)) :
    added ++ [value] <+: (listLoop p minItems maxItems added s).added := by
  rw [listLoop_of_load hload]
  split
  · exact List.prefix_rfl
  split
  · exact List.prefix_rfl
  split
  · split
    · exact List.prefix_rfl
    · exact added_prefix ..
  split
  · exact List.prefix_rfl
  split
  · exact List.prefix_rfl
  · exact List.prefix_rfl

theorem behindComma_crlf {t : Token} {ts : List Token} (h : s.unread = t :: ts) (ht : t.tokType = CRLF)
    (hs : t.s ≠ [',']) : behindComma s = some none := by
  rw [behindComma, h, List.head?_cons]
  dsimp only
  rw [if_neg hs, if_pos ht]

theorem behindComma_comma {t : Token} {ts ts' : List Token} (h : s.unread = t :: ts) (ht : t.s = [','])
    (hskip : Yields [] SkipOptionalLWS ts (.ok ()) ts') :
    ∃ s', behindComma s = some (some s') ∧ s'.unread = ts' := by
  obtain ⟨s₁, hget, hs₁, -⟩ := getToken_cons h
  obtain ⟨s', hrun, hs'⟩ := hskip s₁ hs₁ (List.nil_prefix ..)
  refine ⟨s', ?_, hs'⟩
  rw [behindComma, h, List.head?_cons]
  dsimp only
  rw [if_pos ht, skipComma, Parse.bind_ok hget, hrun]

theorem behindComma_other {t : Token} {ts : List Token} (h : s.unread = t :: ts) (ht : t.tokType ≠ CRLF)
    (hs : t.s ≠ [',']) : behindComma s = none := by
  rw [behindComma, h, List.head?_cons]
  dsimp only
  rw [if_neg hs, if_neg ht]

/-- Where an element fails, the list is taken as it is. -/
theorem FailsBehind.listLoop (h : FailsBehind p s values s') (minItems maxItems : Int)
    (added : List α) :
    (Upnp.Web.listLoop p minItems maxItems added s).outcome = .ok () ∧
      (Upnp.Web.listLoop p minItems maxItems added s).added = added ++ values := by
  induction h generalizing added with
  | here h =>
    rw [Upnp.Web.listLoop]
    split
    · next heq =>
      rw [h] at heq
      cases heq
      exact ⟨rfl, (List.append_nil _).symm⟩
    · next heq =>
      rw [h] at heq
      cases heq
  | @later s s₁ s₂ s₃ s' value values hload hskip hbehind h ih =>
    have hstep := listLoop_step minItems maxItems added hload hskip
    rw [hbehind] at hstep
    have hmore := ih (added ++ [value])
    rw [List.append_assoc] at hmore
    rw [hstep]
    exact hmore

theorem elements_of_load {value : α} {s₁ s₂ : Scanner} (hload : p.load s = (.ok value, s₁))
    (hskip : SkipOptionalLWS s₁ = (.ok (), s₂)) : elements p s =
      match behindComma s₂ with
      | none => none
      | some none => some [value]
      | some (some s₃) => (elements p s₃).map (value :: ·) := by
  rw [elements]
  split
  · next heq =>
    rw [hload] at heq
    cases heq
    split
    · next hskip' =>
      rw [hskip] at hskip'
      cases hskip'
    · next hskip' =>
      rw [hskip] at hskip'
      cases hskip'
      split
      · next hbehind => rw [hbehind]
      · next hbehind => rw [hbehind]
      · next hbehind => rw [hbehind]
  · next heq =>
    rw [hload] at heq
    cases heq
  · next heq =>
    rw [hload] at heq
    cases heq

theorem elements_of_failure {errorCode : Int}
    (hload : p.load s = (.error (HttpParseException errorCode), s')) : elements p s =
      match behindComma s with
      | none => none
      | some none => some []
      | some (some s₁) => elements p s₁ := by
  rw [elements]
  split
  · next heq =>
    rw [hload] at heq
    cases heq
  · split
    · next hbehind => rw [hbehind]
    · next hbehind => rw [hbehind]
    · next hbehind => rw [hbehind]
  · next heq =>
    rw [hload] at heq
    cases heq

/-- A scanner that fails in an element ends the list. -/
theorem elements_of_ofScanner {x : Exception} (hload : p.load s = (.error (ofScanner x), s')) :
    elements p s = none := by
  rw [elements]
  split
  · next heq =>
    rw [hload] at heq
    cases heq
  · next heq =>
    rw [hload] at heq
    cases heq
  · rfl

theorem listLoop_of_ofScanner {x : Exception}
    (hload : p.load s = (.error (ofScanner x), s')) :
    ∃ e, (listLoop p minItems maxItems added s).outcome = .error e := by
  rw [listLoop]
  split
  · next heq =>
    rw [hload] at heq
    cases heq
    exact ⟨_, rfl⟩
  · next heq =>
    rw [hload] at heq
    cases heq

/-- So does a scanner that fails in the space behind an element. -/
theorem elements_of_skip_error {value : α} {e : ParseException} {s₁ s₂ : Scanner}
    (hload : p.load s = (.ok value, s₁)) (hskip : SkipOptionalLWS s₁ = (.error e, s₂)) :
    elements p s = none := by
  rw [elements]
  split
  · next heq =>
    rw [hload] at heq
    cases heq
    split
    · rfl
    · next hskip' =>
      rw [hskip] at hskip'
      cases hskip'
  · next heq =>
    rw [hload] at heq
    cases heq
  · rfl

/-- What was read in front of an element that fails is read first. -/
theorem FailsBehind.elements (h : FailsBehind p s values s') :
    Upnp.Web.elements p s = (Upnp.Web.elements p s').map (values ++ ·) := by
  induction h with
  | here h => exact Option.map_id'.symm
  | later hload hskip hbehind h ih =>
    rw [elements_of_load hload hskip, hbehind]
    dsimp only
    rw [ih, Option.map_map]
    rfl

/-- Where no element fails, the loop does what the text says. -/
theorem listLoop_of_not_fails (minItems maxItems : Int) (h : ¬ ∃ values s', FailsBehind p s values s')
    (added : List α) :
    match elements p s with
    | none => ∃ e, (listLoop p minItems maxItems added s).outcome = .error e
    | some values => (listLoop p minItems maxItems added s).outcome =
          endOfList minItems maxItems (added ++ values).length ∧
        (listLoop p minItems maxItems added s).added = added ++ values := by
  induction hn : s.left using Nat.strong_induction_on generalizing s added with
  | h n ih =>
    cases hload : p.load s with
    | mk r s₁ =>
      cases r with
      | error e =>
        cases e with
        | HttpParseException errorCode => exact absurd ⟨[], s, .here hload⟩ h
        | ofScanner x =>
          rw [elements_of_ofScanner hload]
          exact listLoop_of_ofScanner hload
      | ok value =>
        cases hskip : SkipOptionalLWS s₁ with
        | mk r s₂ =>
          cases r with
          | error e =>
            rw [elements_of_skip_error hload hskip]
            dsimp only
            rw [listLoop_of_load hload, hskip]
            exact caught_of_scanner (onlyScanner_SkipOptionalLWS _ _ _ hskip)
          | ok u =>
            have hstep := listLoop_step minItems maxItems added hload hskip
            rw [elements_of_load hload hskip]
            cases hbehind : behindComma s₂ with
            | none =>
              rw [hbehind] at hstep
              exact hstep
            | some next =>
              cases next with
              | none =>
                rw [hbehind] at hstep
                exact hstep
              | some s₃ =>
                rw [hbehind] at hstep
                have hlt : s₃.left < n := by
                  have hload := p.left_load hload
                  have hskip := left_SkipOptionalLWS hskip
                  have hbehind := left_behindComma hbehind
                  omega
                have hmore := ih s₃.left hlt (s := s₃)
                  (fun ⟨values, s', hfails⟩ ↦ h ⟨_, _, .later hload hskip hbehind hfails⟩)
                  (added ++ [value]) rfl
                dsimp only
                rw [hstep]
                cases helements : elements p s₃ with
                | none =>
                  rw [helements] at hmore
                  exact hmore
                | some values =>
                  rw [helements] at hmore
                  dsimp only at hmore
                  rw [List.append_assoc] at hmore
                  exact hmore

/-- The head of `ReadCommaSeparatedList` is a look at the first token. -/
theorem ReadCommaSeparatedList_eq (p : ElementParser α) (minItems maxItems : Int) (s : Scanner) :
    ReadCommaSeparatedList p minItems maxItems s =
      match peek s with
      | (.error e, s) => ⟨caught e, [], s⟩
      | (.ok token, s) =>
        if token.tokType = CRLF then ⟨endOfList minItems maxItems 0, [], s⟩
        else listLoop p minItems maxItems [] s := by
  rw [ReadCommaSeparatedList, peek]
  cases hget : getToken s with
  | mk r s₁ =>
    cases r with
    | error e => rw [Parse.bind_error hget]
    | ok token =>
      rw [Parse.bind_ok hget]
      dsimp only
      cases hpush : pushBack s₁ with
      | mk r s₂ =>
        cases r with
        | error e => rw [Parse.bind_error hpush]
        | ok u =>
          rw [Parse.bind_ok hpush]
          rfl

theorem yields_peek {t : Token} {ts : List Token} : Yields [] peek (t :: ts) (.ok t) (t :: ts) :=
  yields_getToken (yields_pushBack (yields_pure t))

theorem onlyScanner_peek : OnlyScanner peek :=
  onlyScanner_getToken.bind fun t ↦ onlyScanner_pushBack.bind fun _ ↦ onlyScanner_pure t

/-- Behind an element that fails the list is read as if it ended there. -/
theorem readsList_iff_of_fails {s₁ : Scanner}
    (hread : ReadCommaSeparatedList p minItems maxItems s = listLoop p minItems maxItems [] s₁)
    (hlist : listElements p s = elements p s₁) (hfails : FailsBehind p s₁ values s') :
    ReadsList p minItems maxItems s ↔
      elements p s' = some [] ∧ InRange minItems maxItems values.length := by
  have hrun := hfails.listLoop minItems maxItems []
  rw [← hread, List.nil_append] at hrun
  rw [hfails.elements] at hlist
  constructor
  · intro hreads
    have hsome : ∃ ws, listElements p s = some ws ∧ InRange minItems maxItems ws.length := by
      by_contra hnone
      obtain ⟨e, he⟩ := hreads.rejected fun ws hws hrange ↦ hnone ⟨ws, hws, hrange⟩
      rw [hrun.1] at he
      cases he
    obtain ⟨ws, hws, hrange⟩ := hsome
    have hadded := (hreads.accepted ws hws hrange).2
    rw [hrun.2] at hadded
    subst hadded
    rw [hlist] at hws
    obtain ⟨us, hus, heq⟩ := Option.map_eq_some_iff.mp hws
    have hnil : us = [] := List.append_cancel_left (heq.trans (List.append_nil _).symm)
    subst hnil
    exact ⟨hus, hrange⟩
  · rintro ⟨helements, hrange⟩
    rw [helements, Option.map_some, List.append_nil] at hlist
    constructor
    · intro ws hws _
      rw [hlist] at hws
      cases hws
      exact hrun
    · intro hnot
      exact absurd hrange (hnot values hlist)

/-- Where no element fails the list is read as it has to be. -/
theorem readsList_of_not_fails {s₁ : Scanner}
    (hread : ReadCommaSeparatedList p minItems maxItems s = listLoop p minItems maxItems [] s₁)
    (hlist : listElements p s = elements p s₁)
    (hfails : ¬ ∃ values s', FailsBehind p s₁ values s') : ReadsList p minItems maxItems s := by
  have hrun := listLoop_of_not_fails minItems maxItems hfails []
  constructor
  · intro values hvalues hrange
    rw [← hlist, hvalues, ← hread] at hrun
    dsimp only at hrun
    rw [List.nil_append] at hrun
    exact ⟨hrun.1.trans (endOfList_of_inRange hrange), hrun.2⟩
  · intro hnot
    rw [← hread] at hrun
    cases helements : elements p s₁ with
    | none =>
      rw [helements] at hrun
      exact hrun
    | some values =>
      rw [helements] at hrun hlist
      dsimp only at hrun
      rw [List.nil_append] at hrun
      rw [hrun.1]
      exact endOfList_of_not (hnot values hlist)

/-- A list is read as it has to be exactly if an element that fails is followed by nothing, and there
were as many elements as there may be. -/
theorem readsList_iff (p : ElementParser α) (minItems maxItems : Int) (s : Scanner) :
    ReadsList p minItems maxItems s ↔ FailsLast p minItems maxItems s := by
  have hread := ReadCommaSeparatedList_eq p minItems maxItems s
  have hlist : listElements p s = match peek s with
      | (.error _, _) => none
      | (.ok token, s) => if token.tokType = CRLF then some [] else elements p s := rfl
  cases hpeek : peek s with
  | mk r s₁ =>
    rw [hpeek] at hread hlist
    cases r with
    | error e =>
      refine iff_of_true ⟨fun values hvalues ↦ ?_, fun _ ↦ ?_⟩ fun token s₂ heq ↦ ?_
      · rw [hlist] at hvalues
        cases hvalues
      · rw [hread]
        exact caught_of_scanner (onlyScanner_peek _ _ _ hpeek)
      · rw [hpeek] at heq
        cases heq
    | ok token =>
      dsimp only at hread hlist
      by_cases hcrlf : token.tokType = CRLF
      · -- the empty list
        rw [if_pos hcrlf] at hread hlist
        refine iff_of_true ⟨fun values hvalues hrange ↦ ?_, fun hnot ↦ ?_⟩ fun token' s₂ heq hne ↦ ?_
        · rw [hlist] at hvalues
          cases hvalues
          rw [hread]
          exact ⟨endOfList_of_inRange hrange, rfl⟩
        · rw [hread]
          exact endOfList_of_not (hnot [] hlist)
        · rw [hpeek] at heq
          cases heq
          exact absurd hcrlf hne
      · rw [if_neg hcrlf] at hread hlist
        by_cases hfails : ∃ values s', FailsBehind p s₁ values s'
        · obtain ⟨values, s', hfails⟩ := hfails
          constructor
          · intro hreads token' s₂ heq hne values' s'' hfails'
            rw [hpeek] at heq
            cases heq
            exact (readsList_iff_of_fails hread hlist hfails').mp hreads
          · intro hlast
            exact (readsList_iff_of_fails hread hlist hfails).mpr
              (hlast token s₁ hpeek hcrlf values s' hfails)
        · refine iff_of_true (readsList_of_not_fails hread hlist hfails)
            fun token' s₂ heq hne values' s' h ↦ ?_
          rw [hpeek] at heq
          cases heq
          exact absurd ⟨values', s', h⟩ hfails

end Loop

/-! ## Identifiers -/

open Parse (throw)

/-- `IdentifierValue::load`. -/
def loadIdentifier : Parse CString := do
  let token ← getToken
  if token.tokType ≠ IDENTIFIER then
    pushBack
    throw parseFailure
  else return token.s

theorem spends_loadIdentifier : Spends [] loadIdentifier := by
  refine spends_getToken fun t ↦ ?_
  split
  · exact spends_pushBack (spends_throw _)
  · exact spends_pure _

/-- `IdentifierValue`, as `CreateIdentifierValue` makes them for lists. -/
def identifierValue : ElementParser CString where
  load := loadIdentifier
  left_load := spends_loadIdentifier.left_load

/-- `(` and the end of the line, and the beginning of the next one. -/
def openParenthesis : Scanner :=
  ⟨[], [], [⟨SEPARATOR, ['(']⟩, ⟨CRLF, ['\r', '\n']⟩, ⟨IDENTIFIER, "HOST".toList⟩], none⟩

/-- A parenthesis is a list of one identifier or more, with none in it. -/
theorem not_readsList : ¬ ReadsList identifierValue 1 (-1) openParenthesis := by
  intro hreads
  obtain ⟨s₁, hpeek⟩ : ∃ s₁, peek openParenthesis = (.ok ⟨SEPARATOR, ['(']⟩, s₁) := ⟨_, rfl⟩
  have hload : ∃ s₂, identifierValue.load s₁ = (.error parseFailure, s₂) := by
    cases hpeek
    exact ⟨_, rfl⟩
  obtain ⟨s₂, hload⟩ := hload
  have hbehind : behindComma s₁ = none := by
    cases hpeek
    rfl
  have hnone : listElements identifierValue openParenthesis = none := by
    have hlist : listElements identifierValue openParenthesis = elements identifierValue s₁ := by
      rw [listElements, hpeek]
      rfl
    rw [hlist, elements_of_failure hload, hbehind]
  obtain ⟨e, he⟩ := hreads.rejected fun values hvalues ↦ by
    rw [hnone] at hvalues
    cases hvalues
  rw [ReadCommaSeparatedList_eq, hpeek] at he
  have hrun := ((FailsBehind.here hload).listLoop 1 (-1) []).1
  exact absurd (hrun.symm.trans he) (by simp)

end Upnp.Web
