import Upnp.Ssdp.Accept

/-!
# The delay of a reply to a search

`TransferResEvent` sleeps for a random time below the `MX` of the search.  `GetRandomNumber` makes
microseconds of it in an `int`, and divides by what comes out.
-/

namespace Upnp.Ssdp

open Upnp.Lib Exec

variable {text line : CString} {evt : Event} {lines : List CString} {r : Int × Event}
  {size : Nat} {retVal Max d : Int}

/-- The range of `rand`. -/
def RAND_MAX : Int := 2147483647

/-- `srand` and then `rand`: the first number for each seed. -/
structure Generator where
  rand : Int → Int
  nonneg : ∀ seed, 0 ≤ rand seed
  le_max : ∀ seed, rand seed ≤ RAND_MAX

/-- The numbers of values of an `unsigned long`. -/
def ulongSize : Int := 18446744073709551616

/-- `MaxLt` in `GetRandomNumber`: a product of `int`s, converted to `unsigned long`. -/
def MaxLt (Max : Int) : Int := wrap32 (Max * 1000000) % ulongSize

/-- `GetRandomNumber`, when the clock shows `usec` microseconds; `none` where it divides by zero. -/
def GetRandomNumber (Max usec : Int) (gen : Generator) : Option Int :=
  let StartupTime := usec - 500000
  if MaxLt Max = 0 then none else some (wrap32 (gen.rand StartupTime % MaxLt Max))

/-- What `TransferResEvent` does with an event. -/
inductive Act where
  | usleep (usec : Int)
  | CallBackFn (evt : Event)
deriving DecidableEq, Repr

/-- `TransferResEvent`, with what `malloc` returns for the event. -/
def TransferResEvent (text : CString) (evt : Event) (usec : Int) (gen : Generator) :
    Exec (List Act) := do
  let (ret, evt) ← AnalyzeCommand text { evt with ErrCode := NO_ERROR_FOUND }
  if 0 < ret then
    if evt.Cmd = .SEARCH ∧ (evt.Mx < 0 ∨ evt.Man = []) then pure []
    else if evt.Cmd = .SEARCH ∧ 1 < evt.Mx then do
      -- a division by zero ends the run as a null pointer does
      let delay ← follow (GetRandomNumber evt.Mx usec gen)
      pure [.usleep delay, .CallBackFn evt]
    else pure [.CallBackFn evt]
  else pure []

/-! ## The random number -/

/-- What is to hold of the computation of a delay below `Max` seconds. -/
structure DelayRight (Max usec : Int) (gen : Generator) : Prop where
  product : Max * 1000000 ≤ intMax
  divisor : MaxLt Max ≠ 0
  delay : ∃ d, GetRandomNumber Max usec gen = some d ∧ 0 ≤ d ∧ d < Max * 1000000

/-- The computation of a delay is right exactly for the numbers whose product fits. -/
theorem delayRight_iff (hMax : 1 < Max) (usec : Int) (gen : Generator) :
    DelayRight Max usec gen ↔ Max ≤ 2147 := by
  constructor
  · intro h
    have hproduct := h.product
    unfold intMax at hproduct
    omega
  · intro h
    have hlt : MaxLt Max = Max * 1000000 := by
      rw [MaxLt, wrap32_of_range (by omega) (by omega)]
      exact Int.emod_eq_of_lt (by omega) (by unfold ulongSize; omega)
    have hne : Max * 1000000 ≠ 0 := by omega
    have hpos : 0 < Max * 1000000 := by omega
    have hnonneg := Int.emod_nonneg (gen.rand (usec - 500000)) hne
    have hbound := Int.emod_lt_of_pos (gen.rand (usec - 500000)) hpos
    refine ⟨?_, hlt ▸ hne, gen.rand (usec - 500000) % (Max * 1000000), ?_, hnonneg, hbound⟩
    · unfold intMax
      omega
    · rw [GetRandomNumber, hlt, if_neg hne, wrap32_of_range (by omega) (by omega)]

/-! ## The headers of a search -/

/-- The line is the header. -/
def IsHeader (h : Header) (line : CString) : Prop := findHeader (lineName line) = some h

instance (h : Header) (line : CString) : Decidable (IsHeader h line) :=
  inferInstanceAs (Decidable (_ = _))

/-- The value of the last `MX` header. -/
def lastMx : List CString → Option Int
  | [] => none
  | line :: lines => (lastMx lines).or
      (if IsHeader .MX line then (strchr line ':').map fun v ↦ mxOf (v.drop 1) else none)

/-- When all the headers are taken, `Mx` is the value of the last `MX`, and `Man` is there when
one of them is `MAN`. -/
theorem headerLoop_search (hret : 0 ≤ retVal)
    (h : (headerLoop size lines retVal evt).val = some r) (hpos : 0 ≤ r.1) :
    r.2.Mx = (lastMx lines).getD evt.Mx ∧
      (r.2.Man ≠ [] ↔ evt.Man ≠ [] ∨ ∃ line ∈ lines, IsHeader .MAN line) := by
  induction lines generalizing retVal evt with
  | nil =>
    cases h
    exact ⟨rfl, by simp⟩
  | cons line lines ih =>
    cases hh : findHeader (lineName line) with
    | none =>
      have hno : ∀ hd, ¬ IsHeader hd line := fun hd heq ↦ by
        cases hh.symm.trans heq
      obtain ⟨hmx, hman⟩ := ih hret ((headerLoop_unknown hh).symm.trans h)
      refine ⟨?_, ?_⟩
      · rw [hmx, lastMx, if_neg (hno .MX), Option.or_none]
      · rw [hman, List.exists_mem_cons_iff, or_iff_right (hno .MAN)]
    | some hd =>
      rw [headerLoop_known hh] at h
      obtain ⟨v, hv, h⟩ := Option.bind_eq_some_iff.mp h
      obtain ⟨a, ha, h⟩ := Option.bind_eq_some_iff.mp h
      by_cases hneg : a.1 < 0
      · rw [if_pos hneg] at h
        cases h
        exact absurd hpos neg_one_not_nonneg
      · rw [if_neg hneg] at h
        have htaken := Header.parse_taken ha (not_lt.mp hneg)
        obtain ⟨hmx, hman⟩ := ih (not_lt.mp hneg) h
        have hheader : ∀ hd', IsHeader hd' line ↔ hd = hd' := fun hd' ↦ by
          rw [IsHeader, hh, Option.some.injEq]
        constructor
        · rw [hmx, htaken.Mx, lastMx]
          simp only [hheader, hv, Option.map_some]
          split <;> cases lastMx lines <;> rfl
        · rw [hman, htaken.Man, List.exists_mem_cons_iff, hheader]
          by_cases hd_man : hd = .MAN
          · subst hd_man
            have hlen : 0 < (v.drop 1).length :=
              (Header.parse_val .MAN _ evt).mp ⟨a, ha, not_lt.mp hneg⟩
            rw [if_pos rfl]
            exact iff_of_true (.inl (List.length_pos_iff.mp hlen)) (.inr (.inl rfl))
          · rw [if_neg hd_man, or_iff_right (@id (¬ hd = .MAN) hd_man)]

/-- An M-SEARCH packet that the analysis accepts, and the event that comes out. -/
structure AcceptedSearch (text : CString) (evt₀ evt : Event) : Prop where
  accepted : ∃ ret, (AnalyzeCommand text evt₀).val = some (ret, evt) ∧ 0 < ret
  search : evt.Cmd = .SEARCH

theorem AcceptedSearch.headers {first : CString} {evt₀ : Event} (h : AcceptedSearch text evt₀ evt)
    (hlines : crlfLines text = first :: lines) : evt.Mx = (lastMx lines).getD (-1) ∧
      (evt.Man ≠ [] ↔ ∃ line ∈ lines, IsHeader .MAN line) := by
  obtain ⟨ret, hval, hpos⟩ := h.accepted
  have htext : text ≠ [] := by
    rintro rfl
    cases hval
    exact absurd hpos (by decide)
  rw [AnalyzeCommand_val htext hlines] at hval
  obtain ⟨a, ha, hval⟩ := Option.bind_eq_some_iff.mp hval
  obtain ⟨hmx, hman⟩ := headerLoop_search Int.one_nonneg hval hpos.le
  obtain ⟨hmx₀, hman₀, -⟩ := CheckHdr_keeps ha
  refine ⟨?_, ?_⟩
  · rw [hmx, hmx₀]
    rfl
  · rw [hman, hman₀]
    exact or_iff_right fun hne ↦ hne rfl

/-- The `MX` of a search with a `MAN` header is at most 2147 seconds. -/
def DelayBounded (text : CString) : Prop :=
  ∀ first lines, crlfLines text = first :: lines → (∃ line ∈ lines, IsHeader .MAN line) →
    ∀ mx, lastMx lines = some mx → mx ≤ 2147

/-- What is to hold of the reply to a search: where a delay is computed it is computed right, and
there is no other. -/
structure ReplyDelayed (text : CString) (evt₀ evt : Event) (usec : Int) (gen : Generator) :
    Prop where
  computed : evt.Man ≠ [] → 1 < evt.Mx → DelayRight evt.Mx usec gen
  ends : (TransferResEvent text evt₀ usec gen).val ≠ none
  delay : ∀ acts, (TransferResEvent text evt₀ usec gen).val = some acts →
    ∀ d, Act.usleep d ∈ acts → 1 < evt.Mx ∧ 0 ≤ d ∧ d < evt.Mx * 1000000

/-- For every packet that is accepted as a search, every clock and every random number, the delay
of the reply is right exactly when the `MX` is small enough. -/
theorem replyDelayed_iff (text : CString) (evt₀ evt : Event)
    (h : AcceptedSearch text { evt₀ with ErrCode := NO_ERROR_FOUND } evt) (usec : Int)
    (gen : Generator) : ReplyDelayed text evt₀ evt usec gen ↔ DelayBounded text := by
  obtain ⟨first, lines, hlines⟩ := List.exists_cons_of_ne_nil (crlfLines_ne_nil text)
  obtain ⟨hmx, hman⟩ := h.headers hlines
  constructor
  · rintro hreply first' lines' heq hheader mx hlast
    obtain ⟨rfl, rfl⟩ := List.cons.inj (hlines.symm.trans heq)
    rw [hlast, Option.getD_some] at hmx
    subst hmx
    by_cases hlt : 1 < evt.Mx
    · exact (delayRight_iff hlt usec gen).mp (hreply.computed (hman.mpr hheader) hlt)
    · omega
  · intro hbounded
    have hright : evt.Man ≠ [] → 1 < evt.Mx → DelayRight evt.Mx usec gen := by
      intro hne hlt
      apply (delayRight_iff hlt usec gen).mpr
      cases hlast : lastMx lines with
      | none =>
        rw [hlast] at hmx
        exact absurd hlt (hmx ▸ by decide)
      | some mx =>
        rw [hmx, hlast]
        exact hbounded first lines hlines (hman.mp hne) mx hlast
    obtain ⟨ret, hval, hpos⟩ := h.accepted
    have hrun : (TransferResEvent text evt₀ usec gen).val =
        if evt.Mx < 0 ∨ evt.Man = [] then some []
        else if 1 < evt.Mx then (GetRandomNumber evt.Mx usec gen).map fun delay ↦
          [.usleep delay, .CallBackFn evt]
        else some [.CallBackFn evt] := by
      rw [TransferResEvent, val_bind, hval, Option.bind_some]
      dsimp only
      rw [if_pos hpos]
      simp only [h.search, true_and]
      split_ifs
      · rfl
      · rw [val_bind, val_follow, Option.map_eq_bind]
        rfl
      · rfl
    by_cases hrefused : evt.Mx < 0 ∨ evt.Man = []
    · rw [if_pos hrefused] at hrun
      refine ⟨hright, by rw [hrun]; exact Option.some_ne_none _, ?_⟩
      rintro acts hacts d hd
      obtain rfl := Option.some.inj (hrun.symm.trans hacts)
      cases hd
    · rw [if_neg hrefused] at hrun
      by_cases hlt : 1 < evt.Mx
      · obtain ⟨d, hd, hnonneg, hbound⟩ :=
          (hright (fun he ↦ hrefused (.inr he)) hlt).delay
        rw [if_pos hlt, hd, Option.map_some] at hrun
        refine ⟨hright, by rw [hrun]; exact Option.some_ne_none _, ?_⟩
        rintro acts hacts d' hd'
        obtain rfl := Option.some.inj (hrun.symm.trans hacts)
        simp only [List.mem_cons, Act.usleep.injEq, reduceCtorEq, List.not_mem_nil, or_self,
          or_false] at hd'
        subst hd'
        exact ⟨hlt, hnonneg, hbound⟩
      · rw [if_neg hlt] at hrun
        refine ⟨hright, by rw [hrun]; exact Option.some_ne_none _, ?_⟩
        rintro acts hacts d' hd'
        obtain rfl := Option.some.inj (hrun.symm.trans hacts)
        simp at hd'

/-- A generator that always gives the number. -/
def constantGenerator : Generator where
  rand _ := 7
  nonneg _ := by decide
  le_max _ := by decide

def searchText (mx : String) : CString :=
  "M-SEARCH * HTTP/1.1\r\nMAN:discover\r\nMX:".toList ++ mx.toList

def searchEvent (mx : Int) : Event :=
  { InitEvent with Cmd := .SEARCH, Mx := mx, Man := "discover".toList }

theorem replyDelayed_three :
    ReplyDelayed (searchText "3") InitEvent (searchEvent 3) 0 constantGenerator ↔
      DelayBounded (searchText "3") :=
  replyDelayed_iff _ _ _ ⟨⟨1, by decide +kernel, by decide⟩, rfl⟩ _ _

/-- The product with a million is a multiple of `2^32`: the divisor is zero. -/
theorem not_replyDelayed : ¬ ∀ text evt₀ evt usec gen,
    AcceptedSearch text { evt₀ with ErrCode := NO_ERROR_FOUND } evt →
      ReplyDelayed text evt₀ evt usec gen := by
  intro h
  have haccepted : AcceptedSearch (searchText "67108864") InitEvent (searchEvent 67108864) :=
    ⟨⟨1, by decide +kernel, by decide⟩, rfl⟩
  have hright := (h _ InitEvent _ 0 constantGenerator haccepted).computed (by decide) (by decide)
  exact absurd hright.divisor (by decide +kernel)

end Upnp.Ssdp
