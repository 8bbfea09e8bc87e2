import Upnp.Ssdp.NullPointers

/-!
# Accepted packets

`AnalyzeCommand` goes on behind a start line that `CheckHdr` refuses, and the parser function of
`ST` and `NT` clears the error.  When it refuses a packet for its start line, and
when an error that was found is still there behind the lines that follow.
-/

namespace Upnp.Ssdp

open Upnp.Lib Exec

variable {v line text : CString} {evt : Event} {lines : List CString} {a : Int × Event}

/-! ## What the parser functions change -/

/-- The fields of the event that are not names are the same. -/
structure Event.Keeps (evt evt' : Event) : Prop where
  ErrCode : evt'.ErrCode = evt.ErrCode
  Cmd : evt'.Cmd = evt.Cmd
  Mx : evt'.Mx = evt.Mx
  Man : evt'.Man = evt.Man

theorem Event.Keeps.refl (evt : Event) : evt.Keeps evt := ⟨rfl, rfl, rfl, rfl⟩

theorem Event.Keeps.trans {e₁ e₂ e₃ : Event} (h : e₁.Keeps e₂) (h' : e₂.Keeps e₃) :
    e₁.Keeps e₃ where
  ErrCode := h'.ErrCode.trans h.ErrCode
  Cmd := h'.Cmd.trans h.Cmd
  Mx := h'.Mx.trans h.Mx
  Man := h'.Man.trans h.Man

theorem uuidName_keeps {evt' : Event} {found : Bool}
    (h : (uuidName v evt).val = some (evt', found)) : evt.Keeps evt' := by
  rw [uuidName] at h
  cases hu : strstr v "uuid".toList with
  | none =>
    rw [hu] at h
    cases h
    exact .refl evt
  | some u =>
    cases hq : strstr v "::".toList with
    | none =>
      rw [hu, hq] at h
      cases h
      exact ⟨rfl, rfl, rfl, rfl⟩
    | some q =>
      rw [hu, hq] at h
      cases h
      exact ⟨rfl, rfl, rfl, rfl⟩

theorem typeName_keeps {kind : CString} {set : CString → Event → Event} {evt' : Event}
    {found : Bool} (h : (typeName kind set v evt).val = some (evt', found))
    (hset : ∀ s (evt : Event), evt.Keeps (set s evt)) : evt.Keeps evt' := by
  rw [typeName] at h
  by_cases hk : Contains v "urn:".toList ∧ Contains v kind
  · obtain ⟨u, hu⟩ := contains_urn hk.1
    rw [if_pos hk, hu] at h
    cases h
    exact hset u evt
  · rw [if_neg hk] at h
    cases h
    exact .refl evt

theorem Unique_Service_Name_keeps (h : (Unique_Service_Name v evt).val = some a) :
    evt.Keeps a.2 := by
  rw [Unique_Service_Name] at h
  by_cases hs : Contains v "uuid:schemas".toList
  · rw [if_pos hs] at h
    cases hc : thirdColon v with
    | none =>
      rw [schemasName_none hc] at h
      cases h
      exact .refl evt
    | some p =>
      obtain ⟨-, c, hcolon, -⟩ := thirdColon_some hc
      rw [schemasName_some hc hcolon] at h
      cases h
      exact ⟨rfl, rfl, rfl, rfl⟩
  · rw [if_neg hs] at h
    obtain ⟨e₁, h₁⟩ := uuidName_val v evt
    obtain ⟨e₂, h₂⟩ := typeName_val ":service:".toList
      (fun s evt ↦ { evt with ServiceType := s }) v e₁
    obtain ⟨e₃, h₃⟩ := typeName_val ":device:".toList
      (fun s evt ↦ { evt with DeviceType := s }) v e₂
    have hkeeps₁ : evt.Keeps e₁ := uuidName_keeps h₁
    have hkeeps₂ : e₁.Keeps e₂ := typeName_keeps h₂ fun _ _ ↦ ⟨rfl, rfl, rfl, rfl⟩
    have hkeeps₃ : e₂.Keeps e₃ := typeName_keeps h₃ fun _ _ ↦ ⟨rfl, rfl, rfl, rfl⟩
    have hkeeps : evt.Keeps e₃ := (hkeeps₁.trans hkeeps₂).trans hkeeps₃
    simp only [val_bind, h₁, h₂, h₃, Option.bind_some] at h
    split at h <;> cases h <;> exact hkeeps

/-- The headers whose parser function is `Request_Tpye`, which sets the error code to
`NO_ERROR_FOUND` first. -/
def Header.Clears (h : Header) : Prop := h = ST ∨ h = NT

instance (h : Header) : Decidable h.Clears := inferInstanceAs (Decidable (_ ∨ _))

/-- The value that is taken for `Mx`. -/
def mxOf (v : CString) : Int := atoi ((StrTok (some v) [':']).1.getD [])

/-- The fields that are no names behind a header that is taken. -/
structure Header.Taken (h : Header) (v : CString) (evt evt' : Event) : Prop where
  ErrCode : evt'.ErrCode = if h.Clears then NO_ERROR_FOUND else evt.ErrCode
  Mx : evt'.Mx = if h = .MX then mxOf v else evt.Mx
  Man : evt'.Man = if h = .MAN then v else evt.Man
  Cmd : evt'.Cmd = evt.Cmd ∨ evt'.Cmd = .ALIVE ∨ evt'.Cmd = .BYEBYE

theorem neg_one_not_nonneg : ¬ 0 ≤ (-1 : Int) := by decide

theorem storeText_taken {f : CString → Event → Event} (ha : (storeText f v evt).val = some a)
    (hpos : 0 ≤ a.1) : a.2 = f v evt := by
  rw [storeText] at ha
  split at ha
  · cases ha
    rfl
  · cases ha
    exact absurd hpos neg_one_not_nonneg

theorem Request_Tpye_taken (ha : (Request_Tpye v evt).val = some a) (hpos : 0 ≤ a.1) :
    a.2.ErrCode = NO_ERROR_FOUND ∧ a.2.Mx = evt.Mx ∧ a.2.Man = evt.Man ∧
      a.2.Cmd = evt.Cmd := by
  obtain ⟨b, hb⟩ := Unique_Service_Name_isSome v evt
  have hkeeps := Unique_Service_Name_keeps hb
  rw [Request_Tpye, val_bind, hb, Option.bind_some] at ha
  split_ifs at ha
  all_goals cases ha
  any_goals exact ⟨rfl, hkeeps.Mx, hkeeps.Man, hkeeps.Cmd⟩
  exact absurd hpos neg_one_not_nonneg

theorem Max_Delay_taken (ha : (Max_Delay v evt).val = some a) (hpos : 0 ≤ a.1) :
    a.2 = { evt with Mx := mxOf v } := by
  obtain ⟨w, hw⟩ := StrTok_some v [':']
  rw [Max_Delay] at ha
  simp only [hw] at ha
  rw [mxOf, hw]
  split_ifs at ha
  · cases ha
    exact absurd hpos neg_one_not_nonneg
  · cases ha
    rfl
  · cases ha
    exact absurd hpos neg_one_not_nonneg

/-- What a parser function does to the event when it takes the value. -/
theorem Header.parse_taken {h : Header} (ha : (h.parse v evt).val = some a) (hpos : 0 ≤ a.1) :
    h.Taken v evt a.2 := by
  cases h with
  | CACHE_CONTROL =>
    rw [parse, Cache_Control] at ha
    split at ha
    · split at ha
      · cases ha
        exact ⟨rfl, rfl, rfl, .inl rfl⟩
      · cases ha
        exact absurd hpos neg_one_not_nonneg
    · cases ha
      exact absurd hpos neg_one_not_nonneg
  | ST =>
    obtain ⟨herr, hmx, hman, hcmd⟩ := Request_Tpye_taken ha hpos
    exact ⟨herr, hmx, hman, .inl hcmd⟩
  | LOCATION =>
    rw [parse, Location_Header] at ha
    split at ha
    · cases ha
      exact ⟨rfl, rfl, rfl, .inl rfl⟩
    · cases ha
      exact absurd hpos neg_one_not_nonneg
  | HOST =>
    rw [storeText_taken ha hpos]
    exact ⟨rfl, rfl, rfl, .inl rfl⟩
  | USN =>
    have hkeeps := Unique_Service_Name_keeps ha
    exact ⟨hkeeps.ErrCode, hkeeps.Mx, hkeeps.Man, .inl hkeeps.Cmd⟩
  | NT =>
    obtain ⟨herr, hmx, hman, hcmd⟩ := Request_Tpye_taken ha hpos
    exact ⟨herr, hmx, hman, .inl hcmd⟩
  | NTS =>
    simp only [parse, Notification_Sub_Type, val_bind, val_follow] at ha
    cases hw : (StrTok (StrTok (some v) [':']).2 [':']).1 with
    | none =>
      rw [hw] at ha
      cases ha
    | some w =>
      rw [hw, Option.bind_some] at ha
      split_ifs at ha
      all_goals cases ha
      · exact ⟨rfl, rfl, rfl, .inr (.inl rfl)⟩
      · exact ⟨rfl, rfl, rfl, .inr (.inr rfl)⟩
      · exact absurd hpos neg_one_not_nonneg
  | EXT =>
    rw [parse, Fun_Ext] at ha
    split at ha <;> cases ha <;> exact ⟨rfl, rfl, rfl, .inl rfl⟩
  | SERVER =>
    rw [storeText_taken ha hpos]
    exact ⟨rfl, rfl, rfl, .inl rfl⟩
  | MAN =>
    rw [storeText_taken ha hpos]
    exact ⟨rfl, rfl, rfl, .inl rfl⟩
  | MX =>
    rw [Max_Delay_taken ha hpos]
    exact ⟨rfl, rfl, rfl, .inl rfl⟩
  | DATE =>
    rw [storeText_taken ha hpos]
    exact ⟨rfl, rfl, rfl, .inl rfl⟩

/-- A value that is refused leaves the error code, or sets it. -/
theorem Header.parse_refused {h : Header} (ha : (h.parse v evt).val = some a) (hneg : a.1 < 0)
    (herr : evt.ErrCode = E_HTTP_SYNTEX) : a.2.ErrCode = E_HTTP_SYNTEX := by
  have hstore : ∀ f : CString → Event → Event, (storeText f v evt).val = some a →
      a.2.ErrCode = E_HTTP_SYNTEX := by
    intro f hf
    rw [storeText] at hf
    split at hf
    · cases hf
      exact absurd hneg (not_lt.mpr Int.one_nonneg)
    · cases hf
      rfl
  have htarget : (Request_Tpye v evt).val = some a → a.2.ErrCode = E_HTTP_SYNTEX := by
    intro hf
    obtain ⟨b, hb⟩ := Unique_Service_Name_isSome v evt
    rw [Request_Tpye, val_bind, hb, Option.bind_some] at hf
    split_ifs at hf
    all_goals cases hf
    · exact absurd hneg (not_lt.mpr Int.one_nonneg)
    · exact absurd hneg (not_lt.mpr Int.one_nonneg)
    · exact absurd hneg (not_lt.mpr Int.one_nonneg)
    · exact absurd hneg (not_lt.mpr Int.one_nonneg)
    · exact absurd hneg (not_lt.mpr Int.one_nonneg)
    · rfl
  cases h with
  | CACHE_CONTROL =>
    rw [parse, Cache_Control] at ha
    split at ha
    · split at ha
      · cases ha
        exact herr
      · cases ha
        exact herr
    · cases ha
      rfl
  | ST => exact htarget ha
  | LOCATION =>
    rw [parse, Location_Header] at ha
    split at ha
    · cases ha
      exact herr
    · cases ha
      rfl
  | HOST => exact hstore _ ha
  | USN => exact (Unique_Service_Name_keeps ha).ErrCode.trans herr
  | NT => exact htarget ha
  | NTS =>
    simp only [parse, Notification_Sub_Type, val_bind, val_follow] at ha
    cases hw : (StrTok (StrTok (some v) [':']).2 [':']).1 with
    | none =>
      rw [hw] at ha
      cases ha
    | some w =>
      rw [hw, Option.bind_some] at ha
      split_ifs at ha
      all_goals cases ha
      any_goals exact herr
      rfl
  | EXT =>
    rw [parse, Fun_Ext] at ha
    split at ha <;> cases ha <;> exact herr
  | SERVER => exact hstore _ ha
  | MAN => exact hstore _ ha
  | MX =>
    obtain ⟨w, hw⟩ := StrTok_some v [':']
    rw [parse, Max_Delay] at ha
    simp only [hw] at ha
    split_ifs at ha
    · cases ha
      rfl
    · cases ha
      exact herr
    · cases ha
      rfl
  | DATE => exact hstore _ ha

/-! ## The loop over the lines -/

section Loop

variable {size k k' : Nat} {retVal : Int} {hd : Header} {r r' : Int × Event}

/-- A line whose name is not known is passed over. -/
theorem headerLoop_unknown (h : findHeader (lineName line) = none) :
    (headerLoop size (line :: lines) retVal evt).val = (headerLoop size lines retVal evt).val := by
  obtain ⟨w, hw⟩ := StrTok_some line [':']
  rw [lineName, hw] at h
  rw [headerLoop]
  simp only [val_bind, val_copy, val_follow, hw, Option.bind_some]
  change findHeader w = none at h
  rw [h]

/-- A header that is known ends the loop when its value is refused. -/
theorem headerLoop_known (h : findHeader (lineName line) = some hd) :
    (headerLoop size (line :: lines) retVal evt).val =
      (strchr line ':').bind fun v ↦ (hd.parse (v.drop 1) evt).val.bind fun a ↦
        if a.1 < 0 then some (-1, a.2) else (headerLoop size lines a.1 a.2).val := by
  obtain ⟨w, hw⟩ := StrTok_some line [':']
  rw [lineName, hw] at h
  rw [headerLoop]
  simp only [val_bind, val_copy, val_follow, hw, Option.bind_some]
  change findHeader w = some hd at h
  rw [h]
  simp only [val_bind, val_follow]
  congr 1
  funext v
  congr 1
  funext a
  split <;> rfl

/-- The loop over lines and then over more lines. -/
theorem headerLoop_append {more : List CString} (hret : 0 ≤ retVal) :
    (headerLoop size (lines ++ more) retVal evt).val =
      (headerLoop size lines retVal evt).val.bind fun r ↦
        if r.1 < 0 then some (-1, r.2) else (headerLoop size more r.1 r.2).val := by
  induction lines generalizing retVal evt with
  | nil =>
    rw [List.nil_append, headerLoop, val_pure, Option.bind_some, if_neg (not_lt.mpr hret)]
  | cons line lines ih =>
    rw [List.cons_append]
    cases hh : findHeader (lineName line) with
    | none => rw [headerLoop_unknown hh, headerLoop_unknown hh, ih hret]
    | some hd =>
      rw [headerLoop_known hh, headerLoop_known hh]
      cases strchr line ':' with
      | none => rfl
      | some v =>
        simp only [Option.bind_some]
        cases (hd.parse (v.drop 1) evt).val with
        | none => rfl
        | some a =>
          simp only [Option.bind_some]
          by_cases hneg : a.1 < 0
          · rw [if_pos hneg, if_pos hneg, Option.bind_some, if_pos neg_one_lt_zero]
          · rw [if_neg hneg, if_neg hneg, ih (not_lt.mp hneg)]

/-- The headers of known names all have a colon, and their values are taken. -/
def HeadersTaken : List CString → Prop
  | [] => True
  | line :: lines =>
    match findHeader (lineName line) with
    | none => HeadersTaken lines
    | some h => ∃ v, strchr line ':' = some v ∧ h.Passes (v.drop 1) ∧ HeadersTaken lines

/-- A header that clears the error is reached and taken. -/
def ErrorCleared : List CString → Prop
  | [] => False
  | line :: lines =>
    match findHeader (lineName line) with
    | none => ErrorCleared lines
    | some h => ∃ v, strchr line ':' = some v ∧ h.Passes (v.drop 1) ∧
      (h.Clears ∨ ErrorCleared lines)

theorem headersTaken_unknown (h : findHeader (lineName line) = none) :
    HeadersTaken (line :: lines) ↔ HeadersTaken lines := by
  rw [HeadersTaken, h]

theorem headersTaken_known (h : findHeader (lineName line) = some hd) :
    HeadersTaken (line :: lines) ↔
      ∃ v, strchr line ':' = some v ∧ hd.Passes (v.drop 1) ∧ HeadersTaken lines := by
  rw [HeadersTaken, h]

theorem errorCleared_unknown (h : findHeader (lineName line) = none) :
    ErrorCleared (line :: lines) ↔ ErrorCleared lines := by
  rw [ErrorCleared, h]

theorem errorCleared_known (h : findHeader (lineName line) = some hd) :
    ErrorCleared (line :: lines) ↔ ∃ v, strchr line ':' = some v ∧ hd.Passes (v.drop 1) ∧
      (hd.Clears ∨ ErrorCleared lines) := by
  rw [ErrorCleared, h]

/-- The loop succeeds exactly when every header is taken. -/
theorem headerLoop_nonneg (hret : 0 ≤ retVal) :
    (∃ r ∈ (headerLoop size lines retVal evt).val, 0 ≤ r.1) ↔ HeadersTaken lines := by
  induction lines generalizing retVal evt with
  | nil => exact iff_of_true ⟨_, rfl, hret⟩ trivial
  | cons line lines ih =>
    cases hh : findHeader (lineName line) with
    | none => rw [headerLoop_unknown hh, headersTaken_unknown hh, ih hret]
    | some hd =>
      rw [headerLoop_known hh, headersTaken_known hh]
      cases strchr line ':' with
      | none => simp
      | some v =>
        simp only [Option.bind_some, Option.some.injEq, exists_eq_left']
        rw [← Header.parse_val hd _ evt]
        cases (hd.parse (v.drop 1) evt).val with
        | none => simp
        | some a =>
          simp only [Option.bind_some, Option.mem_some_iff, exists_eq_left']
          by_cases hneg : a.1 < 0
          · rw [if_pos hneg]
            simp [not_le.mpr hneg]
          · rw [if_neg hneg, and_iff_right (not_lt.mp hneg)]
            exact ih (not_lt.mp hneg)

/-- Without an error there is one only where the loop stops. -/
theorem headerLoop_no_error (hret : 0 ≤ retVal) (herr : evt.ErrCode = NO_ERROR_FOUND)
    (h : (headerLoop size lines retVal evt).val = some r) (hpos : 0 ≤ r.1) :
    r.2.ErrCode = NO_ERROR_FOUND := by
  induction lines generalizing retVal evt with
  | nil =>
    cases h
    exact herr
  | cons line lines ih =>
    cases hh : findHeader (lineName line) with
    | none => exact ih hret herr ((headerLoop_unknown hh).symm.trans h)
    | some hd =>
      rw [headerLoop_known hh] at h
      obtain ⟨v, -, h⟩ := Option.bind_eq_some_iff.mp h
      obtain ⟨a, ha, h⟩ := Option.bind_eq_some_iff.mp h
      by_cases hneg : a.1 < 0
      · rw [if_pos hneg] at h
        cases h
        exact absurd hpos neg_one_not_nonneg
      · rw [if_neg hneg] at h
        have herr' := (Header.parse_taken ha (not_lt.mp hneg)).ErrCode
        refine ih (not_lt.mp hneg) ?_ h
        rw [herr']
        split
        · rfl
        · exact herr

/-- An error stays when no header clears it. -/
theorem headerLoop_keeps_error (hclear : ¬ ErrorCleared lines)
    (herr : evt.ErrCode = E_HTTP_SYNTEX)
    (h : (headerLoop size (lines.take k) retVal evt).val = some r) :
    r.2.ErrCode = E_HTTP_SYNTEX := by
  induction lines generalizing retVal evt k with
  | nil =>
    rw [List.take_nil] at h
    cases h
    exact herr
  | cons line lines ih =>
    cases k with
    | zero =>
      cases h
      exact herr
    | succ k =>
      rw [List.take_succ_cons] at h
      cases hh : findHeader (lineName line) with
      | none =>
        rw [headerLoop_unknown hh] at h
        exact ih ((errorCleared_unknown hh).not.mp hclear) herr h
      | some hd =>
        rw [headerLoop_known hh] at h
        obtain ⟨v, hv, h⟩ := Option.bind_eq_some_iff.mp h
        obtain ⟨a, ha, h⟩ := Option.bind_eq_some_iff.mp h
        by_cases hneg : a.1 < 0
        · rw [if_pos hneg] at h
          obtain rfl := Option.some.inj h
          exact @Header.parse_refused _ _ a _ ha hneg herr
        · rw [if_neg hneg] at h
          have hpasses := (Header.parse_val hd _ evt).mp ⟨a, ha, not_lt.mp hneg⟩
          have hrest : ¬ (hd.Clears ∨ ErrorCleared lines) := fun hc ↦
            hclear ((errorCleared_known hh).mpr ⟨v, hv, hpasses, hc⟩)
          refine ih (fun hc ↦ hrest (.inr hc)) ?_ h
          rw [(Header.parse_taken ha (not_lt.mp hneg)).ErrCode,
            if_neg fun hc ↦ hrest (.inl hc), herr]

/-- An error is gone behind a header that clears it. -/
theorem headerLoop_clears_error (hclear : ErrorCleared lines) :
    ∃ k r, (headerLoop size (lines.take k) retVal evt).val = some r ∧
      r.2.ErrCode = NO_ERROR_FOUND := by
  induction lines generalizing retVal evt with
  | nil => exact hclear.elim
  | cons line lines ih =>
    cases hh : findHeader (lineName line) with
    | none =>
      obtain ⟨k, r, hr, hcode⟩ := ih ((errorCleared_unknown hh).mp hclear)
      refine ⟨k + 1, r, ?_, hcode⟩
      rw [List.take_succ_cons, headerLoop_unknown hh, hr]
    | some hd =>
      obtain ⟨v, hv, hpasses, hrest⟩ := (errorCleared_known hh).mp hclear
      obtain ⟨a, ha, hpos⟩ := (Header.parse_val hd _ evt).mpr hpasses
      have hstep : ∀ k, (headerLoop size ((line :: lines).take (k + 1)) retVal evt).val =
          (headerLoop size (lines.take k) a.1 a.2).val := by
        intro k
        rw [List.take_succ_cons, headerLoop_known hh, hv, Option.bind_some, ha, Option.bind_some,
          if_neg (not_lt.mpr hpos)]
      rcases hrest with hclears | hrest
      · refine ⟨1, a, ?_, ?_⟩
        · rw [hstep 0]
          rfl
        · rw [(Header.parse_taken ha hpos).ErrCode, if_pos hclears]
      · obtain ⟨k, r, hr, hcode⟩ := ih hrest
        exact ⟨k + 1, r, (hstep k).trans hr, hcode⟩

end Loop

/-! ## Start lines -/

/-- The second and the third word are there, and contain what they should. -/
def HasForm (second third : CString) (tmp : Option CString) : Prop :=
  ∃ w₂, (StrTok tmp [' ']).1 = some w₂ ∧ Contains w₂ second ∧
    ∃ w₃, (StrTok (StrTok tmp [' ']).2 [' ']).1 = some w₃ ∧ Contains w₃ third

/-- The start lines that `CheckHdr` recognises: `M-SEARCH * HTTP/1.1`, `NOTIFY * HTTP/1.1` and
`HTTP/1.1 200 OK`. -/
def StartLine (line : CString) : Prop :=
  ∃ w, (StrTok (some line) [' ']).1 = some w ∧
    if Contains w "M-SEARCH".toList ∨ Contains w "NOTIFY".toList then
      HasForm ['*'] "HTTP/1.1".toList (StrTok (some line) [' ']).2
    else Contains w "HTTP/1.1".toList ∧
      HasForm "200".toList "OK".toList (StrTok (some line) [' ']).2

theorem checkWords_val {second third : CString} {c : CmdType} {tmp : Option CString}
    (h : (checkWords second third c tmp evt).val = some a) :
    (HasForm second third tmp → a.2.ErrCode = evt.ErrCode) ∧
      (¬ HasForm second third tmp → a.2.ErrCode = E_HTTP_SYNTEX) := by
  rw [HasForm]
  generalize h₁ : StrTok tmp [' '] = t₁ at *
  generalize h₂ : StrTok t₁.2 [' '] = t₂ at *
  simp only [checkWords, h₁, h₂, val_bind, val_follow] at h
  obtain ⟨w₂, hw₂, h⟩ := Option.bind_eq_some_iff.mp h
  by_cases hc₂ : Contains w₂ second
  · rw [if_pos hc₂] at h
    obtain ⟨w₃, hw₃, h⟩ := Option.bind_eq_some_iff.mp h
    beta_reduce at h
    by_cases hc₃ : Contains w₃ third
    · rw [if_pos hc₃] at h
      cases h
      exact ⟨fun _ ↦ rfl, fun hn ↦ absurd ⟨w₂, hw₂, hc₂, w₃, hw₃, hc₃⟩ hn⟩
    · rw [if_neg hc₃] at h
      cases h
      refine ⟨?_, fun _ ↦ rfl⟩
      rintro ⟨_, _, _, w, hw, hcw⟩
      obtain rfl := Option.some.inj (hw.symm.trans hw₃)
      exact absurd hcw hc₃
  · rw [if_neg hc₂] at h
    cases h
    refine ⟨?_, fun _ ↦ rfl⟩
    rintro ⟨w, hw, hcw, -⟩
    obtain rfl := Option.some.inj (hw.symm.trans hw₂)
    exact absurd hcw hc₂

/-- `CheckHdr` records an error for every start line that it does not recognise. -/
theorem CheckHdr_val (h : (CheckHdr line InitEvent).val = some a) :
    (StartLine line → a.2.ErrCode = NO_ERROR_FOUND) ∧
      (¬ StartLine line → a.2.ErrCode = E_HTTP_SYNTEX) := by
  obtain ⟨w, hw⟩ := StrTok_some line [' ']
  simp only [StartLine, hw, Option.some.injEq, exists_eq_left']
  simp only [CheckHdr, hw, val_bind, val_copy, val_follow, Option.bind_some] at h
  by_cases hm : Contains w "M-SEARCH".toList
  · rw [if_pos hm] at h
    rw [if_pos (.inl hm)]
    exact checkWords_val h
  · rw [if_neg hm] at h
    by_cases hn : Contains w "NOTIFY".toList
    · rw [if_pos hn] at h
      rw [if_pos (.inr hn)]
      exact checkWords_val h
    · rw [if_neg hn] at h
      rw [if_neg (not_or.mpr ⟨hm, hn⟩)]
      by_cases hh : Contains w "HTTP/1.1".toList
      · rw [if_pos hh] at h
        rw [and_iff_right hh]
        exact checkWords_val h
      · rw [if_neg hh] at h
        cases h
        exact ⟨fun hs ↦ absurd hs.1 hh, fun _ ↦ rfl⟩

theorem checkWords_keeps {second third : CString} {c : CmdType} {tmp : Option CString}
    (h : (checkWords second third c tmp evt).val = some a) :
    a.2.Mx = evt.Mx ∧ a.2.Man = evt.Man ∧ (a.2.Cmd = c ∨ a.2.Cmd = evt.Cmd) := by
  generalize h₁ : StrTok tmp [' '] = t₁ at *
  generalize h₂ : StrTok t₁.2 [' '] = t₂ at *
  simp only [checkWords, h₁, h₂, val_bind, val_follow] at h
  obtain ⟨w₂, hw₂, h⟩ := Option.bind_eq_some_iff.mp h
  split at h
  · obtain ⟨w₃, hw₃, h⟩ := Option.bind_eq_some_iff.mp h
    beta_reduce at h
    split at h
    · cases h
      exact ⟨rfl, rfl, .inl rfl⟩
    · cases h
      exact ⟨rfl, rfl, .inr rfl⟩
  · cases h
    exact ⟨rfl, rfl, .inr rfl⟩

theorem CheckHdr_keeps (h : (CheckHdr line evt).val = some a) :
    a.2.Mx = evt.Mx ∧ a.2.Man = evt.Man ∧ ∃ c ≠ CmdType.TIMEOUT,
      a.2.Cmd = c ∨ a.2.Cmd = evt.Cmd := by
  obtain ⟨w, hw⟩ := StrTok_some line [' ']
  simp only [CheckHdr, hw, val_bind, val_copy, val_follow, Option.bind_some] at h
  have hwords : ∀ {second third : CString} {c : CmdType} {tmp : Option CString},
      c ≠ .TIMEOUT → (checkWords second third c tmp evt).val = some a →
        a.2.Mx = evt.Mx ∧ a.2.Man = evt.Man ∧ ∃ c ≠ CmdType.TIMEOUT,
          a.2.Cmd = c ∨ a.2.Cmd = evt.Cmd := by
    intro second third c tmp hc h
    obtain ⟨hmx, hman, hcmd⟩ := checkWords_keeps h
    exact ⟨hmx, hman, c, hc, hcmd⟩
  split_ifs at h
  · exact hwords (by decide) h
  · exact hwords (by decide) h
  · exact hwords (by decide) h
  · cases h
    exact ⟨rfl, rfl, .OK, by decide, .inr rfl⟩

/-! ## The analysis of a packet -/

/-- The analysis, up to the header line with number `k`. -/
def processed (text : CString) (k : Nat) : Exec (Int × Event) :=
  match crlfLines text with
  | [] => fault
  | first :: lines => do
    let (_, evt) ← CheckHdr first InitEvent
    headerLoop (text.length + 2) (lines.take k) 1 evt

/-- What is to hold of the analysis of a text: it succeeds only with a start line that is
recognised and with all its headers taken, and an error is not overwritten. -/
structure WellDecided (text : CString) (evt : Event) : Prop where
  success : ∀ r, (AnalyzeCommand text evt).val = some r → 0 ≤ r.1 →
    ∀ first lines, crlfLines text = first :: lines → StartLine first ∧ HeadersTaken lines
  errors : ∀ k k' r r', k ≤ k' → (processed text k).val = some r →
    (processed text k').val = some r' → r.2.ErrCode ≠ NO_ERROR_FOUND →
      r'.2.ErrCode = r.2.ErrCode

/-- The start line is recognised, or ends the run; or else one of the headers is refused, and none
in front of that clears the error. -/
def RefusedAnyway (text : CString) : Prop :=
  ∀ first lines, crlfLines text = first :: lines → FirstLine first →
    StartLine first ∨ ¬ HeadersTaken lines ∧ ¬ ErrorCleared lines

theorem processed_val {first : CString} (h : crlfLines text = first :: lines) (k : Nat) :
    (processed text k).val = (CheckHdr first InitEvent).val.bind fun a ↦
      (headerLoop (text.length + 2) (lines.take k) 1 a.2).val := by
  rw [processed, h]
  rfl

theorem AnalyzeCommand_val {first : CString} (htext : text ≠ [])
    (h : crlfLines text = first :: lines) :
    (AnalyzeCommand text evt).val = (CheckHdr first InitEvent).val.bind fun a ↦
      (headerLoop (text.length + 2) lines 1 a.2).val := by
  rw [AnalyzeCommand, if_neg (List.length_eq_zero_iff.not.mpr htext)]
  simp only [val_bind, val_copy, storeLoop_val, tokens_eq, h, Option.bind_some]
  cases hhdr : (CheckHdr first InitEvent).val with
  | none => rfl
  | some a =>
    have hne : a.1 ≠ 0 := CheckHdr_ne_zero a hhdr
    simp only [Option.bind_some, if_pos hne]

/-- The analysis is over when all the lines are processed. -/
theorem processed_all {first : CString} (htext : text ≠ []) (h : crlfLines text = first :: lines) :
    (processed text lines.length).val = (AnalyzeCommand text evt).val := by
  rw [processed_val h, AnalyzeCommand_val htext h, List.take_length]

/-- Where the loop stops it stops with more lines, too. -/
theorem headerLoop_take {size k k' : Nat} {retVal : Int} {r r' : Int × Event} (hk : k ≤ k')
    (hret : 0 ≤ retVal) (h : (headerLoop size (lines.take k) retVal evt).val = some r)
    (h' : (headerLoop size (lines.take k') retVal evt).val = some r') (hneg : r.1 < 0) :
    r'.2 = r.2 := by
  obtain ⟨d, rfl⟩ := Nat.exists_eq_add_of_le hk
  rw [List.take_add, headerLoop_append hret, h, Option.bind_some, if_pos hneg] at h'
  cases h'
  rfl

/-- For every text, the analysis succeeds and keeps errors as it should exactly when the text is
empty, its start line is recognised or it is refused for another line. -/
theorem wellDecided_iff (text : CString) (evt : Event) :
    WellDecided text evt ↔ text = [] ∨ RefusedAnyway text := by
  obtain ⟨first, lines, hlines⟩ := List.exists_cons_of_ne_nil (crlfLines_ne_nil text)
  have honly : ∀ {P : CString → List CString → Prop},
      (∀ first' lines', crlfLines text = first' :: lines' → P first' lines') ↔ P first lines := by
    intro P
    refine ⟨fun h ↦ h first lines hlines, ?_⟩
    intro h first' lines' heq
    obtain ⟨rfl, rfl⟩ := List.cons.inj (hlines.symm.trans heq)
    exact h
  rw [RefusedAnyway, honly]
  constructor
  · intro h
    by_cases htext : text = []
    · exact .inl htext
    · refine .inr fun hfirst ↦ or_iff_not_imp_left.mpr fun hstart ↦ ?_
      obtain ⟨a, ha⟩ := Option.isSome_iff_exists.mp ((@CheckHdr_isSome _ InitEvent).mpr hfirst)
      have herr := (CheckHdr_val ha).2 hstart
      constructor
      · intro htaken
        obtain ⟨r, hr, hpos⟩ := (@headerLoop_nonneg a.2 lines (text.length + 2) 1
          Int.one_nonneg).mpr htaken
        have hval : (AnalyzeCommand text evt).val = some r := by
          rw [AnalyzeCommand_val htext hlines, ha, Option.bind_some, hr]
        exact hstart (h.success r hval hpos first lines hlines).1
      · intro hclear
        obtain ⟨k, r, hr, hcode⟩ := @headerLoop_clears_error a.2 lines (text.length + 2) 1 hclear
        have hzero : (processed text 0).val = some (1, a.2) := by
          rw [processed_val hlines, ha]
          rfl
        have hk : (processed text k).val = some r := by
          rw [processed_val hlines, ha, Option.bind_some, hr]
        have hkept := h.errors 0 k _ r (Nat.zero_le k) hzero hk (by rw [herr]; decide)
        rw [hcode, herr] at hkept
        exact absurd hkept (by decide)
  · intro h
    constructor
    · intro r hr hpos
      rw [honly]
      rcases h with rfl | h
      · cases hr
        exact absurd hpos neg_one_not_nonneg
      · by_cases htext : text = []
        · subst htext
          cases hr
          exact absurd hpos neg_one_not_nonneg
        · rw [AnalyzeCommand_val htext hlines] at hr
          obtain ⟨a, ha, hr⟩ := Option.bind_eq_some_iff.mp hr
          have hfirst := (@CheckHdr_isSome _ InitEvent).mp (Option.isSome_of_mem ha)
          have htaken := (headerLoop_nonneg Int.one_nonneg).mp ⟨r, hr, hpos⟩
          exact ⟨(h hfirst).resolve_right fun hno ↦ hno.1 htaken, htaken⟩
    · intro k k' r r' hk hr hr' hcode
      rw [processed_val hlines] at hr hr'
      obtain ⟨a, ha, hr⟩ := Option.bind_eq_some_iff.mp hr
      rw [ha, Option.bind_some] at hr'
      have hfirst := (@CheckHdr_isSome _ InitEvent).mp (Option.isSome_of_mem ha)
      by_cases hstart : StartLine first
      · -- the first error ends the loop
        have hneg : r.1 < 0 := by
          refine not_le.mp fun hpos ↦ hcode ?_
          exact headerLoop_no_error Int.one_nonneg ((CheckHdr_val ha).1 hstart) hr hpos
        rw [headerLoop_take hk Int.one_nonneg hr hr' hneg]
      · have hclear : ¬ ErrorCleared lines := by
          rcases h with rfl | h
          · cases hlines
            exact id
          · exact ((h hfirst).resolve_left hstart).2
        have herr := (CheckHdr_val ha).2 hstart
        rw [headerLoop_keeps_error hclear herr hr, headerLoop_keeps_error hclear herr hr']

/-- A start line of one word that is none of those expected, and a search target. -/
theorem not_wellDecided : ¬ ∀ text evt, WellDecided text evt := by
  intro h
  have hlines : crlfLines "HELLO\r\nST:ssdp:all".toList =
      ["HELLO".toList, "ST:ssdp:all".toList] := by decide +kernel
  have hval : ∃ r, (AnalyzeCommand "HELLO\r\nST:ssdp:all".toList InitEvent).val = some r ∧
      0 ≤ r.1 := by
    refine ⟨(1, { InitEvent with RequestType := .ALL }), ?_, by decide⟩
    decide +kernel
  obtain ⟨r, hr, hpos⟩ := hval
  obtain ⟨⟨w, hw, hform⟩, -⟩ := (h _ InitEvent).success r hr hpos _ _ hlines
  have hword : w = "HELLO".toList := Option.some.inj (hw.symm.trans (by decide +kernel))
  subst hword
  rw [if_neg (by decide +kernel)] at hform
  exact absurd hform.1 (by decide +kernel)

end Upnp.Ssdp
