import Upnp.Ssdp.Bounds

/-!
# Null pointers in the SSDP parser

When the analysis of a text comes to its end: the first line has its words, and
every header that is reached has a colon, and a second one where it is `NTS`.
-/

namespace Upnp.Ssdp

open Upnp.Lib Exec

variable {v line : CString} {evt : Event} {lines : List CString}

/-- The parts of the value that the parser function goes through are there. -/
def Header.Complete (v : CString) : Header → Prop
  | NTS => (StrTok (StrTok (some v) [':']).2 [':']).1 ≠ none
  | _ => True

/-- The headers are complete, up to the one with which the parser stops. -/
def HeadersComplete : List CString → Prop
  | [] => True
  | line :: lines =>
    match findHeader (lineName line) with
    | none => HeadersComplete lines
    | some h => ∃ v, strchr line ':' = some v ∧
      h.Complete (v.drop 1) ∧ (h.Passes (v.drop 1) → HeadersComplete lines)

theorem storeText_isSome {f : CString → Event → Event} : (storeText f v evt).val.isSome := by
  rw [storeText]
  split <;> rfl

theorem Request_Tpye_isSome : (Request_Tpye v evt).val.isSome := by
  obtain ⟨a, ha⟩ := Unique_Service_Name_isSome v evt
  rw [Request_Tpye, val_bind, ha, Option.bind_some]
  split_ifs <;> rfl

/-- Of the parser functions only the one of `NTS` can follow a null pointer. -/
theorem Header.parse_isSome (h : Header) (v : CString) (evt : Event) :
    (h.parse v evt).val.isSome ↔ h.Complete v := by
  cases h with
  | CACHE_CONTROL =>
    refine iff_of_true ?_ trivial
    rw [parse, Cache_Control]
    split
    · split <;> rfl
    · rfl
  | ST => exact iff_of_true Request_Tpye_isSome trivial
  | LOCATION =>
    refine iff_of_true ?_ trivial
    rw [parse, Location_Header]
    split <;> rfl
  | HOST => exact iff_of_true storeText_isSome trivial
  | USN =>
    obtain ⟨a, ha⟩ := Unique_Service_Name_isSome v evt
    exact iff_of_true (Option.isSome_iff_exists.mpr ⟨a, ha⟩) trivial
  | NT => exact iff_of_true Request_Tpye_isSome trivial
  | NTS =>
    rw [Complete]
    simp only [parse, Notification_Sub_Type, val_bind, val_follow]
    cases (StrTok (StrTok (some v) [':']).2 [':']).1 with
    | none => exact iff_of_false Bool.false_ne_true fun h ↦ h rfl
    | some w =>
      refine iff_of_true ?_ (Option.some_ne_none w)
      rw [Option.bind_some]
      split_ifs <;> rfl
  | EXT =>
    refine iff_of_true ?_ trivial
    rw [parse, Fun_Ext]
    split <;> rfl
  | SERVER => exact iff_of_true storeText_isSome trivial
  | MAN => exact iff_of_true storeText_isSome trivial
  | MX =>
    refine iff_of_true ?_ trivial
    obtain ⟨w, hw⟩ := StrTok_some v [':']
    simp only [parse, Max_Delay, hw]
    split_ifs <;> rfl
  | DATE => exact iff_of_true storeText_isSome trivial

theorem headerLoop_isSome (size : Nat) (retVal : Int) (evt : Event) :
    (headerLoop size lines retVal evt).val.isSome ↔ HeadersComplete lines := by
  induction lines generalizing retVal evt with
  | nil => exact iff_of_true rfl trivial
  | cons line lines ih =>
    obtain ⟨w, hw⟩ := StrTok_some line [':']
    have hname : lineName line = w := by
      rw [lineName, hw]
      rfl
    rw [headerLoop, HeadersComplete, hname]
    simp only [val_bind, val_copy, val_follow, hw, Option.bind_some]
    cases findHeader w with
    | none => exact ih retVal evt
    | some h =>
      simp only [val_bind, val_follow]
      cases strchr line ':' with
      | none => simp
      | some cmd =>
        simp only [Option.bind_some, Option.some.injEq, exists_eq_left']
        rw [← Header.parse_isSome h _ evt, ← Header.parse_val h _ evt]
        cases (h.parse (cmd.drop 1) evt).val with
        | none => simp
        | some a =>
          simp only [Option.bind_some, Option.isSome_some, Option.mem_some_iff, exists_eq_left',
            true_and]
          split
          · rename_i hneg
            exact iff_of_true rfl fun hpos ↦ absurd hneg (not_lt.mpr hpos)
          · rename_i hpos
            rw [ih a.1 a.2]
            exact ⟨fun h _ ↦ h, fun h ↦ h (not_lt.mp hpos)⟩

theorem firstLine_nil : FirstLine [] := by
  apply (@CheckHdr_isSome [] InitEvent).mp
  decide +kernel

/-- The analysis of a text follows no null pointer exactly when its first line has its words and
its headers are complete. -/
theorem AnalyzeCommand_isSome (text : CString) (evt : Event) :
    (AnalyzeCommand text evt).val.isSome ↔
      ∀ first lines, crlfLines text = first :: lines → FirstLine first ∧ HeadersComplete lines := by
  rw [AnalyzeCommand]
  split
  · rename_i h
    obtain rfl := List.length_eq_zero_iff.mp h
    refine iff_of_true rfl ?_
    rintro first lines ⟨⟩
    exact ⟨firstLine_nil, trivial⟩
  · obtain ⟨first, lines, hlines⟩ := List.exists_cons_of_ne_nil (crlfLines_ne_nil text)
    have honly : (∀ first' lines', first :: lines = first' :: lines' →
        FirstLine first' ∧ HeadersComplete lines') ↔ FirstLine first ∧ HeadersComplete lines := by
      refine ⟨fun h ↦ h first lines rfl, ?_⟩
      rintro h _ _ ⟨⟩
      exact h
    simp only [val_bind, val_copy, storeLoop_val, tokens_eq, hlines, Option.bind_some]
    rw [honly, ← @CheckHdr_isSome first InitEvent]
    cases hhdr : (CheckHdr first InitEvent).val with
    | none => simp
    | some a =>
      have hne : a.1 ≠ 0 := CheckHdr_ne_zero a hhdr
      simp only [Option.bind_some, if_pos hne, headerLoop_isSome, Option.isSome_some, true_and]

/-- A start line of one word: the second is searched for an asterisk, and there is none. -/
theorem AnalyzeCommand_one_word : ¬ ∀ text evt, (AnalyzeCommand text evt).val.isSome := by
  intro h
  exact absurd (h "NOTIFY".toList InitEvent) (by decide +kernel)

end Upnp.Ssdp
