import Upnp.Ssdp.Parser

/-!
# Bounds of the SSDP parser

When a received datagram makes the parser write outside its arrays: exactly when
it fills the receive buffer, has too many or too long lines, or has a header that
is reached and too long for its field.
-/

namespace Upnp.Ssdp

open Upnp.Lib

namespace Exec

variable {α β : Type} {x : Exec α} {f : α → Exec β} {size : Nat} {last : Int} {s : CString}

/-- All writes stay in their arrays. -/
def Safe (x : Exec α) : Prop := ∀ w ∈ x.writes, w.InBounds

@[simp] theorem safe_pure (a : α) : (pure a : Exec α).Safe := nofun

@[simp] theorem safe_follow (p : Option α) : (follow p).Safe := nofun

@[simp] theorem safe_write : (write size last).Safe ↔ 0 ≤ last ∧ last < size :=
  List.forall_mem_singleton

@[simp] theorem safe_copy : (copy size s).Safe ↔ s.length < size := by
  rw [copy, safe_write]
  omega

/-- A run is safe when its first part is, and so is the rest if it is reached. -/
@[simp] theorem safe_bind : (x >>= f).Safe ↔ x.Safe ∧ ∀ a, x.val = some a → (f a).Safe := by
  change (∀ w ∈ x.writes ++ x.val.elim [] fun a ↦ (f a).writes, w.InBounds) ↔ _
  rw [List.forall_mem_append]
  refine and_congr_right fun _ ↦ ?_
  cases x.val with
  | none => simp
  | some a => simp [Safe]

@[simp] theorem safe_ite {c : Prop} [Decidable c] {y : Exec α} :
    (if c then x else y).Safe ↔ (c → x.Safe) ∧ (¬ c → y.Safe) := by
  by_cases hc : c <;> simp [hc]

@[simp] theorem val_pure (a : α) : (pure a : Exec α).val = some a := rfl

@[simp] theorem val_follow (p : Option α) : (follow p).val = p := rfl

@[simp] theorem val_write : (write size last).val = some () := rfl

@[simp] theorem val_copy : (copy size s).val = some () := rfl

@[simp] theorem val_bind : (x >>= f).val = x.val.bind fun a ↦ (f a).val := rfl

end Exec

open Exec

variable {cmd line : CString} {evt : Event} {lines : List CString} {f : CString → Event → Event}

/-! ## Lines -/

/-- The lines of a text, between its line ends. -/
def crlfLines : CString → List CString
  | [] => [[]]
  | [c] => [[c]]
  | c :: d :: s =>
    if c = '\r' ∧ d = '\n' then [] :: crlfLines s
    else (crlfLines (d :: s)).modifyHead (c :: ·)

theorem tokens_of_none {s : CString} (h : strstr s ['\r', '\n'] = none) : tokens s = [s] := by
  rw [tokens]
  split
  · rfl
  · rename_i tmp heq
    cases heq.symm.trans h

theorem tokens_of_some {s tmp : CString} (h : strstr s ['\r', '\n'] = some tmp) :
    tokens s = s.take (s.length - tmp.length) :: tokens (tmp.drop 2) := by
  rw [tokens]
  split
  · rename_i heq
    cases heq.symm.trans h
  · rename_i tmp' heq
    obtain rfl := Option.some.inj (heq.symm.trans h)
    rfl

/-- A character in front of the first line end. -/
theorem tokens_cons {c : Char} {s : CString} (h : ¬ ['\r', '\n'].isPrefixOf (c :: s)) :
    tokens (c :: s) = (tokens s).modifyHead (c :: ·) := by
  have hstr : strstr (c :: s) ['\r', '\n'] = strstr s ['\r', '\n'] := by
    rw [strstr, if_neg h]
  cases hs : strstr s ['\r', '\n'] with
  | none =>
    rw [tokens_of_none hs, tokens_of_none (hstr.trans hs)]
    rfl
  | some tmp =>
    have hlen := (strstr_length hs).1
    rw [tokens_of_some hs, tokens_of_some (hstr.trans hs), List.length_cons, Nat.succ_sub hlen,
      List.take_succ_cons]
    rfl

/-- The loop of `AnalyzeCommand` gets the lines of the text. -/
theorem tokens_eq (s : CString) : tokens s = crlfLines s := by
  fun_induction crlfLines s with
  | case1 => exact tokens_of_none rfl
  | case2 c => exact tokens_of_none (by simp [strstr])
  | case3 c d s h ih =>
    obtain ⟨rfl, rfl⟩ := h
    have hstr : strstr ('\r' :: '\n' :: s) ['\r', '\n'] = some ('\r' :: '\n' :: s) := by
      simp [strstr]
    rw [tokens_of_some hstr, Nat.sub_self, ← ih]
    rfl
  | case4 c d s h ih =>
    rw [tokens_cons, ih]
    intro hpre
    obtain ⟨t, ht⟩ := List.isPrefixOf_iff_prefix.mp hpre
    cases ht
    exact h ⟨rfl, rfl⟩

theorem storeLoop_val (n : Nat) (ts : List CString) : (storeLoop n ts).val = some () := by
  induction ts generalizing n with
  | nil => rfl
  | cons t ts ih => simp [storeLoop, ih]

/-- The rows of `Command_List` are enough for all lines, and long enough for each. -/
theorem safe_storeLoop (n : Nat) (ts : List CString) (hts : ts ≠ []) :
    (storeLoop n ts).Safe ↔ n + ts.length ≤ NUM_TOKEN ∧ ∀ t ∈ ts, t.length < COMMAND_LEN := by
  induction ts generalizing n with
  | nil => exact absurd rfl hts
  | cons t ts ih =>
    cases ts with
    | nil =>
      simp only [storeLoop, safe_bind, safe_write, safe_copy, safe_pure, val_write,
        implies_true, and_true, forall_const, List.length_singleton, List.mem_singleton, forall_eq,
        Nat.succ_le_iff, Int.natCast_nonneg, true_and, Int.ofNat_lt]
    | cons t' ts =>
      have hrest := ih (n + 1) (List.cons_ne_nil _ _)
      have hstep : (storeLoop n (t :: t' :: ts)).Safe ↔
          (0 ≤ (n : Int) ∧ (n : Int) < NUM_TOKEN) ∧ t.length < COMMAND_LEN ∧
            (storeLoop (n + 1) (t' :: ts)).Safe := by
        rw [storeLoop]
        simp
      rw [hstep, hrest, List.forall_mem_cons (a := t), List.length_cons (a := t)]
      constructor
      · rintro ⟨-, ht, hlen, hts⟩
        exact ⟨by omega, ht, hts⟩
      · rintro ⟨hlen, ht, hts⟩
        exact ⟨⟨Int.natCast_nonneg n, by omega⟩, ht, by omega, hts⟩

/-! ## The first line -/

/-- The second word is there, and the third when the second is as it should be. -/
def HasWords (second : CString) (tmp : Option CString) : Prop :=
  ∃ w, (StrTok tmp [' ']).1 = some w ∧
    (Contains w second → (StrTok (StrTok tmp [' ']).2 [' ']).1 ≠ none)

/-- The first line has the words that are looked at. -/
def FirstLine (line : CString) : Prop :=
  ∀ w, (StrTok (some line) [' ']).1 = some w →
    (Contains w "M-SEARCH".toList ∨ Contains w "NOTIFY".toList →
      HasWords ['*'] (StrTok (some line) [' ']).2) ∧
    (¬ Contains w "M-SEARCH".toList → ¬ Contains w "NOTIFY".toList →
      Contains w "HTTP/1.1".toList → HasWords "200".toList (StrTok (some line) [' ']).2)

theorem safe_checkWords (second third : CString) (c : CmdType) (tmp : Option CString)
    (evt : Event) : (checkWords second third c tmp evt).Safe := by
  simp only [checkWords, safe_bind, safe_ite, safe_pure, safe_follow, implies_true, and_self]

/-- A missing word is a null pointer that is followed. -/
theorem checkWords_isSome (second third : CString) (c : CmdType) (tmp : Option CString)
    (evt : Event) : (checkWords second third c tmp evt).val.isSome ↔ HasWords second tmp := by
  generalize h₁ : StrTok tmp [' '] = t₁
  generalize h₂ : StrTok t₁.2 [' '] = t₂
  simp only [checkWords, HasWords, h₁, h₂, val_bind, val_follow]
  cases t₁.1 with
  | none => simp
  | some w =>
    by_cases hw : Contains w second
    · cases t₂.1 with
      | none => simp [hw]
      | some w₃ => by_cases hw₃ : Contains w₃ third <;> simp [hw, hw₃]
    · simp [hw]

/-- The checks never give `0`. -/
theorem checkWords_ne_zero (second third : CString) (c : CmdType) (tmp : Option CString)
    (evt : Event) : ∀ a ∈ (checkWords second third c tmp evt).val, a.1 ≠ 0 := by
  generalize h₁ : StrTok tmp [' '] = t₁
  generalize h₂ : StrTok t₁.2 [' '] = t₂
  simp only [checkWords, h₁, h₂, val_bind, val_follow]
  cases t₁.1 with
  | none => simp
  | some w =>
    by_cases hw : Contains w second
    · cases t₂.1 with
      | none => simp [hw]
      | some w₃ => by_cases hw₃ : Contains w₃ third <;> simp [hw, hw₃, syntaxError]
    · simp [hw, syntaxError]

theorem safe_CheckHdr : (CheckHdr line evt).Safe ↔ line.length < COMMAND_LEN := by
  simp only [CheckHdr, safe_bind, safe_copy, safe_ite, safe_pure, safe_follow, safe_checkWords,
    implies_true, and_self, and_true]

/-- `CheckHdr` ends when the first line has its words. -/
theorem CheckHdr_isSome : (CheckHdr line evt).val.isSome ↔ FirstLine line := by
  obtain ⟨w, hw⟩ : ∃ w, (StrTok (some line) [' ']).1 = some w := by
    rw [StrTok]
    split <;> exact ⟨_, rfl⟩
  simp only [CheckHdr, FirstLine, hw, val_bind, val_copy, val_follow, Option.bind_some,
    Option.some.injEq, forall_eq']
  split
  · rename_i hm
    rw [checkWords_isSome]
    simp only [hm, true_or, not_true_eq_false, forall_const, false_implies, and_true]
  · split
    · rename_i hm hn
      rw [checkWords_isSome]
      simp only [hn, or_true, not_true_eq_false, forall_const, false_implies, implies_true,
        and_true]
    · split
      · rename_i hm hn hh
        rw [checkWords_isSome]
        simp only [hm, hn, hh, or_self, false_implies, not_false_eq_true, forall_const, true_and]
      · rename_i hm hn hh
        simp only [hm, hn, hh, or_self, false_implies, implies_true, and_self, val_pure,
          Option.isSome_some]

theorem CheckHdr_ne_zero : ∀ a ∈ (CheckHdr line evt).val, a.1 ≠ 0 := by
  obtain ⟨w, hw⟩ : ∃ w, (StrTok (some line) [' ']).1 = some w := by
    rw [StrTok]
    split <;> exact ⟨_, rfl⟩
  simp only [CheckHdr, hw, val_bind, val_copy, val_follow, Option.bind_some]
  split
  · exact checkWords_ne_zero _ _ _ _ _
  · split
    · exact checkWords_ne_zero _ _ _ _ _
    · split
      · exact checkWords_ne_zero _ _ _ _ _
      · simp [syntaxError]

/-! ## The headers -/

theorem contains_urn {s : CString} (h : Contains s "urn:".toList) :
    ∃ t, strstr s "urn".toList = some t := by
  obtain ⟨r, hr⟩ := Option.ne_none_iff_exists'.mp h
  obtain ⟨hsuf, hpre⟩ := strstr_spec hr
  have hurn : "urn".toList <+: r := List.IsPrefix.trans (by decide) hpre
  obtain ⟨t, ht, -⟩ := strstr_of_suffix hsuf hurn (by decide)
  exact ⟨t, ht⟩

/-- The third colon from `:device` on. -/
def thirdColon (v : CString) : Option CString := do
  let p₁ ← strstr v ":device".toList
  let p₂ ← strstr (p₁.drop 1) [':']
  strstr (p₂.drop 1) [':']

/-- A name fits the fields of the event: the parts that `Unique_Service_Name` copies are shorter
than the fields, and the first `::` is not before the first `uuid`. -/
def NameFits (v : CString) : Prop :=
  (Contains v "uuid:schemas".toList → ∀ p, thirdColon v = some p → p.length + 4 < LINE_SIZE ∧
    ∀ c, strstr v [':'] = some c → c.length + 3 < p.length + LINE_SIZE) ∧
  (¬ Contains v "uuid:schemas".toList →
    (∀ u, strstr v "uuid".toList = some u →
      (∀ q, strstr v "::".toList = some q →
        q.length ≤ u.length ∧ u.length < q.length + LINE_SIZE) ∧
      (strstr v "::".toList = none → u.length < LINE_SIZE)) ∧
    (Contains v "urn:".toList → Contains v ":service:".toList ∨ Contains v ":device:".toList →
      ∀ u, strstr v "urn".toList = some u → u.length < LINE_SIZE))

/-- The third colon is not in front of the first. -/
theorem thirdColon_some {p : CString} (h : thirdColon cmd = some p) :
    0 < p.length ∧ ∃ c, strstr cmd [':'] = some c ∧ p.length ≤ c.length := by
  obtain ⟨p₁, h₁, h⟩ := Option.bind_eq_some_iff.mp h
  obtain ⟨p₂, h₂, h₃⟩ := Option.bind_eq_some_iff.mp h
  have hsuf : p <:+ cmd :=
    (strstr_spec h₃).1.trans ((List.drop_suffix _ _).trans
      ((strstr_spec h₂).1.trans ((List.drop_suffix _ _).trans (strstr_spec h₁).1)))
  exact ⟨(strstr_length h₃).2, strstr_of_suffix hsuf (strstr_spec h₃).2 (by decide)⟩

theorem schemasName_none (h : thirdColon cmd = none) : schemasName cmd evt = pure (-1, evt) := by
  rw [schemasName]
  cases h₁ : strstr cmd ":device".toList with
  | none => rfl
  | some p₁ =>
    cases h₂ : strstr (p₁.drop 1) [':'] with
    | none => simp only [h₂]
    | some p₂ =>
      have h₃ : strstr (p₂.drop 1) [':'] = none := by
        simpa only [thirdColon, h₁, h₂, Option.bind_eq_bind, Option.bind_some] using h
      simp only [h₂, h₃]

theorem schemasName_some {p c : CString} (h : thirdColon cmd = some p)
    (hc : strstr cmd [':'] = some c) : schemasName cmd evt = (do
      copy LINE_SIZE ("uuid:".toList ++ p.drop 1)
      write COMMAND_LEN (c.length - p.length : Int)
      copy LINE_SIZE ("urn".toList ++ c.take (c.length - p.length))
      pure (1, { evt with UDN := "uuid:".toList ++ p.drop 1,
                          DeviceType := "urn".toList ++ c.take (c.length - p.length) })) := by
  obtain ⟨p₁, h₁, h⟩ := Option.bind_eq_some_iff.mp h
  obtain ⟨p₂, h₂, h₃⟩ := Option.bind_eq_some_iff.mp h
  simp only [schemasName, h₁, h₂, h₃, hc]

theorem safe_schemasName : (schemasName cmd evt).Safe ↔
    ∀ p, thirdColon cmd = some p → p.length + 4 < LINE_SIZE ∧
      ∀ c, strstr cmd [':'] = some c → c.length + 3 < p.length + LINE_SIZE := by
  cases h : thirdColon cmd with
  | none =>
    rw [schemasName_none h]
    simp
  | some p =>
    obtain ⟨hpos, c, hc, hlen⟩ := thirdColon_some h
    -- `TempBuf` is larger than the field that its text goes to
    have hurn : 3 + (c.length - p.length) < LINE_SIZE → c.length - p.length < COMMAND_LEN :=
      fun h ↦ Nat.lt_trans (Nat.lt_of_le_of_lt (Nat.le_add_left _ _) h) (by decide)
    rw [schemasName_some h hc]
    simp only [hc, safe_bind, safe_copy, val_copy, val_write, safe_write, safe_pure,
      Option.some.injEq, forall_eq', forall_const, and_true, List.length_append,
      List.length_drop, List.length_take]
    change 5 + (p.length - 1) < LINE_SIZE ∧ _ ∧ 3 + min _ _ < _ ↔ _
    rw [Nat.min_eq_left (Nat.sub_le _ _)]
    omega

theorem schemasName_val : (∃ a ∈ (schemasName cmd evt).val, 0 ≤ a.1) ↔
    thirdColon cmd ≠ none := by
  cases h : thirdColon cmd with
  | none =>
    rw [schemasName_none h]
    simp
  | some p =>
    obtain ⟨-, c, hc, -⟩ := thirdColon_some h
    rw [schemasName_some h hc]
    simp

theorem safe_uuidName : (uuidName cmd evt).Safe ↔
    ∀ u, strstr cmd "uuid".toList = some u →
      (∀ q, strstr cmd "::".toList = some q →
        q.length ≤ u.length ∧ u.length < q.length + LINE_SIZE) ∧
      (strstr cmd "::".toList = none → u.length < LINE_SIZE) := by
  rw [uuidName]
  cases hu : strstr cmd "uuid".toList with
  | none => simp
  | some u =>
    cases hq : strstr cmd "::".toList with
    | none => simp
    | some q =>
      simp only [safe_bind, safe_write, val_write, safe_pure, Option.some.injEq, forall_eq',
        implies_true, and_true, reduceCtorEq, false_implies]
      omega

theorem uuidName_val (cmd : CString) (evt : Event) :
    ∃ e, (uuidName cmd evt).val = some (e, decide (Contains cmd "uuid".toList)) := by
  rw [uuidName]
  by_cases h : Contains cmd "uuid".toList
  · obtain ⟨u, hu⟩ := Option.ne_none_iff_exists'.mp h
    rw [hu, decide_eq_true h]
    cases hq : strstr cmd "::".toList <;> exact ⟨_, rfl⟩
  · rw [not_not.mp h, decide_eq_false h]
    exact ⟨evt, rfl⟩

variable {kind : CString} {set : CString → Event → Event}

theorem safe_typeName : (typeName kind set cmd evt).Safe ↔
    (Contains cmd "urn:".toList → Contains cmd kind →
      ∀ u, strstr cmd "urn".toList = some u → u.length < LINE_SIZE) := by
  rw [typeName]
  by_cases h : Contains cmd "urn:".toList ∧ Contains cmd kind
  · rw [if_pos h]
    cases hu : strstr cmd "urn".toList with
    | none => simp
    | some u =>
      simp only [safe_bind, safe_copy, safe_pure, implies_true, and_true, h.1, h.2, forall_const,
        Option.some.injEq, forall_eq']
  · rw [if_neg h]
    simp only [safe_pure, true_iff]
    exact fun hurn hkind ↦ absurd ⟨hurn, hkind⟩ h

theorem typeName_val (kind : CString) (set : CString → Event → Event) (cmd : CString)
    (evt : Event) : ∃ e, (typeName kind set cmd evt).val =
    some (e, decide (Contains cmd "urn:".toList ∧ Contains cmd kind)) := by
  rw [typeName]
  by_cases h : Contains cmd "urn:".toList ∧ Contains cmd kind
  · obtain ⟨u, hu⟩ := contains_urn h.1
    rw [if_pos h, hu, decide_eq_true h]
    exact ⟨_, rfl⟩
  · rw [if_neg h, decide_eq_false h]
    exact ⟨_, rfl⟩

/-- `Unique_Service_Name` writes within its fields exactly when the name fits. -/
theorem safe_Unique_Service_Name : (Unique_Service_Name cmd evt).Safe ↔ NameFits cmd := by
  rw [Unique_Service_Name, NameFits, safe_ite, safe_schemasName]
  refine and_congr_right fun _ ↦ imp_congr_right fun _ ↦ ?_
  obtain ⟨e₁, h₁⟩ := uuidName_val cmd evt
  obtain ⟨e₂, h₂⟩ := typeName_val ":service:".toList
    (fun s evt ↦ { evt with ServiceType := s }) cmd e₁
  simp only [safe_bind, h₁, h₂, Option.some.injEq, forall_eq', safe_ite, safe_pure, implies_true,
    and_true, safe_uuidName, safe_typeName]
  refine and_congr_right fun _ ↦ ?_
  constructor
  · rintro ⟨hservice, hdevice⟩ hurn (hkind | hkind)
    · exact hservice hurn hkind
    · exact hdevice hurn hkind
  · exact fun h ↦ ⟨fun hurn hkind ↦ h hurn (.inl hkind), fun hurn hkind ↦ h hurn (.inr hkind)⟩

/-- A name is taken when it has one of the parts that are looked for. -/
def NameTaken (v : CString) : Prop :=
  if Contains v "uuid:schemas".toList then thirdColon v ≠ none
  else Contains v "uuid".toList ∨
    Contains v "urn:".toList ∧ (Contains v ":service:".toList ∨ Contains v ":device:".toList)

theorem found_val (evt : Event) (uuid service device : Prop) [Decidable uuid]
    [Decidable service] [Decidable device] :
    (∃ a ∈ (if decide uuid || decide service || decide device then pure (1, evt)
      else pure (-1, evt) : Exec (Int × Event)).val, 0 ≤ a.1) ↔ uuid ∨ service ∨ device := by
  by_cases hu : uuid <;> by_cases hs : service <;> by_cases hd : device <;> simp [hu, hs, hd]

theorem Unique_Service_Name_val :
    (∃ a ∈ (Unique_Service_Name cmd evt).val, 0 ≤ a.1) ↔ NameTaken cmd := by
  rw [Unique_Service_Name, NameTaken]
  by_cases h : Contains cmd "uuid:schemas".toList
  · rw [if_pos h, if_pos h]
    exact schemasName_val
  · rw [if_neg h, if_neg h]
    obtain ⟨e₁, h₁⟩ := uuidName_val cmd evt
    obtain ⟨e₂, h₂⟩ := typeName_val ":service:".toList
      (fun s evt ↦ { evt with ServiceType := s }) cmd e₁
    obtain ⟨e₃, h₃⟩ := typeName_val ":device:".toList
      (fun s evt ↦ { evt with DeviceType := s }) cmd e₂
    simp only [val_bind, h₁, h₂, h₃, Option.bind_some]
    rw [found_val, and_or_left]

/-- The value of a search target is one of those that are known. -/
def TargetTaken (v : CString) : Prop :=
  Contains v "ssdp:all".toList ∨ Contains v ":rootdevice".toList ∨ Contains v "uuid:".toList ∨
    Contains v "urn:".toList ∧ (Contains v ":device:".toList ∨ Contains v ":service:".toList)

/-- `Unique_Service_Name` follows no null pointer. -/
theorem Unique_Service_Name_isSome (cmd : CString) (evt : Event) :
    ∃ a, (Unique_Service_Name cmd evt).val = some a := by
  rw [Unique_Service_Name]
  split
  · cases h : thirdColon cmd with
    | none =>
      rw [schemasName_none h]
      exact ⟨_, rfl⟩
    | some p =>
      obtain ⟨-, c, hc, -⟩ := thirdColon_some h
      rw [schemasName_some h hc]
      exact ⟨_, rfl⟩
  · obtain ⟨e₁, h₁⟩ := uuidName_val cmd evt
    obtain ⟨e₂, h₂⟩ := typeName_val ":service:".toList
      (fun s evt ↦ { evt with ServiceType := s }) cmd e₁
    obtain ⟨e₃, h₃⟩ := typeName_val ":device:".toList
      (fun s evt ↦ { evt with DeviceType := s }) cmd e₂
    simp only [val_bind, h₁, h₂, h₃, Option.bind_some]
    split <;> exact ⟨_, rfl⟩

theorem safe_Request_Tpye : (Request_Tpye cmd evt).Safe ↔ NameFits cmd := by
  rw [Request_Tpye, safe_bind, safe_Unique_Service_Name]
  refine and_iff_left fun a _ ↦ ?_
  simp only [safe_ite, safe_pure, implies_true, and_self]

theorem target_val (evt : Event) (all root uuid urn device service : Prop) [Decidable all]
    [Decidable root] [Decidable uuid] [Decidable urn] [Decidable device] [Decidable service]
    (e₁ e₂ e₃ e₄ e₅ : Event) :
    (∃ a ∈ (if all then pure (1, e₁) else if root then pure (1, e₂) else if uuid then pure (1, e₃)
      else if urn ∧ device then pure (1, e₄) else if urn ∧ service then pure (1, e₅)
      else pure (syntaxError evt) : Exec (Int × Event)).val, 0 ≤ a.1) ↔
    all ∨ root ∨ uuid ∨ urn ∧ (device ∨ service) := by
  split_ifs with hall hroot huuid hdevice hservice
  · simp [hall]
  · simp [hroot]
  · simp [huuid]
  · simp [hdevice]
  · simp [hservice]
  · simp only [hall, hroot, huuid, and_or_left, hdevice, hservice, val_pure, syntaxError,
      Option.mem_some_iff, exists_eq_left', or_self, iff_false]
    decide

theorem Request_Tpye_val : (∃ a ∈ (Request_Tpye cmd evt).val, 0 ≤ a.1) ↔ TargetTaken cmd := by
  obtain ⟨a, ha⟩ := Unique_Service_Name_isSome cmd evt
  rw [Request_Tpye, val_bind, ha, Option.bind_some, TargetTaken]
  exact target_val { a.2 with ErrCode := NO_ERROR_FOUND } (Contains cmd "ssdp:all".toList)
    (Contains cmd ":rootdevice".toList) (Contains cmd "uuid:".toList)
    (Contains cmd "urn:".toList) (Contains cmd ":device:".toList)
    (Contains cmd ":service:".toList) _ _ _ _ _

/-- The parser function of the header takes the value: what it returns is not negative. -/
def Header.Passes (v : CString) : Header → Prop
  | CACHE_CONTROL => Contains v ['=']
  | LOCATION => 7 < v.length
  | HOST | SERVER | MAN | DATE => 0 < v.length
  | EXT => True
  | USN => NameTaken v
  | ST | NT => TargetTaken v
  | NTS => ∃ w, (StrTok (StrTok (some v) [':']).2 [':']).1 = some w ∧
      (strcaseEq "alive".toList w ∨ strcaseEq "byebye".toList w)
  | MX => 0 < v.length ∧ ∃ w, (StrTok (some v) [':']).1 = some w ∧
      w ≠ [] ∧ 0 < atoi w ∧ '.' ∉ w

/-- The value of the header fits the field of the event that is made for it. -/
def Header.Fits (v : CString) : Header → Prop
  | LOCATION | HOST | SERVER | MAN | DATE | EXT => v.length < LINE_SIZE
  | USN | ST | NT => NameFits v
  | CACHE_CONTROL | NTS | MX => True

theorem StrTok_some (s del : CString) : ∃ w, (StrTok (some s) del).1 = some w := by
  rw [StrTok]
  split <;> exact ⟨_, rfl⟩

theorem safe_storeText : (storeText f cmd evt).Safe ↔ cmd.length < LINE_SIZE := by
  rw [storeText, safe_ite]
  simp only [safe_bind, safe_copy, safe_pure, implies_true, and_true, syntaxError]
  refine ⟨fun h ↦ ?_, fun h _ ↦ h⟩
  rcases Nat.eq_zero_or_pos cmd.length with h₀ | h₀
  · rw [h₀]
    decide
  · exact h h₀

theorem storeText_val : (∃ a ∈ (storeText f cmd evt).val, 0 ≤ a.1) ↔ 0 < cmd.length := by
  rw [storeText]
  split
  · rename_i h
    simp [h]
  · rename_i h
    simp [h, syntaxError]

/-- Each parser function writes within the event exactly when the value fits. -/
theorem Header.safe_parse (h : Header) (v : CString) (evt : Event) :
    (h.parse v evt).Safe ↔ h.Fits v := by
  cases h with
  | CACHE_CONTROL =>
    refine iff_of_true ?_ trivial
    rw [parse, Cache_Control]
    split
    · split <;> exact safe_pure _
    · exact safe_pure _
  | ST => exact safe_Request_Tpye
  | LOCATION =>
    rw [parse, Location_Header, safe_ite]
    simp only [safe_bind, safe_copy, safe_pure, implies_true, and_true, syntaxError]
    refine ⟨fun h ↦ ?_, fun h _ ↦ h⟩
    rcases Nat.lt_or_ge 7 v.length with h₇ | h₇
    · exact h h₇
    · exact Nat.lt_of_le_of_lt h₇ (by decide)
  | HOST => exact safe_storeText
  | USN => exact safe_Unique_Service_Name
  | NT => exact safe_Request_Tpye
  | NTS =>
    refine iff_of_true ?_ trivial
    simp only [parse, Notification_Sub_Type, safe_bind, safe_follow, safe_ite, safe_pure,
      implies_true, and_self]
  | EXT =>
    rw [parse, Fun_Ext, safe_ite]
    simp only [safe_bind, safe_copy, safe_pure, implies_true, and_true]
    refine ⟨fun h ↦ ?_, fun h _ ↦ h⟩
    rcases Nat.eq_zero_or_pos v.length with h₀ | h₀
    · exact Nat.lt_of_le_of_lt h₀.le (by decide)
    · exact h h₀
  | SERVER => exact safe_storeText
  | MAN => exact safe_storeText
  | MX =>
    refine iff_of_true ?_ trivial
    rw [parse, Max_Delay, safe_ite]
    refine ⟨fun _ ↦ ?_, fun _ ↦ safe_pure _⟩
    split
    · exact safe_pure _
    · simp only [safe_ite, safe_pure, implies_true, and_self]
  | DATE => exact safe_storeText

/-- The headers behind it are parsed exactly when the value is taken. -/
theorem Header.parse_val (h : Header) (v : CString) (evt : Event) :
    (∃ a ∈ (h.parse v evt).val, 0 ≤ a.1) ↔ h.Passes v := by
  cases h with
  | CACHE_CONTROL =>
    rw [parse, Cache_Control, Passes, Contains, StrTok]
    cases hs : strstr v ['='] with
    | none => simp [StrTok]
    | some tmp =>
      obtain ⟨w, hw⟩ := StrTok_some (tmp.drop 1) ['=']
      simp only [List.length_cons, List.length_nil, Nat.zero_add, hw]
      simp
  | ST => exact Request_Tpye_val
  | LOCATION =>
    rw [parse, Location_Header, Passes]
    split
    · rename_i h
      simp [h]
    · rename_i h
      simp [h, syntaxError]
  | HOST => exact storeText_val
  | USN => exact Unique_Service_Name_val
  | NT => exact Request_Tpye_val
  | NTS =>
    simp only [parse, Notification_Sub_Type, Passes, val_bind, val_follow]
    generalize (StrTok (StrTok (some v) [':']).2 [':']).1 = w
    cases w with
    | none =>
      refine iff_of_false ?_ ?_
      · rintro ⟨a, ⟨⟩, -⟩
      · rintro ⟨w, ⟨⟩, -⟩
    | some w =>
      simp only [Option.bind_some, Option.some.injEq, exists_eq_left']
      split_ifs with ha hb
      · exact iff_of_true ⟨_, rfl, Int.one_nonneg⟩ (.inl ha)
      · exact iff_of_true ⟨_, rfl, Int.one_nonneg⟩ (.inr hb)
      · refine iff_of_false ?_ (not_or.mpr ⟨ha, hb⟩)
        simp [syntaxError]
  | EXT =>
    rw [parse, Fun_Ext, Passes]
    split <;> simp
  | SERVER => exact storeText_val
  | MAN => exact storeText_val
  | MX =>
    rw [parse, Max_Delay, Passes]
    obtain ⟨w, hw⟩ := StrTok_some v [':']
    simp only [hw, Option.some.injEq, exists_eq_left']
    split_ifs with hpos hbad
    · simp only [val_pure, syntaxError, Option.mem_some_iff, exists_eq_left']
      grind
    · simp only [val_pure, Option.mem_some_iff, exists_eq_left']
      grind
    · simp [hpos, syntaxError]
  | DATE => exact storeText_val

/-- The name in front of the first colon of a line. -/
def lineName (line : CString) : CString := (StrTok (some line) [':']).1.getD []

/-- The values of the headers fit, up to the header with which the parser stops: one whose value
is not taken, or one without a colon, where it follows a null pointer. -/
def HeadersFit : List CString → Prop
  | [] => True
  | line :: lines =>
    match findHeader (lineName line) with
    | none => HeadersFit lines
    | some h => ∀ v, strchr line ':' = some v →
      h.Fits (v.drop 1) ∧ (h.Passes (v.drop 1) → HeadersFit lines)

/-- The loop over the lines writes within the event exactly when the headers fit. -/
theorem safe_headerLoop {size : Nat} (hlen : ∀ l ∈ lines, l.length < size) (retVal : Int)
    (evt : Event) : (headerLoop size lines retVal evt).Safe ↔ HeadersFit lines := by
  induction lines generalizing retVal evt with
  | nil => exact iff_of_true (safe_pure _) trivial
  | cons line lines ih =>
    obtain ⟨hline, hlines⟩ := List.forall_mem_cons.mp hlen
    obtain ⟨w, hw⟩ := StrTok_some line [':']
    have hname : lineName line = w := by
      rw [lineName, hw]
      rfl
    rw [headerLoop, HeadersFit, hname]
    simp only [safe_bind, safe_copy, hline, hw, val_copy, safe_follow, val_follow, true_and,
      Option.some.injEq, forall_eq', forall_const]
    cases findHeader w with
    | none => exact ih hlines retVal evt
    | some h =>
      simp only [safe_bind, safe_follow, val_follow, true_and, safe_ite, safe_pure, implies_true,
        Header.safe_parse]
      refine forall_congr' fun v ↦ imp_congr_right fun _ ↦ and_congr_right fun _ ↦ ?_
      rw [← Header.parse_val h _ evt]
      constructor
      · rintro hsafe ⟨a, ha, hpos⟩
        exact (ih hlines a.1 a.2).mp (hsafe a ha (not_lt.mpr hpos))
      · intro hfit a ha hpos
        exact (ih hlines a.1 a.2).mpr (hfit ⟨a, ha, not_lt.mp hpos⟩)

/-! ## Received texts -/

theorem crlfLines_ne_nil (s : CString) : crlfLines s ≠ [] := by
  fun_induction crlfLines s with
  | case1 => exact List.cons_ne_nil _ _
  | case2 c => exact List.cons_ne_nil _ _
  | case3 c d s h ih => exact List.cons_ne_nil _ _
  | case4 c d s h ih => simpa using ih

theorem length_le_of_mem_crlfLines {s l : CString} (h : l ∈ crlfLines s) : l.length ≤ s.length := by
  induction s using crlfLines.induct generalizing l with
  | case1 => simp_all [crlfLines]
  | case2 c => simp_all [crlfLines]
  | case3 c d s hcd ih =>
    rw [crlfLines, if_pos hcd] at h
    rcases List.mem_cons.mp h with rfl | h
    · exact Nat.zero_le _
    · exact Nat.le_add_right_of_le (Nat.le_add_right_of_le (ih h))
  | case4 c d s hcd ih =>
    rw [crlfLines, if_neg hcd] at h
    obtain ⟨l', ls, hls⟩ := List.exists_cons_of_ne_nil (crlfLines_ne_nil (d :: s))
    rw [hls, List.modifyHead_cons] at h
    rcases List.mem_cons.mp h with rfl | h
    · exact Nat.succ_le_succ (ih (hls ▸ List.mem_cons_self))
    · exact Nat.le_succ_of_le (ih (hls ▸ List.mem_cons_of_mem _ h))

/-- A text is analysed within the arrays: it has at most `NUM_TOKEN` lines, none of them too long,
and when the first line has its words the headers fit. -/
structure TextFits (text : CString) : Prop where
  rows : (crlfLines text).length ≤ NUM_TOKEN
  length : ∀ l ∈ crlfLines text, l.length < COMMAND_LEN
  headers : ∀ first lines, crlfLines text = first :: lines → FirstLine first → HeadersFit lines

/-- The lines behind the first are parsed when the first has its words. -/
theorem CheckHdr_then {P : Prop} : (∀ a, (CheckHdr line evt).val = some a → a.1 ≠ 0 → P) ↔
    (FirstLine line → P) := by
  rw [← @CheckHdr_isSome line evt]
  constructor
  · intro h hsome
    obtain ⟨a, ha⟩ := Option.isSome_iff_exists.mp hsome
    exact h a ha (CheckHdr_ne_zero a ha)
  · intro h a ha _
    exact h (Option.isSome_iff_exists.mpr ⟨a, ha⟩)

theorem safe_AnalyzeCommand {text : CString} : (AnalyzeCommand text evt).Safe ↔ TextFits text := by
  rw [AnalyzeCommand]
  split
  · rename_i h
    obtain rfl := List.length_eq_zero_iff.mp h
    refine iff_of_true (safe_pure _) ⟨by decide, by decide, ?_⟩
    rintro first lines ⟨⟩ -
    exact trivial
  · obtain ⟨first, lines, hlines⟩ := List.exists_cons_of_ne_nil (crlfLines_ne_nil text)
    have hlen : ∀ l ∈ lines, l.length < text.length + 2 := fun l hl ↦
      Nat.lt_of_le_of_lt (length_le_of_mem_crlfLines
        (hlines ▸ List.mem_cons_of_mem first hl)) (Nat.lt_add_of_pos_right (Nat.succ_pos 1))
    simp only [safe_bind, safe_copy, val_copy, storeLoop_val, tokens_eq, hlines,
      safe_storeLoop 0 (first :: lines) (List.cons_ne_nil _ _), forall_const, safe_CheckHdr,
      safe_ite, safe_pure, implies_true, and_true, safe_headerLoop hlen, CheckHdr_then]
    constructor
    · rintro ⟨-, ⟨hrows, hlength⟩, -, hheaders⟩
      refine ⟨?_, hlines ▸ hlength, ?_⟩
      · rw [hlines]
        omega
      · intro first' lines' h
        obtain ⟨rfl, rfl⟩ := List.cons.inj (hlines.symm.trans h)
        exact hheaders
    · rintro ⟨hrows, hlength, hheaders⟩
      rw [hlines] at hrows hlength
      refine ⟨Nat.lt_add_of_pos_right (Nat.succ_pos 1), ⟨?_, hlength⟩,
        hlength first List.mem_cons_self, hheaders first lines hlines⟩
      omega

/-- A datagram is handled within the arrays: with its terminator it is not longer than the buffer
it is received in, and its text fits. -/
def DatagramFits (datagram : CString) : Prop :=
  datagram.length < BUFSIZE ∧ TextFits (textOf datagram)

/-- Receiving a datagram and then handling the text. -/
theorem safe_received {α : Type} {datagram : CString} (x : CString → Exec α)
    (hx : ∀ text, (x text).Safe ↔ TextFits text) (a : α) :
    (if 0 < (received datagram).length then do
      write BUFSIZE (received datagram).length
      x (textOf (received datagram))
    else pure a : Exec α).Safe ↔ DatagramFits datagram := by
  simp only [safe_ite, safe_bind, safe_write, val_write, safe_pure, hx, forall_const, implies_true,
    and_true, DatagramFits]
  rw [received]
  rcases Nat.lt_or_ge datagram.length BUFSIZE with hsize | hsize
  · rw [List.take_of_length_le hsize.le]
    cases datagram with
    | nil =>
      refine iff_of_true (fun h ↦ absurd h (Nat.lt_irrefl 0)) ⟨by decide, ?_⟩
      exact safe_AnalyzeCommand.mp (safe_pure (-1, InitEvent))
    | cons c cs =>
      refine ⟨fun h ↦ ⟨hsize, (h (Nat.succ_pos _)).2⟩, fun h _ ↦ ⟨⟨?_, ?_⟩, h.2⟩⟩
      · exact Int.natCast_nonneg _
      · exact Int.ofNat_lt.mpr hsize
  · have hlen : (datagram.take BUFSIZE).length = BUFSIZE := List.length_take_of_le hsize
    rw [hlen]
    refine iff_of_false (fun h ↦ ?_) fun h ↦ absurd h.1 (Nat.not_lt.mpr hsize)
    exact lt_irrefl _ (h (by decide)).1.2

theorem safe_ListenMulticastChannel {datagram : CString} :
    (ListenMulticastChannel datagram evt).Safe ↔ DatagramFits datagram := by
  refine safe_received (fun text ↦ do
    copy (text.length + 1) text
    let r ← AnalyzeCommand text { evt with ErrCode := NO_ERROR_FOUND }
    pure (some r)) (fun text ↦ ?_) none
  simp only [safe_bind, safe_copy, val_copy, safe_pure, safe_AnalyzeCommand, implies_true,
    and_true, forall_const, Nat.lt_succ_self, true_and]

theorem safe_RequestHandler {datagram : CString} :
    (RequestHandler datagram evt).Safe ↔ DatagramFits datagram := by
  refine safe_received (fun text ↦ do
    let r ← AnalyzeCommand text evt
    pure (some r)) (fun text ↦ ?_) none
  simp only [safe_bind, safe_pure, safe_AnalyzeCommand, implies_true, and_true]

/-- For every datagram, the two receivers write within the receive buffer, the rows and lines of
the parser and the fields of the event exactly when the datagram fits. -/
theorem receive_in_bounds (datagram : CString) (evt : Event) :
    ((ListenMulticastChannel datagram evt).Safe ↔ DatagramFits datagram) ∧
      ((RequestHandler datagram evt).Safe ↔ DatagramFits datagram) :=
  ⟨safe_ListenMulticastChannel, safe_RequestHandler⟩

/-- A name whose `::` is in front of `uuid`: the length given to `strncpy` is negative. -/
theorem receive_negative_length :
    ¬ (ListenMulticastChannel "NOTIFY * HTTP/1.1\r\nUSN:::uuid\r\n\r\n".toList InitEvent).Safe := by
  intro hsafe
  obtain ⟨-, -, -, hheaders⟩ := safe_ListenMulticastChannel.mp hsafe
  have hlines : crlfLines (textOf "NOTIFY * HTTP/1.1\r\nUSN:::uuid\r\n\r\n".toList) =
      ["NOTIFY * HTTP/1.1".toList, "USN:::uuid".toList, [], []] := by decide +kernel
  have hfirst : FirstLine "NOTIFY * HTTP/1.1".toList :=
    (@CheckHdr_isSome _ InitEvent).mp (by decide +kernel)
  have husn : findHeader (lineName "USN:::uuid".toList) = some .USN := by decide +kernel
  have hfit := hheaders _ _ hlines hfirst
  rw [HeadersFit, husn] at hfit
  have hname : NameFits "::uuid".toList := (hfit ":::uuid".toList (by decide +kernel)).1
  have hlen := ((hname.2 (by decide +kernel)).1 "uuid".toList (by decide +kernel)).1
    "::uuid".toList (by decide +kernel)
  exact absurd hlen.1 (by decide)

end Upnp.Ssdp
