import Upnp.HttpMessage.HeaderValue

/-!
# Messages that are cut short

`parse_headers` gives the content the size -1 exactly when the buffer ends one byte behind a
header, where the empty line should be.  A value without CRLF counts as no value at all: what
stands there is read as the next header.
-/

namespace Upnp.HttpMessage

open Upnp.Lib

/-- Headers, and a single byte behind them. -/
inductive EndsShort : CString → Prop
  /-- Nothing but a byte. -/
  | byte (c : Char) : EndsShort [c]
  /-- A line in front. -/
  | line (line : HeaderLine) {rest : CString} : EndsShort rest → EndsShort (line.text ++ rest)
  /-- A name and a colon in front, in a text without CRLF. -/
  | name {name ws rest : CString} : name ≠ [] → (∀ c ∈ name, isToken c) → (∀ c ∈ ws, isLWS c) →
      (∀ c ∈ rest.head?, isLWS c = false) → (∀ q, ¬ CrlfAt rest q) → EndsShort rest →
      EndsShort (name ++ ':' :: (ws ++ rest))

theorem EndsShort.ne_nil {text : CString} (h : EndsShort text) : text ≠ [] := by
  cases h with
  | byte c => exact List.cons_ne_nil _ _
  | line line hrest => exact List.append_ne_nil_of_left_ne_nil (List.append_ne_nil_of_left_ne_nil
      line.name_ne_nil _) _
  | name hne _ _ _ _ _ => exact List.append_ne_nil_of_left_ne_nil hne _

/-! ## Slices of the memory -/

/-- The characters from `a` up to `b`. -/
def slice (memory : CString) (a b : Nat) : CString := (memory.drop a).take (b - a)

variable {memory : CString} {a b c q : Nat}

/-- The memory from `a` on is cut at `b`. -/
theorem drop_eq_slice_append (h : a ≤ b) : memory.drop a = slice memory a b ++ memory.drop b := by
  have hdrop := (List.take_append_drop (b - a) (memory.drop a)).symm
  rwa [List.drop_drop, Nat.add_sub_cancel' h] at hdrop

theorem length_slice (h : b ≤ memory.length) : (slice memory a b).length = b - a := by
  rw [slice, List.length_take, List.length_drop]
  omega

theorem slice_append (hab : a ≤ b) (hbc : b ≤ c) :
    slice memory a b ++ slice memory b c = slice memory a c := by
  have hsum : c - a = (b - a) + (c - b) := by omega
  rw [slice, slice, slice, hsum, List.take_add, List.drop_drop, Nat.add_sub_cancel' hab]

/-- What follows the front of a slice is a slice. -/
theorem slice_of_append {front rest : CString} (h : slice memory a b = front ++ rest) :
    slice memory (a + front.length) b = rest := by
  have hdrop : slice memory (a + front.length) b = (slice memory a b).drop front.length := by
    rw [slice, slice, ← List.drop_drop, Nat.sub_add_eq, List.drop_take]
  rw [hdrop, h, List.drop_left]

theorem slice_cons {d : Char} (hget : memory[a]? = some d) (h : a < b) :
    slice memory a b = d :: slice memory (a + 1) b := by
  obtain ⟨hlt, hd⟩ := List.getElem?_eq_some_iff.mp hget
  have hsub : b - a = (b - (a + 1)) + 1 := by omega
  rw [slice, List.drop_eq_getElem_cons hlt, hd, hsub, List.take_succ_cons, slice]

theorem getElem?_slice (h : a + q < b) : (slice memory a b)[q]? = memory[a + q]? := by
  rw [slice, List.getElem?_take_of_lt (by omega), List.getElem?_drop]

theorem lt_of_getElem?_slice {d : Char} (h : (slice memory a b)[q]? = some d) : a + q < b := by
  have hlt := (List.getElem?_eq_some_iff.mp h).1
  rw [slice, List.length_take] at hlt
  omega

theorem crlfAt_of_slice (h : CrlfAt (slice memory a b) q) :
    CrlfAt memory (a + q) ∧ a + q + 2 ≤ b := by
  have hcr := lt_of_getElem?_slice h.1
  have hlf := lt_of_getElem?_slice h.2
  rw [CrlfAt, getElem?_slice hcr, getElem?_slice hlf] at h
  exact ⟨h, by omega⟩

/-- The characters that a scan passes. -/
theorem slice_scan {test : Char → Bool} {max : Nat} :
    ∀ d ∈ slice memory a (a + scan test max (memory.drop a)), test d := by
  intro d hd
  obtain ⟨q, hq⟩ := List.getElem?_of_mem hd
  have hlt := lt_of_getElem?_slice hq
  obtain ⟨e, he, htest⟩ := scan_passes (Nat.lt_of_add_lt_add_left hlt)
  rw [getElem?_slice hlt, ← List.getElem?_drop, he] at hq
  cases hq
  exact htest

/-- At a name there is no CRLF. -/
theorem not_crlfAt_name {name more : CString} (hne : name ≠ []) (htoken : ∀ c ∈ name, isToken c)
    (heq : slice memory a b = name ++ more) : ¬ CrlfAt memory a := by
  rintro ⟨hcr, -⟩
  obtain ⟨d, name, rfl⟩ := List.exists_cons_of_ne_nil hne
  have hget : (slice memory a b)[0]? = some d := by
    rw [heq]
    rfl
  rw [getElem?_slice (lt_of_getElem?_slice hget), Nat.add_zero, hcr] at hget
  cases hget
  have htoken := htoken _ List.mem_cons_self
  revert htoken
  decide

/-! ## One header -/

variable {malloc : Nat → Bool} {max_finger finger finger' : Nat} {max_len max_len' : Int}
variable {headers : List HttpHeader} {h : HttpHeader}

theorem headersLoop_next (hcond : finger + 1 < max_finger ∧ ¬ CrlfAt memory finger)
    (hmalloc : malloc headers.length = true)
    (hstep : headerStep memory finger max_len = some (.ok (h, finger', max_len'))) :
    headersLoop malloc memory max_finger headers finger max_len =
      headersLoop malloc memory max_finger (headers ++ [h]) finger' max_len' := by
  rw [headersLoop, if_pos hcond, hmalloc, if_neg (by decide)]
  split
  · rename_i hnone
    rw [hstep] at hnone
    cases hnone
  · rename_i code herror
    rw [hstep] at herror
    cases herror
  · rename_i hok
    rw [hstep] at hok
    cases hok
    rfl

/-- A header that is stored has a name, with a colon behind it. -/
theorem headerStep_colon (hstep : headerStep memory finger max_len =
      some (.ok (h, finger', max_len'))) :
    parse_token max_len (memory.drop finger) ≠ 0 ∧
      memory[finger + parse_token max_len (memory.drop finger)]? = some ':' := by
  rw [headerStep] at hstep
  dsimp only at hstep
  split at hstep
  · cases hstep
  · rename_i hzero
    split at hstep
    · cases hstep
    · rename_i c hget
      split at hstep
      · cases hstep
      · rename_i hc
        rw [hget, not_not.mp hc]
        exact ⟨hzero, rfl⟩

/-- A header without a CRLF behind it ends in front of its value. -/
theorem headerStep_name {name ws rest : CString} (hname : name ≠ []) (htoken : ∀ c ∈ name, isToken c)
    (hws : ∀ c ∈ ws, isLWS c) (hhead : ∀ c ∈ rest.head?, isLWS c = false) (hrest : rest ≠ [])
    (hno : ∀ q, ¬ CrlfAt rest q) (hlen : max_finger ≤ memory.length)
    (hslice : slice memory finger max_finger = name ++ ':' :: (ws ++ rest))
    (hpos : finger + (name ++ ':' :: (ws ++ rest)).length = max_finger) :
    ∃ h, headerStep memory finger ((max_finger : Int) - finger) =
      some (.ok (h, finger + (name.length + 1 + ws.length), (rest.length : Int))) := by
  have hsize : (name ++ ':' :: (ws ++ rest)).length = name.length + 1 + ws.length + rest.length := by
    simp only [List.length_append, List.length_cons]
    omega
  rw [hsize] at hpos
  have hpositive := List.length_pos_iff.mpr hname
  have hdrop : memory.drop finger = name ++ ':' :: (ws ++ (rest ++ memory.drop max_finger)) := by
    rw [drop_eq_slice_append (by omega : finger ≤ max_finger), hslice]
    simp only [List.append_assoc, List.cons_append]
  have hmore : ∀ c ∈ (rest ++ memory.drop max_finger).head?, isLWS c = false := by
    cases rest with
    | nil => exact absurd rfl hrest
    | cons d rest => exact hhead
  obtain ⟨hok, hstart⟩ := @headerStep_front memory name ws _ finger ((max_finger : Int) - finger)
    hdrop hname htoken hws hmore (by omega)
  obtain ⟨⟨h, finger', left⟩, hstep⟩ := hok
  have hrestPos := List.length_pos_iff.mpr hrest
  have hturn := headerStep_turn hlen (by omega) (by omega) hstep
  rw [hstart] at hturn
  have hposition := hturn.position
  rcases hturn.value with ⟨n, hcrlf, hle, -⟩ | ⟨-, -, hfinger⟩
  · -- a CRLF would stand in the rest
    exfalso
    refine hno n ?_
    have hrestSlice : rest = slice memory (finger + name.length + 1 + ws.length) max_finger := by
      have hassoc : name ++ ':' :: (ws ++ rest) = (name ++ [':'] ++ ws) ++ rest := by
        simp only [List.append_assoc, List.cons_append, List.nil_append]
      have hsum : finger + name.length + 1 + ws.length =
          finger + (name ++ [':'] ++ ws).length := by
        simp only [List.length_append, List.length_singleton, Nat.add_assoc]
      rw [hassoc] at hslice
      rw [hsum, slice_of_append hslice]
    rw [hrestSlice, CrlfAt, getElem?_slice (by omega), getElem?_slice (by omega)]
    exact hcrlf
  · refine ⟨h, ?_⟩
    have hfinger' : finger' = finger + (name.length + 1 + ws.length) := by omega
    have hleft : left = rest.length := by omega
    rw [hstep, hfinger', hleft]

/-! ## The whole loop -/

/-- A text that ends short is accepted, up to its last byte. -/
theorem headersLoop_of_endsShort {text : CString} (htext : EndsShort text)
    (hlen : max_finger ≤ memory.length) (hslice : slice memory finger max_finger = text)
    (hpos : finger + text.length = max_finger) (headers : List HttpHeader) :
    ∃ r, headersLoop (fun _ ↦ true) memory max_finger headers finger ((max_finger : Int) - finger) =
      some (.ok r) ∧ r.2.1 + 1 = max_finger ∧ r.2.2 = 1 := by
  induction htext generalizing finger headers with
  | byte d =>
    refine ⟨(headers, finger, (max_finger : Int) - finger), ?_, hpos, ?_⟩
    · rw [headersLoop, if_neg]
      rintro ⟨hlt, -⟩
      rw [List.length_singleton] at hpos
      omega
    · rw [List.length_singleton] at hpos
      dsimp only
      omega
  | line line hrest ih =>
    rename_i rest
    rw [List.length_append] at hpos
    have hname := List.length_pos_iff.mpr line.name_ne_nil
    have hsize : line.text.length = line.name.length + 1 + line.value.length + 2 := by
      simp only [HeaderLine.text, List.length_append, List.length_cons, List.length_nil]
      omega
    have hcrlf : ¬ CrlfAt memory finger := by
      have heq : slice memory finger max_finger =
          line.name ++ (':' :: (line.value ++ ['\r', '\n']) ++ rest) := by
        rw [hslice, HeaderLine.text, List.append_assoc]
      exact not_crlfAt_name line.name_ne_nil line.name_token heq
    have hmemory : memory = memory.take finger ++ (line.text ++ (rest ++ memory.drop max_finger)) := by
      calc
        memory = memory.take finger ++ memory.drop finger := (List.take_append_drop _ _).symm
        _ = memory.take finger ++ (slice memory finger max_finger ++ memory.drop max_finger) := by
          rw [← drop_eq_slice_append (by omega)]
        _ = _ := by rw [hslice, List.append_assoc]
    have hfront : (memory.take finger).length = finger := List.length_take_of_le (by omega)
    obtain ⟨h, hstep, -⟩ := @headerStep_line (memory.take finger) (rest ++ memory.drop max_finger) line
      (max_finger - finger) (by omega) (by rw [← hmemory, hfront]; omega)
    rw [← hmemory, hfront] at hstep
    have hcast : ((max_finger - finger : Nat) : Int) = (max_finger : Int) - finger := by omega
    have hcast' : (max_finger : Int) - finger - line.text.length =
        (max_finger : Int) - (finger + line.text.length : Nat) := by omega
    rw [hcast, hcast'] at hstep
    obtain ⟨r, hr, hend⟩ := @ih (finger + line.text.length) (slice_of_append hslice) (by omega)
      (headers ++ [h])
    refine ⟨r, ?_, hend⟩
    rw [headersLoop_next ⟨by omega, hcrlf⟩ rfl hstep, hr]
  | name hne htoken hws hhead hno hrest ih =>
    rename_i name ws rest
    have hcrlf := not_crlfAt_name hne htoken hslice
    obtain ⟨h, hstep⟩ := headerStep_name hne htoken hws hhead hrest.ne_nil hno hlen hslice hpos
    have hsize : (name ++ ':' :: (ws ++ rest)).length =
        name.length + 1 + ws.length + rest.length := by
      simp only [List.length_append, List.length_cons]
      omega
    have hname := List.length_pos_iff.mpr hne
    have hrestPos := List.length_pos_iff.mpr hrest.ne_nil
    rw [hsize] at hpos
    have hslice' : slice memory (finger + (name.length + 1 + ws.length)) max_finger = rest := by
      have hassoc : name ++ ':' :: (ws ++ rest) = (name ++ [':'] ++ ws) ++ rest := by
        simp only [List.append_assoc, List.cons_append, List.nil_append]
      have hsum : name.length + 1 + ws.length = (name ++ [':'] ++ ws).length := by
        simp only [List.length_append, List.length_singleton]
      rw [hassoc] at hslice
      rw [hsum, slice_of_append hslice]
    have hcast : (rest.length : Int) =
        (max_finger : Int) - (finger + (name.length + 1 + ws.length) : Nat) := by omega
    rw [hcast] at hstep
    obtain ⟨r, hr, hend⟩ := @ih (finger + (name.length + 1 + ws.length)) hslice' (by omega)
      (headers ++ [h])
    refine ⟨r, ?_, hend⟩
    rw [headersLoop_next ⟨by omega, hcrlf⟩ rfl hstep, hr]

/-- The value does not begin with white space. -/
theorem valueStart_not_lws (hlen : max_finger < memory.length)
    (hposition : (finger : Int) + max_len = max_finger)
    (hlt : valueStart memory finger max_len < max_finger) :
    ∃ c, memory[valueStart memory finger max_len]? = some c ∧ isLWS c = false := by
  rw [valueStart] at hlt ⊢
  generalize parse_token max_len (memory.drop finger) = counter at hlt ⊢
  obtain ⟨c, hc, htest⟩ := @scan_stops isLWS (memory.drop (finger + counter + 1))
    (max_len - (counter + 1)).toNat (by rw [List.length_drop]; omega) (by
      change parse_LWS _ _ < _
      omega)
  rw [List.getElem?_drop] at hc
  exact ⟨c, hc, htest⟩

/-- One turn passes a line, or a name and a colon. -/
theorem EndsShort.of_headerStep (hnul : memory[max_finger]? = some '\x00')
    (hhead : Head memory max_finger headers finger max_len) (hcond : finger + 1 < max_finger)
    (hstep : headerStep memory finger max_len = some (.ok (h, finger', max_len')))
    (hnext : finger' ≤ max_finger → EndsShort (slice memory finger' max_finger)) :
    EndsShort (slice memory finger max_finger) := by
  have hlt : max_finger < memory.length := (List.getElem?_eq_some_iff.mp hnul).1
  have hturn := headerStep_turn hlt.le hcond hhead.position hstep
  have hposition := hhead.position
  -- the name, and the colon, which is not behind the end
  obtain ⟨counter, hcounter, hzero, hcolon, hstart⟩ : ∃ counter : Nat,
      counter = parse_token max_len (memory.drop finger) ∧ counter ≠ 0 ∧
      memory[finger + counter]? = some ':' ∧
      valueStart memory finger max_len = finger + counter + 1 +
        parse_LWS (max_len - (counter + 1)) (memory.drop (finger + counter + 1)) := by
    exact ⟨_, rfl, (headerStep_colon hstep).1, (headerStep_colon hstep).2, rfl⟩
  have hcounterLe : counter ≤ max_len.toNat := hcounter ▸ scan_le _ _ _
  have hcolonLt : finger + counter < max_finger := by
    refine Nat.lt_of_le_of_ne (by omega) ?_
    intro heq
    rw [heq, hnul] at hcolon
    cases hcolon
  have hlwsLe : parse_LWS (max_len - (counter + 1)) (memory.drop (finger + counter + 1)) ≤
      (max_len - (counter + 1)).toNat := scan_le _ _ _
  have hname : ∀ c ∈ slice memory finger (finger + counter), isToken c := by
    rw [hcounter]
    exact slice_scan
  have hws : ∀ c ∈ slice memory (finger + counter + 1) (valueStart memory finger max_len),
      isLWS c := by
    rw [hstart]
    exact slice_scan
  have hnameNe : slice memory finger (finger + counter) ≠ [] := by
    refine List.ne_nil_of_length_pos ?_
    rw [length_slice (by omega)]
    omega
  have hstartLe : valueStart memory finger max_len ≤ max_finger := by omega
  have hstartGe : finger + counter + 1 ≤ valueStart memory finger max_len := by omega
  have hsplit : slice memory finger max_finger =
      slice memory finger (finger + counter) ++ ':' ::
        slice memory (finger + counter + 1) max_finger := by
    rw [← slice_append (Nat.le_add_right finger counter) hcolonLt.le,
      slice_cons hcolon hcolonLt]
  rw [hsplit]
  rcases hturn.value with ⟨n, hat, hmax, hbefore, -, hfinger⟩ | ⟨hnone, -, hfinger⟩
  · -- a line
    have hvalue : ∀ q, ¬ CrlfAt (slice memory (finger + counter + 1)
        (valueStart memory finger max_len + n)) q := by
      intro q hq
      obtain ⟨hcrlf, hle'⟩ := crlfAt_of_slice hq
      rcases Nat.lt_or_ge (finger + counter + 1 + q) (valueStart memory finger max_len) with
        hq' | hq'
      · exact hturn.front _ (by omega) hq' hcrlf
      · exact hbefore _ hq' (by omega) hcrlf
    have hrest := hnext (by omega)
    rw [hfinger] at hrest
    have htail : slice memory (finger + counter + 1) max_finger =
        slice memory (finger + counter + 1) (valueStart memory finger max_len + n) ++
          '\r' :: '\n' :: slice memory (valueStart memory finger max_len + n + 2)
            max_finger := by
      rw [← slice_append (by omega : finger + counter + 1 ≤
        valueStart memory finger max_len + n) (by omega), slice_cons hat.1 (by omega),
        slice_cons hat.2 (by omega)]
    have hline := EndsShort.line ⟨slice memory finger (finger + counter), _, hnameNe, hname,
      hvalue⟩ hrest
    rw [htail]
    simp only [HeaderLine.text, List.append_assoc, List.cons_append, List.nil_append] at hline
    exact hline
  · -- a name and a colon
    have hrest := hnext (by omega)
    rw [hfinger] at hrest
    rw [← slice_append hstartGe hstartLe]
    refine .name hnameNe hname hws ?_ ?_ hrest
    · intro c hc
      rw [List.head?_eq_getElem?] at hc
      have hc' := lt_of_getElem?_slice hc
      obtain ⟨d, hd, htest⟩ := valueStart_not_lws hlt hposition hc'
      rw [getElem?_slice hc', Nat.add_zero, hd] at hc
      cases hc
      exact htest
    · intro q hq
      obtain ⟨hcrlf, hle'⟩ := crlfAt_of_slice hq
      exact hnone _ (Nat.le_add_right _ _) hle' hcrlf

/-- A run that stops one byte in front of the end has passed a text that ends short. -/
theorem endsShort_of_headersLoop {r : List HttpHeader × Nat × Int}
    (hnul : memory[max_finger]? = some '\x00') (hhead : Head memory max_finger headers finger max_len)
    (hle : finger ≤ max_finger)
    (hloop : headersLoop malloc memory max_finger headers finger max_len = some (.ok r))
    (hend : r.2.1 + 1 = max_finger) : EndsShort (slice memory finger max_finger) := by
  have hlt : max_finger < memory.length := (List.getElem?_eq_some_iff.mp hnul).1
  induction hsize : max_finger - finger using Nat.strong_induction_on generalizing headers finger
    max_len with
  | h size ih =>
    rw [headersLoop] at hloop
    split at hloop
    · rename_i hcond
      split at hloop
      · cases hloop
      · split at hloop
        · cases hloop
        · cases hloop
        · rename_i h finger' max_len' hstep
          have hstepLt := headerStep_lt hstep
          have hturn := headerStep_turn hlt.le hcond.1 hhead.position hstep
          apply EndsShort.of_headerStep hnul hhead hcond.1 hstep
          intro hle'
          exact ih (max_finger - finger') (by omega) (hhead.next hturn) hle' hloop rfl
    · cases hloop
      dsimp only at hend
      have hget : ∃ c, memory[finger]? = some c :=
        ⟨_, List.getElem?_eq_getElem (by omega : finger < memory.length)⟩
      obtain ⟨c, hc⟩ := hget
      rw [slice_cons hc (by omega), slice, hend, Nat.sub_self, List.take_zero]
      exact .byte c

/-- The content has a negative size for some answers of `malloc` exactly when the text ends
short. -/
theorem negative_content_iff {max_len : Nat} (hnul : memory[max_len]? = some '\x00') :
    (∃ malloc r, parse_headers malloc memory max_len = some (.ok r) ∧ r.content.size < 0) ↔
      EndsShort (memory.take max_len) := by
  have hlt : max_len < memory.length := (List.getElem?_eq_some_iff.mp hnul).1
  have hslice : slice memory 0 max_len = memory.take max_len := rfl
  rw [← hslice]
  constructor
  · rintro ⟨malloc, r, hr, hneg⟩
    rw [parse_headers] at hr
    split at hr
    · cases hr
    · cases hr
    · rename_i header_list finger left hloop
      cases hr
      have hposition := ((atHead_of_headersLoop .start hloop).1.head hlt.le).position
      dsimp only at hposition hneg
      refine endsShort_of_headersLoop hnul .start (Nat.zero_le _) hloop ?_
      dsimp only
      rw [contentAt] at hneg
      dsimp only at hneg
      split at hneg
      · by_contra hne
        have hstop := (atHead_of_headersLoop .start hloop).2
        dsimp only at hstop
        by_cases hfinger : finger + 1 < max_len
        · omega
        · omega
      · omega
  · intro htext
    have hlen : 0 + (slice memory 0 max_len).length = max_len := by
      rw [length_slice hlt.le]
      omega
    obtain ⟨r, hr, hend, hleft⟩ := headersLoop_of_endsShort htext hlt.le rfl hlen []
    obtain ⟨header_list, finger, left⟩ := r
    dsimp only at hend hleft
    refine ⟨fun _ ↦ true, ⟨header_list, contentAt max_len finger left⟩, ?_, ?_⟩
    · rw [parse_headers]
      have hzero : (max_len : Int) - (0 : Nat) = max_len := sub_zero _
      rw [hzero] at hr
      rw [hr]
    · rw [contentAt, hleft]
      change (if (1 : Int) > 0 then (1 : Int) - 2 else 0) < 0
      decide

end Upnp.HttpMessage
