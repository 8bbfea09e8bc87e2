import Upnp.HttpMessage.CutShort
import Upnp.HttpMessage.HeaderValue
import Upnp.HttpMessage.StartLine

/-!
# A block of headers

What `parse_headers` stores for lines that end with CRLF, an empty line and what is behind it.
-/

namespace Upnp.HttpMessage

open Upnp.Lib

/-- The lines of a block. -/
def blockText (lines : List HeaderLine) : CString := lines.flatMap HeaderLine.text

/-- The header of a line, and what is behind its value. -/
structure Stores (memory : CString) (line : HeaderLine) (h : HttpHeader) : Prop where
  name : h.header.text memory = line.name
  value : h.value.text memory = line.value.dropWhile isLWS
  behind : ∀ buff, h.value.buff = some buff →
    ∃ rest, memory.drop buff = line.value.dropWhile isLWS ++ '\r' :: '\n' :: rest

variable {memory : CString} {finger finger' : Nat} {max_len max_len' : Int} {h : HttpHeader}

/-- The name stands at the finger, and the value where white space ends. -/
theorem headerStep_places (hstep : headerStep memory finger max_len =
      some (.ok (h, finger', max_len'))) :
    h.header = ⟨some finger, parse_token max_len (memory.drop finger)⟩ ∧
      ∀ buff, h.value.buff = some buff → buff = valueStart memory finger max_len := by
  have hplace : ∀ (pos : Nat) (max : Int) (input : CString) (buff : Nat),
      (parse_header_value pos max input).1.buff = some buff → buff = pos := by
    intro pos max input buff hbuff
    rw [parse_header_value] at hbuff
    dsimp only at hbuff
    split at hbuff
    · cases hbuff
    · exact (Option.some.inj hbuff).symm
  rw [headerStep] at hstep
  dsimp only at hstep
  split at hstep
  · cases hstep
  split at hstep
  · cases hstep
  split at hstep
  · cases hstep
  cases hstep
  refine ⟨rfl, fun buff hbuff ↦ ?_⟩
  dsimp only at hbuff
  split at hbuff
  · cases hbuff
  · exact hplace _ _ _ _ hbuff

theorem length_text_ge (line : HeaderLine) : 4 ≤ line.text.length := by
  have hname := List.length_pos_of_ne_nil line.name_ne_nil
  rw [HeaderLine.text, List.length_append, List.length_cons, List.length_append]
  simp only [List.length_cons, List.length_nil]
  omega

/-- A line is stored, and the finger goes behind it. -/
theorem headerStep_stores (front rest : CString) (line : HeaderLine) {max_len : Nat}
    (hline : line.text.length ≤ max_len)
    (hlen : front.length + max_len ≤ (front ++ (line.text ++ rest)).length) :
    ∃ h, headerStep (front ++ (line.text ++ rest)) front.length max_len =
        some (.ok (h, front.length + line.text.length, max_len - line.text.length)) ∧
      Stores (front ++ (line.text ++ rest)) line h := by
  obtain ⟨h, hstep, hvalue⟩ := headerStep_line front rest line hline hlen
  obtain ⟨hheader, hplace⟩ := headerStep_places hstep
  have hsplit : line.value.takeWhile isLWS ++ line.value.dropWhile isLWS = line.value :=
    List.takeWhile_append_dropWhile
  have hws : ∀ c ∈ line.value.takeWhile isLWS, isLWS c := fun c hc ↦ List.mem_takeWhile_imp hc
  have hmore : ∀ c ∈ (line.value.dropWhile isLWS ++ '\r' :: '\n' :: rest).head?,
      isLWS c = false := by
    intro c hc
    have hnot := List.head?_dropWhile_not isLWS line.value
    cases hdrop : line.value.dropWhile isLWS with
    | nil =>
      rw [hdrop] at hc
      cases hc
      decide
    | cons d v =>
      rw [hdrop] at hc hnot
      cases hc
      simpa using hnot
  have hdrop : (front ++ (line.text ++ rest)).drop front.length =
      line.name ++ ':' :: (line.value.takeWhile isLWS ++
        (line.value.dropWhile isLWS ++ '\r' :: '\n' :: rest)) := by
    rw [List.drop_left, HeaderLine.text]
    nth_rewrite 1 [← hsplit]
    simp only [List.append_assoc, List.cons_append, List.nil_append]
  have hlength : line.text.length = line.name.length + 1 + (line.value.takeWhile isLWS).length +
      (line.value.dropWhile isLWS).length + 2 := by
    rw [HeaderLine.text]
    nth_rewrite 1 [← hsplit]
    simp only [List.length_append, List.length_cons, List.length_nil]
    omega
  have htoken : parse_token max_len ((front ++ (line.text ++ rest)).drop front.length) =
      line.name.length := by
    rw [parse_token, hdrop]
    refine scan_append line.name_token ?_ (by omega)
    rintro c hc
    cases hc
    decide
  obtain ⟨-, hstart⟩ := headerStep_front hdrop line.name_ne_nil line.name_token hws hmore
    (show _ ≤ (max_len : Int) by omega)
  refine ⟨h, hstep, ?_, hvalue, fun buff hbuff ↦ ⟨rest, ?_⟩⟩
  · rw [hheader, htoken, Token.text]
    dsimp only
    rw [hdrop, Int.toNat_natCast, List.take_left]
  · have hsum : front.length + line.name.length + 1 + (line.value.takeWhile isLWS).length =
        front.length + (line.name ++ ':' :: line.value.takeWhile isLWS).length := by
      simp only [List.length_append, List.length_cons]
      omega
    have hassoc : line.name ++ ':' :: (line.value.takeWhile isLWS ++
        (line.value.dropWhile isLWS ++ '\r' :: '\n' :: rest)) =
          line.name ++ ':' :: line.value.takeWhile isLWS ++
            (line.value.dropWhile isLWS ++ '\r' :: '\n' :: rest) := by
      simp only [List.append_assoc, List.cons_append]
    rw [hplace buff hbuff, hstart, hsum, ← List.drop_drop, hdrop, hassoc, List.drop_left]

theorem blockText_cons (line : HeaderLine) (lines : List HeaderLine) :
    blockText (line :: lines) = line.text ++ blockText lines := List.flatMap_cons

/-- What is behind a line. -/
theorem drop_crlf (text rest : CString) :
    (text ++ '\r' :: '\n' :: rest).drop (text.length + 2) = rest := by
  rw [← List.drop_drop, List.drop_left]
  rfl

theorem not_crlfAt_line (front rest : CString) (line : HeaderLine) :
    ¬ CrlfAt (front ++ (line.text ++ rest)) front.length := by
  obtain ⟨c, name, hname⟩ := List.exists_cons_of_ne_nil line.name_ne_nil
  have hget : (front ++ (line.text ++ rest))[front.length]? = some c := by
    rw [List.getElem?_append_right le_rfl, Nat.sub_self, HeaderLine.text, hname]
    rfl
  refine not_crlfAt_of_ne hget ?_
  rintro rfl
  have htoken := line.name_token '\r' (hname ▸ List.mem_cons_self)
  exact absurd htoken (by decide)

/-- **The loop stores the lines**, up to the empty line. -/
theorem headersLoop_lines {malloc : Nat → Bool} (hmalloc : ∀ i, malloc i = true)
    (lines : List HeaderLine) (front rest : CString) (headers : List HttpHeader) {max_len : Nat}
    (hmax : (blockText lines).length + 2 ≤ max_len)
    (hlen : front.length + max_len ≤ (front ++ (blockText lines ++ '\r' :: '\n' :: rest)).length) :
    ∃ stored, headersLoop malloc (front ++ (blockText lines ++ '\r' :: '\n' :: rest))
        (front.length + max_len) headers front.length max_len =
      some (.ok (headers ++ stored, front.length + (blockText lines).length,
        max_len - (blockText lines).length)) ∧
      List.Forall₂ (Stores (front ++ (blockText lines ++ '\r' :: '\n' :: rest))) lines stored := by
  induction lines generalizing front headers max_len with
  | nil =>
    refine ⟨[], ?_, .nil⟩
    have hcrlf : CrlfAt (front ++ (blockText [] ++ '\r' :: '\n' :: rest)) front.length :=
      crlfAt_append front rest
    rw [headersLoop, if_neg (fun hcond ↦ hcond.2 hcrlf), List.append_nil]
    rfl
  | cons line lines ih =>
    have hmemory : front ++ (blockText (line :: lines) ++ '\r' :: '\n' :: rest) =
        front ++ (line.text ++ (blockText lines ++ '\r' :: '\n' :: rest)) := by
      rw [blockText_cons, List.append_assoc]
    have hassoc : front ++ (line.text ++ (blockText lines ++ '\r' :: '\n' :: rest)) =
        front ++ line.text ++ (blockText lines ++ '\r' :: '\n' :: rest) := by
      rw [List.append_assoc]
    have hfour := length_text_ge line
    rw [hmemory] at hlen ⊢
    rw [blockText_cons, List.length_append] at hmax ⊢
    obtain ⟨h, hstep, hstores⟩ := headerStep_stores front
      (blockText lines ++ '\r' :: '\n' :: rest) line (show line.text.length ≤ max_len by omega) hlen
    have hcast : (max_len : Int) - line.text.length = (max_len - line.text.length : Nat) := by
      omega
    have hfront : front.length + line.text.length = (front ++ line.text).length := by
      rw [List.length_append]
    have hfinger : front.length + max_len =
        (front ++ line.text).length + (max_len - line.text.length) := by
      rw [← hfront]
      omega
    obtain ⟨stored, hloop, hall⟩ := @ih (front ++ line.text) (headers ++ [h])
      (max_len - line.text.length) (by omega) (by
        rw [← hassoc, ← hfinger]
        exact hlen)
    rw [← hassoc] at hall
    refine ⟨h :: stored, ?_, .cons hstores hall⟩
    rw [headersLoop_next ⟨by omega, not_crlfAt_line front _ line⟩ (hmalloc _) hstep, hcast, hfront,
      hfinger, hassoc, hloop, List.append_assoc, List.length_append]
    refine congrArg some (congrArg Except.ok (Prod.ext rfl (Prod.ext ?_ ?_)))
    · exact Nat.add_assoc ..
    · dsimp only
      omega

/-- **The headers of a block are stored, and the content is what is behind it.** -/
theorem parse_headers_block {malloc : Nat → Bool} (hmalloc : ∀ i, malloc i = true)
    (lines : List HeaderLine) (content behind : CString) : ∃ r,
    parse_headers malloc (blockText lines ++ '\r' :: '\n' :: (content ++ behind))
        ((blockText lines).length + 2 + content.length) = some (.ok r) ∧
      List.Forall₂ (Stores (blockText lines ++ '\r' :: '\n' :: (content ++ behind))) lines
        r.header_list ∧
      r.content = ⟨some ((blockText lines).length + 2), content.length⟩ := by
  obtain ⟨stored, hloop, hall⟩ := @headersLoop_lines malloc hmalloc lines [] (content ++ behind) []
    ((blockText lines).length + 2 + content.length) (Nat.le_add_right _ _) (by
      simp only [List.nil_append, List.length_append, List.length_cons, List.length_nil]
      omega)
  simp only [List.nil_append, List.length_nil, Nat.zero_add] at hloop hall
  refine ⟨⟨stored, contentAt ((blockText lines).length + 2 + content.length)
    (blockText lines).length (((blockText lines).length + 2 + content.length : Nat) -
      (blockText lines).length)⟩, ?_, hall, ?_⟩
  · rw [parse_headers, hloop]
  · have hpos : (blockText lines).length + 1 <
        (blockText lines).length + 2 + content.length := by
      omega
    have hleft : (((blockText lines).length + 2 + content.length : Nat) : Int) -
        (blockText lines).length = content.length + 2 := by
      omega
    rw [contentAt, if_pos hpos, hleft, if_pos (by omega), add_sub_cancel_right]

/-! ## The request line -/

/-- A line goes to the first CRLF. -/
theorem lineLoop_line {line : CString} (h : '\r' ∉ line) (rest : CString) {max : Nat}
    (hmax : line.length + 2 ≤ max) : lineLoop max (line ++ '\r' :: '\n' :: rest) = line.length := by
  induction line generalizing max with
  | nil =>
    obtain ⟨m, rfl⟩ := Nat.exists_eq_add_of_le' hmax
    exact if_pos ⟨rfl, rfl⟩
  | cons c line ih =>
    obtain ⟨m, rfl⟩ := Nat.exists_eq_add_of_le' hmax
    rw [List.mem_cons, not_or] at h
    obtain ⟨hc, hline⟩ := h
    have hmore := @ih hline (m + line.length + 2) (by omega)
    have hstep : lineLoop (m + line.length + 1 + 2) (c :: (line ++ '\r' :: '\n' :: rest)) =
        lineLoop (m + line.length + 2) (line ++ '\r' :: '\n' :: rest) + 1 :=
      if_neg fun hcr ↦ hc hcr.1.symm
    rw [hmore] at hstep
    exact hstep

theorem parse_http_line_line {line : CString} (h : '\r' ∉ line) (rest : CString) {max_len : Int}
    (hmax : (line.length : Int) + 2 ≤ max_len) :
    parse_http_line max_len (line ++ '\r' :: '\n' :: rest) = line.length + 2 := by
  rw [parse_http_line, lineLoop_line h rest (by omega)]
  exact if_neg (by omega)

theorem hostport_error {env : Uri.Env} {pos max : Nat} {input : CString} {code : Int}
    (h : Uri.hostport env pos input max = some (.error code)) :
    code = Uri.UPNP_E_INVALID_URL ∨ code = Uri.UPNP_E_OUTOF_MEMORY := by
  rw [Uri.hostport] at h
  obtain ⟨found, -, h⟩ := Option.bind_eq_some_iff.mp h
  split at h
  · rw [Uri.parse_hostport] at h
    obtain ⟨host_size, -, h⟩ := Option.bind_eq_some_iff.mp h
    obtain ⟨port, -, h⟩ := Option.bind_eq_some_iff.mp h
    cases port with
    | none =>
      cases h
      exact .inl rfl
    | some port =>
      dsimp only at h
      split at h
      · split at h
        · cases h
        · cases h
          exact .inl rfl
      · cases h
        exact .inr rfl
  · cases h

/-- Errors have no value 0. -/
theorem uriValue_ne_zero {env : Uri.Env} {pos max : Nat} {r : Except Int Uri.URI}
    (h : Uri.parse_uri env memory pos max = some r) : uriValue r ≠ 0 := by
  cases r with
  | ok u => exact Int.one_ne_zero
  | error code =>
    rw [Uri.parse_uri] at h
    obtain ⟨size, -, h⟩ := Option.bind_eq_some_iff.mp h
    obtain ⟨host, hhost, h⟩ := Option.bind_eq_some_iff.mp h
    cases host with
    | error code' =>
      cases h
      rcases hostport_error hhost with rfl | rfl <;> decide
    | ok host =>
      obtain ⟨path, -, h⟩ := Option.bind_eq_some_iff.mp h
      cases h

/-- A request line of three words is taken. -/
theorem parse_request_line_words (env : Uri.Env) {method path version : CString}
    (hmethod : method ≠ [] ∧ ∀ c ∈ method, isToken c)
    (hpath : path ≠ [] ∧ ∀ c ∈ path, isLWS c = false)
    (hversion : '\r' ∉ version ∧ ∀ c ∈ version.head?, isLWS c = false) (rest : CString)
    {max_size : Nat} (hmax : method.length + path.length + version.length + 4 ≤ max_size)
    (hlen : max_size ≤
      (method ++ ' ' :: (path ++ ' ' :: (version ++ '\r' :: '\n' :: rest))).length) :
    ∃ out, parse_request_line env max_size
        (method ++ ' ' :: (path ++ ' ' :: (version ++ '\r' :: '\n' :: rest))) =
      some (some (method.length + path.length + version.length + 4, out)) ∧
      out.method = ⟨some 0, method.length⟩ := by
  obtain ⟨hmethod, htoken⟩ := hmethod
  obtain ⟨hpath, hdark⟩ := hpath
  obtain ⟨hline, hstart⟩ := hversion
  have hne : method.length ≠ 0 := mt List.length_eq_zero_iff.mp hmethod
  generalize hbuffer : method ++ ' ' :: (path ++ ' ' :: (version ++ '\r' :: '\n' :: rest)) = buffer
    at hlen ⊢
  have hblank : ∀ (k : Nat) (w w' : CString), buffer.drop k = w ++ w' →
      buffer.drop (k + w.length) = w' := by
    intro k w w' h
    rw [← List.drop_drop, h, List.drop_left]
  have h₁ := hblank 0 method _ hbuffer.symm
  have h₂ := hblank _ [' '] _ h₁
  have h₃ := hblank _ path _ h₂
  have h₄ := hblank _ [' '] _ h₃
  rw [Nat.zero_add] at h₁ h₂ h₃ h₄
  rw [List.length_singleton] at h₂ h₃ h₄
  have hscan₁ : parse_token max_size buffer = method.length := by
    rw [parse_token, ← hbuffer]
    refine scan_append htoken ?_ (by omega)
    rintro c hc
    cases hc
    decide
  have hscan₂ : parse_LWS ((max_size : Int) - method.length) (buffer.drop method.length) = 1 := by
    rw [parse_LWS, h₁]
    refine @scan_append isLWS _ [' '] _ (List.forall_mem_singleton.mpr rfl) ?_ (by
      rw [List.length_singleton]
      omega)
    intro c hc
    obtain ⟨d, path', hcons⟩ := List.exists_cons_of_ne_nil hpath
    rw [hcons] at hc
    cases hc
    exact hdark _ (hcons ▸ List.mem_cons_self)
  have hscan₃ : parse_not_LWS ((max_size : Int) - method.length - 1)
      (buffer.drop (method.length + 1)) = path.length := by
    rw [parse_not_LWS, h₂]
    refine scan_append (fun c hc ↦ ?_) ?_ (by omega)
    · rw [hdark c hc]
      rfl
    · rintro c hc
      cases hc
      decide
  have hscan₄ : parse_LWS ((max_size : Int) - method.length - 1 - path.length)
      (buffer.drop (method.length + 1 + path.length)) = 1 := by
    rw [parse_LWS, h₃]
    refine @scan_append isLWS _ [' '] _ (List.forall_mem_singleton.mpr rfl) ?_ (by
      rw [List.length_singleton]
      omega)
    intro c hc
    cases version with
    | nil =>
      cases hc
      decide
    | cons d version => exact hstart c hc
  have hscan₅ : parse_http_line ((max_size : Int) - method.length - 1 - path.length - 1)
      (buffer.drop (method.length + 1 + path.length + 1)) = version.length + 2 := by
    rw [h₄]
    exact parse_http_line_line hline rest (by omega)
  have hsome : (Uri.parse_uri env buffer (method.length + 1)
      ((max_size : Int) - method.length - 1).toNat).isSome :=
    Uri.parse_uri_isSome (by
      rw [List.length_drop]
      omega)
  obtain ⟨r, hr⟩ := Option.isSome_iff_exists.mp hsome
  have hsize : method.length + 1 + path.length + 1 + (version.length + 2) =
      method.length + path.length + version.length + 4 := by
    omega
  rw [parse_request_line, hscan₁]
  dsimp only
  rw [if_neg hne, hscan₂]
  simp only [Nat.cast_one, hscan₃, hscan₄, hscan₅]
  rw [hr, Option.map_some, if_neg (uriValue_ne_zero hr), if_neg (Nat.succ_ne_zero _), hsize]
  exact ⟨_, rfl, rfl⟩

end Upnp.HttpMessage
