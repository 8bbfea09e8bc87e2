import Upnp.MiniServer.Request

/-!
# The document of a request

`ReadRequest` counts the body of a request in reads of three bytes, each from
one piece of the stream, and takes whatever the last of them has.  The document
is the request and its body exactly where one of these reads ends with the body.
-/

namespace Upnp.MiniServer

open Upnp.Lib
open RCode HTTP_COMMAND_TYPE

/-- The length that the server takes for `n`. -/
def contentLengthOf (n : Nat) : Int := wrap32 (clampLong n)

/-- A request that is refused for its lines: an unknown method, a header that is taken for the
length and malformed, or a length that becomes negative as an `int` where one is required. -/
def Refused {n : Nat} (request : Request n) : Prop :=
  GetCommandType request.reqLine.chars = CMD_HTTP_UNKNOWN ∨
    (∃ line ∈ request.before, Misread line.text) ∨
    contentLengthOf n < 0 ∧
      ((∃ line ∈ request.behind, Misread line.text) ∨
        GetCommandType request.reqLine.chars = CMD_SOAP_POST ∨
        GetCommandType request.reqLine.chars = CMD_SOAP_MPOST)

/-- What reading a request has to do: the document has the `n` bytes behind the headers, if they
arrive, and there is an error if they do not. -/
structure ReadsExactly {n : Nat} (request : Request n) (body : CString)
    (result : Except RCode CString) : Prop where
  document : n ≤ body.length → result = .ok (request.head ++ body.take n)
  incomplete : body.length < n → ∃ code, result = .error code

theorem contentLengthOf_of_le {n : Nat} (h : n ≤ intMax) : contentLengthOf n = n := by
  have hclamp : clampLong n = n := by
    unfold clampLong intMax at *
    omega
  rw [contentLengthOf, hclamp]
  exact wrap32_of_range (by omega) h

/-- A length that does not fit is taken for a much smaller one. -/
theorem contentLengthOf_lt {n : Nat} (h : intMax < n) : contentLengthOf n + BUFSIZE ≤ n := by
  have hrange := wrap32_range (clampLong n)
  obtain ⟨k, hk⟩ := wrap32_dvd (clampLong n)
  unfold contentLengthOf BUFSIZE
  unfold clampLong intMax at *
  omega

/-- The request line, when its method is known. -/
theorem ReadRequest_line {line : TextLine} {rest : CString} {reads : List CString}
    (hreads : ∀ p ∈ reads, p ≠ []) (hflat : reads.flatten = line.chars ++ rest) :
    ∃ r : NetReader1, r.Holds (dropBytes line.chars.length reads) ∧
      ReadRequest (reads.map some) =
        let cmd := GetCommandType line.chars
        if cmd = CMD_HTTP_UNKNOWN then .error RCODE_METHOD_NOT_IMPLEMENTED
        else
          match readHeaders r line.chars (-1) with
          | (.error code, _) => .error code
          | (.ok (document, contentLength), r) =>
            if contentLength < 0 ∧ (cmd = CMD_SOAP_POST ∨ cmd = CMD_SOAP_MPOST) then
              .error RCODE_LENGTH_NOT_SPECIFIED
            else if 0 < contentLength then readBody contentLength r document 0
            else .ok document := by
  obtain ⟨r, hline, hr⟩ := line.getLine (.refill hreads) hflat
  refine ⟨r, hr, ?_⟩
  unfold ReadRequest
  generalize NetReader1.getLine ⟨[], reads.map some⟩ = got at hline ⊢
  subst hline
  rfl

/-- The headers before the length, and the length. -/
theorem readHeaders_length {n : Nat} {request : Request n} {rest : CString} {r : NetReader1}
    {ps : List CString} (document : CString) (hok : ∀ line ∈ request.before, ¬ Misread line.text)
    (h : r.Holds ps)
    (hflat : ps.flatten = flatLines request.before ++ (request.lengthLine.chars ++ rest)) :
    ∃ r' : NetReader1,
      r'.Holds (dropBytes (flatLines request.before ++ request.lengthLine.chars).length ps) ∧
      readHeaders r document (-1) = readHeaders r'
        (document ++ (flatLines request.before ++ request.lengthLine.chars)) (contentLengthOf n) := by
  have hother : ∀ line ∈ request.before, Other line :=
    fun line hline ↦ request.other line (List.mem_append_left _ hline)
  obtain ⟨r₁, length, hr₁, hpass, -, hneg⟩ := readHeaders_pass document hother
    (fun _ : (-1 : Int) < 0 ↦ hok) h hflat
  have hrest : (dropBytes (flatLines request.before).length ps).flatten =
      request.lengthLine.chars ++ rest := by
    rw [flatten_dropBytes, hflat, List.drop_left]
  obtain ⟨r', hr', hstep⟩ := readHeaders_cons (document ++ flatLines request.before) length hr₁
    hrest
  refine ⟨r', ?_, ?_⟩
  · rw [dropBytes_add] at hr'
    rwa [List.length_append]
  · have hne : request.lengthLine.text ≠ [] := by
      obtain ⟨name, blanks, digits, blanks', htext, -⟩ := request.states
      rw [htext]
      simp
    rw [hpass, hstep, if_pos (hneg (by decide)), ParseContentLength_length request.states]
    show (if false then _ else if _ then _ else _) = _
    rw [if_neg (by decide), if_neg (mt request.lengthLine.chars_empty_iff.mp hne),
      List.append_assoc]
    rfl

/-- The headers behind the length, and the empty line. -/
theorem readHeaders_end {n : Nat} {request : Request n} {rest : CString} {length : Int}
    {r : NetReader1} {ps : List CString} (document : CString)
    (hok : length < 0 → ∀ line ∈ request.behind, ¬ Misread line.text) (h : r.Holds ps)
    (hflat : ps.flatten = flatLines request.behind ++ (request.emptyLine.chars ++ rest)) :
    ∃ (r' : NetReader1) (length' : Int),
      r'.Holds (dropBytes (flatLines request.behind ++ request.emptyLine.chars).length ps) ∧
      readHeaders r document length =
        (.ok (document ++ (flatLines request.behind ++ request.emptyLine.chars), length'), r') ∧
      (0 ≤ length → length' = length) ∧ (length < 0 → length' < 0) := by
  have hother : ∀ line ∈ request.behind, Other line :=
    fun line hline ↦ request.other line (List.mem_append_right _ hline)
  obtain ⟨r₁, length₁, hr₁, hpass, hpos₁, hneg₁⟩ := readHeaders_pass document hother hok h
    hflat
  have hrest : (dropBytes (flatLines request.behind).length ps).flatten =
      request.emptyLine.chars ++ rest := by
    rw [flatten_dropBytes, hflat, List.drop_left]
  obtain ⟨r', length', hr', hend, hpos, hneg⟩ := readHeaders_empty
    (document ++ flatLines request.behind) length₁ request.isEmpty hr₁ hrest
  refine ⟨r', length', ?_, ?_, ?_, fun hlt ↦ hneg (hneg₁ hlt)⟩
  · rw [dropBytes_add] at hr'
    rwa [List.length_append]
  · rw [hpass, hend, List.append_assoc]
  · intro hge
    rw [hpos (hpos₁ hge ▸ hge), hpos₁ hge]

/-- The request line and the headers, part by part. -/
theorem Request.head_eq {n : Nat} (request : Request n) :
    request.head = request.reqLine.chars ++
      ((flatLines request.before ++ request.lengthLine.chars) ++
        (flatLines request.behind ++ request.emptyLine.chars)) := by
  unfold Request.head Request.lines flatLines
  rw [List.flatMap_append, List.flatMap_cons]
  simp only [List.append_assoc]

/-- A request that is refused is an error, and of any other the body is read. -/
theorem ReadRequest_spec {n : Nat} (request : Request n) {reads : List CString} {body : CString}
    (hreads : ∀ p ∈ reads, p ≠ []) (hstream : reads.flatten = request.head ++ body) :
    (Refused request → ∃ code, ReadRequest (reads.map some) = .error code) ∧
      (¬ Refused request → ∃ r : NetReader1, r.Holds (dropBytes request.head.length reads) ∧
        ReadRequest (reads.map some) =
          if 0 < contentLengthOf n then readBody (contentLengthOf n) r request.head 0
          else .ok request.head) := by
  rw [request.head_eq] at hstream ⊢
  obtain ⟨r₀, hr₀, hread⟩ := ReadRequest_line hreads (hstream.trans (List.append_assoc ..))
  by_cases hcmd : GetCommandType request.reqLine.chars = CMD_HTTP_UNKNOWN
  · refine ⟨fun _ ↦ ⟨_, hread.trans (if_pos hcmd)⟩, fun h ↦ absurd (.inl hcmd) h⟩
  replace hread := hread.trans (if_neg hcmd)
  -- an error in the headers is the answer
  have hheaders : ∀ code, (readHeaders r₀ request.reqLine.chars (-1)).1 = .error code →
      ReadRequest (reads.map some) = .error code := by
    intro code herror
    rw [hread]
    split
    · rename_i heq
      rw [heq] at herror
      exact congrArg Except.error (Except.error.inj herror)
    · rename_i heq
      rw [heq] at herror
      cases herror
  have hflat₀ : (dropBytes request.reqLine.chars.length reads).flatten =
      flatLines request.before ++ (request.lengthLine.chars ++
        (flatLines request.behind ++ (request.emptyLine.chars ++ body))) := by
    rw [flatten_dropBytes, hstream, List.append_assoc, List.drop_left]
    simp only [List.append_assoc]
  by_cases hmis : ∃ line ∈ request.before, Misread line.text
  · have herror := readHeaders_misread request.reqLine.chars
      (fun line hline ↦ request.other line (List.mem_append_left _ hline))
      (by decide : (-1 : Int) < 0) hmis hr₀ hflat₀
    refine ⟨fun _ ↦ ⟨RCODE_MALFORMED_LINE, ?_⟩, fun h ↦ absurd (.inr (.inl hmis)) h⟩
    exact hheaders _ herror
  obtain ⟨r₁, hr₁, hlength⟩ := readHeaders_length
    request.reqLine.chars (fun line hline hm ↦ hmis ⟨line, hline, hm⟩) hr₀ hflat₀
  rw [hlength] at hread
  have hflat₁ : (dropBytes (flatLines request.before ++ request.lengthLine.chars).length
      (dropBytes request.reqLine.chars.length reads)).flatten =
      flatLines request.behind ++ (request.emptyLine.chars ++ body) := by
    rw [flatten_dropBytes, hflat₀, ← List.append_assoc, List.drop_left]
  by_cases hmis₁ : contentLengthOf n < 0 ∧ ∃ line ∈ request.behind, Misread line.text
  · have herror := readHeaders_misread
      (request.reqLine.chars ++ (flatLines request.before ++ request.lengthLine.chars))
      (fun line hline ↦ request.other line (List.mem_append_right _ hline)) hmis₁.1 hmis₁.2 hr₁
      hflat₁
    refine ⟨fun _ ↦ ⟨RCODE_MALFORMED_LINE, ?_⟩, fun h ↦ absurd
      (.inr (.inr ⟨hmis₁.1, .inl hmis₁.2⟩)) h⟩
    exact hheaders _ ((congrArg Prod.fst hlength).trans herror)
  obtain ⟨r₂, length, hr₂, hend, hpos, hneg⟩ := readHeaders_end
    (request.reqLine.chars ++ (flatLines request.before ++ request.lengthLine.chars))
    (fun hlt line hline hm ↦ hmis₁ ⟨hlt, line, hline, hm⟩) hr₁ hflat₁
  rw [hend, List.append_assoc] at hread
  rw [dropBytes_add, dropBytes_add, ← List.length_append, ← List.length_append] at hr₂
  by_cases hlt : contentLengthOf n < 0
  · by_cases hpost : GetCommandType request.reqLine.chars = CMD_SOAP_POST ∨
      GetCommandType request.reqLine.chars = CMD_SOAP_MPOST
    · exact ⟨fun _ ↦ ⟨_, hread.trans (if_pos ⟨hneg hlt, hpost⟩)⟩,
        fun h ↦ absurd (.inr (.inr ⟨hlt, .inr hpost⟩)) h⟩
    · refine ⟨?_, fun _ ↦ ⟨r₂, hr₂, ?_⟩⟩
      · rintro (h | h | ⟨-, h | h⟩)
        · exact absurd h hcmd
        · exact absurd h hmis
        · exact absurd ⟨hlt, h⟩ hmis₁
        · exact absurd h hpost
      · rw [if_neg (by omega)]
        have hlt' := hneg hlt
        exact hread.trans ((if_neg fun h ↦ hpost h.2).trans (if_neg (by omega)))
  · refine ⟨?_, fun _ ↦ ⟨r₂, hr₂, ?_⟩⟩
    · rintro (h | h | ⟨h, -⟩)
      · exact absurd h hcmd
      · exact absurd h hmis
      · exact absurd h hlt
    · rw [hpos (not_lt.mp hlt)] at hread
      exact hread.trans (if_neg fun h ↦ hlt h.1)

/-- The document of a request is exact where its last read ends with the body; it is refused for
its lines, and not for a body that does not arrive, where an error is due for that. -/
theorem request_read_iff {n : Nat} (request : Request n) {reads : List CString} {body : CString}
    (hreads : ∀ p ∈ reads, p ≠ []) (hstream : reads.flatten = request.head ++ body) :
    ReadsExactly request body (ReadRequest (reads.map some)) ↔
      Refused request ∧ body.length < n ∨
        ¬ Refused request ∧ (n = 0 ∨ n ≤ intMax ∧ '\x00' ∉ body.take n ∧
          readsEndAt n (dropBytes request.head.length reads)) := by
  obtain ⟨hrefused, hread⟩ := ReadRequest_spec request hreads hstream
  have hbody : (dropBytes request.head.length reads).flatten = body := by
    rw [flatten_dropBytes, hstream, List.drop_left]
  by_cases h : Refused request
  · obtain ⟨code, hcode⟩ := hrefused h
    rw [hcode]
    simp only [h, true_and, not_true, false_and, or_false]
    constructor
    · intro hexact
      by_contra hle
      cases hexact.document (not_lt.mp hle)
    · intro hlt
      exact ⟨fun hle ↦ absurd hlt (not_lt.mpr hle), fun _ ↦ ⟨code, rfl⟩⟩
  obtain ⟨r, hr, hresult⟩ := hread h
  simp only [h, not_false_eq_true, true_and, false_and, false_or]
  rw [hresult]
  by_cases hzero : n = 0
  · subst hzero
    refine iff_of_true ⟨fun _ ↦ ?_, fun hlt ↦ absurd hlt (Nat.not_lt_zero _)⟩ (.inl rfl)
    rw [List.take_zero, List.append_nil]
    rfl
  by_cases hmax : n ≤ intMax
  · -- the loop over the body runs until it has `n` bytes or more
    have htotal : contentLengthOf n = (0 : Nat) + (n : Int) := by
      rw [contentLengthOf_of_le hmax, Nat.cast_zero, zero_add]
    obtain ⟨text, htext, -, -, hiff⟩ := readBody_spec request.head 0 (Nat.pos_of_ne_zero hzero)
      htotal hr
    rw [hbody] at hiff
    rw [if_pos (by rw [contentLengthOf_of_le hmax]; omega), htext]
    simp only [hzero, hmax, true_and, false_or]
    rw [← hiff]
    constructor
    · intro hexact
      have hle : n ≤ body.length := by
        by_contra hlt
        obtain ⟨code, hcode⟩ := hexact.incomplete (not_le.mp hlt)
        cases hcode
      exact ⟨List.append_cancel_left (Except.ok.inj (hexact.document hle)), hle⟩
    · rintro ⟨rfl, hle⟩
      exact ⟨fun _ ↦ rfl, fun hlt ↦ absurd hlt (not_lt.mpr hle)⟩
  · -- fewer bytes are read than the request has
    have hshort : ∃ text : CString, (if 0 < contentLengthOf n then
        readBody (contentLengthOf n) r request.head 0 else .ok request.head) =
        .ok (request.head ++ text) ∧ text.length < n := by
      have hlt := contentLengthOf_lt (not_le.mp hmax)
      split
      · rename_i hpos
        have htotal : contentLengthOf n = (0 : Nat) + ((contentLengthOf n).toNat : Int) := by
          rw [Nat.cast_zero, zero_add, Int.toNat_of_nonneg hpos.le]
        obtain ⟨text, htext, -, hlength, -⟩ := readBody_spec request.head 0
          (Int.pos_iff_toNat_pos.mp hpos) htotal hr
        exact ⟨text, htext, by omega⟩
      · refine ⟨[], ?_, Nat.pos_of_ne_zero hzero⟩
        rw [List.append_nil]
    obtain ⟨text, htext, hlength⟩ := hshort
    rw [htext]
    apply iff_of_false
    · intro hexact
      by_cases hle : n ≤ body.length
      · have heq := List.append_cancel_left (Except.ok.inj (hexact.document hle))
        have := congrArg List.length heq
        rw [List.length_take, min_eq_left hle] at this
        omega
      · obtain ⟨code, hcode⟩ := hexact.incomplete (not_le.mp hle)
        cases hcode
    · rintro (hz | hle)
      · exact hzero hz
      · exact hmax hle.1

/-- A line of the request below. -/
def plainLine (text : CString) (hcr : '\r' ∉ text) (hlf : '\n' ∉ text) (hnul : '\x00' ∉ text) :
    TextLine :=
  ⟨text, ['\r', '\n'], .inl rfl, hcr, hlf, hnul⟩

/-- A notification with a body of three bytes. -/
def notifyThree : Request 3 where
  reqLine := plainLine "NOTIFY / HTTP/1.1".toList (by decide +kernel) (by decide +kernel)
    (by decide +kernel)
  before := []
  lengthLine := plainLine "Content-Length: 3".toList (by decide +kernel) (by decide +kernel)
    (by decide +kernel)
  behind := []
  emptyLine := plainLine [] List.not_mem_nil List.not_mem_nil List.not_mem_nil
  states := ⟨"Content-Length".toList, [' '], ['3'], [], by decide +kernel,
    ⟨by decide +kernel, forall_mem_of_all (by decide +kernel)⟩, forall_mem_of_all (by decide),
    forall_mem_of_all (by decide), by decide, by decide, by decide⟩
  other := by rintro line ⟨⟩
  isEmpty := rfl

theorem request_read_three :
    ReadsExactly notifyThree "abc".toList
      (ReadRequest [some (notifyThree.head ++ "abc".toList)]) := by
  have hreads : ∀ p ∈ [notifyThree.head ++ "abc".toList], p ≠ [] := by decide +kernel
  refine (request_read_iff notifyThree hreads (List.append_nil _)).mpr
    (.inr ⟨?_, .inr ⟨by decide, by decide, ?_⟩⟩)
  · rintro (h | ⟨line, hline, -⟩ | ⟨h, -⟩)
    · revert h
      decide +kernel
    · cases hline
    · revert h
      decide +kernel
  · have hdrop : dropBytes notifyThree.head.length [notifyThree.head ++ "abc".toList] =
        ["abc".toList] := by decide +kernel
    rw [hdrop]
    exact .inl rfl

/-- The last read of a body that arrives behind its first byte takes the byte behind it too. -/
theorem body_overread :
    ¬ ∀ (n : Nat) (request : Request n) (reads : List CString) (body : CString),
      (∀ p ∈ reads, p ≠ []) → reads.flatten = request.head ++ body →
        ReadsExactly request body (ReadRequest (reads.map some)) := by
  intro h
  have hreads : ∀ p ∈ [notifyThree.head ++ ['a'], "bcd".toList], p ≠ [] := by decide +kernel
  have hexact := h 3 notifyThree [notifyThree.head ++ ['a'], "bcd".toList] "abcd".toList hreads
    (by decide +kernel)
  have hresult : ReadRequest [some (notifyThree.head ++ ['a']), some "bcd".toList] =
      .ok (notifyThree.head ++ "abcd".toList) := by decide +kernel
  have heq := hresult.symm.trans (hexact.document (by decide))
  revert heq
  decide +kernel

end Upnp.MiniServer
