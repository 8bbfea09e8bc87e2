import Upnp.HttpMessage.CutShort
import Upnp.HttpMessage.StartLine
import Upnp.Lib.Buffer

/-!
# Downloading an item

`UpnpDownloadUrlItem` allocates as many bytes as the content of the response has, and one more, and
copies the response from the content on up to its NUL.  Both go together unless the headers end one
byte short of an empty line: then nothing is allocated and that byte is copied.
-/

namespace Upnp.Api

open Upnp.Lib Upnp.HttpMessage

def LINE_SIZE : Nat := 180
def UPNP_E_SUCCESS : Int := 0
def UPNP_E_INVALID_URL : Int := -108

/-- `parse_http_response`: the size of the status line, the status, and the headers, whose tokens are
offsets behind the status line. -/
def parse_http_response (malloc : Nat → Bool) (memory : CString) (max_len : Nat) :
    Option (Except Int (Nat × HttpStatus × Headers)) :=
  match parse_status_line max_len memory with
  | none => some (.error UPNP_E_BAD_RESPONSE)
  | some (temp, status) =>
    match parse_headers malloc (memory.drop temp) (max_len - temp) with
    | none => none
    | some (.error _) => some (.error UPNP_E_BAD_REQUEST)
    | some (.ok headers) => some (.ok (temp, status, headers))

/-- `search_for_header`. -/
def search_for_header (memory : CString) (header_list : List HttpHeader) (header : CString) :
    Option Token :=
  (header_list.find? fun temp ↦
    temp.header.size = (header.length : Int) &&
      strncaseEq header (temp.header.text memory) temp.header.size.toNat).map (·.value)

/-- The string that begins where the memory does. -/
def cString (memory : CString) : CString := memory.takeWhile (· ≠ '\x00')

/-- The memory that a token points to. -/
def pointedTo (memory : CString) (t : Token) : CString := memory.drop (t.buff.getD 0)

/-- `strncpy`, which fills up with NULs; a negative number is a huge one. -/
def strncpy (dest : Buffer) (text : CString) (n : Int) : Option Buffer :=
  if n < 0 then none
  else
    dest.memcpy 0 ((cString text).take n.toNat ++
      List.replicate (n.toNat - (cString text).length) '\x00')

/-- What `UpnpDownloadUrlItem` leaves. -/
structure Download where
  retVal : Int
  outBuf : Option Buffer
  contentType : Buffer

/-- `UpnpDownloadUrlItem` behind its check of the parameters, over what `transferHTTP` receives and the
answers of `malloc` for the headers and for the item; there is no result when something is
written behind the end of a buffer. -/
def upnpDownloadUrlItem (malloc : Nat → Bool) (mallocOk : Bool) (transferHTTP : Except Int CString)
    (contentType : Buffer) : Option Download := do
  let contentType ← contentType.sprintf []
  match transferHTTP with
  | .error retVal => some ⟨retVal, none, contentType⟩
  | .ok received =>
    let tmpBuf := received ++ ['\x00']
    let bufLen := (cString tmpBuf).length
    match ← parse_http_response malloc tmpBuf bufLen with
    | .error retVal => some ⟨retVal, none, contentType⟩
    | .ok (temp, status, headers) =>
      let memory := tmpBuf.drop temp
      if headers.content.size = 0 then some ⟨UPNP_E_INVALID_URL, none, contentType⟩
      else if !strncaseEq (pointedTo tmpBuf status.status_code) "200".toList 3 then
        some ⟨UPNP_E_INVALID_URL, none, contentType⟩
      else if !mallocOk then some ⟨UPNP_E_OUTOF_MEMORY, none, contentType⟩
      else
        let outBuf ← (Buffer.alloc (headers.content.size + 1).toNat).sprintf
          (cString (pointedTo memory headers.content))
        let contentType ←
          match search_for_header memory headers.header_list "Content-Type".toList with
          | none => some contentType
          | some ctBuf =>
            strncpy contentType (pointedTo memory ctBuf)
              (if (LINE_SIZE : Int) - 1 > ctBuf.size then ctBuf.size else LINE_SIZE - 1)
        some ⟨UPNP_E_SUCCESS, some outBuf, contentType⟩

/-! ## Copies -/

theorem length_of_sprintf {text : CString} {block block' : Buffer}
    (h : block.sprintf text = some block') : block'.length = block.length := by
  rw [Buffer.sprintf, Buffer.memcpy] at h
  split at h
  · rename_i hle
    cases h
    simp only [List.length_append, List.length_take, List.length_map, List.length_drop] at hle ⊢
    omega
  · cases h

/-- `strncpy` writes as many bytes as it is told to. -/
theorem strncpy_isSome {dest : Buffer} {text : CString} {n : Int} (h₀ : 0 ≤ n)
    (h : n ≤ dest.length) : (strncpy dest text n).isSome := by
  rw [strncpy, if_neg (by omega), Buffer.memcpy_isSome_iff]
  simp only [List.length_append, List.length_take, List.length_replicate]
  omega

/-- A string ends at a NUL at the latest. -/
theorem length_cString_le {memory : CString} {k : Nat} (h : memory[k]? = some '\x00') :
    (cString memory).length ≤ k := by
  induction memory generalizing k with
  | nil => cases h
  | cons c memory ih =>
    rw [cString, List.takeWhile_cons]
    split
    · rename_i hc
      cases k with
      | zero =>
        cases h
        exact absurd rfl (of_decide_eq_true hc)
      | succ k => exact Nat.succ_le_succ (ih h)
    · exact Nat.zero_le k

/-- The string that is received, and the NUL at its end. -/
theorem getElem?_cString (received : CString) :
    (received ++ ['\x00'])[(cString (received ++ ['\x00'])).length]? = some '\x00' := by
  induction received with
  | nil => rfl
  | cons c received ih =>
    rw [List.cons_append, cString, List.takeWhile_cons]
    split
    · exact ih
    · rename_i hc
      have : c = '\x00' := by simpa using hc
      rw [this]
      rfl

/-! ## The parser does not look behind the NUL -/

variable {memory : CString} {max_finger finger : Nat} {max_len : Int} {headers : List HttpHeader}
variable {malloc : Nat → Bool}

theorem headerStep_isSome (hnul : memory[max_finger]? = some '\x00')
    (hlt : finger + 1 < max_finger) (hpos : finger + max_len = max_finger) :
    (headerStep memory finger max_len).isSome := by
  have hlen : max_finger < memory.length := (List.getElem?_eq_some_iff.mp hnul).1
  have hcounter : parse_token max_len (memory.drop finger) ≤ max_len.toNat := scan_le _ _ _
  rw [headerStep]
  dsimp only
  split
  · rfl
  · have hget := List.getElem?_eq_getElem
      (by omega : finger + parse_token max_len (memory.drop finger) < memory.length)
    rw [hget]
    dsimp only
    split
    · rfl
    · rfl

theorem headersLoop_isSome (hnul : memory[max_finger]? = some '\x00')
    (hhead : Head memory max_finger headers finger max_len) :
    (headersLoop malloc memory max_finger headers finger max_len).isSome := by
  have hlen : max_finger < memory.length := (List.getElem?_eq_some_iff.mp hnul).1
  induction hsize : max_finger - finger using Nat.strong_induction_on generalizing headers finger
    max_len with
  | h size ih =>
    rw [headersLoop]
    split
    · rename_i hcond
      split
      · rfl
      · split
        · rename_i hnone
          have hsome := headerStep_isSome hnul hcond.1 hhead.position
          rw [hnone] at hsome
          cases hsome
        · rfl
        · rename_i h finger' max_len' hstep
          have hlt := headerStep_lt hstep
          exact ih (max_finger - finger') (by omega)
            (hhead.next (headerStep_turn hlen.le hcond.1 hhead.position hstep)) rfl
    · rfl

theorem parse_headers_isSome {max_len : Nat} (hnul : memory[max_len]? = some '\x00') :
    (parse_headers malloc memory max_len).isSome := by
  obtain ⟨r, hr⟩ := Option.isSome_iff_exists.mp
    (@headersLoop_isSome memory max_len 0 max_len [] malloc hnul .start)
  rw [parse_headers, hr]
  cases r with
  | error code => rfl
  | ok r => rfl

theorem size_le_of_parse_status_line {max_size : Nat} {size : Nat} {out : HttpStatus}
    (h : parse_status_line max_size memory = some (size, out)) : size ≤ max_size := by
  obtain ⟨t₁, t₂, t₃, t₄, t₅, h₁, h₂, h₃, h₄, h₅, hne, rfl, -⟩ := parse_status_line_ok h
  have hle₁ : t₁ ≤ (max_size : Int).toNat := h₁ ▸ scan_le _ _ _
  have hle₂ : t₂ ≤ ((max_size : Int) - t₁).toNat := h₂ ▸ scan_le _ _ _
  have hle₃ : t₃ ≤ ((max_size : Int) - t₁ - t₂).toNat := h₃ ▸ scan_le _ _ _
  have hle₄ : t₄ ≤ ((max_size : Int) - t₁ - t₂ - t₃).toNat := h₄ ▸ scan_le _ _ _
  rw [h₅, parse_http_line] at hne
  rw [h₅, parse_http_line]
  split at hne
  · exact absurd rfl hne
  · rename_i hle
    rw [if_neg hle]
    omega

/-! ## What is copied -/

/-- For all answers of `malloc`, and each buffer for the content type that is large enough, the content
has a size that is not negative, and all copies stay in their buffers. -/
def DownloadsSafely (received : CString) : Prop :=
  ∀ malloc mallocOk (contentType : Buffer), LINE_SIZE ≤ contentType.length →
    (∀ temp status headers, parse_http_response malloc (received ++ ['\x00'])
        (cString (received ++ ['\x00'])).length = some (.ok (temp, status, headers)) →
      0 ≤ headers.content.size) ∧
    (upnpDownloadUrlItem malloc mallocOk (.ok received) contentType).isSome

/-- Behind the status line, the headers end one byte short of an empty line. -/
def CutShort (received : CString) : Prop :=
  ∃ temp status, parse_status_line (cString (received ++ ['\x00'])).length
      (received ++ ['\x00']) = some (temp, status) ∧
    EndsShort (((received ++ ['\x00']).drop temp).take
      ((cString (received ++ ['\x00'])).length - temp))

theorem parse_http_response_ok {max_len temp : Nat} {status : HttpStatus} {headers : Headers}
    (h : parse_http_response malloc memory max_len = some (.ok (temp, status, headers))) :
    parse_status_line max_len memory = some (temp, status) ∧
      parse_headers malloc (memory.drop temp) (max_len - temp) = some (.ok headers) := by
  rw [parse_http_response] at h
  split at h
  · cases h
  · rename_i temp' status' hstatus
    split at h
    · cases h
    · cases h
    · rename_i headers' hheaders
      cases h
      exact ⟨hstatus, hheaders⟩

/-- A content that is not empty goes to the NUL, and the values have sizes that are not negative. -/
theorem content_of_parse_headers {max_len : Nat} {r : Headers}
    (hnul : memory[max_len]? = some '\x00') (hr : parse_headers malloc memory max_len = some (.ok r))
    (hpos : 0 < r.content.size) :
    ((cString (pointedTo memory r.content)).length : Int) ≤ r.content.size ∧
      ∀ h ∈ r.header_list, 0 ≤ h.value.size := by
  have hlen : max_len < memory.length := (List.getElem?_eq_some_iff.mp hnul).1
  obtain ⟨finger, left, hhead, -, hcontent⟩ := head_of_parse_headers hlen.le hr
  refine ⟨?_, fun h hmem ↦ (hhead.within h hmem).1.1⟩
  have hposition := hhead.position
  rw [hcontent] at hpos ⊢
  rw [contentAt] at hpos ⊢
  dsimp only at hpos ⊢
  split at hpos
  · rename_i hleft
    rw [if_pos (by omega : finger + 1 < max_len), if_pos hleft]
    have hget : (pointedTo memory ⟨some (finger + 2), left - 2⟩)[max_len - (finger + 2)]? =
        some '\x00' := by
      rw [pointedTo]
      dsimp only [Option.getD_some]
      rw [List.getElem?_drop, Nat.add_sub_cancel' (by omega)]
      exact hnul
    have hle := length_cString_le hget
    omega
  · omega

theorem mem_of_search_for_header {header : CString} {t : Token}
    (h : search_for_header memory headers header = some t) : ∃ x ∈ headers, x.value = t := by
  obtain ⟨x, hx, rfl⟩ := Option.map_eq_some_iff.mp h
  exact ⟨x, List.mem_of_find?_eq_some hx, rfl⟩

/-- Where the content has no negative size, the copies stay in their buffers. -/
theorem upnpDownloadUrlItem_isSome {received : CString} {mallocOk : Bool} {contentType : Buffer}
    (htype : LINE_SIZE ≤ contentType.length)
    (hcontent : ∀ temp status headers, parse_http_response malloc (received ++ ['\x00'])
        (cString (received ++ ['\x00'])).length = some (.ok (temp, status, headers)) →
      0 ≤ headers.content.size) :
    (upnpDownloadUrlItem malloc mallocOk (.ok received) contentType).isSome := by
  have hline : (LINE_SIZE : Int) = 180 := rfl
  obtain ⟨cleared, hcleared⟩ := Option.isSome_iff_exists.mp
    (Buffer.sprintf_isSome_iff.mpr (Nat.lt_of_lt_of_le (by decide : [].length < LINE_SIZE) htype))
  have hclearedLength := length_of_sprintf hcleared
  have hnul := getElem?_cString received
  rw [upnpDownloadUrlItem, hcleared]
  simp only [Option.bind_eq_bind, Option.bind_some]
  generalize hmemory : received ++ ['\x00'] = tmpBuf at *
  generalize hbufLen : (cString tmpBuf).length = bufLen at *
  have hsome : (parse_http_response malloc tmpBuf bufLen).isSome := by
    rw [parse_http_response]
    split
    · rfl
    · rename_i temp status hstatus
      have hle := size_le_of_parse_status_line hstatus
      have hnul' : (tmpBuf.drop temp)[bufLen - temp]? = some '\x00' := by
        rw [List.getElem?_drop, Nat.add_sub_cancel' hle]
        exact hnul
      obtain ⟨r, hr⟩ := Option.isSome_iff_exists.mp
        (@parse_headers_isSome (tmpBuf.drop temp) malloc _ hnul')
      rw [hr]
      cases r with
      | error code => rfl
      | ok headers => rfl
  obtain ⟨r, hr⟩ := Option.isSome_iff_exists.mp hsome
  rw [hr, Option.bind_some]
  cases r with
  | error code => rfl
  | ok r =>
    obtain ⟨temp, status, headers⟩ := r
    obtain ⟨hstatus, hheaders⟩ := parse_http_response_ok hr
    have hle := size_le_of_parse_status_line hstatus
    have hnul' : (tmpBuf.drop temp)[bufLen - temp]? = some '\x00' := by
      rw [List.getElem?_drop, Nat.add_sub_cancel' hle]
      exact hnul
    have hnonneg := hcontent temp status headers hr
    dsimp only
    split
    · rfl
    · rename_i hzero
      split
      · rfl
      · split
        · rfl
        · obtain ⟨hcopy, hvalues⟩ := content_of_parse_headers hnul' hheaders (by omega)
          have hout : ((Buffer.alloc (headers.content.size + 1).toNat).sprintf
              (cString (pointedTo (tmpBuf.drop temp) headers.content))).isSome := by
            rw [Buffer.sprintf_isSome_iff, Buffer.length_alloc]
            omega
          obtain ⟨outBuf, houtBuf⟩ := Option.isSome_iff_exists.mp hout
          rw [houtBuf, Option.bind_some]
          split
          · rfl
          · rename_i ctBuf hsearch
            obtain ⟨x, hx, rfl⟩ := mem_of_search_for_header hsearch
            have hvalue := hvalues x hx
            have hcopied : (strncpy cleared (pointedTo (tmpBuf.drop temp) x.value)
                (if (LINE_SIZE : Int) - 1 > x.value.size then x.value.size
                  else LINE_SIZE - 1)).isSome := by
              apply strncpy_isSome
              · split
                · exact hvalue
                · decide
              · split
                · omega
                · omega
            obtain ⟨copied, hcopied⟩ := Option.isSome_iff_exists.mp hcopied
            rw [hcopied]
            rfl

/-- A download is safe if and only if the response is not cut short. -/
theorem downloadsSafely_iff (received : CString) :
    DownloadsSafely received ↔ ¬ CutShort received := by
  have hnul := getElem?_cString received
  constructor
  · rintro h ⟨temp, status, hstatus, hshort⟩
    have hle := size_le_of_parse_status_line hstatus
    have hnul' : ((received ++ ['\x00']).drop temp)[(cString (received ++ ['\x00'])).length - temp]? =
        some '\x00' := by
      rw [List.getElem?_drop, Nat.add_sub_cancel' hle]
      exact hnul
    obtain ⟨malloc, r, hr, hneg⟩ := (negative_content_iff hnul').mpr hshort
    have hok : parse_http_response malloc (received ++ ['\x00'])
        (cString (received ++ ['\x00'])).length = some (.ok (temp, status, r)) := by
      rw [parse_http_response, hstatus]
      dsimp only
      rw [hr]
    have hnonneg := (h malloc true (Buffer.alloc LINE_SIZE) (Nat.le_of_eq
      (Buffer.length_alloc _).symm)).1 temp status r hok
    omega
  · rintro hcut malloc mallocOk contentType htype
    have hcontent : ∀ temp status headers, parse_http_response malloc (received ++ ['\x00'])
        (cString (received ++ ['\x00'])).length = some (.ok (temp, status, headers)) →
        0 ≤ headers.content.size := by
      intro temp status headers hr
      obtain ⟨hstatus, hheaders⟩ := parse_http_response_ok hr
      have hle := size_le_of_parse_status_line hstatus
      have hnul' : ((received ++ ['\x00']).drop temp)[(cString (received ++ ['\x00'])).length -
          temp]? = some '\x00' := by
        rw [List.getElem?_drop, Nat.add_sub_cancel' hle]
        exact hnul
      by_contra hneg
      refine hcut ⟨temp, status, hstatus, ?_⟩
      exact (negative_content_iff hnul').mp ⟨malloc, headers, hheaders, by omega⟩
    exact ⟨hcontent, upnpDownloadUrlItem_isSome htype hcontent⟩

/-- A response that ends behind the CR of its empty line. -/
def shortResponse : CString := "HTTP/1.1 200 OK\r\n\r".toList

/-- The content has the size -1, and the CR is copied to a block of no bytes. -/
theorem shortResponse_overruns : ¬ DownloadsSafely shortResponse := by
  intro h
  have hsome := (h (fun _ ↦ true) true (Buffer.alloc LINE_SIZE)
    (Nat.le_of_eq (Buffer.length_alloc _).symm)).2
  have hnone : (upnpDownloadUrlItem (fun _ ↦ true) true (.ok shortResponse)
      (Buffer.alloc LINE_SIZE)).isSome = false := by
    decide +kernel
  rw [hnone] at hsome
  cases hsome

end Upnp.Api
