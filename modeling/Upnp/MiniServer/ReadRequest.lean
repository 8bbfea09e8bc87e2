import Mathlib.Data.List.TakeWhile
import Upnp.MiniServer.NetReader1

/-!
# Reading a request

`GetCommandType`, `ParseContentLength` and `ReadRequest` of `miniserver.cpp`.  A
time-out of the socket throws a code of its own; here it is a failed read like
any other.
-/

namespace Upnp.MiniServer

open Upnp.Lib

/-- The codes that `ReadRequest` throws. -/
inductive RCode where
  | RCODE_NETWORK_READ_ERROR
  | RCODE_MALFORMED_LINE
  | RCODE_METHOD_NOT_IMPLEMENTED
  | RCODE_LENGTH_NOT_SPECIFIED
deriving DecidableEq, Repr

inductive HTTP_COMMAND_TYPE where
  | CMD_HTTP_GET
  | CMD_SOAP_POST
  | CMD_SOAP_MPOST
  | CMD_GENA_SUBSCRIBE
  | CMD_GENA_UNSUBSCRIBE
  | CMD_GENA_NOTIFY
  | CMD_HTTP_UNKNOWN
deriving DecidableEq, Repr

open RCode HTTP_COMMAND_TYPE

/-- A command whose pattern begins a line. -/
def matchPattern (line pattern : CString) (cmd : HTTP_COMMAND_TYPE) : HTTP_COMMAND_TYPE :=
  if pattern.isPrefixOf line then cmd else CMD_HTTP_UNKNOWN

/-- `GetCommandType`: the first character picks the pattern. -/
def GetCommandType (ln : CString) : HTTP_COMMAND_TYPE :=
  let line := ln.map Char.toUpper
  match line with
  | 'G' :: _ => matchPattern line "GET".toList CMD_HTTP_GET
  | 'P' :: _ => matchPattern line "POST".toList CMD_SOAP_POST
  | 'M' :: _ => matchPattern line "M-POST".toList CMD_SOAP_MPOST
  | 'S' :: _ => matchPattern line "SUBSCRIBE".toList CMD_GENA_SUBSCRIBE
  | 'U' :: _ => matchPattern line "UNSUBSCRIBE".toList CMD_GENA_UNSUBSCRIBE
  | 'N' :: _ => matchPattern line "NOTIFY".toList CMD_GENA_NOTIFY
  | _ => CMD_HTTP_UNKNOWN

/-- A space or a tab. -/
def isBlank (c : Char) : Bool := c = ' ' || c = '\t'

/-- `*endptr` behind `strtol(s, endptr, 10)`. -/
def strtolEnd (s : CString) : CString :=
  match strtol 10 s with
  | none => s
  | some _ => (signOf (s.dropWhile isSpace)).2.dropWhile fun c ↦ (digitVal 10 c).isSome

/-- `ParseContentLength`: the length and `malformed`. -/
def ParseContentLength (textLine : CString) : Int × Bool :=
  let line := textLine.map Char.toUpper
  if strnEq line "CONTENT-LENGTH".toList 14 then
    match (line.drop 14).dropWhile isBlank with
    | ':' :: c :: rest =>
      -- what `*invalidChar` is compared with ends at a NUL
      if ((strtolEnd (c :: rest)).takeWhile (· ≠ '\x00')).all fun c ↦
          isBlank c || c = '\r' || c = '\n' then
        (wrap32 ((strtol 10 (c :: rest)).getD 0), false)
      else (-1, true)
    | _ => (-1, true)
  else (-1, false)

/-- The size of the buffer that the body is read into. -/
def BUFSIZE : Nat := 3

/-- `document.appendLimited( buf, bytesRead )`, which stops at a NUL. -/
def appendLimited (document buf : CString) : CString := document ++ buf.takeWhile (· ≠ '\x00')

/-- The loop over the headers, to the empty line: the document and `contentLength`. -/
def readHeaders (r : NetReader1) (document : CString) (contentLength : Int) :
    Except RCode (CString × Int) × NetReader1 :=
  match h : r.getLine with
  | (.error, r) => (.error RCODE_NETWORK_READ_ERROR, r)
  | (.closed, r) => (.error RCODE_NETWORK_READ_ERROR, r)
  | (.got ⟨_, true⟩, r) => (.error RCODE_MALFORMED_LINE, r)
  | (.got ⟨line, false⟩, r') =>
    let (length, malformed) :=
      if contentLength < 0 then ParseContentLength line else (contentLength, false)
    if malformed then (.error RCODE_MALFORMED_LINE, r')
    else if line = ['\n'] ∨ line = ['\r', '\n'] then (.ok (document ++ line, length), r')
    else readHeaders r' (document ++ line) length
termination_by r.size
decreasing_by exact NetReader1.size_getLineLoop h rfl

/-- The loop over the body, when `contentLength` is positive. -/
def readBody (contentLength : Int) (r : NetReader1) (document : CString) (totalBytesRead : Nat) :
    Except RCode CString :=
  match h : r.readData BUFSIZE with
  | (.error, _) => .error RCODE_NETWORK_READ_ERROR
  | (.closed, _) => .ok document
  | (.got buf, r') =>
    if contentLength ≤ totalBytesRead + buf.length then .ok (appendLimited document buf)
    else readBody contentLength r' (appendLimited document buf) (totalBytesRead + buf.length)
termination_by r.size
decreasing_by exact NetReader1.size_readData h

/-- `ReadRequest`, on what the socket has to read: the document, or what it throws. -/
def ReadRequest (reads : List (Option CString)) : Except RCode CString :=
  match NetReader1.getLine ⟨[], reads⟩ with
  | (.error, _) => .error RCODE_NETWORK_READ_ERROR
  | (.closed, _) => .error RCODE_NETWORK_READ_ERROR
  | (.got ⟨_, true⟩, _) => .error RCODE_MALFORMED_LINE
  | (.got ⟨reqLine, false⟩, r) =>
    let cmd := GetCommandType reqLine
    if cmd = CMD_HTTP_UNKNOWN then .error RCODE_METHOD_NOT_IMPLEMENTED
    else
      match readHeaders r reqLine (-1) with
      | (.error code, _) => .error code
      | (.ok (document, contentLength), r) =>
        if contentLength < 0 ∧ (cmd = CMD_SOAP_POST ∨ cmd = CMD_SOAP_MPOST) then
          .error RCODE_LENGTH_NOT_SPECIFIED
        else if 0 < contentLength then readBody contentLength r document 0
        else .ok document

/-! ## The body -/

/-- One of the reads of the body, which take three bytes at a time of what a piece of the stream
still has, ends behind its first `n` bytes; or it takes more, but only behind a NUL. -/
def readsEndAt (n : Nat) : List CString → Prop
  | [] => False
  | p :: ps =>
    if n ≤ p.length then n % BUFSIZE = 0 ∨ n = p.length ∨ p[n]? = some '\x00'
    else readsEndAt (n - p.length) ps

/-- The first read of a body that goes on behind it. -/
theorem readsEndAt_dropBytes {n : Nat} {p : CString} {ps : List CString} (hps : ∀ q ∈ ps, q ≠ [])
    (hn : min BUFSIZE p.length < n) :
    readsEndAt n (p :: ps) ↔
      readsEndAt (n - min BUFSIZE p.length) (dropBytes (min BUFSIZE p.length) (p :: ps)) := by
  rw [dropBytes]
  unfold BUFSIZE at *
  split
  · rename_i hk
    rw [min_eq_left (by omega)] at hn ⊢
    unfold readsEndAt BUFSIZE
    rw [List.length_drop, List.getElem?_drop]
    by_cases hle : n ≤ p.length
    · rw [if_pos hle, if_pos (by omega)]
      have hadd : 3 + (n - 3) = n := by omega
      rw [hadd]
      exact or_congr (by omega) (or_congr_left (by omega))
    · rw [if_neg hle, if_neg (by omega)]
      have hsub : n - 3 - (p.length - 3) = n - p.length := by omega
      rw [hsub]
  · rename_i hk
    rw [min_eq_right (by omega)] at hn ⊢
    rw [Nat.sub_self, dropBytes_zero hps]
    rw [readsEndAt, if_neg (by omega)]

/-- What a read appends is its text, when there is no NUL in it. -/
theorem appendLimited_of_noNul {buf : CString} (document : CString) (h : '\x00' ∉ buf) :
    appendLimited document buf = document ++ buf := by
  unfold appendLimited
  rw [List.takeWhile_eq_self_iff.mpr]
  intro c hc
  simpa using fun heq : c = '\x00' ↦ h (heq ▸ hc)

theorem nul_not_mem_appendLimited (buf : CString) : '\x00' ∉ appendLimited [] buf := by
  intro h
  have hne := List.mem_takeWhile_imp h
  simp at hne

/-- A run that is taken is a given front of the list. -/
theorem takeWhile_eq_take_iff {p : Char → Bool} {l : CString} {m : Nat} (hm : m ≤ l.length) :
    l.takeWhile p = l.take m ↔ (∀ c ∈ l.take m, p c) ∧ (m = l.length ∨ ∃ c, l[m]? = some c ∧ ¬ p c) := by
  induction l generalizing m with
  | nil => simp_all
  | cons c l ih =>
    cases m with
    | zero =>
      by_cases hc : p c <;> simp [hc]
    | succ m =>
      by_cases hc : p c
      · simpa [hc] using ih (m := m) (by simpa using hm)
      · simp [hc]

/-- What the first read of a body appends, when it reaches the end of the body. -/
theorem appendLimited_take_iff {p : CString} {m : Nat} (hm : 0 < m) (hle : m ≤ min BUFSIZE p.length) :
    appendLimited [] (p.take BUFSIZE) = p.take m ↔
      '\x00' ∉ p.take m ∧ (m % BUFSIZE = 0 ∨ m = p.length ∨ p[m]? = some '\x00') := by
  unfold BUFSIZE at *
  have htake : (p.take 3).take m = p.take m := by
    rw [List.take_take, min_eq_left (by omega)]
  have hlen : (p.take 3).length = min 3 p.length := List.length_take
  show (p.take 3).takeWhile _ = _ ↔ _
  rw [← htake, takeWhile_eq_take_iff (by omega), htake]
  apply and_congr
  · simp only [decide_eq_true_eq]
    exact ⟨fun h hmem ↦ h _ hmem rfl, fun h c hc heq ↦ h (heq ▸ hc)⟩
  · rw [hlen]
    by_cases h3 : m = 3
    · subst h3
      exact iff_of_true (.inl (by omega)) (.inl rfl)
    · have hget : (p.take 3)[m]? = p[m]? := List.getElem?_take_of_lt (by omega)
      rw [hget]
      have hmod : ¬ m % 3 = 0 := by omega
      simp only [hmod, false_or]
      exact or_congr (by omega) (by simp)

/-- A read and what is read behind it are the bytes of the stream if the read has no NUL, behind
which it would be lost, and the rest is right. -/
theorem appendLimited_append_eq_iff {buf body rest : CString} (hbody : '\x00' ∉ body) :
    appendLimited [] buf ++ body = buf ++ rest ↔ '\x00' ∉ buf ∧ body = rest := by
  by_cases hbuf : '\x00' ∈ buf
  · refine iff_of_false (fun heq ↦ ?_) fun h ↦ h.1 hbuf
    have hmem : '\x00' ∈ appendLimited [] buf ++ body := heq ▸ List.mem_append_left _ hbuf
    rw [List.mem_append] at hmem
    exact hmem.elim (nul_not_mem_appendLimited _) hbody
  · rw [appendLimited_of_noNul [] hbuf, List.nil_append, List.append_cancel_left_eq,
      and_iff_right hbuf]

/-- The body ends with the stream. -/
theorem readBody_nil {contentLength : Int} {total : Nat} {r : NetReader1} (document : CString)
    (h : r.Holds []) : readBody contentLength r document total = .ok document := by
  have hclosed := NetReader1.readData_nil (k := BUFSIZE) h
  rw [readBody.eq_def]
  split
  · rename_i heq
    cases (congrArg Prod.fst heq).symm.trans hclosed
  · rfl
  · rename_i heq
    cases (congrArg Prod.fst heq).symm.trans hclosed

/-- One read of the body, where there is data. -/
theorem readBody_cons {contentLength : Int} {total : Nat} {r : NetReader1} {c : Char} {p : CString}
    {ps : List CString} (document : CString) (h : r.Holds ((c :: p) :: ps)) :
    ∃ r' : NetReader1,
      r'.Holds (dropBytes (min BUFSIZE (c :: p).length) ((c :: p) :: ps)) ∧
      readBody contentLength r document total =
        if contentLength ≤ (total + ((c :: p).take BUFSIZE).length : Nat) then
          .ok (appendLimited document ((c :: p).take BUFSIZE))
        else readBody contentLength r' (appendLimited document ((c :: p).take BUFSIZE))
          (total + ((c :: p).take BUFSIZE).length) := by
  obtain ⟨r', hread, hr'⟩ := NetReader1.readData_cons (k := BUFSIZE) (by decide) h
  refine ⟨r', hr', ?_⟩
  rw [readBody.eq_def]
  split <;>
    · rename_i heq
      rw [hread] at heq
      cases heq
      try rfl

/-- The body that is read: its `m` bytes, if a read ends behind them. -/
theorem readBody_spec {m : Nat} {contentLength : Int} {r : NetReader1} {ps : List CString}
    (document : CString) (total : Nat) (hm : 0 < m) (htotal : contentLength = total + m) (h : r.Holds ps) :
    ∃ body, readBody contentLength r document total = .ok (document ++ body) ∧
      '\x00' ∉ body ∧ body.length < m + BUFSIZE ∧
      (body = ps.flatten.take m ∧ m ≤ ps.flatten.length ↔
        '\x00' ∉ ps.flatten.take m ∧ readsEndAt m ps) := by
  induction m using Nat.strong_induction_on generalizing r ps document total with
  | _ m ih =>
    cases ps with
    | nil =>
      refine ⟨[], ?_, List.not_mem_nil, Nat.add_pos_left hm _, ?_⟩
      · rw [readBody_nil document h, List.append_nil]
      · refine iff_of_false ?_ fun hends ↦ hends.2
        rintro ⟨-, hle⟩
        exact absurd hle (by simpa using hm.ne')
    | cons p ps =>
      obtain ⟨c, p, rfl⟩ := List.exists_cons_of_ne_nil (h.ne_nil p List.mem_cons_self)
      obtain ⟨r', hr', hstep⟩ := readBody_cons document h
      rw [hstep]
      have hlen : ((c :: p).take BUFSIZE).length = min BUFSIZE (c :: p).length := List.length_take
      have hflat : ((c :: p) :: ps).flatten = (c :: p) ++ ps.flatten := rfl
      by_cases hle : m ≤ min BUFSIZE (c :: p).length
      · -- this read reaches the end of the body
        rw [if_pos (by rw [hlen]; omega)]
        have hlast := appendLimited_take_iff hm hle
        have htake : ((c :: p) :: ps).flatten.take m = (c :: p).take m := by
          rw [hflat, List.take_append_of_le_length (by omega)]
        refine ⟨appendLimited [] ((c :: p).take BUFSIZE), rfl, nul_not_mem_appendLimited _, ?_, ?_⟩
        · have : (appendLimited [] ((c :: p).take BUFSIZE)).length ≤ BUFSIZE :=
            (List.takeWhile_sublist _).length_le.trans (List.length_take_le ..)
          omega
        · rw [htake, readsEndAt, if_pos (by omega), ← hlast]
          apply and_iff_left
          rw [hflat, List.length_append]
          omega
      · -- and otherwise the rest is read from the pieces behind
        rw [if_neg (by rw [hlen]; omega)]
        have hpos : 0 < min BUFSIZE (c :: p).length := by simp [BUFSIZE]
        obtain ⟨body, hbody, hnul, hshort, hiff⟩ :=
          ih (m - min BUFSIZE (c :: p).length) (by omega)
            (appendLimited document ((c :: p).take BUFSIZE))
            (total + ((c :: p).take BUFSIZE).length) (by omega) (by rw [hlen]; omega) hr'
        refine ⟨appendLimited [] ((c :: p).take BUFSIZE) ++ body, ?_, ?_, ?_, ?_⟩
        · rw [hbody, ← List.append_assoc]
          rfl
        · rw [List.mem_append, not_or]
          exact ⟨nul_not_mem_appendLimited _, hnul⟩
        · have : (appendLimited [] ((c :: p).take BUFSIZE)).length ≤ min BUFSIZE (c :: p).length :=
            hlen ▸ (List.takeWhile_sublist _).length_le
          rw [List.length_append]
          omega
        · have hfront : ((c :: p) :: ps).flatten.take m = (c :: p).take BUFSIZE ++
              (dropBytes (min BUFSIZE (c :: p).length) ((c :: p) :: ps)).flatten.take
                (m - min BUFSIZE (c :: p).length) := by
            have htake : ((c :: p) :: ps).flatten.take (min BUFSIZE (c :: p).length) =
                (c :: p).take BUFSIZE := by
              rw [hflat, List.take_append_of_le_length (min_le_right ..), ← List.take_eq_take_min]
            rw [flatten_dropBytes, ← htake, ← List.take_add]
            congr 1
            omega
          have hmin : min BUFSIZE (c :: p).length ≤ ((c :: p) :: ps).flatten.length := by
            rw [hflat, List.length_append]
            omega
          rw [readsEndAt_dropBytes (fun q hq ↦ h.ne_nil q (List.mem_cons_of_mem _ hq)) (by omega),
            hfront, appendLimited_append_eq_iff hnul, List.mem_append, not_or, and_assoc, and_assoc,
            ← hiff, flatten_dropBytes, List.length_drop]
          refine and_congr_right fun _ ↦ and_congr_right fun _ ↦ ?_
          omega

end Upnp.MiniServer
