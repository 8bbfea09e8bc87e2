import Upnp.Lib.CharIndex

/-!
# Control URLs

`GetCtrlUrl` takes the URI of a request from between the first `POST` and the first `HTTP` in the
text, whatever their case, and copies it with an index that is a `char`.
-/

namespace Upnp.Soap

open Upnp.Lib

def NAME_SIZE : Nat := 100
def LINE_SIZE : Nat := 180

/-! ## Searching without case -/

/-- `strstrcase`. -/
def strstrcase : CString → CString → Option CString
  | [], _ => none
  | c :: s, Tok =>
    if (c :: s).length < Tok.length then none
    else if strcaseEq ((c :: s).take Tok.length) Tok then some (c :: s)
    else strstrcase s Tok

variable {s t Tok : CString} {c : Char}

theorem strstrcase_of_length_lt (h : s.length < Tok.length) : strstrcase s Tok = none := by
  cases s with
  | nil => rfl
  | cons c s => rw [strstrcase, if_pos h]

theorem not_strcaseEq_of_length_lt (h : s.length < Tok.length) :
    ¬ strcaseEq (s.take Tok.length) Tok := by
  intro heq
  have hlen := congrArg List.length (of_decide_eq_true heq)
  simp only [List.length_map, List.length_take] at hlen
  omega

/-- The text is searched character by character. -/
theorem strstrcase_cons (c : Char) (s Tok : CString) : strstrcase (c :: s) Tok =
    if strcaseEq ((c :: s).take Tok.length) Tok then some (c :: s) else strstrcase s Tok := by
  rw [strstrcase]
  split
  · rename_i h
    have hs : s.length < Tok.length := Nat.lt_trans (Nat.lt_succ_self _) h
    rw [if_neg (not_strcaseEq_of_length_lt h), strstrcase_of_length_lt hs]
  · rfl

/-- A text without a blank does not match beyond one. -/
theorem strcaseEq_take_blank (hTok : ' ' ∉ Tok) (hne : Tok ≠ []) :
    strcaseEq ((s ++ ' ' :: t).take Tok.length) Tok = strcaseEq (s.take Tok.length) Tok := by
  apply decide_eq_decide.mpr
  induction Tok generalizing s with
  | nil => exact absurd rfl hne
  | cons d Tok ih =>
    obtain ⟨hd, hTok⟩ := not_or.mp (List.mem_cons.not.mp hTok)
    cases s with
    | nil =>
      rw [List.nil_append, List.length_cons, List.take_succ_cons, List.take_nil]
      simp only [List.map_cons, List.map_nil, List.cons.injEq, reduceCtorEq, iff_false, not_and]
      intro hlower
      have heq := eq_of_toLower_eq hlower.symm (by decide)
      exact absurd heq.symm hd
    | cons c s =>
      rw [List.cons_append, List.length_cons, List.take_succ_cons, List.take_succ_cons]
      simp only [List.map_cons, List.cons.injEq]
      refine and_congr_right fun _ ↦ ?_
      by_cases hnil : Tok = []
      · subst hnil
        rfl
      · exact ih hTok hnil

/-- A word is found in front of a blank, or behind it. -/
theorem strstrcase_blank (hTok : ' ' ∉ Tok) (hne : Tok ≠ []) : strstrcase (s ++ ' ' :: t) Tok =
    ((strstrcase s Tok).map (· ++ ' ' :: t)).or (strstrcase t Tok) := by
  induction s with
  | nil =>
    rw [List.nil_append, strstrcase_cons, if_neg]
    · rfl
    · rw [← List.nil_append (' ' :: t), strcaseEq_take_blank hTok hne]
      exact not_strcaseEq_of_length_lt (List.length_pos_iff.mpr hne)
  | cons c s ih =>
    rw [List.cons_append, strstrcase_cons, strstrcase_cons, ← List.cons_append,
      strcaseEq_take_blank hTok hne]
    split
    · rfl
    · exact ih

/-- What is found is an end of the text. -/
theorem strstrcase_suffix (h : strstrcase s Tok = some t) : t <:+ s := by
  induction s with
  | nil => cases h
  | cons c s ih =>
    rw [strstrcase_cons] at h
    split at h
    · cases h
      exact List.suffix_rfl
    · exact (ih h).trans (List.suffix_cons c s)

/-- A word that is there is found. -/
theorem strstrcase_ne_none (s t : CString) {word : CString} (h : strcaseEq word Tok)
    (hne : Tok ≠ []) : strstrcase (s ++ (word ++ t)) Tok ≠ none := by
  have hlen : word.length = Tok.length := by
    have hmap := congrArg List.length (of_decide_eq_true h)
    rwa [List.length_map, List.length_map] at hmap
  induction s with
  | nil =>
    cases word with
    | nil => exact absurd (List.length_eq_zero_iff.mp hlen.symm) hne
    | cons c word =>
      have htake : ((c :: word) ++ t).take Tok.length = c :: word := by
        rw [← hlen, List.take_left]
      rw [List.nil_append, List.cons_append, strstrcase_cons, ← List.cons_append, htake, if_pos h]
      exact Option.some_ne_none _
  | cons c s ih =>
    rw [List.cons_append, strstrcase_cons]
    split
    · exact Option.some_ne_none _
    · exact ih

/-! ## `GetCtrlUrl` -/

/-- The loop of `GetCtrlUrl`: `Sptr` points to the text, and `Eptr` to where `len` characters are
left.  It ends nowhere when `Sptr` is past `Eptr`, and leaves the text. -/
def copyUrl (len : Nat) : CString → Int → Buffer → Option (Int × Buffer)
  | [], _, _ => none
  | _ :: s, i, Url =>
    if s.length = len then some (i, Url)
    else match s with
      | [] => none
      | c :: _ => (Buffer.store i c Url).bind (copyUrl len s (wrap8 (i + 1)))

/-- `GetCtrlUrl`: the return value and the array; `none` when it writes or reads outside. -/
def GetCtrlUrl (InBuf : CString) (Url : Buffer) : Option (Int × Buffer) :=
  match strstrcase InBuf "POST".toList with
  | none => some (-1, Url)
  | some post =>
    let Sptr := post.drop 4
    match strstrcase InBuf "HTTP".toList with
    | none => some (-1, Url)
    | some http =>
      ((copyUrl (http.length + 1) Sptr 0 Url).bind Buffer.terminate).map ((1, ·))

/-- What stands between the pointers is copied. -/
theorem copyUrl_append (a : Char) (u rest : CString) (i : Int) (Url : Buffer) :
    copyUrl rest.length (a :: (u ++ rest)) i Url = Buffer.storeChars i u Url := by
  induction u generalizing a i Url with
  | nil =>
    rw [List.nil_append, copyUrl.eq_def]
    exact if_pos rfl
  | cons c u ih =>
    have hlen : (c :: u ++ rest).length ≠ rest.length := by
      rw [List.length_append, List.length_cons]
      omega
    rw [copyUrl.eq_def]
    simp only [List.cons_append] at hlen ⊢
    rw [if_neg hlen, Buffer.storeChars]
    congr 1
    funext Url'
    exact ih c _ Url'

/-- When the end stands in front of the start, the copy leaves the text. -/
theorem copyUrl_none {len : Nat} (h : s.length ≤ len) (i : Int) (Url : Buffer) :
    copyUrl len s i Url = none := by
  induction s generalizing i Url with
  | nil => rfl
  | cons a s ih =>
    rw [List.length_cons] at h
    rw [copyUrl.eq_def]
    simp only
    rw [if_neg (Nat.ne_of_lt h)]
    cases s with
    | nil => rfl
    | cons c s =>
      cases hstore : Buffer.store i c Url with
      | none => simp only [hstore, Option.bind_none]
      | some Url' =>
        simp only [hstore, Option.bind_some]
        exact ih (Nat.le_of_succ_le h) _ Url'

/-! ## Requests -/

inductive Method where
  | POST
  | M_POST

def Method.text : Method → CString
  | POST => "POST".toList
  | M_POST => "M-POST".toList

/-- A request by its request line: the method, the URI and the version; then anything. -/
structure PostRequest where
  method : Method
  uri : CString
  rest : CString
  uri_chars : ∀ c ∈ uri, c ≠ '\x00' ∧ c ≠ ' '

/-- The text of the request. -/
def PostRequest.text (r : PostRequest) : CString :=
  r.method.text ++ ' ' :: (r.uri ++ ' ' :: ("HTTP/1.".toList ++ r.rest))

/-- What is to hold of the control URL of a request: the copy stays in the array, and is the URI
when that fits. -/
def CtrlUrlRight (r : PostRequest) : Prop :=
  ∃ Url, GetCtrlUrl r.text (Buffer.alloc LINE_SIZE) = some (1, Url) ∧
    (r.uri.length < LINE_SIZE → Url.Holds r.uri)

/-- The URI has no `http` and fewer than 128 characters; or it does not fit anyway, and what is
in front of the character before its first `http` has fewer than 128 characters. -/
def UriPlain (uri : CString) : Prop :=
  match strstrcase uri "HTTP".toList with
  | none => uri.length < 128
  | some http => LINE_SIZE ≤ uri.length ∧ http.length < uri.length ∧
      uri.length - http.length - 1 < 128

theorem strstrcase_post (r : PostRequest) : ∃ front, r.method.text = front ++ "POST".toList ∧
    strstrcase r.text "POST".toList =
      some ("POST".toList ++ ' ' :: (r.uri ++ ' ' :: ("HTTP/1.".toList ++ r.rest))) := by
  rw [PostRequest.text, strstrcase_blank (by decide) (by decide)]
  cases r.method with
  | POST => exact ⟨[], rfl, rfl⟩
  | M_POST => exact ⟨"M-".toList, rfl, rfl⟩

theorem strstrcase_http (r : PostRequest) : strstrcase r.text "HTTP".toList =
    ((strstrcase r.uri "HTTP".toList).map (· ++ ' ' :: ("HTTP/1.".toList ++ r.rest))).or
      (some ("HTTP/1.".toList ++ r.rest)) := by
  have hmethod : strstrcase r.method.text "HTTP".toList = none := by
    cases r.method <;> rfl
  rw [PostRequest.text, strstrcase_blank (by decide) (by decide), hmethod, Option.map_none,
    Option.none_or, strstrcase_blank (by decide) (by decide)]
  rfl

theorem GetCtrlUrl_eq (r : PostRequest) {http : CString} (Url : Buffer)
    (h : strstrcase r.text "HTTP".toList = some http) : GetCtrlUrl r.text Url =
      ((copyUrl (http.length + 1) (' ' :: (r.uri ++ ' ' :: ("HTTP/1.".toList ++ r.rest))) 0
        Url).bind Buffer.terminate).map ((1, ·)) := by
  obtain ⟨-, -, hpost⟩ := strstrcase_post r
  rw [GetCtrlUrl, hpost, h]
  rfl

/-- For every request, the control URL is taken as it should exactly when the URI is plain. -/
theorem ctrlUrlRight_iff (r : PostRequest) : CtrlUrlRight r ↔ UriPlain r.uri := by
  have hhttp := strstrcase_http r
  have hnul : '\x00' ∉ r.uri := fun hc ↦ (r.uri_chars _ hc).1 rfl
  rw [CtrlUrlRight, UriPlain]
  cases hs : strstrcase r.uri "HTTP".toList with
  | none =>
    rw [hs] at hhttp
    have hcopy : GetCtrlUrl r.text (Buffer.alloc LINE_SIZE) =
        ((Buffer.storeChars 0 r.uri (Buffer.alloc LINE_SIZE)).bind Buffer.terminate).map
          ((1, ·)) := by
      rw [GetCtrlUrl_eq r _ hhttp,
        ← copyUrl_append ' ' r.uri (' ' :: ("HTTP/1.".toList ++ r.rest))]
      rfl
    rw [hcopy]
    dsimp only
    by_cases hlen : r.uri.length < 128
    · obtain ⟨Url, hUrl, hholds⟩ := @Buffer.terminate_eq_some r.uri (Buffer.alloc LINE_SIZE)
        (by rw [Buffer.length_alloc]; exact Nat.lt_trans hlen (by decide)) hlen
      rw [hUrl]
      exact iff_of_true ⟨Url, rfl, fun _ ↦ hholds⟩ hlen
    · rw [Buffer.terminate_eq_none (.inr (not_lt.mp hlen))]
      refine iff_of_false ?_ hlen
      rintro ⟨Url, heq, -⟩
      cases heq
  | some http =>
    rw [hs, Option.map_some, Option.some_or] at hhttp
    dsimp only
    rw [GetCtrlUrl_eq r _ hhttp]
    obtain ⟨front, hfront⟩ := strstrcase_suffix hs
    have hlen := congrArg List.length hfront
    rw [List.length_append] at hlen
    cases front using List.reverseRecOn with
    | nil =>
      rw [List.nil_append] at hfront
      rw [copyUrl_none, Option.bind_none]
      · refine iff_of_false ?_ ?_
        · rintro ⟨Url, heq, -⟩
          cases heq
        · rintro ⟨-, hlt, -⟩
          exact absurd hlt (by rw [hfront]; exact Nat.lt_irrefl _)
      · rw [← hfront]
        rfl
    | append_singleton u c =>
      -- the character in front of `http` ends the copy
      have hcopy : copyUrl ((http ++ ' ' :: ("HTTP/1.".toList ++ r.rest)).length + 1)
          (' ' :: (r.uri ++ ' ' :: ("HTTP/1.".toList ++ r.rest))) 0 (Buffer.alloc LINE_SIZE) =
          Buffer.storeChars 0 u (Buffer.alloc LINE_SIZE) := by
        rw [← copyUrl_append ' ' u (c :: (http ++ ' ' :: ("HTTP/1.".toList ++ r.rest))),
          ← hfront, List.length_cons, List.append_assoc, List.append_assoc,
          List.singleton_append]
      rw [List.length_append, List.length_singleton] at hlen
      have hu : r.uri.length - http.length - 1 = u.length := by omega
      rw [hcopy, hu]
      by_cases hshort : u.length < 128
      · obtain ⟨Url, hUrl, hholds⟩ := @Buffer.terminate_eq_some u (Buffer.alloc LINE_SIZE)
          (by rw [Buffer.length_alloc]; exact Nat.lt_trans hshort (by decide)) hshort
        rw [hUrl, Option.map_some]
        constructor
        · rintro ⟨Url', heq, hright⟩
          cases heq
          refine ⟨not_lt.mp fun hfits ↦ ?_, by omega, hshort⟩
          have hnul' : '\x00' ∉ u := fun hc ↦ hnul (by
            rw [← hfront]
            exact List.mem_append_left _ (List.mem_append_left _ hc))
          have heq := Buffer.Holds.unique hnul' hnul hholds (hright hfits)
          rw [heq] at hlen
          omega
        · rintro ⟨hlong, -, -⟩
          exact ⟨Url, rfl, fun hfits ↦ absurd hfits (not_lt.mpr hlong)⟩
      · rw [Buffer.terminate_eq_none (.inr (not_lt.mp hshort))]
        refine iff_of_false ?_ fun h ↦ hshort h.2.2
        rintro ⟨Url, heq, -⟩
        cases heq

/-- A URI with `http` in its path. -/
theorem not_ctrlUrlRight : ¬ ∀ r, CtrlUrlRight r := by
  intro h
  obtain ⟨Url, heq, -⟩ := h ⟨.POST, "http://tv/control".toList, "0\r\n".toList,
    forall_mem_of_all (by decide)⟩
  have hnone : GetCtrlUrl "POST http://tv/control HTTP/1.0\r\n".toList
      (Buffer.alloc LINE_SIZE) = none := by decide +kernel
  cases hnone.symm.trans heq

/-! ## Control URLs of any text -/

/-- The control URL of a text: what is between the character behind the first `POST` and the one in
front of the first `HTTP`, where these stand in this order. -/
def urlPart (text : CString) : Option (Option CString) :=
  (strstrcase text "POST".toList).bind fun post ↦
    (strstrcase text "HTTP".toList).map fun http ↦
      if http.length + 1 < (post.drop 4).length then
        some (((post.drop 4).drop 1).take ((post.drop 4).length - (http.length + 2)))
      else none

/-- `GetCtrlUrl` copies that part. -/
theorem GetCtrlUrl_urlPart (text : CString) (Url : Buffer) : GetCtrlUrl text Url =
    match urlPart text with
    | none => some (-1, Url)
    | some none => none
    | some (some url) => ((Buffer.storeChars 0 url Url).bind Buffer.terminate).map ((1, ·)) := by
  rw [GetCtrlUrl, urlPart]
  cases strstrcase text "POST".toList with
  | none => rfl
  | some post =>
    cases strstrcase text "HTTP".toList with
    | none => rfl
    | some http =>
      rw [Option.bind_some, Option.map_some]
      dsimp only
      by_cases hlt : http.length + 1 < (post.drop 4).length
      · rw [if_pos hlt]
        cases hSptr : post.drop 4 with
        | nil =>
          rw [hSptr] at hlt
          cases hlt
        | cons a s =>
          rw [hSptr, List.length_cons] at hlt
          have hsplit : s = s.take (s.length - (http.length + 1)) ++
              s.drop (s.length - (http.length + 1)) := (List.take_append_drop _ s).symm
          have hrest : (s.drop (s.length - (http.length + 1))).length = http.length + 1 := by
            rw [List.length_drop]
            omega
          have hcount : (a :: s).length - (http.length + 2) = s.length - (http.length + 1) := by
            rw [List.length_cons]
            omega
          rw [hcount, List.drop_succ_cons, List.drop_zero]
          have hcopy := copyUrl_append a (s.take (s.length - (http.length + 1)))
            (s.drop (s.length - (http.length + 1))) 0 Url
          rw [← hsplit, hrest] at hcopy
          rw [hcopy]
      · rw [if_neg hlt, copyUrl_none (not_lt.mp hlt)]
        rfl

theorem nul_notMem_urlPart {text url : CString} (hnul : '\x00' ∉ text)
    (h : urlPart text = some (some url)) : '\x00' ∉ url := by
  obtain ⟨post, hpost, h⟩ := Option.bind_eq_some_iff.mp h
  obtain ⟨http, -, h⟩ := Option.map_eq_some_iff.mp h
  split at h
  · cases h
    intro hc
    exact hnul ((strstrcase_suffix hpost).subset
      (List.mem_of_mem_drop (List.mem_of_mem_drop (List.mem_of_mem_take hc))))
  · cases h

end Upnp.Soap
