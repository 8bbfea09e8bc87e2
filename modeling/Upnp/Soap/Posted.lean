import Upnp.MiniServer.SentRequest
import Upnp.Soap.RoundTrip

/-!
# Requests of control at the mini server

What the control point sends is read by the mini server of the device from any segments, and handed
to the callback for SOAP.
-/

namespace Upnp.Soap

open Upnp.Lib
open MiniServer (IsInLine SentLines Misread StatesLength statesLength_decimal)

variable {a : Asked} {env : Uri.Env} {ActionURL Path ServiceType Host : CString} {url : Uri.URI}

theorem isInLine_of_isName {c : Char} (hc : isName c = true) : IsInLine c := by
  refine ⟨?_, ?_, ?_⟩ <;>
    · rintro rfl
      exact absurd hc (by decide)

theorem literal_ne_nil {c : Char} {l : List Char} : (String.ofList (c :: l)).toList ≠ [] := by
  rw [String.toList_ofList]
  exact List.cons_ne_nil _ _

theorem misread_literal {l : List Char} (h : Misread (String.ofList l).toList) :
    (l.take 14).map Char.toUpper = "CONTENT-LENGTH".toList := by
  rwa [Misread, String.toList_ofList] at h

/-! ## Actions -/

namespace Asked

/-- The parts of the request are of lines, and the length of its body is an `int`. -/
structure InLines (a : Asked) (Path ServiceType Host : CString) : Prop where
  path : ∀ c ∈ Path, IsInLine c
  service : ∀ c ∈ ServiceType, IsInLine c
  host : ∀ c ∈ Host, IsInLine c
  length : a.text.length + 154 < 2147483648

set_option maxRecDepth 2000 in
theorem Plain.nul_notMem_body (h : a.Plain) : '\x00' ∉ (requestPieces a.text).flatten := by
  have hstart : '\x00' ∉ requestStart := notMem_literal rfl
  have hend : '\x00' ∉ requestEnd := notMem_literal rfl
  simp only [requestPieces, List.flatten_cons, List.flatten_nil, List.append_nil, List.mem_append,
    not_or]
  exact ⟨hstart, h.nul, hend⟩

theorem InLines.body_length (hin : a.InLines Path ServiceType Host) :
    (requestPieces a.text).flatten.length < intMax := by
  have hlength := hin.length
  rw [length_requestPieces]
  unfold intMax
  omega

/-- The lines of the request. -/
def lines (h : a.Plain) (hin : a.InLines Path ServiceType Host) : SentLines where
  line := "POST ".toList ++ Path ++ " HTTP/1.0".toList
  before := ["Content-Type: text/xml".toList,
    "SOAPACTION:\"".toList ++ ServiceType ++ "#".toList ++ a.ActName ++ "\"".toList]
  lengthLine :=
    "Content-Length: ".toList ++ decimal ((requestPieces a.text).flatten.length + 1 : Nat)
  behind := ["Host: ".toList ++ Host]
  body := (requestPieces a.text).flatten
  plain := by
    have hname : ∀ c ∈ a.ActName, IsInLine c := fun c hc ↦ isInLine_of_isName (h.alnum c hc)
    have hdigits := MiniServer.decimal_line ((requestPieces a.text).flatten.length + 1)
    intro l hl
    simp only [List.cons_append, List.nil_append, List.mem_cons, List.not_mem_nil, or_false] at hl
    rcases hl with rfl | rfl | rfl | rfl | rfl
    · simp only [List.forall_mem_append]
      exact ⟨⟨forall_mem_of_all (by decide), hin.path⟩, forall_mem_of_all (by decide)⟩
    · exact forall_mem_of_all (by decide)
    · simp only [List.forall_mem_append]
      exact ⟨⟨⟨⟨forall_mem_of_all (by decide), hin.service⟩, forall_mem_of_all (by decide)⟩,
        hname⟩, forall_mem_of_all (by decide)⟩
    · exact List.forall_mem_append.mpr ⟨forall_mem_of_all (by decide), hdigits⟩
    · exact List.forall_mem_append.mpr ⟨forall_mem_of_all (by decide), hin.host⟩
  states := by
    have hlength : MiniServer.LengthName "Content-Length".toList :=
      ⟨by decide, List.forall_mem_nil _⟩
    have hblanks : ∀ c ∈ [' '], MiniServer.isBlank c := List.forall_mem_singleton.mpr rfl
    have hcolon : "Content-Length: ".toList = "Content-Length".toList ++ ": ".toList :=
      literal_eq_append rfl
    have hstates := statesLength_decimal hlength hblanks (List.forall_mem_nil _)
      ((requestPieces a.text).flatten.length + 1)
    rw [List.append_nil] at hstates
    rw [hcolon, List.append_assoc]
    exact hstates
  other := by
    intro l hl
    simp only [List.cons_append, List.nil_append, List.mem_cons, List.not_mem_nil, or_false] at hl
    rcases hl with rfl | rfl | rfl
    · exact ⟨literal_ne_nil, fun hmis ↦ absurd (misread_literal hmis) (by decide)⟩
    · refine ⟨List.cons_ne_nil _ _, fun hmis ↦ ?_⟩
      have hhead : some 'S' = some 'C' := congrArg List.head? hmis
      cases hhead
    · refine ⟨List.cons_ne_nil _ _, fun hmis ↦ ?_⟩
      have hhead : some 'H' = some 'C' := congrArg List.head? hmis
      cases hhead
  body_nul := h.nul_notMem_body
  body_length := hin.body_length

theorem document_lines (h : a.Plain) (hin : a.InLines Path ServiceType Host) :
    (lines h hin).document = a.request Path ServiceType Host := by
  have hlength := hin.length
  have hannounced : announced (requestPieces a.text).flatten =
      ((requestPieces a.text).flatten.length + 1 : Nat) := by
    rw [announced_of_lt (by rw [length_requestPieces]; omega), Nat.cast_succ]
  rw [request, formatPieces_eq, hannounced]
  delta SentLines.document lines
  dsimp only [List.cons_append, List.nil_append]

end Asked

set_option maxRecDepth 8000 in
theorem power_inLines : power.InLines (lampURI.pathquery.text lampURL) serviceURN
    (lampURI.hostport.text.text lampURL) where
  path := forall_mem_of_all (by decide)
  service := forall_mem_of_all (by decide)
  host := forall_mem_of_all (by decide)
  length := by decide

theorem nul_notMem_queryMsg {VarName : CString} (hnul : '\x00' ∉ VarName) :
    '\x00' ∉ queryMsg VarName := by
  have htext := @nul_notMem_queryText VarName [] hnul List.not_mem_nil
  simp only [queryText, List.mem_append, not_or] at htext
  exact htext.2.2.2

/-- The lines of a query. -/
def postedLines {VarName : CString} {URL : GenaClient.ParsedURL} (blanks : Nat)
    (hpath : ∀ c ∈ URL.path, IsInLine c) (hhost : ∀ c ∈ URL.hostport, IsInLine c)
    (hnul : '\x00' ∉ VarName) (hlength : VarName.length < NAME_SIZE) : SentLines where
  line := "POST ".toList ++ URL.path ++ " HTTP/1.1".toList
  before := ["HOST: ".toList ++ URL.hostport]
  lengthLine := "CONTENT-LENGTH:".toList ++ decimal ((queryMsg VarName).length + 1 : Nat) ++
    List.replicate blanks ' '
  behind := ["CONTENT-TYPE:text/xml".toList,
    "SOAPACTION:urn:schemas-upnp-org:control-1-0#QueryStateVariable".toList]
  body := queryMsg VarName
  plain := by
    have hdigits := MiniServer.decimal_line ((queryMsg VarName).length + 1)
    have hblanks : ∀ c ∈ List.replicate blanks ' ', IsInLine c := by
      intro c hc
      rw [List.eq_of_mem_replicate hc]
      decide
    intro l hl
    simp only [List.cons_append, List.nil_append, List.mem_cons, List.not_mem_nil, or_false] at hl
    rcases hl with rfl | rfl | rfl | rfl | rfl
    · simp only [List.forall_mem_append]
      exact ⟨⟨forall_mem_of_all (by decide), hpath⟩, forall_mem_of_all (by decide)⟩
    · exact List.forall_mem_append.mpr ⟨forall_mem_of_all (by decide), hhost⟩
    · simp only [List.forall_mem_append]
      exact ⟨⟨forall_mem_of_all (by decide), hdigits⟩, hblanks⟩
    · exact forall_mem_of_all (by decide)
    · exact forall_mem_of_all (by decide)
  states := by
    have hname : MiniServer.LengthName "CONTENT-LENGTH".toList :=
      ⟨by decide, List.forall_mem_nil _⟩
    have hblanks : ∀ c ∈ List.replicate blanks ' ', MiniServer.isBlank c := by
      intro c hc
      rw [List.eq_of_mem_replicate hc]
      rfl
    have hstates := statesLength_decimal hname (List.forall_mem_nil _) hblanks
      ((queryMsg VarName).length + 1)
    have hcolon : "CONTENT-LENGTH:".toList = "CONTENT-LENGTH".toList ++ ":".toList :=
      literal_eq_append rfl
    have hsign : ":".toList = [':'] := by decide
    rw [List.nil_append] at hstates
    rw [hcolon, hsign, List.append_assoc, List.append_assoc, List.singleton_append]
    exact hstates
  other := by
    intro l hl
    simp only [List.cons_append, List.nil_append, List.mem_cons, List.not_mem_nil, or_false] at hl
    rcases hl with rfl | rfl | rfl
    · refine ⟨List.cons_ne_nil _ _, fun hmis ↦ ?_⟩
      have hhead : some 'H' = some 'C' := congrArg List.head? hmis
      cases hhead
    · exact ⟨literal_ne_nil, fun hmis ↦ absurd (misread_literal hmis) (by decide)⟩
    · exact ⟨literal_ne_nil, fun hmis ↦ absurd (misread_literal hmis) (by decide)⟩
  body_nul := nul_notMem_queryMsg hnul
  body_length := by
    have hcount := length_queryMsg VarName
    unfold NAME_SIZE at hlength
    unfold intMax
    omega

theorem document_postedLines {VarName : CString} {URL : GenaClient.ParsedURL} (blanks : Nat)
    (hpath : ∀ c ∈ URL.path, IsInLine c) (hhost : ∀ c ∈ URL.hostport, IsInLine c)
    (hnul : '\x00' ∉ VarName) (hlength : VarName.length < NAME_SIZE) :
    (postedLines blanks hpath hhost hnul hlength).document =
      httpText (messageLines URL (queryLines VarName blanks)) (queryMsg VarName) := by
  have hcast : ((queryMsg VarName).length : Int) + 1 = ((queryMsg VarName).length + 1 : Nat) :=
    (Nat.cast_succ _).symm
  rw [messageLines, queryLines, hcast]
  delta SentLines.document postedLines
  dsimp only [List.cons_append, List.nil_append]

end Upnp.Soap
