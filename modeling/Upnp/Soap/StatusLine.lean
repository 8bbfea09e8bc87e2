import Mathlib.Data.List.Infix
import Upnp.Lib.CharIndex
import Upnp.Soap.Reply

/-!
# The status of a reply

`GetBufferErrorCode` with its array `Header`: the first line is copied there, and `200` is searched
in the copy.
-/

namespace Upnp.Soap

open Upnp.Lib Upnp.Lib.Buffer

/-- The copy of the first line in `Header`; `none` when a byte is written outside.  Without a line
end `Ptr - Buffer` is not the length of anything, and `strncpy` pads beyond every array. -/
def copyHeader (text : CString) : Option Buffer := do
  let Ptr ← strstr text "\r\n".toList
  let n := text.length - Ptr.length
  let Header ← memcpy 0 (text.take n) (alloc LINE_SIZE)
  memcpy n ['\x00'] Header

/-- `GetBufferErrorCode` on `Header`. -/
def bufferErrorCode (text : CString) : Option Int :=
  (copyHeader text).map fun Header ↦ if strstr Header.str "200".toList = none then -1 else 1

/-- The status code of a line: its second word. -/
def statusField (line : CString) : CString :=
  (((line.dropWhile (· = ' ')).dropWhile (· ≠ ' ')).dropWhile (· = ' ')).takeWhile (· ≠ ' ')

/-- No byte is written outside `Header`, and the reply is a success if and only if its status code
is 200. -/
def StatusRight (text : CString) : Prop :=
  ∃ code, bufferErrorCode text = some code ∧
    (code = 1 ↔ statusField (firstLine text) = "200".toList)

/-- The first line has an end and fits `Header`, and has no other 200 than a status code. -/
structure StatusLine (text : CString) : Prop where
  ends : "\r\n".toList <:+: text
  fits : (firstLine text).length < LINE_SIZE
  alone : "200".toList <:+: firstLine text → statusField (firstLine text) = "200".toList

variable {text : CString}

/-- The status code is in its line. -/
theorem statusField_infix (line : CString) : statusField line <:+: line := by
  rw [statusField]
  refine (List.takeWhile_prefix _).isInfix.trans ?_
  apply List.IsSuffix.isInfix
  exact (List.dropWhile_suffix _).trans ((List.dropWhile_suffix _).trans (List.dropWhile_suffix _))

/-! ## The copy of the line -/

/-- The line and its NUL are written one behind the other. -/
theorem copyHeader_eq {Ptr : CString} (hptr : strstr text "\r\n".toList = some Ptr) :
    copyHeader text = memcpyAll 0 [firstLine text, ['\x00']] (alloc LINE_SIZE) := by
  have hline : firstLine text = text.take (text.length - Ptr.length) := by
    rw [firstLine, hptr]
    rfl
  have hlen : (firstLine text).length = text.length - Ptr.length := by
    rw [hline, List.length_take]
    omega
  have hall : copyHeader text =
      (memcpy 0 (firstLine text) (alloc LINE_SIZE)).bind (memcpy (firstLine text).length ['\x00']) := by
    rw [copyHeader, hptr, hlen, hline]
    rfl
  simp only [hall, memcpyAll, Nat.zero_add, Option.bind_fun_some]

theorem length_pieces : [firstLine text, ['\x00']].flatten.length = (firstLine text).length + 1 := by
  rw [List.flatten_cons, List.length_append]
  rfl

/-- A line that fits is in `Header`, with its NUL. -/
theorem copyHeader_holds {Ptr : CString} (hptr : strstr text "\r\n".toList = some Ptr)
    (hfits : (firstLine text).length < LINE_SIZE) :
    ∃ Header, copyHeader text = some Header ∧ Header.Holds (firstLine text) := by
  have hwhole := @memcpyAll_append [] (alloc LINE_SIZE) [firstLine text, ['\x00']] (by
    rw [length_pieces, length_alloc]
    exact hfits)
  rw [copyHeader_eq hptr]
  exact ⟨_, hwhole, List.prefix_append _ _⟩

/-- A line that does not fit is written outside `Header`. -/
theorem copyHeader_eq_none {Ptr : CString} (hptr : strstr text "\r\n".toList = some Ptr)
    (hfits : LINE_SIZE ≤ (firstLine text).length) : copyHeader text = none := by
  have hwhole := @memcpyAll_eq_none [] (alloc LINE_SIZE) [firstLine text, ['\x00']] (by
    rw [length_pieces, length_alloc]
    exact Nat.lt_succ_of_le hfits)
  rw [copyHeader_eq hptr]
  exact hwhole

/-- On a C string `GetBufferErrorCode` is the search in the line itself. -/
theorem bufferErrorCode_eq (htext : '\x00' ∉ text) :
    bufferErrorCode text = GetBufferErrorCode text := by
  have hnul : '\x00' ∉ firstLine text := fun h ↦ htext (List.mem_of_mem_take h)
  rw [bufferErrorCode, GetBufferErrorCode]
  cases hptr : strstr text "\r\n".toList with
  | none =>
    rw [copyHeader, hptr]
    rfl
  | some Ptr =>
    rw [if_neg (Option.some_ne_none Ptr)]
    by_cases hfits : (firstLine text).length < LINE_SIZE
    · obtain ⟨Header, hHeader, hholds⟩ := copyHeader_holds hptr hfits
      rw [hHeader, Option.map_some, str_of_holds hnul hholds, if_pos hfits]
    · rw [copyHeader_eq_none hptr (not_lt.mp hfits), if_neg hfits]
      rfl

/-! ## The status -/

theorem statusRight_iff (htext : '\x00' ∉ text) : StatusRight text ↔ StatusLine text := by
  have hend := @strstr_ne_none_iff text "\r\n".toList (by decide)
  have hfound := @strstr_ne_none_iff (firstLine text) "200".toList (by decide)
  rw [StatusRight, bufferErrorCode_eq htext, GetBufferErrorCode]
  constructor
  · rintro ⟨code, hcode, hstatus⟩
    split_ifs at hcode with hnone hfits hline
    · refine ⟨hend.mp hnone, hfits, fun h ↦ ?_⟩
      exact absurd hline (hfound.mpr h)
    · cases hcode
      exact ⟨hend.mp hnone, hfits, fun _ ↦ hstatus.mp rfl⟩
  · rintro ⟨hends, hfits, halone⟩
    rw [if_neg (hend.mpr hends), if_pos hfits]
    refine ⟨_, rfl, ?_⟩
    split_ifs with hline
    · refine iff_of_false (by decide) fun hstatus ↦ ?_
      apply hfound.mpr _ hline
      rw [← hstatus]
      exact statusField_infix _
    · exact iff_of_true rfl (halone (hfound.mp hline))

theorem statusRight_ok : '\x00' ∉ "HTTP/1.1 200 OK\r\n".toList ∧
    (StatusRight "HTTP/1.1 200 OK\r\n".toList ↔ StatusLine "HTTP/1.1 200 OK\r\n".toList) :=
  ⟨by decide, statusRight_iff (by decide)⟩

/-- An error with a 200 in its text is a success. -/
theorem not_statusRight : ¬ StatusRight "HTTP/1.1 500 Error 200\r\n".toList := by
  rintro ⟨code, hcode, hstatus⟩
  have hone : bufferErrorCode "HTTP/1.1 500 Error 200\r\n".toList = some 1 := by
    rw [bufferErrorCode_eq (by decide)]
    decide
  rw [hone] at hcode
  cases hcode
  exact absurd (hstatus.mp rfl) (by decide)

end Upnp.Soap
