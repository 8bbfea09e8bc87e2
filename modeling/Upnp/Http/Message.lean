import Upnp.Http.Lines
import Upnp.Lib.Numeral

/-!
# Well-formed responses

A response as its sender means it: a status line, header fields, and a body that
is framed by a content length, by chunks or by the close of the connection.
`encode` is the byte stream it is sent as, `content` what a reader is to make of
it: the same without the framing of the chunks.
-/

namespace Upnp.Http

open Upnp.Lib

/-! ## Header fields -/

def contentLengthName : CString := "Content-Length".toList
def transferEncodingName : CString := "Transfer-Encoding".toList
def chunkedValue : CString := " chunked".toList
def contentPrefix : CString := "Content".toList

/-- A line end. -/
def crlf : List Char := ['\r', '\n']

/-- A header field, in one line that fits a buffer. -/
structure Field where
  name : CString
  value : CString
  name_ne : name ≠ []
  name_token : ∀ c ∈ name, c ≠ ':' ∧ c ≠ ' ' ∧ c ≠ '\t' ∧ c ≠ '\r' ∧ c ≠ '\n'
  value_line : '\n' ∉ value
  fits : (name ++ ':' :: value).length + 2 < SOCKET_BUFFER_SIZE

namespace Field

/-- The line of a field, without its end. -/
def text (f : Field) : List Char := f.name ++ ':' :: f.value

/-- The field is called `n`, whatever the case. -/
def Named (f : Field) (n : CString) : Prop := strcaseEq f.name n

instance (f : Field) (n : CString) : Decidable (f.Named n) := inferInstanceAs (Decidable (_ = _))

/-- A content length of `n`: blanks, digits, blanks. -/
def HasLength (f : Field) (n : Nat) : Prop :=
  ∃ ws ds ws', f.value = ws ++ (ds ++ ws') ∧ (∀ c ∈ ws, c = ' ' ∨ c = '\t') ∧ IsDigits 10 ds ∧
    ds ≠ [] ∧ (∀ c ∈ ws', c = ' ' ∨ c = '\t') ∧ numeral 10 ds = n

end Field

/-! ## Chunks -/

/-- The line before a chunk: its size and an extension. -/
structure SizeLine where
  digits : CString
  extension : CString
  digits_ne : digits ≠ []
  digits_hex : IsDigits 16 digits
  extension_line : '\n' ∉ extension
  extension_start : ∀ c ∈ extension.head?, c = ';' ∨ c = ' ' ∨ c = '\t'

namespace SizeLine

def value (l : SizeLine) : Nat := numeral 16 l.digits

/-- The line with its end. -/
def encode (l : SizeLine) : List Char := l.digits ++ l.extension ++ crlf

end SizeLine

/-- A chunk of the body. -/
structure Chunk where
  line : SizeLine
  data : List Char
  data_ne : data ≠ []
  size_eq : line.value = data.length
  size_le : (data.length : Int) ≤ intMax

/-- A chunk on the wire. -/
def Chunk.encode (c : Chunk) : List Char := c.line.encode ++ c.data ++ crlf

/-! ## Responses -/

/-- A body with the way it is framed. -/
inductive Body where
  | contentLength (data : List Char)
  | chunked (chunks : List Chunk) (last : SizeLine) (trailers : List Field)
  | untilClose (data : List Char)

namespace Body

/-- The bytes of the body. -/
def data : Body → List Char
  | .contentLength data => data
  | .chunked chunks _ _ => chunks.flatMap (·.data)
  | .untilClose data => data

/-- The body on the wire. -/
def encode : Body → List Char
  | .contentLength data => data
  | .chunked chunks last trailers =>
    chunks.flatMap (·.encode) ++ last.encode ++ trailers.flatMap (·.text ++ crlf) ++ crlf
  | .untilClose data => data

/-- The header fields announce the body. -/
def Announced (fields : List Field) : Body → Prop
  | .contentLength data => (data.length : Int) ≤ intMax ∧
    (∃ f, fields.filter (·.Named contentLengthName) = [f] ∧ f.HasLength data.length) ∧
    ∀ f ∈ fields, ¬ f.Named transferEncodingName
  | .chunked _ last _ => last.value = 0 ∧
    ∃ f ∈ fields, f.Named transferEncodingName ∧ strcaseEq f.value chunkedValue
  | .untilClose _ =>
    (∃ f ∈ fields, startsWithCase contentPrefix f.name) ∧
    ∀ f ∈ fields, ¬ f.Named contentLengthName ∧ ¬ f.Named transferEncodingName

end Body

/-- A well-formed response. -/
structure Message where
  status : List Char
  fields : List Field
  body : Body
  status_http : "HTTP/".toList <+: status
  status_line : '\n' ∉ status
  status_fits : status.length + 2 < SOCKET_BUFFER_SIZE
  announced : body.Announced fields

namespace Message

/-- The lines of the header, without their ends. -/
def texts (m : Message) : List (List Char) := m.status :: m.fields.map (·.text)

/-- The header with its empty line. -/
def header (m : Message) : List Char := m.texts.flatMap (· ++ crlf) ++ crlf

/-- The byte stream. -/
def encode (m : Message) : List Char := m.header ++ m.body.encode

/-- The response without the framing of its body. -/
def content (m : Message) : List Char := m.header ++ m.body.data

/-- What may follow on the connection. -/
def Followed (m : Message) (rest : List Char) : Prop :=
  match m.body with
  | .untilClose _ => rest = []
  | _ => True

/-- The size lines of the chunks, but for the last one, fit a buffer. -/
def SizeLinesFit (m : Message) : Prop :=
  match m.body with
  | .chunked chunks _ _ => ∀ c ∈ chunks, c.line.encode.length < SOCKET_BUFFER_SIZE
  | _ => True

end Message

/-! ## The patterns of the reader -/

/-- A text without the case of its letters. -/
def lower (s : CString) : CString := s.map Char.toLower

theorem strcaseEq_iff {s t : CString} : strcaseEq s t ↔ lower s = lower t := by
  simp [strcaseEq, lower]

theorem startsWithCase_iff {pat line : CString} :
    startsWithCase pat line ↔ lower pat <+: lower line := by
  rw [List.prefix_iff_eq_take]
  simp [startsWithCase, strncaseEq, strcaseEq, lower, List.map_take]

theorem colon_notMem_lower {s : CString} (h : ':' ∉ s) : ':' ∉ lower s := by
  intro hc
  obtain ⟨c, hmem, hc⟩ := List.mem_map.mp hc
  exact h (eq_of_toLower_eq hc (by decide) ▸ hmem)

/-- A name is told by the first colon. -/
theorem colon_prefix_iff {p n v : CString} (hp : ':' ∉ p) (hn : ':' ∉ n) :
    p ++ [':'] <+: n ++ ':' :: v ↔ n = p := by
  induction p generalizing n with
  | nil =>
    cases n with
    | nil => simp
    | cons c n =>
      have : ':' ≠ c := fun h ↦ hn (h ▸ List.mem_cons_self)
      simp [this]
  | cons d p ih =>
    rw [List.mem_cons, not_or] at hp
    cases n with
    | nil =>
      have : d ≠ ':' := fun h ↦ hp.1 h.symm
      simp [this]
    | cons c n =>
      rw [List.mem_cons, not_or] at hn
      rw [List.cons_append, List.cons_append, List.cons_prefix_cons, ih hp.2 hn.2, List.cons.injEq]
      exact and_congr_left fun _ ↦ eq_comm

namespace Field

variable (f : Field)

theorem colon_notMem_name : ':' ∉ f.name := fun h ↦ (f.name_token _ h).1 rfl

/-- The pattern with a colon tells the name of a field. -/
theorem startsWithCase_colon_iff {n rest : CString} (hn : ':' ∉ n) :
    startsWithCase (n ++ [':']) (f.text ++ rest) ↔ f.Named n := by
  rw [startsWithCase_iff, Named, strcaseEq_iff,
    ← colon_prefix_iff (colon_notMem_lower hn) (colon_notMem_lower f.colon_notMem_name)]
  simp only [lower, text, List.map_append, List.map_cons, List.map_nil, List.append_assoc,
    List.cons_append]
  rfl

end Field

/-- A pattern that is matched is matched by its front. -/
theorem startsWithCase_append {p q line : CString} (h : startsWithCase (p ++ q) line) :
    startsWithCase p line := by
  rw [startsWithCase_iff] at h ⊢
  rw [lower, List.map_append] at h
  exact (List.prefix_append _ _).trans h

namespace Field

variable (f : Field) {cl : Int} {rest : CString}

/-- Nothing but a field called `Transfer-Encoding` matches the pattern for chunks. -/
theorem named_of_startsWithCase
    (h : startsWithCase pat2 (f.text ++ rest)) :
    f.Named transferEncodingName := by
  have hcase : lower pat2 =
      lower (transferEncodingName ++ [':'] ++ chunkedValue) := by decide
  rw [startsWithCase_iff, hcase, ← startsWithCase_iff] at h
  exact (f.startsWithCase_colon_iff (by decide)).mp (startsWithCase_append h)

theorem startsWithCase_of_chunked (hn : f.Named transferEncodingName)
    (hv : strcaseEq f.value chunkedValue) :
    startsWithCase pat2 (f.text ++ rest) := by
  rw [Named, strcaseEq_iff] at hn
  rw [strcaseEq_iff] at hv
  rw [startsWithCase_iff]
  have hcase : lower pat2 =
      lower transferEncodingName ++ ':' :: lower chunkedValue := by decide
  have htext : lower (f.text ++ rest) = lower f.name ++ ':' :: lower f.value ++ lower rest := by
    simp [lower, text]
  rw [htext, hn, hv, hcase]
  exact List.prefix_append _ _

/-- The length pattern tells a field called `Content-Length`. -/
theorem startsWithCase_length_iff :
    startsWithCase pat (f.text ++ rest) ↔
      f.Named contentLengthName := by
  have hcase : lower pat = lower (contentLengthName ++ [':']) := by
    decide
  rw [← f.startsWithCase_colon_iff (by decide), startsWithCase_iff, startsWithCase_iff, hcase]

/-- The content pattern looks at the name only. -/
theorem startsWithCase_content_of_name (h : startsWithCase contentPrefix f.name) :
    startsWithCase pat3 (f.text ++ rest) := by
  have hcase : lower pat3 = lower contentPrefix := by decide
  rw [startsWithCase_iff] at h ⊢
  rw [hcase]
  apply h.trans
  simp [lower, text]

end Field

end Upnp.Http
