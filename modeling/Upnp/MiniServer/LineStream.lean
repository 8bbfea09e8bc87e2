import Upnp.Lib.Machine
import Upnp.MiniServer.NetReader1

/-!
# What the reader delivers

Runs of `getChar`, `getLine` and `readData` on one `NetReader1`.  Whatever the reads of the socket
are, the bytes delivered and those still to come are the stream.  A line is the one meant, but for
a CR behind the CR that ends it: the loop of `getLine` takes it for the first one again.
-/

namespace Upnp.MiniServer

open Upnp.Lib

/-! ## Lines -/

/-- A line, `newlineNotFound`, and what is behind the line. -/
structure Cut where
  line : Line
  rest : CString
deriving DecidableEq, Repr

/-- A character in front of a line. -/
def Cut.cons (c : Char) (cut : Cut) : Cut := ⟨⟨c :: cut.line.s, cut.line.newlineNotFound⟩, cut.rest⟩

/-- The line that `getLine` takes off a text; `crFound` is whether there was a CR. -/
def takeLine : Bool → CString → Cut
  | _, [] => ⟨⟨[], true⟩, []⟩
  | crFound, c :: text =>
    if c = '\n' then ⟨⟨[c], false⟩, text⟩
    else if c = '\r' then (takeLine true text).cons c
    else if crFound then ⟨⟨[c], true⟩, text⟩
    else (takeLine crFound text).cons c

/-- The line that is meant: it goes to the next LF or CRLF, or to the character behind a CR. -/
def firstLine : CString → Cut
  | [] => ⟨⟨[], true⟩, []⟩
  | c :: text =>
    if c = '\n' then ⟨⟨[c], false⟩, text⟩
    else if c = '\r' then
      match text with
      | [] => ⟨⟨[c], true⟩, []⟩
      | d :: text => ⟨⟨[c, d], d ≠ '\n'⟩, text⟩
    else (firstLine text).cons c

/-- A line ends in two CRs, and something is behind them. -/
def TwoCrs (text : CString) : Prop :=
  ∃ before c rest, text = before ++ '\r' :: '\r' :: c :: rest ∧ '\r' ∉ before ∧ '\n' ∉ before

variable {text : CString} {c : Char}

/-- Nothing of the text is lost. -/
theorem takeLine_append (crFound : Bool) (text : CString) :
    (takeLine crFound text).line.s ++ (takeLine crFound text).rest = text := by
  induction text generalizing crFound with
  | nil => rfl
  | cons c text ih =>
    rw [takeLine]
    split_ifs
    · rfl
    · exact congrArg (c :: ·) (ih true)
    · rfl
    · exact congrArg (c :: ·) (ih crFound)

/-- A text is used up if no line is taken off it. -/
theorem takeLine_eq_nil {crFound : Bool} (h : (takeLine crFound text).line.s = []) : text = [] := by
  cases text with
  | nil => rfl
  | cons c text =>
    rw [takeLine] at h
    split_ifs at h
    all_goals cases h

/-- Nor is anything lost of what is meant. -/
theorem firstLine_append (text : CString) :
    (firstLine text).line.s ++ (firstLine text).rest = text := by
  fun_induction firstLine text with
  | case1 => rfl
  | case2 => rfl
  | case3 => rfl
  | case4 => rfl
  | case5 c text hlf hcr ih => exact congrArg (c :: ·) ih

/-- A cut is known from its line. -/
theorem takeLine_eq_of_line (h : (takeLine false text).line = (firstLine text).line) :
    takeLine false text = firstLine text := by
  have htake := takeLine_append false text
  have hfirst := firstLine_append text
  generalize takeLine false text = cut at h htake ⊢
  generalize firstLine text = cut' at h hfirst ⊢
  obtain ⟨line, rest⟩ := cut
  obtain ⟨line', rest'⟩ := cut'
  subst h
  have hrest : rest = rest' := List.append_cancel_left (htake.trans hfirst.symm)
  rw [hrest]

theorem Cut.cons_inj {cut cut' : Cut} : cut.cons c = cut'.cons c ↔ cut = cut' := by
  constructor
  · intro h
    obtain ⟨⟨s, b⟩, rest⟩ := cut
    obtain ⟨⟨s', b'⟩, rest'⟩ := cut'
    cases h
    rfl
  · rintro rfl
    rfl

theorem twoCrs_cons (hcr : c ≠ '\r') (hlf : c ≠ '\n') : TwoCrs (c :: text) ↔ TwoCrs text := by
  constructor
  · rintro ⟨before, d, rest, heq, hcr', hlf'⟩
    cases before with
    | nil => exact absurd (List.cons.inj heq).1 hcr
    | cons b before =>
      obtain ⟨rfl, rfl⟩ := List.cons.inj heq
      exact ⟨before, d, rest, rfl, List.not_mem_of_not_mem_cons hcr',
        List.not_mem_of_not_mem_cons hlf'⟩
  · rintro ⟨before, d, rest, rfl, hcr', hlf'⟩
    exact ⟨c :: before, d, rest, rfl, List.not_mem_cons_of_ne_of_not_mem hcr.symm hcr',
      List.not_mem_cons_of_ne_of_not_mem hlf.symm hlf'⟩

theorem twoCrs_cr : TwoCrs ('\r' :: text) ↔ ∃ c rest, text = '\r' :: c :: rest := by
  constructor
  · rintro ⟨before, d, rest, heq, hcr, -⟩
    cases before with
    | nil => exact ⟨d, rest, (List.cons.inj heq).2⟩
    | cons b before =>
      obtain ⟨rfl, -⟩ := List.cons.inj heq
      exact absurd (List.mem_cons_self ..) hcr
  · rintro ⟨d, rest, rfl⟩
    exact ⟨[], d, rest, rfl, List.not_mem_nil, List.not_mem_nil⟩

theorem not_twoCrs_lf : ¬ TwoCrs ('\n' :: text) := by
  rintro ⟨before, d, rest, heq, -, hlf⟩
  cases before with
  | nil => cases heq
  | cons b before =>
    obtain ⟨rfl, -⟩ := List.cons.inj heq
    exact hlf (List.mem_cons_self ..)

/-- Behind one CR the next character is taken as it is meant, unless it is a CR and the text goes
on. -/
theorem takeLine_cr_eq_iff :
    (takeLine true text).cons '\r' = firstLine ('\r' :: text) ↔ ¬ TwoCrs ('\r' :: text) := by
  rw [twoCrs_cr]
  cases text with
  | nil =>
    refine iff_of_true rfl ?_
    rintro ⟨c, rest, heq⟩
    cases heq
  | cons d text =>
    by_cases hlf : d = '\n'
    · subst hlf
      refine iff_of_true rfl ?_
      rintro ⟨c, rest, heq⟩
      cases heq
    by_cases hcr : d = '\r'
    · subst hcr
      cases text with
      | nil =>
        refine iff_of_true rfl ?_
        rintro ⟨c, rest, heq⟩
        cases heq
      | cons e text =>
        refine iff_of_false (fun h ↦ ?_) (not_not_intro ⟨e, text, rfl⟩)
        -- the line that is meant has two characters
        have hlen := congrArg (fun cut ↦ cut.line.s.length) h
        have hne : (takeLine true (e :: text)).line.s ≠ [] := fun hnil ↦ by
          cases takeLine_eq_nil hnil
        change (takeLine true (e :: text)).line.s.length + 1 + 1 = 2 at hlen
        exact hne (List.length_eq_zero_iff.mp (by omega))
    · refine iff_of_true ?_ ?_
      · rw [takeLine, if_neg hlf, if_neg hcr, if_pos rfl]
        change _ = (⟨⟨['\r', d], decide (d ≠ '\n')⟩, text⟩ : Cut)
        rw [decide_eq_true hlf]
        rfl
      · rintro ⟨c, rest, heq⟩
        exact hcr (List.cons.inj heq).1

theorem takeLine_eq_iff : takeLine false text = firstLine text ↔ ¬ TwoCrs text := by
  induction text with
  | nil =>
    refine iff_of_true rfl ?_
    rintro ⟨before, c, rest, heq, -⟩
    exact absurd heq.symm (by simp)
  | cons c text ih =>
    by_cases hlf : c = '\n'
    · subst hlf
      exact iff_of_true rfl not_twoCrs_lf
    by_cases hcr : c = '\r'
    · subst hcr
      exact takeLine_cr_eq_iff
    · have hfirst : firstLine (c :: text) = (firstLine text).cons c := by
        rw [firstLine.eq_def]
        exact (if_neg hlf).trans (if_neg hcr)
      rw [takeLine, if_neg hlf, if_neg hcr, if_neg Bool.false_ne_true, hfirst, Cut.cons_inj, ih,
        twoCrs_cons hcr hlf]

/-! ## Runs -/

namespace NetReader1

/-- The bytes that are still to be delivered. -/
def unread (r : NetReader1) : CString := r.data ++ (r.reads.filterMap id).flatten

end NetReader1

/-- The calls. -/
inductive ReaderCall where
  | getChar
  | getLine
  | readData (bufferLen : Nat)
deriving DecidableEq, Repr

/-- A reader, and the bytes that it delivered. -/
structure ReaderSession where
  reader : NetReader1
  delivered : CString

/-- The session after a call; `text` are the bytes of what the call got. -/
def ReaderSession.after {α : Type} (s : ReaderSession) (text : α → CString) :
    Got α × NetReader1 → ReaderSession
  | (.got a, reader) => ⟨reader, s.delivered ++ text a⟩
  | (.closed, reader) => ⟨reader, s.delivered⟩
  | (.error, reader) => ⟨reader, s.delivered⟩

def ReaderSession.call (s : ReaderSession) : ReaderCall → ReaderSession
  | .getChar => s.after (fun c ↦ [c]) s.reader.getChar
  | .getLine => s.after Line.s s.reader.getLine
  | .readData bufferLen => s.after id (s.reader.readData bufferLen)

/-- The runs of a reader whose socket has the pieces of a stream to read. -/
def readerSessions (pieces : List CString) : Machine ReaderSession ReaderCall where
  init s := s = ⟨⟨[], pieces.map some⟩, []⟩
  step s c := some (s.call c)

/-- What the calls have to do in a state of a run. -/
structure Delivers (stream : CString) (s : ReaderSession) : Prop where
  text : s.delivered ++ s.reader.unread = stream
  getChar : s.reader.getChar.1 = match s.reader.unread with | [] => .closed | c :: _ => .got c
  getLine : s.reader.getLine.1 = .got (firstLine s.reader.unread).line
  readData : ∀ bufferLen, 0 < bufferLen →
    (s.reader.readData bufferLen).1 = .closed ∧ s.reader.unread = [] ∨
      ∃ buf, (s.reader.readData bufferLen).1 = .got buf ∧ buf ≠ [] ∧ buf.length ≤ bufferLen ∧
        buf <+: s.reader.unread

namespace NetReader1

variable {r : NetReader1} {ps : List CString}

theorem Holds.unread_eq (h : r.Holds ps) : r.unread = ps.flatten := by
  have hsome (ps : List CString) : (ps.map some).filterMap id = ps := by
    rw [List.filterMap_map]
    exact List.filterMap_some
  cases h with
  | refill => exact congrArg List.flatten (hsome ps)
  | buffered => exact congrArg (_ ++ List.flatten ·) (hsome _)

/-- At the end of the stream nothing is left in the buffer. -/
theorem Holds.eq_of_nil (h : r.Holds []) : r = ⟨[], []⟩ := by
  cases h
  rfl

/-- `getLine` takes a line off the stream, as it is cut into pieces. -/
theorem getLineLoop_eq (h : r.Holds ps) (s : CString) (crFound : Bool) : ∃ r' ps',
    r.getLineLoop s crFound = (.got ⟨s ++ (takeLine crFound ps.flatten).line.s,
      (takeLine crFound ps.flatten).line.newlineNotFound⟩, r') ∧
      r'.Holds ps' ∧ ps'.flatten = (takeLine crFound ps.flatten).rest := by
  induction htext : ps.flatten generalizing r ps s crFound with
  | nil =>
    have hnil : ps = [] := by
      rcases hps : ps with _ | ⟨p, more⟩
      · rfl
      · rw [hps, List.flatten_cons, List.append_eq_nil_iff] at htext
        exact absurd htext.1 (h.ne_nil p (hps ▸ List.mem_cons_self ..))
    subst hnil
    rw [h.eq_of_nil]
    refine ⟨⟨[], []⟩, [], ?_, h.eq_of_nil ▸ h, rfl⟩
    rw [getLineLoop.eq_def, takeLine, List.append_nil]
    rfl
  | cons c text ih =>
    obtain ⟨p, more, rfl⟩ := exists_piece h.ne_nil htext
    obtain ⟨r₁, hr₁, hstep⟩ := getLineLoop_cons s crFound h
    have htext₁ : (dropBytes 1 ((c :: p) :: more)).flatten = text := by
      rw [flatten_dropBytes, htext]
      rfl
    rw [hstep, takeLine]
    split_ifs
    · exact ⟨r₁, _, rfl, hr₁, htext₁⟩
    · obtain ⟨r', ps', hloop, hr', hrest⟩ := ih hr₁ (s ++ [c]) true htext₁
      refine ⟨r', ps', ?_, hr', hrest⟩
      rw [hloop, List.append_assoc]
      rfl
    · exact ⟨r₁, _, rfl, hr₁, htext₁⟩
    · obtain ⟨r', ps', hloop, hr', hrest⟩ := ih hr₁ (s ++ [c]) crFound htext₁
      refine ⟨r', ps', ?_, hr', hrest⟩
      rw [hloop, List.append_assoc]
      rfl

theorem getLine_takeLine (h : r.Holds ps) : ∃ r' ps',
    r.getLine = (.got (takeLine false ps.flatten).line, r') ∧ r'.Holds ps' ∧
      ps'.flatten = (takeLine false ps.flatten).rest := getLineLoop_eq h [] false

end NetReader1

/-! ## Sessions -/

/-- The state of a session: its reader holds what was not delivered. -/
def Holding (stream : CString) (s : ReaderSession) : Prop :=
  ∃ ps, s.reader.Holds ps ∧ s.delivered ++ ps.flatten = stream

variable {stream : CString} {s : ReaderSession}

theorem Holding.getChar (h : Holding stream s) : Holding stream (s.call .getChar) := by
  obtain ⟨ps, hr, htext⟩ := h
  cases hps : ps with
  | nil =>
    subst hps
    have hcall : s.call .getChar = s := by
      obtain ⟨r, delivered⟩ := s
      cases hr.eq_of_nil
      rfl
    rw [hcall]
    exact ⟨[], hr, htext⟩
  | cons p more =>
    subst hps
    obtain ⟨c, p, rfl⟩ := List.exists_cons_of_ne_nil (hr.ne_nil p List.mem_cons_self)
    obtain ⟨r', hget, hr'⟩ := NetReader1.getChar_cons hr
    rw [ReaderSession.call, hget]
    refine ⟨_, hr', ?_⟩
    change s.delivered ++ [c] ++ (dropBytes 1 ((c :: p) :: more)).flatten = stream
    rw [flatten_dropBytes, List.append_assoc, ← htext]
    rfl

theorem Holding.getLine (h : Holding stream s) : Holding stream (s.call .getLine) := by
  obtain ⟨ps, hr, htext⟩ := h
  obtain ⟨r', ps', hget, hr', hrest⟩ := NetReader1.getLine_takeLine hr
  rw [ReaderSession.call, hget]
  refine ⟨ps', hr', ?_⟩
  change s.delivered ++ (takeLine false ps.flatten).line.s ++ ps'.flatten = stream
  rw [hrest, List.append_assoc, takeLine_append, htext]

theorem Holding.readData (h : Holding stream s) (bufferLen : Nat) :
    Holding stream (s.call (.readData bufferLen)) := by
  obtain ⟨ps, hr, htext⟩ := h
  rcases Nat.eq_zero_or_pos bufferLen with rfl | hpos
  · exact ⟨ps, hr, htext⟩
  cases hps : ps with
  | nil =>
    subst hps
    have hread : s.reader.readData bufferLen = (.closed, s.reader) := by
      rw [hr.eq_of_nil, NetReader1.readData, if_neg hpos.ne']
      rfl
    rw [ReaderSession.call, hread]
    exact ⟨[], hr, htext⟩
  | cons p more =>
    subst hps
    obtain ⟨c, p, rfl⟩ := List.exists_cons_of_ne_nil (hr.ne_nil p List.mem_cons_self)
    obtain ⟨r', hread, hr'⟩ := NetReader1.readData_cons hpos hr
    rw [ReaderSession.call, hread]
    refine ⟨_, hr', ?_⟩
    change s.delivered ++ (c :: p).take bufferLen ++ (dropBytes _ ((c :: p) :: more)).flatten = stream
    rw [flatten_dropBytes, ← htext, List.append_assoc, List.flatten_cons, List.drop_append_of_le_length
      (min_le_right _ _), List.take_eq_take_min, ← List.append_assoc _ _ more.flatten,
      List.take_append_drop]

/-- Every call keeps what was delivered a front of the stream. -/
theorem holding_inductive {pieces : List CString} (hpieces : ∀ p ∈ pieces, p ≠ []) :
    (readerSessions pieces).Inductive (fun _ _ ↦ True) (Holding pieces.flatten) where
  init s hs := by
    cases hs
    exact ⟨pieces, .refill hpieces, rfl⟩
  step s c s' h _ hs := by
    cases hs
    cases c with
    | getChar => exact h.getChar
    | getLine => exact h.getLine
    | readData bufferLen => exact h.readData bufferLen

/-- The calls that do not look for a line do what they have to do in every state. -/
theorem Holding.delivers (h : Holding stream s)
    (hline : s.reader.getLine.1 = .got (firstLine s.reader.unread).line) : Delivers stream s := by
  obtain ⟨ps, hr, htext⟩ := h
  have hunread := hr.unread_eq
  cases ps with
  | nil =>
    have hreader := hr.eq_of_nil
    refine ⟨hunread ▸ htext, ?_, hline, fun bufferLen hpos ↦ .inl ⟨?_, hunread⟩⟩
    · rw [hreader]
      rfl
    · exact NetReader1.readData_nil hr
  | cons p more =>
    obtain ⟨c, p, rfl⟩ := List.exists_cons_of_ne_nil (hr.ne_nil p List.mem_cons_self)
    refine ⟨hunread ▸ htext, ?_, hline, fun bufferLen hpos ↦ .inr ⟨(c :: p).take bufferLen, ?_⟩⟩
    · obtain ⟨r', hget, -⟩ := NetReader1.getChar_cons hr
      rw [hget, hunread]
      rfl
    · obtain ⟨r', hread, -⟩ := NetReader1.readData_cons hpos hr
      rw [hread, hunread]
      refine ⟨rfl, ?_, List.length_take_le .., ?_⟩
      · exact List.ne_nil_of_length_pos (by rw [List.length_take]; exact lt_min hpos (by simp))
      · exact (List.take_prefix _ _).trans (List.prefix_append _ _)

theorem Holding.getLine_eq_iff (h : Holding stream s) :
    s.reader.getLine.1 = .got (firstLine s.reader.unread).line ↔ ¬ TwoCrs s.reader.unread := by
  obtain ⟨ps, hr, htext⟩ := h
  obtain ⟨r', ps', hline, -⟩ := NetReader1.getLine_takeLine hr
  rw [hline, hr.unread_eq, ← takeLine_eq_iff]
  constructor
  · intro heq
    injection heq with heq
    exact takeLine_eq_of_line heq
  · intro heq
    rw [heq]

/-- In every state of every run the calls do what they have to do exactly if the next line does not
end in two CRs. -/
theorem delivers_iff {pieces : List CString} (hpieces : ∀ p ∈ pieces, p ≠ [])
    (h : (readerSessions pieces).Reachable s) :
    Delivers pieces.flatten s ↔ ¬ TwoCrs s.reader.unread := by
  have hholding := h.invariant (holding_inductive hpieces)
  rw [← hholding.getLine_eq_iff]
  constructor
  · intro hdelivers
    exact hdelivers.getLine
  · exact hholding.delivers

/-! ## CR and LF in different reads -/

def splitPieces : List CString := ["a\r".toList, "\nb".toList]

theorem splitPieces_ne_nil : ∀ p ∈ splitPieces, p ≠ [] := by decide

theorem delivers_iff_split :
    Delivers splitPieces.flatten ⟨⟨"\r".toList, [some "\nb".toList]⟩, "a".toList⟩ ↔
      ¬ TwoCrs "\r\nb".toList :=
  delivers_iff splitPieces_ne_nil (.of_run rfl [.getChar] (fun _ _ _ ↦ trivial) rfl)

/-- A line that ends in two CRs goes on to the end of the next one. -/
theorem not_delivers : ¬ ∀ pieces : List CString, (∀ p ∈ pieces, p ≠ []) →
    ∀ s, (readerSessions pieces).Reachable s → Delivers pieces.flatten s := by
  intro h
  have hdelivers := h ["\r\r\n".toList] (by decide) _ (.init rfl)
  obtain ⟨r', ps', hget, -⟩ := NetReader1.getLine_takeLine
    (.refill (by decide : ∀ p ∈ ["\r\r\n".toList], p ≠ []))
  have hline := hdelivers.getLine
  rw [hget] at hline
  change Got.got (takeLine false "\r\r\n".toList).line = .got (firstLine "\r\r\n".toList).line at hline
  exact absurd hline (by decide)

end Upnp.MiniServer
