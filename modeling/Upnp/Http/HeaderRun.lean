import Upnp.Http.Message

/-!
# Reading the header of a well-formed response

Every line of the header is read into a buffer of its own, and the content length
found is the one that the fields announce.
-/

namespace Upnp.Http

open Upnp.Lib

/-! ## Lines -/

/-- A line of a header as `getHeaders` expects it. -/
structure PlainLine (text : List Char) : Prop where
  line : '\n' ∉ text
  fits : text.length + 2 < SOCKET_BUFFER_SIZE
  ne : text ≠ []
  plain : isContinuation text = false

theorem Field.plainLine (f : Field) : PlainLine f.text where
  line h := by
    rcases List.mem_append.mp h with h | h
    · exact (f.name_token _ h).2.2.2.2 rfl
    · rcases List.mem_cons.mp h with h | h
      · exact absurd h (by decide)
      · exact f.value_line h
  fits := f.fits
  ne := by simp [text]
  plain := by
    obtain ⟨c, n, hn⟩ := List.exists_cons_of_ne_nil f.name_ne
    have hc := f.name_token c (by simp [hn])
    simp [isContinuation, text, hn, hc.2.1, hc.2.2.1]

theorem Message.plainLine_status (m : Message) : PlainLine m.status where
  line := m.status_line
  fits := m.status_fits
  ne h := by
    have := m.status_http
    rw [h] at this
    exact absurd this (by decide)
  plain := by
    obtain ⟨s, hs⟩ := m.status_http
    rw [← hs]
    rfl

theorem Message.plainLine (m : Message) : ∀ t ∈ m.texts, PlainLine t := by
  intro t ht
  rcases List.mem_cons.mp ht with rfl | ht
  · exact m.plainLine_status
  · obtain ⟨f, -, rfl⟩ := List.mem_map.mp ht
    exact f.plainLine

section Line

variable {net : Net}

theorem crlfEnded_ofRead (text : List Char) : (SocketBuffer.ofRead (text ++ crlf)).crlfEnded := by
  simp [SocketBuffer.crlfEnded, SocketBuffer.ofRead, crlf]

/-- A line that fits is read whole. -/
theorem readLine_text (text rest : List Char) (hline : '\n' ∉ text) (hfits : text.length + 2 < SOCKET_BUFFER_SIZE)
    (hq : net.Quiet) (hr : net.received = text ++ crlf ++ rest) :
    ∃ net', readLine (SOCKET_BUFFER_SIZE - 1) net = (some (text ++ crlf), net') ∧
      net'.received = rest ∧ net'.Quiet := by
  obtain ⟨net', hread, hr', hq'⟩ := readLine_quiet hq (SOCKET_BUFFER_SIZE - 1)
  have hcut : cut (SOCKET_BUFFER_SIZE - 1) net.received = (text ++ crlf, rest) := by
    have hline' : '\n' ∉ text ++ ['\r'] := by simp [hline]
    have hlen : (text ++ ['\r']).length < SOCKET_BUFFER_SIZE - 1 := by
      simp only [List.length_append, List.length_cons, List.length_nil]
      omega
    have hcut : cut (SOCKET_BUFFER_SIZE - 1) (text ++ ['\r'] ++ '\n' :: rest) =
        (text ++ ['\r'] ++ ['\n'], rest) := cut_of_line hline' hlen
    rw [hr]
    simpa [crlf] using hcut
  rw [hcut] at hread hr'
  exact ⟨net', hread, hr', hq'⟩

end Line

/-! ## The loop -/

variable {malloc : Nat → Bool} {before : List SocketBuffer} {prev : Option SocketBuffer}
  {total_size cl : Int} {net net' : Net} {line rest : List Char}

/-- One turn of the loop on a line that is no continuation, behind a properly ended one. -/
theorem headerLoop_line (hmalloc : ∀ i, malloc i = true)
    (hread : readLine (SOCKET_BUFFER_SIZE - 1) net = (some line, net')) (hne : line ≠ [])
    (hplain : isContinuation line = false) (hprev : prev.all (·.crlfEnded)) :
    headerLoop malloc before prev total_size cl net =
      if isLastLine true line then
        .ok ⟨wrap32 (total_size + line.length), lengthAtEnd (lengthAfter cl line),
          before ++ prev.toList ++ [.ofRead line], net'⟩
      else headerLoop malloc (before ++ prev.toList) (some (.ofRead line))
        (wrap32 (total_size + line.length)) (lengthAfter cl line) net' := by
  have hfold : foldPrev prev line = prev := by simp [foldPrev, hplain]
  have htotal : foldTotal prev total_size line = wrap32 (total_size + line.length) := by
    simp [foldTotal, hplain]
  rw [headerLoop_of_line hread hne]
  simp only [hfold, htotal, hprev, hmalloc, Bool.not_true, Bool.false_eq_true, if_false, if_true]

/-- The content length behind lines of a header. -/
def lengthBehind (cl : Int) (texts : List (List Char)) : Int :=
  texts.foldl (fun cl t ↦ lengthAfter cl (t ++ crlf)) cl

theorem wrap32_add (a b : Int) : wrap32 (wrap32 a + b) = wrap32 (a + b) :=
  Int.bmod_add_bmod ..

/-- A line that matches none of the patterns. -/
theorem lengthAfter_of_not_content {line : CString}
    (h₁ : ¬ startsWithCase pat3 line)
    (h₂ : ¬ startsWithCase pat2 line) :
    lengthAfter cl line = cl := by
  have h₃ : ¬ startsWithCase pat line := fun h ↦
    h₁ (startsWithCase_append (p := pat3) (q := "-LENGTH:".toList) h)
  simp [lengthAfter, h₁, h₂, h₃]

theorem lengthAfter_crlf (cl : Int) : lengthAfter cl crlf = cl :=
  lengthAfter_of_not_content (by decide) (by decide)

/-- The loop over the lines of a header. -/
theorem headerLoop_texts (before : List SocketBuffer) (prev : Option SocketBuffer) (cl n : Int)
    (hmalloc : ∀ i, malloc i = true) {texts : List (List Char)} (htexts : ∀ t ∈ texts, PlainLine t) (hq : net.Quiet)
    (hr : net.received = texts.flatMap (· ++ crlf) ++ crlf ++ rest)
    (hprev : prev.all (·.crlfEnded)) :
    ∃ net', net'.Quiet ∧ net'.received = rest ∧
      headerLoop malloc before prev (wrap32 n) cl net =
        .ok ⟨wrap32 (n + (texts.flatMap (· ++ crlf) ++ crlf).length),
          lengthAtEnd (lengthBehind cl texts),
          before ++ prev.toList ++ texts.map (fun t ↦ .ofRead (t ++ crlf)) ++ [.ofRead crlf],
          net'⟩ := by
  induction texts generalizing before prev cl net n with
  | nil =>
    obtain ⟨net', hread, hr', hq'⟩ := readLine_text [] rest (by simp)
      (by decide) hq (by simpa using hr)
    refine ⟨net', hq', hr', ?_⟩
    rw [List.nil_append] at hread
    rw [headerLoop_line hmalloc hread (by decide) (by decide) hprev, if_pos (by decide),
      lengthAfter_crlf]
    simp [wrap32_add, lengthBehind]
  | cons t texts ih =>
    have ht := htexts t (by simp)
    obtain ⟨net₁, hread, hr₁, hq₁⟩ := readLine_text t
      (texts.flatMap (· ++ crlf) ++ crlf ++ rest) ht.line ht.fits hq (by simpa using hr)
    have hplain : isContinuation (t ++ crlf) = false := by
      obtain ⟨c, cs, rfl⟩ := List.exists_cons_of_ne_nil ht.ne
      exact ht.plain
    have hlast : isLastLine true (t ++ crlf) = false := by
      have := List.length_pos_iff.mpr ht.ne
      have hlen : (t ++ crlf).length ≠ 2 := by
        simp only [List.length_append, crlf, List.length_cons, List.length_nil]
        omega
      simp only [isLastLine, decide_eq_false hlen, Bool.and_false, Bool.false_and]
    obtain ⟨net', hq', hr', hloop⟩ := ih (before ++ prev.toList)
      (some (.ofRead (t ++ crlf))) (lengthAfter cl (t ++ crlf)) (n + (t ++ crlf).length)
      (fun t ht ↦ htexts t (by simp [ht])) hq₁ hr₁ (crlfEnded_ofRead t)
    refine ⟨net', hq', hr', ?_⟩
    rw [headerLoop_line hmalloc hread (by simp [crlf]) hplain hprev, hlast,
      if_neg (by decide), wrap32_add, hloop]
    simp [lengthBehind, Int.add_assoc]

/-! ## The content length -/

section Length

variable {f : Field} {cl : Int}

theorem lengthAfter_status (m : Message) : lengthAfter cl (m.status ++ crlf) = cl := by
  obtain ⟨s, hs⟩ := m.status_http
  rw [← hs]
  have : ∀ p : CString, lower p ≠ [] → (lower p).head? ≠ some 'h' →
      ¬ startsWithCase p ("HTTP/".toList ++ s ++ crlf) := by
    intro p hne hp h
    rw [startsWithCase_iff] at h
    obtain ⟨c, cs, hc⟩ := List.exists_cons_of_ne_nil hne
    rw [hc] at h hp
    exact hp (congrArg some (List.cons_prefix_cons.mp h).1)
  exact lengthAfter_of_not_content (this _ (by decide) (by decide)) (this _ (by decide) (by decide))

/-- A field that gives no length. -/
theorem lengthAfter_other (hte : ¬ f.Named transferEncodingName)
    (hcl : ¬ f.Named contentLengthName) :
    lengthAfter cl (f.text ++ crlf) =
      if startsWithCase pat3 (f.text ++ crlf) && cl = -3 then -2 else cl := by
  have h₂ : ¬ startsWithCase pat2 (f.text ++ crlf) := fun h ↦
    hte (f.named_of_startsWithCase h)
  have h₃ : ¬ startsWithCase pat (f.text ++ crlf) := fun h ↦
    hcl (f.startsWithCase_length_iff.mp h)
  simp [lengthAfter, h₂, h₃]

/-- The field that announces chunks. -/
theorem lengthAfter_chunked (hn : f.Named transferEncodingName)
    (hv : strcaseEq f.value chunkedValue) : lengthAfter cl (f.text ++ crlf) = -1 := by
  simp [lengthAfter, f.startsWithCase_of_chunked hn hv]

/-- Chunks, once announced, are not taken back. -/
theorem lengthAfter_neg_one (line : CString) : lengthAfter (-1) line = -1 := by
  simp [lengthAfter]

/-- The field that gives the length. -/
theorem lengthAfter_length {n : Nat} (hte : ¬ f.Named transferEncodingName)
    (hcl : f.Named contentLengthName) (hn : f.HasLength n) (hle : (n : Int) ≤ intMax)
    (hne : cl ≠ -1) : lengthAfter cl (f.text ++ crlf) = n := by
  have h₂ : ¬ startsWithCase pat2 (f.text ++ crlf) := fun h ↦
    hte (f.named_of_startsWithCase h)
  have h₃ : startsWithCase pat (f.text ++ crlf) :=
    f.startsWithCase_length_iff.mpr hcl
  have hlen : f.name.length = contentLengthName.length := by
    rw [Field.Named, strcaseEq_iff] at hcl
    have := congrArg List.length hcl
    simpa [lower] using this
  have hdrop : (f.text ++ crlf).drop pat.length = f.value ++ crlf := by
    have htext : f.text ++ crlf = (f.name ++ [':']) ++ (f.value ++ crlf) := by simp [Field.text]
    rw [htext, List.drop_left' (by rw [List.length_append, hlen]; rfl)]
  obtain ⟨ws, ds, ws', hv, hws, hds, hdsne, hws', rfl⟩ := hn
  have hspace : ∀ c, c = ' ' ∨ c = '\t' → isSpace c = true := by
    rintro c (rfl | rfl) <;> rfl
  have hend : EndsNumeral 10 (ws' ++ crlf) := by
    intro c hc
    cases ws' with
    | nil =>
      obtain rfl : '\r' = c := by simpa [crlf] using hc
      decide
    | cons d ws' =>
      obtain rfl : d = c := by simpa using hc
      rcases hws' d (by simp) with rfl | rfl <;> decide
  have hstrtol : strtol 10 (f.value ++ crlf) = some (clampLong (numeral 10 ds)) := by
    rw [hv, List.append_assoc, List.append_assoc]
    exact strtol_of_digits ws (fun c hc ↦ hspace c (hws c hc)) hds hend hdsne
  have hclamp : wrap32 (clampLong (numeral 10 ds)) = numeral 10 ds := by
    unfold intMax at hle
    have : clampLong (numeral 10 ds) = numeral 10 ds := by
      unfold clampLong
      omega
    rw [this, wrap32_of_range (by omega) (by omega)]
  have hcl' : (if startsWithCase pat3 (f.text ++ crlf) && cl = -3 then -2 else cl) ≠
      -1 := by
    split
    · decide
    · exact hne
  unfold lengthAfter
  simp only [h₂, h₃, hcl', ne_eq, not_false_eq_true, decide_true, Bool.and_self, if_true,
    Bool.false_eq_true, if_false]
  rw [hdrop, hstrtol]
  exact hclamp

theorem lengthBehind_fields (cl : Int) (fs : List Field) :
    lengthBehind cl (fs.map (·.text)) =
      fs.foldl (fun cl f ↦ lengthAfter cl (f.text ++ crlf)) cl := by
  rw [lengthBehind, List.foldl_map]

/-- Fields that give no length leave a known length alone. -/
theorem lengthBehind_known {fs : List Field} (hcl : cl ≠ -3)
    (h : ∀ f ∈ fs, ¬ f.Named transferEncodingName ∧ ¬ f.Named contentLengthName) :
    fs.foldl (fun cl f ↦ lengthAfter cl (f.text ++ crlf)) cl = cl := by
  induction fs with
  | nil => rfl
  | cons f fs ih =>
    rw [List.foldl_cons, lengthAfter_other (h f (by simp)).1 (h f (by simp)).2,
      if_neg (by simp [hcl])]
    exact ih fun g hg ↦ h g (by simp [hg])

/-- Fields that give no length leave it unknown. -/
theorem lengthBehind_unknown {fs : List Field}
    (h : ∀ f ∈ fs, ¬ f.Named transferEncodingName ∧ ¬ f.Named contentLengthName) :
    fs.foldl (fun cl f ↦ lengthAfter cl (f.text ++ crlf)) (-3) =
      if ∃ f ∈ fs, startsWithCase pat3 (f.text ++ crlf) then -2 else -3 := by
  induction fs with
  | nil => simp
  | cons f fs ih =>
    have hfs : ∀ g ∈ fs, ¬ g.Named transferEncodingName ∧
        ¬ g.Named contentLengthName := fun g hg ↦ h g (by simp [hg])
    rw [List.foldl_cons, lengthAfter_other (h f (by simp)).1 (h f (by simp)).2]
    by_cases hc : startsWithCase pat3 (f.text ++ crlf)
    · rw [if_pos (by simpa using hc), lengthBehind_known (by decide) hfs, if_pos ⟨f, by simp, hc⟩]
    · rw [if_neg (by simp [hc]), ih hfs]
      refine if_congr ?_ rfl rfl
      simp [hc]

/-- Chunks are announced by one field, whatever else the fields say. -/
theorem lengthBehind_chunked {fs : List Field} (h : cl = -1 ∨ ∃ f ∈ fs,
      f.Named transferEncodingName ∧ strcaseEq f.value chunkedValue) :
    fs.foldl (fun cl f ↦ lengthAfter cl (f.text ++ crlf)) cl = -1 := by
  induction fs generalizing cl with
  | nil => simpa using h
  | cons f fs ih =>
    rw [List.foldl_cons]
    apply ih
    rcases h with rfl | ⟨g, hg, hn, hv⟩
    · exact .inl (lengthAfter_neg_one _)
    · rcases List.mem_cons.mp hg with rfl | hg
      · exact .inl (lengthAfter_chunked hn hv)
      · exact .inr ⟨g, hg, hn, hv⟩

/-- The code that `getHeaders` gives for the way a body is framed. -/
def Body.code : Body → Int
  | .contentLength data => data.length
  | .chunked .. => -1
  | .untilClose _ => -2

/-- The fields of a response tell the way its body is framed. -/
theorem Message.lengthAtEnd_texts (m : Message) :
    lengthAtEnd (lengthBehind (-3) m.texts) = m.body.code := by
  have htexts : lengthBehind (-3) m.texts =
      m.fields.foldl (fun cl f ↦ lengthAfter cl (f.text ++ crlf)) (-3) := by
    rw [← lengthBehind_fields]
    simp only [Message.texts, lengthBehind, List.foldl_cons, lengthAfter_status]
  rw [htexts]
  have hann := m.announced
  cases hb : m.body with
  | contentLength data =>
    rw [hb] at hann
    obtain ⟨hle, ⟨f, hf, hlen⟩, hte⟩ := hann
    obtain ⟨pre, post, hfs, hpre, hf', hpost⟩ := List.filter_eq_cons_iff.mp hf
    have hmem : f ∈ m.fields := by simp [hfs]
    have hpre' : ∀ g ∈ pre, ¬ g.Named transferEncodingName ∧
        ¬ g.Named contentLengthName := fun g hg ↦
      ⟨hte g (by simp [hfs, hg]), by simpa using hpre g hg⟩
    have hpost' : ∀ g ∈ post, ¬ g.Named transferEncodingName ∧
        ¬ g.Named contentLengthName := fun g hg ↦
      ⟨hte g (by simp [hfs, hg]), by simpa using List.filter_eq_nil_iff.mp hpost g hg⟩
    have hne : (if ∃ g ∈ pre, startsWithCase pat3 (g.text ++ crlf) then (-2 : Int)
        else -3) ≠ -1 := by split <;> decide
    rw [hfs, List.foldl_append, List.foldl_cons, lengthBehind_unknown hpre',
      lengthAfter_length (hte f hmem) (by simpa using hf') hlen hle hne,
      lengthBehind_known (by omega) hpost', lengthAtEnd, if_neg (by omega)]
    rfl
  | chunked chunks last trailers =>
    rw [hb] at hann
    rw [lengthBehind_chunked (.inr hann.2)]
    rfl
  | untilClose data =>
    rw [hb] at hann
    obtain ⟨⟨f, hf, hcontent⟩, hno⟩ := hann
    rw [lengthBehind_unknown fun g hg ↦ ⟨(hno g hg).2, (hno g hg).1⟩,
      if_pos ⟨f, hf, f.startsWithCase_content_of_name hcontent⟩]
    rfl

end Length

end Upnp.Http
