import Upnp.Uri.Parse

/-!
# The parts of a URI

When `parse_uri` succeeds, its tokens follow each other in the text, with only their
delimiters between them.
-/

namespace Upnp.Uri

open Upnp.Lib

/-! ## Tokens in the text -/

/-- The text of a token. -/
def Token.text (memory : CString) (t : Token) : CString :=
  match t.buff with
  | none => []
  | some buff => (memory.drop buff).take t.size

/-- The characters of the scheme, with the colon. -/
def URI.schemeExtent (u : URI) : Nat := if u.type = .ABSOLUTE then u.scheme.size + 1 else 0

/-- The characters in front of the path. -/
def URI.begin_path (u : URI) : Nat := u.schemeExtent + u.hostport.extent

/-- The characters of the fragment, with its delimiter. -/
def URI.fragmentExtent (u : URI) : Nat :=
  if u.fragment.buff = none then 0 else u.fragment.size + 1

/-- The characters of the URI. -/
def URI.extent (u : URI) : Nat := u.begin_path + u.pathquery.size + u.fragmentExtent

/-- The parts of a URI, joined with their delimiters. -/
def URI.join (u : URI) (memory : CString) : CString :=
  (if u.type = .ABSOLUTE then u.scheme.text memory ++ [':'] else []) ++
    (if u.hostport.text.buff = none then [] else ['/', '/'] ++ u.hostport.text.text memory) ++
      u.pathquery.text memory ++
        (if u.fragment.buff = none then [] else '#' :: u.fragment.text memory)

/-- The tokens of a URI that begins at `pos`: each begins where the one before it ends, behind the
delimiter, they lie within the first `max` characters and in the memory, and joined they are the
text. -/
structure URI.Slices (u : URI) (memory : CString) (pos max : Nat) : Prop where
  scheme : u.type = .RELATIVE ∧ u.scheme = ⟨none, 0⟩ ∨
    u.type = .ABSOLUTE ∧ u.scheme.buff = some pos ∧ 0 < u.scheme.size
  hostport : u.hostport.text = ⟨none, 0⟩ ∨ u.hostport.text.buff = some (pos + u.schemeExtent + 2)
  pathquery : u.pathquery.buff = some (pos + u.begin_path)
  fragment : u.fragment = ⟨none, 0⟩ ∨
    u.fragment.buff = some (pos + u.begin_path + u.pathquery.size + 1)
  le_max : u.extent ≤ max
  le_length : pos + u.extent ≤ memory.length
  join : u.join memory = (memory.drop pos).take u.extent

/-- A text that is a scheme. -/
def IsScheme (s : CString) : Prop := ∃ c rest, s = c :: rest ∧ c.isAlpha ∧ ∀ d ∈ rest, isScheme d

/-- A text begins with a scheme and a colon. -/
def HasScheme (text : CString) : Prop := ∃ s, IsScheme s ∧ (s ++ [':']) <+: text

/-! ## The scheme -/

variable {max n pos : Nat} {input memory : CString} {env : Env} {u : URI}

theorem parse_scheme_pos (h : parse_scheme input max = some n) (hn : n ≠ 0) :
    n < max ∧ input[n]? = some ':' ∧ IsScheme (input.take n) := by
  cases max with
  | zero =>
    rw [parse_scheme.eq_def] at h
    cases input <;> exact absurd (Option.some.inj h).symm hn
  | succ max =>
    cases input with
    | nil => cases h
    | cons c rest =>
      rw [parse_scheme] at h
      split at h
      · rename_i hc
        obtain ⟨colon, hcolon, rfl⟩ := Option.map_eq_some_iff.mp h
        cases colon with
        | none => exact absurd rfl hn
        | some m =>
          obtain ⟨hlt, hget, hall⟩ := schemeLoop_le hcolon m rfl
          exact ⟨Nat.succ_lt_succ hlt, hget, c, rest.take m, rfl, hc, hall⟩
      · exact absurd (Option.some.inj h).symm hn

theorem schemeLoop_of_isScheme {s : CString} (hs : ∀ c ∈ s, isScheme c) (hlt : s.length < max)
    (rest : CString) : schemeLoop max (s ++ ':' :: rest) = some (some s.length) := by
  induction s generalizing max with
  | nil =>
    obtain ⟨m, rfl⟩ := Nat.exists_eq_add_of_lt hlt
    rw [List.nil_append, schemeLoop, if_pos rfl]
    rfl
  | cons c s ih =>
    cases max with
    | zero => cases hlt
    | succ max =>
      obtain ⟨hc, hrest⟩ := List.forall_mem_cons.mp hs
      have hne : c ≠ ':' := by
        rintro rfl
        revert hc
        decide
      rw [List.cons_append, schemeLoop, if_neg hne, if_pos hc,
        ih hrest (Nat.lt_of_succ_lt_succ hlt)]
      rfl

/-- The scheme is found exactly when there is one in front of a colon. -/
theorem parse_scheme_ne_zero_iff (h : parse_scheme input max = some n) :
    n ≠ 0 ↔ HasScheme (input.take max) := by
  constructor
  · intro hn
    obtain ⟨hlt, hget, hscheme⟩ := parse_scheme_pos h hn
    refine ⟨input.take n, hscheme, ?_⟩
    have htake : input.take (n + 1) = input.take n ++ [':'] := by
      rw [List.take_add_one, hget]
      rfl
    rw [← htake]
    exact List.take_prefix_take_left hlt
  · rintro ⟨s, ⟨c, rest, rfl, hc, hall⟩, more, hmore⟩ rfl
    have hlen : rest.length + 2 ≤ max := by
      have := congrArg List.length hmore
      simp only [List.length_append, List.length_cons, List.length_nil, List.length_take] at this
      omega
    obtain ⟨m, rfl⟩ : ∃ m, max = m + 1 := ⟨max - 1, by omega⟩
    have hinput : ∃ tail, input = c :: (rest ++ ':' :: tail) := by
      refine ⟨more ++ input.drop (m + 1), ?_⟩
      calc input = input.take (m + 1) ++ input.drop (m + 1) := (List.take_append_drop _ _).symm
        _ = _ := by
          rw [← hmore]
          simp
    obtain ⟨tail, rfl⟩ := hinput
    rw [parse_scheme, if_pos hc, schemeLoop_of_isScheme hall (by omega)] at h
    cases h

/-! ## The whole -/

/-- What `parse_uri` found, part by part. -/
theorem parse_uri_ok (h : parse_uri env memory pos max = some (.ok u)) :
    ∃ size, parse_scheme (memory.drop pos) max = some size ∧
      u.type = (if size = 0 then .RELATIVE else .ABSOLUTE) ∧
      u.scheme = (if size = 0 then ⟨none, 0⟩ else ⟨some pos, size⟩) ∧
      hostport env (pos + u.schemeExtent) ((memory.drop pos).drop u.schemeExtent)
        (max - u.schemeExtent) = some (.ok u.hostport) ∧
      pathAndFragment (pos + u.begin_path) ((memory.drop pos).drop u.begin_path)
        (max - u.begin_path) = some (u.pathquery, u.fragment) ∧
      u.path_type =
        (if 0 < u.pathquery.size ∧ ((memory.drop pos).drop u.begin_path).head? = some '/' then
          .ABS_PATH
        else if size = 0 then .REL_PATH else .OPAQUE_PART) := by
  obtain ⟨size, hsize, h⟩ := Option.bind_eq_some_iff.mp h
  obtain ⟨host, hhost, h⟩ := Option.bind_eq_some_iff.mp h
  cases host with
  | error code => cases h
  | ok host =>
    dsimp only at h
    obtain ⟨⟨pathquery, fragment⟩, hpath, h⟩ := Option.bind_eq_some_iff.mp h
    cases h
    by_cases hzero : size = 0
    · simp only [hzero, if_true] at hsize hhost hpath ⊢
      refine ⟨0, hsize, rfl, rfl, ?_, ?_, rfl⟩
      · exact hhost
      · exact hpath
    · simp only [hzero, if_false] at hhost hpath ⊢
      refine ⟨size, hsize, (if_neg hzero).symm, (if_neg hzero).symm, hhost, hpath, ?_⟩
      rw [if_neg hzero]
      rfl

theorem URI.schemeExtent_eq {size : Nat}
    (htype : u.type = if size = 0 then .RELATIVE else .ABSOLUTE)
    (hscheme : u.scheme = if size = 0 then ⟨none, 0⟩ else ⟨some pos, size⟩) :
    u.schemeExtent = if size = 0 then 0 else size + 1 := by
  rw [URI.schemeExtent, htype, hscheme]
  by_cases hzero : size = 0
  · simp [hzero]
  · simp [hzero]

/-- The scheme and its colon are the front of the text. -/
theorem take_scheme {size : Nat} (hsize : parse_scheme input max = some size) :
    (if size = 0 then [] else input.take size ++ [':']) =
      input.take (if size = 0 then 0 else size + 1) ∧
      (if size = 0 then 0 else size + 1) ≤ max ∧
      (if size = 0 then 0 else size + 1) ≤ input.length := by
  by_cases hzero : size = 0
  · simp only [hzero, if_true]
    exact ⟨rfl, Nat.zero_le _, Nat.zero_le _⟩
  · simp only [hzero, if_false]
    obtain ⟨hlt, hget, -⟩ := parse_scheme_pos hsize hzero
    refine ⟨?_, hlt, (List.getElem?_eq_some_iff.mp hget).1⟩
    rw [List.take_add_one, hget]
    rfl

/-- The slashes and the host and port are the next characters. -/
theorem take_hostport {host : HostPort} (h : hostport env (pos + n) (input.drop n) max = some (.ok host))
    (hinput : input = memory.drop pos) :
    (if host.text.buff = none then [] else ['/', '/'] ++ host.text.text memory) =
      (input.drop n).take host.extent := by
  obtain ⟨-, -, htext | ⟨hbuff, rest, hrest⟩⟩ := hostport_ok h
  · rw [HostPort.extent, htext]
    rfl
  · rw [HostPort.extent, hbuff, if_neg (Option.some_ne_none _), if_neg (Option.some_ne_none _),
      Token.text, hbuff]
    dsimp only
    rw [Nat.add_assoc, ← List.drop_drop, ← hinput, ← List.drop_drop, ← hrest, Nat.add_comm 2]
    rfl

/-- The path with the query, and the fragment with its delimiter, are what follows. -/
theorem take_path {pathquery fragment : Token}
    (h : pathAndFragment (pos + n) (input.drop n) max = some (pathquery, fragment))
    (hinput : input = memory.drop pos) :
    pathquery.text memory = (input.drop n).take pathquery.size ∧
      (if fragment.buff = none then [] else '#' :: fragment.text memory) =
        ((input.drop n).drop pathquery.size).take
          (if fragment.buff = none then 0 else fragment.size + 1) := by
  obtain ⟨hbuff, -, -, hfrag⟩ := pathAndFragment_eq h
  constructor
  · rw [Token.text, hbuff, hinput, List.drop_drop]
  · rcases hfrag with rfl | ⟨hfbuff, hget, -⟩
    · rfl
    · rw [hfbuff, if_neg (Option.some_ne_none _), if_neg (Option.some_ne_none _), Token.text, hfbuff]
      dsimp only
      have hdrop : (input.drop n).drop pathquery.size =
          '#' :: (input.drop n).drop (pathquery.size + 1) := by
        rw [List.drop_eq_getElem_cons (List.getElem?_eq_some_iff.mp hget).1,
          (List.getElem?_eq_some_iff.mp hget).2]
      rw [hdrop, List.take_succ_cons, hinput, List.drop_drop, List.drop_drop]
      simp only [Nat.add_assoc]

/-- Consecutive parts are the front of a text. -/
theorem take_parts (text : CString) (a b c d : Nat) :
    text.take a ++ (text.drop a).take b ++ (text.drop (a + b)).take c ++
      ((text.drop (a + b)).drop c).take d = text.take (a + b + c + d) := by
  rw [List.drop_drop, List.take_add, List.take_add, List.take_add]

/-- The tokens of a URI that is parsed are consecutive slices. -/
theorem parse_uri_slices (hpos : pos ≤ memory.length)
    (h : parse_uri env memory pos max = some (.ok u)) : u.Slices memory pos max := by
  obtain ⟨size, hsize, htype, hscheme, hhost, hpath, -⟩ := parse_uri_ok h
  have hextent := URI.schemeExtent_eq htype hscheme
  obtain ⟨hfront, hfrontMax, hfrontLen⟩ := take_scheme hsize
  rw [← hextent] at hfront hfrontMax hfrontLen
  obtain ⟨hhostMax, hhostLen, hhostText⟩ := hostport_ok hhost
  obtain ⟨hpathBuff, hpathMax, hpathLen, hfragment⟩ := pathAndFragment_eq hpath
  obtain ⟨hpathText, hfragText⟩ := take_path hpath rfl
  rw [List.length_drop] at hhostLen hpathLen
  have hbegin : u.begin_path = u.schemeExtent + u.hostport.extent := rfl
  have hlen : u.extent ≤ max ∧ u.extent ≤ (memory.drop pos).length := by
    rw [URI.extent, URI.fragmentExtent]
    rcases hfragment with hfrag | ⟨hfbuff, -, hmax, hle⟩
    · rw [hfrag, if_pos rfl]
      omega
    · rw [hfbuff, if_neg (Option.some_ne_none _)]
      rw [List.length_drop] at hle
      omega
  refine ⟨?_, ?_, hpathBuff, ?_, hlen.1, ?_, ?_⟩
  · by_cases hzero : size = 0
    · rw [htype, hscheme, if_pos hzero, if_pos hzero]
      exact .inl ⟨rfl, rfl⟩
    · rw [htype, hscheme, if_neg hzero, if_neg hzero]
      exact .inr ⟨rfl, rfl, Nat.pos_of_ne_zero hzero⟩
  · exact hhostText.imp_right And.left
  · exact hfragment.imp_right And.left
  · have := hlen.2
    rw [List.length_drop] at this
    omega
  · have hschemeText : (if u.type = .ABSOLUTE then u.scheme.text memory ++ [':'] else []) =
        (memory.drop pos).take u.schemeExtent := by
      rw [← hfront, htype, hscheme]
      by_cases hzero : size = 0
      · simp [hzero]
      · simp [hzero, Token.text]
    rw [URI.join, hschemeText, take_hostport hhost rfl, hpathText, hfragText]
    exact take_parts _ _ _ _ _

/-- The path type says absolute exactly when the path begins with a slash. -/
theorem path_type_iff (h : parse_uri env memory pos max = some (.ok u)) :
    u.path_type = .ABS_PATH ↔ (u.pathquery.text memory).head? = some '/' := by
  obtain ⟨size, -, -, -, -, hpath, htype⟩ := parse_uri_ok h
  have htext := (take_path hpath rfl).1
  rw [htype, htext]
  cases hsize : u.pathquery.size with
  | zero =>
    rw [if_neg fun hpos ↦ Nat.lt_irrefl 0 hpos.1, List.take_zero]
    split <;> simp
  | succ n =>
    have hhead : (((memory.drop pos).drop u.begin_path).take (n + 1)).head? =
        ((memory.drop pos).drop u.begin_path).head? := by
      cases (memory.drop pos).drop u.begin_path <;> rfl
    rw [hhead]
    by_cases hslash : ((memory.drop pos).drop u.begin_path).head? = some '/'
    · rw [if_pos ⟨Nat.succ_pos n, hslash⟩]
      exact iff_of_true rfl hslash
    · rw [if_neg fun h ↦ hslash h.2]
      refine iff_of_false ?_ hslash
      split <;> simp

theorem type_iff (h : parse_uri env memory pos max = some (.ok u)) :
    u.type = .ABSOLUTE ↔ HasScheme ((memory.drop pos).take max) := by
  obtain ⟨size, hsize, htype, -⟩ := parse_uri_ok h
  rw [← parse_scheme_ne_zero_iff hsize, htype]
  split <;> simp_all

/-- `parse_uri` looks at the memory up to what it looks at only. -/
theorem parse_uri_append (more : CString) {r : Except Int URI} (hpos : pos ≤ memory.length)
    (h : parse_uri env memory pos max = some r) :
    parse_uri env (memory ++ more) pos max = some r := by
  obtain ⟨size, hsize, h⟩ := Option.bind_eq_some_iff.mp h
  obtain ⟨host, hhost, h⟩ := Option.bind_eq_some_iff.mp h
  have hle : (if size = 0 then 0 else size + 1) ≤ (memory.drop pos).length := (take_scheme hsize).2.2
  rw [parse_uri, drop_append_of_le hpos]
  refine Option.bind_eq_some_iff.mpr ⟨size, parse_scheme_append hsize,
    Option.bind_eq_some_iff.mpr ⟨host, ?_, ?_⟩⟩
  · rw [drop_append_of_le hle]
    exact hostport_append hhost
  · cases host with
    | error code => exact h
    | ok host =>
      dsimp only at h ⊢
      obtain ⟨⟨pathquery, fragment⟩, hr, h⟩ := Option.bind_eq_some_iff.mp h
      have hextent := (hostport_ok hhost).2.1
      rw [List.length_drop] at hextent
      have hlen := (pathAndFragment_eq hr).2.2.1
      rw [drop_append_of_le (by omega)]
      refine Option.bind_eq_some_iff.mpr ⟨(pathquery, fragment), pathAndFragment_append hr, ?_⟩
      rw [← h]
      dsimp only
      -- a path that is not empty begins in the memory
      generalize (memory.drop pos).drop _ = path at hlen ⊢
      cases path with
      | nil =>
        rw [Nat.le_zero.mp hlen]
        simp only [Nat.lt_irrefl, false_and, if_false]
      | cons c path => rfl

/-- Parsing the first `max` characters of a buffer looks at no others, and when it succeeds the
tokens are consecutive slices of them; the type says whether there is a scheme, and the path type
whether the path begins with a slash. -/
def Decomposes (env : Env) (buf : CString) (max : Nat) : Prop :=
  ∃ r, parse_uri env (buf.take max) 0 max = some r ∧ parse_uri env buf 0 max = some r ∧
    ∀ u, r = .ok u → u.Slices buf 0 max ∧ (u.type = .ABSOLUTE ↔ HasScheme (buf.take max)) ∧
      (u.path_type = .ABS_PATH ↔ (u.pathquery.text buf).head? = some '/')

theorem parse_uri_decomposes (env : Env) {buf : CString} {max : Nat} (hmax : max ≤ buf.length) :
    Decomposes env buf max := by
  have hlen : max ≤ ((buf.take max).drop 0).length := by
    rw [List.drop_zero, List.length_take_of_le hmax]
  obtain ⟨r, hr⟩ := Option.isSome_iff_exists.mp (@parse_uri_isSome max env 0 _ hlen)
  have hbuf : parse_uri env buf 0 max = some r := by
    have happ := parse_uri_append (buf.drop max) (Nat.zero_le _) hr
    rwa [List.take_append_drop] at happ
  refine ⟨r, hr, hbuf, ?_⟩
  rintro u rfl
  exact ⟨parse_uri_slices (Nat.zero_le _) hbuf, type_iff hbuf, path_type_iff hbuf⟩

theorem parse_uri_decomposes_url :
    Decomposes ⟨true, fun _ ↦ some 0⟩ "http://a:80/b?c#d".toList 17 :=
  parse_uri_decomposes _ (by decide)

end Upnp.Uri
