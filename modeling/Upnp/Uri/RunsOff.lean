import Upnp.Uri.Decompose

/-!
# Texts that a scanner runs off

When `parse_uri` is allowed to look at more characters than there are, it looks
behind the end exactly when no character stops it: `groupRunsOff` says this of the
text alone.
-/

namespace Upnp.Uri

open Upnp.Lib

/-! ## The texts -/

/-- All characters are those of a path or a query; an escape at the end may be cut off. -/
def uricRunsOff : CString → Bool
  | [] => true
  | c :: rest =>
    if is_unreserved c || is_reserved c then uricRunsOff rest
    else (is_escaped (c :: rest)).all fun escaped ↦ escaped && uricRunsOff rest

/-- What stands behind the characters of a path or a query. -/
def afterUric : CString → CString
  | [] => []
  | c :: rest =>
    if is_unreserved c || is_reserved c || is_escaped (c :: rest) = some true then afterUric rest
    else c :: rest

/-- The path, or a fragment behind it, goes on to the end. -/
def pathRunsOff (text : CString) : Bool :=
  uricRunsOff text ||
    match afterUric text with
    | '#' :: fragment => uricRunsOff fragment
    | _ => false

/-- The host, the port, or what follows when the host is found, goes on to the end. -/
def hostRunsOff (gethostbyname : CString → Option Nat) (text : CString) : Bool :=
  let found := (gethostbyname (text.takeWhile isHost)).isSome
  match text.dropWhile isHost with
  | [] => true
  | c :: rest =>
    if c = ':' then
      match rest.dropWhile Char.isDigit with
      | [] => true
      | more => more ≠ rest && found && pathRunsOff more
    else found && pathRunsOff (c :: rest)

/-- What stands behind the scheme and its colon, if there is one; `none` when the characters of a
scheme go on to the end. -/
def afterScheme : CString → Option CString
  | [] => none
  | c :: rest =>
    if c.isAlpha then
      match rest.dropWhile isScheme with
      | [] => none
      | d :: more => some (if d = ':' then more else c :: rest)
    else some (c :: rest)

/-- The part behind the scheme goes on to the end. -/
def restRunsOff (gethostbyname : CString → Option Nat) : CString → Bool
  | [] => true
  | c :: rest =>
    if c = '/' then
      match rest with
      | [] => true
      | d :: more => if d = '/' then hostRunsOff gethostbyname more else pathRunsOff (c :: rest)
    else pathRunsOff (c :: rest)

/-- The text of a URI goes on to the end. -/
def groupRunsOff (gethostbyname : CString → Option Nat) (text : CString) : Bool :=
  (afterScheme text).all (restRunsOff gethostbyname)

/-! ## The scanners on them -/

variable {max n pos : Nat} {text : CString}

theorem drop_takeWhile_length (p : Char → Bool) (text : CString) :
    text.drop (text.takeWhile p).length = text.dropWhile p := by
  have h := @List.drop_left _ (text.takeWhile p) (text.dropWhile p)
  rwa [List.takeWhile_append_dropWhile] at h

theorem take_takeWhile_length (p : Char → Bool) (text : CString) :
    text.take (text.takeWhile p).length = text.takeWhile p := by
  have h := @List.take_left _ (text.takeWhile p) (text.dropWhile p)
  rwa [List.takeWhile_append_dropWhile] at h

theorem hostLoop_eq (h : text.length < max) :
    hostLoop max text =
      if text.dropWhile isHost = [] then none else some (text.takeWhile isHost).length := by
  induction text generalizing max with
  | nil =>
    obtain ⟨m, rfl⟩ := Nat.exists_eq_add_of_lt h
    rfl
  | cons c rest ih =>
    obtain ⟨m, rfl⟩ := Nat.exists_eq_succ_of_ne_zero (Nat.ne_zero_of_lt h)
    rw [hostLoop]
    by_cases hc : isHost c
    · rw [if_pos hc, List.dropWhile_cons_of_pos hc, List.takeWhile_cons_of_pos hc,
        ih (Nat.lt_of_succ_lt_succ h)]
      split <;> rfl
    · rw [if_neg hc, List.dropWhile_cons_of_neg hc, List.takeWhile_cons_of_neg hc]
      rfl

theorem portLoop_eq {temp : Nat} (h : text.length < max) :
    (portLoop max temp text).map Prod.fst =
      if text.dropWhile Char.isDigit = [] then none
      else some (text.takeWhile Char.isDigit).length := by
  induction text generalizing max temp with
  | nil =>
    obtain ⟨m, rfl⟩ := Nat.exists_eq_add_of_lt h
    rfl
  | cons c rest ih =>
    obtain ⟨m, rfl⟩ := Nat.exists_eq_succ_of_ne_zero (Nat.ne_zero_of_lt h)
    rw [portLoop]
    by_cases hc : c.isDigit
    · have ih := @ih m ((temp * 10 + (c.toNat - '0'.toNat)) % 65536) (Nat.lt_of_succ_lt_succ h)
      rw [if_pos hc, List.dropWhile_cons_of_pos hc, List.takeWhile_cons_of_pos hc, Option.map_map]
      split
      · rename_i hnil
        rw [if_pos hnil, Option.map_eq_none_iff] at ih
        rw [ih]
        rfl
      · rename_i hnil
        rw [if_neg hnil] at ih
        obtain ⟨r, hr, hlen⟩ := Option.map_eq_some_iff.mp ih
        rw [hr, List.length_cons, ← hlen]
        rfl
    · rw [if_neg hc, List.dropWhile_cons_of_neg hc, List.takeWhile_cons_of_neg hc]
      rfl

theorem schemeLoop_eq (h : text.length < max) :
    schemeLoop max text =
      match text.dropWhile isScheme with
      | [] => none
      | d :: _ => some (if d = ':' then some (text.takeWhile isScheme).length else none) := by
  induction text generalizing max with
  | nil =>
    obtain ⟨m, rfl⟩ := Nat.exists_eq_add_of_lt h
    rfl
  | cons c rest ih =>
    obtain ⟨m, rfl⟩ := Nat.exists_eq_succ_of_ne_zero (Nat.ne_zero_of_lt h)
    rw [schemeLoop]
    by_cases hcolon : c = ':'
    · subst hcolon
      rfl
    · rw [if_neg hcolon]
      by_cases hc : isScheme c
      · rw [if_pos hc, List.dropWhile_cons_of_pos hc, List.takeWhile_cons_of_pos hc,
          ih (Nat.lt_of_succ_lt_succ h)]
        split
        · rfl
        · split <;> rfl
      · rw [if_neg hc, List.dropWhile_cons_of_neg hc]
        dsimp only
        rw [if_neg hcolon]

theorem isUric_eq {c : Char} (hmax : 2 < max) :
    isUric max c text =
      if is_unreserved c || is_reserved c then some true else is_escaped (c :: text) := by
  rw [isUric, if_pos hmax]

theorem parse_uric_eq_none_iff (h : text.length + 2 ≤ max) :
    parse_uric max text = none ↔ uricRunsOff text := by
  induction text generalizing max with
  | nil =>
    obtain ⟨m, rfl⟩ := Nat.exists_eq_add_of_le' h
    exact iff_of_true rfl rfl
  | cons c rest ih =>
    rw [List.length_cons] at h
    obtain ⟨m, rfl⟩ := Nat.exists_eq_succ_of_ne_zero (n := max) (by omega)
    rw [parse_uric, isUric_eq (by omega), uricRunsOff]
    by_cases hc : is_unreserved c || is_reserved c
    · rw [if_pos hc, if_pos hc]
      dsimp only
      rw [Option.map_eq_none_iff]
      exact ih (by omega)
    · rw [if_neg hc, if_neg hc]
      cases is_escaped (c :: rest) with
      | none => exact iff_of_true rfl rfl
      | some escaped =>
        cases escaped with
        | false => exact iff_of_false (Option.some_ne_none 0) Bool.false_ne_true
        | true =>
          dsimp only
          rw [Option.map_eq_none_iff]
          exact ih (by omega)

theorem drop_parse_uric (h : text.length + 2 ≤ max) (hn : parse_uric max text = some n) :
    text.drop n = afterUric text := by
  induction text generalizing max n with
  | nil => exact List.drop_nil
  | cons c rest ih =>
    rw [List.length_cons] at h
    obtain ⟨m, rfl⟩ := Nat.exists_eq_succ_of_ne_zero (n := max) (by omega)
    rw [parse_uric, isUric_eq (by omega)] at hn
    rw [afterUric]
    by_cases hc : is_unreserved c || is_reserved c
    · rw [if_pos hc] at hn
      obtain ⟨k, hk, rfl⟩ := Option.map_eq_some_iff.mp hn
      rw [hc, Bool.true_or, if_pos rfl]
      exact ih (by omega) hk
    · rw [if_neg hc] at hn
      rw [Bool.eq_false_iff.mpr hc, Bool.false_or]
      cases hesc : is_escaped (c :: rest) with
      | none =>
        rw [hesc] at hn
        cases hn
      | some escaped =>
        rw [hesc] at hn
        cases escaped with
        | false =>
          cases hn
          rfl
        | true =>
          obtain ⟨k, hk, rfl⟩ := Option.map_eq_some_iff.mp hn
          exact ih (by omega) hk

/-! ## The parts of a URI on them -/

theorem afterUric_ne_nil (h : ¬ uricRunsOff text) : afterUric text ≠ [] := by
  induction text with
  | nil => exact absurd rfl h
  | cons c rest ih =>
    rw [uricRunsOff] at h
    rw [afterUric]
    split at h
    · rename_i hc
      rw [hc, Bool.true_or, if_pos rfl]
      exact ih h
    · split
      · rename_i hc hesc
        rw [Bool.eq_false_iff.mpr hc, Bool.false_or, decide_eq_true_eq] at hesc
        rw [hesc] at h
        exact ih h
      · exact List.cons_ne_nil _ _

theorem charAt_eq {c d : Char} {more : CString} (hlt : n < max) (h : text.drop n = d :: more) :
    charAt text n max c = some (decide (d = c)) := by
  rw [charAt, if_pos hlt, h]
  rfl

/-- What is left behind a character that is found. -/
theorem drop_succ_of_drop {d : Char} {more : CString} (h : text.drop n = d :: more) :
    text.drop (n + 1) = more ∧ text.length = n + 1 + more.length := by
  constructor
  · rw [← List.drop_drop, h]
    rfl
  · have hlen := congrArg List.length h
    rw [List.length_drop, List.length_cons] at hlen
    omega

theorem pathAndFragment_eq_none_iff (h : text.length + 2 ≤ max) :
    pathAndFragment pos text max = none ↔ pathRunsOff text := by
  rw [pathRunsOff, Bool.or_eq_true]
  by_cases huric : uricRunsOff text
  · rw [pathAndFragment, (parse_uric_eq_none_iff h).mpr huric]
    exact iff_of_true rfl (.inl huric)
  · obtain ⟨n, hn⟩ := Option.ne_none_iff_exists'.mp (mt (parse_uric_eq_none_iff h).mp huric)
    have hdrop := drop_parse_uric h hn
    obtain ⟨d, more, hafter⟩ := List.exists_cons_of_ne_nil (afterUric_ne_nil huric)
    rw [hafter] at hdrop ⊢
    obtain ⟨hmore, hlen⟩ := drop_succ_of_drop hdrop
    rw [pathAndFragment, hn, Option.bind_eq_bind, Option.bind_some,
      charAt_eq (by omega) hdrop, Option.bind_eq_bind, Option.bind_some]
    by_cases hd : d = '#'
    · subst hd
      rw [decide_eq_true rfl, if_pos rfl, hmore, Option.bind_eq_none_iff]
      constructor
      · intro hnone
        refine .inr ((@parse_uric_eq_none_iff (max - (n + 1)) more (by omega)).mp ?_)
        exact Option.eq_none_iff_forall_ne_some.mpr fun m hm ↦
          Option.some_ne_none _ (hnone m hm)
      · rintro (hoff | hoff) m hm
        · exact absurd hoff huric
        · rw [(parse_uric_eq_none_iff (by omega)).mpr hoff] at hm
          cases hm
    · rw [decide_eq_false hd]
      refine iff_of_false (Option.some_ne_none _) (not_or_intro huric ?_)
      split
      · rename_i heq
        exact absurd (List.cons.inj heq).1 hd
      · exact Bool.false_ne_true

/-- Where the host and port lead: off the end, to an error, or to the path. -/
def Leads (runsOff : Bool) (text : CString) (size : HostPort → Nat) :
    Option (Except Int HostPort) → Prop
  | none => runsOff
  | some (.error _) => ¬ runsOff
  | some (.ok host) => runsOff = pathRunsOff (text.drop (size host))

variable {lookup : CString → Option Nat}

/-- Behind the port only the look-up is left. -/
theorem lookup_leads (host : CString) (sin_port : Nat) :
    Leads ((lookup host).isSome && pathRunsOff (text.drop n)) text (·.text.size)
      (match lookup host with
      | some sin_addr => some (.ok ⟨⟨some pos, n⟩, sin_port, sin_addr⟩)
      | none => some (.error UPNP_E_INVALID_URL)) := by
  cases lookup host with
  | none => exact Bool.false_ne_true
  | some sin_addr => exact Bool.true_and _

theorem parse_hostport_leads (h : text.length + 2 ≤ max) :
    Leads (hostRunsOff lookup text) text (·.text.size)
      (parse_hostport ⟨true, lookup⟩ pos text max) := by
  rw [hostRunsOff, parse_hostport, hostLoop_eq (by omega)]
  cases hdrop : text.dropWhile isHost with
  | nil => exact rfl
  | cons c rest =>
    rw [← drop_takeWhile_length] at hdrop
    obtain ⟨hrest, hlen⟩ := drop_succ_of_drop hdrop
    rw [if_neg (List.cons_ne_nil _ _), Option.bind_eq_bind, Option.bind_some, hostportPort,
      charAt_eq (by omega) hdrop, Option.bind_eq_bind, Option.bind_eq_bind, Option.bind_some,
      take_takeWhile_length, hrest]
    by_cases hc : c = ':'
    · rw [decide_eq_true hc, if_pos rfl, parse_port]
      dsimp only
      rw [if_pos hc]
      have hport := @portLoop_eq (max - ((text.takeWhile isHost).length + 1)) rest 0 (by omega)
      by_cases hnil : rest.dropWhile Char.isDigit = []
      · rw [if_pos hnil, Option.map_eq_none_iff] at hport
        rw [hport, hnil]
        exact rfl
      · rw [if_neg hnil] at hport
        obtain ⟨⟨k, port⟩, hr, hk⟩ := Option.map_eq_some_iff.mp hport
        obtain ⟨d, more, hmore⟩ := List.exists_cons_of_ne_nil hnil
        have hdigits : rest.drop k = d :: more := by
          rw [← hmore, ← drop_takeWhile_length, ← hk]
        rw [hr, Option.map_some, Option.bind_some, hmore]
        dsimp only
        by_cases hzero : k = 0
        · subst hzero
          rw [if_pos rfl, ← hdigits, List.drop_zero, decide_eq_false (not_not_intro rfl),
            Bool.false_and, Bool.false_and]
          exact Bool.false_ne_true
        · have hne : d :: more ≠ rest := by
            intro heq
            have := congrArg List.length hdigits
            rw [heq, List.length_drop] at this
            have hlen : rest.length = more.length + 1 := heq ▸ rfl
            omega
          have hpath : text.drop (k + ((text.takeWhile isHost).length + 1)) = d :: more := by
            rw [Nat.add_comm, ← List.drop_drop, hrest, hdigits]
          rw [if_neg hzero, decide_eq_true hne, Bool.true_and, ← hpath]
          exact lookup_leads _ _
    · rw [decide_eq_false hc]
      dsimp only
      rw [if_neg hc, ← hdrop]
      exact lookup_leads _ _

theorem parse_hostport_buff {host : HostPort}
    (h : parse_hostport ⟨true, lookup⟩ pos text max = some (.ok host)) :
    host.extent = 2 + host.text.size := by
  rw [HostPort.extent, (parse_hostport_ok h).1, if_neg (Option.some_ne_none _)]

theorem hostport_leads (h : text.length + 2 ≤ max) :
    Leads (restRunsOff lookup text) text HostPort.extent
      (hostport ⟨true, lookup⟩ pos text max) := by
  rw [hostport, slashes.eq_def, if_pos (by omega)]
  cases text with
  | nil => exact rfl
  | cons c rest =>
    rw [restRunsOff.eq_def]
    dsimp only
    by_cases hc : c = '/'
    · rw [if_pos hc, if_pos hc]
      cases rest with
      | nil => exact rfl
      | cons d more =>
        rw [Option.bind_eq_bind, Option.bind_some]
        by_cases hd : d = '/'
        · rw [if_pos (decide_eq_true hd)]
          dsimp only
          rw [if_pos hd]
          simp only [List.length_cons] at h
          have hleads := @parse_hostport_leads (max - 2) (pos + 2) more lookup (by omega)
          rw [List.drop_succ_cons, List.drop_succ_cons, List.drop_zero]
          cases hr : parse_hostport ⟨true, lookup⟩ (pos + 2) more (max - 2) with
          | none =>
            rw [hr] at hleads
            exact hleads
          | some r =>
            rw [hr] at hleads
            cases r with
            | error code => exact hleads
            | ok host =>
              refine Eq.trans hleads ?_
              rw [parse_hostport_buff hr, Nat.add_comm]
              rfl
        · rw [if_neg (mt of_decide_eq_true hd)]
          dsimp only
          rw [if_neg hd]
          exact rfl
    · rw [if_neg hc, if_neg hc]
      exact rfl

theorem parse_scheme_leads (h : text.length < max) :
    (parse_scheme text max).map (fun size ↦ text.drop (if size = 0 then 0 else size + 1)) =
      afterScheme text := by
  obtain ⟨m, rfl⟩ := Nat.exists_eq_succ_of_ne_zero (Nat.ne_zero_of_lt h)
  cases text with
  | nil => rfl
  | cons c rest =>
    rw [parse_scheme, afterScheme]
    split
    · rw [schemeLoop_eq (Nat.lt_of_succ_lt_succ h)]
      cases hdrop : rest.dropWhile isScheme with
      | nil => rfl
      | cons d more =>
        dsimp only
        by_cases hd : d = ':'
        · rw [← drop_takeWhile_length] at hdrop
          rw [if_pos hd, if_pos hd, ← (drop_succ_of_drop hdrop).1]
          rfl
        · rw [if_neg hd, if_neg hd]
          rfl
    · rfl

/-- Allowed to look two characters too far, `parse_uri` looks behind the end exactly of the texts
that run off. -/
theorem parse_uri_eq_none_iff {memory : CString} (h : (memory.drop pos).length + 2 ≤ max) :
    parse_uri ⟨true, lookup⟩ memory pos max = none ↔ groupRunsOff lookup (memory.drop pos) := by
  rw [groupRunsOff, ← @parse_scheme_leads max _ (by omega), parse_uri]
  cases hsize : parse_scheme (memory.drop pos) max with
  | none => exact iff_of_true rfl rfl
  | some size =>
    obtain ⟨-, -, hle⟩ := take_scheme hsize
    rw [Option.bind_eq_bind, Option.bind_some, Option.map_some, Option.all_some]
    generalize (if size = 0 then 0 else size + 1) = n at hle
    dsimp only
    have hmax : ((memory.drop pos).drop n).length + 2 ≤ max - n := by
      rw [List.length_drop]
      omega
    have hleads := @hostport_leads (max - n) (pos + n) ((memory.drop pos).drop n) lookup hmax
    rw [Option.bind_eq_bind]
    cases hhost : hostport ⟨true, lookup⟩ (pos + n) ((memory.drop pos).drop n) (max - n) with
    | none =>
      rw [hhost] at hleads
      exact iff_of_true rfl hleads
    | some r =>
      rw [hhost] at hleads
      cases r with
      | error code => exact iff_of_false (Option.some_ne_none _) hleads
      | ok host =>
        obtain ⟨-, hextent, -⟩ := hostport_ok hhost
        rw [Leads, @List.drop_drop _ host.extent n (memory.drop pos)] at hleads
        rw [hleads, Option.bind_some, ← @pathAndFragment_eq_none_iff (max - (n + host.extent))
          (pos + (n + host.extent))]
        · dsimp only
          rw [Option.bind_eq_bind, Option.bind_eq_none_iff]
          constructor
          · intro hnone
            refine Option.eq_none_iff_forall_ne_some.mpr fun r hr ↦ ?_
            exact Option.some_ne_none _ (hnone r hr)
          · rintro hnone r hr
            rw [hnone] at hr
            cases hr
        · rw [List.length_drop] at hextent ⊢
          omega

/-! ## Failing allocations -/

theorem parse_hostport_malloc (mallocOk : Bool) :
    parse_hostport ⟨mallocOk, lookup⟩ pos text max = some (.error UPNP_E_OUTOF_MEMORY) ∨
      parse_hostport ⟨mallocOk, lookup⟩ pos text max =
        parse_hostport ⟨true, lookup⟩ pos text max := by
  cases mallocOk with
  | true => exact .inr rfl
  | false =>
    rw [parse_hostport, parse_hostport]
    cases hostLoop max text with
    | none => exact .inr rfl
    | some host_size =>
      rw [Option.bind_eq_bind, Option.bind_some, Option.bind_eq_bind, Option.bind_some]
      cases hostportPort text max host_size with
      | none => exact .inr rfl
      | some port =>
        rcases port with _ | ⟨hostport_size, sin_port⟩
        · exact .inr rfl
        · exact .inl rfl

/-- A failing allocation changes nothing, or is what `parse_uri` says. -/
theorem parse_uri_malloc (mallocOk : Bool) (memory : CString) :
    parse_uri ⟨mallocOk, lookup⟩ memory pos max = some (.error UPNP_E_OUTOF_MEMORY) ∨
      parse_uri ⟨mallocOk, lookup⟩ memory pos max = parse_uri ⟨true, lookup⟩ memory pos max := by
  rw [parse_uri, parse_uri]
  cases parse_scheme (memory.drop pos) max with
  | none => exact .inr rfl
  | some size =>
    rw [Option.bind_eq_bind, Option.bind_some, Option.bind_eq_bind, Option.bind_some]
    dsimp only
    rw [hostport, hostport]
    cases slashes ((memory.drop pos).drop (if size = 0 then 0 else size + 1))
        (max - (if size = 0 then 0 else size + 1)) with
    | none => exact .inr rfl
    | some found =>
      cases found with
      | false => exact .inr rfl
      | true =>
        simp only [Option.bind_eq_bind, Option.bind_some, if_true]
        rcases parse_hostport_malloc mallocOk with h | h
        · rw [h]
          exact .inl rfl
        · rw [h]
          exact .inr rfl

/-- Where memory does not run out, `parse_uri` does not say so. -/
theorem parse_uri_ne_oom (memory : CString) :
    parse_uri ⟨true, lookup⟩ memory pos max ≠ some (.error UPNP_E_OUTOF_MEMORY) := by
  intro h
  obtain ⟨size, -, h⟩ := Option.bind_eq_some_iff.mp h
  obtain ⟨host, hhost, h⟩ := Option.bind_eq_some_iff.mp h
  cases host with
  | ok host =>
    obtain ⟨r, -, h⟩ := Option.bind_eq_some_iff.mp h
    cases h
  | error code =>
    cases h
    obtain ⟨found, -, hhost⟩ := Option.bind_eq_some_iff.mp hhost
    cases found with
    | false => cases hhost
    | true =>
      obtain ⟨host_size, -, hhost⟩ := Option.bind_eq_some_iff.mp hhost
      obtain ⟨port, -, hhost⟩ := Option.bind_eq_some_iff.mp hhost
      rcases port with _ | ⟨hostport_size, sin_port⟩
      · exact absurd (Option.some.inj hhost) (by decide)
      · dsimp only at hhost
        rw [if_pos rfl] at hhost
        split at hhost
        · cases hhost
        · exact absurd (Option.some.inj hhost) (by decide)

end Upnp.Uri
