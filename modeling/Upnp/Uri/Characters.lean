import Upnp.Uri.Decompose

/-!
# The characters of a URI

Whatever `parse_uri` takes, it takes no white space: a URI ends where a blank, a tab or the end of
the line stands.
-/

namespace Upnp.Uri

open Upnp.Lib

/-- A blank, a tab, or a character of the end of a line. -/
def isGap (c : Char) : Bool := c = ' ' || c = '\t' || c = '\r' || c = '\n'

/-- A test that no gap passes. -/
theorem isGap_eq_false {test : Char → Bool} (hblank : test ' ' = false) (htab : test '\t' = false)
    (hcr : test '\r' = false) (hlf : test '\n' = false) {c : Char} (h : test c = true) :
    isGap c = false := by
  by_contra hgap
  simp only [isGap, Bool.not_eq_false, Bool.or_eq_true, decide_eq_true_eq] at hgap
  rcases hgap with ((rfl | rfl) | rfl) | rfl
  · rw [hblank] at h
    cases h
  · rw [htab] at h
    cases h
  · rw [hcr] at h
    cases h
  · rw [hlf] at h
    cases h

variable {max n pos : Nat} {input memory : CString} {env : Env} {u : URI}

theorem isUric_gap {c : Char} {rest : CString} (h : isUric max c rest = some true) :
    isGap c = false := by
  rw [isUric] at h
  split at h
  · rename_i hc
    exact @isGap_eq_false (fun c ↦ is_unreserved c || is_reserved c) (by decide) (by decide)
      (by decide) (by decide) c hc
  · split at h
    · rw [is_escaped.eq_def] at h
      dsimp only at h
      split at h
      · rename_i hc
        rw [hc]
        decide
      · cases h
    · cases h

theorem parse_uric_gap (h : parse_uric max input = some n) : ∀ c ∈ input.take n, isGap c = false := by
  rw [parse_uric_eq_run] at h
  refine Scanner.run_takes _ id (fun _ ↦ rfl) (fun _ ↦ rfl) (fun max _ c rest r hstop ↦ ?_)
    (fun max _ c rest s' hnext ↦ ?_) h
  · obtain ⟨uric, -, heq⟩ := Option.map_eq_some_iff.mp hstop
    split at heq
    · cases heq
    · cases heq
      rfl
  · obtain ⟨uric, huric, heq⟩ := Option.map_eq_some_iff.mp hnext
    split at heq
    · rename_i htrue
      rw [htrue] at huric
      exact isUric_gap huric
    · cases heq

theorem hostLoop_gap (h : hostLoop max input = some n) : ∀ c ∈ input.take n, isGap c = false := by
  rw [hostLoop_eq_run] at h
  refine Scanner.run_takes _ id (fun _ ↦ rfl) (fun _ ↦ rfl) (fun _ _ c _ r hstop ↦ ?_)
    (fun _ _ c _ s' hnext ↦ ?_) h
  · have heq := Option.some_inj.mp hstop
    split at heq
    · cases heq
    · cases heq
      rfl
  · have heq := Option.some_inj.mp hnext
    split at heq
    · rename_i hc
      exact @isGap_eq_false isHost (by decide) (by decide) (by decide) (by decide) c hc
    · cases heq

theorem portLoop_gap {temp : Nat} {r : Nat × Nat} (h : portLoop max temp input = some r) :
    ∀ c ∈ input.take r.1, isGap c = false := by
  rw [portLoop_eq_run] at h
  refine Scanner.run_takes _ Prod.fst (fun _ ↦ rfl) (fun _ ↦ rfl) (fun _ _ c _ r hstop ↦ ?_)
    (fun _ _ c _ s' hnext ↦ ?_) h
  · have heq := Option.some_inj.mp hstop
    split at heq
    · cases heq
    · cases heq
      rfl
  · have heq := Option.some_inj.mp hnext
    split at heq
    · rename_i hc
      exact @isGap_eq_false Char.isDigit (by decide) (by decide) (by decide) (by decide) c hc
    · cases heq

/-- A front of a text, and what follows it. -/
theorem forall_mem_take_add {p : Char → Prop} {text : CString} {a b : Nat}
    (ha : ∀ c ∈ text.take a, p c) (hb : ∀ c ∈ (text.drop a).take b, p c) :
    ∀ c ∈ text.take (a + b), p c := by
  rw [List.take_add]
  intro c hc
  rcases List.mem_append.mp hc with hc | hc
  · exact ha c hc
  · exact hb c hc

theorem forall_mem_take_one {p : Char → Prop} {text : CString} {d : Char}
    (hget : text[0]? = some d) (hd : p d) : ∀ c ∈ text.take 1, p c := by
  cases text with
  | nil => cases hget
  | cons e text =>
    cases hget
    intro c hc
    cases List.mem_singleton.mp hc
    exact hd

theorem parse_scheme_gap (h : parse_scheme input max = some n) :
    ∀ c ∈ input.take (if n = 0 then 0 else n + 1), isGap c = false := by
  split
  · intro c hc
    cases hc
  · rename_i hn
    obtain ⟨-, hget, d, rest, htake, hd, hrest⟩ := parse_scheme_pos h hn
    refine forall_mem_take_add ?_ (forall_mem_take_one (by rwa [List.getElem?_drop]) (by decide))
    rw [htake]
    refine List.forall_mem_cons.mpr ⟨?_, ?_⟩
    · exact @isGap_eq_false Char.isAlpha (by decide) (by decide) (by decide) (by decide) d hd
    · intro c hc
      exact @isGap_eq_false isScheme (by decide) (by decide) (by decide) (by decide) c (hrest c hc)

theorem hostportPort_gap {host_size sin_port : Nat}
    (hhost : ∀ c ∈ input.take host_size, isGap c = false)
    (h : hostportPort input max host_size = some (some (n, sin_port))) :
    ∀ c ∈ input.take n, isGap c = false := by
  obtain ⟨colon, hcolon, h⟩ := Option.bind_eq_some_iff.mp h
  cases colon with
  | false =>
    cases h
    exact hhost
  | true =>
    obtain ⟨-, hget⟩ := charAt_true hcolon
    rw [if_pos rfl] at h
    obtain ⟨r, hr, h⟩ := Option.map_eq_some_iff.mp h
    split at h
    · cases h
    · cases h
      rw [Nat.add_comm]
      refine forall_mem_take_add (forall_mem_take_add hhost ?_) (portLoop_gap hr)
      exact forall_mem_take_one (by rwa [List.getElem?_drop]) (by decide)

theorem hostport_gap {host : HostPort} (h : hostport env pos input max = some (.ok host)) :
    ∀ c ∈ input.take host.extent, isGap c = false := by
  obtain ⟨found, hfound, h⟩ := Option.bind_eq_some_iff.mp h
  cases found with
  | false =>
    cases h
    intro c hc
    cases hc
  | true =>
    obtain ⟨-, rest, rfl⟩ := slashes_true hfound
    rw [if_pos rfl] at h
    have hbuff := (parse_hostport_ok h).1
    rw [HostPort.extent, hbuff, if_neg (Option.some_ne_none _)]
    refine forall_mem_take_add ?_ ?_
    · intro c hc
      rcases List.mem_cons.mp hc with rfl | hc
      · decide
      · cases List.mem_singleton.mp hc
        decide
    · obtain ⟨host_size, hhost, h⟩ := Option.bind_eq_some_iff.mp h
      obtain ⟨port, hport, h⟩ := Option.bind_eq_some_iff.mp h
      cases port with
      | none => cases h
      | some port =>
        dsimp only at h
        split at h
        · split at h
          · cases h
            exact hostportPort_gap (hostLoop_gap hhost) hport
          · cases h
        · cases h

theorem pathAndFragment_gap {pathquery fragment : Token}
    (h : pathAndFragment pos input max = some (pathquery, fragment)) :
    ∀ c ∈ input.take (pathquery.size + if fragment.buff = none then 0 else fragment.size + 1),
      isGap c = false := by
  obtain ⟨n, hn, h⟩ := Option.bind_eq_some_iff.mp h
  obtain ⟨hash, hhash, h⟩ := Option.bind_eq_some_iff.mp h
  cases hash with
  | false =>
    cases h
    exact parse_uric_gap hn
  | true =>
    rw [if_pos rfl] at h
    obtain ⟨m, hm, h⟩ := Option.bind_eq_some_iff.mp h
    cases h
    rw [if_neg (Option.some_ne_none _)]
    dsimp only
    refine forall_mem_take_add (parse_uric_gap hn) ?_
    rw [Nat.add_comm]
    have hget : (input.drop n)[0]? = some '#' := by
      rw [List.getElem?_drop]
      exact (charAt_true hhash).2
    refine forall_mem_take_add (forall_mem_take_one hget (by decide)) ?_
    · rw [List.drop_drop]
      exact parse_uric_gap hm

/-- There is no gap in a URI that is accepted. -/
theorem parse_uri_gap (h : parse_uri env memory pos max = some (.ok u)) :
    ∀ c ∈ (memory.drop pos).take u.extent, isGap c = false := by
  obtain ⟨size, hsize, htype, hscheme, hhost, hpath, -⟩ := parse_uri_ok h
  have hextent := URI.schemeExtent_eq htype hscheme
  have hfront := parse_scheme_gap hsize
  rw [← hextent] at hfront
  rw [URI.extent, Nat.add_assoc]
  refine forall_mem_take_add (forall_mem_take_add hfront (hostport_gap hhost)) ?_
  exact pathAndFragment_gap hpath

end Upnp.Uri
