import Upnp.Lib.CString

/-!
# The reader of the mini server

`NetReader1` of `miniserver.cpp`: a buffer that is filled from the socket
whenever it is empty.  The buffer is kept from `offset` on, and the socket is
the list of the results its `read`s have, of which `none` is a failure and the
end of the list the peer's close.
-/

namespace Upnp.MiniServer

open Upnp.Lib

/-- `NetReader1`. -/
structure NetReader1 where
  data : CString
  reads : List (Option CString)
deriving DecidableEq, Repr

/-- The outcome of a read: data, the end of the stream, or an error. -/
inductive Got (α : Type) where
  | got (a : α)
  | closed
  | error
deriving DecidableEq, Repr

/-- A line with `newlineNotFound`. -/
structure Line where
  s : CString
  newlineNotFound : Bool
deriving DecidableEq, Repr

namespace NetReader1

/-- What a reader has before it, each `read` to come counted too. -/
def size (r : NetReader1) : Nat := r.data.length + (r.reads.map fun b ↦ (b.getD []).length + 1).sum

/-- `refillBuffer`, where it finds data. -/
def refillBuffer (r : NetReader1) : Got Unit × NetReader1 :=
  match r.reads with
  | [] => (.closed, ⟨[], []⟩)
  | none :: reads => (.error, ⟨[], reads⟩)
  | some [] :: reads => (.closed, ⟨[], reads⟩)
  | some data :: reads => (.got (), ⟨data, reads⟩)

/-- `getChar`. -/
def getChar (r : NetReader1) : Got Char × NetReader1 :=
  match r.data with
  | c :: data => (.got c, { r with data })
  | [] =>
    match r.refillBuffer with
    | (.error, r) => (.error, r)
    | (.closed, r) => (.closed, r)
    | (.got (), r) =>
      match r.data with
      | c :: data => (.got c, { r with data })
      | [] => (.closed, r)

/-- A character that is got is taken away. -/
theorem size_getChar {r r' : NetReader1} {c : Char} (h : r.getChar = (.got c, r')) :
    r'.size < r.size := by
  obtain ⟨data, reads⟩ := r
  cases data with
  | cons d data =>
    cases h
    simp [size]
  | nil =>
    cases reads with
    | nil => simp [getChar, refillBuffer] at h
    | cons b reads =>
      cases b with
      | none => simp [getChar, refillBuffer] at h
      | some b =>
        cases b with
        | nil => simp [getChar, refillBuffer] at h
        | cons d b =>
          cases h
          simp only [size, List.length_nil, List.map_cons, List.sum_cons, Option.getD_some,
            List.length_cons]
          omega

/-- The loop of `getLine`. -/
def getLineLoop (r : NetReader1) (s : CString) (crFound : Bool) : Got Line × NetReader1 :=
  match h : r.getChar with
  | (.closed, r) => (.got ⟨s, true⟩, r)
  | (.error, r) => (.error, r)
  | (.got c, r') =>
    if c = '\n' then (.got ⟨s ++ [c], false⟩, r')
    else if c = '\r' then getLineLoop r' (s ++ [c]) true
    else if crFound then (.got ⟨s ++ [c], true⟩, r')
    else getLineLoop r' (s ++ [c]) crFound
termination_by r.size
decreasing_by all_goals exact size_getChar h

/-- `getLine`. -/
def getLine (r : NetReader1) : Got Line × NetReader1 := r.getLineLoop [] false

/-- `readData`. -/
def readData (r : NetReader1) (bufferLen : Nat) : Got CString × NetReader1 :=
  if bufferLen = 0 then (.closed, r)
  else
    match r.data with
    | c :: data => (.got ((c :: data).take bufferLen), { r with data := (c :: data).drop bufferLen })
    | [] =>
      match r.refillBuffer with
      | (.error, r) => (.error, r)
      | (.closed, r) => (.closed, r)
      | (.got (), r) => (.got (r.data.take bufferLen), { r with data := r.data.drop bufferLen })

/-- A line that is got takes something away. -/
theorem size_getLineLoop {r r' : NetReader1} {s : CString} {crFound : Bool} {line : Line}
    (h : r.getLineLoop s crFound = (.got line, r')) (hfound : line.newlineNotFound = false) :
    r'.size < r.size := by
  fun_induction getLineLoop r s crFound with
  | case1 =>
    cases h
    cases hfound
  | case2 => cases h
  | case3 r s crFound r₁ hget =>
    cases h
    exact size_getChar hget
  | case4 r s crFound r₁ hget hc ih => exact (ih h).trans (size_getChar hget)
  | case5 =>
    cases h
    cases hfound
  | case6 r s crFound c r₁ hget hc hcr hnot ih => exact (ih h).trans (size_getChar hget)

/-- Data that is read is taken away. -/
theorem size_readData {r r' : NetReader1} {bufferLen : Nat} {buf : CString}
    (h : r.readData bufferLen = (.got buf, r')) : r'.size < r.size := by
  obtain ⟨data, reads⟩ := r
  unfold readData at h
  split at h
  · cases h
  cases data with
  | cons d data =>
    cases h
    simp only [size, List.length_drop, List.length_cons]
    omega
  | nil =>
    cases reads with
    | nil => cases h
    | cons b reads =>
      cases b with
      | none => cases h
      | some b =>
        cases b with
        | nil => cases h
        | cons d b =>
          cases h
          simp only [size, List.length_nil, List.map_cons, List.sum_cons, Option.getD_some,
            List.length_drop, List.length_cons]
          omega

end NetReader1

/-! ## The stream, as it is cut -/

/-- The pieces of a stream behind its first bytes. -/
def dropBytes : Nat → List CString → List CString
  | _, [] => []
  | k, p :: ps => if k < p.length then p.drop k :: ps else dropBytes (k - p.length) ps

theorem flatten_dropBytes (k : Nat) (ps : List CString) :
    (dropBytes k ps).flatten = ps.flatten.drop k := by
  induction ps generalizing k with
  | nil => simp [dropBytes]
  | cons p ps ih =>
    rw [dropBytes, List.flatten_cons, List.drop_append]
    split
    · rename_i hk
      rw [List.flatten_cons, Nat.sub_eq_zero_of_le hk.le, List.drop_zero]
    · rename_i hk
      rw [ih, List.drop_eq_nil_of_le (not_lt.mp hk), List.nil_append]

theorem dropBytes_zero {ps : List CString} (h : ∀ p ∈ ps, p ≠ []) : dropBytes 0 ps = ps := by
  cases ps with
  | nil => rfl
  | cons p ps =>
    rw [dropBytes, if_pos (List.length_pos_of_ne_nil (h p List.mem_cons_self)), List.drop_zero]

theorem dropBytes_add (a b : Nat) (ps : List CString) :
    dropBytes b (dropBytes a ps) = dropBytes (a + b) ps := by
  induction ps generalizing a with
  | nil => rfl
  | cons p ps ih =>
    rw [dropBytes.eq_def a, dropBytes.eq_def (a + b)]
    dsimp only
    by_cases ha : a < p.length
    · rw [if_pos ha, dropBytes, List.length_drop, List.drop_drop]
      by_cases hab : a + b < p.length
      · rw [if_pos hab, if_pos (by omega)]
      · rw [if_neg hab, if_neg (by omega)]
        congr 1
        omega
    · rw [if_neg ha, if_neg (by omega), ih]
      congr 1
      omega

/-- The first piece of a stream that is not at its end. -/
theorem exists_piece {ps : List CString} {c : Char} {rest : CString} (h : ∀ p ∈ ps, p ≠ [])
    (hflat : ps.flatten = c :: rest) : ∃ p more, ps = (c :: p) :: more := by
  cases ps with
  | nil => cases hflat
  | cons p ps =>
    cases p with
    | nil => exact absurd rfl (h [] List.mem_cons_self)
    | cons d p =>
      cases hflat
      exact ⟨p, ps, rfl⟩

namespace NetReader1

/-- What is still to be read: the rest of the buffer first, if there is any. -/
inductive Holds : NetReader1 → List CString → Prop where
  | refill {ps : List CString} (h : ∀ p ∈ ps, p ≠ []) : Holds ⟨[], ps.map some⟩ ps
  | buffered {p : CString} {ps : List CString} (h : ∀ q ∈ p :: ps, q ≠ []) :
    Holds ⟨p, ps.map some⟩ (p :: ps)

theorem Holds.ne_nil {r : NetReader1} {ps : List CString} (h : r.Holds ps) : ∀ p ∈ ps, p ≠ [] := by
  cases h with
  | refill h => exact h
  | buffered h => exact h

/-- The rest of a piece, and the pieces behind it. -/
theorem Holds.of_drop {c : Char} {p : CString} {ps : List CString} (k : Nat)
    (h : ∀ q ∈ (c :: p) :: ps, q ≠ []) :
    Holds ⟨(c :: p).drop k, ps.map some⟩ (dropBytes (min k (c :: p).length) ((c :: p) :: ps)) := by
  rw [dropBytes]
  have hrest : ∀ q ∈ ps, q ≠ [] := fun q hq ↦ h q (List.mem_cons_of_mem _ hq)
  split
  · rename_i hk
    rw [min_eq_left (by omega)]
    refine .buffered fun q hq ↦ ?_
    obtain rfl | hq := List.mem_cons.mp hq
    · exact List.ne_nil_of_length_pos (by rw [List.length_drop]; omega)
    · exact hrest q hq
  · rename_i hk
    rw [min_eq_right (by omega), Nat.sub_self, dropBytes_zero hrest,
      List.drop_eq_nil_of_le (by omega)]
    exact .refill hrest

/-- The next character, while there is one. -/
theorem getChar_cons {r : NetReader1} {c : Char} {p : CString} {ps : List CString}
    (h : r.Holds ((c :: p) :: ps)) :
    ∃ r', r.getChar = (.got c, r') ∧ r'.Holds (dropBytes 1 ((c :: p) :: ps)) := by
  have hdrop : Holds ⟨(c :: p).drop 1, ps.map some⟩ (dropBytes 1 ((c :: p) :: ps)) := by
    have := Holds.of_drop 1 h.ne_nil
    rwa [min_eq_left (by simp)] at this
  refine ⟨⟨p, ps.map some⟩, ?_, hdrop⟩
  cases h with
  | refill => rfl
  | buffered => rfl

/-- The data of the next piece, up to the size of the buffer. -/
theorem readData_cons {r : NetReader1} {c : Char} {p : CString} {ps : List CString} {k : Nat}
    (hk : 0 < k) (h : r.Holds ((c :: p) :: ps)) :
    ∃ r', r.readData k = (.got ((c :: p).take k), r') ∧
      r'.Holds (dropBytes (min k (c :: p).length) ((c :: p) :: ps)) := by
  refine ⟨⟨(c :: p).drop k, ps.map some⟩, ?_, .of_drop k h.ne_nil⟩
  unfold readData
  rw [if_neg hk.ne']
  cases h with
  | refill => rfl
  | buffered => rfl

/-- At the end of the stream there is nothing to read. -/
theorem readData_nil {r : NetReader1} {k : Nat} (h : r.Holds []) :
    (r.readData k).1 = .closed := by
  unfold readData
  split
  · rfl
  · cases h
    rfl

/-- One step of `getLine`, where there is a character. -/
theorem getLineLoop_cons {r : NetReader1} {c : Char} {p : CString} {ps : List CString} (s : CString)
    (crFound : Bool) (h : r.Holds ((c :: p) :: ps)) :
    ∃ r' : NetReader1, r'.Holds (dropBytes 1 ((c :: p) :: ps)) ∧ r.getLineLoop s crFound =
      if c = '\n' then (.got ⟨s ++ [c], false⟩, r')
      else if c = '\r' then r'.getLineLoop (s ++ [c]) true
      else if crFound then (.got ⟨s ++ [c], true⟩, r')
      else r'.getLineLoop (s ++ [c]) crFound := by
  obtain ⟨r', hget, hr'⟩ := getChar_cons h
  refine ⟨r', hr', ?_⟩
  rw [getLineLoop.eq_def r]
  split <;>
    · rename_i heq
      rw [hget] at heq
      cases heq
      try rfl

/-- The characters of a line before its end. -/
theorem getLineLoop_text {text rest : CString} {r : NetReader1} {ps : List CString} {s : CString}
    (h : r.Holds ps) (hflat : ps.flatten = text ++ rest) (hcr : '\r' ∉ text) (hlf : '\n' ∉ text) :
    ∃ r' : NetReader1, r.getLineLoop s false = r'.getLineLoop (s ++ text) false ∧
      r'.Holds (dropBytes text.length ps) := by
  induction text generalizing r ps s with
  | nil =>
    refine ⟨r, by rw [List.append_nil], ?_⟩
    rw [List.length_nil, dropBytes_zero h.ne_nil]
    exact h
  | cons c text ih =>
    rw [List.mem_cons, not_or] at hcr hlf
    obtain ⟨p, more, rfl⟩ := exists_piece h.ne_nil hflat
    obtain ⟨r₁, hr₁, hstep⟩ := getLineLoop_cons s false h
    have hflat₁ : (dropBytes 1 ((c :: p) :: more)).flatten = text ++ rest := by
      rw [flatten_dropBytes, hflat]
      rfl
    obtain ⟨r', hloop, hr'⟩ := ih (s := s ++ [c]) hr₁ hflat₁ hcr.2 hlf.2
    refine ⟨r', ?_, ?_⟩
    · rw [hstep, if_neg (Ne.symm hlf.1), if_neg (Ne.symm hcr.1), if_neg (by decide), hloop,
        List.append_assoc]
      rfl
    · rw [dropBytes_add, Nat.add_comm] at hr'
      exact hr'

/-- The ends a line may have. -/
def IsEol (eol : CString) : Prop := eol = ['\r', '\n'] ∨ eol = ['\n']

/-- A whole line is got, and the reader is behind it. -/
theorem getLine_eq {text eol rest : CString} {r : NetReader1} {ps : List CString} (h : r.Holds ps)
    (hflat : ps.flatten = text ++ eol ++ rest) (hcr : '\r' ∉ text) (hlf : '\n' ∉ text)
    (heol : IsEol eol) :
    ∃ r' : NetReader1, r.getLine = (.got ⟨text ++ eol, false⟩, r') ∧
      r'.Holds (dropBytes (text ++ eol).length ps) := by
  obtain ⟨r₁, hloop, hr₁⟩ := getLineLoop_text (s := []) h (hflat.trans (List.append_assoc ..)) hcr hlf
  have hflat₁ : (dropBytes text.length ps).flatten = eol ++ rest := by
    rw [flatten_dropBytes, hflat, List.append_assoc, List.drop_left]
  rw [getLine, hloop, List.nil_append]
  obtain rfl | rfl := heol
  · obtain ⟨p, more, hps⟩ := exists_piece hr₁.ne_nil hflat₁
    have hr₁' := hr₁
    rw [hps] at hr₁'
    obtain ⟨r₂, hr₂, hstep⟩ := getLineLoop_cons text false hr₁'
    rw [← hps, dropBytes_add] at hr₂
    have hflat₂ : (dropBytes (text.length + 1) ps).flatten = '\n' :: rest := by
      rw [flatten_dropBytes, hflat, List.append_assoc, List.drop_length_add_append]
      rfl
    obtain ⟨p₂, more₂, hps₂⟩ := exists_piece hr₂.ne_nil hflat₂
    have hr₂' := hr₂
    rw [hps₂] at hr₂'
    obtain ⟨r₃, hr₃, hstep₃⟩ := getLineLoop_cons (text ++ ['\r']) true hr₂'
    rw [← hps₂, dropBytes_add] at hr₃
    refine ⟨r₃, ?_, ?_⟩
    · rw [hstep, if_neg (by decide), if_pos rfl, hstep₃, if_pos rfl, List.append_assoc]
      rfl
    · rwa [List.length_append]
  · obtain ⟨p, more, hps⟩ := exists_piece hr₁.ne_nil hflat₁
    have hr₁' := hr₁
    rw [hps] at hr₁'
    obtain ⟨r₂, hr₂, hstep⟩ := getLineLoop_cons text false hr₁'
    rw [← hps, dropBytes_add] at hr₂
    refine ⟨r₂, ?_, ?_⟩
    · rw [hstep, if_pos rfl]
    · rwa [List.length_append]

end NetReader1

end Upnp.MiniServer
