import Upnp.Web.RemoveDots

/-!
# Dot segments, in place

`remove_dots` on the buffer that it rewrites.  `InPlace` relates the buffer and the
offsets into it to the texts of `removeDotsLoop`; every access is in the arrays as
long as the array for the segments has a cell.
-/

namespace Upnp.Web

open Upnp.Lib

def UPNP_E_INVALID_URL : Int := -108
def UPNP_E_OUTOF_MEMORY : Int := -104

/-! ## The source -/

/-- What stands at `copyFrom`. -/
inductive DotSegment where
  | dot
  | dots
  | other
deriving DecidableEq, Repr

/-- `copyFrom==in || *(copyFrom-1)=='/'`. -/
def atStart (buf : CString) (copyFrom : Nat) : Option Bool :=
  if copyFrom = 0 then some true else (buf[copyFrom - 1]?).map (· = '/')

/-- The tests of `remove_dots` at `copyFrom`; `none` is a look outside the buffer. -/
def lookAt (buf : CString) (size copyFrom : Nat) (c : Char) : Option DotSegment := do
  if c = '.' then
    let start ← atStart buf copyFrom
    if start then
      if copyFrom + 1 = size then some .dot
      else
        let c₁ ← buf[copyFrom + 1]?
        if c₁ = '/' then some .dot
        else if c₁ = '.' then
          if copyFrom + 2 = size then some .dots
          else
            let c₂ ← buf[copyFrom + 2]?
            if c₂ = '/' then some .dots else some .other
        else some .other
    else some .other
  else some .other

/-- `*copyTo = c`; `none` is a write outside the buffer. -/
def store (buf : CString) (copyTo : Nat) (c : Char) : Option CString :=
  if copyTo < buf.length then some (buf.set copyTo c) else none

/-- The second loop of `remove_dots`, and the terminator. -/
def copyRest (size : Nat) (buf : CString) (copyTo copyFrom : Nat) : Option CString :=
  if copyFrom < size then do
    let c ← buf[copyFrom]?
    copyRest size (← store buf copyTo c) (copyTo + 1) (copyFrom + 1)
  else store buf copyTo '\x00'
termination_by size - copyFrom

/-- The first loop of `remove_dots`.  `Segments` are the offsets in the array of that name, up to
`lastSegment` and with that first; the array has `size` cells. -/
def inPlaceLoop (size : Nat) (buf : CString) (copyTo copyFrom : Nat) (Segments : List Nat) :
    Option (Except Int CString) :=
  if copyFrom < size then do
    let c ← buf[copyFrom]?
    if c = '?' ∨ c = '#' then (copyRest size buf copyTo copyFrom).map .ok
    else
      match ← lookAt buf size copyFrom c with
      | .dot => inPlaceLoop size buf copyTo (copyFrom + 2) Segments
      | .dots =>
        match Segments with
        | _ :: segment :: Segments =>
          inPlaceLoop size buf segment (copyFrom + 3) (segment :: Segments)
        | _ => some (.error UPNP_E_INVALID_URL)
      | .other =>
        if c = '/' then
          if Segments.length < size then
            inPlaceLoop size (← store buf copyTo c) (copyTo + 1) (copyFrom + 1)
              ((copyTo + 1) :: Segments)
          else none
        else inPlaceLoop size (← store buf copyTo c) (copyTo + 1) (copyFrom + 1) Segments
  else (copyRest size buf copyTo copyFrom).map .ok
termination_by size - copyFrom

/-- `remove_dots` on a buffer; `none` is an access outside one of its arrays.  `Segments[0]` is
written before anything is read. -/
def remove_dots (mallocOk : Bool) (buf : CString) (size : Nat) : Option (Except Int CString) :=
  if mallocOk then
    if 0 < size then inPlaceLoop size buf 0 0 [] else none
  else some (.error UPNP_E_OUTOF_MEMORY)

/-! ## The buffer and the texts -/

/-- The buffer holds what was written up to `copyTo`, and from `copyFrom` on what is still to be
read, which goes up to `size`. -/
structure InPlace (size : Nat) (buf : CString) (copyTo copyFrom : Nat) (written rest : CString) :
    Prop where
  written : buf.take copyTo = written
  rest : (buf.drop copyFrom).take (size - copyFrom) = rest
  le : copyTo ≤ copyFrom
  length : size < buf.length

variable {size copyTo copyFrom : Nat} {buf written rest : CString} {c : Char}

/-- The text that ends the run: it stands in the buffer, with its terminator. -/
def Holds (buf : CString) (t : CString) (length : Nat) : Prop :=
  (t ++ ['\x00']) <+: buf ∧ buf.length = length

theorem store_take (hlt : copyTo < buf.length) :
    (buf.set copyTo c).take (copyTo + 1) = buf.take copyTo ++ [c] := by
  rw [List.take_add_one, List.take_set_of_le (Nat.le_refl _), List.getElem?_set_self hlt]
  rfl

/-- The next character that is read. -/
theorem InPlace.getElem?_eq (h : InPlace size buf copyTo copyFrom written (c :: rest)) :
    copyFrom < size ∧ buf[copyFrom]? = some c := by
  have hlen : 0 < ((buf.drop copyFrom).take (size - copyFrom)).length := by
    rw [h.rest]
    exact Nat.succ_pos _
  rw [List.length_take, List.length_drop] at hlen
  have hlt : copyFrom < size := by omega
  refine ⟨hlt, ?_⟩
  have hget : ((buf.drop copyFrom).take (size - copyFrom))[0]? = some c := by
    rw [h.rest]
    rfl
  rw [List.getElem?_take_of_lt (by omega), List.getElem?_drop] at hget
  exact hget

/-- What is read behind some characters. -/
theorem InPlace.skip {front : CString}
    (h : InPlace size buf copyTo copyFrom written (front ++ rest)) :
    (buf.drop (copyFrom + front.length)).take (size - (copyFrom + front.length)) = rest := by
  rw [← List.drop_drop, Nat.sub_add_eq, ← List.drop_take, h.rest, List.drop_left]

theorem InPlace.rest_nil (h : InPlace size buf copyTo copyFrom written []) (hlt : copyFrom < size) :
    False := by
  have hlen := congrArg List.length h.rest
  rw [List.length_take, List.length_drop] at hlen
  have := h.length
  simp only [List.length_nil] at hlen
  omega

theorem InPlace.length_written (h : InPlace size buf copyTo copyFrom written (c :: rest)) :
    written.length = copyTo := by
  rw [← h.written, List.length_take_of_le]
  exact h.le.trans (h.getElem?_eq.1.trans h.length).le

/-- A character is copied. -/
theorem InPlace.copy (h : InPlace size buf copyTo copyFrom written (c :: rest)) :
    store buf copyTo c = some (buf.set copyTo c) ∧
      InPlace size (buf.set copyTo c) (copyTo + 1) (copyFrom + 1) (written ++ [c]) rest := by
  obtain ⟨hlt, -⟩ := h.getElem?_eq
  have hto : copyTo < buf.length := by
    have := h.le
    have := h.length
    omega
  refine ⟨if_pos hto, ?_, ?_, Nat.succ_le_succ h.le, ?_⟩
  · rw [store_take hto, h.written]
  · rw [List.drop_set_of_lt (Nat.lt_succ_of_le h.le)]
    exact @InPlace.skip _ _ _ _ _ _ [c] h
  · rw [List.length_set]
    exact h.length

/-- The terminator is written behind the text. -/
theorem InPlace.finish (h : InPlace size buf copyTo copyFrom written [])
    (hle : copyTo ≤ size) : ∃ buf', copyRest size buf copyTo copyFrom = some buf' ∧
      Holds buf' written buf.length := by
  have hto : copyTo < buf.length := Nat.lt_of_le_of_lt hle h.length
  rw [copyRest, if_neg fun hlt ↦ h.rest_nil hlt]
  refine ⟨_, if_pos hto, ⟨(buf.set copyTo '\x00').drop (copyTo + 1), ?_⟩, List.length_set⟩
  rw [← h.written, ← store_take hto, List.take_append_drop]

/-- A character is left out. -/
theorem InPlace.advance (h : InPlace size buf copyTo copyFrom written (c :: rest)) :
    InPlace size buf copyTo (copyFrom + 1) written rest :=
  ⟨h.written, @InPlace.skip _ _ _ _ _ _ [c] h, Nat.le_succ_of_le h.le, h.length⟩

theorem InPlace.eq_size (h : InPlace size buf copyTo copyFrom written [c]) :
    copyFrom + 1 = size := by
  have hlt := h.getElem?_eq.1
  have hge : ¬ copyFrom + 1 < size := fun hlt ↦ h.advance.rest_nil hlt
  omega

theorem InPlace.ne_size {c₁ : Char}
    (h : InPlace size buf copyTo copyFrom written (c :: c₁ :: rest)) : copyFrom + 1 ≠ size :=
  Nat.ne_of_lt h.advance.getElem?_eq.1

/-- The character before `copyFrom`. -/
def Before (buf : CString) (copyFrom : Nat) (prev : Option Char) : Prop :=
  copyFrom = 0 ∧ prev = none ∨ 0 < copyFrom ∧ ∃ p, prev = some p ∧ buf[copyFrom - 1]? = some p

/-- What the tests find, in terms of the characters around. -/
def dotSegment (prev : Option Char) (c : Char) (rest : CString) : DotSegment :=
  if c = '.' ∧ (prev = none ∨ prev = some '/') then
    match rest with
    | [] => .dot
    | '/' :: _ => .dot
    | ['.'] => .dots
    | '.' :: '/' :: _ => .dots
    | _ => .other
  else .other

theorem dotSegment_plain {prev : Option Char} (h : ¬(c = '.' ∧ (prev = none ∨ prev = some '/'))) :
    dotSegment prev c rest = .other := by
  rw [dotSegment.eq_def, if_neg h]

theorem dotSegment_other {prev : Option Char} (h₁ : rest = [] → False)
    (h₂ : ∀ more, rest = '/' :: more → False) (h₃ : rest = ['.'] → False)
    (h₄ : ∀ more, rest = '.' :: '/' :: more → False) : dotSegment prev c rest = .other := by
  rw [dotSegment.eq_def]
  split
  · split
    · exact (h₁ rfl).elim
    · exact (h₂ _ rfl).elim
    · exact (h₃ rfl).elim
    · exact (h₄ _ rfl).elim
    · rfl
  · rfl

theorem InPlace.lookAt_eq {prev : Option Char}
    (h : InPlace size buf copyTo copyFrom written (c :: rest)) (hprev : Before buf copyFrom prev) :
    lookAt buf size copyFrom c = some (dotSegment prev c rest) := by
  rw [lookAt, dotSegment.eq_def]
  by_cases hc : c = '.'
  · have hstart : atStart buf copyFrom = some (decide (prev = none ∨ prev = some '/')) := by
      rw [atStart]
      rcases hprev with ⟨rfl, rfl⟩ | ⟨hpos, p, rfl, hp⟩
      · rfl
      · rw [if_neg hpos.ne', hp]
        simp
    rw [if_pos hc, hstart]
    by_cases hp : prev = none ∨ prev = some '/'
    · simp only [hp, hc, decide_true, Option.bind_eq_bind, Option.bind_some, if_true, and_self]
      cases rest with
      | nil => exact if_pos h.eq_size
      | cons c₁ rest =>
        rw [if_neg h.ne_size, h.advance.getElem?_eq.2, Option.bind_some]
        by_cases hslash : c₁ = '/'
        · subst hslash
          rfl
        · rw [if_neg hslash]
          by_cases hdot : c₁ = '.'
          · subst hdot
            rw [if_pos rfl]
            cases rest with
            | nil => exact if_pos h.advance.eq_size
            | cons c₂ rest =>
              rw [if_neg h.advance.ne_size, h.advance.advance.getElem?_eq.2, Option.bind_some]
              by_cases hslash₂ : c₂ = '/'
              · subst hslash₂
                rfl
              · rw [if_neg hslash₂]
                split <;> simp_all
          · rw [if_neg hdot]
            split <;> simp_all
    · simp [hp]
  · simp [hc]

/-- The loop over the buffer ends as the loop over texts does: with the error, or with the text in
the buffer. -/
def EndsAs (r : Option (Except Int CString)) (length : Nat) : Option CString → Prop
  | none => r = some (.error UPNP_E_INVALID_URL)
  | some t => ∃ buf, r = some (.ok buf) ∧ Holds buf t length

/-- The rest is copied. -/
theorem InPlace.copyRest (h : InPlace size buf copyTo copyFrom written rest) (hle : copyTo ≤ size) :
    ∃ buf', copyRest size buf copyTo copyFrom = some buf' ∧
      Holds buf' (written ++ rest) buf.length := by
  induction rest generalizing buf copyTo copyFrom written with
  | nil =>
    rw [List.append_nil]
    exact h.finish hle
  | cons c rest ih =>
    obtain ⟨hlt, hget⟩ := h.getElem?_eq
    obtain ⟨hstore, hcopy⟩ := h.copy
    obtain ⟨buf', heq, hholds⟩ := ih hcopy (Nat.succ_le_of_lt (Nat.lt_of_le_of_lt h.le hlt))
    refine ⟨buf', ?_, ?_⟩
    · rw [Web.copyRest, if_pos hlt, hget]
      simp only [Option.bind_eq_bind, Option.bind_some, hstore]
      exact heq
    · rw [List.append_assoc, List.length_set] at hholds
      exact hholds

/-- One turn of the loop over the buffer. -/
theorem InPlace.step {prev : Option Char} {Segments : List Nat}
    (h : InPlace size buf copyTo copyFrom written (c :: rest)) (hprev : Before buf copyFrom prev)
    (hquery : ¬(c = '?' ∨ c = '#')) :
    inPlaceLoop size buf copyTo copyFrom Segments =
      match dotSegment prev c rest with
      | .dot => inPlaceLoop size buf copyTo (copyFrom + 2) Segments
      | .dots =>
        match Segments with
        | _ :: segment :: Segments =>
          inPlaceLoop size buf segment (copyFrom + 3) (segment :: Segments)
        | _ => some (.error UPNP_E_INVALID_URL)
      | .other =>
        if c = '/' then
          if Segments.length < size then
            inPlaceLoop size (buf.set copyTo c) (copyTo + 1) (copyFrom + 1)
              ((copyTo + 1) :: Segments)
          else none
        else inPlaceLoop size (buf.set copyTo c) (copyTo + 1) (copyFrom + 1) Segments := by
  obtain ⟨hlt, hget⟩ := h.getElem?_eq
  rw [inPlaceLoop.eq_def, if_pos hlt, hget]
  simp only [Option.bind_eq_bind, Option.bind_some, if_neg hquery, h.lookAt_eq hprev, h.copy.1]

/-- A double dot segment below the root. -/
theorem InPlace.step_root {prev : Option Char} {Segments : List Nat}
    (h : InPlace size buf copyTo copyFrom written (c :: rest)) (hprev : Before buf copyFrom prev)
    (hquery : ¬(c = '?' ∨ c = '#')) (hdots : dotSegment prev c rest = .dots)
    (hnone : ∀ head segment tail, Segments = head :: segment :: tail → False) :
    inPlaceLoop size buf copyTo copyFrom Segments = some (.error UPNP_E_INVALID_URL) := by
  rw [h.step hprev hquery, hdots]
  cases Segments with
  | nil => rfl
  | cons last Segments =>
    cases Segments with
    | nil => rfl
    | cons segment Segments => exact (hnone _ _ _ rfl).elim

/-- The offsets in `Segments` are where finished segments of the text end. -/
structure Offsets (size copyTo copyFrom : Nat) (Segments : List Nat) : Prop where
  sorted : (copyTo :: Segments).Pairwise (· ≥ ·)
  length : Segments.length ≤ copyFrom
  le : copyTo ≤ size

theorem Offsets.next {Segments : List Nat} (h : Offsets size copyTo copyFrom Segments)
    (hlt : copyTo < size) : Offsets size (copyTo + 1) (copyFrom + 1) Segments := by
  refine ⟨?_, Nat.le_succ_of_le h.length, hlt⟩
  obtain ⟨hle, hsorted⟩ := List.pairwise_cons.mp h.sorted
  exact List.pairwise_cons.mpr ⟨fun a ha ↦ Nat.le_succ_of_le (hle a ha), hsorted⟩

theorem Offsets.push {Segments : List Nat} (h : Offsets size copyTo copyFrom Segments)
    (hlt : copyTo < size) :
    Offsets size (copyTo + 1) (copyFrom + 1) ((copyTo + 1) :: Segments) := by
  refine ⟨?_, Nat.succ_le_succ h.length, hlt⟩
  have hnext := (h.next hlt).sorted
  refine List.pairwise_cons.mpr ⟨?_, hnext⟩
  intro a ha
  rcases List.mem_cons.mp ha with rfl | ha
  · exact Nat.le_refl _
  · exact (List.pairwise_cons.mp hnext).1 a ha

theorem Offsets.pop {Segments : List Nat} {last segment : Nat}
    (h : Offsets size copyTo copyFrom (last :: segment :: Segments)) :
    segment ≤ copyTo ∧ Offsets size segment copyFrom (segment :: Segments) := by
  obtain ⟨hle, hsorted⟩ := List.pairwise_cons.mp h.sorted
  have hsegment : segment ≤ copyTo := hle segment (by simp)
  obtain ⟨-, hrest⟩ := List.pairwise_cons.mp hsorted
  refine ⟨hsegment, List.pairwise_cons.mpr ⟨?_, hrest⟩, ?_, hsegment.trans h.le⟩
  · intro a ha
    rcases List.mem_cons.mp ha with rfl | ha
    · exact Nat.le_refl _
    · exact (List.pairwise_cons.mp hrest).1 a ha
  · exact Nat.le_of_succ_le h.length

theorem Offsets.skip {Segments : List Nat} {n : Nat} (h : Offsets size copyTo copyFrom Segments)
    (hle : copyFrom ≤ n) : Offsets size copyTo n Segments :=
  ⟨h.sorted, h.length.trans hle, h.le⟩

/-- The pointers go past the end. -/
theorem InPlace.past (h : InPlace size buf copyTo copyFrom written [c]) (n : Nat) :
    InPlace size buf copyTo (copyFrom + 1 + n) written [] := by
  refine ⟨h.written, ?_, h.le.trans (Nat.le_add_right_of_le (Nat.le_succ _)), h.length⟩
  rw [← h.eq_size, Nat.sub_add_eq, Nat.sub_self, Nat.zero_sub, List.take_zero]

/-- Writing goes on at the end of an earlier segment. -/
theorem InPlace.back {segment : Nat} (h : InPlace size buf copyTo copyFrom written rest)
    (hle : segment ≤ copyTo) :
    InPlace size buf segment copyFrom (written.take segment) rest := by
  refine ⟨?_, h.rest, hle.trans h.le, h.length⟩
  rw [← h.written, List.take_take, min_eq_left hle]

/-- The character behind which reading goes on. -/
theorem InPlace.before (h : InPlace size buf copyTo copyFrom written (c :: rest)) :
    Before buf (copyFrom + 1) (some c) :=
  .inr ⟨Nat.succ_pos _, c, rfl, h.getElem?_eq.2⟩

theorem InPlace.before_set (h : InPlace size buf copyTo copyFrom written (c :: rest)) :
    Before (buf.set copyTo c) (copyFrom + 1) (some c) := by
  refine .inr ⟨Nat.succ_pos _, c, rfl, ?_⟩
  rw [Nat.add_sub_cancel]
  obtain ⟨hlt, hget⟩ := h.getElem?_eq
  by_cases heq : copyTo = copyFrom
  · rw [heq, List.getElem?_set_self (hlt.trans h.length)]
  · rw [List.getElem?_set_ne heq, hget]

/-- The loop over the buffer does what the loop over texts does. -/
theorem inPlaceLoop_endsAs {prev : Option Char} {Segments : List Nat}
    (h : InPlace size buf copyTo copyFrom written rest) (hprev : Before buf copyFrom prev)
    (hoff : Offsets size copyTo copyFrom Segments) :
    EndsAs (inPlaceLoop size buf copyTo copyFrom Segments) buf.length
      (removeDotsLoop written Segments prev rest) := by
  fun_induction removeDotsLoop written Segments prev rest generalizing buf copyTo copyFrom with
  | case1 written Segments prev =>
    obtain ⟨buf', hbuf, hholds⟩ := h.finish hoff.le
    rw [inPlaceLoop.eq_def, if_neg fun hlt ↦ h.rest_nil hlt, hbuf]
    exact ⟨buf', rfl, hholds⟩
  | case2 written Segments prev c more hquery =>
    obtain ⟨hlt, hget⟩ := h.getElem?_eq
    obtain ⟨buf', hbuf, hholds⟩ := h.copyRest hoff.le
    rw [inPlaceLoop.eq_def, if_pos hlt, hget]
    simp only [Option.bind_eq_bind, Option.bind_some, if_pos hquery, hbuf]
    exact ⟨buf', rfl, hholds⟩
  | case3 written Segments prev c hquery hdot =>
    have hpast := h.past 1
    obtain ⟨buf', hbuf, hholds⟩ := hpast.finish hoff.le
    rw [h.step hprev hquery, dotSegment, if_pos hdot]
    change EndsAs (inPlaceLoop _ _ _ _ _) _ _
    rw [inPlaceLoop.eq_def, if_neg fun hlt ↦ hpast.rest_nil hlt, hbuf]
    exact ⟨buf', rfl, hholds⟩
  | case4 written Segments prev c hquery hdot more ih =>
    rw [h.step hprev hquery, dotSegment, if_pos hdot]
    exact ih h.advance.advance h.advance.before (hoff.skip (Nat.le_add_right _ _))
  | case5 written prev c hquery hdot head segment tail =>
    obtain ⟨hsegment, hpop⟩ := hoff.pop
    have hpast := (h.advance.back hsegment).past 1
    obtain ⟨buf', hbuf, hholds⟩ := hpast.finish hpop.le
    rw [h.step hprev hquery, dotSegment, if_pos hdot]
    change EndsAs (inPlaceLoop _ _ _ _ _) _ _
    rw [inPlaceLoop.eq_def, if_neg fun hlt ↦ hpast.rest_nil hlt, hbuf]
    exact ⟨buf', rfl, hholds⟩
  | case6 written Segments prev c hquery hdot hnone =>
    exact h.step_root hprev hquery (if_pos hdot) hnone
  | case7 written prev c hquery hdot more head segment tail ih =>
    obtain ⟨hsegment, hpop⟩ := hoff.pop
    rw [h.step hprev hquery, dotSegment, if_pos hdot]
    exact ih (h.advance.advance.advance.back hsegment) h.advance.advance.before
      (hpop.skip (Nat.le_add_right _ _))
  | case8 written Segments prev c hquery hdot more hnone =>
    exact h.step_root hprev hquery (if_pos hdot) hnone
  | case9 written Segments prev c hquery hdot more h₁ h₂ h₃ h₄ ih =>
    have hlt := h.getElem?_eq.1
    have hslash : c ≠ '/' := by
      rw [hdot.1]
      decide
    rw [h.step hprev hquery, dotSegment_other h₁ h₂ h₃ h₄]
    change EndsAs (if _ then _ else _) _ _
    rw [if_neg hslash, ← @List.length_set _ buf copyTo c]
    exact ih h.copy.2 h.before_set (hoff.next (Nat.lt_of_le_of_lt h.le hlt))
  | case10 written Segments prev more hquery hdot ih =>
    have hlt := h.getElem?_eq.1
    obtain rfl := h.length_written
    rw [h.step hprev hquery, dotSegment_plain hdot]
    change EndsAs (if _ then _ else _) _ _
    rw [if_pos rfl, if_pos (Nat.lt_of_le_of_lt hoff.length hlt),
      ← @List.length_set _ buf written.length '/']
    exact ih h.copy.2 h.before_set (hoff.push (Nat.lt_of_le_of_lt h.le hlt))
  | case11 written Segments prev c more hquery hdot hslash ih =>
    have hlt := h.getElem?_eq.1
    rw [h.step hprev hquery, dotSegment_plain hdot]
    change EndsAs (if _ then _ else _) _ _
    rw [if_neg hslash, ← @List.length_set _ buf copyTo c]
    exact ih h.copy.2 h.before_set (hoff.next (Nat.lt_of_le_of_lt h.le hlt))

end Upnp.Web
