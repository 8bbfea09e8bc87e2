import Upnp.Uri.UrlList

/-!
# What a copy of a list holds

A token of the copy has the text of the token that it is copied from if its characters are in the
part of the buffer that is copied, up to the first NUL.  A null pointer is moved like any other
one, by the distance of the two buffers.
-/

namespace Upnp.Uri.Copy

open Upnp.Lib
open Upnp.Lib.Pointer
open Upnp.Util (size_t)

/-! ## Lists in memory -/

/-- What the token reads in the buffer at `base`.  An empty one reads nothing, wherever it points;
any other one points into the buffer. -/
def Token.Reads (t : Token) (base : Pointer) (cells : Buffer) (s : CString) : Prop :=
  (cells.drop (t.buff - base).toNat).take t.size = s.map some ∧ s.length = t.size

def URI.tokens (u : URI) : List Token := [u.scheme, u.pathquery, u.fragment, u.hostport.text]

/-- A list in memory: its buffer holds the text up to the first NUL, and its tokens read what is
in the buffer. -/
structure Valid (m : Heap Block) (list : URL_list) (text : CString) (cells : Buffer)
    (us : List URI) : Prop where
  buffer : chars m list.URLs = some cells
  holds : cells.Holds text
  noNul : '\x00' ∉ text
  parsed : ∃ rest, uris m list.parsedURLs = some (us.map some ++ rest)
  size : list.size = us.length
  isInt : list.size ≤ intMax
  reads : ∀ u ∈ us, ∀ t ∈ u.tokens, ∃ s, t.Reads list.URLs cells s

/-- The token `t'` of the new buffer is the copy of the token `t` of the old one: it has its size,
its offset and its text, and does not point into the old buffer. -/
structure Copied (base : Pointer) (cells : Buffer) (base' : Pointer) (cells' : Buffer)
    (t t' : Token) : Prop where
  size : t'.size = t.size
  offset : t'.buff - base' = t.buff - base
  text : ∃ s, t.Reads base cells s ∧ t'.Reads base' cells' s
  elsewhere : ¬ t'.buff.Within base cells.length

/-- `copy_URL_list` does what it should: a copy of each token, or an error and the memory that
there was. -/
def CopiesRight (A : Allocator Block) (m : Heap Block) (list : URL_list) (cells : Buffer)
    (us : List URI) : Prop :=
  ∃ m' out code, copy_URL_list A m list = some (m', out, code) ∧
    if out.URLs = NULL ∨ out.parsedURLs = NULL then
      code = UPNP_E_OUTOF_MEMORY ∧ ∀ p, m'.get p = m.get p
    else
      code = HTTP_SUCCESS ∧ out.size = list.size ∧
        ∃ cells' us', chars m' out.URLs = some cells' ∧
          uris m' out.parsedURLs = some (us'.map some) ∧
          List.Forall₂ (fun u u' ↦
            List.Forall₂ (Copied list.URLs cells out.URLs cells') u.tokens u'.tokens) us us'

/-! ## The memory that is asked for -/

/-- The bytes that are copied of a buffer with the text. -/
def copyLen (text : CString) : Nat := size_t (wrap32 (text.length + 1))

/-- The bytes of an array of `n` URIs. -/
def arrayLen (n : Int) : Nat := size_t (sizeof_uri_type * n)

section

variable (A : Allocator Block) (m : Heap Block) (list : URL_list) (text : CString)

/-- What `malloc` answers for the buffer. -/
def newURLs : Pointer := A.answer 0 m (copyLen text)

/-- The memory behind the first call of `malloc`. -/
def withURLs : Heap Block :=
  (A.malloc 0 (copyLen text) (.chars (.alloc (copyLen text))) m).1

/-- What `malloc` answers for the array. -/
def newParsed : Pointer := A.answer 1 (withURLs A m text) (arrayLen list.size)

/-- The memory behind the second call. -/
def withParsed : Heap Block :=
  (A.malloc 1 (arrayLen list.size)
    (.uris (List.replicate (arrayLen list.size / sizeof_uri_type) none)) (withURLs A m text)).1

end

/-- Copying the first `len` bytes of the buffer of `size` bytes leaves the token as it is: they
have what it reads, and an empty one that points elsewhere is not moved into the old buffer. -/
def Token.Survives (base base' : Pointer) (size len : Nat) (t : Token) : Prop :=
  if t.size = 0 then t.buff.Within base len ∨ ¬ (base' - base + t.buff).Within base size
  else (t.buff - base).toNat + t.size ≤ len

instance (base base' : Pointer) (size len : Nat) (t : Token) :
    Decidable (t.Survives base base' size len) :=
  inferInstanceAs <| Decidable <|
    if t.size = 0 then t.buff.Within base len ∨ ¬ (base' - base + t.buff).Within base size
    else (t.buff - base).toNat + t.size ≤ len

/-- The two calls of `malloc` succeed or fail together, and when they succeed every token
survives. -/
structure CanCopy (A : Allocator Block) (m : Heap Block) (list : URL_list) (text : CString)
    (cells : Buffer) (us : List URI) : Prop where
  together : newURLs A m text = NULL ↔ newParsed A m list text = NULL
  len : newURLs A m text ≠ NULL → copyLen text ≤ cells.length
  survive : newURLs A m text ≠ NULL → ∀ u ∈ us, ∀ t ∈ u.tokens,
    t.Survives list.URLs (newURLs A m text) cells.length (copyLen text)

variable {A : Allocator Block} {m m' : Heap Block} {list : URL_list} {text s : CString}
  {cells : Buffer} {us : List URI} {t : Token} {base base' p q : Pointer} {len : Nat}

/-! ## Tokens -/

theorem Token.Reads.le (h : t.Reads base cells s) (hsize : t.size ≠ 0) :
    (t.buff - base).toNat + t.size ≤ cells.length := by
  have hlen := congrArg List.length h.1
  rw [List.length_take, List.length_drop, List.length_map, h.2] at hlen
  omega

/-- A token reads the same in the first bytes of the buffer if they have all of it. -/
theorem Token.Reads.take_iff (h : t.Reads base cells s) (hle : len ≤ cells.length) :
    t.Reads base (cells.take len) s ↔ t.size = 0 ∨ (t.buff - base).toNat + t.size ≤ len := by
  constructor
  · intro htake
    by_cases hsize : t.size = 0
    · exact .inl hsize
    · have hwithin := htake.le hsize
      rw [List.length_take_of_le hle] at hwithin
      exact .inr hwithin
  · intro hall
    refine ⟨?_, h.2⟩
    rw [List.drop_take, List.take_take, ← h.1]
    rcases hall with hsize | hall
    · rw [hsize, Nat.zero_min]
    · rw [Nat.min_eq_left (Nat.le_sub_of_add_le' hall)]

theorem reads_copy_token :
    (copy_token t base base').Reads base' cells s ↔ t.Reads base cells s := by
  unfold Token.Reads copy_token
  rw [rebase_sub]

/-- Where the first bytes of a buffer are copied to a block that is apart from it, the tokens that
survive, and no others, are copied. -/
theorem copied_iff (h : t.Reads base cells s) (hle : len ≤ cells.length)
    (hapart : base'.Apart len base cells.length) :
    Copied base cells base' (cells.take len) t (copy_token t base base') ↔
      t.Survives base base' cells.length len := by
  have hmoved : (copy_token t base base').buff = base' - base + t.buff := by
    unfold copy_token rebase
    bv_omega
  unfold Token.Survives
  split
  · rename_i hsize
    constructor
    · intro hcopied
      refine .inr ?_
      rw [← hmoved]
      exact hcopied.elsewhere
    · intro helse
      refine ⟨rfl, rebase_sub _ _ _, ⟨s, h, ?_⟩, ?_⟩
      · rw [reads_copy_token, h.take_iff hle]
        exact .inl hsize
      · rcases helse with hwithin | helse
        · exact hapart.notWithin (within_rebase.mpr hwithin)
        · rwa [hmoved]
  · rename_i hsize
    constructor
    · intro hcopied
      obtain ⟨s', hs, hs'⟩ := hcopied.text
      rw [reads_copy_token, hs.take_iff hle] at hs'
      exact hs'.resolve_left hsize
    · intro hall
      refine ⟨rfl, rebase_sub _ _ _, ⟨s, h, ?_⟩, ?_⟩
      · rw [reads_copy_token, h.take_iff hle]
        exact .inr hall
      · have hwithin : t.buff.Within base len :=
          Nat.lt_of_lt_of_le (Nat.lt_add_of_pos_right (Nat.pos_of_ne_zero hsize)) hall
        exact hapart.notWithin (within_rebase.mpr hwithin)

/-! ## The memory -/

theorem chars_eq_some : chars m p = some cells ↔ m.get p.toNat = some (.chars cells) := by
  unfold chars
  cases m.get p.toNat with
  | none => simp
  | some block => cases block <;> simp

theorem uris_eq_some {arr : List (Option URI)} :
    uris m p = some arr ↔ m.get p.toNat = some (.uris arr) := by
  unfold uris
  cases m.get p.toNat with
  | none => simp
  | some block => cases block <;> simp

theorem strlen_of_holds (h : cells.Holds text) (hnul : '\x00' ∉ text) :
    strlen cells = some text.length := by
  obtain ⟨rest, rfl⟩ := h
  induction text with
  | nil => rfl
  | cons c text ih =>
    rw [List.mem_cons, not_or] at hnul
    obtain ⟨hc, hrest⟩ := hnul
    rw [List.cons_append, List.map_cons, List.cons_append, strlen, if_neg (Ne.symm hc), ih hrest]
    rfl

theorem memcpy_spec {to_cells : Buffer} {n : Nat} (hfrom : chars m p = some cells)
    (hto : chars m q = some to_cells) (hle : n ≤ cells.length) (hle' : n ≤ to_cells.length) :
    memcpy q p n m = some (m.insert q.toNat (.chars (cells.take n ++ to_cells.drop n))) := by
  rw [memcpy, hfrom, hto]
  exact (if_pos ⟨hle, hle'⟩).trans (Heap.set_of_get (chars_eq_some.mp hto) _)

theorem memcpy_eq_none {n : Nat} (hfrom : chars m p = some cells) (hlt : cells.length < n) :
    memcpy q p n m = none := by
  rw [memcpy, hfrom]
  cases chars m q with
  | none => rfl
  | some to_cells => exact if_neg fun h ↦ Nat.not_lt.mpr h.1 hlt

theorem setUri_spec {front back : List (Option URI)} {cell : Option URI} (u : URI)
    (h : uris m p = some (front ++ cell :: back)) :
    setUri m p front.length u = some (m.insert p.toNat (.uris (front ++ some u :: back))) := by
  rw [setUri, h, Option.bind_some, if_pos (by simp), Heap.set_of_get (uris_eq_some.mp h),
    List.set_append_right _ _ le_rfl, Nat.sub_self, List.set_cons_zero]

/-- The loop fills what is left of the array with the copies of the URIs that are left, and writes
nothing else. -/
theorem copyLoop_spec {out : URL_list} {back : List URI} {front done todo rest : List (Option URI)}
    (hin : uris m list.parsedURLs = some (front ++ back.map some ++ rest))
    (hout : uris m out.parsedURLs = some (done ++ todo)) (hne : list.parsedURLs ≠ out.parsedURLs)
    (hdone : done.length = front.length) (htodo : todo.length = back.length) :
    ∃ m', copyLoop list out back.length front.length m = some m' ∧
      uris m' out.parsedURLs =
        some (done ++ back.map fun u ↦ some (copyURI list.URLs out.URLs u)) ∧
      ∀ a ≠ out.parsedURLs.toNat, m'.get a = m.get a := by
  induction back generalizing m front done todo with
  | nil =>
    rw [List.eq_nil_of_length_eq_zero htodo] at hout
    exact ⟨m, rfl, hout, fun _ _ ↦ rfl⟩
  | cons u back ih =>
    obtain ⟨cell, todo, rfl⟩ := List.exists_cons_of_length_eq_add_one htodo
    have hread : uriAt m list.parsedURLs front.length = some u := by
      rw [uriAt, hin, Option.bind_some, List.append_assoc, List.getElem?_append_right le_rfl,
        Nat.sub_self]
      rfl
    have hwrite := setUri_spec (copyURI list.URLs out.URLs u) hout
    rw [hdone] at hwrite
    set m₁ := m.insert out.parsedURLs.toNat
      (.uris (done ++ some (copyURI list.URLs out.URLs u) :: todo)) with hm₁
    have hframe : ∀ a ≠ out.parsedURLs.toNat, Heap.get m₁ a = m.get a := by
      intro a ha
      rw [hm₁, Heap.get_insert, if_neg ha]
    have hin₁ : uris m₁ list.parsedURLs = some ((front ++ [some u]) ++ back.map some ++ rest) := by
      rw [uris_eq_some, hframe _ fun heq ↦ hne (BitVec.eq_of_toNat_eq heq), uris_eq_some.mp hin]
      simp
    have hout₁ : uris m₁ out.parsedURLs =
        some ((done ++ [some (copyURI list.URLs out.URLs u)]) ++ todo) := by
      rw [uris_eq_some, hm₁, Heap.get_insert, if_pos rfl, List.append_assoc]
      rfl
    obtain ⟨m', hrun, hfilled, hrest⟩ := ih hin₁ hout₁ (by simp [hdone]) (Nat.succ.inj htodo)
    refine ⟨m', ?_, ?_, fun a ha ↦ (hrest a ha).trans (hframe a ha)⟩
    · rw [List.length_append] at hrun
      rw [List.length_cons, copyLoop, hread]
      exact (congrArg (·.bind (copyLoop list out back.length (front.length + 1))) hwrite).trans hrun
    · rw [hfilled, List.append_assoc]
      rfl

/-! ## The copy of a list -/

theorem copy_URL_list_eq (h : Valid m list text cells us) : copy_URL_list A m list =
    if newURLs A m text = NULL ∨ newParsed A m list text = NULL then
      some (withParsed A m list text, ⟨0, newURLs A m text, newParsed A m list text⟩,
        UPNP_E_OUTOF_MEMORY)
    else
      (memcpy (newURLs A m text) list.URLs (copyLen text) (withParsed A m list text)).bind fun m₁ ↦
        (copyLoop list ⟨0, newURLs A m text, newParsed A m list text⟩ list.size.toNat 0 m₁).bind
          fun m₂ ↦ some (m₂, ⟨list.size, newURLs A m text, newParsed A m list text⟩,
            HTTP_SUCCESS) := by
  rw [copy_URL_list, h.buffer]
  dsimp only [Option.bind_eq_bind, Option.bind_some]
  rw [strlen_of_holds h.holds h.noNul]
  rfl

/-- The array has an element for each URI. -/
theorem Valid.arrayLen_div (h : Valid m list text cells us) :
    arrayLen list.size / sizeof_uri_type = us.length := by
  have hint : (us.length : Int) ≤ 2147483647 := h.size ▸ h.isInt
  have hlen : arrayLen list.size = sizeof_uri_type * us.length := by
    rw [arrayLen, h.size, ← Nat.cast_mul, size_t]
    norm_cast
    refine Nat.mod_eq_of_lt ?_
    have hmul := Nat.mul_le_mul_left sizeof_uri_type (Int.ofNat_le.mp hint)
    exact Nat.lt_of_le_of_lt hmul (by decide)
  rw [hlen, Nat.mul_div_cancel_left _ (by decide)]

theorem withURLs_eq (hURLs : newURLs A m text ≠ NULL) : withURLs A m text =
    m.alloc (newURLs A m text).toNat (.chars (.alloc (copyLen text))) := by
  rw [withURLs, Allocator.malloc_block hURLs]
  rfl

theorem withParsed_eq (hparsed : newParsed A m list text ≠ NULL) :
    withParsed A m list text = (withURLs A m text).alloc (newParsed A m list text).toNat
      (.uris (List.replicate (arrayLen list.size / sizeof_uri_type) none)) := by
  rw [withParsed, Allocator.malloc_block hparsed]
  rfl

/-- A block of the list is still there when the memory is asked for, and is not one of the new
blocks. -/
theorem get_withParsed {block : Block} (hp : m.get p.toNat = some block) :
    (withParsed A m list text).get p.toNat = some block :=
  Allocator.get_malloc (Allocator.get_malloc hp)

theorem ne_newURLs (hURLs : newURLs A m text ≠ NULL) {block : Block}
    (hp : m.get p.toNat = some block) :
    p ≠ newURLs A m text := (A.fresh _ _ _ hURLs p block hp).1

theorem ne_newParsed (hparsed : newParsed A m list text ≠ NULL) {block : Block}
    (hp : (withURLs A m text).get p.toNat = some block) : p ≠ newParsed A m list text :=
  (A.fresh _ _ _ hparsed p block hp).1

theorem chars_withURLs (hURLs : newURLs A m text ≠ NULL) :
    (withURLs A m text).get (newURLs A m text).toNat = some (.chars (.alloc (copyLen text))) := by
  rw [withURLs_eq hURLs, Heap.get_alloc, if_pos rfl]

theorem chars_withParsed (hURLs : newURLs A m text ≠ NULL) :
    chars (withParsed A m list text) (newURLs A m text) = some (.alloc (copyLen text)) :=
  chars_eq_some.mpr (Allocator.get_malloc (chars_withURLs hURLs))

theorem uris_withParsed (hparsed : newParsed A m list text ≠ NULL)
    (h : Valid m list text cells us) :
    uris (withParsed A m list text) (newParsed A m list text) =
      some (List.replicate us.length none) := by
  rw [uris_eq_some, withParsed_eq hparsed, Heap.get_alloc, if_pos rfl, h.arrayLen_div]

/-- With memory for it the list is copied, unless the length of its text is an `int` that is larger
than the buffer. -/
theorem copy_URL_list_succeeds (h : Valid m list text cells us) (hURLs : newURLs A m text ≠ NULL)
    (hparsed : newParsed A m list text ≠ NULL) (hlen : copyLen text ≤ cells.length) :
    ∃ m', copy_URL_list A m list =
        some (m', ⟨list.size, newURLs A m text, newParsed A m list text⟩, HTTP_SUCCESS) ∧
      chars m' (newURLs A m text) = some (cells.take (copyLen text)) ∧
      uris m' (newParsed A m list text) =
        some ((us.map (copyURI list.URLs (newURLs A m text))).map some) := by
  obtain ⟨rest, hin⟩ := h.parsed
  have hin_block := uris_eq_some.mp hin
  -- the two new blocks, and the two of the list
  have hto := @chars_withParsed A m list text hURLs
  have hfrom : chars (withParsed A m list text) list.URLs = some cells :=
    chars_eq_some.mpr (get_withParsed (chars_eq_some.mp h.buffer))
  have hne : list.parsedURLs ≠ newParsed A m list text :=
    ne_newParsed hparsed (Allocator.get_malloc hin_block)
  have hne' : newURLs A m text ≠ newParsed A m list text :=
    ne_newParsed hparsed (chars_withURLs hURLs)
  -- `memcpy`
  have hcopy := memcpy_spec hfrom hto hlen (Buffer.length_alloc _).ge
  rw [List.drop_of_length_le (Buffer.length_alloc _).le, List.append_nil] at hcopy
  set m₁ := (withParsed A m list text).insert (newURLs A m text).toNat
    (.chars (cells.take (copyLen text))) with hm₁
  have hframe₁ : ∀ (p : Pointer), p ≠ newURLs A m text →
      Heap.get m₁ p.toNat = (withParsed A m list text).get p.toNat := by
    intro p hp
    rw [hm₁, Heap.get_insert, if_neg fun heq ↦ hp (BitVec.eq_of_toNat_eq heq)]
  -- the loop
  have hin₁ : uris m₁ list.parsedURLs = some ([] ++ us.map some ++ rest) := by
    rw [uris_eq_some, hframe₁ _ (ne_newURLs hURLs hin_block)]
    exact get_withParsed hin_block
  have hout₁ : uris m₁ (newParsed A m list text) = some ([] ++ List.replicate us.length none) := by
    rw [uris_eq_some, hframe₁ _ hne'.symm]
    exact uris_eq_some.mp (uris_withParsed hparsed h)
  obtain ⟨m', hrun, hfilled, hrest⟩ :=
    @copyLoop_spec m₁ list ⟨0, newURLs A m text, newParsed A m list text⟩ us [] [] _ rest
      hin₁ hout₁ hne rfl List.length_replicate
  rw [List.length_nil] at hrun
  refine ⟨m', ?_, ?_, ?_⟩
  · rw [copy_URL_list_eq h, if_neg (not_or.mpr ⟨hURLs, hparsed⟩), hcopy, Option.bind_some, h.size,
      Int.toNat_natCast, hrun]
    rfl
  · rw [chars_eq_some, hrest _ fun heq ↦ hne' (BitVec.eq_of_toNat_eq heq), hm₁, Heap.get_insert,
      if_pos rfl]
  · rw [hfilled, List.nil_append, List.map_map]
    rfl

/-- Where one of the two parts is missing, the list has no block if the other one is missing too. -/
theorem URL_list.blocks_eq_nil {out : URL_list} (hnull : out.URLs = NULL ∨ out.parsedURLs = NULL) :
    out.blocks = [] ↔ (out.URLs = NULL ↔ out.parsedURLs = NULL) := by
  rw [blocks, List.filter_eq_nil_iff]
  by_cases hURLs : out.URLs = NULL
  · simp [hURLs]
  · simp [hURLs, hnull.resolve_left hURLs]

theorem forall₂_copied_iff (hreads : ∀ u ∈ us, ∀ t ∈ u.tokens, ∃ s, t.Reads base cells s)
    (hle : len ≤ cells.length) (hapart : base'.Apart len base cells.length) :
    List.Forall₂ (fun u u' ↦
        List.Forall₂ (Copied base cells base' (cells.take len)) u.tokens u'.tokens)
      us (us.map (copyURI base base')) ↔
      ∀ u ∈ us, ∀ t ∈ u.tokens, t.Survives base base' cells.length len := by
  rw [List.forall₂_map_right_iff, List.forall₂_same]
  refine forall₂_congr fun u hu ↦ ?_
  have htokens : (copyURI base base' u).tokens = u.tokens.map (copy_token · base base') := rfl
  rw [htokens, List.forall₂_map_right_iff, List.forall₂_same]
  refine forall₂_congr fun t ht ↦ ?_
  obtain ⟨s, hs⟩ := hreads u hu t ht
  exact copied_iff hs hle hapart

/-- A list that is not copied for want of memory. -/
theorem copiesRight_null (h : Valid m list text cells us)
    (hnull : newURLs A m text = NULL ∨ newParsed A m list text = NULL) :
    CopiesRight A m list cells us ↔
      (newURLs A m text = NULL ↔ newParsed A m list text = NULL) := by
  have hrun := (copy_URL_list_eq h).trans (if_pos hnull)
  have hblocks := @URL_list.blocks_eq_nil
    ⟨0, newURLs A m text, newParsed A m list text⟩ hnull
  rw [← hblocks, ← (copy_URL_list_grown hrun).unchanged_iff]
  constructor
  · rintro ⟨m', out, code, hrun', hright⟩
    rw [hrun] at hrun'
    cases hrun'
    rw [if_pos hnull] at hright
    exact hright.2
  · intro hsame
    refine ⟨_, _, _, hrun, ?_⟩
    rw [if_pos hnull]
    exact ⟨rfl, hsame⟩

/-- A list for which there is memory. -/
theorem copiesRight_block (h : Valid m list text cells us) (hURLs : newURLs A m text ≠ NULL)
    (hparsed : newParsed A m list text ≠ NULL) :
    CopiesRight A m list cells us ↔ copyLen text ≤ cells.length ∧
      ∀ u ∈ us, ∀ t ∈ u.tokens,
        t.Survives list.URLs (newURLs A m text) cells.length (copyLen text) := by
  have hnull := not_or.mpr ⟨hURLs, hparsed⟩
  by_cases hlen : copyLen text ≤ cells.length
  · obtain ⟨m', hrun, hchars, huris⟩ := copy_URL_list_succeeds h hURLs hparsed hlen
    have hapart : (newURLs A m text).Apart (copyLen text) list.URLs cells.length :=
      (A.fresh _ _ _ hURLs _ _ (chars_eq_some.mp h.buffer)).2
    rw [and_iff_right hlen, ← forall₂_copied_iff h.reads hlen hapart]
    constructor
    · rintro ⟨m'', out, code, hrun', hright⟩
      rw [hrun] at hrun'
      cases hrun'
      rw [if_neg hnull] at hright
      obtain ⟨-, -, cells', us', hchars', huris', hcopied⟩ := hright
      rw [hchars] at hchars'
      rw [huris] at huris'
      obtain rfl := Option.some.inj hchars'
      rwa [List.map_injective_iff.mpr (Option.some_injective _) (Option.some.inj huris')]
    · intro hcopied
      refine ⟨m', _, _, hrun, ?_⟩
      rw [if_neg hnull]
      exact ⟨rfl, rfl, _, _, hchars, huris, hcopied⟩
  · have hrun : copy_URL_list A m list = none := by
      have hfrom := chars_eq_some.mpr
        (@get_withParsed A m list text _ _ (chars_eq_some.mp h.buffer))
      rw [copy_URL_list_eq h, if_neg hnull, memcpy_eq_none hfrom (not_le.mp hlen),
        Option.bind_none]
    refine iff_of_false ?_ fun h ↦ hlen h.1
    rintro ⟨m', out, code, hrun', -⟩
    rw [hrun] at hrun'
    cases hrun'

/-! ## A list of one URL -/

/-- The buffer of the list. -/
def oneText : CString := "<http://h/>".toList

/-- The URL of the list, for a buffer at `0x1000`. -/
def oneURL : URI where
  type := .ABSOLUTE
  scheme := ⟨0x1001, 4⟩
  path_type := .ABS_PATH
  pathquery := ⟨0x1009, 1⟩
  fragment := ⟨NULL, 0⟩
  hostport := ⟨⟨0x1008, 1⟩, ⟨2, 0x5000, 0x0100007F, 0⟩⟩

/-- The two blocks of the list. -/
def oneMemory : Heap Block :=
  Heap.alloc (Heap.alloc ∅ 0x1000 (.chars ((oneText ++ ['\x00']).map some))) 0x8000
    (.uris [some oneURL])

def oneList : URL_list := ⟨1, 0x1000, 0x8000⟩

theorem valid_oneList :
    Valid oneMemory oneList oneText ((oneText ++ ['\x00']).map some) [oneURL] where
  buffer := rfl
  holds := List.prefix_refl _
  noNul := by decide +kernel
  parsed := ⟨[], rfl⟩
  size := rfl
  isInt := by norm_num [oneList, intMax]
  reads u hu t ht := by
    obtain rfl := List.mem_singleton.mp hu
    rcases List.mem_cons.mp ht with rfl | ht
    · exact ⟨"http".toList, rfl, rfl⟩
    rcases List.mem_cons.mp ht with rfl | ht
    · exact ⟨"/".toList, rfl, rfl⟩
    rcases List.mem_cons.mp ht with rfl | ht
    · exact ⟨[], rfl, rfl⟩
    · obtain rfl := List.mem_singleton.mp ht
      exact ⟨"h".toList, rfl, rfl⟩

/-! ## The whole copy -/

/-- `copy_URL_list` does what it should when, and only when, the memory for the list is there or
both parts of it are refused, and every token survives. -/
theorem copy_URL_list_right_iff (A : Allocator Block) (h : Valid m list text cells us) :
    CopiesRight A m list cells us ↔ CanCopy A m list text cells us := by
  by_cases hnull : newURLs A m text = NULL ∨ newParsed A m list text = NULL
  · rw [copiesRight_null h hnull]
    constructor
    · intro htogether
      have hURLs : newURLs A m text = NULL := hnull.elim id htogether.mpr
      exact ⟨htogether, fun hne ↦ absurd hURLs hne, fun hne ↦ absurd hURLs hne⟩
    · exact CanCopy.together
  · obtain ⟨hURLs, hparsed⟩ := not_or.mp hnull
    rw [copiesRight_block h hURLs hparsed]
    constructor
    · intro hright
      exact ⟨iff_of_false hURLs hparsed, fun _ ↦ hright.1, fun _ ↦ hright.2⟩
    · intro hcan
      exact ⟨hcan.len hURLs, hcan.survive hURLs⟩

/-- The list is copied to blocks where the null pointer of the fragment is not moved into the old
buffer. -/
theorem copy_oneList_right :
    CopiesRight (.ofList [0x4000, 0x9000]) oneMemory oneList ((oneText ++ ['\x00']).map some)
      [oneURL] := by
  refine (copy_URL_list_right_iff _ valid_oneList).mpr ⟨?_, fun _ ↦ ?_, fun _ u hu ↦ ?_⟩
  · decide +kernel
  · decide +kernel
  · obtain rfl := List.mem_singleton.mp hu
    decide +kernel

/-- The block that is allocated is kept when the second call of `malloc` fails, and at `0x2000` the
null pointer of the fragment becomes the address of the old buffer. -/
theorem copy_oneList_wrong :
    Valid oneMemory oneList oneText ((oneText ++ ['\x00']).map some) [oneURL] ∧
      ¬ CopiesRight (.ofList [0x4000]) oneMemory oneList ((oneText ++ ['\x00']).map some)
        [oneURL] ∧
      ¬ CopiesRight (.ofList [0x2000, 0x9000]) oneMemory oneList
        ((oneText ++ ['\x00']).map some) [oneURL] := by
  refine ⟨valid_oneList, ?_, ?_⟩
  · rw [copiesRight_null valid_oneList (by decide +kernel)]
    decide +kernel
  · rw [copiesRight_block valid_oneList (by decide +kernel) (by decide +kernel)]
    intro hright
    have hfragment :=
      hright.2 oneURL (List.mem_singleton_self _) oneURL.fragment (by decide +kernel)
    exact absurd hfragment (by decide +kernel)

/-- The copy that got only its first block is given back. -/
theorem free_URL_list_oneList :
    ∃ m' out code m'', copy_URL_list (.ofList [0x4000]) oneMemory oneList = some (m', out, code) ∧
      free_URL_list out m' = some (m'', { out with size := 0 }) ∧
      ∀ a, m''.get a = oneMemory.get a := by
  have hsome : (copy_URL_list (.ofList [0x4000]) oneMemory oneList).isSome = true := by
    decide +kernel
  obtain ⟨⟨m', out, code⟩, hrun⟩ := Option.isSome_iff_exists.mp hsome
  obtain ⟨m'', hfree, hget⟩ := free_URL_list_copy hrun
  exact ⟨m', out, code, m'', hrun, hfree, hget⟩

end Upnp.Uri.Copy
