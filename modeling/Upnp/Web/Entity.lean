import Upnp.Lib.Buffer
import Upnp.Lib.CInt

/-!
# The entity of a message

`HttpEntity` of `parseutil.cpp`, for entities in memory.  `append` lets its block grow as it is
filled; it keeps room for a NUL behind the text, and a call that gets no memory leaves the text as
it was.
-/

namespace Upnp.Web.Reading

open Upnp.Lib

/-- `HttpEntity::EntityType`, without files. -/
inductive EntityType where
  | EMPTY
  | TEXT
  | TEXT_PTR
deriving DecidableEq

/-- `HttpEntity::AppendStateType`. -/
inductive AppendState where
  | IDLE
  | APPENDING
  | DONE
deriving DecidableEq

/-- `HttpEntity`; no block is `NULL`. -/
structure HttpEntity where
  type : EntityType
  entity : Option Buffer
  entitySize : Int
  allocLen : Int
  appendState : AppendState
  sizeInc : Nat
deriving DecidableEq

/-- What one call of `append` is answered: by `malloc`, and by `realloc` twice. -/
structure Answers where
  malloc : Bool
  first : Bool
  second : Bool
deriving DecidableEq

/-- All memory that is asked for. -/
def Answers.granted : Answers := ⟨true, true, true⟩

/-- `realloc` of a block, when it succeeds. -/
def resize (block : Option Buffer) (size : Nat) : Buffer :=
  let old := (block.getD []).take size
  old ++ Buffer.alloc (size - old.length)

namespace HttpEntity

/-- `HttpEntity::HttpEntity`. -/
def new : HttpEntity := ⟨.TEXT, none, 0, 0, .IDLE, 20⟩

/-- `appendInit`; `none` is `OutOfMemoryException`. -/
def appendInit (m : Answers) (e : HttpEntity) : Option HttpEntity :=
  if e.type = .TEXT then
    if m.malloc then some { e with entity := some (Buffer.alloc 1), appendState := .APPENDING }
    else none
  else some { e with appendState := .APPENDING }

/-- The block with `inc` bytes more, and one for the NUL. -/
def grow (e : HttpEntity) (inc : Nat) : HttpEntity :=
  { e with entity := some (resize e.entity ((e.allocLen + inc + 1) % 4294967296).toNat)
           allocLen := wrap32 (e.allocLen + inc) }

/-- `increaseSizeBy`; `none` is `OutOfMemoryException`. -/
def increaseSizeBy (m : Answers) (e : HttpEntity) (sizeDelta : Nat) : Option HttpEntity :=
  if wrap32 (e.entitySize + sizeDelta) ≤ e.allocLen then some e
  else if m.first then some (e.grow (max e.sizeInc sizeDelta))
  else if sizeDelta < e.sizeInc ∧ m.second then some (e.grow sizeDelta)
  else none

/-- A write into the block; `none` where it does not lie in one. -/
def store (e : HttpEntity) (offset : Int) (bytes : CString) : Option HttpEntity :=
  if offset < 0 then none
  else
    match e.entity with
    | none => if bytes = [] then some e else none
    | some block =>
      (Buffer.memcpy offset.toNat bytes block).map fun block ↦ { e with entity := some block }

/-- `append`, and its code; `none` where it writes outside of the block. -/
def append (m : Answers) (e : HttpEntity) (data : CString) : Option (Int × HttpEntity) :=
  match if e.appendState = .IDLE then e.appendInit m else some e with
  | none => some (-2, e)
  | some e =>
    if e.type = .TEXT then
      match e.increaseSizeBy m data.length with
      | none => some (-2, e)
      | some e => do
        let e ← e.store e.entitySize data
        let e := { e with entitySize := wrap32 (e.entitySize + data.length) }
        let e ← e.store e.entitySize ['\x00']
        return (0, e)
    else some (0, e)

/-- Calls of `append`, one after the other, with their codes. -/
def appendAll (e : HttpEntity) : List (CString × Answers) → Option (List Int × HttpEntity)
  | [] => some ([], e)
  | (data, m) :: pieces => do
    let (code, e) ← e.append m data
    let (codes, e) ← e.appendAll pieces
    return (code :: codes, e)

/-! ## The text of an entity -/

/-- The text is in the block with a NUL behind it, and `allocLen` and `entitySize` are right. -/
structure InBlock (e : HttpEntity) (text : CString) (block : Buffer) : Prop where
  entity : e.entity = some block
  appendState : e.appendState = .APPENDING
  entitySize : e.entitySize = text.length
  allocLen : e.allocLen + 1 = block.length
  fits : text.length < block.length
  prefixed : text.map some <+: block
  terminated : text = [] ∨ block[text.length]? = some (some '\x00')

/-- An entity in memory that holds the text. -/
structure HasText (e : HttpEntity) (text : CString) : Prop where
  type : e.type = .TEXT
  block : e = { new with sizeInc := e.sizeInc } ∧ text = [] ∨ ∃ block, e.InBlock text block

variable {e e' : HttpEntity} {text data : CString} {block : Buffer} {m : Answers} {n inc : Nat}

/-- A block that is made larger keeps what is in it. -/
theorem resize_eq (h : block.length ≤ n) :
    resize (some block) n = block ++ Buffer.alloc (n - block.length) := by
  rw [resize, Option.getD_some, List.take_of_length_le h]

/-- A block that grows by what is to come has room for it. -/
theorem InBlock.grow (h : e.InBlock text block) (hroom : block.length + inc < 2147483648) :
    (e.grow inc).InBlock text (block ++ Buffer.alloc inc) := by
  have halloc := h.allocLen
  have hsize : ((e.allocLen + inc + 1) % 4294967296).toNat = block.length + inc := by omega
  have hentity : (e.grow inc).entity = some (block ++ Buffer.alloc inc) := by
    rw [HttpEntity.grow, h.entity, hsize, resize_eq (Nat.le_add_right ..), Nat.add_sub_cancel_left]
  have hlength : (block ++ Buffer.alloc inc).length = block.length + inc := by
    rw [List.length_append, Buffer.length_alloc]
  have hpositive := h.fits
  refine ⟨hentity, h.appendState, h.entitySize, ?_, ?_, ?_, ?_⟩
  · have hwrap : wrap32 (e.allocLen + inc) = e.allocLen + inc :=
      wrap32_of_range (by omega) (by omega)
    show wrap32 (e.allocLen + inc) + 1 = _
    rw [hwrap, hlength]
    omega
  · rw [hlength]
    omega
  · exact h.prefixed.trans (List.prefix_append ..)
  · refine h.terminated.imp_right fun hnul ↦ ?_
    rw [List.getElem?_append_left h.fits]
    exact hnul

/-- What `increaseSizeBy` comes to. -/
inductive Increased (m : Answers) (e : HttpEntity) (n : Nat) : Option HttpEntity → Prop where
  | same (h : e.entitySize + n ≤ e.allocLen) : Increased m e n (some e)
  | grown (inc : Nat) (h : e.allocLen < e.entitySize + n) (hinc : n ≤ inc)
    (hmax : inc ≤ max e.sizeInc n) : Increased m e n (some (e.grow inc))
  | refused (h : m.first = false) : Increased m e n none

theorem increaseSizeBy_cases (h : e.InBlock text block)
    (hroom : text.length + n < 2147483648) : Increased m e n (e.increaseSizeBy m n) := by
  have hsize := h.entitySize
  have hwrap : wrap32 (e.entitySize + n) = e.entitySize + n :=
    wrap32_of_range (by omega) (by omega)
  rw [increaseSizeBy, hwrap]
  split_ifs with hfits hfirst hsecond
  · exact .same hfits
  · exact .grown _ (not_le.mp hfits) (le_max_right ..) le_rfl
  · exact .grown n (not_le.mp hfits) le_rfl (le_max_right ..)
  · exact .refused (Bool.eq_false_of_not_eq_true hfirst)

/-- The block that `increaseSizeBy` leaves has room for the text that is to come. -/
theorem InBlock.increased (h : e.InBlock text block)
    (hroom : text.length + n + max e.sizeInc n < 2147483648)
    (hincreased : Increased m e n (some e')) : ∃ block', e'.InBlock text block' ∧
      text.length + n < block'.length ∧ e'.type = e.type ∧ e'.sizeInc = e.sizeInc := by
  have hsize := h.entitySize
  have halloc := h.allocLen
  have hfits := h.fits
  cases hincreased with
  | same hle => exact ⟨block, h, by omega, rfl, rfl⟩
  | grown inc hless hinc hmax =>
    refine ⟨_, h.grow (by omega), ?_, rfl, rfl⟩
    rw [List.length_append, Buffer.length_alloc]
    omega

/-- The data goes behind the text, and a NUL behind the data. -/
theorem InBlock.store (h : e.InBlock text block) (htype : e.type = .TEXT)
    (hroom : text.length + data.length < block.length)
    (hsize : text.length + data.length < 2147483648) : ∃ e₁ e₂,
      e.store e.entitySize data = some e₁ ∧
      { e₁ with entitySize := wrap32 (e₁.entitySize + data.length) }.store
        (wrap32 (e₁.entitySize + data.length)) ['\x00'] = some e₂ ∧
      e₂.type = .TEXT ∧ e₂.sizeInc = e.sizeInc ∧ ∃ block', e₂.InBlock (text ++ data) block' := by
  obtain ⟨rest, hrest⟩ := h.prefixed
  have hlength : block.length = text.length + rest.length := by
    rw [← hrest, List.length_append, List.length_map]
  obtain ⟨c, more, hmore⟩ : ∃ c more, rest.drop data.length = c :: more := by
    refine List.exists_cons_of_length_pos ?_
    rw [List.length_drop]
    omega
  have hdata : Buffer.memcpy text.length data block =
      some (text.map some ++ data.map some ++ c :: more) := by
    have hcopy := @Buffer.memcpy_append data (text.map some) rest (by omega)
    rwa [List.length_map, hmore, hrest] at hcopy
  have hnul : Buffer.memcpy (text ++ data).length ['\x00']
      (text.map some ++ data.map some ++ c :: more) =
        some ((text ++ data).map some ++ some '\x00' :: more) := by
    have hcopy := @Buffer.memcpy_append ['\x00'] ((text ++ data).map some) (c :: more)
      (Nat.le_add_left ..)
    rw [List.length_map, List.map_append] at hcopy
    rw [hcopy, List.map_append, List.append_assoc _ _ (List.drop _ _)]
    rfl
  have hentity := h.entity
  have hentitySize := h.entitySize
  have hstate := h.appendState
  have halloc := h.allocLen
  obtain ⟨type, entity, entitySize, allocLen, appendState, sizeInc⟩ := e
  obtain rfl : entity = some block := hentity
  obtain rfl : entitySize = (text.length : Int) := hentitySize
  have hwrap : wrap32 ((text.length : Int) + data.length) = (text ++ data).length := by
    rw [List.length_append, wrap32_of_range (by omega) (by omega), Int.natCast_add]
  have hnonneg (n : Nat) : ¬ (n : Int) < 0 := not_lt.mpr (Int.natCast_nonneg n)
  refine ⟨⟨type, some (text.map some ++ data.map some ++ c :: more), text.length, allocLen,
      appendState, sizeInc⟩, ⟨type, some ((text ++ data).map some ++ some '\x00' :: more),
      (text ++ data).length, allocLen, appendState, sizeInc⟩, ?_, ?_, htype, rfl, _, rfl, hstate,
    rfl, ?_, ?_, List.prefix_append .., Or.inr ?_⟩
  · rw [HttpEntity.store, if_neg (hnonneg _)]
    simp only [Int.toNat_natCast, hdata, Option.map_some]
  · rw [HttpEntity.store]
    simp only [hwrap]
    rw [if_neg (hnonneg _)]
    simp only [Int.toNat_natCast, hnul, Option.map_some]
  · have hsum := congrArg List.length hmore
    rw [List.length_drop, List.length_cons] at hsum
    have hblock : allocLen + 1 = block.length := halloc
    show allocLen + 1 = ((_ ++ _ : Buffer).length : Int)
    rw [List.length_append, List.length_map, List.length_append, List.length_cons]
    omega
  · rw [@List.length_append _ (List.map _ _), List.length_map, List.length_cons]
    omega
  · rw [List.getElem?_append_right (by rw [List.length_map]), List.length_map, Nat.sub_self]
    rfl

/-- The block of an entity that is appended to for the first time. -/
theorem inBlock_new (e : HttpEntity) (hnew : e = { new with sizeInc := e.sizeInc }) :
    InBlock { e with entity := some (Buffer.alloc 1), appendState := .APPENDING } []
      (Buffer.alloc 1) := by
  have hsize : e.entitySize = 0 := congrArg HttpEntity.entitySize hnew
  have halloc : e.allocLen = 0 := congrArg HttpEntity.allocLen hnew
  refine ⟨rfl, rfl, hsize, ?_, Nat.one_pos, List.nil_prefix, Or.inl rfl⟩
  show e.allocLen + 1 = _
  rw [halloc]
  rfl

/-- What one call of `append` comes to. -/
structure Appended (m : Answers) (e : HttpEntity) (text data : CString) (code : Int)
    (e' : HttpEntity) : Prop where
  sizeInc : e'.sizeInc = e.sizeInc
  outcome : code = 0 ∨ code = -2 ∧ m ≠ .granted
  hasText : e'.HasText (if code = 0 then text ++ data else text)

/-- `append` writes in its block; it adds the data, or, without memory, leaves the text as it
is. -/
theorem HasText.append (h : e.HasText text) (m : Answers) (data : CString)
    (hroom : text.length + data.length + max e.sizeInc data.length < 2147483648) :
    ∃ code e', e.append m data = some (code, e') ∧ Appended m e text data code e' := by
  -- the entity with its block
  have hfrom : ∀ e₁ : HttpEntity, e₁.type = .TEXT → e₁.sizeInc = e.sizeInc →
      (∃ block, e₁.InBlock text block) →
      (if e.appendState = .IDLE then e.appendInit m else some e) = some e₁ →
      ∃ code e', e.append m data = some (code, e') ∧ Appended m e text data code e' := by
    rintro e₁ htype hinc ⟨block, hblock⟩ hinit
    have hcases := increaseSizeBy_cases (m := m) hblock (n := data.length) (by omega)
    rw [HttpEntity.append, hinit]
    simp only [htype, if_true]
    cases hincrease : e₁.increaseSizeBy m data.length with
    | none =>
      rw [hincrease] at hcases
      refine ⟨-2, e₁, rfl, hinc, Or.inr ⟨rfl, ?_⟩, htype, Or.inr ⟨block, ?_⟩⟩
      · rintro rfl
        cases hcases with
        | refused h => cases h
      · rwa [if_neg (by decide)]
    | some e₂ =>
      rw [hincrease] at hcases
      obtain ⟨block', hblock', hroom', htype', hinc'⟩ :=
        hblock.increased (by rw [hinc]; exact hroom) hcases
      obtain ⟨e₃, e₄, hdata, hnul, htype'', hinc'', block'', hblock''⟩ :=
        hblock'.store (htype'.trans htype) hroom' (by omega)
      refine ⟨0, e₄, ?_, hinc''.trans (hinc'.trans hinc), Or.inl rfl, htype'', Or.inr ⟨block'', ?_⟩⟩
      · simp only [hdata, bind, Option.bind, hnul]
        rfl
      · rwa [if_pos rfl]
  obtain ⟨htype, ⟨hnew, rfl⟩ | ⟨block, hblock⟩⟩ := h
  · have hidle : e.appendState = .IDLE := congrArg HttpEntity.appendState hnew
    by_cases hmalloc : m.malloc = true
    · refine hfrom { e with entity := some (Buffer.alloc 1), appendState := .APPENDING } htype rfl
        ⟨_, inBlock_new e hnew⟩ ?_
      rw [if_pos hidle, appendInit, if_pos htype, if_pos hmalloc]
    · refine ⟨-2, e, ?_, rfl, Or.inr ⟨rfl, ?_⟩, htype, Or.inl ⟨hnew, ?_⟩⟩
      · rw [HttpEntity.append, if_pos hidle, appendInit, if_pos htype, if_neg hmalloc]
      · rintro rfl
        exact hmalloc rfl
      · exact if_neg (by decide)
  · refine hfrom e htype rfl ⟨block, hblock⟩ (if_neg ?_)
    rw [hblock.appendState]
    decide

/-- The data of the calls that returned `0`, one behind the other. -/
def kept : List (CString × Answers) → List Int → CString
  | (data, _) :: pieces, code :: codes => (if code = 0 then data else []) ++ kept pieces codes
  | _, _ => []

/-- The sum of the lengths of the data. -/
def totalLength (pieces : List (CString × Answers)) : Nat :=
  (pieces.map fun p ↦ p.1.length).sum

/-- Calls of `append` to an entity that holds a text. -/
theorem HasText.appendAll {pieces : List (CString × Answers)} {k : Nat} (h : e.HasText text)
    (hinc : e.sizeInc ≤ k) (hk : ∀ p ∈ pieces, p.1.length ≤ k)
    (hroom : text.length + totalLength pieces + k < 2147483648) :
    ∃ codes e', e.appendAll pieces = some (codes, e') ∧ codes.length = pieces.length ∧
      (∀ p ∈ pieces.zip codes, p.2 = 0 ∨ p.2 = -2 ∧ p.1.2 ≠ .granted) ∧
      e'.HasText (text ++ kept pieces codes) := by
  induction pieces generalizing e text with
  | nil =>
    refine ⟨[], e, rfl, rfl, (fun p hp ↦ by cases hp), ?_⟩
    have hnil : text ++ kept [] [] = text := List.append_nil text
    rwa [hnil]
  | cons p pieces ih =>
    obtain ⟨data, m⟩ := p
    have htotal : totalLength ((data, m) :: pieces) = data.length + totalLength pieces := by
      rw [totalLength, List.map_cons, List.sum_cons, totalLength]
    rw [htotal] at hroom
    have hdata := hk _ (List.mem_cons_self ..)
    dsimp only at hdata
    obtain ⟨code, e₁, happend, happended⟩ := h.append m data (by omega)
    obtain ⟨codes, e₂, hall, hlength, hcodes, htext⟩ := ih happended.hasText
      (happended.sizeInc ▸ hinc) (fun p hp ↦ hk p (List.mem_cons_of_mem _ hp)) (by
        split_ifs
        · rw [List.length_append]
          omega
        · omega)
    refine ⟨code :: codes, e₂, ?_, ?_, ?_, ?_⟩
    · rw [HttpEntity.appendAll, happend]
      simp only [bind, Option.bind, hall]
      rfl
    · rw [List.length_cons, List.length_cons, hlength]
    · rw [List.zip_cons_cons]
      intro q hq
      rcases List.mem_cons.mp hq with rfl | hq
      · exact happended.outcome
      · exact hcodes q hq
    · rw [kept]
      split_ifs at htext ⊢ with hcode
      · rwa [List.append_assoc] at htext
      · exact htext

theorem hasText_new : new.HasText [] := ⟨rfl, Or.inl ⟨rfl, rfl⟩⟩

/-- **Whatever is appended to a new entity, in pieces of at most `k` bytes, and whichever calls get
no memory**: no write is outside of the block, a call fails only when it is refused memory, and the
entity holds, with a NUL behind it, the data of the calls that did not fail. -/
theorem appended_text {pieces : List (CString × Answers)} {k : Nat} (hinc : 20 ≤ k)
    (hk : ∀ p ∈ pieces, p.1.length ≤ k) (hroom : totalLength pieces + k < 2147483648) :
    ∃ codes e, new.appendAll pieces = some (codes, e) ∧ codes.length = pieces.length ∧
      (∀ p ∈ pieces.zip codes, p.2 = 0 ∨ p.2 = -2 ∧ p.1.2 ≠ .granted) ∧
      e.HasText (kept pieces codes) :=
  hasText_new.appendAll hinc hk (by rwa [List.length_nil, Nat.zero_add])

/-- The second of three calls needs a block that it does not get. -/
theorem appended_text_refused : ∃ codes e,
    new.appendAll [("ab".toList, .granted), (List.replicate 30 'x', ⟨true, false, true⟩),
      ("c".toList, .granted)] = some (codes, e) ∧ codes.length = 3 ∧
      (∀ p ∈ [("ab".toList, Answers.granted), (List.replicate 30 'x', ⟨true, false, true⟩),
        ("c".toList, .granted)].zip codes, p.2 = 0 ∨ p.2 = -2 ∧ p.1.2 ≠ .granted) ∧
      e.HasText (kept [("ab".toList, .granted), (List.replicate 30 'x', ⟨true, false, true⟩),
        ("c".toList, .granted)] codes) :=
  @appended_text [("ab".toList, .granted), (List.replicate 30 'x', ⟨true, false, true⟩),
    ("c".toList, .granted)] 30 (by decide) (by decide) (by decide)

end HttpEntity

end Upnp.Web.Reading
