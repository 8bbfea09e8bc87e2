import Upnp.Lib.CInt

/-!
# Memory buffers

`membuffer.c`, built with its assertions off.  The memory of a buffer is a list of
bytes, and `none` is a look or a write outside of it, through a `NULL` or behind
`capacity + 1` bytes.
-/

namespace Upnp.Util

open Upnp.Lib

def UPNP_E_OUTOF_MEMORY : Int := -104
def UPNP_E_OUTOF_BOUNDS : Int := -506
def MEMBUF_DEF_SIZE_INC : Nat := 5

/-- Conversion to `size_t`. -/
def size_t (n : Int) : Nat := (n % 18446744073709551616).toNat

/-- What `realloc` answers to the calls of one operation: to the first one, to the second one, and
the bytes of the memory that is new. -/
structure Allocator where
  first : Bool
  second : Bool
  fresh : Nat → UInt8

/-- `realloc`, when it succeeds. -/
def realloc (mem : Allocator) (buf : Option (List UInt8)) (size : Nat) : List UInt8 :=
  let old := (buf.getD []).take size
  old ++ (List.range (size - old.length)).map mem.fresh

/-- `membuffer`. -/
structure membuffer where
  buf : Option (List UInt8)
  length : Nat
  capacity : Nat
  size_inc : Nat
deriving DecidableEq

/-- The bytes of a memory with some of them written over. -/
def overwrite (buf : List UInt8) (pos : Nat) (bytes : List UInt8) : List UInt8 :=
  buf.take pos ++ bytes ++ buf.drop (pos + bytes.length)

namespace membuffer

/-- `memcpy` and `memmove` to an offset of the buffer. -/
def write (m : membuffer) (pos : Nat) (bytes : List UInt8) : Option membuffer :=
  match m.buf with
  | none => if bytes = [] then some m else none
  | some buf =>
    if pos + bytes.length ≤ m.capacity + 1 ∧ pos + bytes.length ≤ buf.length then
      some { m with buf := some (overwrite buf pos bytes) }
    else none

/-- What `memmove` reads of the buffer. -/
def read (m : membuffer) (pos n : Nat) : Option (List UInt8) :=
  match m.buf with
  | none => if n = 0 then some [] else none
  | some buf => if pos + n ≤ buf.length then some ((buf.drop pos).take n) else none

end membuffer

/-! ## The functions -/

/-- `membuffer_initialize`. -/
def membuffer_initialize (m : membuffer) : membuffer :=
  { m with buf := none, length := 0, capacity := 0 }

/-- The length that `membuffer_set_size` first asks for, if the memory is not right already. -/
def alloc_len (m : membuffer) (new_length : Nat) : Option Nat :=
  if m.length ≤ new_length then
    if new_length ≤ m.capacity then none
    else some (size_t (max m.size_inc (new_length - m.length) + m.capacity))
  else if size_t (m.capacity - new_length) ≤ m.size_inc then none
  else some (size_t (new_length + m.size_inc))

/-- `membuffer_set_size`. -/
def membuffer_set_size (mem : Allocator) (m : membuffer) (new_length : Nat) : Int × membuffer :=
  match alloc_len m new_length with
  | none => (0, m)
  | some alloc_len =>
    if mem.first then
      (0, { m with buf := some (realloc mem m.buf (size_t (alloc_len + 1))), capacity := alloc_len })
    else if mem.second then
      (0, { m with buf := some (realloc mem m.buf (size_t (new_length + 1))), capacity := new_length })
    else (UPNP_E_OUTOF_MEMORY, m)

/-- `membuffer_init`. -/
def membuffer_init (m : membuffer) : membuffer :=
  membuffer_initialize { m with size_inc := MEMBUF_DEF_SIZE_INC }

/-- `membuffer_destroy`. -/
def membuffer_destroy (m : membuffer) : membuffer := membuffer_init m

/-- `membuffer_assign`; `none` for `buf` is `NULL`. -/
def membuffer_assign (mem : Allocator) (m : membuffer) (buf : Option (List UInt8)) :
    Option (Int × membuffer) :=
  match buf with
  | none => some (0, membuffer_destroy m)
  | some bytes => do
    let (return_code, m) := membuffer_set_size mem m bytes.length
    if return_code ≠ 0 then some (return_code, m)
    else
      let m ← m.write 0 bytes
      let m ← m.write bytes.length [0]
      some (0, { m with length := bytes.length })

/-- The part of `membuffer_insert` behind the allocation. -/
def insertData (m : membuffer) (bytes : List UInt8) (index : Nat) : Option membuffer := do
  let right ← m.read index (size_t (m.length - index))
  let m ← m.write (size_t (index + bytes.length)) right
  let m ← m.write index bytes
  let m := { m with length := size_t (m.length + bytes.length) }
  m.write m.length [0]

/-- `membuffer_insert`. -/
def membuffer_insert (mem : Allocator) (m : membuffer) (buf : Option (List UInt8)) (index : Int) :
    Option (Int × membuffer) :=
  if index < 0 ∨ wrap32 m.length < index then some (UPNP_E_OUTOF_BOUNDS, m)
  else
    match buf with
    | none => some (0, m)
    | some bytes =>
      if bytes.length = 0 then some (0, m)
      else
        let (return_code, m) := membuffer_set_size mem m (size_t (m.length + bytes.length))
        if return_code ≠ 0 then some (return_code, m)
        else (insertData m bytes (size_t index)).map (0, ·)

/-- `membuffer_append`. -/
def membuffer_append (mem : Allocator) (m : membuffer) (buf : Option (List UInt8)) :
    Option (Int × membuffer) :=
  membuffer_insert mem m buf (wrap32 m.length)

/-- `membuffer_append_str`; the string ends at its first NUL. -/
def membuffer_append_str (mem : Allocator) (m : membuffer) (c_str : List UInt8) :
    Option (Int × membuffer) :=
  membuffer_insert mem m (some (c_str.takeWhile (· ≠ 0))) (wrap32 m.length)

/-- The part of `membuffer_delete` behind the computation of `num_bytes` and `copy_len`. -/
def deleteData (mem : Allocator) (m : membuffer) (index num_bytes copy_len : Nat) :
    Option membuffer := do
  let right ← m.read (size_t (index + num_bytes)) copy_len
  let m ← m.write index right
  let new_length := size_t (wrap32 (size_t (m.length - num_bytes)))
  { (membuffer_set_size mem m new_length).2 with length := new_length }.write new_length [0]

/-- `membuffer_delete`. -/
def membuffer_delete (mem : Allocator) (m : membuffer) (index : Int) (num_bytes : Nat) :
    Option membuffer :=
  if m.length = 0 then some m
  else if m.length < size_t (index + num_bytes) then
    deleteData mem m (size_t index) (size_t (m.length - size_t index)) 0
  else
    deleteData mem m (size_t index) num_bytes (size_t (m.length - size_t (index + num_bytes)))

/-- `membuffer_detach`, without what it returns. -/
def membuffer_detach (m : membuffer) : membuffer := membuffer_initialize m

/-- `membuffer_attach`. -/
def membuffer_attach (m : membuffer) (new_buf : Option (List UInt8)) (buf_len : Nat) : membuffer :=
  { membuffer_destroy m with buf := new_buf, length := buf_len, capacity := buf_len }

end Upnp.Util
