import Upnp.Lib.Buffer
import Upnp.Lib.CInt

/-!
# Strings with a buffer

`xstring`.  Where an operation gets memory, the answers of `malloc` and `realloc` are given to it,
in order.  The result of an operation is `none` where it reads or writes outside of the memory that
it owns, copies memory onto itself, or uses memory that was freed.
-/

namespace Upnp.Util

open Upnp.Lib

/-- The answers to the calls of `malloc` and `realloc` within an operation. -/
abbrev Grants := Nat → Bool

/-- What a `char*` from `malloc` points to. -/
inductive Buf where
  | NULL
  | freed
  | block (cells : Buffer)
deriving DecidableEq, Repr

namespace Buf

/-- The size in bytes that is asked for a length, `length + 1` as an `int`. -/
def bytesFor (length : Int) : Nat := (wrap32 (length + 1) % 18446744073709551616).toNat

/-- `malloc`, when it succeeds. -/
def malloc (size : Nat) : Buf := .block (Buffer.alloc size)

/-- `realloc`, when it succeeds. -/
def realloc (size : Nat) : Buf → Option Buf
  | NULL => some (malloc size)
  | freed => none
  | block cells => some (.block (cells.take size ++ Buffer.alloc (size - cells.length)))

/-- `free`. -/
def free : Buf → Option Buf
  | NULL => some NULL
  | freed => none
  | block _ => some freed

/-- `memcpy` from elsewhere to an offset of the buffer. -/
def write (offset : Int) (bytes : CString) : Buf → Option Buf
  | block cells => if offset < 0 then none
    else (Buffer.memcpy offset.toNat bytes cells).map block
  | buf => if bytes = [] then some buf else none

/-- `memmove` within the buffer. -/
def memmove (dst src n : Int) : Buf → Option Buf
  | block cells =>
    if 0 ≤ dst ∧ 0 ≤ src ∧ 0 ≤ n ∧ dst + n ≤ cells.length ∧ src + n ≤ cells.length then
      some (block (cells.take dst.toNat ++ (cells.drop src.toNat).take n.toNat ++
        cells.drop (dst + n).toNat))
    else none
  | _ => none

/-- `memcpy` within the buffer, which must not overlap. -/
def memcpy (dst src n : Int) (buf : Buf) : Option Buf :=
  if dst + n ≤ src ∨ src + n ≤ dst then memmove dst src n buf else none

/-- The string that starts with some cells. -/
def stringAt : Buffer → Option CString
  | [] | none :: _ => none
  | some c :: cells => if c = '\x00' then some [] else (stringAt cells).map (c :: ·)

/-- The string at an offset of the buffer. -/
def string (offset : Int) : Buf → Option CString
  | block cells => if offset < 0 then none else stringAt (cells.drop offset.toNat)
  | _ => none

end Buf

/-- The characters that `memcpy` reads of another string. -/
def copied (s : CString) (n : Int) : Option CString :=
  if 0 ≤ n ∧ n ≤ s.length then some (s.take n.toNat) else none

/-- `xstring`, with `sizeIncrement` as it is by default. -/
structure xstring where
  buf : Buf
  len : Int
  bufLen : Int
deriving DecidableEq, Repr

def DEFAULT_SIZE_INCREMENT : Int := 5

/-- What an operation returns or throws. -/
inductive Value where
  | void
  | index (i : Int)
  | text (s : Buf)
  | string (s : xstring)
  | OutOfMemoryException
  | OutOfBoundsException
deriving DecidableEq, Repr

namespace xstring

/-- `setBufSize`, and whether it returns: it throws otherwise. -/
def setBufSize (grants : Grants) (x : xstring) (newLen : Int) : Option (Bool × xstring) :=
  if newLen ≤ x.bufLen then some (true, x)
  else
    let larger := wrap32 (x.bufLen + DEFAULT_SIZE_INCREMENT)
    let allocLen := max newLen larger
    if grants 0 then
      (x.buf.realloc (Buf.bytesFor allocLen)).map fun temp ↦
        (true, { x with bufLen := allocLen, buf := temp })
    -- the smaller size, of which `bufLen` does not know
    else if newLen < larger ∧ grants 1 then
      (x.buf.realloc (Buf.bytesFor newLen)).map fun temp ↦
        (true, { x with bufLen := allocLen, buf := temp })
    else some (false, x)

/-- `setBufferSizeAssign`, and whether it returns. -/
def setBufferSizeAssign (grants : Grants) (x : xstring) (newSize : Int) :
    Option (Bool × xstring) :=
  if newSize < 0 then none
  else
    let diff := x.bufLen - newSize
    if x.buf ≠ .NULL ∧ 0 ≤ diff ∧ diff < DEFAULT_SIZE_INCREMENT then some (true, x)
    else
      x.buf.free.map fun _ ↦
        let allocLen := max newSize DEFAULT_SIZE_INCREMENT
        if grants 0 then
          (true, { x with bufLen := allocLen, buf := Buf.malloc (Buf.bytesFor allocLen) })
        else if newSize < DEFAULT_SIZE_INCREMENT ∧ grants 1 then
          (true, { x with bufLen := newSize, buf := Buf.malloc (Buf.bytesFor newSize) })
        else (false, { x with bufLen := 0, buf := .NULL })

/-- `trimBuffer( true )`, and whether it returns.  What `realloc` was given is lost when it
fails. -/
def trimBuffer (grants : Grants) (x : xstring) : Option (Bool × xstring) :=
  if x.bufLen - x.len ≤ DEFAULT_SIZE_INCREMENT then some (true, x)
  else
    let bufLen := x.len + DEFAULT_SIZE_INCREMENT
    if grants 0 then
      (x.buf.realloc (Buf.bytesFor bufLen)).map fun buf ↦
        (true, { x with bufLen := bufLen, buf := buf })
    else some (false, { x with bufLen := bufLen, buf := .NULL })

/-- `doCopy`, of a string that is not the buffer. -/
def doCopy (grants : Grants) (x : xstring) (s : CString) (slength : Int) :
    Option (Value × xstring) := do
  let (returns, x) ← setBufferSizeAssign grants x slength
  if returns then
    let bytes ← copied s slength
    let buf ← x.buf.write 0 bytes
    let buf ← buf.write slength ['\x00']
    some (.void, { x with buf := buf, len := slength })
  else some (.OutOfMemoryException, x)

/-- `doAdd`. -/
def doAdd (grants : Grants) (x : xstring) (s : CString) (slength : Int) :
    Option (Value × xstring) := do
  let (returns, x) ← setBufSize grants x (wrap32 (x.len + slength))
  if returns then
    let bytes ← copied s slength
    let buf ← x.buf.write x.len bytes
    let len := wrap32 (x.len + slength)
    let buf ← buf.write len ['\x00']
    some (.void, { x with buf := buf, len := len })
  else some (.OutOfMemoryException, x)

/-- `strlen`, as an `int`. -/
def strlen (s : CString) : Int := wrap32 s.length

/-- `operator =`. -/
def assign (grants : Grants) (x : xstring) (s : CString) : Option (Value × xstring) :=
  doCopy grants x s (strlen s)

/-- `operator +=`. -/
def append (grants : Grants) (x : xstring) (s : CString) : Option (Value × xstring) :=
  doAdd grants x s (strlen s)

/-- `appendLimited`. -/
def appendLimited (grants : Grants) (x : xstring) (s : CString) (maxLen : Int) :
    Option (Value × xstring) :=
  if maxLen ≤ 0 then some (.void, x)
  else
    let slen := strlen s
    doAdd grants x s (if slen < maxLen then slen else maxLen)

/-- `copyLimited`. -/
def copyLimited (grants : Grants) (x : xstring) (s : CString) (maxLen : Int) :
    Option (Value × xstring) :=
  if maxLen < 0 then some (.void, x)
  else
    let slen := strlen s
    doCopy grants x s (if slen < maxLen then slen else maxLen)

/-- `xstring()`. -/
def new (grants : Grants) : Option (Value × xstring) := doCopy grants ⟨.NULL, 0, 0⟩ [] 0

/-- `substring`. -/
def substring (grants : Grants) (x : xstring) (startIndex numChars : Int) :
    Option (Value × xstring) :=
  if startIndex < 0 ∨ x.len ≤ startIndex ∨ numChars < 0 then some (.OutOfBoundsException, x)
  else do
    let (value, s) ← new grants
    if value = .void then
      let text ← x.buf.string startIndex
      let (value, s) ← s.copyLimited (fun i ↦ grants (i + 2)) text numChars
      some (if value = .void then .string s else value, x)
    else some (value, x)

/-- `insert`. -/
def insert (grants : Grants) (x : xstring) (s : CString) (index : Int) :
    Option (Value × xstring) :=
  if index < 0 ∨ x.len < index then some (.OutOfBoundsException, x)
  else
    let slength := strlen s
    if slength ≤ 0 then some (.void, x)
    else do
      let newLen := wrap32 (x.len + slength)
      let (returns, x) ← setBufSize grants x newLen
      if returns then
        let buf ← x.buf.memmove (index + slength) index (x.len - index + 1)
        let bytes ← copied s slength
        let buf ← buf.write index bytes
        some (.void, { x with buf := buf, len := newLen })
      else some (.OutOfMemoryException, x)

/-- `deleteSubstring`. -/
def deleteSubstring (grants : Grants) (x : xstring) (startIndex numChars : Int) :
    Option (Value × xstring) :=
  if numChars = 0 then some (.void, x)
  else if startIndex < 0 ∨ x.len ≤ startIndex ∨ numChars < 0 then some (.OutOfBoundsException, x)
  else do
    let numChars := if x.len < wrap32 (startIndex + numChars) then x.len - startIndex else numChars
    let endLen := x.len - startIndex - numChars
    let buf ← x.buf.memcpy startIndex (startIndex + numChars) (endLen + 1)
    let (returns, x) ← trimBuffer grants { x with buf := buf, len := x.len - numChars }
    some (if returns then .void else .OutOfMemoryException, x)

/-- The index of a pointer into the string at `startIndex`, which `text` is. -/
def indexOf (startIndex : Int) (text found : CString) : Int :=
  startIndex + (text.length - found.length)

/-- `find`. -/
def find (x : xstring) (c : Char) (startIndex : Int) : Option (Value × xstring) :=
  if startIndex < 0 ∨ x.len < startIndex then some (.OutOfBoundsException, x)
  else do
    let text ← x.buf.string startIndex
    some (.index (match strchr text c with
      | none => -1
      | some s => wrap32 (indexOf startIndex text s)), x)

/-- `findStr`: the difference is that of the buffer to what was found. -/
def findStr (x : xstring) (s : CString) (startIndex : Int) : Option (Value × xstring) :=
  if startIndex < 0 ∨ x.len < startIndex then some (.OutOfBoundsException, x)
  else do
    let text ← x.buf.string startIndex
    some (.index (match strstr text s with
      | none => -1
      | some str => wrap32 (-(indexOf startIndex text str))), x)

/-- `detach`. -/
def detach (grants : Grants) (x : xstring) : Option (Value × xstring) := do
  let s := x.buf
  let (value, x) ← doCopy grants ⟨.NULL, 0, 0⟩ [] 0
  some (if value = .void then .text s else value, x)

/-- `attach`, of a `NULL` or of a string with some cells behind its NUL. -/
def attach (grants : Grants) (x : xstring) : Option (CString × Nat) → Option (Value × xstring)
  | none => do
    let buf ← x.buf.free
    -- the pointer to what was freed is still there, and is no `NULL`
    doCopy grants ⟨buf, 0, 0⟩ [] 0
  | some (s, more) => do
    let _ ← x.buf.free
    some (.void, ⟨.block ((s ++ ['\x00']).map some ++ Buffer.alloc more), strlen s, strlen s⟩)

end xstring

end Upnp.Util
