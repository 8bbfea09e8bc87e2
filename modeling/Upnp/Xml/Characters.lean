import Mathlib.Data.Nat.Bitwise
import Mathlib.Data.List.TakeDrop
import Upnp.Lib.CString

/-!
# The characters of a document

The functions of `Parser.cpp` on characters: which of them XML allows, and in names; `toutf8`,
`toint`, `get_char` and `copy_token`.  The characters of a C string are bytes here.
-/

namespace Upnp.Xml

open Upnp.Lib

/-- `n_tbl`. -/
def nTbl : List (Nat × Nat) := [
  (0x003A, 0x003A), (0x0041, 0x005A), (0x005F, 0x005F), (0x0061, 0x007A), (0x00C0, 0x00D6),
  (0x00D8, 0x00F6), (0x00F8, 0x00FF), (0x0100, 0x0131), (0x0134, 0x013E), (0x0141, 0x0148),
  (0x014A, 0x017E), (0x0180, 0x01C3), (0x01CD, 0x01F0), (0x01F4, 0x01F5), (0x01FA, 0x0217),
  (0x0250, 0x02A8), (0x02BB, 0x02C1), (0x0386, 0x0386), (0x0388, 0x038A), (0x038C, 0x038C),
  (0x038E, 0x03A1), (0x03A3, 0x03CE), (0x03D0, 0x03D6), (0x03DA, 0x03DA), (0x03DC, 0x03DC),
  (0x03DE, 0x03DE), (0x03E0, 0x03E0), (0x03E2, 0x03F3), (0x0401, 0x040C), (0x040E, 0x044F),
  (0x0451, 0x045C), (0x045E, 0x0481), (0x0490, 0x04C4), (0x04C7, 0x04C8), (0x04CB, 0x04CC),
  (0x04D0, 0x04EB), (0x04EE, 0x04F5), (0x04F8, 0x04F9), (0x0531, 0x0556), (0x0559, 0x0559),
  (0x0561, 0x0586), (0x05D0, 0x05EA), (0x05F0, 0x05F2), (0x0621, 0x063A), (0x0641, 0x064A),
  (0x0671, 0x06B7), (0x06BA, 0x06BE), (0x06C0, 0x06CE), (0x06D0, 0x06D3), (0x06D5, 0x06D5),
  (0x06E5, 0x06E6), (0x0905, 0x0939), (0x093D, 0x093D), (0x0958, 0x0961), (0x0985, 0x098C),
  (0x098F, 0x0990), (0x0993, 0x09A8), (0x09AA, 0x09B0), (0x09B2, 0x09B2), (0x09B6, 0x09B9),
  (0x09DC, 0x09DD), (0x09DF, 0x09E1), (0x09F0, 0x09F1), (0x0A05, 0x0A0A), (0x0A0F, 0x0A10),
  (0x0A13, 0x0A28), (0x0A2A, 0x0A30), (0x0A32, 0x0A33), (0x0A35, 0x0A36), (0x0A38, 0x0A39),
  (0x0A59, 0x0A5C), (0x0A5E, 0x0A5E), (0x0A72, 0x0A74), (0x0A85, 0x0A8B), (0x0A8D, 0x0A8D),
  (0x0A8F, 0x0A91), (0x0A93, 0x0AA8), (0x0AAA, 0x0AB0), (0x0AB2, 0x0AB3), (0x0AB5, 0x0AB9),
  (0x0ABD, 0x0ABD), (0x0AE0, 0x0AE0), (0x0B05, 0x0B0C), (0x0B0F, 0x0B10), (0x0B13, 0x0B28),
  (0x0B2A, 0x0B30), (0x0B32, 0x0B33), (0x0B36, 0x0B39), (0x0B3D, 0x0B3D), (0x0B5C, 0x0B5D),
  (0x0B5F, 0x0B61), (0x0B85, 0x0B8A), (0x0B8E, 0x0B90), (0x0B92, 0x0B95), (0x0B99, 0x0B9A),
  (0x0B9C, 0x0B9C), (0x0B9E, 0x0B9F), (0x0BA3, 0x0BA4), (0x0BA8, 0x0BAA), (0x0BAE, 0x0BB5),
  (0x0BB7, 0x0BB9), (0x0C05, 0x0C0C), (0x0C0E, 0x0C10), (0x0C12, 0x0C28), (0x0C2A, 0x0C33),
  (0x0C35, 0x0C39), (0x0C60, 0x0C61), (0x0C85, 0x0C8C), (0x0C8E, 0x0C90), (0x0C92, 0x0CA8),
  (0x0CAA, 0x0CB3), (0x0CB5, 0x0CB9), (0x0CDE, 0x0CDE), (0x0CE0, 0x0CE1), (0x0D05, 0x0D0C),
  (0x0D0E, 0x0D10), (0x0D12, 0x0D28), (0x0D2A, 0x0D39), (0x0D60, 0x0D61), (0x0E01, 0x0E2E),
  (0x0E30, 0x0E30), (0x0E32, 0x0E33), (0x0E40, 0x0E45), (0x0E81, 0x0E82), (0x0E84, 0x0E84),
  (0x0E87, 0x0E88), (0x0E8A, 0x0E8A), (0x0E8D, 0x0E8D), (0x0E94, 0x0E97), (0x0E99, 0x0E9F),
  (0x0EA1, 0x0EA3), (0x0EA5, 0x0EA5), (0x0EA7, 0x0EA7), (0x0EAA, 0x0EAB), (0x0EAD, 0x0EAE),
  (0x0EB0, 0x0EB0), (0x0EB2, 0x0EB3), (0x0EBD, 0x0EBD), (0x0EC0, 0x0EC4), (0x0F40, 0x0F47),
  (0x0F49, 0x0F69), (0x10A0, 0x10C5), (0x10D0, 0x10F6), (0x1100, 0x1100), (0x1102, 0x1103),
  (0x1105, 0x1107), (0x1109, 0x1109), (0x110B, 0x110C), (0x110E, 0x1112), (0x113C, 0x113C),
  (0x113E, 0x113E), (0x1140, 0x1140), (0x114C, 0x114C), (0x114E, 0x114E), (0x1150, 0x1150),
  (0x1154, 0x1155), (0x1159, 0x1159), (0x115F, 0x1161), (0x1163, 0x1163), (0x1165, 0x1165),
  (0x1167, 0x1167), (0x1169, 0x1169), (0x116D, 0x116E), (0x1172, 0x1173), (0x1175, 0x1175),
  (0x119E, 0x119E), (0x11A8, 0x11A8), (0x11AB, 0x11AB), (0x11AE, 0x11AF), (0x11B7, 0x11B8),
  (0x11BA, 0x11BA), (0x11BC, 0x11C2), (0x11EB, 0x11EB), (0x11F0, 0x11F0), (0x11F9, 0x11F9),
  (0x1E00, 0x1E9B), (0x1EA0, 0x1EF9), (0x1F00, 0x1F15), (0x1F18, 0x1F1D), (0x1F20, 0x1F45),
  (0x1F48, 0x1F4D), (0x1F50, 0x1F57), (0x1F59, 0x1F59), (0x1F5B, 0x1F5B), (0x1F5D, 0x1F5D),
  (0x1F5F, 0x1F7D), (0x1F80, 0x1FB4), (0x1FB6, 0x1FBC), (0x1FBE, 0x1FBE), (0x1FC2, 0x1FC4),
  (0x1FC6, 0x1FCC), (0x1FD0, 0x1FD3), (0x1FD6, 0x1FDB), (0x1FE0, 0x1FEC), (0x1FF2, 0x1FF4),
  (0x1FF6, 0x1FFC), (0x2126, 0x2126), (0x212A, 0x212B), (0x212E, 0x212E), (0x2180, 0x2182),
  (0x3007, 0x3007), (0x3021, 0x3029), (0x3041, 0x3094), (0x30A1, 0x30FA), (0x3105, 0x312C),
  (0x4E00, 0x9FA5), (0xAC00, 0xD7A3)]

/-- `nch_tbl`. -/
def nchTbl : List (Nat × Nat) := [
  (0x002D, 0x002D), (0x002E, 0x002E), (0x0030, 0x0039), (0x00B7, 0x00B7), (0x02D0, 0x02D0),
  (0x02D1, 0x02D1), (0x0300, 0x0345), (0x0360, 0x0361), (0x0387, 0x0387), (0x0483, 0x0486),
  (0x0591, 0x05A1), (0x05A3, 0x05B9), (0x05BB, 0x05BD), (0x05BF, 0x05BF), (0x05C1, 0x05C2),
  (0x05C4, 0x05C4), (0x0640, 0x0640), (0x064B, 0x0652), (0x0660, 0x0669), (0x0670, 0x0670),
  (0x06D6, 0x06DC), (0x06DD, 0x06DF), (0x06E0, 0x06E4), (0x06E7, 0x06E8), (0x06EA, 0x06ED),
  (0x06F0, 0x06F9), (0x0901, 0x0903), (0x093C, 0x093C), (0x093E, 0x094C), (0x094D, 0x094D),
  (0x0951, 0x0954), (0x0962, 0x0963), (0x0966, 0x096F), (0x0981, 0x0983), (0x09BC, 0x09BC),
  (0x09BE, 0x09BE), (0x09BF, 0x09BF), (0x09C0, 0x09C4), (0x09C7, 0x09C8), (0x09CB, 0x09CD),
  (0x09D7, 0x09D7), (0x09E2, 0x09E3), (0x09E6, 0x09EF), (0x0A02, 0x0A02), (0x0A3C, 0x0A3C),
  (0x0A3E, 0x0A3E), (0x0A3F, 0x0A3F), (0x0A40, 0x0A42), (0x0A47, 0x0A48), (0x0A4B, 0x0A4D),
  (0x0A66, 0x0A6F), (0x0A70, 0x0A71), (0x0A81, 0x0A83), (0x0ABC, 0x0ABC), (0x0ABE, 0x0AC5),
  (0x0AC7, 0x0AC9), (0x0ACB, 0x0ACD), (0x0AE6, 0x0AEF), (0x0B01, 0x0B03), (0x0B3C, 0x0B3C),
  (0x0B3E, 0x0B43), (0x0B47, 0x0B48), (0x0B4B, 0x0B4D), (0x0B56, 0x0B57), (0x0B66, 0x0B6F),
  (0x0B82, 0x0B83), (0x0BBE, 0x0BC2), (0x0BC6, 0x0BC8), (0x0BCA, 0x0BCD), (0x0BD7, 0x0BD7),
  (0x0BE7, 0x0BEF), (0x0C01, 0x0C03), (0x0C3E, 0x0C44), (0x0C46, 0x0C48), (0x0C4A, 0x0C4D),
  (0x0C55, 0x0C56), (0x0C66, 0x0C6F), (0x0C82, 0x0C83), (0x0CBE, 0x0CC4), (0x0CC6, 0x0CC8),
  (0x0CCA, 0x0CCD), (0x0CD5, 0x0CD6), (0x0CE6, 0x0CEF), (0x0D02, 0x0D03), (0x0D3E, 0x0D43),
  (0x0D46, 0x0D48), (0x0D4A, 0x0D4D), (0x0D57, 0x0D57), (0x0D66, 0x0D6F), (0x0E31, 0x0E31),
  (0x0E34, 0x0E3A), (0x0E46, 0x0E46), (0x0E47, 0x0E4E), (0x0E50, 0x0E59), (0x0EB1, 0x0EB1),
  (0x0EB4, 0x0EB9), (0x0EBB, 0x0EBC), (0x0EC6, 0x0EC6), (0x0EC8, 0x0ECD), (0x0ED0, 0x0ED9),
  (0x0F18, 0x0F19), (0x0F20, 0x0F29), (0x0F35, 0x0F35), (0x0F37, 0x0F37), (0x0F39, 0x0F39),
  (0x0F3E, 0x0F3E), (0x0F3F, 0x0F3F), (0x0F71, 0x0F84), (0x0F86, 0x0F8B), (0x0F90, 0x0F95),
  (0x0F97, 0x0F97), (0x0F99, 0x0FAD), (0x0FB1, 0x0FB7), (0x0FB9, 0x0FB9), (0x20D0, 0x20DC),
  (0x20E1, 0x20E1), (0x3005, 0x3005), (0x302A, 0x302F), (0x3031, 0x3035), (0x3099, 0x3099),
  (0x309A, 0x309A), (0x309D, 0x309E), (0x30FC, 0x30FE)]

/-- `intbl`; `b` is one past the last row that is left. -/
def intblFrom (c : Nat) (tbl : List (Nat × Nat)) : Nat → Nat → Nat → Bool
  | 0, _, _ => false
  | fuel + 1, t, b =>
    if t < b then
      let m := (t + (b - 1)) / 2
      match tbl[m]? with
      | none => false
      | some (l, h) =>
        if c < l then intblFrom c tbl fuel t m
        else if c > h then intblFrom c tbl fuel (m + 1) b
        else true
    else false

def intbl (c : Nat) (tbl : List (Nat × Nat)) : Bool := intblFrom c tbl tbl.length 0 tbl.length

/-- `isxmlch`. -/
def isxmlch (c : Int) : Bool :=
  (c ≥ 0x20 && c ≤ 0xD7FF) || c = 0x9 || c = 0xA || c = 0xD || (c ≥ 0xE000 && c ≤ 0xFFFD) ||
    (c ≥ 0x10000 && c ≤ 0x10FFFF)

/-- `isnamech`. -/
def isnamech (c : Nat) (scnd_ch : Bool) : Bool :=
  intbl c nTbl || (scnd_ch && intbl c nchTbl)

/-! ## UTF-8 -/

/-- The bytes that `toutf8` writes for a character. -/
def utf8Bytes (c : Nat) : List Nat :=
  if c ≤ 127 then [c]
  else if c ≤ 0x07FF then [0xC0 ||| (c >>> 6), 0x80 ||| (c &&& 0x3f)]
  else if c ≤ 0xFFFF then
    [0xE0 ||| (c >>> 12), 0x80 ||| ((c >>> 6) &&& 0x3f), 0x80 ||| (c &&& 0x3f)]
  else if c ≤ 0x1FFFFF then
    [0xF0 ||| (c >>> 18), 0x80 ||| ((c >>> 12) &&& 0x3f), 0x80 ||| ((c >>> 6) &&& 0x3f),
      0x80 ||| (c &&& 0x3f)]
  else if c ≤ 0x3FFFFFF then
    [0xF8 ||| (c >>> 24), 0x80 ||| ((c >>> 18) &&& 0x3f), 0x80 ||| ((c >>> 12) &&& 0x3f),
      0x80 ||| ((c >>> 6) &&& 0x3f), 0x80 ||| (c &&& 0x3f)]
  else
    [0xFC ||| (c >>> 30), 0x80 ||| ((c >>> 24) &&& 0x3f), 0x80 ||| ((c >>> 18) &&& 0x3f),
      0x80 ||| ((c >>> 12) &&& 0x3f), 0x80 ||| ((c >>> 6) &&& 0x3f), 0x80 ||| (c &&& 0x3f)]

/-- `toutf8`, for a character that is not negative. -/
def toutf8 (c : Nat) : CString := (utf8Bytes c).map Char.ofNat

/-- A byte, or the NUL behind the text. -/
def byteAt (s : CString) (i : Nat) : Nat := (s[i]?.map Char.toNat).getD 0

/-- `toint`: the character at the start of a text and its length; `none` for `-1`. -/
def toint (s : CString) : Option (Nat × Nat) :=
  let c := byteAt s 0
  let cont i := byteAt s i &&& 0xc0 = 0x80
  let low i := byteAt s i &&& 0x3f
  if c ≤ 127 then some (c, 1)
  else if c &&& 0xE0 = 0xC0 ∧ cont 1 then some ((c &&& 0x1f) <<< 6 ||| low 1, 2)
  else if c &&& 0xF0 = 0xE0 ∧ cont 1 ∧ cont 2 then
    some ((c &&& 0xf) <<< 12 ||| low 1 <<< 6 ||| low 2, 3)
  else if c &&& 0xf8 = 0xf0 ∧ cont 1 ∧ cont 2 ∧ cont 3 then
    some ((c &&& 0x7) <<< 18 ||| low 1 <<< 12 ||| low 2 <<< 6 ||| low 3, 4)
  else if c &&& 0xfc = 0xf8 ∧ cont 1 ∧ cont 2 ∧ cont 3 ∧ cont 4 then
    some ((c &&& 0x3) <<< 24 ||| low 1 <<< 18 ||| low 2 <<< 12 ||| low 3 <<< 6 ||| low 4, 5)
  else if c &&& 0xfe = 0xfc ∧ cont 1 ∧ cont 2 ∧ cont 3 ∧ cont 4 ∧ cont 5 then
    some ((c &&& 0x1) <<< 30 ||| low 1 <<< 24 ||| low 2 <<< 18 ||| low 3 <<< 12 ||| low 4 <<< 6 |||
      low 5, 6)
  else none

/-! ## Characters of the text -/

/-- `HEX_NUMBERS`. -/
def HEX_NUMBERS : CString := "0123456789ABCDEFabcdef".toList

/-- `DEC_NUMBERS`. -/
def DEC_NUMBERS : CString := "0123456789".toList

/-- The value of a digit. -/
def digitValue (c : Char) : Int :=
  if c ≤ '9' then c.toNat - '0'.toNat
  else if c ≤ 'F' then c.toNat - 'A'.toNat + 10
  else c.toNat - 'a'.toNat + 10

/-- A numeric reference: `start` is its length before the digits. -/
def numericChar (src : CString) (start : Nat) (base : Int) (digits : CString) :
    Option (Int × Nat) :=
  let number := (src.drop start).takeWhile (· ∈ digits)
  let sum := number.foldl (fun sum c ↦ wrap32 (sum * base + digitValue c)) 0
  let count := number.length
  if count = 0 ∨ src[start + count]? ≠ some ';' ∨ !isxmlch sum then none
  else some (sum, start + count + 1)

/-- The named references, in the order in which they are tried. -/
def entities : List (CString × Nat) :=
  [("&quot;".toList, 0x22), ("&lt;".toList, 0x3C), ("&gt;".toList, 0x3E), ("&apos;".toList, 0x27),
    ("&amp;".toList, 0x26)]

/-- `get_char`: the character and its length in the text; `none` for `-1`. -/
def getChar (src : CString) : Option (Int × Nat) :=
  if src.head? ≠ some '&' then
    let c := byteAt src 0
    if 0 < c ∧ c < 128 ∧ isxmlch c then some (c, 1)
    else
      match toint src with
      | none => none
      | some (i, len) => if isxmlch i then some (i, len) else none
  else
    match entities.find? fun (entity, _) ↦ strncaseEq src entity entity.length with
    | some (entity, c) => some (c, entity.length)
    | none =>
      if strncaseEq src "&#x".toList 3 then numericChar src 3 16 HEX_NUMBERS
      else if strncaseEq src "&#".toList 2 then numericChar src 2 10 DEC_NUMBERS
      else none

/-- The loop of `copy_token`, over `len` bytes: what it appends, `none` when it fails. -/
def copyLoop : Nat → CString → Nat → Option CString
  | _, _, 0 => some []
  | 0, _, _ + 1 => none
  | fuel + 1, src, len + 1 =>
    match getChar src with
    | none => none
    | some (c, cl) =>
      if c ≤ 0 ∨ cl > len + 1 then none
      else
        (copyLoop fuel (src.drop cl) (len + 1 - cl)).map
          ((if cl = 1 then [Char.ofNat c.toNat] else toutf8 c.toNat) ++ ·)

/-- `copy_token`. -/
def copyToken (src : CString) (len : Nat) : Option CString :=
  if len = 0 then none else copyLoop len src len

/-- The branch of `get_char` for references. -/
theorem getChar_amp {src : CString} (h : src.head? = some '&') : getChar src =
    (entities.find? fun e ↦ strncaseEq src e.1 e.1.length).elim
      (if strncaseEq src "&#x".toList 3 then numericChar src 3 16 HEX_NUMBERS
        else if strncaseEq src "&#".toList 2 then numericChar src 2 10 DEC_NUMBERS
        else none)
      fun e ↦ some (e.2, e.1.length) := by
  rw [getChar, if_neg (not_not.mpr h)]
  have hsame : (entities.find? fun (entity, _) ↦ strncaseEq src entity entity.length) =
      entities.find? fun e ↦ strncaseEq src e.1 e.1.length := rfl
  rw [hsame]
  cases entities.find? fun e ↦ strncaseEq src e.1 e.1.length <;> rfl

/-! ## `toint` after `toutf8` -/

theorem toNat_ofNat_byte : ∀ n < 256, (Char.ofNat n).toNat = n := by decide +kernel

/-- A byte that continues a character. -/
theorem continuation_byte (y : Nat) : (0x80 ||| (y &&& 0x3f)) < 256 ∧
    (0x80 ||| (y &&& 0x3f)) &&& 0xc0 = 0x80 ∧ (0x80 ||| (y &&& 0x3f)) &&& 0x3f = y % 64 := by
  have hy : y &&& 0x3f = y % 64 := Nat.and_two_pow_sub_one_eq_mod y 6
  have hall : ∀ x < 64, (0x80 ||| x) < 256 ∧ (0x80 ||| x) &&& 0xc0 = 0x80 ∧
      (0x80 ||| x) &&& 0x3f = x := by
    decide
  rw [hy]
  exact hall _ (Nat.mod_lt _ (by decide))

/-- Six more bits of a character behind those that come before them. -/
theorem join_bits (c k : Nat) :
    (c >>> (k + 6)) <<< (k + 6) ||| ((c >>> k) % 64) <<< k = (c >>> k) <<< k := by
  have hhigh : (c >>> (k + 6)) <<< (k + 6) = (((c >>> k) >>> 6) <<< 6) <<< k := by
    rw [Nat.shiftRight_add, Nat.add_comm k 6, Nat.shiftLeft_add]
  have hlow : (c >>> k) % 64 < 2 ^ 6 := Nat.mod_lt _ (by decide)
  rw [hhigh, ← Nat.shiftLeft_or_distrib, ← Nat.shiftLeft_add_eq_or_of_lt hlow,
    Nat.shiftLeft_eq _ 6, Nat.shiftRight_eq_div_pow _ 6, Nat.div_add_mod']

variable {c : Nat} {rest : CString}

theorem toint_one (h : c ≤ 127) : toint (Char.ofNat c :: rest) = some (c, 1) := by
  have hbyte : byteAt (Char.ofNat c :: rest) 0 = c := toNat_ofNat_byte c (by omega)
  simp only [toint, hbyte, if_pos h]

/-- A byte of a character at the start of a text. -/
theorem byteAt_toutf8 (rest : CString) {bytes : List Nat} (h : utf8Bytes c = bytes) (i : Nat)
    {b : Nat} (hi : bytes[i]? = some b) (hb : b < 256) : byteAt (toutf8 c ++ rest) i = b := by
  have hlt : i < (toutf8 c).length := by
    rw [toutf8, List.length_map, h]
    exact (List.getElem?_eq_some_iff.mp hi).1
  rw [byteAt, List.getElem?_append_left hlt, toutf8, List.getElem?_map, h, hi]
  exact toNat_ofNat_byte b hb

theorem toint_two (hc : 127 < c) (hc' : c ≤ 0x7FF) :
    toint (toutf8 c ++ rest) = some (c, 2) := by
  obtain ⟨hb₁, hcont₁, hlow₁⟩ := continuation_byte c
  have hlead : ∀ x < 32, (0xC0 ||| x) < 256 ∧ ¬(0xC0 ||| x) ≤ 127 ∧
      (0xC0 ||| x) &&& 0xE0 = 0xC0 ∧ (0xC0 ||| x) &&& 0x1f = x := by
    decide
  have hlt : c >>> 6 < 32 := by
    rw [Nat.shiftRight_eq_div_pow]
    omega
  obtain ⟨hl, hl', hmask₁, hvalue⟩ := hlead _ hlt
  have hbytes : utf8Bytes c = [0xC0 ||| (c >>> 6), 0x80 ||| (c &&& 0x3f)] := by
    rw [utf8Bytes, if_neg (by omega), if_pos hc']
  have h0 := byteAt_toutf8 rest hbytes 0 rfl hl
  have h1 := byteAt_toutf8 rest hbytes 1 rfl hb₁
  have hjoin : (c >>> 6) <<< 6 ||| c % 64 = c := join_bits c 0
  simp only [toint, h0, h1, hl', hmask₁, hcont₁, hvalue, hlow₁, if_false, and_self, if_true,
    hjoin]

theorem toint_three (hc : 0x7FF < c) (hc' : c ≤ 0xFFFF) :
    toint (toutf8 c ++ rest) = some (c, 3) := by
  obtain ⟨hb₁, hcont₁, hlow₁⟩ := continuation_byte (c >>> 6)
  obtain ⟨hb₂, hcont₂, hlow₂⟩ := continuation_byte c
  have hlead : ∀ x < 16, (0xE0 ||| x) < 256 ∧ ¬(0xE0 ||| x) ≤ 127 ∧
      (0xE0 ||| x) &&& 0xE0 ≠ 0xC0 ∧ (0xE0 ||| x) &&& 0xF0 = 0xE0 ∧ (0xE0 ||| x) &&& 0xf = x := by
    decide
  have hlt : c >>> 12 < 16 := by
    rw [Nat.shiftRight_eq_div_pow]
    omega
  obtain ⟨hl, hl', hmask₁, hmask₂, hvalue⟩ := hlead _ hlt
  have hbytes : utf8Bytes c = [0xE0 ||| (c >>> 12), 0x80 ||| ((c >>> 6) &&& 0x3f),
      0x80 ||| (c &&& 0x3f)] := by
    rw [utf8Bytes, if_neg (by omega), if_neg (by omega), if_pos hc']
  have h0 := byteAt_toutf8 rest hbytes 0 rfl hl
  have h1 := byteAt_toutf8 rest hbytes 1 rfl hb₁
  have h2 := byteAt_toutf8 rest hbytes 2 rfl hb₂
  have hjoin₁ : (c >>> 12) <<< 12 ||| ((c >>> 6) % 64) <<< 6 = (c >>> 6) <<< 6 :=
    join_bits c 6
  have hjoin : (c >>> 12) <<< 12 ||| ((c >>> 6) % 64) <<< 6 ||| c % 64 = c := by
    rw [hjoin₁]
    exact join_bits c 0
  simp only [toint, h0, h1, h2, hl', hmask₁, hmask₂, hcont₁, hcont₂, hvalue, hlow₁, hlow₂,
    false_and, if_false, and_self, if_true, hjoin]

theorem toint_four (hc : 0xFFFF < c) (hc' : c ≤ 0x1FFFFF) :
    toint (toutf8 c ++ rest) = some (c, 4) := by
  obtain ⟨hb₁, hcont₁, hlow₁⟩ := continuation_byte (c >>> 12)
  obtain ⟨hb₂, hcont₂, hlow₂⟩ := continuation_byte (c >>> 6)
  obtain ⟨hb₃, hcont₃, hlow₃⟩ := continuation_byte c
  have hlead : ∀ x < 8, (0xF0 ||| x) < 256 ∧ ¬(0xF0 ||| x) ≤ 127 ∧
      (0xF0 ||| x) &&& 0xE0 ≠ 0xC0 ∧ (0xF0 ||| x) &&& 0xF0 ≠ 0xE0 ∧
      (0xF0 ||| x) &&& 0xf8 = 0xf0 ∧ (0xF0 ||| x) &&& 0x7 = x := by
    decide
  have hlt : c >>> 18 < 8 := by
    rw [Nat.shiftRight_eq_div_pow]
    omega
  obtain ⟨hl, hl', hmask₁, hmask₂, hmask₃, hvalue⟩ := hlead _ hlt
  have hbytes : utf8Bytes c = [0xF0 ||| (c >>> 18), 0x80 ||| ((c >>> 12) &&& 0x3f),
      0x80 ||| ((c >>> 6) &&& 0x3f), 0x80 ||| (c &&& 0x3f)] := by
    rw [utf8Bytes, if_neg (by omega), if_neg (by omega), if_neg (by omega), if_pos hc']
  have h0 := byteAt_toutf8 rest hbytes 0 rfl hl
  have h1 := byteAt_toutf8 rest hbytes 1 rfl hb₁
  have h2 := byteAt_toutf8 rest hbytes 2 rfl hb₂
  have h3 := byteAt_toutf8 rest hbytes 3 rfl hb₃
  have hjoin₁ : (c >>> 18) <<< 18 ||| ((c >>> 12) % 64) <<< 12 = (c >>> 12) <<< 12 :=
    join_bits c 12
  have hjoin₂ : (c >>> 12) <<< 12 ||| ((c >>> 6) % 64) <<< 6 = (c >>> 6) <<< 6 :=
    join_bits c 6
  have hjoin : (c >>> 18) <<< 18 ||| ((c >>> 12) % 64) <<< 12 ||| ((c >>> 6) % 64) <<< 6 |||
      c % 64 = c := by
    rw [hjoin₁, hjoin₂]
    exact join_bits c 0
  simp only [toint, h0, h1, h2, h3, hl', hmask₁, hmask₂, hmask₃, hcont₁, hcont₂, hcont₃, hvalue,
    hlow₁, hlow₂, hlow₃, false_and, if_false, and_self, if_true, hjoin]

theorem toint_five (hc : 0x1FFFFF < c) (hc' : c ≤ 0x3FFFFFF) :
    toint (toutf8 c ++ rest) = some (c, 5) := by
  obtain ⟨hb₁, hcont₁, hlow₁⟩ := continuation_byte (c >>> 18)
  obtain ⟨hb₂, hcont₂, hlow₂⟩ := continuation_byte (c >>> 12)
  obtain ⟨hb₃, hcont₃, hlow₃⟩ := continuation_byte (c >>> 6)
  obtain ⟨hb₄, hcont₄, hlow₄⟩ := continuation_byte c
  have hlead : ∀ x < 4, (0xF8 ||| x) < 256 ∧ ¬(0xF8 ||| x) ≤ 127 ∧
      (0xF8 ||| x) &&& 0xE0 ≠ 0xC0 ∧ (0xF8 ||| x) &&& 0xF0 ≠ 0xE0 ∧
      (0xF8 ||| x) &&& 0xf8 ≠ 0xf0 ∧ (0xF8 ||| x) &&& 0xfc = 0xf8 ∧ (0xF8 ||| x) &&& 0x3 = x := by
    decide
  have hlt : c >>> 24 < 4 := by
    rw [Nat.shiftRight_eq_div_pow]
    omega
  obtain ⟨hl, hl', hmask₁, hmask₂, hmask₃, hmask₄, hvalue⟩ := hlead _ hlt
  have hbytes : utf8Bytes c = [0xF8 ||| (c >>> 24), 0x80 ||| ((c >>> 18) &&& 0x3f),
      0x80 ||| ((c >>> 12) &&& 0x3f), 0x80 ||| ((c >>> 6) &&& 0x3f), 0x80 ||| (c &&& 0x3f)] := by
    rw [utf8Bytes, if_neg (by omega), if_neg (by omega), if_neg (by omega), if_neg (by omega),
      if_pos hc']
  have h0 := byteAt_toutf8 rest hbytes 0 rfl hl
  have h1 := byteAt_toutf8 rest hbytes 1 rfl hb₁
  have h2 := byteAt_toutf8 rest hbytes 2 rfl hb₂
  have h3 := byteAt_toutf8 rest hbytes 3 rfl hb₃
  have h4 := byteAt_toutf8 rest hbytes 4 rfl hb₄
  have hjoin₁ : (c >>> 24) <<< 24 ||| ((c >>> 18) % 64) <<< 18 = (c >>> 18) <<< 18 :=
    join_bits c 18
  have hjoin₂ : (c >>> 18) <<< 18 ||| ((c >>> 12) % 64) <<< 12 = (c >>> 12) <<< 12 :=
    join_bits c 12
  have hjoin₃ : (c >>> 12) <<< 12 ||| ((c >>> 6) % 64) <<< 6 = (c >>> 6) <<< 6 :=
    join_bits c 6
  have hjoin : (c >>> 24) <<< 24 ||| ((c >>> 18) % 64) <<< 18 ||| ((c >>> 12) % 64) <<< 12 |||
      ((c >>> 6) % 64) <<< 6 ||| c % 64 = c := by
    rw [hjoin₁, hjoin₂, hjoin₃]
    exact join_bits c 0
  simp only [toint, h0, h1, h2, h3, h4, hl', hmask₁, hmask₂, hmask₃, hmask₄, hcont₁, hcont₂,
    hcont₃, hcont₄, hvalue, hlow₁, hlow₂, hlow₃, hlow₄, false_and, if_false, and_self, if_true,
    hjoin]

theorem toint_six (hc : 0x3FFFFFF < c) (hc' : c < 2 ^ 31) :
    toint (toutf8 c ++ rest) = some (c, 6) := by
  obtain ⟨hb₁, hcont₁, hlow₁⟩ := continuation_byte (c >>> 24)
  obtain ⟨hb₂, hcont₂, hlow₂⟩ := continuation_byte (c >>> 18)
  obtain ⟨hb₃, hcont₃, hlow₃⟩ := continuation_byte (c >>> 12)
  obtain ⟨hb₄, hcont₄, hlow₄⟩ := continuation_byte (c >>> 6)
  obtain ⟨hb₅, hcont₅, hlow₅⟩ := continuation_byte c
  have hlead : ∀ x < 2, (0xFC ||| x) < 256 ∧ ¬(0xFC ||| x) ≤ 127 ∧
      (0xFC ||| x) &&& 0xE0 ≠ 0xC0 ∧ (0xFC ||| x) &&& 0xF0 ≠ 0xE0 ∧
      (0xFC ||| x) &&& 0xf8 ≠ 0xf0 ∧ (0xFC ||| x) &&& 0xfc ≠ 0xf8 ∧
      (0xFC ||| x) &&& 0xfe = 0xfc ∧ (0xFC ||| x) &&& 0x1 = x := by
    decide
  have hlt : c >>> 30 < 2 := by
    rw [Nat.shiftRight_eq_div_pow]
    omega
  obtain ⟨hl, hl', hmask₁, hmask₂, hmask₃, hmask₄, hmask₅, hvalue⟩ := hlead _ hlt
  have hbytes : utf8Bytes c = [0xFC ||| (c >>> 30), 0x80 ||| ((c >>> 24) &&& 0x3f),
      0x80 ||| ((c >>> 18) &&& 0x3f), 0x80 ||| ((c >>> 12) &&& 0x3f),
      0x80 ||| ((c >>> 6) &&& 0x3f), 0x80 ||| (c &&& 0x3f)] := by
    rw [utf8Bytes, if_neg (by omega), if_neg (by omega), if_neg (by omega), if_neg (by omega),
      if_neg (by omega)]
  have h0 := byteAt_toutf8 rest hbytes 0 rfl hl
  have h1 := byteAt_toutf8 rest hbytes 1 rfl hb₁
  have h2 := byteAt_toutf8 rest hbytes 2 rfl hb₂
  have h3 := byteAt_toutf8 rest hbytes 3 rfl hb₃
  have h4 := byteAt_toutf8 rest hbytes 4 rfl hb₄
  have h5 := byteAt_toutf8 rest hbytes 5 rfl hb₅
  have hjoin₁ : (c >>> 30) <<< 30 ||| ((c >>> 24) % 64) <<< 24 = (c >>> 24) <<< 24 :=
    join_bits c 24
  have hjoin₂ : (c >>> 24) <<< 24 ||| ((c >>> 18) % 64) <<< 18 = (c >>> 18) <<< 18 :=
    join_bits c 18
  have hjoin₃ : (c >>> 18) <<< 18 ||| ((c >>> 12) % 64) <<< 12 = (c >>> 12) <<< 12 :=
    join_bits c 12
  have hjoin₄ : (c >>> 12) <<< 12 ||| ((c >>> 6) % 64) <<< 6 = (c >>> 6) <<< 6 :=
    join_bits c 6
  have hjoin : (c >>> 30) <<< 30 ||| ((c >>> 24) % 64) <<< 24 ||| ((c >>> 18) % 64) <<< 18 |||
      ((c >>> 12) % 64) <<< 12 ||| ((c >>> 6) % 64) <<< 6 ||| c % 64 = c := by
    rw [hjoin₁, hjoin₂, hjoin₃, hjoin₄]
    exact join_bits c 0
  simp only [toint, h0, h1, h2, h3, h4, h5, hl', hmask₁, hmask₂, hmask₃, hmask₄, hmask₅, hcont₁,
    hcont₂, hcont₃, hcont₄, hcont₅, hvalue, hlow₁, hlow₂, hlow₃, hlow₄, hlow₅, false_and,
    if_false, and_self, if_true, hjoin]

theorem isxmlch_bounds (h : isxmlch c = true) : 0 < c ∧ c ≤ 0x10FFFF := by
  simp only [isxmlch, Bool.or_eq_true, Bool.and_eq_true, decide_eq_true_eq] at h
  omega

/-- A character that an `int` holds is read back from its bytes, and no more than those are
consumed. -/
theorem toint_toutf8_of_lt (hc : c < 2 ^ 31) (rest : CString) :
    toint (toutf8 c ++ rest) = some (c, (toutf8 c).length) := by
  have hlength : (toutf8 c).length = (utf8Bytes c).length := List.length_map ..
  rcases Nat.lt_or_ge 127 c with h₁ | h₁
  · rcases Nat.lt_or_ge 0x7FF c with h₂ | h₂
    · rcases Nat.lt_or_ge 0xFFFF c with h₃ | h₃
      · rcases Nat.lt_or_ge 0x1FFFFF c with h₄ | h₄
        · rcases Nat.lt_or_ge 0x3FFFFFF c with h₅ | h₅
          · rw [toint_six h₅ hc, hlength, utf8Bytes, if_neg (by omega), if_neg (by omega),
              if_neg (by omega), if_neg (by omega), if_neg (by omega)]
            rfl
          · rw [toint_five h₄ h₅, hlength, utf8Bytes, if_neg (by omega), if_neg (by omega),
              if_neg (by omega), if_neg (by omega), if_pos h₅]
            rfl
        · rw [toint_four h₃ h₄, hlength, utf8Bytes, if_neg (by omega), if_neg (by omega),
            if_neg (by omega), if_pos h₄]
          rfl
      · rw [toint_three h₂ h₃, hlength, utf8Bytes, if_neg (by omega), if_neg (by omega),
          if_pos h₃]
        rfl
    · rw [toint_two h₁ h₂, hlength, utf8Bytes, if_neg (by omega), if_pos h₂]
      rfl
  · rw [hlength, toutf8, utf8Bytes, if_pos h₁]
    exact toint_one h₁

/-- A character of XML is read back, with its length. -/
theorem toint_toutf8 (h : isxmlch c = true) (rest : CString) :
    toint (toutf8 c ++ rest) = some (c, (toutf8 c).length) := by
  have hle := (isxmlch_bounds h).2
  exact toint_toutf8_of_lt (by omega) rest

/-! ## Text with references -/

/-- The number that digits stand for. -/
def number (base : Nat) (digits : CString) : Nat :=
  digits.foldl (fun n d ↦ n * base + (digitValue d).toNat) 0

/-- A text that stands for a character: the character itself, or a reference to it. -/
inductive Spells : CString → Nat → Prop
  | char {d : Nat} (hxml : isxmlch d = true) (hamp : d ≠ '&'.toNat) : Spells (toutf8 d) d
  | entity {e : CString} {d : Nat} (h : (e, d) ∈ entities) : Spells e d
  | hex {digits : CString} (hne : digits ≠ []) (hdigits : ∀ d ∈ digits, d ∈ HEX_NUMBERS)
      (hxml : isxmlch (number 16 digits) = true) :
      Spells ("&#x".toList ++ digits ++ [';']) (number 16 digits)
  | dec {digits : CString} (hne : digits ≠ []) (hdigits : ∀ d ∈ digits, d ∈ DEC_NUMBERS)
      (hxml : isxmlch (number 10 digits) = true) :
      Spells ("&#".toList ++ digits ++ [';']) (number 10 digits)

/-- A text in which every `&` starts a reference, and what it stands for. -/
inductive Unescapes : CString → CString → Prop
  | nil : Unescapes [] []
  | cons {item text value : CString} {d : Nat} (hitem : Spells item d)
      (h : Unescapes text value) : Unescapes (item ++ text) (toutf8 d ++ value)

theorem toutf8_ascii (h : c ≤ 127) : toutf8 c = [Char.ofNat c] := by
  rw [toutf8, utf8Bytes, if_pos h]
  rfl

theorem toutf8_length_pos (c : Nat) : 0 < (toutf8 c).length := by
  rw [toutf8, List.length_map, utf8Bytes]
  split_ifs <;> exact Nat.succ_pos _

theorem continuation_ge (y : Nat) : 128 ≤ (Char.ofNat (0x80 ||| (y &&& 0x3f))).toNat := by
  rw [toNat_ofNat_byte _ (continuation_byte y).1]
  exact Nat.left_le_or

/-- The bytes of a character that is not ASCII are not ASCII. -/
theorem toutf8_ge (hc : 127 < c) (hc' : c ≤ 0x10FFFF) : ∀ b ∈ toutf8 c, 128 ≤ b.toNat := by
  have hlead : ∀ x < 32, 128 ≤ (Char.ofNat (0xC0 ||| x)).toNat := by decide
  have hlead₃ : ∀ x < 16, 128 ≤ (Char.ofNat (0xE0 ||| x)).toNat := by decide
  have hlead₄ : ∀ x < 8, 128 ≤ (Char.ofNat (0xF0 ||| x)).toNat := by decide
  have hshift : c >>> 6 = c / 64 := Nat.shiftRight_eq_div_pow c 6
  have hshift₂ : c >>> 12 = c / 4096 := Nat.shiftRight_eq_div_pow c 12
  have hshift₃ : c >>> 18 = c / 262144 := Nat.shiftRight_eq_div_pow c 18
  rw [toutf8, utf8Bytes, if_neg (by omega)]
  split_ifs with h₂ h₃ h₄ h₅
  · simp only [List.map_cons, List.map_nil, List.forall_mem_cons]
    exact ⟨hlead _ (by omega), continuation_ge c, fun b hb ↦ by cases hb⟩
  · simp only [List.map_cons, List.map_nil, List.forall_mem_cons]
    exact ⟨hlead₃ _ (by omega), continuation_ge _, continuation_ge c, fun b hb ↦ by cases hb⟩
  · simp only [List.map_cons, List.map_nil, List.forall_mem_cons]
    exact ⟨hlead₄ _ (by omega), continuation_ge _, continuation_ge _, continuation_ge c,
      fun b hb ↦ by cases hb⟩
  · exact absurd hc' (by omega)
  · exact absurd hc' (by omega)

/-! ## `get_char` -/

theorem getChar_char (hxml : isxmlch c = true) (hamp : c ≠ '&'.toNat) (rest : CString) :
    getChar (toutf8 c ++ rest) = some ((c : Int), (toutf8 c).length) := by
  obtain ⟨hpos, hle⟩ := isxmlch_bounds hxml
  rcases Nat.lt_or_ge 127 c with h | h
  · obtain ⟨b, bs, hbs⟩ := List.exists_cons_of_length_pos (toutf8_length_pos c)
    have hb := toutf8_ge h hle b (hbs ▸ List.mem_cons_self ..)
    have hhead : (toutf8 c ++ rest).head? ≠ some '&' := by
      rw [hbs]
      intro heq
      cases heq
      exact absurd hb (by decide)
    have hbyte : byteAt (toutf8 c ++ rest) 0 = b.toNat := by
      rw [hbs]
      rfl
    rw [getChar, if_pos hhead, hbyte]
    simp only [if_neg (show ¬(0 < b.toNat ∧ b.toNat < 128 ∧ isxmlch b.toNat = true) by omega),
      toint_toutf8 hxml rest, hxml, if_true]
  · have hbyte : byteAt (toutf8 c ++ rest) 0 = c := by
      rw [toutf8_ascii h]
      exact toNat_ofNat_byte c (by omega)
    have hhead : (toutf8 c ++ rest).head? ≠ some '&' := by
      rw [toutf8_ascii h]
      intro heq
      have hchar : Char.ofNat c = '&' := Option.some.inj heq
      exact hamp (by rw [← hchar, toNat_ofNat_byte c (by omega)])
    rw [getChar, if_pos hhead, hbyte]
    simp only [if_pos (show 0 < c ∧ c < 128 ∧ isxmlch c = true from ⟨hpos, by omega, hxml⟩),
      toutf8_ascii h]
    rfl

theorem getChar_entity {e : CString} (h : (e, c) ∈ entities) (rest : CString) :
    getChar (e ++ rest) = some ((c : Int), e.length) := by
  simp only [entities, List.mem_cons, Prod.mk.injEq, List.not_mem_nil, or_false] at h
  rcases h with ⟨rfl, rfl⟩ | ⟨rfl, rfl⟩ | ⟨rfl, rfl⟩ | ⟨rfl, rfl⟩ | ⟨rfl, rfl⟩ <;> rfl

theorem le_number (base : Nat) (hbase : 0 < base) (digits : CString) (n : Nat) :
    n ≤ digits.foldl (fun n d ↦ n * base + (digitValue d).toNat) n := by
  induction digits generalizing n with
  | nil => exact Nat.le_refl n
  | cons d ds ih =>
    have hstep : n ≤ n * base + (digitValue d).toNat :=
      (Nat.le_mul_of_pos_right n hbase).trans (Nat.le_add_right ..)
    exact hstep.trans (ih _)

/-- A number that an `int` can hold does not wrap around. -/
theorem foldl_wrap32 (base : Nat) (hbase : 0 < base) (digits : CString) (n : Nat)
    (hdigits : ∀ d ∈ digits, 0 ≤ digitValue d)
    (hle : digits.foldl (fun n d ↦ n * base + (digitValue d).toNat) n ≤ 2147483647) :
    digits.foldl (fun sum d ↦ wrap32 (sum * (base : Int) + digitValue d)) (n : Int) =
      (digits.foldl (fun n d ↦ n * base + (digitValue d).toNat) n : Nat) := by
  induction digits generalizing n with
  | nil => rfl
  | cons d ds ih =>
    have hd := hdigits d (List.mem_cons_self ..)
    have hstep := (le_number base hbase ds (n * base + (digitValue d).toNat)).trans hle
    have hcast : (n : Int) * base + digitValue d =
        ((n * base + (digitValue d).toNat : Nat) : Int) := by
      rw [Nat.cast_add, Nat.cast_mul, Int.toNat_of_nonneg hd]
    rw [List.foldl_cons, List.foldl_cons, hcast, wrap32_of_range (by omega) (by omega)]
    exact ih _ (fun d hd ↦ hdigits d (List.mem_cons_of_mem _ hd)) hle

theorem number_le {n : Nat} (hxml : isxmlch n = true) : n ≤ 2147483647 :=
  (isxmlch_bounds hxml).2.trans (by decide)

/-- A reference to a number that an `int` can hold. -/
theorem numericChar_eq {start : Nat} {base : Nat} (hbase : 0 < base) {pre digits set : CString}
    (hpre : pre.length = start) (hne : digits ≠ []) (hset : ∀ d ∈ digits, d ∈ set)
    (hvalue : ∀ d ∈ set, 0 ≤ digitValue d) (hsemi : ';' ∉ set)
    (hle : number base digits ≤ 2147483647) (rest : CString) :
    numericChar (pre ++ digits ++ [';'] ++ rest) start base set =
      if isxmlch (number base digits) = true then
        some ((number base digits : Int), (pre ++ digits ++ [';']).length)
      else none := by
  have hdrop : (pre ++ digits ++ [';'] ++ rest).drop start = digits ++ ';' :: rest := by
    rw [← hpre, List.append_assoc, List.append_assoc, List.drop_left]
    rfl
  have htake : (digits ++ ';' :: rest).takeWhile (· ∈ set) = digits := by
    rw [List.takeWhile_append_of_pos fun d hd ↦ decide_eq_true (hset d hd),
      List.takeWhile_cons_of_neg (by simpa using hsemi), List.append_nil]
  have hget : (pre ++ digits ++ [';'] ++ rest)[start + digits.length]? = some ';' := by
    have hlen : start + digits.length = (pre ++ digits).length := by
      rw [List.length_append, hpre]
    rw [hlen, List.append_assoc, List.getElem?_append_right (Nat.le_refl _), Nat.sub_self]
    rfl
  have hsum : digits.foldl (fun sum d ↦ wrap32 (sum * (base : Int) + digitValue d)) 0 =
      (number base digits : Int) :=
    foldl_wrap32 base hbase digits 0 (fun d hd ↦ hvalue d (hset d hd)) hle
  have hcount : digits.length ≠ 0 := fun h ↦ hne (List.length_eq_zero_iff.mp h)
  have hlength : (pre ++ digits ++ [';']).length = start + digits.length + 1 := by
    rw [List.length_append, List.length_append, hpre, List.length_singleton]
  simp only [numericChar, hdrop, htake, hget, hsum, hcount, hlength, ne_eq, not_true_eq_false,
    false_or, Bool.not_eq_true']
  cases isxmlch (number base digits) <;> rfl

/-- A text that stands for a character is read as that character. -/
theorem getChar_spells {item : CString} (h : Spells item c) (rest : CString) :
    getChar (item ++ rest) = some ((c : Int), item.length) := by
  cases h with
  | char hxml hamp => exact getChar_char hxml hamp rest
  | entity h => exact getChar_entity h rest
  | hex hne hdigits hxml =>
    have heq := @numericChar_eq 3 16 (by decide) "&#x".toList _ HEX_NUMBERS rfl hne hdigits
      (forall_mem_of_all (by decide)) (by decide) (number_le hxml) rest
    rw [if_pos hxml] at heq
    rw [← heq]
    rfl
  | @dec digits hne hdigits hxml =>
    have heq := @numericChar_eq 2 10 (by decide) "&#".toList _ DEC_NUMBERS rfl hne hdigits
      (forall_mem_of_all (by decide)) (by decide) (number_le hxml) rest
    rw [if_pos hxml] at heq
    obtain ⟨d, ds, rfl⟩ := List.exists_cons_of_ne_nil hne
    have hd : Char.toLower d ≠ 'x' := by
      have hall : ∀ d ∈ DEC_NUMBERS, Char.toLower d ≠ 'x' := forall_mem_of_all (by decide)
      exact hall d (hdigits d (List.mem_cons_self ..))
    have hhex : strncaseEq ("&#".toList ++ (d :: ds) ++ [';'] ++ rest) "&#x".toList 3 = false := by
      rw [strncaseEq, strcaseEq, decide_eq_false_iff_not]
      intro h
      exact hd (List.cons.inj (List.cons.inj (List.cons.inj h).2).2).1
    have hhead : ("&#".toList ++ (d :: ds) ++ [';'] ++ rest).head? = some '&' := rfl
    have hnone : (entities.find? fun (entity, _) ↦ strncaseEq
        ("&#".toList ++ (d :: ds) ++ [';'] ++ rest) entity entity.length) = none := rfl
    have hdec : strncaseEq ("&#".toList ++ (d :: ds) ++ [';'] ++ rest) "&#".toList 2 = true := rfl
    rw [← heq, getChar, if_neg (not_not.mpr hhead), hnone]
    simp only [hhex, hdec, if_true, Bool.false_eq_true, if_false]
    rfl

/-! ## `copy_token` -/

theorem Spells.isxmlch {item : CString} (h : Spells item c) : isxmlch c = true := by
  cases h with
  | char hxml hamp => exact hxml
  | entity h =>
    have hall : ∀ e ∈ entities, Xml.isxmlch e.2 = true := by decide
    exact hall (_, _) h
  | hex hne hdigits hxml => exact hxml
  | dec hne hdigits hxml => exact hxml

theorem Spells.length_pos {item : CString} (h : Spells item c) : 0 < item.length := by
  cases h with
  | char hxml hamp => exact toutf8_length_pos c
  | entity h =>
    have hall : ∀ e ∈ entities, 0 < e.1.length := by decide
    exact hall (_, _) h
  | hex hne hdigits hxml => exact Nat.succ_pos _
  | dec hne hdigits hxml => exact Nat.succ_pos _

theorem Unescapes.eq_nil {text value : CString} (h : Unescapes text value) (hnil : text = []) :
    value = [] := by
  cases h with
  | nil => rfl
  | cons hitem h =>
    have hpos := hitem.length_pos
    rw [(List.append_eq_nil_iff.mp hnil).1] at hpos
    cases hpos

/-- What is not empty does not mean the empty text. -/
theorem Unescapes.ne_nil {text value : CString} (h : Unescapes text value) (hne : text ≠ []) :
    value ≠ [] := by
  cases h with
  | nil => exact absurd rfl hne
  | @cons item text value d hitem h =>
    have hpos := toutf8_length_pos d
    intro hnil
    rw [(List.append_eq_nil_iff.mp hnil).1] at hpos
    cases hpos

/-- What `copy_token` appends for a character, however it is spelled. -/
theorem copied_eq {item : CString} (h : Spells item c) :
    (if item.length = 1 then [Char.ofNat c] else toutf8 c) = toutf8 c := by
  split_ifs with hone
  · cases h with
    | char hxml hamp =>
      have hle : c ≤ 127 := by
        rw [toutf8, List.length_map, utf8Bytes] at hone
        split_ifs at hone with h
        · exact h
        all_goals cases hone
      exact (toutf8_ascii hle).symm
    | entity h =>
      have hall : ∀ e ∈ entities, e.1.length ≠ 1 := by decide
      exact absurd hone (hall _ h)
    | hex hne hdigits hxml => cases hone
    | dec hne hdigits hxml => cases hone
  · rfl

theorem copyLoop_eq {text value : CString} (h : Unescapes text value) (fuel : Nat)
    (hfuel : text.length ≤ fuel) (rest : CString) :
    copyLoop fuel (text ++ rest) text.length = some value := by
  induction h generalizing fuel with
  | nil => cases fuel <;> rfl
  | @cons item text value d hitem h ih =>
    have hpos := hitem.length_pos
    have hxml := isxmlch_bounds hitem.isxmlch
    rw [List.length_append] at hfuel ⊢
    obtain ⟨len, hlen⟩ := Nat.exists_eq_add_one_of_ne_zero
      (show item.length + text.length ≠ 0 by omega)
    obtain ⟨fuel, rfl⟩ := Nat.exists_eq_add_one_of_ne_zero (show fuel ≠ 0 by omega)
    rw [hlen, List.append_assoc, copyLoop, getChar_spells hitem]
    have hdrop : (item ++ (text ++ rest)).drop item.length = text ++ rest := List.drop_left
    have hleft : len + 1 - item.length = text.length := by omega
    have hguard : ¬((d : Int) ≤ 0 ∨ item.length > len + 1) := by omega
    have hcopied := copied_eq hitem
    simp only [if_neg hguard, hdrop, hleft, ih fuel (by omega), Option.map_some, Int.toNat_natCast,
      hcopied]

theorem copyToken_eq {text value : CString} (h : Unescapes text value) (hne : text ≠ [])
    (rest : CString) : copyToken (text ++ rest) text.length = some value := by
  rw [copyToken, if_neg fun h ↦ hne (List.length_eq_zero_iff.mp h)]
  have hfuel := copyLoop_eq h text.length (Nat.le_refl _) rest
  exact hfuel

/-- Characters that are no `&` stand for themselves. -/
theorem unescapes_chars {cs : List Nat}
    (h : ∀ c ∈ cs, isxmlch c = true ∧ c ≠ '&'.toNat) :
    Unescapes (cs.flatMap toutf8) (cs.flatMap toutf8) := by
  induction cs with
  | nil => exact .nil
  | cons c cs ih =>
    obtain ⟨hxml, hamp⟩ := h c (List.mem_cons_self ..)
    exact .cons (.char hxml hamp) (ih fun d hd ↦ h d (List.mem_cons_of_mem _ hd))

/-- A text in which no `&` stands has no character that is one. -/
theorem ne_amp_of_notMem {cs : List Nat} (hamp : '&' ∉ cs.flatMap toutf8) :
    ∀ c ∈ cs, c ≠ '&'.toNat := by
  rintro c hc rfl
  exact hamp (List.mem_flatMap.mpr ⟨_, hc, List.mem_singleton.mpr rfl⟩)

/-- **What `toutf8` writes for a character, `toint` reads back and no more; and `copy_token` copies
a text of XML characters without `&` as it is, unless the text is empty.**  `after` is what follows
the text in memory. -/
theorem utf8_round_trip (hc : c < 2 ^ 31) {cs : List Nat} (hcs : ∀ c ∈ cs, isxmlch c = true)
    (hamp : '&' ∉ cs.flatMap toutf8) (hne : cs.flatMap toutf8 ≠ []) (after : CString) :
    toint (toutf8 c ++ after) = some (c, (toutf8 c).length) ∧
      copyToken (cs.flatMap toutf8 ++ after) (cs.flatMap toutf8).length =
        some (cs.flatMap toutf8) := by
  have hchars := unescapes_chars fun c hc ↦ ⟨hcs c hc, ne_amp_of_notMem hamp c hc⟩
  exact ⟨toint_toutf8_of_lt hc after, copyToken_eq hchars hne after⟩

/-- The longest character, and the text `aé`. -/
theorem utf8_round_trip_example :
    toint (toutf8 0x7FFFFFFF ++ []) = some (0x7FFFFFFF, (toutf8 0x7FFFFFFF).length) ∧
      copyToken ([0x61, 0xE9].flatMap toutf8 ++ []) ([0x61, 0xE9].flatMap toutf8).length =
        some ([0x61, 0xE9].flatMap toutf8) :=
  utf8_round_trip (by decide) (by decide) (by decide) (by decide) []

/-- `copy_token` fails on the empty text. -/
theorem copyToken_empty : ¬ ∀ cs : List Nat, (∀ c ∈ cs, isxmlch c = true) →
    '&' ∉ cs.flatMap toutf8 →
      copyToken (cs.flatMap toutf8) (cs.flatMap toutf8).length = some (cs.flatMap toutf8) := by
  intro h
  have hempty := h [] (fun c hc ↦ absurd hc List.not_mem_nil) List.not_mem_nil
  cases hempty

/-! ## Names -/

/-- A name, in UTF-8. -/
def IsName (s : CString) : Prop :=
  ∃ c cs, isnamech c false = true ∧ (∀ d ∈ cs, isnamech d true = true) ∧
    s = (c :: cs).flatMap toutf8

theorem intblFrom_mem {c : Nat} {tbl : List (Nat × Nat)} (fuel t b : Nat)
    (h : intblFrom c tbl fuel t b = true) : ∃ r ∈ tbl, r.1 ≤ c ∧ c ≤ r.2 := by
  induction fuel generalizing t b with
  | zero => cases h
  | succ fuel ih =>
    rw [intblFrom] at h
    split_ifs at h with htb
    cases hrow : tbl[(t + (b - 1)) / 2]? with
    | none =>
      simp only [hrow] at h
      cases h
    | some r =>
      obtain ⟨l, u⟩ := r
      simp only [hrow] at h
      split_ifs at h with hl hu
      · exact ih _ _ h
      · exact ih _ _ h
      · exact ⟨(l, u), List.mem_of_getElem? hrow, by omega, by omega⟩

theorem isnamech_true {c : Nat} (h : isnamech c false = true) : isnamech c true = true := by
  rw [isnamech, Bool.false_and, Bool.or_false] at h
  rw [isnamech, h, Bool.true_or]

theorem isnamech_bounds {c : Nat} (h : isnamech c true = true) : 0x2D ≤ c ∧ c ≤ 0xD7A3 := by
  have hn : ∀ r ∈ nTbl, 0x2D ≤ r.1 ∧ r.2 ≤ 0xD7A3 := by decide +kernel
  have hnch : ∀ r ∈ nchTbl, 0x2D ≤ r.1 ∧ r.2 ≤ 0xD7A3 := by decide +kernel
  rw [isnamech, Bool.true_and, Bool.or_eq_true] at h
  rcases h with h | h
  · obtain ⟨r, hr, hl, hu⟩ := intblFrom_mem _ _ _ h
    have := hn r hr
    omega
  · obtain ⟨r, hr, hl, hu⟩ := intblFrom_mem _ _ _ h
    have := hnch r hr
    omega

theorem isnamech_isxmlch {c : Nat} (h : isnamech c true = true) : isxmlch c = true := by
  obtain ⟨hl, hu⟩ := isnamech_bounds h
  simp only [isxmlch, Bool.or_eq_true, Bool.and_eq_true, decide_eq_true_eq]
  omega

theorem IsName.unescapes {s : CString} (h : IsName s) : Unescapes s s := by
  obtain ⟨c, cs, hc, hcs, rfl⟩ := h
  apply unescapes_chars
  intro d hd
  have hd' : isnamech d true = true := by
    rcases List.mem_cons.mp hd with rfl | hd
    · exact isnamech_true hc
    · exact hcs d hd
  have hl := (isnamech_bounds hd').1
  refine ⟨isnamech_isxmlch hd', ?_⟩
  rintro rfl
  exact absurd hl (by decide)

/-- The characters that the tokenizer tests for. -/
def delimiters : CString := "<>/=\"!?&-#\n\t\r\x0c ".toList

/-- The tests of the tokenizer fail at the start of a name. -/
theorem IsName.head {s : CString} (h : IsName s) :
    ∃ b bs, s = b :: bs ∧ b ∉ delimiters := by
  obtain ⟨c, cs, hc, hcs, rfl⟩ := h
  have hascii : ∀ c < 128, isnamech c false = true → Char.ofNat c ∉ delimiters := by
    decide +kernel
  have hdelimiters : ∀ b ∈ delimiters, b.toNat < 128 := forall_mem_of_all (by decide)
  obtain ⟨b, bs, hbs⟩ := List.exists_cons_of_length_pos (toutf8_length_pos c)
  refine ⟨b, bs ++ cs.flatMap toutf8, by rw [List.flatMap_cons, hbs]; rfl, ?_⟩
  rcases Nat.lt_or_ge 127 c with hlt | hge
  · have hle := (isxmlch_bounds (isnamech_isxmlch (isnamech_true hc))).2
    have hb := toutf8_ge hlt hle b (hbs ▸ List.mem_cons_self ..)
    intro hmem
    exact absurd (hdelimiters b hmem) (by omega)
  · rw [toutf8_ascii hge] at hbs
    rw [← (List.cons.inj hbs).1]
    exact hascii c (by omega) hc

/-- A name of one character. -/
theorem isName_singleton {c : Char} (hc : isnamech c.toNat false = true) (hascii : c.toNat ≤ 127) :
    IsName [c] := by
  refine ⟨c.toNat, [], hc, (fun d hd ↦ absurd hd List.not_mem_nil), ?_⟩
  rw [List.flatMap_singleton, toutf8_ascii hascii, Char.ofNat_toNat]

end Upnp.Xml
