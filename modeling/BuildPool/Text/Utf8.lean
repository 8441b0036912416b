/-!
# UTF-8

Bytes are read as text strictly, or with a replacement character for each run of bytes that begins a
character and does not end it.
-/

namespace BuildPool.Text

def utf8 (text : String) : List UInt8 := text.toUTF8.toList

theorem toList_loop (bytes : ByteArray) (i : Nat) (acc : List UInt8) :
    ByteArray.toList.loop bytes i acc = acc.reverse ++ bytes.data.toList.drop i := by
  fun_induction ByteArray.toList.loop bytes i acc with
  | case1 i acc hlt ih =>
    have hlt' : i < bytes.data.toList.length := hlt
    have hget : bytes.get! i = bytes.data.toList[i] := getElem!_pos bytes.data i hlt
    rw [ih, List.drop_eq_getElem_cons hlt', List.reverse_cons, List.append_assoc, hget]
    rfl
  | case2 i acc hle =>
    have hle' : bytes.data.toList.length ≤ i := Nat.not_lt.1 hle
    rw [List.drop_eq_nil_of_le hle', List.append_nil]

theorem utf8_eq (text : String) : utf8 text = text.toByteArray.data.toList := toList_loop _ 0 []

theorem utf8_append (a b : String) : utf8 (a ++ b) = utf8 a ++ utf8 b := by
  rw [utf8_eq, utf8_eq, utf8_eq, String.toByteArray_append, ByteArray.toList_data_append]

theorem utf8_inj {a b : String} : utf8 a = utf8 b ↔ a = b := by
  rw [utf8_eq, utf8_eq, Array.toList_inj, ← ByteArray.ext_iff, String.toByteArray_inj]

/-- The character that stands for bytes that are no text. -/
def replacement : Char := '\ufffd'

/-- The bytes that may follow a first byte: how many, and the range of the first of them. -/
def continuation (lead : UInt8) : Option (Nat × UInt8 × UInt8) :=
  if 0xc2 ≤ lead && lead ≤ 0xdf then some (1, 0x80, 0xbf)
  else if lead == 0xe0 then some (2, 0xa0, 0xbf)
  else if lead == 0xed then some (2, 0x80, 0x9f)
  else if 0xe1 ≤ lead && lead ≤ 0xef then some (2, 0x80, 0xbf)
  else if lead == 0xf0 then some (3, 0x90, 0xbf)
  else if 0xf1 ≤ lead && lead ≤ 0xf3 then some (3, 0x80, 0xbf)
  else if lead == 0xf4 then some (3, 0x80, 0x8f)
  else none

/-- The bits of a first byte that belong to the character. -/
def leadBits (lead : UInt8) (count : Nat) : Nat := lead.toNat % Nat.pow 2 (6 - count)

/-- Takes up to `count` bytes that continue a character. -/
def takeContinuation : Nat → UInt8 → UInt8 → List UInt8 → List UInt8
  | 0, _, _, _ => []
  | _, _, _, [] => []
  | count + 1, low, high, b :: rest =>
    if low ≤ b && b ≤ high then b :: takeContinuation count 0x80 0xbf rest else []

/-- What the bytes in front amount to: a character or nothing, and how many bytes follow the first
one in it. -/
def decodeFront (lead : UInt8) (rest : List UInt8) : Option Char × Nat :=
  if lead < 0x80 then (some (Char.ofNat lead.toNat), 0)
  else match continuation lead with
    | none => (none, 0)
    | some (count, low, high) =>
      let bytes := takeContinuation count low high rest
      if bytes.length == count then
        (some (Char.ofNat (bytes.foldl (fun n b => n * 64 + b.toNat % 64) (leadBits lead count))),
          count)
      else (none, bytes.length)

/-- The characters of some bytes, with nothing for those that are no text. -/
def decodeAll : Nat → List UInt8 → List (Option Char)
  | 0, _ => []
  | _, [] => []
  | fuel + 1, lead :: rest =>
    let (c, used) := decodeFront lead rest
    c :: decodeAll fuel (rest.drop used)

/-- The text that bytes write, if they write one. -/
def ofUtf8? (bytes : List UInt8) : Option String :=
  ((decodeAll bytes.length bytes).mapM id).map String.ofList

/-- The text that bytes write, with replacement characters. -/
def ofUtf8 (bytes : List UInt8) : String :=
  String.ofList ((decodeAll bytes.length bytes).map (·.getD replacement))

end BuildPool.Text
