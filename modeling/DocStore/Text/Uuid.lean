import DocStore.Text.Escaped

namespace DocStore.Uuid

def byteText (byte : UInt8) : String :=
  if byte < 16 then "0" ++ hexadecimal byte.toNat else hexadecimal byte.toNat

/-- Marks sixteen bytes as those of a random identifier. -/
def mark (bytes : List UInt8) : List UInt8 :=
  (bytes.modify 6 fun byte => byte &&& 0x0f ||| 0x40).modify 8 fun byte => byte &&& 0x3f ||| 0x80

def text (bytes : List UInt8) : String :=
  let group (start count : Nat) := String.join (((bytes.drop start).take count).map byteText)
  "-".intercalate [group 0 4, group 4 2, group 6 2, group 8 2, group 10 6]

/-- The identifier of sixteen random bytes. -/
def ofRandom (bytes : List UInt8) : String := text (mark bytes)

end DocStore.Uuid
