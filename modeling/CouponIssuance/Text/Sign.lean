/-!
# Texts in bytes

What comes in from outside is bytes, and not all bytes are the UTF-8 of a text. A sign is a character,
or a byte that belongs to none.
-/
namespace CouponIssuance

abbrev Sign := Option Char

namespace Sign

/-- How many bytes a sign takes. -/
def size (c : Sign) : Nat := c.elim 1 Char.utf8Size

/-- The signs that bytes stand for, after the first `n` bytes, which belong to a character already
read. No character takes more than four bytes. -/
def ofBytesFrom : Nat → List UInt8 → List Sign
  | _, [] => []
  | n + 1, _ :: bs => ofBytesFrom n bs
  | 0, b :: bs =>
    match ((b :: bs).take 4).toByteArray.utf8DecodeChar? 0 with
    | some c => some c :: ofBytesFrom (c.utf8Size - 1) bs
    | none => none :: ofBytesFrom 0 bs

def ofBytes (bytes : List UInt8) : List Sign := ofBytesFrom 0 bytes

end Sign

/-- The bytes of a text. -/
def Text.utf8 (cs : List Char) : List UInt8 := cs.flatMap String.utf8EncodeChar

end CouponIssuance
