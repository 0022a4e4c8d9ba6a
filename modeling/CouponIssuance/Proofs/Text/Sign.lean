import CouponIssuance.Json.Reader
/-!
# Texts read from bytes

The bytes of a text are read as its characters, so a text is read from its bytes as it is from itself.
-/
namespace CouponIssuance

namespace Sign

private theorem ofBytesFrom_append (bs rest : List UInt8) :
    ofBytesFrom bs.length (bs ++ rest) = ofBytesFrom 0 rest := by
  induction bs with
  | nil => rfl
  | cons b bs ih => exact ih

private theorem take_utf8EncodeChar (c : Char) (rest : List UInt8) :
    ∃ later, (String.utf8EncodeChar c ++ rest).take 4 = String.utf8EncodeChar c ++ later := by
  have hlength : (String.utf8EncodeChar c).length ≤ 4 := by
    rw [String.length_utf8EncodeChar]
    exact c.utf8Size_le_four
  exact ⟨_, by rw [List.take_append, List.take_of_length_le hlength]⟩

private theorem ofBytes_char (c : Char) (rest : List UInt8) :
    ofBytes (String.utf8EncodeChar c ++ rest) = some c :: ofBytes rest := by
  obtain ⟨later, htake⟩ := take_utf8EncodeChar c rest
  obtain ⟨b, bs, hbytes⟩ := List.exists_cons_of_ne_nil (@String.utf8EncodeChar_ne_nil c)
  have hsize : c.utf8Size - 1 = bs.length := by
    rw [← String.length_utf8EncodeChar, hbytes, List.length_cons, Nat.add_sub_cancel]
  have hdecode : ((b :: (bs ++ rest)).take 4).toByteArray.utf8DecodeChar? 0 = some c := by
    rw [← List.cons_append, ← hbytes, htake, List.toByteArray_append]
    exact ByteArray.utf8DecodeChar?_utf8EncodeChar_append
  rw [hbytes, List.cons_append, ofBytes, ofBytesFrom, hdecode]
  simp only
  rw [hsize, ofBytesFrom_append, ofBytes]

private theorem ofBytes_utf8 (cs : List Char) : ofBytes (Text.utf8 cs) = cs.map some := by
  induction cs with
  | nil => rfl
  | cons c cs ih =>
    rw [Text.utf8, List.flatMap_cons, ofBytes_char, List.map_cons, ← ih]
    rfl

end Sign

theorem Json.Read.parseBytes_utf8 {α : Type} (value : Reader α) (cs : List Char) :
    parseBytes value (Text.utf8 cs) = parse value cs := by
  rw [parseBytes, Sign.ofBytes_utf8]
  rfl

end CouponIssuance
