import HardwareSigner.Bytes

/-!
# Text as UTF-8 bytes

> `Utf8.decode_encode`: the bytes of a text read back as that text.
> `Utf8.eq_encode_of_decode`: no other bytes do.
-/

namespace HardwareSigner.Utf8

def encode (text : String) : Bytes := text.toUTF8.data.toList

/-- The text whose UTF-8 form is `bytes`, if there is one. -/
def decode? (bytes : Bytes) : Option String := String.fromUTF8? ⟨bytes.toArray⟩

theorem decode_encode (text : String) : decode? (encode text) = some text := by
  unfold decode? encode String.fromUTF8?
  split
  · rfl
  · next invalid => exact absurd text.isValidUTF8 invalid

theorem eq_encode_of_decode {bytes : Bytes} {text : String} (h : decode? bytes = some text) :
    bytes = encode text := by
  unfold decode? String.fromUTF8? at h
  split at h
  · cases h; rfl
  · cases h

end HardwareSigner.Utf8
