/-!
# Text as bytes

Offsets count the bytes that characters take in UTF-8, and input and output are bytes. This
module says how many bytes a list of characters takes, and passes between text and its bytes:
every text has bytes that decode to it again (`decodeUtf8?_encodeUtf8`), and other bytes decode
to nothing.
-/

namespace MonkeyLang

/-! ### Counting bytes -/

/-- The number of bytes that characters take in UTF-8. -/
def byteLength (cs : List Char) : Nat := (String.ofList cs).utf8ByteSize

@[simp] theorem byteLength_nil : byteLength [] = 0 := rfl

@[simp] theorem byteLength_append (cs ds : List Char) :
    byteLength (cs ++ ds) = byteLength cs + byteLength ds := by
  simp [byteLength, String.ofList_append]

@[simp] theorem byteLength_singleton (c : Char) : byteLength [c] = c.utf8Size := by
  rw [byteLength, ← String.singleton_eq_ofList, String.utf8ByteSize_singleton]

@[simp] theorem byteLength_cons (c : Char) (cs : List Char) :
    byteLength (c :: cs) = c.utf8Size + byteLength cs := by
  rw [← List.singleton_append, byteLength_append, byteLength_singleton]

/-- The bytes of a text are those of its characters. -/
@[simp] theorem byteLength_toList (s : String) : byteLength s.toList = s.utf8ByteSize := by
  rw [byteLength, String.ofList_toList]

/-- A character takes at least one byte. -/
theorem length_le_byteLength (cs : List Char) : cs.length ≤ byteLength cs := by
  induction cs with
  | nil => exact Nat.le_refl 0
  | cons c cs ih =>
    have := c.utf8Size_pos
    rw [byteLength_cons, List.length_cons]
    omega

/-! ### Passing between text and bytes -/

/-- The bytes of a text in UTF-8. -/
def encodeUtf8 (text : String) : List UInt8 := text.toUTF8.data.toList

/-- The text that bytes are in UTF-8, if they are any. -/
def decodeUtf8? (bytes : List UInt8) : Option String := String.fromUTF8? ⟨bytes.toArray⟩

/-- A text has as many bytes as its characters take. -/
@[simp] theorem length_encodeUtf8 (text : String) :
    (encodeUtf8 text).length = text.utf8ByteSize := by
  rw [encodeUtf8, Array.length_toList]
  rfl

/-- The bytes of a text decode to the text. -/
@[simp] theorem decodeUtf8?_encodeUtf8 (text : String) :
    decodeUtf8? (encodeUtf8 text) = some text := by
  rw [decodeUtf8?, encodeUtf8, Array.toArray_toList]
  exact dif_pos text.isValidUTF8

/-- Bytes decode to a text exactly when they are that text's bytes. -/
theorem decodeUtf8?_eq_some_iff {bytes : List UInt8} {text : String} :
    decodeUtf8? bytes = some text ↔ encodeUtf8 text = bytes := by
  constructor
  · intro h
    rw [decodeUtf8?, String.fromUTF8?] at h
    split at h
    · obtain rfl := Option.some.inj h
      simp [encodeUtf8, String.fromUTF8]
    · cases h
  · rintro rfl
    exact decodeUtf8?_encodeUtf8 text

end MonkeyLang
