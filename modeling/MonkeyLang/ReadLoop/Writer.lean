import MonkeyLang.Text.Utf8

/-!
# Writers that may run out of room

A writer keeps the bytes that it was given. One with bounded room keeps what fits; a piece that
does not fit leaves its first bytes behind and makes the write fail.
-/

namespace MonkeyLang

/-- The bytes written, and the room for more: no number means that there is always room. -/
structure Writer where
  written : Array UInt8
  room : Option Nat

namespace Writer

/-- A writer with nothing written. -/
def empty (room : Option Nat) : Writer := ⟨#[], room⟩

/-- Write a piece. The answer says whether all of it fitted. -/
def put (text : String) (w : Writer) : Bool × Writer :=
  let bytes := encodeUtf8 text
  match w.room with
  | none => (true, ⟨w.written ++ bytes, none⟩)
  | some room =>
    if bytes.length ≤ room then (true, ⟨w.written ++ bytes, some (room - bytes.length)⟩)
    else (false, ⟨w.written ++ bytes.take room, some 0⟩)

/-! ### What a piece does to the bytes written -/

/-- With room without end, a piece is written behind what there is. -/
theorem put_of_room_none {w : Writer} (h : w.room = none) (text : String) :
    w.put text = (true, ⟨w.written ++ encodeUtf8 text, none⟩) := by
  simp [put, h]

/-- A piece that fits is written behind what there is, and takes its length of the room. -/
theorem put_of_le {w : Writer} {room : Nat} (h : w.room = some room) {text : String}
    (fits : text.utf8ByteSize ≤ room) :
    w.put text = (true, ⟨w.written ++ encodeUtf8 text, some (room - text.utf8ByteSize)⟩) := by
  simp [put, h, fits]

/-- A piece that does not fit fills the room with its first bytes. -/
theorem put_of_lt {w : Writer} {room : Nat} (h : w.room = some room) {text : String}
    (exceeds : room < text.utf8ByteSize) :
    w.put text = (false, ⟨w.written ++ (encodeUtf8 text).take room, some 0⟩) := by
  simp [put, h, Nat.not_le.2 exceeds]

end Writer

end MonkeyLang
