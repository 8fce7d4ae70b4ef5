import OpaeLibs.Lib.Bytes

namespace OpaeLibs.Lib.Frames

open OpaeLibs.Lib.Bytes

/-- A tag, the length of the payload in `w` bytes, the payload and what follows it. -/
def frame (tag : List UInt8) (w : Nat) (payload rest : List UInt8) : List UInt8 :=
  tag ++ (toLe w payload.length ++ (payload ++ rest))

/-- The length field of a frame with a tag of `t` bytes. -/
def lengthField (t w : Nat) (file : List UInt8) : Nat := ofLe ((file.drop t).take w)

variable (tag : List UInt8) (w : Nat) (payload rest : List UInt8)

theorem frame_length :
    (frame tag w payload rest).length = tag.length + w + payload.length + rest.length := by
  simp only [frame, List.length_append, toLe_length]
  omega

theorem take_frame : (frame tag w payload rest).take tag.length = tag := List.take_left' rfl

theorem lengthField_frame (h : payload.length < 256 ^ w) :
    lengthField tag.length w (frame tag w payload rest) = payload.length := by
  rw [lengthField, frame, List.drop_left' rfl, List.take_left' (toLe_length w _), ofLe_toLe,
    Nat.mod_eq_of_lt h]

theorem drop_frame : (frame tag w payload rest).drop (tag.length + w) = payload ++ rest := by
  rw [frame, ← List.drop_drop, List.drop_left' rfl, List.drop_left' (toLe_length w _)]

theorem payload_frame :
    ((frame tag w payload rest).drop (tag.length + w)).take payload.length = payload := by
  rw [drop_frame, List.take_left' rfl]

theorem rest_frame :
    (frame tag w payload rest).drop (tag.length + w + payload.length) = rest := by
  rw [← List.drop_drop, drop_frame, List.drop_left' rfl]

theorem eq_frame {file : List UInt8} {t : Nat} (h : t + w + lengthField t w file ≤ file.length) :
    file = frame (file.take t) w ((file.drop (t + w)).take (lengthField t w file))
      (file.drop (t + w + lengthField t w file)) := by
  have hpayload : ((file.drop (t + w)).take (lengthField t w file)).length =
      lengthField t w file := by
    rw [List.length_take, List.length_drop]
    omega
  have hfield : ((file.drop t).take w).length = w := by
    rw [List.length_take, List.length_drop]
    omega
  have hle : toLe w (lengthField t w file) = (file.drop t).take w := by
    have hsame := toLe_ofLe ((file.drop t).take w)
    rwa [hfield] at hsame
  rw [frame, hpayload, hle, ← List.drop_drop (i := lengthField t w file), List.take_append_drop,
    ← List.drop_drop, List.take_append_drop, List.take_append_drop]

end OpaeLibs.Lib.Frames
