import ErDiagram.Text.Blank
import ErDiagram.Text.Split

/-! Lines of a text, and cutting a text at byte offsets of its encoding. -/

namespace ErDiagram.Text

/-- Bytes that the characters take in UTF-8. -/
def byteLength (cs : List Char) : Nat :=
  cs.foldr (fun c bytes => c.utf8Size + bytes) 0

@[simp] theorem byteLength_nil : byteLength [] = 0 := rfl

@[simp] theorem byteLength_cons (c : Char) (cs : List Char) :
    byteLength (c :: cs) = c.utf8Size + byteLength cs := rfl

@[simp] theorem byteLength_append (cs ds : List Char) :
    byteLength (cs ++ ds) = byteLength cs + byteLength ds := by
  induction cs with
  | nil => simp
  | cons c cs ih => simp [ih, Nat.add_assoc]

/-- What is left after the first `bytes` bytes. A character that the cut would split is dropped
whole. -/
def dropBytes : Nat → List Char → List Char
  | 0, cs => cs
  | _ + 1, [] => []
  | bytes + 1, c :: cs => dropBytes (bytes + 1 - c.utf8Size) cs

/-- The characters that lie wholly within the first `bytes` bytes. -/
def takeBytes : Nat → List Char → List Char
  | _, [] => []
  | bytes, c :: cs =>
    if c.utf8Size ≤ bytes then c :: takeBytes (bytes - c.utf8Size) cs else []

/-- The characters between two byte offsets. -/
def slice (start stop : Nat) (cs : List Char) : List Char :=
  takeBytes (stop - start) (dropBytes start cs)

/-- Dropping the bytes of a leading part leaves the rest. -/
theorem dropBytes_byteLength_append (cs ds : List Char) :
    dropBytes (byteLength cs) (cs ++ ds) = ds := by
  induction cs with
  | nil => simp [dropBytes]
  | cons c cs ih =>
    have hPos := c.utf8Size_pos
    obtain ⟨k, hk⟩ : ∃ k, c.utf8Size + byteLength cs = k + 1 := ⟨_, (Nat.succ_pred (by omega)).symm⟩
    simp only [byteLength_cons, List.cons_append, hk, dropBytes]
    rw [← hk, Nat.add_sub_cancel_left, ih]

/-- Taking the bytes of a leading part gives it back. -/
theorem takeBytes_byteLength_append (cs ds : List Char) :
    takeBytes (byteLength cs) (cs ++ ds) = cs := by
  induction cs with
  | nil =>
    cases ds with
    | nil => rfl
    | cons d ds =>
      have hPos := d.utf8Size_pos
      simp only [byteLength_nil, List.nil_append, takeBytes]
      rw [if_neg (by omega)]
  | cons c cs ih => simp [takeBytes, ih]

/-- A slice between the ends of two leading parts is what lies between them. -/
theorem slice_append (before inner after : List Char) :
    slice (byteLength before) (byteLength (before ++ inner)) (before ++ inner ++ after) =
      inner := by
  rw [slice, List.append_assoc, dropBytes_byteLength_append, byteLength_append,
    Nat.add_sub_cancel_left, takeBytes_byteLength_append]

/-- The line with the given number, counted from 1, without blanks at its ends. A number that no
line has names an empty one. -/
def trimmedLine (number : Nat) (cs : List Char) : List Char :=
  trimChars ((splitOn '\n' cs)[number - 1]?.getD [])

end ErDiagram.Text
