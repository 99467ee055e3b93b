/-
Module: MarketBook.Text.Utf8
Purpose: Texts as octets, and octets as the characters they hold and the places where they hold none.
Main exports:
  Octets, encode, scalars, decode?, decode?_encode
-/

namespace MarketBook.Text

/-!
`scalars` reads any octets: a well-formed sequence gives its character, and an octet that starts
none gives a hole.  Octets are text exactly if there is no hole among what they hold.
-/

/-- The content of a file. -/
abbrev Octets := List UInt8

/-- The octets of a text. -/
def encode (s : String) : Octets :=
  s.toList.flatMap String.utf8EncodeChar

/-- The character that the first octets spell, if they spell one. -/
def firstScalar? (bs : Octets) : Option Char :=
  (bs.take 4).toByteArray.utf8DecodeChar? 0

/-- Characters and holes, `skip` octets into the list. -/
def scalarsAfter : Nat → Octets → List (Option Char)
  | _, [] => []
  | skip + 1, _ :: bs => scalarsAfter skip bs
  | 0, b :: bs =>
    match firstScalar? (b :: bs) with
    | none => none :: scalarsAfter 0 bs
    | some c => some c :: scalarsAfter (c.utf8Size - 1) bs

/-- The characters that the octets hold, with a hole for every octet that belongs to none. -/
def scalars (bs : Octets) : List (Option Char) :=
  scalarsAfter 0 bs

/-- The characters, if there is no hole among them. -/
def wholeText? : List (Option Char) → Option (List Char)
  | [] => some []
  | none :: _ => none
  | some c :: r => (wholeText? r).map (c :: ·)

/-- The text that the octets spell, if they are text throughout. -/
def decode? (bs : Octets) : Option String :=
  (wholeText? (scalars bs)).map String.ofList

theorem scalarsAfter_append (front bs : Octets) :
    scalarsAfter front.length (front ++ bs) = scalarsAfter 0 bs := by
  induction front with
  | nil => rfl
  | cons b front ih => simpa [scalarsAfter] using ih

theorem wholeText?_map_some (cs : List Char) : wholeText? (cs.map some) = some cs := by
  induction cs with
  | nil => rfl
  | cons c cs ih => simp [wholeText?, ih]

theorem firstScalar?_encodeChar (c : Char) (rest : Octets) :
    firstScalar? (String.utf8EncodeChar c ++ rest) = some c := by
  have short : (String.utf8EncodeChar c).length ≤ 4 := by
    rw [String.length_utf8EncodeChar]; exact Char.utf8Size_le_four c
  unfold firstScalar?
  rw [List.take_append, List.take_of_length_le short, List.toByteArray_append]
  exact ByteArray.utf8DecodeChar?_utf8EncodeChar_append

theorem scalars_encodeChar (c : Char) (rest : Octets) :
    scalars (String.utf8EncodeChar c ++ rest) = some c :: scalars rest := by
  have size : (String.utf8EncodeChar c).length = c.utf8Size := String.length_utf8EncodeChar c
  have pos := c.utf8Size_pos
  have first := firstScalar?_encodeChar c rest
  cases h : String.utf8EncodeChar c with
  | nil => rw [h] at size; simp at size; omega
  | cons b bs =>
    rw [h] at first size
    have tail : c.utf8Size - 1 = bs.length := by simp at size; omega
    simp only [scalars, List.cons_append, scalarsAfter] at first ⊢
    rw [first]
    simp only [tail, scalarsAfter_append]

theorem scalars_flatMap (cs : List Char) :
    scalars (cs.flatMap String.utf8EncodeChar) = cs.map some := by
  induction cs with
  | nil => rfl
  | cons c cs ih => rw [List.flatMap_cons, scalars_encodeChar, ih, List.map_cons]

/-- Reading the octets of a text gives the text back. -/
theorem decode?_encode (s : String) : decode? (encode s) = some s := by
  simp [decode?, encode, scalars_flatMap, wholeText?_map_some]

end MarketBook.Text
