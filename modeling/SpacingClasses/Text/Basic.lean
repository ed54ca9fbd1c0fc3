/-!
# Texts

A text is the list of its characters, so that every rule about texts is a rule about lists.  String
literals stand for texts where a text is expected.
-/

namespace SpacingClasses

/-- A text, character by character. -/
abbrev Text := List Char

instance : Coe String Text := ⟨String.toList⟩

namespace Text

/-- Whether `part` occurs somewhere in the text. -/
def has (part : Text) : Text → Bool
  | [] => part.isEmpty
  | c :: rest => part.isPrefixOf (c :: rest) || has part rest

/-- The text without the first occurrence of `part`. -/
def eraseFirst (part : Text) : Text → Text
  | [] => []
  | c :: rest =>
    if part.isPrefixOf (c :: rest) then (c :: rest).drop part.length
    else c :: eraseFirst part rest

/-- What stands before `ending`, when the text ends so. -/
def beforeEnding? (ending t : Text) : Option Text :=
  if ending.isSuffixOf t then some (t.take (t.length - ending.length)) else none

/-- The text without the characters of a class at its two ends. -/
def trim (p : Char → Bool) (t : Text) : Text :=
  ((t.dropWhile p).reverse.dropWhile p).reverse

/-- The texts one after the other with a separator between them. -/
def joined (separator : Text) (ts : List Text) : Text :=
  separator.intercalate ts

/-- The text brought to a width with a filling character on its left. -/
def padLeft (width : Nat) (filling : Char) (t : Text) : Text :=
  List.replicate (width - t.length) filling ++ t

/-- A number in base ten. -/
def ofNat (n : Nat) : Text := Nat.toDigits 10 n

/-- A number in base sixteen, in small letters, with at least `width` digits. -/
def hex (width n : Nat) : Text := padLeft width '0' (Nat.toDigits 16 n)

/-- Whether the first text comes before the second in the order of code points. -/
def before : Text → Text → Bool
  | _, [] => false
  | [], _ :: _ => true
  | c :: t, d :: u => c.toNat < d.toNat || (c == d && before t u)

end Text

end SpacingClasses
