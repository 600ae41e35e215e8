/-!
# UTF-8

How far a sequence of bytes is text: the length of the well-formed character at its beginning,
and of the longest beginning that consists of such characters.
-/

namespace Curves.Text

def continues (b : UInt8) : Bool := decide (0x80 ≤ b) && decide (b ≤ 0xBF)

/-- The number of bytes of the well-formed character at the beginning. Overlong forms, surrogates
and code points beyond the last one are not well-formed. -/
def characterSize? : List UInt8 → Option Nat
  | a :: rest =>
    if a < 0x80 then some 1
    else
      match rest with
      | b :: rest =>
        if 0xC2 ≤ a ∧ a ≤ 0xDF then if continues b then some 2 else none
        else
          match rest with
          | c :: rest =>
            if 0xE0 ≤ a ∧ a ≤ 0xEF then
              let low : UInt8 := if a = 0xE0 then 0xA0 else 0x80
              let high : UInt8 := if a = 0xED then 0x9F else 0xBF
              if low ≤ b ∧ b ≤ high ∧ continues c then some 3 else none
            else
              match rest with
              | e :: _ =>
                let low : UInt8 := if a = 0xF0 then 0x90 else 0x80
                let high : UInt8 := if a = 0xF4 then 0x8F else 0xBF
                if 0xF0 ≤ a ∧ a ≤ 0xF4 ∧ low ≤ b ∧ b ≤ high ∧ continues c ∧ continues e then some 4
                else none
              | [] => none
          | [] => none
      | [] => none
  | [] => none

/-- The number of bytes at the beginning that are text. -/
def textPrefix (bytes : List UInt8) : Nat :=
  match characterSize? bytes with
  | some (n + 1) => if n < bytes.length then n + 1 + textPrefix (bytes.drop (n + 1)) else 0
  | _ => 0
termination_by bytes.length
decreasing_by simp only [List.length_drop]; omega

/-- The text that the bytes encode, or the number of bytes before the first that do not. -/
def decode (bytes : List UInt8) : Except Nat String :=
  match String.fromUTF8? ⟨bytes.toArray⟩ with
  | some text => .ok text
  | none => .error (textPrefix bytes)

def encode (text : String) : List UInt8 := text.toUTF8.toList

end Curves.Text
