import Curves.Csv.Read
import Curves.Csv.Write
import Curves.Proofs.Number.ReadBack
import Curves.Proofs.Text.Normalization

/-!
# Fields are read back

A written field holds only graphic characters of ASCII: nothing is trimmed away, and its bytes say
nothing to the scanner unless they are structural. It is empty or the text of a number.

Main statements:

* `Text.decode_encode`: the bytes of a text denote it;
* `graphic_of_mem_text`: the characters of a double;
* `value?_field`: the value of a written field.
-/

namespace Curves.Text

/-! ## Bytes -/

theorem toList_loop (bytes : ByteArray) (i : Nat) (read : List UInt8) :
    ByteArray.toList.loop bytes i read = read.reverse ++ bytes.data.toList.drop i := by
  fun_induction ByteArray.toList.loop bytes i read with
  | case1 i read inside ih =>
    have inside' : i < bytes.data.toList.length := inside
    have byte : bytes.get! i = bytes.data.toList[i] := getElem!_pos bytes.data i inside
    rw [ih, byte, List.reverse_cons, List.append_assoc, List.singleton_append,
      ← List.drop_eq_getElem_cons inside']
  | case2 i read outside =>
    have outside' : bytes.data.toList.length ≤ i := Nat.le_of_not_lt outside
    rw [List.drop_eq_nil_of_le outside', List.append_nil]

theorem encode_eq (text : String) : encode text = text.toByteArray.data.toList := by
  rw [encode, ByteArray.toList, toList_loop]
  rfl

/-- The bytes of a text denote it. -/
theorem decode_encode (text : String) : decode (encode text) = .ok text := by
  have valid : (⟨(encode text).toArray⟩ : ByteArray).IsValidUTF8 := by
    rw [encode_eq]
    exact text.isValidUTF8
  rw [decode, String.fromUTF8?, dif_pos valid]
  simp only [String.fromUTF8, encode_eq, Array.toArray_toList]

/-- The bytes of graphic characters are in ASCII. -/
theorem lt_of_mem_encode {text : String} (graphic : ∀ c ∈ text.toList, isGraphic c) {b : UInt8}
    (h : b ∈ encode text) : b < 0x80 := by
  rw [encode_eq, ← String.ofList_toList (s := text), String.toByteArray_ofList, List.utf8Encode,
    List.toList_data_toByteArray, List.mem_flatMap] at h
  obtain ⟨c, hc, hb⟩ := h
  have small := graphic c hc
  simp only [isGraphic, Bool.and_eq_true, decide_eq_true_eq, Char.toNat] at small
  rw [String.utf8EncodeChar, if_pos (by omega), List.mem_singleton] at hb
  rw [hb, UInt8.lt_iff_toNat_lt, UInt8.toNat_ofNat']
  change _ < 128
  omega

end Curves.Text

namespace Curves.Number
open Float.Model.UnpackedFloat (Sign)
open Text (isGraphic isGraphic_of_isDigit)

/-! ## Characters of numbers -/

theorem graphic_of_mem_withPoint {digits : List Char} (hd : ∀ c ∈ digits, c.isDigit) (places : Nat)
    {c : Char} (h : c ∈ Decimal.withPoint digits places) : isGraphic c := by
  rcases digit_or_point_of_mem_withPoint hd places h with digit | rfl
  · exact isGraphic_of_isDigit digit
  · rfl

theorem graphic_of_mem_signed {s : Sign} {w : List Char} (hw : ∀ c ∈ w, isGraphic c) :
    ∀ c ∈ (signed s w).toList, isGraphic c := by
  rw [toList_signed]
  cases s with
  | negative => exact List.forall_mem_cons.2 ⟨rfl, hw⟩
  | positive => exact hw

/-- The text of a double is made of graphic characters. -/
theorem graphic_of_mem_text (x : Float) : ∀ c ∈ (text x).toList, isGraphic c := by
  unfold text render
  split
  · exact List.all_eq_true.1 (by decide)
  · exact graphic_of_mem_signed (List.all_eq_true.1 (by decide))
  · exact graphic_of_mem_signed (List.all_eq_true.1 (by decide))
  · exact graphic_of_mem_signed fun c hc =>
      graphic_of_mem_withPoint (fun c => isDigit_of_mem_digitsOf) _ hc

theorem toList_toString (n : Nat) : (toString n).toList = Decimal.digitsOf n := by
  rw [Nat.toString_eq_ofList_toDigits, String.toList_ofList, Decimal.digitsOf]

/-- A natural number is read as the double nearest to it. -/
theorem read?_toString (n : Nat) : read? (toString n).toList = some (Float.ofNat n) := by
  have digits : ∀ c ∈ Decimal.digitsOf n, c.isDigit := fun c => isDigit_of_mem_digitsOf
  obtain ⟨c, rest, first⟩ := List.exists_cons_of_ne_nil (digitsOf_ne_nil n)
  have digit_first : ∃ c ∈ (Decimal.digitsOf n).head?, c.isDigit :=
    ⟨c, congrArg List.head? first, digits c (first ▸ List.mem_cons_self)⟩
  rw [toList_toString, Grammar.read?_of_digit_first digit_first,
    Grammar.readDecimal?_digits (digitsOf_ne_nil n) digits, digitsValue_digitsOf]
  rfl

end Curves.Number

namespace Curves.Csv
open Text (isGraphic isGraphic_of_isDigit)

/-! ## Fields of records -/

def value? (field : String) : Option Float := Number.read? field.toList

/-- A field that is read as it stands: it is a number without blanks, or empty. -/
structure Readable (field : String) : Prop where
  graphic : ∀ c ∈ field.toList, isGraphic c
  value : field = "" ∨ (value? field).isSome

theorem value?_empty : value? "" = none := rfl

theorem readable_empty : Readable "" := ⟨nofun, .inl rfl⟩

/-- The shortest digits of a double are read back from a field. -/
theorem readable_text (x : Float) : Readable (Number.text x) :=
  ⟨Number.graphic_of_mem_text x, .inr (by rw [value?, Number.read?_text, Option.isSome_some])⟩

/-- Numbers of rows are read back from a field. -/
theorem readable_toString (n : Nat) : Readable (toString n) where
  graphic c hc := by
    rw [Number.toList_toString] at hc
    exact isGraphic_of_isDigit (Number.isDigit_of_mem_digitsOf hc)
  value := .inr (by rw [value?, Number.read?_toString, Option.isSome_some])

/-- Whether a row with these numbers is written. -/
def NonFiniteForm.keeps : NonFiniteForm → List Float → Bool
  | .leftOut, numbers => numbers.all Float.isFinite
  | _, _ => true

/-- Whether the field of a number that is written is not blank. -/
def NonFiniteForm.shows : NonFiniteForm → Float → Bool
  | .blank, x => x.isFinite
  | _, _ => true

section Format
variable {format : Format}

theorem fields?_eq (format : Format) (numbers : List Float) :
    format.fields? numbers =
      if format.nonFinite.keeps numbers then some (numbers.map format.field) else none := by
  have infinite : numbers.any (!·.isFinite) = !numbers.all Float.isFinite := by
    rw [List.not_all_eq_any_not]
  rw [Format.fields?, infinite]
  cases format.nonFinite with
  | leftOut => cases h : numbers.all Float.isFinite <;> simp [NonFiniteForm.keeps, h]
  | _ => rfl

/-- What a field shows of a number when no number of places is asked for. -/
theorem field_eq (shortest : format.places = none) (x : Float) :
    format.field x = if format.nonFinite.shows x then Number.text x else "" := by
  rw [Format.field, shortest]
  cases format.nonFinite with
  | blank => cases h : x.isFinite <;> simp [NonFiniteForm.shows, h]
  | _ => simp [NonFiniteForm.shows]

/-- Every field that holds a number in its shortest form can be read back. -/
theorem readable_field (shortest : format.places = none) (x : Float) :
    Readable (format.field x) := by
  rw [field_eq shortest]
  split
  · exact readable_text x
  · exact readable_empty

/-- A written field has its number as value, unless it is left blank. -/
theorem value?_field (shortest : format.places = none) (x : Float) :
    value? (format.field x) = if format.nonFinite.shows x then some x else none := by
  rw [field_eq shortest]
  split
  · exact Number.read?_text x
  · exact value?_empty

end Format

/-- What a row has in a column, if all its fields are readable: fields that are absent or empty are
passed over. -/
theorem rowValue_of_readable {selection : Selection} (skips : selection.skipsBlanks = true)
    {fields : List String} (readable : ∀ field ∈ fields, Readable field) (column row : Nat) :
    selection.rowValue column row fields = .ok (fields[column]?.bind value?) := by
  unfold Selection.rowValue
  cases found : fields[column]? with
  | none => exact if_pos skips
  | some field =>
    obtain ⟨graphic, value⟩ := readable field (List.mem_of_getElem? found)
    dsimp only
    rw [trimmed, Text.trim_of_graphic graphic, Option.bind_some]
    split
    · rename_i empty
      rw [value?, List.isEmpty_iff.1 empty]
      rfl
    · rename_i nonempty
      obtain ⟨x, hx⟩ := Option.isSome_iff_exists.1 (value.resolve_left fun empty =>
        nonempty (by rw [empty]; rfl))
      rw [value?] at hx ⊢
      rw [fieldValue?, hx]
      rfl

end Curves.Csv
