import DataEngine.Lib.Digits

/-!
Texts as octets, and octets as texts.

A text is stored in UTF-8 and can be read back. Octets that are written as two hexadecimal digits
and a blank each can be read back as well.
-/

namespace Lib.Text

open Lib.Digits

/-! ### Octets of a text -/

def bytes (str : String) : List UInt8 := str.toByteArray.data.toList

/-- What the octets say, if they are a text. -/
def readBytes (octets : List UInt8) : Option String := String.fromUTF8? ⟨octets.toArray⟩

@[simp] lemma bytes_append (s t : String) : bytes (s ++ t) = bytes s ++ bytes t := by
  simp [bytes, String.toByteArray_append]

@[simp] lemma bytes_empty : bytes "" = [] := rfl

lemma bytes_join (strs : List String) : bytes (String.join strs) = strs.flatMap bytes := by
  induction strs with
  | nil => rfl
  | cons s strs ih => rw [String.join_cons, bytes_append, ih, List.flatMap_cons]

@[simp] lemma readBytes_bytes (str : String) : readBytes (bytes str) = some str := by
  have harray : (⟨(bytes str).toArray⟩ : ByteArray) = str.toByteArray := by
    simp [bytes]
  rw [readBytes, harray, String.fromUTF8?, dif_pos str.isValidUTF8]
  rfl

/-! ### Octets in a text -/

/-- Two hexadecimal digits with a fill of `0`, and a blank -/
def hexOctet (octet : UInt8) : List Char :=
  (if octet.toNat < 16 then '0' :: Nat.toDigits 16 octet.toNat
    else Nat.toDigits 16 octet.toNat) ++ [' ']

def hexValue (c : Char) : ℕ := if c.isDigit then c.toNat - '0'.toNat else c.toNat - 'a'.toNat + 10

def readOctets : List Char → List UInt8
  | high :: low :: _ :: rest => UInt8.ofNat (16 * hexValue high + hexValue low) :: readOctets rest
  | _ => []

lemma hexOctet_eq (octet : UInt8) : hexOctet octet =
    [(octet.toNat / 16).digitChar, (octet.toNat % 16).digitChar, ' '] := by
  have hlt := octet.toNat_lt
  have hfixed : ∀ n, fixed 16 2 n = [(n / 16 % 16).digitChar, (n % 16).digitChar] := fun n => rfl
  unfold hexOctet
  split_ifs with hlow
  · simp [Nat.toDigits_of_lt_base hlow, Nat.div_eq_of_lt hlow, Nat.mod_eq_of_lt hlow]
  · rw [← fixed_eq_toDigits (k := 1) (by decide) (by omega) (by omega), hfixed,
      Nat.mod_eq_of_lt (show octet.toNat / 16 < 16 by omega)]
    rfl

lemma hexValue_digitChar {n : ℕ} (h : n < 16) : hexValue n.digitChar = n := by
  have hall : ∀ n < 16, hexValue (Nat.digitChar n) = n := by decide
  exact hall n h

/-- The octets can be read back. -/
lemma readOctets_flatMap (octets : List UInt8) :
    readOctets (octets.flatMap hexOctet) = octets := by
  induction octets with
  | nil => rfl
  | cons octet octets ih =>
    have hlt := octet.toNat_lt
    have hvalue : 16 * (octet.toNat / 16) + octet.toNat % 16 = octet.toNat := by omega
    rw [List.flatMap_cons, hexOctet_eq]
    show UInt8.ofNat _ :: readOctets (octets.flatMap hexOctet) = _
    rw [hexValue_digitChar (by omega), hexValue_digitChar (by omega), hvalue, UInt8.ofNat_toNat,
      ih]

lemma not_mem_hexOctets {c : Char} (hc : c ≠ ' ') (hdigit : ∀ n < 16, c ≠ Nat.digitChar n)
    (octets : List UInt8) : c ∉ octets.flatMap hexOctet := by
  intro hmem
  obtain ⟨octet, -, hin⟩ := List.mem_flatMap.mp hmem
  have hlt := octet.toNat_lt
  rw [hexOctet_eq] at hin
  simp only [List.mem_cons, List.not_mem_nil, or_false] at hin
  rcases hin with h | h | h
  · exact hdigit _ (by omega) h
  · exact hdigit _ (by omega) h
  · exact hc h

end Lib.Text
