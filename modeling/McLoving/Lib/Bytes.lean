import Mathlib.Data.List.Basic
import Mathlib.Algebra.Order.Ring.Int
import Mathlib.Data.List.Induction
import Mathlib.Tactic.NormNum

/-!
# Texts and byte encodings

The ways to take a text apart at a separator.  A string's UTF-8 bytes, big-endian integers of a
fixed width and fields that carry their length: a sequence of either of the two can be read back
from the front, so an encoding made of them determines what it encodes.
-/

namespace McLoving.Split

open List Option

variable {α : Type*} [DecidableEq α]

/-- What follows a beginning. -/
def stripPrefix : List α → List α → Option (List α)
  | [], text => some text
  | _ :: _, [] => none
  | x :: start, y :: text => if x = y then stripPrefix start text else none

/-- What stands before an end. -/
def stripSuffix (ending text : List α) : Option (List α) :=
  (stripPrefix ending.reverse text.reverse).map List.reverse

/-- The texts around the first separator. -/
def once (separator : α) : List α → Option (List α × List α)
  | [] => none
  | x :: text =>
    if x = separator then some ([], text)
    else (once separator text).map fun parts => (x :: parts.1, parts.2)

/-- The texts around the last separator. -/
def last (separator : List α) : List α → Option (List α × List α)
  | [] => (stripPrefix separator []).map fun rest => ([], rest)
  | x :: text =>
    match last separator text with
    | some parts => some (x :: parts.1, parts.2)
    | none => (stripPrefix separator (x :: text)).map fun rest => ([], rest)

theorem eq_of_stripPrefix {start text rest : List α} (hstrip : stripPrefix start text = some rest) :
    text = start ++ rest := by
  induction start generalizing text with
  | nil => exact Option.some.inj hstrip
  | cons _ _ ih =>
    cases text with
    | nil => cases hstrip
    | cons =>
      rw [stripPrefix] at hstrip
      split_ifs at hstrip with hxy
      rw [hxy, ih hstrip, cons_append]

theorem eq_of_stripSuffix {ending text rest : List α}
    (hstrip : stripSuffix ending text = some rest) : text = rest ++ ending := by
  obtain ⟨reversed, hreversed, rfl⟩ := map_eq_some_iff.mp hstrip
  have htext := congrArg List.reverse (eq_of_stripPrefix hreversed)
  rwa [reverse_append, reverse_reverse, reverse_reverse] at htext

/-- A text is taken apart at the separator behind a part without one. -/
theorem once_append {separator : α} {before : List α} (after : List α)
    (hfree : separator ∉ before) :
    once separator (before ++ separator :: after) = some (before, after) := by
  induction before with
  | nil => simp [once]
  | cons _ _ ih =>
    rw [mem_cons, not_or] at hfree
    rw [cons_append, once, if_neg (Ne.symm hfree.1), ih hfree.2, map_some]

theorem eq_of_once {separator : α} {text before after : List α}
    (honce : once separator text = some (before, after)) : text = before ++ separator :: after := by
  induction text generalizing before with
  | nil => cases honce
  | cons _ _ ih =>
    rw [once] at honce
    split_ifs at honce with hx
    · cases honce
      rw [hx, nil_append]
    · obtain ⟨⟨left, right⟩, hrest, hparts⟩ := map_eq_some_iff.mp honce
      cases hparts
      rw [ih hrest, cons_append]

theorem eq_of_last {separator text before after : List α}
    (hlast : last separator text = some (before, after)) : text = before ++ separator ++ after := by
  induction text generalizing before with
  | nil =>
    obtain ⟨rest, hrest, hparts⟩ := map_eq_some_iff.mp hlast
    cases hparts
    rw [nil_append, ← eq_of_stripPrefix hrest]
  | cons _ text ih =>
    rw [last] at hlast
    cases hrest : last separator text with
    | some parts =>
      obtain ⟨left, right⟩ := parts
      rw [hrest] at hlast
      cases hlast
      rw [ih hrest, cons_append, cons_append]
    | none =>
      rw [hrest] at hlast
      obtain ⟨rest, hstrip, hparts⟩ := map_eq_some_iff.mp hlast
      cases hparts
      rw [nil_append, ← eq_of_stripPrefix hstrip]

end McLoving.Split

namespace Bytes

/-- The big-endian encoding of a number in a fixed number of bytes. -/
def bigEndian : ℕ → ℕ → List UInt8
  | 0, _ => []
  | width + 1, n => bigEndian width (n / 256) ++ [UInt8.ofNat n]

@[simp]
theorem length_bigEndian (width n : ℕ) : (bigEndian width n).length = width := by
  induction width generalizing n with
  | zero => rfl
  | succ _ ih => simp [bigEndian, ih]

/-- Numbers that fit the width have different encodings. -/
theorem bigEndian_injective {width m n : ℕ} (hm : m < 256 ^ width) (hn : n < 256 ^ width)
    (hsame : bigEndian width m = bigEndian width n) : m = n := by
  induction width generalizing m n with
  | zero => rw [pow_zero] at hm hn; omega
  | succ _ ih =>
    rw [pow_succ] at hm hn
    have hlast := List.append_inj' hsame rfl
    have hhigh := ih (Nat.div_lt_of_lt_mul (by omega)) (Nat.div_lt_of_lt_mul (by omega)) hlast.1
    have hlow : m % 256 = n % 256 := by
      have hbyte := congrArg UInt8.toNat (List.head_eq_of_cons_eq hlast.2)
      simpa using hbyte
    omega

/-- Two's complement in a fixed number of bytes. -/
def signed (width : ℕ) (n : ℤ) : List UInt8 :=
  bigEndian width (n % 256 ^ width).toNat

@[simp]
theorem length_signed (width : ℕ) (n : ℤ) : (signed width n).length = width := length_bigEndian ..

/-- Eight bytes determine a number in the range of `i64`. -/
theorem signed_injective {m n : ℤ} (hm : -2 ^ 63 ≤ m ∧ m < 2 ^ 63) (hn : -2 ^ 63 ≤ n ∧ n < 2 ^ 63)
    (hsame : signed 8 m = signed 8 n) : m = n := by
  have hpow : (256 : ℤ) ^ 8 = 2 ^ 64 := by norm_num
  have hnat : (256 : ℕ) ^ 8 = 2 ^ 64 := by norm_num
  unfold signed at hsame
  rw [hpow] at hsame
  have hmod := bigEndian_injective (by rw [hnat]; omega) (by rw [hnat]; omega) hsame
  omega

/-- A field behind its length in eight bytes. -/
def field (bytes : List UInt8) : List UInt8 :=
  bigEndian 8 bytes.length ++ bytes

/-- A field is read back from the front. -/
theorem field_append_inj {a b x y : List UInt8} (ha : a.length < 2 ^ 64) (hb : b.length < 2 ^ 64)
    (hsame : field a ++ x = field b ++ y) : a = b ∧ x = y := by
  have hnat : (256 : ℕ) ^ 8 = 2 ^ 64 := by norm_num
  unfold field at hsame
  rw [List.append_assoc, List.append_assoc] at hsame
  obtain ⟨hprefixed, hrest⟩ := List.append_inj hsame (by simp)
  have hlength := bigEndian_injective (by rwa [hnat]) (by rwa [hnat]) hprefixed
  exact List.append_inj hrest hlength

end Bytes

namespace ByteArray

open List

theorem loop_eq_append_drop (bytes : ByteArray) (i : ℕ) (acc : List UInt8) :
    toList.loop bytes i acc = acc.reverse ++ bytes.data.toList.drop i := by
  fun_induction toList.loop bytes i acc with
  | case1 i acc hlt ih =>
    rw [ih]
    have hdata : i < bytes.data.toList.length := by simpa using hlt
    rw [List.drop_eq_getElem_cons hdata]
    simp only [List.reverse_cons, List.append_assoc, List.cons_append, List.nil_append]
    congr 2
    simp only [ByteArray.get!, Array.getElem_toList]
    exact getElem!_pos bytes.data i hlt
  | case2 i acc hge =>
    have hdata : bytes.data.toList.length ≤ i := by simpa using hge
    rw [List.drop_eq_nil_of_le hdata, List.append_nil]

theorem toList_eq_data (bytes : ByteArray) : bytes.toList = bytes.data.toList := by
  rw [toList, loop_eq_append_drop, reverse_nil, nil_append, drop_zero]

end ByteArray

namespace Utf8

/-- The bytes of a text are those of its characters. -/
theorem bytes_eq_flatMap (text : String) :
    text.toUTF8.toList = text.toList.flatMap String.utf8EncodeChar := by
  rw [ByteArray.toList_eq_data, String.toUTF8, ← String.utf8Encode_toList, List.utf8Encode,
    List.toList_data_toByteArray]

theorem bytes_injective {a b : String} (hsame : a.toUTF8.toList = b.toUTF8.toList) : a = b := by
  rw [ByteArray.toList_eq_data, ByteArray.toList_eq_data] at hsame
  exact String.toByteArray_inj.mp (ByteArray.ext (Array.toList_inj.mp hsame))

/-- The bytes of a text as a list. -/
def encode (text : String) : List UInt8 :=
  text.toByteArray.data.toList

@[simp]
theorem length_encode (text : String) : (encode text).length = text.utf8ByteSize := rfl

theorem encode_injective {a b : String} (hsame : encode a = encode b) : a = b :=
  String.toByteArray_inj.mp (ByteArray.ext (Array.toList_inj.mp hsame))

theorem encode_eq_flatMap (text : String) :
    encode text = text.toList.flatMap String.utf8EncodeChar := by
  rw [← bytes_eq_flatMap, ByteArray.toList_eq_data]
  rfl

/-- The number of bytes of characters. -/
def size (text : List Char) : ℕ :=
  (text.map Char.utf8Size).sum

theorem size_cons (c : Char) (text : List Char) : size (c :: text) = c.utf8Size + size text := by
  rw [size, List.map_cons, List.sum_cons, size]

theorem utf8ByteSize_eq_size (text : String) : text.utf8ByteSize = size text.toList := by
  rw [← length_encode, encode_eq_flatMap, List.length_flatMap, size]
  simp only [String.length_utf8EncodeChar]

/-- A text has at least as many bytes as characters. -/
theorem length_le_size (text : String) : text.toList.length ≤ text.utf8ByteSize := by
  rw [utf8ByteSize_eq_size]
  induction text.toList with
  | nil => exact Nat.le_refl 0
  | cons c =>
    have hpos := c.utf8Size_pos
    rw [size_cons, List.length_cons]
    omega

end Utf8
