import Mathlib.Data.List.Basic
import Mathlib.Tactic.Ring

/-!
# Codes of byte strings

Big-endian numbers of a fixed width, sequences of parts that are preceded by their lengths, and the
unpadded base64 code for URLs.
-/

namespace ByteCode

abbrev Bytes := List UInt8

/-- The bytes of a text in UTF-8. -/
def textBytes (s : String) : Bytes := s.toByteArray.data.toList

theorem textBytes_inj {s t : String} (h : textBytes s = textBytes t) : s = t := by
  apply String.toByteArray_inj.1
  exact ByteArray.ext (Array.toList_inj.1 h)

theorem textBytes_append (s t : String) : textBytes (s ++ t) = textBytes s ++ textBytes t := by
  simp [textBytes]

/-- The last `width` bytes of a number, the most significant first. -/
def bigEndian : Nat → Nat → Bytes
  | 0, _ => []
  | width + 1, n => bigEndian width (n / 256) ++ [UInt8.ofNat n]

def ofBigEndian (bytes : Bytes) : Nat := bytes.foldl (fun n byte => n * 256 + byte.toNat) 0

@[simp] theorem length_bigEndian (width n : Nat) : (bigEndian width n).length = width := by
  induction width generalizing n with
  | zero => rfl
  | succ width ih => rw [bigEndian, List.length_append, ih, List.length_singleton]

theorem ofBigEndian_bigEndian (width n : Nat) : ofBigEndian (bigEndian width n) = n % 256 ^ width := by
  induction width generalizing n with
  | zero => rw [pow_zero, Nat.mod_one]; rfl
  | succ width ih =>
    have hlast : (UInt8.ofNat n).toNat = n % 256 := UInt8.toNat_ofNat'
    have hinit : (bigEndian width (n / 256)).foldl (fun n byte => n * 256 + byte.toNat) 0 =
        n / 256 % 256 ^ width := ih (n / 256)
    rw [ofBigEndian, bigEndian, List.foldl_append, hinit, List.foldl_cons, List.foldl_nil, hlast,
      pow_succ', Nat.mod_mul]
    ring

theorem bigEndian_mod (width n : Nat) : bigEndian width (n % 256 ^ width) = bigEndian width n := by
  induction width generalizing n with
  | zero => rfl
  | succ width ih =>
    have hdiv : n % 256 ^ (width + 1) / 256 = n / 256 % 256 ^ width := by
      rw [pow_succ', Nat.mod_mul_right_div_self]
    have hlast : UInt8.ofNat (n % 256 ^ (width + 1)) = UInt8.ofNat n := by
      apply UInt8.toNat_inj.1
      rw [UInt8.toNat_ofNat', UInt8.toNat_ofNat', pow_succ']
      exact Nat.mod_mul_right_mod n 256 (256 ^ width)
    rw [bigEndian, bigEndian, hdiv, ih, hlast]

theorem mod_eq_of_bigEndian {width m n : Nat} (h : bigEndian width m = bigEndian width n) :
    m % 256 ^ width = n % 256 ^ width := by
  rw [← ofBigEndian_bigEndian, h, ofBigEndian_bigEndian]

def frames (width : Nat) (parts : List Bytes) : Bytes :=
  parts.flatMap fun part => bigEndian width part.length ++ part

@[simp] theorem frames_nil (width : Nat) : frames width [] = [] := rfl

theorem frames_cons (width : Nat) (part : Bytes) (parts : List Bytes) :
    frames width (part :: parts) = bigEndian width part.length ++ (part ++ frames width parts) := by
  rw [frames, List.flatMap_cons, List.append_assoc, frames]

theorem frames_inj {width : Nat} {parts parts' : List Bytes} (hcount : parts.length = parts'.length)
    (hlength : (frames width parts).length < 256 ^ width)
    (h : frames width parts = frames width parts') : parts = parts' := by
  induction parts generalizing parts' with
  | nil =>
    cases parts' with
    | nil => rfl
    | cons part' parts' => simp at hcount
  | cons part parts ih =>
    cases parts' with
    | nil => simp at hcount
    | cons part' parts' =>
      have hlength' : (frames width (part' :: parts')).length < 256 ^ width := by rw [← h]; exact hlength
      rw [frames_cons, frames_cons] at h
      simp only [frames_cons, List.length_append, length_bigEndian] at hlength hlength'
      obtain ⟨hnumbers, hrest⟩ := List.append_inj h (by simp)
      have hparts : part.length = part'.length := by
        have hmod := mod_eq_of_bigEndian hnumbers
        rwa [Nat.mod_eq_of_lt (by omega), Nat.mod_eq_of_lt (by omega)] at hmod
      obtain ⟨rfl, htail⟩ := List.append_inj hrest hparts
      rw [ih (by simpa using hcount) (by omega) htail]

def alphabet : List Char :=
  "ABCDEFGHIJKLMNOPQRSTUVWXYZabcdefghijklmnopqrstuvwxyz0123456789-_".toList

def encodeDigit (n : Nat) : Char := alphabet.getD n 'A'

def decodeDigit (c : Char) : Option Nat := alphabet.idxOf? c

/-- Groups of six bits; the last group is filled with zeros. -/
def toDigits : Bytes → List Nat
  | a :: b :: c :: rest =>
    let n := a.toNat * 65536 + b.toNat * 256 + c.toNat
    n / 262144 :: n / 4096 % 64 :: n / 64 % 64 :: n % 64 :: toDigits rest
  | [a, b] =>
    let n := a.toNat * 256 + b.toNat
    [n / 1024, n / 16 % 64, n * 4 % 64]
  | [a] => [a.toNat / 4, a.toNat * 16 % 64]
  | [] => []

/-- The bits of a last group that fill no byte are ignored. -/
def ofDigits : List Nat → Option Bytes
  | w :: x :: y :: z :: rest =>
    let n := w * 262144 + x * 4096 + y * 64 + z
    (ofDigits rest).map fun bytes =>
      UInt8.ofNat (n / 65536) :: UInt8.ofNat (n / 256) :: UInt8.ofNat n :: bytes
  | [w, x, y] =>
    let n := w * 4096 + x * 64 + y
    some [UInt8.ofNat (n / 1024), UInt8.ofNat (n / 4)]
  | [w, x] => some [UInt8.ofNat ((w * 64 + x) / 16)]
  | [_] => none
  | [] => some []

def encode (bytes : Bytes) : List Char := (toDigits bytes).map encodeDigit

def decode (text : List Char) : Option Bytes :=
  (text.filter fun c => c ≠ '\n' && c ≠ '\r').mapM decodeDigit >>= ofDigits

theorem toDigits_lt (bytes : Bytes) : ∀ digit ∈ toDigits bytes, digit < 64 := by
  fun_induction toDigits bytes with
  | case1 a b c rest n ih =>
    have ha := a.toNat_lt
    have hb := b.toNat_lt
    have hc := c.toNat_lt
    intro digit hdigit
    simp only [List.mem_cons] at hdigit
    rcases hdigit with rfl | rfl | rfl | rfl | hdigit
    · omega
    · omega
    · omega
    · omega
    · exact ih digit hdigit
  | case2 a b n =>
    have ha := a.toNat_lt
    have hb := b.toNat_lt
    intro digit hdigit
    simp only [List.mem_cons, List.not_mem_nil, or_false] at hdigit
    omega
  | case3 a =>
    have ha := a.toNat_lt
    intro digit hdigit
    simp only [List.mem_cons, List.not_mem_nil, or_false] at hdigit
    omega
  | case4 => simp

theorem eq_ofNat {byte : UInt8} {n : Nat} (h : n % 256 = byte.toNat) : UInt8.ofNat n = byte := by
  apply UInt8.toNat_inj.1
  rw [UInt8.toNat_ofNat', ← h]

theorem ofDigits_toDigits (bytes : Bytes) : ofDigits (toDigits bytes) = some bytes := by
  fun_induction toDigits bytes with
  | case1 a b c rest n ih =>
    have ha := a.toNat_lt
    have hb := b.toNat_lt
    have hc := c.toNat_lt
    have hn : n / 262144 * 262144 + n / 4096 % 64 * 4096 + n / 64 % 64 * 64 + n % 64 = n := by omega
    rw [ofDigits, ih]
    simp only [hn, Option.map_some]
    rw [eq_ofNat (by omega : n / 65536 % 256 = a.toNat), eq_ofNat (by omega : n / 256 % 256 = b.toNat),
      eq_ofNat (by omega : n % 256 = c.toNat)]
  | case2 a b n =>
    have ha := a.toNat_lt
    have hb := b.toNat_lt
    simp only [ofDigits]
    rw [eq_ofNat (by omega : (n / 1024 * 4096 + n / 16 % 64 * 64 + n * 4 % 64) / 1024 % 256 = a.toNat),
      eq_ofNat (by omega : (n / 1024 * 4096 + n / 16 % 64 * 64 + n * 4 % 64) / 4 % 256 = b.toNat)]
  | case3 a =>
    have ha := a.toNat_lt
    simp only [ofDigits]
    rw [eq_ofNat (by omega : (a.toNat / 4 * 64 + a.toNat * 16 % 64) / 16 % 256 = a.toNat)]
  | case4 => rfl

theorem decodeDigit_encodeDigit : ∀ n < 64, decodeDigit (encodeDigit n) = some n := by decide

theorem encodeDigit_mem : ∀ n < 64, encodeDigit n ∈ alphabet := by decide

theorem not_line_end_of_mem_alphabet {c : Char} (h : c ∈ alphabet) : c ≠ '\n' ∧ c ≠ '\r' := by
  have hcodes : (alphabet.all fun c => 13 < c.toNat) = true := by decide +kernel
  have hlarge : 13 < c.toNat := of_decide_eq_true (List.all_eq_true.1 hcodes c h)
  constructor
  · rintro rfl
    exact absurd hlarge (by decide)
  · rintro rfl
    exact absurd hlarge (by decide)

theorem mem_encode {bytes : Bytes} {c : Char} (h : c ∈ encode bytes) : c ∈ alphabet := by
  obtain ⟨digit, hdigit, rfl⟩ := List.mem_map.1 h
  exact encodeDigit_mem digit (toDigits_lt bytes digit hdigit)

theorem decode_encode (bytes : Bytes) : decode (encode bytes) = some bytes := by
  have hfilter : (encode bytes).filter (fun c => c ≠ '\n' && c ≠ '\r') = encode bytes := by
    apply List.filter_eq_self.2
    intro c hc
    simpa using not_line_end_of_mem_alphabet (mem_encode hc)
  have hdigits : ∀ digits : List Nat, (∀ digit ∈ digits, digit < 64) →
      (digits.map encodeDigit).mapM decodeDigit = some digits := by
    intro digits
    induction digits with
    | nil => simp
    | cons digit digits ih =>
      intro hall
      rw [List.forall_mem_cons] at hall
      simp [List.mapM_cons, decodeDigit_encodeDigit digit hall.1, ih hall.2]
  rw [decode, hfilter, encode, hdigits _ (toDigits_lt bytes)]
  exact ofDigits_toDigits bytes

end ByteCode
