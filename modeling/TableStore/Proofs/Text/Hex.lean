import Mathlib.Logic.Function.Basic
import TableStore.Text.Hex
import TableStore.Proofs.Text.Bytes

/-! Hexadecimal digits: bytes are read back from their digits, and nothing but digits is
written. -/
namespace TableStore.Text.Hex

/-- The sixteen characters that are written. -/
def digits : List Char :=
  "0123456789abcdef".toList

/-- A digit is one byte, and stands for its number. -/
theorem digit_spec {n : UInt8} (h : n < 16) : digit n ∈ digits ∧
    ∃ b, String.utf8EncodeChar (digit n) = [b] ∧ value? b = some n := by
  have all : ∀ k : Fin 16, digit (.ofNat k) ∈ digits ∧
      String.utf8EncodeChar (digit (.ofNat k)) = [.ofNat (digit (.ofNat k)).toNat] ∧
      value? (.ofNat (digit (.ofNat k)).toNat) = some (.ofNat k) := by
    decide
  obtain ⟨hdigit, hbyte, hvalue⟩ := all ⟨n.toNat, UInt8.lt_iff_toNat_lt.mp h⟩
  rw [UInt8.ofNat_toNat] at hdigit hbyte hvalue
  exact ⟨hdigit, _, hbyte, hvalue⟩

theorem encode_cons (b : UInt8) (bytes : List UInt8) :
    encode (b :: bytes) = digit (b / 16) :: digit (b % 16) :: encode bytes := rfl

theorem halves_lt (b : UInt8) : b / 16 < 16 ∧ b % 16 < 16 := by
  simp only [UInt8.lt_iff_toNat_lt, UInt8.toNat_div, UInt8.toNat_mod]
  have hb := b.toNat_lt
  constructor
  · show b.toNat / 16 < 16
    omega
  · show b.toNat % 16 < 16
    omega

theorem halves_eq (b : UInt8) : 16 * (b / 16) + b % 16 = b := by
  apply UInt8.toNat_inj.mp
  simp only [UInt8.toNat_add, UInt8.toNat_mul, UInt8.toNat_div, UInt8.toNat_mod]
  have hb := b.toNat_lt
  show (16 * (b.toNat / 16) % 256 + b.toNat % 16) % 256 = b.toNat
  omega

theorem pairs_encode (index : Nat) (bytes : List UInt8) :
    pairs index (textBytes (encode bytes)) = .ok bytes := by
  induction bytes generalizing index with
  | nil => rfl
  | cons b bytes ih =>
    obtain ⟨-, high, hhigh, hvalue⟩ := digit_spec (halves_lt b).1
    obtain ⟨-, low, hlow, hvalue'⟩ := digit_spec (halves_lt b).2
    rw [encode_cons, textBytes_cons, textBytes_cons, hhigh, hlow]
    simp only [List.cons_append, List.nil_append, pairs, hvalue, hvalue', ih, Except.map,
      halves_eq]

theorem length_textBytes_encode (bytes : List UInt8) :
    (textBytes (encode bytes)).length = 2 * bytes.length := by
  induction bytes with
  | nil => rfl
  | cons b bytes ih =>
    obtain ⟨-, high, hhigh, -⟩ := digit_spec (halves_lt b).1
    obtain ⟨-, low, hlow, -⟩ := digit_spec (halves_lt b).2
    rw [encode_cons, textBytes_cons, textBytes_cons, hhigh, hlow]
    simp only [List.length_append, List.length_cons, List.length_nil, ih]
    omega

theorem mem_digits_of_mem_encode {bytes : List UInt8} {c : Char} (h : c ∈ encode bytes) :
    c ∈ digits := by
  obtain ⟨b, -, hc⟩ := List.mem_flatMap.mp h
  simp only [List.mem_cons, List.not_mem_nil, or_false] at hc
  rcases hc with rfl | rfl
  · exact (digit_spec (halves_lt b).1).1
  · exact (digit_spec (halves_lt b).2).1

theorem decode_encodeText (s : String) : decode (encodeText s) = .ok s.toUTF8.data.toList := by
  unfold decode encodeText
  simp only [toList_toUTF8_ofList, length_textBytes_encode, pairs_encode]
  rw [if_neg (by omega)]

theorem encodeText_injective : Function.Injective encodeText := by
  intro s t h
  have hs := decode_encodeText s
  rw [h, decode_encodeText t] at hs
  have hbytes : t.toUTF8 = s.toUTF8 :=
    ByteArray.ext (Array.toList_inj.mp (Except.ok.inj hs))
  exact (String.toByteArray_inj.mp hbytes).symm

theorem mem_digits_of_mem_encodeText {s : String} {c : Char} (h : c ∈ (encodeText s).toList) :
    c ∈ digits := by
  unfold encodeText at h
  rw [String.toList_ofList] at h
  exact mem_digits_of_mem_encode h

end TableStore.Text.Hex
