import TableStore.Table.File
import TableStore.Proofs.Text.Lines

/-! Text as bytes. A byte below 128 stands for the character of that number and for
nothing else, so a file is cut into the same lines before and after it is decoded. -/
namespace TableStore.Text

def textBytes (cs : List Char) : List UInt8 :=
  cs.flatMap String.utf8EncodeChar

theorem toList_toUTF8_ofList (cs : List Char) :
    (String.ofList cs).toUTF8.data.toList = textBytes cs := by
  rw [String.toUTF8_eq_toByteArray, String.toByteArray_ofList, List.utf8Encode,
    List.toList_data_toByteArray, textBytes]

theorem toUTF8_ofList (cs : List Char) :
    (String.ofList cs).toUTF8 = ⟨(textBytes cs).toArray⟩ := by
  apply ByteArray.ext
  rw [← toList_toUTF8_ofList]

theorem fromUTF8?_toUTF8 (s : String) : String.fromUTF8? s.toUTF8 = some s := by
  have valid : s.toUTF8.IsValidUTF8 := s.isValidUTF8
  unfold String.fromUTF8?
  rw [dif_pos valid]
  rfl

theorem fromUTF8?_eq_some {bytes : ByteArray} {s : String} :
    String.fromUTF8? bytes = some s ↔ bytes = s.toUTF8 := by
  constructor
  · intro h
    unfold String.fromUTF8? at h
    split at h
    · cases h
      rfl
    · cases h
  · rintro rfl
    exact fromUTF8?_toUTF8 s

theorem decodeText_toUTF8 (s : String) : decodeText s.toUTF8 = .ok s.toList := by
  unfold decodeText
  rw [fromUTF8?_toUTF8]

theorem decodeText_eq_error {bytes : ByteArray} {fault : Fault} :
    decodeText bytes = .error fault ↔
      String.fromUTF8? bytes = none ∧ fault = .disk .notUtf8 := by
  unfold decodeText
  cases String.fromUTF8? bytes <;> simp [eq_comm]

theorem exists_decodeText {bytes : ByteArray} :
    (∃ text, decodeText bytes = .ok text) ↔ String.fromUTF8? bytes ≠ none := by
  unfold decodeText
  cases String.fromUTF8? bytes <;> simp

theorem decodeText_textBytes (cs : List Char) :
    decodeText ⟨(textBytes cs).toArray⟩ = .ok cs := by
  rw [← toUTF8_ofList, decodeText_toUTF8, String.toList_ofList]

/-- All bytes of a character beyond ASCII are at least 128. -/
theorem toNat_of_mem_utf8EncodeChar {c : Char} {b : UInt8}
    (h : b ∈ String.utf8EncodeChar c) (hb : b.toNat < 128) : c.toNat = b.toNat := by
  unfold String.utf8EncodeChar at h
  show c.val.toNat = b.toNat
  generalize c.val.toNat = v at h ⊢
  simp only at h
  split at h
  · rw [List.mem_singleton.mp h, UInt8.toNat_ofNat']
    omega
  · exfalso
    simp only [apply_ite (b ∈ ·), List.mem_cons, List.not_mem_nil, or_false] at h
    split at h
    · rcases h with rfl | rfl <;> rw [UInt8.toNat_ofNat'] at hb <;> omega
    · split at h
      · rcases h with rfl | rfl | rfl <;> rw [UInt8.toNat_ofNat'] at hb <;> omega
      · rcases h with rfl | rfl | rfl | rfl <;> rw [UInt8.toNat_ofNat'] at hb <;> omega

theorem not_mem_utf8EncodeChar {c d : Char} {b : UInt8} (hb : b.toNat < 128)
    (hd : d.toNat = b.toNat) (h : c ≠ d) : b ∉ String.utf8EncodeChar c := by
  intro hm
  exact h (Char.toNat_inj.mp ((toNat_of_mem_utf8EncodeChar hm hb).trans hd.symm))

theorem textBytes_cons (c : Char) (cs : List Char) :
    textBytes (c :: cs) = String.utf8EncodeChar c ++ textBytes cs :=
  List.flatMap_cons

/-- Cutting into lines may come before or after the encoding. -/
theorem byteLines_textBytes (cs : List Char) :
    byteLines (textBytes cs) = (lines cs).map textBytes := by
  have feed : String.utf8EncodeChar '\n' = [10] := by decide
  have ret : String.utf8EncodeChar '\r' = [13] := by decide
  have notFeed {c : Char} (h : c ≠ '\n') : 10 ∉ String.utf8EncodeChar c :=
    not_mem_utf8EncodeChar (by decide) (by decide) h
  have notRet {c : Char} (h : c ≠ '\r') : 13 ∉ String.utf8EncodeChar c :=
    not_mem_utf8EncodeChar (by decide) (by decide) h
  unfold byteLines lines
  fun_induction linesBy '\n' '\r' cs with
  | case1 => rfl
  | case2 => decide
  | case3 c hc =>
    have hbytes : textBytes [c] = String.utf8EncodeChar c := List.flatMap_singleton ..
    rw [List.map_singleton, hbytes]
    exact linesBy_of_not_mem String.utf8EncodeChar_ne_nil (notFeed hc)
  | case4 d rest ih =>
    rw [textBytes_cons, feed, List.singleton_append, linesBy_feed_cons, ih]
    rfl
  | case5 c d rest hc hcd ih =>
    obtain ⟨rfl, rfl⟩ := hcd
    rw [textBytes_cons, textBytes_cons, feed, ret, List.singleton_append, List.singleton_append]
    exact (if_neg (by decide)).trans ((if_pos ⟨rfl, rfl⟩).trans (congrArg ([] :: ·) ih))
  | case6 c d rest hc hcd hnil ih => exact absurd hnil (linesBy_ne_nil (by simp))
  | case7 c d rest hc hcd line ls hls ih =>
    rw [hls, List.map_cons] at ih
    rw [textBytes_cons, List.map_cons, textBytes_cons c line]
    refine linesBy_append (notFeed hc) (fun hr => ?_) ih
    by_cases hret : c = '\r'
    · obtain ⟨b, bs, hb⟩ := List.exists_cons_of_ne_nil (String.utf8EncodeChar_ne_nil (c := d))
      rw [textBytes_cons, hb]
      rintro ⟨⟩
      exact notFeed (fun e => hcd ⟨hret, e⟩) (by rw [hb]; exact List.mem_cons_self)
    · exact absurd hr (notRet hret)

end TableStore.Text
