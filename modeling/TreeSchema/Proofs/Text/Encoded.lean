/-
# TreeSchema.Proofs.Text.Encoded — text that is stored as bytes and read again.

Text is stored in UTF-8.  A reader of bytes first looks for the mark of another encoding; no text begins
with such bytes, because neither of them begins a character in UTF-8.
-/
import TreeSchema.Text.Glyph
import TreeSchema.Text.Unicode
import Mathlib.Data.List.Basic

namespace TreeSchema.Text

/-- The bytes of a text are the text again. -/
theorem fromUTF8?_toUTF8 (s : String) : String.fromUTF8? s.toUTF8 = some s := by
  rw [String.fromUTF8?, String.toUTF8_eq_toByteArray, dif_pos s.isValidUTF8]
  rfl

theorem glyphsOfBytes_toUTF8 (s : String) : glyphsOfBytes s.toUTF8 = glyphs s := by
  rw [glyphsOfBytes, fromUTF8?_toUTF8]

/-! ## The first byte -/

theorem toList_loop_eq (data : ByteArray) (i : Nat) (r : List UInt8) :
    ByteArray.toList.loop data i r = r.reverse ++ data.data.toList.drop i := by
  -- the loop takes the bytes one by one from place `i` on
  induction hn : data.size - i generalizing i r with
  | zero =>
      have hi : ¬ i < data.size := by omega
      have hdrop : data.data.toList.length ≤ i := by
        rw [Array.length_toList]
        exact Nat.le_of_not_lt hi
      rw [ByteArray.toList.loop, if_neg hi, List.drop_eq_nil_of_le hdrop, List.append_nil]
  | succ n ih =>
      have hi : i < data.size := by omega
      have hlt : i < data.data.toList.length := by
        rw [Array.length_toList]
        exact hi
      have hbyte : data.get! i = data.data.toList[i] := by
        change data.data[i]! = _
        rw [getElem!_pos data.data i hi, Array.getElem_toList]
      rw [ByteArray.toList.loop, if_pos hi, ih (i + 1) _ (by omega), List.reverse_cons,
        List.append_assoc, List.drop_eq_getElem_cons hlt, hbyte]
      rfl

theorem toList_eq_data (data : ByteArray) : data.toList = data.data.toList := by
  rw [ByteArray.toList, toList_loop_eq]
  rfl

/-- Bytes come from one text. -/
theorem toList_toUTF8_inj {s t : String} (h : s.toUTF8.toList = t.toUTF8.toList) : s = t := by
  rw [toList_eq_data, toList_eq_data] at h
  exact String.toByteArray_inj.1 (ByteArray.ext (Array.toList_inj.1 h))

/-- The first byte of a text begins a character. -/
theorem isUTF8FirstByte_of_toList {s : String} {a : UInt8} {rest : List UInt8}
    (h : s.toUTF8.toList = a :: rest) : a.IsUTF8FirstByte := by
  rw [toList_eq_data] at h
  have hsize : 0 < s.toByteArray.size := by
    have hlength := congrArg List.length h
    rw [Array.length_toList, List.length_cons] at hlength
    exact Nat.lt_of_lt_of_eq (Nat.succ_pos _) hlength.symm
  have hfirst : s.toByteArray[0] = a := by
    have hhead : s.toByteArray.data.toList[0]? = some a := by
      rw [← String.toUTF8_eq_toByteArray, h]
      rfl
    simpa [ByteArray.getElem_eq_getElem_data] using (List.getElem?_eq_some_iff.1 hhead).2
  rw [← hfirst]
  exact s.isValidUTF8.isUTF8FirstByte_getElem_zero hsize

/-- **Text that was stored is decoded as it was**, but for a byte order mark at its front. -/
theorem decode?_toUTF8 (s : String) : decode? s.toUTF8 = some (withoutMark s.toList) := by
  unfold decode?
  split
  · next rest h => exact absurd (isUTF8FirstByte_of_toList h) (by decide)
  · next rest h => exact absurd (isUTF8FirstByte_of_toList h) (by decide)
  · rw [fromUTF8?_toUTF8, Option.map_some]

end TreeSchema.Text
