/-
The bytes of a text are read back, and no other bytes are those of a text.

- `Utf8.read_utf8`: the bytes of a text are read as its characters, one by one and with whatever stands behind
  (`readFrom_utf8EncodeChar`).
- `Utf8.text?_eq_some_iff`: bytes have a text exactly if they are its bytes.
-/
import LaunchReports.Text.Utf8
import Mathlib.Tactic.SplitIfs

namespace LaunchReports

theorem utf8_eq (text : String) : utf8 text = text.toList.flatMap String.utf8EncodeChar := by
  have hbytes : text.toUTF8 = text.toList.utf8Encode := by
    rw [← String.toByteArray_ofList, String.ofList_toList]
    rfl
  rw [utf8, hbytes, List.utf8Encode]
  simp

theorem utf8_ofList (text : List Char) : utf8 (String.ofList text) = text.flatMap String.utf8EncodeChar := by
  rw [utf8_eq, String.toList_ofList]

namespace Utf8

/-! ## First bytes -/

theorem start_one : ∀ n < 0x80, start (UInt8.ofNat n) = ([some (Char.ofNat n)], none) := by decide

theorem start_two : ∀ n < 32, 2 ≤ n → start (UInt8.ofNat (n + 192)) = ([], some ⟨n, 0, 0x80, 0xBF⟩) := by decide

theorem start_three : ∀ n < 16, start (UInt8.ofNat (n + 224)) =
    ([], some ⟨n, 1, if n = 0 then 0xA0 else 0x80, if n = 13 then 0x9F else 0xBF⟩) := by
  decide

theorem start_four : ∀ n < 5, start (UInt8.ofNat (n + 240)) =
    ([], some ⟨n, 2, if n = 0 then 0x90 else 0x80, if n = 4 then 0x8F else 0xBF⟩) := by
  decide

/-! ## Bytes behind the first -/

section

variable {number d : Nat} {least greatest : UInt8} (hd : d < 64)
include hd

theorem toNat_tail : (UInt8.ofNat (d + 128)).toNat = d + 128 := UInt8.toNat_ofNat_of_lt (show d + 128 < 256 by omega)

variable (hleast : least.toNat ≤ d + 128) (hgreatest : d + 128 ≤ greatest.toNat)
include hleast hgreatest

theorem tail_within : least ≤ UInt8.ofNat (d + 128) ∧ UInt8.ofNat (d + 128) ≤ greatest := by
  rw [UInt8.le_iff_toNat_le, UInt8.le_iff_toNat_le, toNat_tail hd]
  exact ⟨hleast, hgreatest⟩

theorem next_last :
    Pending.next ⟨number, 0, least, greatest⟩ (UInt8.ofNat (d + 128)) = ([some (Char.ofNat (number * 64 + d))], none) := by
  rw [Pending.next, if_pos (tail_within hd hleast hgreatest), toNat_tail hd, Nat.add_sub_cancel]

theorem next_more (behind : Nat) :
    Pending.next ⟨number, behind + 1, least, greatest⟩ (UInt8.ofNat (d + 128)) =
      ([], some ⟨number * 64 + d, behind, 0x80, 0xBF⟩) := by
  rw [Pending.next, if_pos (tail_within hd hleast hgreatest), toNat_tail hd, Nat.add_sub_cancel]

end

/-! ## Characters -/

/-- the bytes of a character are read as that character, whatever stands behind -/
theorem readFrom_utf8EncodeChar (c : Char) (rest : List UInt8) :
    readFrom none (String.utf8EncodeChar c ++ rest) = some c :: readFrom none rest := by
  have hvalid : c.val.toNat < 0xD800 ∨ 0xDFFF < c.val.toNat ∧ c.val.toNat < 0x110000 := c.valid
  have hchar : Char.ofNat c.val.toNat = c := Char.ofNat_toNat c
  unfold String.utf8EncodeChar
  generalize c.val.toNat = v at *
  dsimp only
  split_ifs with hone htwo hthree
  · rw [List.singleton_append, readFrom, start_one v (by omega), hchar]
    rfl
  · have hnumber : v / 64 % 32 * 64 + v % 64 = v := by omega
    rw [List.cons_append, readFrom, start_two _ (by omega) (by omega), List.singleton_append, List.nil_append, readFrom,
      next_last (by omega) (show 128 ≤ _ by omega) (show _ ≤ 191 by omega), hnumber, hchar]
    rfl
  · have hnumber : (v / 4096 % 16 * 64 + v / 64 % 64) * 64 + v % 64 = v := by omega
    -- after `E0` a smaller second byte would make a shorter character, after `ED` a greater one a surrogate
    have hleast : (if v / 4096 % 16 = 0 then 0xA0 else 0x80 : UInt8).toNat ≤ v / 64 % 64 + 128 := by
      split_ifs with hfirst
      · show 160 ≤ _
        omega
      · show 128 ≤ _
        omega
    have hgreatest : v / 64 % 64 + 128 ≤ (if v / 4096 % 16 = 13 then 0x9F else 0xBF : UInt8).toNat := by
      split_ifs with hfirst
      · show _ ≤ 159
        omega
      · show _ ≤ 191
        omega
    rw [List.cons_append, readFrom, start_three _ (by omega), List.cons_append, List.nil_append, readFrom,
      next_more (by omega) hleast hgreatest, List.singleton_append, List.nil_append, readFrom,
      next_last (by omega) (show 128 ≤ _ by omega) (show _ ≤ 191 by omega), hnumber, hchar]
    rfl
  · have hnumber : ((v / 262144 % 8 * 64 + v / 4096 % 64) * 64 + v / 64 % 64) * 64 + v % 64 = v := by omega
    -- after `F0` a smaller second byte would make a shorter character, after `F4` a greater one no character
    have hleast : (if v / 262144 % 8 = 0 then 0x90 else 0x80 : UInt8).toNat ≤ v / 4096 % 64 + 128 := by
      split_ifs with hfirst
      · show 144 ≤ _
        omega
      · show 128 ≤ _
        omega
    have hgreatest : v / 4096 % 64 + 128 ≤ (if v / 262144 % 8 = 4 then 0x8F else 0xBF : UInt8).toNat := by
      split_ifs with hfirst
      · show _ ≤ 143
        omega
      · show _ ≤ 191
        omega
    rw [List.cons_append, readFrom, start_four _ (by omega), List.cons_append, List.nil_append, readFrom,
      next_more (by omega) hleast hgreatest, List.cons_append, List.nil_append, readFrom,
      next_more (by omega) (show 128 ≤ _ by omega) (show _ ≤ 191 by omega), List.singleton_append, List.nil_append,
      readFrom, next_last (by omega) (show 128 ≤ _ by omega) (show _ ≤ 191 by omega), hnumber, hchar]
    rfl

theorem read_utf8 (text : String) : read (utf8 text) = text.toList.map some := by
  rw [utf8_eq, read]
  induction text.toList with
  | nil => rfl
  | cons c chars ih => rw [List.flatMap_cons, readFrom_utf8EncodeChar, ih, List.map_cons]

/-! ## Texts -/

theorem display_utf8 (text : String) : display (utf8 text) = text := by
  rw [display, read_utf8, List.map_map]
  simp [Function.comp_def]

theorem text?_eq_some_iff {bytes : List UInt8} {text : String} : text? bytes = some text ↔ bytes = utf8 text := by
  rw [text?]
  constructor
  · intro h
    split_ifs at h with hbytes
    rw [← Option.some.inj h, hbytes]
  · rintro rfl
    rw [display_utf8, if_pos rfl]

theorem utf8_injective {a b : String} (h : utf8 a = utf8 b) : a = b := by
  rw [← display_utf8 a, h, display_utf8]

end Utf8

end LaunchReports
