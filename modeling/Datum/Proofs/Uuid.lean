import Datum.Bytes
import Datum.Proofs.Bytes
import Datum.Proofs.Text.Blanks
import Datum.Proofs.Text.Utf8

/-!
# UUIDs and bytes as text

A word is the number of its big-endian bytes, bytes are read back from their hexadecimal text, and
so a UUID is read back from its text, whose dashes do not count.
-/

set_option autoImplicit false

namespace Datum

open Text (unit)

namespace Text

variable {mark : Text}

theorem mem_join {v : UInt16} (pieces : List Text) (h : v ∈ join mark pieces) :
    v ∈ pieces.flatten ∨ v ∈ mark := by
  induction pieces using join.induct with
  | case1 => cases h
  | case2 t => exact .inl (by simpa [join] using h)
  | case3 t rest hrest ih =>
    rw [join, List.mem_append, List.mem_append] at h
    rw [List.flatten_cons, List.mem_append]
    · rcases h with (h | h) | h
      · exact .inl (.inl h)
      · exact .inr h
      · exact (ih h).imp_left .inr
    · exact hrest

theorem filter_join {keep : UInt16 → Bool} (h : mark.filter keep = []) (pieces : List Text) :
    (join mark pieces).filter keep = pieces.flatten.filter keep := by
  induction pieces using join.induct with
  | case1 => rfl
  | case2 t => simp [join]
  | case3 t rest hrest ih =>
    rw [join, List.filter_append, List.filter_append, h, List.append_nil, ih, List.flatten_cons,
      List.filter_append]
    exact hrest

end Text

namespace Text.Hex

theorem value?_digit {n : Nat} (h : n < 16) : value? (digit n) = some n := by
  revert n
  decide

theorem digit_lt {n : Nat} (h : n < 16) : (digit n).toNat < 0x80 := by
  revert n
  decide

theorem digit_ne_dash {n : Nat} (h : n < 16) : digit n ≠ unit '-' := by
  revert n
  decide

theorem digit_isBlank {n : Nat} (h : n < 16) : isBlank (digit n) = false := by
  revert n
  decide

theorem encode_digit {b : Bytes} {u : UInt16} (h : u ∈ encode b) : ∃ n, n < 16 ∧ u = digit n := by
  obtain ⟨x, -, hu⟩ := List.mem_flatMap.1 h
  have hx := x.toNat_lt
  rcases List.mem_cons.1 hu with rfl | hu
  · exact ⟨x.toNat / 16, by omega, rfl⟩
  · exact ⟨x.toNat % 16, by omega, List.mem_singleton.1 hu⟩

theorem isAscii_encode (b : Bytes) : (encode b).IsAscii := by
  intro u hu
  obtain ⟨n, hn, rfl⟩ := encode_digit hu
  exact digit_lt hn

theorem isBlank_of_mem_encode {b : Bytes} {u : UInt16} (h : u ∈ encode b) : isBlank u = false := by
  obtain ⟨n, hn, rfl⟩ := encode_digit h
  exact digit_isBlank hn

theorem ne_dash_of_mem_encode {b : Bytes} {u : UInt16} (h : u ∈ encode b) : u ≠ unit '-' := by
  obtain ⟨n, hn, rfl⟩ := encode_digit h
  exact digit_ne_dash hn

theorem length_encode (b : Bytes) : (encode b).length = 2 * b.length := by
  induction b with
  | nil => rfl
  | cons x b ih =>
    change (encode b).length + 2 = 2 * (b.length + 1)
    omega

theorem decode?_encode (b : Bytes) : decode? (encode b) = some b := by
  induction b with
  | nil => rfl
  | cons x b ih =>
    have hx := x.toNat_lt
    have hhigh := value?_digit (n := x.toNat / 16) (by omega)
    have hlow := value?_digit (n := x.toNat % 16) (by omega)
    have hbyte : (x.toNat / 16 * 16 + x.toNat % 16).toUInt8 = x := by
      rw [Nat.div_add_mod']
      simp
    change decode? (digit (x.toNat / 16) :: digit (x.toNat % 16) :: encode b) = _
    simp only [decode?, hhigh, hlow, ih, hbyte, Option.bind_eq_bind, Option.bind_some]
    rfl

end Text.Hex

namespace Uuid

theorem length_toBytes (u : Uuid) : u.toBytes.length = 16 := by
  simp [toBytes, Bytes.length_ofNat]

theorem ofBytes?_toBytes (u : Uuid) : ofBytes? u.toBytes = some u := by
  have hword (w : UInt64) : (Bytes.toNat (Bytes.ofNat 8 w.toNat)).toUInt64 = w := by
    have hlt : w.toNat < 256 ^ 8 := w.toNat_lt
    rw [Bytes.toNat_ofNat, Nat.mod_eq_of_lt hlt]
    simp
  have hhigh : u.toBytes.take 8 = Bytes.ofNat 8 u.high.toNat :=
    List.take_left' (Bytes.length_ofNat 8 _)
  have hlow : u.toBytes.drop 8 = Bytes.ofNat 8 u.low.toNat :=
    List.drop_left' (Bytes.length_ofNat 8 _)
  rw [ofBytes?, if_pos (length_toBytes u), hhigh, hlow, hword, hword]

theorem exists_of_length {b : Bytes} (h : b.length = 16) :
    ∃ u, ofBytes? b = some u ∧ u.toBytes = b := by
  have hword {w : Bytes} (hw : w.length = 8) :
      Bytes.ofNat 8 (Bytes.toNat w).toUInt64.toNat = w := by
    have hlt : Bytes.toNat w < 2 ^ 64 := by
      have hlt := Bytes.toNat_lt w
      rw [hw] at hlt
      exact hlt
    rw [Nat.toUInt64_eq, UInt64.toNat_ofNat', Nat.mod_eq_of_lt hlt, ← hw, Bytes.ofNat_toNat]
  refine ⟨_, if_pos h, ?_⟩
  have hhigh : (b.take 8).length = 8 := by simp [h]
  have hlow : (b.drop 8).length = 8 := by simp [h]
  rw [toBytes, hword hhigh, hword hlow, List.take_append_drop]

def groups (digits : Text) : List Text :=
  [digits.take 8, (digits.drop 8).take 4, (digits.drop 12).take 4, (digits.drop 16).take 4,
    digits.drop 20]

theorem text_eq_join (u : Uuid) :
    u.text = Text.join [unit '-'] (groups (Text.Hex.encode u.toBytes)) := by
  simp only [text, groups, Text.join, List.append_assoc]

theorem flatten_groups (t : Text) : (groups t).flatten = t := by
  have hcut (i j : Nat) : (t.drop i).take j ++ t.drop (i + j) = t.drop i := by
    rw [← List.drop_drop, List.take_append_drop]
  have h8 := List.take_append_drop 8 t
  have h12 := hcut 8 4
  have h16 := hcut 12 4
  have h20 := hcut 16 4
  simp only [groups, List.flatten_cons, List.flatten_nil, List.append_nil]
  rw [h20, h16, h12, h8]

theorem mem_text {u : Uuid} {v : UInt16} (h : v ∈ u.text) :
    v ∈ Text.Hex.encode u.toBytes ∨ v = unit '-' := by
  rw [text_eq_join] at h
  have h := Text.mem_join _ h
  rwa [flatten_groups, List.mem_singleton] at h

theorem text_isBlank (u : Uuid) : ∀ v ∈ u.text, Text.isBlank v = false := by
  intro v hv
  rcases mem_text hv with hv | rfl
  · exact Text.Hex.isBlank_of_mem_encode hv
  · decide

theorem encode_filter (b : Bytes) :
    (Text.Hex.encode b).filter (· != unit '-') = Text.Hex.encode b :=
  List.filter_eq_self.2 fun _ hv => bne_iff_ne.2 (Text.Hex.ne_dash_of_mem_encode hv)

theorem text_filter (u : Uuid) :
    u.text.filter (· != unit '-') = Text.Hex.encode u.toBytes := by
  rw [text_eq_join, Text.filter_join (by decide), flatten_groups, encode_filter]

theorem parse?_text (u : Uuid) : parse? u.text = some u := by
  rw [parse?, Text.trim_of_isTight (Text.isTight_of_forall (text_isBlank u)), text_filter,
    Text.Hex.decode?_encode]
  exact ofBytes?_toBytes u

end Uuid

end Datum
