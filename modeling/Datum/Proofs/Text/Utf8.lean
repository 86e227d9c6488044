import Datum.Text.Utf8
import Mathlib.Tactic.IntervalCases

/-!
# UTF-8

Reading inverts writing on texts in which no surrogate stands alone, up to a byte order mark in
front.
-/

set_option autoImplicit false

namespace Datum.Text

theorem ofPoint_unit (u : UInt16) : ofPoint u.toNat = [u] := by
  have hlt := u.toNat_lt
  rw [ofPoint, if_pos (by omega)]
  simp

theorem ofPoint_pair {u v : UInt16} (hu : isHighSurrogate u = true) (hv : isLowSurrogate v = true) :
    ofPoint (0x10000 + (u.toNat - 0xD800) * 0x400 + (v.toNat - 0xDC00)) = [u, v] := by
  simp only [isHighSurrogate, isLowSurrogate, Bool.and_eq_true, decide_eq_true_eq] at hu hv
  have hhigh :
      0xD800 + (0x10000 + (u.toNat - 0xD800) * 0x400 + (v.toNat - 0xDC00) - 0x10000) / 0x400
        = u.toNat := by omega
  have hlow :
      0xDC00 + (0x10000 + (u.toNat - 0xD800) * 0x400 + (v.toNat - 0xDC00) - 0x10000) % 0x400
        = v.toNat := by omega
  rw [ofPoint, if_neg (by omega), hhigh, hlow]
  simp

theorem ofPoints_points (t : Text) : ofPoints (points t) = t := by
  induction t using points.induct with
  | case1 => rfl
  | case2 u => simp [points, ofPoints, ofPoint_unit]
  | case3 u v rest h ih =>
    simp only [Bool.and_eq_true] at h
    simp only [ofPoints] at ih
    simp [points, h, ofPoints, ofPoint_pair h.1 h.2, ih]
  | case4 u v rest h ih =>
    simp only [ofPoints] at ih
    simp [points, h, ofPoints, ofPoint_unit, ih]

def IsScalar (n : Nat) : Prop := n < 0xD800 ∨ 0xE000 ≤ n ∧ n < 0x110000

theorem isScalar_unit {u : UInt16} (h : isSurrogate u = false) : IsScalar u.toNat := by
  have hlt := u.toNat_lt
  simp only [isSurrogate, Bool.and_eq_false_iff, decide_eq_false_iff_not] at h
  simp only [IsScalar]
  omega

theorem isScalar_pair {u v : UInt16} (hu : isHighSurrogate u = true)
    (hv : isLowSurrogate v = true) :
    IsScalar (0x10000 + (u.toNat - 0xD800) * 0x400 + (v.toNat - 0xDC00)) := by
  simp only [isHighSurrogate, isLowSurrogate, Bool.and_eq_true, decide_eq_true_eq] at hu hv
  simp only [IsScalar]
  omega

theorem isSurrogate_of_high {u : UInt16} (h : isHighSurrogate u = true) : isSurrogate u = true := by
  simp only [isHighSurrogate, isSurrogate, Bool.and_eq_true, decide_eq_true_eq] at *
  omega

theorem isSurrogate_of_low {u : UInt16} (h : isLowSurrogate u = true) : isSurrogate u = true := by
  simp only [isLowSurrogate, isSurrogate, Bool.and_eq_true, decide_eq_true_eq] at *
  omega

theorem points_isScalar {t : Text} (h : t.isWellFormed = true) : ∀ n ∈ points t, IsScalar n := by
  induction t using points.induct with
  | case1 => simp [points]
  | case2 u =>
    intro n hn
    obtain rfl : n = u.toNat := by simpa [points] using hn
    exact isScalar_unit (by simpa [isWellFormed] using h)
  | case3 u v rest hpair ih =>
    simp only [Bool.and_eq_true] at hpair
    simp only [isWellFormed, hpair, if_true, Bool.true_and] at h
    have hpoints : points (u :: v :: rest)
        = (0x10000 + (u.toNat - 0xD800) * 0x400 + (v.toNat - 0xDC00)) :: points rest := by
      simp [points, hpair]
    rw [hpoints, List.forall_mem_cons]
    exact ⟨isScalar_pair hpair.1 hpair.2, ih h⟩
  | case4 u v rest hpair ih =>
    have hpoints : points (u :: v :: rest) = u.toNat :: points (v :: rest) := by
      simp [points, hpair]
    have hu : isHighSurrogate u = false := by
      cases hu : isHighSurrogate u with
      | false => rfl
      | true =>
        simp only [isWellFormed, hu, if_true, Bool.and_eq_true] at h
        exact absurd (by simp [hu, h.1]) hpair
    simp only [isWellFormed, hu, Bool.false_eq_true, if_false, Bool.and_eq_true,
      Bool.not_eq_true'] at h
    rw [hpoints, List.forall_mem_cons]
    exact ⟨isScalar_unit h.1, ih h.2⟩

theorem isWellFormed_cons {u : UInt16} (h : isSurrogate u = false) (t : Text) :
    isWellFormed (u :: t) = isWellFormed t := by
  have hhigh : isHighSurrogate u = false := by
    cases hu : isHighSurrogate u with
    | false => rfl
    | true => rw [isSurrogate_of_high hu] at h; cases h
  cases t with
  | nil => simp [isWellFormed, h]
  | cons v t => simp [isWellFormed, h, hhigh]

theorem isWellFormed_append {s : Text} (h : ∀ u ∈ s, isSurrogate u = false) (t : Text) :
    isWellFormed (s ++ t) = isWellFormed t := by
  induction s with
  | nil => rfl
  | cons u s ih =>
    rw [List.cons_append, isWellFormed_cons (h u (by simp)), ih fun v hv => h v (by simp [hv])]

theorem isWellFormed_pair {u v : UInt16} (hu : isHighSurrogate u = true)
    (hv : isLowSurrogate v = true) (t : Text) : isWellFormed (u :: v :: t) = isWellFormed t := by
  simp [isWellFormed, hu, hv]

def IsAscii (t : Text) : Prop := ∀ u ∈ t, u.toNat < 0x80

instance (t : Text) : Decidable t.IsAscii := List.decidableBAll _ t

theorem IsAscii.isWellFormed {t : Text} (h : t.IsAscii) : t.isWellFormed = true := by
  have hplain : ∀ u ∈ t, isSurrogate u = false := by
    intro u hu
    have hlt := h u hu
    simp only [isSurrogate, Bool.and_eq_false_iff, decide_eq_false_iff_not]
    omega
  have happend := isWellFormed_append hplain []
  rwa [List.append_nil] at happend

theorem IsAscii.head?_ne {t : Text} (h : t.IsAscii) : t.head? ≠ some 0xFEFF := by
  intro hmark
  exact absurd (h _ (List.mem_of_head? hmark)) (by decide)

theorem IsAscii.append {s t : Text} (hs : s.IsAscii) (ht : t.IsAscii) : (s ++ t).IsAscii :=
  List.forall_mem_append.2 ⟨hs, ht⟩

theorem IsAscii.points_eq {t : Text} (h : t.IsAscii) : points t = t.map UInt16.toNat := by
  induction t using points.induct with
  | case1 => rfl
  | case2 u => rfl
  | case3 u v rest hpair ih =>
    have hlt := h u (by simp)
    simp only [isHighSurrogate, Bool.and_eq_true, decide_eq_true_eq] at hpair
    omega
  | case4 u v rest hpair ih =>
    have htail : IsAscii (v :: rest) := fun w hw => h w (List.mem_cons_of_mem u hw)
    rw [points, if_neg hpair, ih htail]
    rfl

/-- A mark in front is a unit of its own. -/
theorem head?_points {t : Text} (h : t.head? ≠ some 0xFEFF) : (points t).head? ≠ some 0xFEFF := by
  have hunit {u : UInt16} (hu : u ≠ 0xFEFF) : u.toNat ≠ 0xFEFF :=
    fun hn => hu (UInt16.toNat_inj.1 hn)
  cases t with
  | nil => simp [points]
  | cons u t =>
    have hu := hunit (show u ≠ 0xFEFF by simpa using h)
    cases t with
    | nil => simpa [points] using hu
    | cons v rest =>
      rw [points]
      split
      · rw [List.head?_cons, ne_eq, Option.some.injEq]
        omega
      · simpa using hu

theorem points_mark (t : Text) : points (0xFEFF :: t) = 0xFEFF :: points t := by
  cases t with
  | nil => rfl
  | cons v rest =>
    have hhigh : isHighSurrogate 0xFEFF = false := by decide
    simp [points, hhigh]

def withoutMark (t : Text) : Text := if t.head? = some 0xFEFF then t.tail else t

theorem withoutMark_cons (t : Text) : withoutMark (0xFEFF :: t) = t := if_pos rfl

theorem withoutMark_eq_self_iff {t : Text} : t.withoutMark = t ↔ t.head? ≠ some 0xFEFF := by
  by_cases h : t.head? = some 0xFEFF
  · obtain ⟨t, rfl⟩ := List.head?_eq_some_iff.1 h
    exact iff_of_false (by simp [withoutMark_cons]) (not_not_intro h)
  · exact iff_of_true (if_neg h) h

namespace Utf8

theorem toNat_byte {n : Nat} (h : n < 0x100) : n.toUInt8.toNat = n :=
  UInt8.toNat_ofNat_of_lt h

theorem lead_two {m : Nat} (hm : 2 ≤ m) (hlt : m < 0x20) :
    lead (0xC0 + m) = .partly ⟨1, m, 0x80, 0xBF⟩ := by
  interval_cases m <;> rfl

theorem lead_three {m : Nat} (h : m < 0x10) : lead (0xE0 + m) =
    .partly ⟨2, m, if m = 0 then 0xA0 else 0x80, if m = 0xD then 0x9F else 0xBF⟩ := by
  interval_cases m <;> rfl

theorem lead_four {m : Nat} (h : m ≤ 4) : lead (0xF0 + m) =
    .partly ⟨3, m, if m = 0 then 0x90 else 0x80, if m = 4 then 0x8F else 0xBF⟩ := by
  interval_cases m <;> rfl

section Steps

variable {p : Pending} (rest : Bytes)

theorem decodePoints_begin {b : Nat} (hb : b < 0x100) (h : lead b = .partly p) :
    decodePoints none (b.toUInt8 :: rest) = decodePoints (some p) rest := by
  simp only [decodePoints, toNat_byte hb, h]

theorem decodePoints_more {tail : Nat} (hmissing : 1 < p.missing) (htail : tail < 0x40)
    (hlow : p.low ≤ 0x80 + tail) (hhigh : 0x80 + tail ≤ p.high) :
    decodePoints (some p) ((0x80 + tail).toUInt8 :: rest)
      = decodePoints (some ⟨p.missing - 1, p.bits * 0x40 + tail, 0x80, 0xBF⟩) rest := by
  have hbyte := toNat_byte (show 0x80 + tail < 0x100 by omega)
  rw [decodePoints, hbyte, if_pos (by simp [hlow, hhigh]), if_neg (by omega),
    Nat.add_sub_cancel_left]

theorem decodePoints_last {tail : Nat} (hmissing : p.missing = 1) (htail : tail < 0x40)
    (hlow : p.low ≤ 0x80 + tail) (hhigh : 0x80 + tail ≤ p.high) :
    decodePoints (some p) ((0x80 + tail).toUInt8 :: rest)
      = (p.bits * 0x40 + tail) :: decodePoints none rest := by
  have hbyte := toNat_byte (show 0x80 + tail < 0x100 by omega)
  rw [decodePoints, hbyte, if_pos (by simp [hlow, hhigh]), if_pos (by omega),
    Nat.add_sub_cancel_left]

end Steps

theorem decodePoints_encodeScalar {n : Nat} (hn : IsScalar n) (rest : Bytes) :
    decodePoints none (encodeScalar n ++ rest) = n :: decodePoints none rest := by
  simp only [IsScalar] at hn
  -- by the number of bytes
  unfold encodeScalar
  split
  next h =>
    have hbyte := toNat_byte (show n < 0x100 by omega)
    have hlead : lead n = .whole n := by rw [lead, if_pos h]
    simp only [List.cons_append, List.nil_append, decodePoints, hbyte, hlead]
  split
  next h h' =>
    have hlead := lead_two (m := n / 0x40) (by omega) (by omega)
    simp only [List.cons_append, List.nil_append]
    rw [decodePoints_begin _ (by omega) hlead,
      decodePoints_last _ rfl (by omega) (by simp) (by simp; omega)]
    simp only [List.cons.injEq, and_true]
    omega
  split
  next h h' h'' =>
    have hlead := lead_three (m := n / 0x1000) (by omega)
    simp only [List.cons_append, List.nil_append]
    rw [decodePoints_begin _ (by omega) hlead,
      decodePoints_more _ (by simp) (by omega) (by simp only; split <;> omega)
        (by simp only; split <;> omega),
      decodePoints_last _ rfl (by omega) (by simp) (by simp; omega)]
    simp only [List.cons.injEq, and_true]
    omega
  next h h' h'' =>
    have hlead := lead_four (m := n / 0x40000) (by omega)
    simp only [List.cons_append, List.nil_append]
    rw [decodePoints_begin _ (by omega) hlead,
      decodePoints_more _ (by simp) (by omega) (by simp only; split <;> omega)
        (by simp only; split <;> omega),
      decodePoints_more _ (by simp) (by omega) (by simp) (by simp; omega),
      decodePoints_last _ rfl (by omega) (by simp) (by simp; omega)]
    simp only [List.cons.injEq, and_true]
    omega

theorem decodePoints_encodePoint {n : Nat} (hn : IsScalar n) (rest : Bytes) :
    decodePoints none (encodePoint n ++ rest) = n :: decodePoints none rest := by
  have hscalar : ¬(0xD800 ≤ n ∧ n < 0xE000) := by
    simp only [IsScalar] at hn
    omega
  rw [encodePoint, if_neg (by simpa using hscalar)]
  exact decodePoints_encodeScalar hn rest

theorem decodePoints_encode {ps : List Nat} (h : ∀ n ∈ ps, IsScalar n) :
    decodePoints none (ps.flatMap encodePoint) = ps := by
  induction ps with
  | nil => rfl
  | cons n ps ih =>
    rw [List.flatMap_cons, decodePoints_encodePoint (h n (by simp)),
      ih fun m hm => h m (by simp [hm])]

theorem length_encode_of_isAscii {t : Text} (h : t.IsAscii) : (encode t).length = t.length := by
  have hpoint : ∀ n ∈ t.map UInt16.toNat, (encodePoint n).length = 1 := by
    intro n hn
    obtain ⟨u, hu, rfl⟩ := List.mem_map.1 hn
    have hlt := h u hu
    rw [encodePoint, if_neg (by simp; omega), encodeScalar, if_pos hlt]
    rfl
  rw [encode, h.points_eq, List.length_flatMap, List.map_congr_left hpoint, List.map_const',
    List.sum_replicate_nat, Nat.mul_one, List.length_map]

theorem dropMark_eq_self {ps : List Nat} (h : ps.head? ≠ some 0xFEFF) : dropMark ps = ps := by
  unfold dropMark
  split
  · exact absurd rfl h
  · rfl

theorem dropMark_points (t : Text) : dropMark (points t) = points t.withoutMark := by
  by_cases hmark : t.head? = some 0xFEFF
  · obtain ⟨t, rfl⟩ := List.head?_eq_some_iff.1 hmark
    rw [points_mark, withoutMark_cons, dropMark]
  · rw [dropMark_eq_self (head?_points hmark), withoutMark_eq_self_iff.2 hmark]

theorem decode_encode_eq {t : Text} (h : t.isWellFormed = true) :
    decode (encode t) = t.withoutMark := by
  rw [decode, encode, decodePoints_encode (points_isScalar h), dropMark_points, ofPoints_points]

theorem decode_encode {t : Text} (h : t.isWellFormed = true) (hmark : t.head? ≠ some 0xFEFF) :
    decode (encode t) = t := by
  rw [decode_encode_eq h, withoutMark_eq_self_iff.2 hmark]

end Utf8

end Datum.Text
