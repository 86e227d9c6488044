import Datum.Compare
import Datum.Proofs.Compare.Keys
import Datum.Proofs.Convert.Kind
import Datum.Proofs.Uuid

/-!
# Orders of bytes and of their texts

Bytes of one length are ordered as the numbers whose digits they are, and bytes of any lengths as
their hexadecimal texts. So UUIDs have one order as pairs of words, as bytes and as text, and binary
strings have one order as bytes and as text (`binary_orders_agree`).
-/

set_option autoImplicit false

namespace Datum

theorem compareLex_append {α : Type} (cmp : α → α → Ordering) {s s' : List α}
    (h : s.length = s'.length) (t t' : List α) :
    List.compareLex cmp (s ++ t) (s' ++ t')
      = (List.compareLex cmp s s').then (List.compareLex cmp t t') := by
  induction s generalizing s' with
  | nil =>
    obtain rfl := List.eq_nil_of_length_eq_zero h.symm
    rfl
  | cons a s ih =>
    cases s' with
    | nil => cases h
    | cons a' s' =>
      rw [List.cons_append, List.cons_append, List.compareLex_cons_cons, List.compareLex_cons_cons,
        ih (Nat.succ.inj h), Ordering.then_assoc]

theorem Text.compare_append {s s' : Text} (h : s.length = s'.length) (t t' : Text) :
    compare (s ++ t) (s' ++ t') = (compare s s').then (compare t t') := by
  rw [compare_eq]
  exact compareLex_append _ h t t'

theorem Bytes.compare_append {a a' : Bytes} (h : a.length = a'.length) (b b' : Bytes) :
    compare (a ++ b) (a' ++ b') = (compare a a').then (compare b b') := by
  rw [compare_eq]
  exact compareLex_append _ h b b'

theorem Text.compare_join (mark : Text) {ps qs : List Text}
    (h : ps.map List.length = qs.map List.length) :
    compare (join mark ps) (join mark qs) = compare ps.flatten qs.flatten := by
  induction ps using join.induct generalizing qs with
  | case1 =>
    obtain rfl := List.map_eq_nil_iff.1 h.symm
    rfl
  | case2 p =>
    obtain ⟨q, rest, rfl, hq, hrest⟩ := List.map_eq_cons_iff.1 h.symm
    obtain rfl := List.map_eq_nil_iff.1 hrest
    simp [join]
  | case3 p ps hne ih =>
    obtain ⟨q, qs, rfl, hq, hqs⟩ := List.map_eq_cons_iff.1 h.symm
    have hne' : qs ≠ [] := by
      rintro rfl
      exact hne (List.map_eq_nil_iff.1 hqs.symm)
    have hmark : compare mark mark = .eq := Std.ReflCmp.compare_self
    rw [join, join, List.append_assoc, List.append_assoc, compare_append hq.symm,
      compare_append rfl, hmark, Ordering.eq_then, ih hqs.symm, List.flatten_cons,
      List.flatten_cons, compare_append hq.symm]
    · exact hne'
    · exact hne

theorem compare_mul_add {base x x' : Nat} (hx : x < base) (hx' : x' < base) (n n' : Nat) :
    Ord.compare (n * base + x) (n' * base + x')
      = (Ord.compare n n').then (Ord.compare x x') := by
  rcases Nat.lt_trichotomy n n' with h | rfl | h
  · have hle : (n + 1) * base ≤ n' * base := Nat.mul_le_mul_right base h
    have hlt : n * base + x < n' * base + x' := by
      rw [Nat.succ_mul] at hle
      omega
    rw [Nat.compare_eq_lt.2 h, Nat.compare_eq_lt.2 hlt]
    rfl
  · rw [Nat.compare_eq_eq.2 rfl, Ordering.eq_then]
    simp only [Nat.compare_eq_ite_lt, Nat.add_lt_add_iff_left]
  · have hle : (n' + 1) * base ≤ n * base := Nat.mul_le_mul_right base h
    have hgt : n' * base + x' < n * base + x := by
      rw [Nat.succ_mul] at hle
      omega
    rw [Nat.compare_eq_gt.2 h, Nat.compare_eq_gt.2 hgt]
    rfl

theorem Bytes.compare_singleton (x y : UInt8) :
    compare [x] [y] = Ord.compare x.toNat y.toNat := by
  rw [compare_eq, List.compareLex_cons_cons]
  exact Ordering.then_eq

theorem Bytes.compare_toNat {a b : Bytes} (h : a.length = b.length) :
    compare a b = Ord.compare a.toNat b.toNat := by
  induction a using List.reverseRecOn generalizing b with
  | nil =>
    obtain rfl := List.eq_nil_of_length_eq_zero h.symm
    rfl
  | append_singleton a x ih =>
    obtain rfl | ⟨b, y, rfl⟩ := List.eq_nil_or_concat' b
    · simp at h
    · have hlength : a.length = b.length := by simpa using h
      rw [compare_append hlength, ih hlength, compare_singleton, toNat_concat, toNat_concat,
        compare_mul_add x.toNat_lt y.toNat_lt]

theorem Bytes.compare_ofNat {width m n : Nat} (hm : m < 256 ^ width) (hn : n < 256 ^ width) :
    compare (ofNat width m) (ofNat width n) = Ord.compare m n := by
  have hlength : (ofNat width m).length = (ofNat width n).length := by
    rw [length_ofNat, length_ofNat]
  rw [compare_toNat hlength, toNat_ofNat, toNat_ofNat, Nat.mod_eq_of_lt hm, Nat.mod_eq_of_lt hn]

namespace Text.Hex

theorem compare_digit {m n : Nat} (hm : m < 16) (hn : n < 16) :
    Ord.compare (digit m).toNat (digit n).toNat = Ord.compare m n := by
  have h : ∀ m < 16, ∀ n < 16, Ord.compare (digit m).toNat (digit n).toNat = Ord.compare m n := by
    decide
  exact h m hm n hn

theorem compare_digits (x y : UInt8) :
    Text.compare [digit (x.toNat / 16), digit (x.toNat % 16)]
        [digit (y.toNat / 16), digit (y.toNat % 16)]
      = Ord.compare x.toNat y.toNat := by
  have hx := x.toNat_lt
  have hy := y.toNat_lt
  have hxlow : x.toNat % 16 < 16 := Nat.mod_lt _ (by decide)
  have hylow : y.toNat % 16 < 16 := Nat.mod_lt _ (by decide)
  have hhigh := compare_digit (m := x.toNat / 16) (n := y.toNat / 16) (by omega) (by omega)
  have hlow := compare_digit hxlow hylow
  have hsplit := compare_mul_add hxlow hylow (x.toNat / 16) (y.toNat / 16)
  rw [Nat.div_add_mod', Nat.div_add_mod'] at hsplit
  rw [hsplit, Text.compare_eq, List.compareLex_cons_cons, List.compareLex_cons_cons]
  simp only [compareOn, hhigh, hlow]
  exact congrArg _ Ordering.then_eq

theorem compare_encode (a b : Bytes) :
    Text.compare (encode a) (encode b) = Bytes.compare a b := by
  induction a generalizing b with
  | nil => cases b <;> rfl
  | cons x a ih =>
    cases b with
    | nil => rfl
    | cons y b =>
      have hbytes : Bytes.compare (x :: a) (y :: b)
          = (Ord.compare x.toNat y.toNat).then (Bytes.compare a b) := by
        rw [Bytes.compare_eq, List.compareLex_cons_cons]
        rfl
      rw [hbytes, ← ih, ← compare_digits]
      have hlength : [digit (x.toNat / 16), digit (x.toNat % 16)].length
          = [digit (y.toNat / 16), digit (y.toNat % 16)].length := rfl
      exact Text.compare_append hlength _ _

end Text.Hex

namespace Uuid

theorem compare_toBytes (u v : Uuid) : Bytes.compare u.toBytes v.toBytes = u.compare v := by
  have hlength (w w' : UInt64) :
      (Bytes.ofNat 8 w.toNat).length = (Bytes.ofNat 8 w'.toNat).length := by
    rw [Bytes.length_ofNat, Bytes.length_ofNat]
  have hword (w w' : UInt64) : Bytes.compare (Bytes.ofNat 8 w.toNat) (Bytes.ofNat 8 w'.toNat)
      = Ord.compare w.toNat w'.toNat := Bytes.compare_ofNat w.toNat_lt w'.toNat_lt
  rw [toBytes, toBytes, Bytes.compare_append (hlength _ _), hword, hword, compare]

theorem length_groups {t : Text} (h : t.length = 32) :
    (groups t).map List.length = [8, 4, 4, 4, 12] := by
  simp [groups, h]

theorem compare_text (u v : Uuid) : Text.compare u.text v.text = u.compare v := by
  have hlength (u : Uuid) : (Text.Hex.encode u.toBytes).length = 32 := by
    rw [Text.Hex.length_encode, length_toBytes]
  have hgroups : (groups (Text.Hex.encode u.toBytes)).map List.length
      = (groups (Text.Hex.encode v.toBytes)).map List.length := by
    rw [length_groups (hlength u), length_groups (hlength v)]
  rw [text_eq_join, text_eq_join, Text.compare_join _ hgroups, flatten_groups, flatten_groups,
    Text.Hex.compare_encode, compare_toBytes]

end Uuid

namespace Compare

def OrderedAsText (s : Session) (v w : Value) : Prop :=
  ∃ t t', v.text = .ok t ∧ w.text = .ok t' ∧ typeSafe s v w = .ok (t.compare t')

def KeepsOrder (s : Session) (c : ConvertContext) (k : Kind) (v w : Value) : Prop :=
  ∃ v' w', convert v k c = .ok v' ∧ convert w k c = .ok w' ∧ v'.kind = k ∧ w'.kind = k ∧
    typeSafe s v' w' = typeSafe s v w

variable {s : Session} {v w : Value}

theorem OrderedAsText.keepsOrder (h : OrderedAsText s v w) (c : ConvertContext)
    (hv : v.isNull = false) (hw : w.isNull = false) (hv' : v.kind ≠ .string .varchar)
    (hw' : w.kind ≠ .string .varchar) : KeepsOrder s c (.string .varchar) v w := by
  obtain ⟨t, t', ht, ht', horder⟩ := h
  have hread {v : Value} {t : Text} (ht : v.text = .ok t) :
      Convert.byRule v (.string .varchar) c = .ok (.string .varchar t) := by
    simp [Convert.byRule, ht, Value.ofText]
  refine ⟨.string .varchar t, .string .varchar t', ?_, ?_, rfl, rfl, ?_⟩
  · rw [convert_eq_byRule hv hv', hread ht]
  · rw [convert_eq_byRule hw hw', hread ht']
  · rw [horder]
    rfl

/-- UUIDs have one order as pairs of words, as bytes and as text, and binary strings of any lengths
have one order as bytes and as text. So conversion to those kinds keeps it. -/
theorem binary_orders_agree (s : Session) (c : ConvertContext) :
    (∀ u v : Uuid,
      typeSafe s (.uuid u) (.uuid v) = .ok (Bytes.compare u.toBytes v.toBytes) ∧
      OrderedAsText s (.uuid u) (.uuid v) ∧
      KeepsOrder s c .varbinary (.uuid u) (.uuid v) ∧
      KeepsOrder s c (.string .varchar) (.uuid u) (.uuid v)) ∧
    ∀ a b : Bytes,
      OrderedAsText s (.varbinary a) (.varbinary b) ∧
      KeepsOrder s c (.string .varchar) (.varbinary a) (.varbinary b) := by
  constructor
  · intro u v
    have hbytes : typeSafe s (.uuid u) (.uuid v) = .ok (Bytes.compare u.toBytes v.toBytes) :=
      congrArg Except.ok (Uuid.compare_toBytes u v).symm
    have htext : OrderedAsText s (.uuid u) (.uuid v) :=
      ⟨u.text, v.text, rfl, rfl, congrArg Except.ok (Uuid.compare_text u v).symm⟩
    refine ⟨hbytes, htext, ?_, htext.keepsOrder c rfl rfl (by simp) (by simp)⟩
    exact ⟨.varbinary u.toBytes, .varbinary v.toBytes, rfl, rfl, rfl, rfl, hbytes.symm⟩
  · intro a b
    have htext : OrderedAsText s (.varbinary a) (.varbinary b) :=
      ⟨_, _, rfl, rfl, congrArg Except.ok (Text.Hex.compare_encode a b).symm⟩
    exact ⟨htext, htext.keepsOrder c rfl rfl (by simp) (by simp)⟩

end Compare

end Datum
