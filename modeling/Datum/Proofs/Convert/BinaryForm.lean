import Datum.Proofs.Bytes
import Datum.Proofs.Convert.Integers
import Datum.Proofs.Uuid

/-!
# Binary forms

Integers, UUIDs, large objects of bytes, objects and JSON documents have a form in bytes. A value is
read back from its form, and the bytes that are a form of a kind are written again as they were
read.
-/

set_option autoImplicit false

namespace Datum

namespace IntegerKind

variable {k : IntegerKind} {n : Int} {b : Bytes}

theorem two_mul_bound (k : IntegerKind) : 2 * k.bound = (256 ^ k.width : Nat) := by
  cases k <;> rfl

theorem toSigned_ofSigned (h : k.holds n = true) :
    Bytes.toSigned (Bytes.ofSigned k.width n) = n := by
  have hbound := two_mul_bound k
  obtain ⟨hleast, hgreatest⟩ := holds_iff.1 h
  rw [Bytes.toSigned_ofSigned]
  exact Int.bmod_eq_of_le_mul_two (by omega) (by omega)

theorem holds_toSigned (h : b.length = k.width) : k.holds b.toSigned = true := by
  have hbound := two_mul_bound k
  have hpos : 0 < 256 ^ k.width := Nat.pow_pos (by norm_num)
  have hread : b.toSigned = Int.bmod b.toNat (256 ^ k.width) := by rw [← h]; rfl
  have hleast := Int.le_bmod (x := b.toNat) hpos
  have hgreatest := Int.bmod_lt (x := b.toNat) hpos
  rw [holds_iff, hread]
  omega

end IntegerKind

def Value.HasBinaryForm : Value → Prop
  | .integer k n => k.holds n.val = true
  | .uuid _ | .lob ⟨.blob, _⟩ | .object _ _ => True
  | .json data => Json.isValid (Text.Utf8.decode data) = true
  | _ => False

/-- The counts of bytes that are a binary form of a kind, whatever the bytes are. -/
def Kind.TakesBytes : Kind → Nat → Prop
  | .integer k, n => n = k.width
  | .uuid, n => n = 16
  | .lob .blob, _ | .javaObject, _ => True
  | _, _ => False

theorem Value.HasBinaryForm.plain {v : Value} (hv : v.HasBinaryForm) :
    v.isNull = false ∧ v.kind ≠ .varbinary := by
  cases v <;> simp_all [HasBinaryForm, isNull]

theorem Kind.TakesBytes.ne {k : Kind} {n : Nat} (h : k.TakesBytes n) :
    k ≠ .varbinary ∧ k ≠ .null := by
  cases k <;> simp_all [TakesBytes]

section Rules

variable {c : ConvertContext} {v : Value} {k : Kind} {b data : Bytes} {u : Uuid}

theorem toUuid_varbinary (h : Uuid.ofBytes? b = some u) :
    Convert.toUuid (.varbinary b) = .ok (.uuid u) := by
  rw [Convert.toUuid, h]
  rfl

theorem toJson_varbinary (h : Json.isValid (Text.Utf8.decode data) = true) :
    Convert.toJson (.varbinary data) = .ok (.json data) := by
  rw [Convert.toJson, Convert.bytesToJson, if_pos h, Value.ofJsonBytes, if_pos h]

theorem binaryForm_read (hstore : ∀ data, c.store .blob data = ⟨.blob, data⟩)
    (hv : v.HasBinaryForm) :
    ∃ b w, Convert.toBytes v = .ok (.varbinary b) ∧
      Convert.byRule (.varbinary b) v.kind c = .ok w ∧ w.equals v = true := by
  cases v with
  | integer k n =>
    have hread : Convert.integerOf (.varbinary (Bytes.ofSigned k.width n.val)) k c.column =
        .ok n.val := by
      rw [Convert.integerOf, if_pos (Bytes.length_ofSigned _ _), k.toSigned_ofSigned hv]
    refine ⟨_, _, rfl, Convert.toInteger_of_holds hread hv, ?_⟩
    simp [Whole.val]
  | uuid u =>
    exact ⟨_, _, rfl, toUuid_varbinary u.ofBytes?_toBytes, by simp⟩
  | lob l =>
    obtain ⟨kind, data⟩ := l
    cases kind with
    | blob => exact ⟨data, _, rfl, rfl, by simp [hstore, Value.equals]⟩
    | clob => cases hv
  | object data held => exact ⟨data, _, rfl, rfl, by simp [Value.equals]⟩
  | json data =>
    exact ⟨data, _, rfl, toJson_varbinary hv, by simp [Value.equals]⟩
  | _ => cases hv

theorem binaryForm_written (hstore : ∀ data, c.store .blob data = ⟨.blob, data⟩)
    (hk : k.TakesBytes b.length) :
    ∃ w, Convert.byRule (.varbinary b) k c = .ok w ∧ w.kind = k ∧
      Convert.toBytes w = .ok (.varbinary b) := by
  cases k with
  | integer k =>
    have hlength : b.length = k.width := hk
    have hread : Convert.integerOf (.varbinary b) k c.column = .ok b.toSigned := if_pos hlength
    refine ⟨_, Convert.toInteger_of_holds hread (IntegerKind.holds_toSigned hlength), rfl, ?_⟩
    have hwritten := Bytes.ofSigned_toSigned b
    rw [hlength] at hwritten
    exact congrArg (Except.ok ∘ Value.varbinary) hwritten
  | uuid =>
    obtain ⟨u, hread, hwritten⟩ := Uuid.exists_of_length hk
    exact ⟨.uuid u, toUuid_varbinary hread, rfl, congrArg (Except.ok ∘ Value.varbinary) hwritten⟩
  | lob kind =>
    cases kind with
    | blob =>
      refine ⟨.lob ⟨.blob, b⟩, ?_, rfl, rfl⟩
      exact congrArg (Except.ok ∘ Value.lob) (hstore b)
    | clob => cases hk
  | javaObject => exact ⟨.object b .nothing, rfl, rfl, rfl⟩
  | _ => cases hk

/-- A value with a binary form is converted to bytes and read back as an equal one, and bytes that
are a form of a kind are converted to it and written again as the same bytes, if the store keeps the
bytes of large objects as they are. -/
theorem binary_round_trip (hstore : ∀ data, c.store .blob data = ⟨.blob, data⟩) :
    (∀ v : Value, v.HasBinaryForm →
      ∃ b w, convert v .varbinary c = .ok (.varbinary b) ∧
        convert (.varbinary b) v.kind c = .ok w ∧ w.equals v = true) ∧
    ∀ (k : Kind) (b : Bytes), k.TakesBytes b.length →
      ∃ w, convert (.varbinary b) k c = .ok w ∧ w.kind = k ∧
        convert w .varbinary c = .ok (.varbinary b) := by
  constructor
  · intro v hv
    obtain ⟨hnull, hkind⟩ := hv.plain
    obtain ⟨b, w, hwritten, hread, hequal⟩ := binaryForm_read hstore hv
    refine ⟨b, w, ?_, ?_, hequal⟩
    · rw [convert_eq_byRule hnull hkind]
      exact hwritten
    · rw [convert_eq_byRule (v := .varbinary b) rfl hkind.symm]
      exact hread
  · intro k b hk
    obtain ⟨hkind, hnull⟩ := hk.ne
    obtain ⟨w, hread, rfl, hwritten⟩ := binaryForm_written hstore hk
    refine ⟨w, ?_, rfl, ?_⟩
    · rw [convert_eq_byRule (v := .varbinary b) rfl hkind.symm]
      exact hread
    · rw [convert_eq_byRule (Value.isNull_of_kind hnull) hkind]
      exact hwritten

/-- A negative integer and the bytes of a UUID whose words have their highest bits set. -/
theorem binary_round_trip_of_signs :
    let c : ConvertContext := .ofSession (.system 0 0)
    let b : Bytes := List.replicate 16 0xFF
    (∃ b w, convert (.integer .smallint (.int (-129))) .varbinary c = .ok (.varbinary b) ∧
      convert (.varbinary b) (.integer .smallint) c = .ok w ∧
      w.equals (.integer .smallint (.int (-129))) = true) ∧
    ∃ w, convert (.varbinary b) .uuid c = .ok w ∧ w.kind = .uuid ∧
      convert w .varbinary c = .ok (.varbinary b) := by
  intro c b
  obtain ⟨hvalue, hbytes⟩ := binary_round_trip (c := c) fun _ => rfl
  exact ⟨hvalue (.integer .smallint (.int (-129))) rfl, hbytes .uuid b rfl⟩

end Rules

end Datum
