import Datum.Convert
import Datum.Proofs.Outcome
import Datum.Proofs.Value

/-!
# The kind of a converted value

Every rule of conversion gives a value of its target kind. The exceptions are large objects, which
are as the store makes them, and a result without rows, which gives NULL for a row.
-/

set_option autoImplicit false

namespace Datum

namespace Value

theorem ofDay_kind (day : Num) : Ensures (ofDay day) (·.kind = .date) := by
  simp [ofDay, ensures_of_forall]

theorem ofTime_kind (nanos : Int) : Ensures (ofTime nanos) (·.kind = .time) := by
  simp [ofTime, ensures_of_forall]

theorem ofTimeTz_kind (nanos : Int) (offset : Num) :
    Ensures (ofTimeTz nanos offset) (·.kind = .timeTz) := by
  simp [ofTimeTz, ensures_of_forall]

theorem ofTimestamp_kind (day : Num) (nanos : Int) :
    Ensures (ofTimestamp day nanos) (·.kind = .timestamp) := by
  simp [ofTimestamp, ensures_of_forall]

theorem ofTimestampTz_kind (day : Num) (nanos : Int) (offset : Num) :
    Ensures (ofTimestampTz day nanos offset) (·.kind = .timestampTz) := by
  simp [ofTimestampTz, ensures_of_forall]

theorem ofFields_kind (q : Qualifier) (f : IntervalFields) :
    Ensures (ofFields q f) (·.kind = .interval q) := by
  unfold ofFields
  split
  · simp
  · split <;> simp

theorem ofAbsolute_kind (q : Qualifier) (n : Int) :
    Ensures (ofAbsolute q n) (·.kind = .interval q) :=
  ofFields_kind q _

theorem ofText_kind (k : StringKind) (t : Text) : (ofText k t).kind = .string k := by
  cases k <;> rfl

theorem ofDouble_kind (k : FloatKind) (x : Double) : (ofDouble k x).kind = .float k := by
  cases k <;> rfl

theorem ofJsonBytes_kind (data : Bytes) : Ensures (ofJsonBytes data) (·.kind = .json) := by
  simp only [ofJsonBytes]
  split <;> simp

end Value

namespace Convert

open Value

theorem ensures_malformed (v : Value) (k : Kind) (P : Value → Prop) :
    Ensures (malformed v k) P := by
  simp [malformed, ensures_of_forall]

theorem ensures_unsupported (v : Value) (k : Kind) (detail : Text) (P : Value → Prop) :
    Ensures (unsupported v k detail) P := by
  simp [unsupported]

theorem toBoolean_kind (v : Value) : Ensures (toBoolean v) (·.kind = .boolean) := by
  unfold toBoolean
  split <;> simp only [pure_eq_ok, ensures_ok, ensures_bind, ensures_unsupported, kind_boolean]
  apply ensures_of_forall
  intro t
  split <;> simp [ensures_malformed]

theorem toInteger_kind (v : Value) (k : IntegerKind) (column : Text) :
    Ensures (toInteger v k column) (·.kind = .integer k) := by
  simp [toInteger, ensures_of_forall]

theorem toNumeric_kind (v : Value) : Ensures (toNumeric v) (·.kind = .numeric) := by
  unfold toNumeric
  split
  · simp [ensures_unsupported]
  · split
    · simp
    · simp [ensures_unsupported, ensures_of_forall]
  · split
    · simp
    · simp only [ensures_bind]
      apply ensures_of_forall
      intro t
      split <;> simp [ensures_malformed]

theorem toFloat_kind (v : Value) (k : FloatKind) :
    Ensures (toFloat v k) (·.kind = .float k) := by
  unfold toFloat
  split <;> simp only [pure_eq_ok, ensures_ok, ensures_bind, ensures_unsupported,
    kind_float, ofDouble_kind]
  apply ensures_of_forall
  intro t
  split <;> simp [ensures_malformed, ofDouble_kind]

theorem toDate_kind (v : Value) (s : Session) : Ensures (toDate v s) (·.kind = .date) := by
  unfold toDate
  split <;> simp only [ensures_bind, ensures_unsupported, ofDay_kind, ensures_of_forall,
    implies_true]
  apply ensures_of_forall
  intro t
  split <;> simp [ensures_malformed, ofDay_kind]

theorem toTime_kind (v : Value) (s : Session) : Ensures (toTime v s) (·.kind = .time) := by
  unfold toTime
  split <;> simp only [ensures_bind, ensures_unsupported, ofTime_kind, ensures_of_forall,
    implies_true]
  apply ensures_of_forall
  intro t
  split <;> simp [ensures_malformed, ofTime_kind]

theorem toTimeTz_kind (v : Value) (s : Session) :
    Ensures (toTimeTz v s) (·.kind = .timeTz) := by
  unfold toTimeTz
  split <;> simp only [ensures_bind, ensures_unsupported, ofTimeTz_kind]
  apply ensures_of_forall
  intro t
  split <;> simp [ensures_malformed, ofTimeTz_kind]

theorem instantToTimestamp_kind (day : Whole) (nanos : Int) (offset : Whole) (s : Session) :
    Ensures (instantToTimestamp day nanos offset s) (·.kind = .timestamp) := by
  simp [instantToTimestamp, ofTimestamp_kind, ensures_of_forall]

theorem toTimestamp_kind (v : Value) (s : Session) :
    Ensures (toTimestamp v s) (·.kind = .timestamp) := by
  unfold toTimestamp
  split <;> simp only [ensures_bind, ensures_unsupported, ofTimestamp_kind,
    instantToTimestamp_kind]
  apply ensures_of_forall
  intro t
  split
  · simp [ensures_malformed]
  · split <;> simp [ofTimestamp_kind, instantToTimestamp_kind, ensures_of_forall]

theorem zoned_kind (day : Whole) (nanos : Int) (s : Session) :
    Ensures (zoned day nanos s) (·.kind = .timestampTz) :=
  ofTimestampTz_kind _ _ _

theorem toTimestampTz_kind (v : Value) (s : Session) :
    Ensures (toTimestampTz v s) (·.kind = .timestampTz) := by
  unfold toTimestampTz
  split <;> simp only [ensures_bind, ensures_unsupported, ofTimestampTz_kind, zoned_kind]
  apply ensures_of_forall
  intro t
  split
  · simp [ensures_malformed]
  · split <;> simp [ofTimestampTz_kind, zoned_kind]

theorem toBytes_kind (v : Value) : Ensures (toBytes v) (·.kind = .varbinary) := by
  unfold toBytes
  split <;> simp [ensures_unsupported, ensures_of_forall]

theorem toObject_kind (v : Value) : Ensures (toObject v) (·.kind = .javaObject) := by
  unfold toObject
  split <;> simp only [pure_eq_ok, ensures_ok, ensures_bind, ensures_unsupported, kind_object]
  apply ensures_of_forall
  intro t
  split <;> simp [ensures_malformed]

theorem toUuid_kind (v : Value) : Ensures (toUuid v) (·.kind = .uuid) := by
  unfold toUuid
  split <;> simp only [pure_eq_ok, ensures_ok, ensures_bind, ensures_unsupported, kind_uuid]
  · split <;> simp [ensures_unsupported]
  · split <;> simp [ensures_unsupported]
  · apply ensures_of_forall
    intro t
    split <;> simp [ensures_malformed]

theorem readGeometry_kind (v : Value) (read : Outcome Geometry) :
    Ensures (readGeometry v read) (·.kind = .geometry) := by
  unfold readGeometry
  split <;> simp [ensures_unsupported]

theorem readGeometryText_kind (v : Value) (read : Outcome Geometry) :
    Ensures (readGeometryText v read) (·.kind = .geometry) := by
  unfold readGeometryText
  split <;> simp [ensures_malformed]

theorem decodeGeometry_kind (v : Value) (codec : GeometryCodec) (c : Option GeometryConstraint) :
    Ensures (decodeGeometry v codec c) (·.kind = .geometry) := by
  unfold decodeGeometry
  split <;> simp only [ensures_unsupported, readGeometry_kind, readGeometryText_kind]

theorem geometryOf_kind (v : Value) (codec : Option GeometryCodec)
    (c : Option GeometryConstraint) :
    Ensures (geometryOf v codec c) (·.kind = .geometry) := by
  unfold geometryOf
  split
  · simp
  · split <;> simp [ensures_unsupported, decodeGeometry_kind]

theorem constraint_cast_kind (c : GeometryConstraint) (v : Value) (h : v.isNull = false) :
    Ensures (c.cast v) (·.kind = v.kind) := by
  unfold GeometryConstraint.cast
  split <;> simp_all [ensures_unsupported, ensures_of_forall, kind, isNull]

theorem toGeometry_kind (v : Value) (codec : Option GeometryCodec) (e : Option Extension) :
    Ensures (toGeometry v codec e) (·.kind = .geometry) := by
  simp only [toGeometry, ensures_bind]
  refine (geometryOf_kind v codec _).mono ?_
  intro g hg
  split
  · exact (constraint_cast_kind _ _ (isNull_of_kind (by simp [hg]))).mono fun w hw => hw.trans hg
  · simpa using hg

theorem enumOf_kind (v : Value) (d : EnumDomain) : Ensures (enumOf v d) (·.kind = .enum) := by
  unfold enumOf
  split <;> simp only [ensures_bind, pure_eq_ok, ensures_ok, ensures_unsupported, kind_enum,
    ensures_of_forall, implies_true]
  split <;> simp [ensures_unsupported, ensures_of_forall]

theorem toEnum_kind (v : Value) (e : Option Extension) :
    Ensures (toEnum v e) (·.kind = .enum) := by
  unfold toEnum
  split <;> simp [ensures_unsupported, enumOf_kind]

theorem geometryToJson_kind (v : Value) (g : Geometry) :
    Ensures (geometryToJson v g) (·.kind = .json) := by
  unfold geometryToJson
  split
  next w h =>
    obtain ⟨data, -, hw⟩ := bind_eq_ok.1 h
    simpa using ofJsonBytes_kind data w hw
  · simp [ensures_unsupported]

theorem toJson_kind (v : Value) : Ensures (toJson v) (·.kind = .json) := by
  have number (v : Value) : Ensures (numberToJson v) (·.kind = .json) := by
    unfold numberToJson
    split <;> simp [ensures_unsupported, ensures_of_forall, jsonDecimal, jsonLiteral]
  have bytes (v : Value) (data : Bytes) : Ensures (bytesToJson v data) (·.kind = .json) := by
    unfold bytesToJson
    split <;> simp [ensures_unsupported, ofJsonBytes_kind]
  unfold toJson
  split <;> simp only [ensures_ok, ensures_unsupported, geometryToJson_kind, number, bytes,
    jsonBoolean, jsonInteger, jsonString, jsonLiteral, kind_json]

theorem intervalToInterval_kind (p : Qualifier) (f : IntervalFields) (q : Qualifier) :
    Ensures (intervalToInterval p f q) (·.kind = .interval q) := by
  unfold intervalToInterval
  split <;> simp [ofAbsolute_kind]

theorem numberToInterval_kind (v : Value) (q : Qualifier) (rounded : Outcome Int) :
    Ensures (numberToInterval v q rounded) (·.kind = .interval q) := by
  unfold numberToInterval
  split
  · split
    · exact ofAbsolute_kind q _
    · simp [ensures_unsupported, ensures_of_forall]
  · simp only [ensures_bind]
    exact ensures_of_forall fun n => ofFields_kind q _

theorem parsedInterval?_kind {t : Text} {q : Qualifier} {v : Value}
    (h : parsedInterval? t q = some v) : v.kind = .interval q := by
  simp only [parsedInterval?, Option.bind_eq_bind, Option.bind_eq_some_iff] at h
  obtain ⟨⟨named, fields⟩, -, h⟩ := h
  split at h
  next p f hp =>
    split at h
    next hq =>
      simp only [Option.some.injEq] at h
      subst h hq
      rfl
    next hq => exact intervalToInterval_kind p f q v (toOption_eq_some.1 h)
  · simp at h

theorem toInterval_kind (v : Value) (q : Qualifier) (column : Text) :
    Ensures (toInterval v q column) (·.kind = .interval q) := by
  unfold toInterval
  split
  · exact ofFields_kind q _
  · exact numberToInterval_kind _ q _
  · exact numberToInterval_kind _ q _
  · unfold textToInterval
    split
    next w h => simpa using parsedInterval?_kind h
    · simp
  · exact intervalToInterval_kind _ _ q
  · exact ensures_unsupported _ _ _ _

theorem toArray_kind (v : Value) : Ensures (toArray v) (·.kind = .array) := by
  unfold toArray
  split <;> simp [ensures_of_forall]

theorem toRow_of_ne {v : Value} (h : v.kind ≠ .resultSet) : toRow v = .ok (.row [v]) := by
  cases v with
  | resultSet mark columns rows => exact absurd rfl h
  | _ => rfl

theorem toRow_kind (v : Value) :
    Ensures (toRow v) fun w => w.kind = .row ∨ w = .null ∧ v.kind = .resultSet := by
  unfold toRow
  split <;> simp

theorem toResultSet_kind (v : Value) (mark : Nat) : (toResultSet v mark).kind = .resultSet := by
  cases v <;> rfl

/-- What the rules of a target kind give: a value of it, but an object of the store for a large
object, and NULL for the row of a result without rows. -/
theorem byRule_kind (v : Value) (target : Kind) (c : ConvertContext) :
    Ensures (byRule v target c) fun w => w.kind = target
      ∨ (∃ k data, target = .lob k ∧ w = .lob (c.store k data))
      ∨ target = .row ∧ w = .null ∧ v.kind = .resultSet := by
  have lift {k : Kind} {x : Outcome Value} (h : Ensures x (·.kind = k)) :
      Ensures x fun w => w.kind = k ∨ (∃ j data, k = .lob j ∧ w = .lob (c.store j data))
        ∨ k = .row ∧ w = .null ∧ v.kind = .resultSet :=
    h.mono fun w hw => .inl hw
  cases target with
  | null => simp [byRule]
  | boolean => exact lift (toBoolean_kind v)
  | integer k => exact lift (toInteger_kind v k _)
  | numeric => exact lift (toNumeric_kind v)
  | float k => exact lift (toFloat_kind v k)
  | time => exact lift (toTime_kind v _)
  | timeTz => exact lift (toTimeTz_kind v _)
  | date => exact lift (toDate_kind v _)
  | timestamp => exact lift (toTimestamp_kind v _)
  | timestampTz => exact lift (toTimestampTz_kind v _)
  | varbinary => exact lift (toBytes_kind v)
  | string k => simp [byRule, ofText_kind, ensures_of_forall]
  | lob k =>
    simp only [byRule, toLob, ensures_bind, pure_eq_ok, ensures_ok]
    exact ensures_of_forall fun data => .inr (.inl ⟨k, data, rfl, rfl⟩)
  | array => exact lift (toArray_kind v)
  | row => exact (toRow_kind v).mono fun w hw => hw.imp_right fun h => .inr ⟨rfl, h⟩
  | resultSet => simp [byRule, toResultSet_kind]
  | javaObject => exact lift (toObject_kind v)
  | uuid => exact lift (toUuid_kind v)
  | geometry => exact lift (toGeometry_kind v _ _)
  | enum => exact lift (toEnum_kind v _)
  | json => exact lift (toJson_kind v)
  | interval q => exact lift (toInterval_kind v q _)

end Convert

theorem convert_self {v : Value} {c : ConvertContext} (h : c.extension = none) :
    convert v v.kind c = .ok v := by
  simp [convert, h]

theorem convert_eq_byRule {v : Value} {k : Kind} (hnull : v.isNull = false) (hk : v.kind ≠ k)
    (c : ConvertContext) : convert v k c = Convert.byRule v k c := by
  simp [convert, hnull, hk]

end Datum
