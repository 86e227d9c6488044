import Datum.Proofs.Cache
import Datum.Proofs.Convert.Kind

/-!
# Conversions return their errors

Every rule of conversion returns its errors as values, since every value without geometries has a
text. The one collaborator that can break this is the zone of the session: where it is asked for the
offset at an instant, the offset has to be an integer.
-/

set_option autoImplicit false

namespace Datum

open Calendar

namespace Value

theorem checkDay_contained (day : Num) : Contained (checkDay day) := by
  unfold checkDay
  split
  · split <;> simp
  · simp

theorem checkNanos_contained (nanos : Int) : Contained (checkNanos nanos) := by
  unfold checkNanos
  split <;> simp

theorem checkOffset_contained (offset : Num) : Contained (checkOffset offset) := by
  unfold checkOffset
  split
  · split <;> simp
  · simp

@[simp] theorem ofDay_contained (day : Num) : Contained (ofDay day) := by
  simp [ofDay, checkDay_contained]

@[simp] theorem ofTime_contained (nanos : Int) : Contained (ofTime nanos) := by
  simp [ofTime, checkNanos_contained]

@[simp] theorem ofTimeTz_contained (nanos : Int) (offset : Num) :
    Contained (ofTimeTz nanos offset) := by
  simp [ofTimeTz, checkNanos_contained, checkOffset_contained]

@[simp] theorem ofTimestamp_contained (day : Num) (nanos : Int) :
    Contained (ofTimestamp day nanos) := by
  simp [ofTimestamp, checkDay_contained, checkNanos_contained]

@[simp] theorem ofTimestampTz_contained (day : Num) (nanos : Int) (offset : Num) :
    Contained (ofTimestampTz day nanos offset) := by
  simp [ofTimestampTz, checkDay_contained, checkNanos_contained, checkOffset_contained]

@[simp] theorem ofFields_contained (q : Qualifier) (f : IntervalFields) :
    Contained (ofFields q f) := by
  unfold ofFields
  split
  · simp
  · split <;> simp

@[simp] theorem ofJsonBytes_contained (data : Bytes) : Contained (ofJsonBytes data) := by
  simp only [ofJsonBytes]
  split <;> simp

end Value

namespace EnumDomain

@[simp] theorem lookup_contained (d : EnumDomain) (k : EnumKey) (source : Kind) :
    Contained (d.lookup k source) := by
  unfold lookup
  split <;> simp

end EnumDomain

namespace Convert

open Value

@[simp] theorem unsupported_contained {α : Type} (v : Value) (k : Kind) (detail : Text) :
    Contained (unsupported v k detail : Outcome α) := by
  simp [unsupported]

@[simp] theorem narrow_contained (k : IntegerKind) (n : Int) (column : Text) :
    Contained (narrow k n column) := by
  unfold narrow
  split <;> simp

@[simp] theorem roundDouble_contained (x : Double) (column : Text) :
    Contained (roundDouble x column) := by
  unfold roundDouble
  split
  · split <;> simp
  · simp

@[simp] theorem roundDecimal_contained (d : Decimal) (column : Text) :
    Contained (roundDecimal d column) := by
  simp only [roundDecimal]
  split <;> simp

theorem enumCast_contained (d : EnumDomain) (v : Value) : Contained (d.cast v) := by
  unfold EnumDomain.cast
  split
  · simp
  · split <;> simp
  · simp
  · simp
  · exact unsupported_contained _ _ _

theorem constraintCast_contained (c : GeometryConstraint) (v : Value) : Contained (c.cast v) := by
  have check (g : Geometry) : Contained (c.check g) := by
    unfold GeometryConstraint.check
    split
    · simp
    · split <;> simp
  unfold GeometryConstraint.cast
  split <;> simp [check]

theorem cast_contained (e : Extension) (v : Value) : Contained (e.cast v) := by
  cases e with
  | enum d => exact enumCast_contained d v
  | geometry c => exact constraintCast_contained c v

theorem toGeometry_contained (v : Value) (e : Option Extension) :
    Contained (toGeometry v none e) := by
  have read (c : Option GeometryConstraint) : Contained (geometryOf v none c) := by
    unfold geometryOf
    split <;> simp
  simp only [toGeometry, contained_bind]
  refine ⟨read _, fun g hg => ?_⟩
  split <;> simp [constraintCast_contained]

section Rules

variable {v : Value} (hv : v.IsWritable)

include hv

theorem text_contained : Contained v.text := contained_of_eq_ok hv.text_ok

theorem malformed_contained {α : Type} (k : Kind) : Contained (malformed v k : Outcome α) := by
  simp [malformed, text_contained hv]

theorem toBoolean_contained : Contained (toBoolean v) := by
  unfold toBoolean
  split <;> simp only [pure_eq_ok, contained_ok, unsupported_contained, contained_bind]
  refine ⟨text_contained hv, fun t ht => ?_⟩
  split <;> simp [malformed_contained hv]

theorem textInteger_contained (k : Kind) : Contained (textInteger v k) := by
  simp only [textInteger, contained_bind]
  refine ⟨text_contained hv, fun t ht => ?_⟩
  split <;> simp [malformed_contained hv]

theorem integerOf_contained (k : IntegerKind) (column : Text) :
    Contained (integerOf v k column) := by
  unfold integerOf
  split <;> try simp [textInteger_contained hv]
  split <;> simp [textInteger_contained hv]

theorem toInteger_contained (k : IntegerKind) (column : Text) :
    Contained (toInteger v k column) := by
  simp [toInteger, integerOf_contained hv]

theorem toNumeric_contained : Contained (toNumeric v) := by
  unfold toNumeric
  split
  · simp
  · split <;> simp [text_contained hv]
  · split
    · simp
    · simp only [contained_bind]
      refine ⟨text_contained hv, fun t ht => ?_⟩
      split <;> simp [malformed_contained hv]

theorem toFloat_contained (k : FloatKind) : Contained (toFloat v k) := by
  unfold toFloat
  split <;> simp only [pure_eq_ok, contained_ok, unsupported_contained, contained_bind]
  refine ⟨text_contained hv, fun t ht => ?_⟩
  split <;> simp [malformed_contained hv]

theorem toTimeTz_contained (s : Session) : Contained (toTimeTz v s) := by
  unfold toTimeTz
  split <;> simp only [ofTimeTz_contained, unsupported_contained, contained_bind]
  refine ⟨text_contained hv, fun t ht => ?_⟩
  split <;> simp [malformed_contained hv]

theorem toTimestampTz_contained (s : Session) : Contained (toTimestampTz v s) := by
  have zoned (day : Whole) (nanos : Int) : Contained (zoned day nanos s) :=
    ofTimestampTz_contained _ _ _
  unfold toTimestampTz
  split <;> simp only [zoned, ofTimestampTz_contained, unsupported_contained, contained_bind]
  refine ⟨text_contained hv, fun t ht => ?_⟩
  split
  · exact malformed_contained hv _
  · split <;> simp [zoned]

theorem textBytes_contained : Contained (textBytes v) := by
  simp [textBytes, text_contained hv]

theorem toBytes_contained : Contained (toBytes v) := by
  unfold toBytes
  split <;> simp [textBytes_contained hv]

theorem toLob_contained (k : LobKind) (store : LobStore) : Contained (toLob v k store) := by
  have blob : Contained (blobBytes v) := by
    unfold blobBytes
    split <;> simp [textBytes_contained hv]
  cases k with
  | clob => simp [toLob, lobBytes, textBytes_contained hv]
  | blob => simp [toLob, lobBytes, blob]

theorem toObject_contained : Contained (toObject v) := by
  unfold toObject
  split <;> simp only [pure_eq_ok, contained_ok, unsupported_contained, contained_bind]
  refine ⟨text_contained hv, fun t ht => ?_⟩
  split <;> simp [malformed_contained hv]

theorem toUuid_contained : Contained (toUuid v) := by
  unfold toUuid
  split <;> simp only [pure_eq_ok, contained_ok, unsupported_contained, contained_bind]
  · split <;> simp
  · split <;> simp
  · refine ⟨text_contained hv, fun t ht => ?_⟩
    split <;> simp [malformed_contained hv]

theorem toJson_contained : Contained (toJson v) := by
  have number : Contained (numberToJson v) := by
    unfold numberToJson
    split <;> simp [text_contained hv]
  have bytes (w : Value) (data : Bytes) : Contained (bytesToJson w data) := by
    unfold bytesToJson
    split <;> simp
  have geometry (w : Value) (g : Geometry) : Contained (geometryToJson w g) := by
    unfold geometryToJson
    split <;> simp
  unfold toJson
  split <;> first | simp [bytes, geometry] | exact number

theorem toArray_contained : Contained (toArray v) := by
  unfold toArray
  split <;> simp [text_contained hv]

theorem toEnum_contained (e : Option Extension) : Contained (toEnum v e) := by
  unfold toEnum
  split
  · unfold enumOf
    split
    · simp [integerOf_contained hv]
    · simp [integerOf_contained hv]
    · simp
    · simp
    · split <;> simp
    · exact unsupported_contained _ _ _
  · simp

theorem toInterval_contained (q : Qualifier) (column : Text) :
    Contained (toInterval v q column) := by
  have number (rounded : Outcome Int) (hr : Contained rounded) :
      Contained (numberToInterval v q rounded) := by
    unfold numberToInterval
    split
    · split <;> simp [ofFraction, ofAbsolute, text_contained hv]
    · simp [ofLeading, hr]
  unfold toInterval
  split
  · exact ofFields_contained _ _
  · exact number _ (roundDecimal_contained _ _)
  · exact number _ (roundDouble_contained _ _)
  · unfold textToInterval
    split <;> simp
  · unfold intervalToInterval
    split <;> simp [ofAbsolute]
  · exact unsupported_contained _ _ _

end Rules

def literalInstant? (t : Text) : Option Int := do
  let l ← parseTimestampLiteral? t.trim
  let offset ← l.offset
  let _ ← (ofTimestampTz (.int l.epochDay) l.nanos (.int offset)).toOption
  return epochSeconds l.epochDay l.nanos offset

def instant? : Value → Option Int
  | .timestampTz day nanos offset => some (epochSeconds day.val nanos offset.val)
  | _ => none

theorem instant?_eq_none {v : Value}
    (h : ∀ day nanos offset, v = .timestampTz day nanos offset → False) : instant? v = none := by
  cases v with
  | timestampTz day nanos offset => exact (h _ _ _ rfl).elim
  | _ => rfl

def readInstant? : Value → Option Int
  | .null | .time _ | .timeTz _ _ | .date _ | .timestamp _ _ | .enum _ => none
  | .timestampTz day nanos offset => instant? (.timestampTz day nanos offset)
  | v => v.text.toOption.bind literalInstant?

/-- The second at which a conversion asks the zone of the session for the offset. -/
def askedSecond? (v : Value) (target : Kind) : Option Int :=
  match target with
  | .date | .time => instant? v
  | .timestamp => readInstant? v
  | _ => none

def ZoneAnswers (s : Session) (asked : Option Int) : Prop :=
  ∀ second, asked = some second → (s.zone.atInstant second).toInt?.isSome = true

@[simp] theorem zoneAnswers_none (s : Session) : ZoneAnswers s none := by
  simp [ZoneAnswers]

theorem exactInt_contained (n : Num) : Contained (exactInt n) ↔ n.toInt?.isSome = true := by
  unfold exactInt
  cases n.toInt? with
  | none => simp [Contained]
  | some i => simp

theorem localSeconds_contained (day : Whole) (nanos : Int) (offset : Whole) (s : Session) :
    Contained (localSeconds day nanos offset s) ↔
      ZoneAnswers s (some (epochSeconds day.val nanos offset.val)) := by
  simp [localSeconds, exactInt_contained, ZoneAnswers]

theorem instantToTimestamp_contained (day : Whole) (nanos : Int) (offset : Whole) (s : Session) :
    Contained (instantToTimestamp day nanos offset s) ↔
      ZoneAnswers s (some (epochSeconds day.val nanos offset.val)) := by
  simp [instantToTimestamp, localSeconds_contained]

variable {v : Value}

theorem toDate_contained (hv : v.IsWritable) (s : Session) :
    Contained (toDate v s) ↔ ZoneAnswers s (instant? v) := by
  unfold toDate
  split
  · simp [instant?]
  · simp [instant?, localSeconds_contained]
  · simp [instant?]
  · simp [instant?]
  · simp [instant?]
  next hzoned _ _ _ =>
    simp only [instant?_eq_none hzoned, zoneAnswers_none, contained_bind, iff_true]
    refine ⟨text_contained hv, fun t ht => ?_⟩
    split <;> simp [malformed_contained hv]

theorem toTime_contained (hv : v.IsWritable) (s : Session) :
    Contained (toTime v s) ↔ ZoneAnswers s (instant? v) := by
  unfold toTime
  split
  · simp [instant?]
  · simp [instant?]
  · simp [instant?, localSeconds_contained]
  · simp [instant?]
  · simp [instant?]
  next hzoned _ _ =>
    simp only [instant?_eq_none hzoned, zoneAnswers_none, contained_bind, iff_true]
    refine ⟨text_contained hv, fun t ht => ?_⟩
    split <;> simp [malformed_contained hv]

/-- A literal asks the zone only if it names an offset, and only once it is found to be one that can
be stored. -/
theorem literal_contained {l : TimestampLiteral} {t : Text}
    (hl : parseTimestampLiteral? t.trim = some l) (s : Session) :
    Contained (match l.offset with
      | none => ofTimestamp (.int l.epochDay) l.nanos
      | some offset => do
        let _ ← ofTimestampTz (.int l.epochDay) l.nanos (.int offset)
        instantToTimestamp l.epochDay l.nanos offset s) ↔
      ZoneAnswers s (literalInstant? t) := by
  cases ho : l.offset with
  | none => simp [literalInstant?, hl, ho]
  | some offset =>
    cases hw : ofTimestampTz (.int l.epochDay) l.nanos (.int offset) with
    | error f =>
      have hstored := ofTimestampTz_contained (.int l.epochDay) l.nanos (.int offset)
      rw [hw] at hstored
      simp [literalInstant?, hl, ho, hw, Except.toOption, hstored]
    | ok w =>
      simp [literalInstant?, hl, ho, hw, Except.toOption, instantToTimestamp_contained, Whole.val]

theorem toTimestamp_contained (hv : v.IsWritable) (hk : v.kind ≠ .timestamp)
    (hnull : v.isNull = false) (s : Session) :
    Contained (toTimestamp v s) ↔ ZoneAnswers s (readInstant? v) := by
  unfold toTimestamp
  split
  · simp [readInstant?]
  · simp [readInstant?]
  · simp [readInstant?]
  · simp [readInstant?, instant?, instantToTimestamp_contained]
  · simp [readInstant?]
  next htime htimeTz hdate hzoned henum =>
    obtain ⟨t, ht⟩ := hv.text_ok
    have hread : readInstant? v = literalInstant? t := by
      unfold readInstant?
      split <;> simp_all [Except.toOption, isNull]
    rw [hread, ht, ok_bind]
    cases hl : parseTimestampLiteral? t.trim with
    | none => simp [malformed_contained hv, literalInstant?, hl]
    | some l => exact literal_contained hl s

theorem byRule_contained (hv : v.IsWritable) {target : Kind} (hk : v.kind ≠ target)
    (hnull : v.isNull = false) (c : ConvertContext) (hc : c.codec = none) :
    Contained (byRule v target c) ↔ ZoneAnswers c.session (askedSecond? v target) := by
  have unasked {x : Outcome Value} (h : Contained x) :
      Contained x ↔ ZoneAnswers c.session none := by
    simp [h]
  cases target with
  | null => exact unasked (contained_ok _)
  | boolean => exact unasked (toBoolean_contained hv)
  | integer k => exact unasked (toInteger_contained hv k _)
  | numeric => exact unasked (toNumeric_contained hv)
  | float k => exact unasked (toFloat_contained hv k)
  | date => exact toDate_contained hv _
  | time => exact toTime_contained hv _
  | timeTz => exact unasked (toTimeTz_contained hv _)
  | timestamp => exact toTimestamp_contained hv hk hnull _
  | timestampTz => exact unasked (toTimestampTz_contained hv _)
  | varbinary => exact unasked (toBytes_contained hv)
  | string k => exact unasked (by simp [byRule, text_contained hv])
  | lob k => exact unasked (toLob_contained hv k _)
  | array => exact unasked (toArray_contained hv)
  | row =>
    refine unasked ?_
    simp only [byRule, toRow]
    split <;> simp
  | resultSet => exact unasked (contained_ok _)
  | javaObject => exact unasked (toObject_contained hv)
  | uuid => exact unasked (toUuid_contained hv)
  | geometry => exact unasked (by simpa [byRule, hc] using toGeometry_contained v _)
  | enum => exact unasked (toEnum_contained hv _)
  | json => exact unasked (toJson_contained hv)
  | interval q => exact unasked (toInterval_contained hv q _)

theorem toArray_writable (hv : v.IsWritable) : Ensures (toArray v) (·.IsWritable) := by
  have single (w : Value) (hw : w.IsWritable) : (Value.array [w]).IsWritable :=
    isWritable_of_parts (by simp) (by simpa [parts] using hw)
  have string (t : Text) : (Value.string .varchar t).IsWritable :=
    isWritable_of_parts (by simp) (by simp [parts])
  unfold toArray
  split
  next items =>
    have hitems : ∀ w ∈ items, w.IsWritable := fun w hw => hv.part (by simpa [parts] using hw)
    simpa using isWritable_of_parts (v := .array items) (by simp) hitems
  · simpa using ensures_of_forall fun t => single _ (string t)
  · simpa using ensures_of_forall fun t => single _ (string t)
  · simpa using single v hv

theorem toRow_writable (hv : v.IsWritable) : Ensures (toRow v) (·.IsWritable) := by
  unfold toRow
  split
  · simpa using isWritable_of_parts (v := .null) (by simp) (by simp [parts])
  next fields =>
    have hfields : ∀ w ∈ fields, w.IsWritable := fun w hw => hv.part (by simpa [parts] using hw)
    simpa using isWritable_of_parts (v := .row fields) (by simp) hfields
  · simp
  · simpa using isWritable_of_parts (v := .row [v]) (by simp) (by simpa [parts] using hv)

theorem toResultSet_writable (hv : v.IsWritable) (mark : Nat) :
    (toResultSet v mark).IsWritable := by
  unfold toResultSet
  split
  · exact isWritable_of_parts (by simp) fun w hw => hv.part (by simpa [parts] using hw)
  · exact isWritable_of_parts (by simp) (by simpa [parts] using hv)

theorem byRule_hash (hv : v.IsWritable) (target : Kind) (c : ConvertContext) :
    Ensures (byRule v target c) fun w => ∃ n, w.hash = .ok n := by
  by_cases harray : target = .array
  · subst harray
    exact (toArray_writable hv).mono fun w hw => hw.hash_ok
  by_cases hrow : target = .row
  · subst hrow
    exact (toRow_writable hv).mono fun w hw => hw.hash_ok
  by_cases hresult : target = .resultSet
  · subst hresult
    simpa [byRule] using (toResultSet_writable hv c.mark).hash_ok
  refine (byRule_kind v target c).mono fun w hw => ?_
  rcases hw with rfl | ⟨k, data, rfl, rfl⟩ | ⟨rfl, -, -⟩
  · exact hash_ok_of_kind harray hrow hresult
  · exact ⟨_, rfl⟩
  · exact (hrow rfl).elim

end Convert

theorem convert_contained {v : Value} (hv : v.IsWritable) (target : Kind) {c : ConvertContext}
    (hc : c.codec = none) :
    Contained (convert v target c) ↔
      Convert.ZoneAnswers c.session (Convert.askedSecond? v target) := by
  unfold convert
  split
  next hnull =>
    obtain rfl := Value.isNull_iff.1 hnull
    cases target <;> simp [Convert.askedSecond?, Convert.instant?, Convert.readInstant?]
  next hnull =>
    split
    next hk =>
      have hasked : Convert.askedSecond? v target = none := by
        subst hk
        cases v <;> rfl
      rw [hasked]
      split <;> simp [Convert.cast_contained]
    next hk => exact Convert.byRule_contained hv hk (by simpa using hnull) c hc

theorem cached_contained {v : Value} (hv : v.IsWritable) (target : Kind) (c : ConvertContext)
    {cache : Cache} (hsize : cache.size ≤ Cache.maxSlots) :
    Contained (cache.convert v target c).1 ↔ Contained (convert v target c) := by
  unfold Cache.convert
  cases hw : convert v target c with
  | error f => rfl
  | ok w =>
    change Contained (if Convert.needsRule v target then cache.intern w else (.ok w, cache)).1 ↔ _
    split
    next hneeds =>
      have hrule : Convert.byRule v target c = .ok w := by
        simp only [Convert.needsRule, Bool.and_eq_true, Bool.not_eq_true', bne_iff_ne] at hneeds
        simpa [convert, hneeds.1, hneeds.2] using hw
      have hholds : cache.Holds fun _ => True := ⟨hsize, fun _ _ _ _ => trivial⟩
      obtain ⟨found, hfound, -⟩ := hholds.intern trivial (Convert.byRule_hash hv target c w hrule)
      rw [hfound]
      simp
    · simp

theorem Zone.clockOffset_isSome (second : Int) :
    (clockOffset second).toInt?.isSome = true ↔ (second.natAbs : Int) ≤ clockLimit := by
  unfold clockOffset
  split
  next h => simpa [Num.toInt?] using h
  next h => simpa [Num.nan, Num.toInt?, Double.toInt?] using h

/-- Without geometries and without a codec, a conversion in a zone whose offsets are integers
returns every error. In the zone of a system it does so exactly if the instant at which the zone is
asked, if any, lies within the reach of the clock; beyond, the offset is NaN and what is raised is
no error of the library. A cache whose table can be made changes nothing. -/
theorem conversion_errors (v : Value) (target : Kind) (c : ConvertContext)
    (hv : ∀ g, ¬(Value.geometry g).Within v) (hc : c.codec = none) :
    ((∀ second, (c.session.zone.atInstant second).toInt?.isSome = true) →
      Contained (convert v target c)) ∧
    (c.session.zone = .system →
      (Contained (convert v target c) ↔ ∀ second, Convert.askedSecond? v target = some second →
        (second.natAbs : Int) ≤ Zone.clockLimit)) ∧
    ∀ cache : Cache, cache.size ≤ Cache.maxSlots →
      (Contained (cache.convert v target c).1 ↔ Contained (convert v target c)) := by
  have hwrite : v.IsWritable := fun g hg => (hv g hg).elim
  have hasked := convert_contained hwrite target hc
  refine ⟨fun hzone => ?_, fun hzone => ?_,
    fun cache hsize => cached_contained hwrite target c hsize⟩
  · rw [hasked]
    exact fun second _ => hzone second
  · rw [hasked, Convert.ZoneAnswers, hzone]
    exact forall₂_congr fun second _ => Zone.clockOffset_isSome second

theorem conversion_errors_of_last_day : ∃ (v : Value) (c : ConvertContext),
    Convert.askedSecond? v .date = some Zone.clockLimit ∧ c.session.zone = .system ∧
      Contained (convert v .date c) := by
  let v : Value := .timestampTz (.int 100000000) 0 (.int 0)
  let c : ConvertContext := .ofSession (.system 0 0)
  have hv : ∀ g, ¬(Value.geometry g).Within v := by
    intro g hg
    simpa using (Value.within_of_no_parts (v := v) rfl).1 hg
  have hasked : Convert.askedSecond? v .date = some Zone.clockLimit := by rfl
  refine ⟨v, c, hasked, rfl, ((conversion_errors v .date c hv rfl).2.1 rfl).2 ?_⟩
  intro second hsecond
  obtain rfl := Option.some.inj (hasked.symm.trans hsecond)
  decide

/-- One day beyond the reach of the clock the offset is NaN, and its use as an integer is raised. -/
theorem conversion_raises : ∃ v, (∀ g, ¬(Value.geometry g).Within v) ∧
    convert v .date (.ofSession (.system 0 0)) = .error .notAnInteger ∧
      ¬Contained (convert v .date (.ofSession (.system 0 0))) := by
  let v : Value := .timestampTz (.int 100000001) 0 (.int 0)
  have hv : ∀ g, ¬(Value.geometry g).Within v := by
    intro g hg
    simpa using (Value.within_of_no_parts (v := v) rfl).1 hg
  have hraised : convert v .date (.ofSession (.system 0 0)) = .error .notAnInteger := by rfl
  refine ⟨v, hv, hraised, ?_⟩
  rw [hraised]
  simp [Contained]

end Datum
