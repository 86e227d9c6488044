import Datum.Proofs.Convert.Kind
import Datum.Proofs.Value.Make
import Datum.Value.Adjust

/-!
# Operations keep values well-formed

Conversion and the adjustments of scale and precision give well-formed values. Kinds without
conditions need only the kind of the result; all others pass through a checked constructor, a lookup
in a domain, or keep what they were given.
-/

set_option autoImplicit false

namespace Datum

theorem EnumDomain.lookup_isValid {d : EnumDomain} (hd : d.IsValid) (k : EnumKey) (source : Kind) :
    Ensures (d.lookup k source) Enumerator.IsValid := by
  unfold lookup
  split
  next e h =>
    obtain ⟨ordinal, -, he⟩ := Option.bind_eq_some_iff.1 h
    unfold enumerator? at he
    split at he
    · cases he
    · obtain ⟨label, hlabel, rfl⟩ := Option.map_eq_some_iff.1 he
      exact (ensures_ok _ _).2 ⟨hd, hlabel⟩
  · simp

/-- Every value of the kind is well-formed. -/
def Kind.isFree : Kind → Bool
  | .null | .boolean | .numeric | .float _ | .varbinary | .lob _ | .uuid | .geometry => true
  | .string k => k != .char
  | _ => false

namespace Value

theorem wellFormed_of_kind {v : Value} (h : v.kind.isFree = true) : v.WellFormed := by
  cases v with
  | string k t => cases k <;> trivial
  | null | boolean | numeric | float | varbinary | lob | uuid | geometry => trivial
  | _ => cases h

end Value

namespace Convert

open Value

variable {v : Value}

theorem ensures_wellFormed_of_kind {x : Outcome Value} {k : Kind} (hk : k.isFree = true)
    (h : Ensures x (·.kind = k)) : Ensures x WellFormed :=
  h.mono fun _ hv => wellFormed_of_kind (hv ▸ hk)

theorem toInteger_wellFormed (v : Value) (k : IntegerKind) (column : Text) :
    Ensures (toInteger v k column) WellFormed := by
  simp only [toInteger, ensures_bind, pure_eq_ok, ensures_ok]
  refine ensures_of_forall fun n => ?_
  unfold narrow
  split
  next h => exact (ensures_ok _ _).2 h
  · simp

theorem toDate_wellFormed (v : Value) (s : Session) : Ensures (toDate v s) WellFormed := by
  unfold toDate
  split <;> simp only [ensures_bind, ensures_unsupported, ofDay_wellFormed, ensures_of_forall,
    implies_true]
  apply ensures_of_forall
  intro t
  split
  · exact ofDay_wellFormed _
  · exact ensures_malformed _ _ _

theorem toTime_wellFormed (v : Value) (s : Session) : Ensures (toTime v s) WellFormed := by
  unfold toTime
  split <;> simp only [ensures_bind, ensures_unsupported, ofTime_wellFormed, ensures_of_forall,
    implies_true]
  apply ensures_of_forall
  intro t
  split
  · exact ofTime_wellFormed _
  · exact ensures_malformed _ _ _

theorem toTimeTz_wellFormed (v : Value) (s : Session) : Ensures (toTimeTz v s) WellFormed := by
  unfold toTimeTz
  split <;> simp only [ensures_bind, ensures_unsupported, ofTimeTz_wellFormed]
  apply ensures_of_forall
  intro t
  split
  · exact ofTimeTz_wellFormed _ _
  · exact ensures_malformed _ _ _

theorem instantToTimestamp_wellFormed (day : Whole) (nanos : Int) (offset : Whole) (s : Session) :
    Ensures (instantToTimestamp day nanos offset s) WellFormed := by
  simp only [instantToTimestamp, ensures_bind]
  exact ensures_of_forall fun seconds => ofTimestamp_wellFormed _ _

theorem toTimestamp_wellFormed (v : Value) (s : Session) :
    Ensures (toTimestamp v s) WellFormed := by
  unfold toTimestamp
  split <;> simp only [ensures_bind, ensures_unsupported, ofTimestamp_wellFormed,
    instantToTimestamp_wellFormed]
  apply ensures_of_forall
  intro t
  split
  · exact ensures_malformed _ _ _
  · split
    · exact ofTimestamp_wellFormed _ _
    · simp only [ensures_bind]
      exact ensures_of_forall fun _ => instantToTimestamp_wellFormed _ _ _ _

theorem toTimestampTz_wellFormed (v : Value) (s : Session) :
    Ensures (toTimestampTz v s) WellFormed := by
  have hzoned (day : Whole) (nanos : Int) : Ensures (zoned day nanos s) WellFormed :=
    ofTimestampTz_wellFormed _ _ _
  unfold toTimestampTz
  split <;> simp only [ensures_bind, ensures_unsupported, ofTimestampTz_wellFormed, hzoned]
  apply ensures_of_forall
  intro t
  split
  · exact ensures_malformed _ _ _
  · split
    · exact ofTimestampTz_wellFormed _ _ _
    · exact hzoned _ _

theorem toObject_wellFormed (v : Value) : Ensures (toObject v) WellFormed := by
  unfold toObject
  split <;> simp only [pure_eq_ok, ensures_ok, ensures_bind, ensures_unsupported]
  · trivial
  · trivial
  · trivial
  · apply ensures_of_forall
    intro t
    split
    · exact (ensures_ok _ _).2 trivial
    · exact ensures_malformed _ _ _

theorem enumCast_wellFormed {d : EnumDomain} (hd : d.IsValid) (hv : v.WellFormed) :
    Ensures (d.cast v) WellFormed := by
  have hlookup (k : EnumKey) (source : Kind) :
      Ensures (d.lookup k source) fun e => (Value.enum e).WellFormed :=
    EnumDomain.lookup_isValid hd k source
  unfold EnumDomain.cast
  split
  · exact (ensures_ok _ _).2 trivial
  · split
    · exact (ensures_ok _ _).2 hv
    · simpa only [ensures_bind, pure_eq_ok, ensures_ok] using hlookup _ _
  · simpa only [ensures_bind, pure_eq_ok, ensures_ok] using hlookup _ _
  · simpa only [ensures_bind, pure_eq_ok, ensures_ok] using hlookup _ _
  · exact ensures_unsupported _ _ _ _

theorem enumOf_wellFormed {d : EnumDomain} (hd : d.IsValid) (v : Value) :
    Ensures (enumOf v d) WellFormed := by
  have hlookup (k : EnumKey) (source : Kind) :
      Ensures (d.lookup k source) fun e => (Value.enum e).WellFormed :=
    EnumDomain.lookup_isValid hd k source
  unfold enumOf
  split <;> simp only [ensures_bind, pure_eq_ok, ensures_ok, ensures_unsupported, hlookup,
    ensures_of_forall, implies_true]
  split
  · simpa only [ensures_bind, pure_eq_ok, ensures_ok] using hlookup _ _
  · exact ensures_unsupported _ _ _ _

theorem toEnum_wellFormed {e : Option Extension} (he : ∀ d, e = some (.enum d) → d.IsValid)
    (v : Value) : Ensures (toEnum v e) WellFormed := by
  unfold toEnum
  split
  next d => exact enumOf_wellFormed (he d rfl) v
  · exact ensures_unsupported _ _ _ _

theorem geometryToJson_wellFormed (v : Value) (g : Geometry) :
    Ensures (geometryToJson v g) WellFormed := by
  unfold geometryToJson
  split
  next w h =>
    obtain ⟨data, -, hw⟩ := bind_eq_ok.1 h
    exact (ensures_ok _ _).2 (ofJsonBytes_wellFormed data w hw)
  · exact ensures_unsupported _ _ _ _

theorem toJson_wellFormed (v : Value) : Ensures (toJson v) WellFormed := by
  have number (v : Value) : Ensures (numberToJson v) WellFormed := by
    unfold numberToJson
    split
    · exact (ensures_ok _ _).2 (jsonDecimal_wellFormed _)
    · simp only [ensures_bind]
      exact ensures_of_forall fun t => ensures_unsupported _ _ _ _
  have bytes (v : Value) (data : Bytes) : Ensures (bytesToJson v data) WellFormed := by
    unfold bytesToJson
    split
    · exact ofJsonBytes_wellFormed data
    · exact ensures_unsupported _ _ _ _
  unfold toJson
  split <;> simp only [ensures_ok, ensures_unsupported, geometryToJson_wellFormed, number, bytes,
    jsonBoolean_wellFormed, jsonInteger_wellFormed, jsonString_wellFormed]

theorem intervalToInterval_wellFormed (p : Qualifier) (f : IntervalFields) (q : Qualifier) :
    Ensures (intervalToInterval p f q) WellFormed := by
  unfold intervalToInterval
  split
  · exact ofAbsolute_wellFormed q _
  · simp

theorem numberToInterval_wellFormed (v : Value) (q : Qualifier) (rounded : Outcome Int) :
    Ensures (numberToInterval v q rounded) WellFormed := by
  unfold numberToInterval
  split
  · split
    · exact ofAbsolute_wellFormed q _
    · simp only [ensures_bind]
      exact ensures_of_forall fun t => ensures_unsupported _ _ _ _
  · simp only [ensures_bind]
    exact ensures_of_forall fun n => ofFields_wellFormed q _

theorem parsedInterval?_wellFormed {t : Text} {q : Qualifier} {v : Value}
    (h : parsedInterval? t q = some v) : v.WellFormed := by
  simp only [parsedInterval?, Option.bind_eq_bind, Option.bind_eq_some_iff] at h
  obtain ⟨⟨named, fields⟩, -, h⟩ := h
  split at h
  next p f hp =>
    split at h
    · cases h
      exact ofFields_wellFormed named fields _ hp
    · exact intervalToInterval_wellFormed p f q v (toOption_eq_some.1 h)
  · cases h

theorem toInterval_wellFormed (v : Value) (q : Qualifier) (column : Text) :
    Ensures (toInterval v q column) WellFormed := by
  unfold toInterval
  split
  · exact ofFields_wellFormed q _
  · exact numberToInterval_wellFormed _ q _
  · exact numberToInterval_wellFormed _ q _
  · unfold textToInterval
    split
    next w h => exact (ensures_ok _ _).2 (parsedInterval?_wellFormed h)
    · simp
  · exact intervalToInterval_wellFormed _ _ q
  · exact ensures_unsupported _ _ _ _

theorem toArray_wellFormed (hv : v.WellFormed) : Ensures (toArray v) WellFormed := by
  unfold toArray
  split <;> simp only [pure_eq_ok, ensures_ok, ensures_bind]
  · exact hv
  · exact ensures_of_forall fun t => ⟨trivial, trivial⟩
  · exact ensures_of_forall fun t => ⟨trivial, trivial⟩
  · exact ⟨hv, trivial⟩

theorem toRow_wellFormed (hv : v.WellFormed) : Ensures (toRow v) WellFormed := by
  unfold toRow
  split <;> simp only [ensures_ok, ensures_fail]
  · trivial
  · exact hv.1
  · exact ⟨hv, trivial⟩

theorem toResultSet_wellFormed (hv : v.WellFormed) (mark : Nat) :
    (toResultSet v mark).WellFormed := by
  unfold toResultSet
  split
  · exact ⟨hv, trivial⟩
  · exact ⟨⟨hv, trivial⟩, trivial⟩

theorem cast_wellFormed {e : Extension} (he : ∀ d, e = .enum d → d.IsValid) (hv : v.WellFormed) :
    Ensures (e.cast v) WellFormed := by
  cases e with
  | enum d => exact enumCast_wellFormed (he d rfl) hv
  | geometry c =>
    simp only [Extension.cast, GeometryConstraint.cast]
    split
    · exact (ensures_ok _ _).2 trivial
    · simp only [ensures_bind, pure_eq_ok, ensures_ok]
      exact ensures_of_forall fun g => trivial
    · exact ensures_unsupported _ _ _ _

theorem byRule_wellFormed (hv : v.WellFormed) (target : Kind) {c : ConvertContext}
    (hc : ∀ d, c.extension = some (.enum d) → d.IsValid) :
    Ensures (byRule v target c) WellFormed := by
  cases target with
  | null => exact (ensures_ok _ _).2 trivial
  | boolean => exact ensures_wellFormed_of_kind rfl (toBoolean_kind v)
  | integer k => exact toInteger_wellFormed v k _
  | numeric => exact ensures_wellFormed_of_kind rfl (toNumeric_kind v)
  | float k => exact ensures_wellFormed_of_kind rfl (toFloat_kind v k)
  | time => exact toTime_wellFormed v _
  | timeTz => exact toTimeTz_wellFormed v _
  | date => exact toDate_wellFormed v _
  | timestamp => exact toTimestamp_wellFormed v _
  | timestampTz => exact toTimestampTz_wellFormed v _
  | varbinary => exact ensures_wellFormed_of_kind rfl (toBytes_kind v)
  | string k =>
    simp only [byRule, ensures_bind, pure_eq_ok, ensures_ok]
    exact ensures_of_forall fun t => ofText_wellFormed k t
  | lob k =>
    simp only [byRule, toLob, ensures_bind, pure_eq_ok, ensures_ok]
    exact ensures_of_forall fun data => trivial
  | array => exact toArray_wellFormed hv
  | row => exact toRow_wellFormed hv
  | resultSet => exact (ensures_ok _ _).2 (toResultSet_wellFormed hv c.mark)
  | javaObject => exact toObject_wellFormed v
  | uuid => exact ensures_wellFormed_of_kind rfl (toUuid_kind v)
  | geometry => exact ensures_wellFormed_of_kind rfl (toGeometry_kind v _ _)
  | enum => exact toEnum_wellFormed hc v
  | json => exact toJson_wellFormed v
  | interval q => exact toInterval_wellFormed v q _

end Convert

theorem convert_wellFormed {v : Value} (hv : v.WellFormed) (target : Kind) {c : ConvertContext}
    (hc : ∀ d, c.extension = some (.enum d) → d.IsValid) :
    Ensures (convert v target c) Value.WellFormed := by
  unfold convert
  split
  · exact (ensures_ok _ _).2 hv
  split
  · split
    · exact (ensures_ok _ _).2 hv
    next e he => exact Convert.cast_wellFormed (fun d hd => hc d (hd ▸ he)) hv
  · exact Convert.byRule_wellFormed hv target hc

namespace Value

theorem allWellFormed_take {items : List Value} (h : AllWellFormed items) (k : Nat) :
    AllWellFormed (items.take k) :=
  allWellFormed_iff.2 fun _ hv => allWellFormed_iff.1 h _ (List.mem_of_mem_take hv)

theorem coarser_wellFormed {v : Value} (hv : v.WellFormed) (n : Num) {rounded : Nat → Outcome Value}
    (h : ∀ scale, Ensures (rounded scale) WellFormed) :
    Ensures (do let scale ← checkScale n; if 9 ≤ scale then return v else rounded scale)
      WellFormed := by
  simp only [ensures_bind]
  refine ensures_of_forall fun scale => ?_
  split
  · exact (ensures_ok _ _).2 hv
  · exact h scale

theorem toScale_wellFormed {v : Value} (hv : v.WellFormed) (onlySmaller : Bool) (n : Num) :
    Ensures (v.toScale onlySmaller n) WellFormed := by
  cases v with
  | numeric d =>
    simp only [toScale, ensures_bind, pure_eq_ok, ensures_ok]
    exact ensures_of_forall fun scale => ensures_of_forall fun d => trivial
  | time nanos => exact coarser_wellFormed hv n fun scale => ofTime_wellFormed _
  | timeTz nanos offset => exact coarser_wellFormed hv n fun scale => ofTimeTz_wellFormed _ _
  | timestamp day nanos =>
    refine coarser_wellFormed hv n fun scale => ?_
    dsimp only
    split
    · exact (ensures_ok _ _).2 hv
    · exact ofTimestamp_wellFormed _ _
  | timestampTz day nanos offset =>
    refine coarser_wellFormed hv n fun scale => ?_
    dsimp only
    split
    · exact (ensures_ok _ _).2 hv
    · exact ofTimestampTz_wellFormed _ _ _
  | _ => exact (ensures_ok _ _).2 hv

theorem toPrecision_wellFormed {v : Value} (hv : v.WellFormed) (precision : Num) :
    Ensures (v.toPrecision precision) WellFormed := by
  cases v with
  | numeric d =>
    simp only [toPrecision]
    split
    · exact (ensures_ok _ _).2 hv
    · simp only [ensures_bind, pure_eq_ok, ensures_ok]
      exact ensures_of_forall fun cut => trivial
  | varbinary data =>
    simp only [toPrecision]
    split
    · exact (ensures_ok _ _).2 hv
    · exact (ensures_ok _ _).2 trivial
  | string k t =>
    simp only [toPrecision]
    split
    · exact (ensures_ok _ _).2 hv
    · exact (ensures_ok _ _).2 (ofText_wellFormed k _)
  | array items =>
    simp only [toPrecision]
    split
    · exact (ensures_ok _ _).2 hv
    · exact (ensures_ok _ _).2 (allWellFormed_take hv _)
  | _ => exact (ensures_ok _ _).2 hv

/-- Whatever a conversion or an adjustment gives for a well-formed value is well-formed again. An
enumerated type that the target names has to be one that can be made. -/
theorem operations_keep_wellFormed {v : Value} (hv : v.WellFormed) :
    (∀ (target : Kind) (c : ConvertContext), (∀ d, c.extension = some (.enum d) → d.IsValid) →
      Ensures (convert v target c) WellFormed) ∧
    (∀ (onlySmaller : Bool) (scale : Num), Ensures (v.toScale onlySmaller scale) WellFormed) ∧
    ∀ precision : Num, Ensures (v.toPrecision precision) WellFormed :=
  ⟨fun target _ hc => convert_wellFormed hv target hc, toScale_wellFormed hv,
    toPrecision_wellFormed hv⟩

theorem operations_keep_wellFormed_of_enumerator :
    ∃ (e : Enumerator) (c : ConvertContext) (w : Value), (Value.enum e).WellFormed ∧
      convert (.enum e) .enum c = .ok w ∧ w.WellFormed ∧ w ≠ .enum e := by
  let e : Enumerator := ⟨"y", 1, ⟨["x", "y"]⟩⟩
  let d : EnumDomain := ⟨["y", "z"]⟩
  let c : ConvertContext :=
    { ConvertContext.ofSession (.system 0 0) with extension := some (.enum d) }
  have hsource : e.domain.IsValid := by
    constructor <;> decide +kernel
  have htarget : d.IsValid := by
    constructor <;> decide +kernel
  have hv : (Value.enum e).WellFormed := by
    simp only [WellFormed]
    exact ⟨hsource, rfl⟩
  have hconvert : convert (.enum e) .enum c = .ok (.enum ⟨"y", 0, d⟩) := by
    rfl
  refine ⟨e, c, _, hv, hconvert, ?_, ?_⟩
  · refine (operations_keep_wellFormed hv).1 .enum c (fun domain hdomain => ?_) _ hconvert
    cases hdomain
    exact htarget
  · intro h
    injection h with h
    exact absurd (congrArg Enumerator.ordinal h) (by decide)

end Value

end Datum
