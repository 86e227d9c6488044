import Datum.Interval.Literal
import Datum.Proofs.Calendar.Times
import Datum.Proofs.Text.Blanks

/-!
# Interval literals

The body of an interval is read back under its qualifier: every layout is a leading number and
trailing fields that the reader of the layout takes apart again. A full literal names its qualifier,
so it is read back whatever qualifier is expected.
-/

set_option autoImplicit false

namespace Datum.IntervalFields

open Calendar (fractionText expect? fractionPart?)
open Text (unit digitsValue IsNumeral NoDigitNext)

structure IsValid (q : Qualifier) (f : IntervalFields) : Prop where
  inRange : f.violation? q = none
  unsigned : f.unsignedZero = f

section Readers

variable {s t : Text} {n : Nat}

theorem number?_append (hs : IsNumeral s n) (ht : NoDigitNext t) :
    number? (s ++ t) = some ((n : Int), t) := by
  have hempty : s.isEmpty = false := by simp [hs.ne_nil]
  simp only [number?, Text.spanDigits_append hs.isDigit ht, hempty, hs.value]
  rfl

theorem lastNumber?_numeral (hs : IsNumeral s n) : lastNumber? s = some (n : Int) := by
  have hread := number?_append hs Text.noDigitNext_nil
  rw [List.append_nil] at hread
  simp [lastNumber?, hread]

theorem lastSeconds?_append (hs : IsNumeral s n) {f : Nat} (hf : f < 1000000000) :
    lastSeconds? (s ++ fractionText f) = some ((n : Int), (f : Int)) := by
  have hnext : NoDigitNext (fractionText f) := by
    simpa using Calendar.noDigitNext_fractionText f Text.noDigitNext_nil
  have hfraction : fractionPart? (fractionText f) = some ((f : Int), []) := by
    simpa using Calendar.fractionPart?_append hf Text.noDigitNext_nil (by simp)
  simp [lastSeconds?, number?_append hs hnext, hfraction]

theorem spaces?_numeral (hs : IsNumeral s n) (t : Text) :
    spaces? (unit ' ' :: (s ++ t)) = some (s ++ t) := by
  have hkeep : (s ++ t).dropWhile (· == unit ' ') = s ++ t := by
    refine Text.dropWhile_eq_self fun u hu => ?_
    have hdigit : Text.isDigit u = true := by
      cases s with
      | nil => exact absurd rfl hs.ne_nil
      | cons v s => exact Option.some.inj hu ▸ hs.isDigit v List.mem_cons_self
    have hspace : u ≠ unit ' ' := by
      rintro rfl
      exact absurd hdigit (by decide)
    simpa using hspace
  simp [spaces?, Calendar.expect?_cons, hkeep]

end Readers

theorem isNumeral_twoDigits (n : Nat) : IsNumeral (twoDigits n) n := by
  rw [twoDigits, Text.ofInt_natCast]
  exact (Text.isNumeral_ofNat n).padZeros 2

theorem seconds_natCast (n : Nat) :
    seconds n = twoDigits (n / 1000000000 : Nat) ++ fractionText (n % 1000000000) := by
  have hseconds : (n : Int).tdiv nanosPerSecond = (n / 1000000000 : Nat) := rfl
  have hfraction : (n : Int).tmod nanosPerSecond = (n % 1000000000 : Nat) := rfl
  have hzero : ((n % 1000000000 : Nat) : Int) = 0 ↔ n % 1000000000 = 0 := by omega
  simp only [seconds, hseconds, hfraction, hzero, fractionText, List.singleton_append]

/-- The fraction that is all there is of seconds below one. -/
theorem drop_seconds {n : Nat} (h : n < 1000000000) :
    (if seconds n = ("00" : Text) then [] else (seconds n).drop 2) = fractionText n := by
  have hzero : twoDigits ((0 : Nat) : Int) = ("00" : Text) := by decide
  rw [seconds_natCast, Nat.div_eq_of_lt h, Nat.mod_eq_of_lt h, hzero]
  split
  next hnil => exact (List.append_right_eq_self.1 hnil).symm
  next => exact List.drop_left' rfl

def trailingText (q : Qualifier) (n : Nat) : Text :=
  match q with
  | .year | .month | .day | .hour | .minute => []
  | .second => fractionText n
  | .yearToMonth => unit '-' :: Text.ofNat n
  | .dayToHour => unit ' ' :: twoDigits n
  | .dayToMinute => unit ' ' :: (twoDigits (n / 60 : Nat) ++ unit ':' :: twoDigits (n % 60 : Nat))
  | .dayToSecond =>
    unit ' ' :: (twoDigits (n / 3600000000000 : Nat)
      ++ unit ':' :: (twoDigits (n / 60000000000 % 60 : Nat)
        ++ unit ':' :: seconds (n % 60000000000 : Nat)))
  | .hourToMinute => unit ':' :: twoDigits n
  | .hourToSecond =>
    unit ':' :: (twoDigits (n / 60000000000 : Nat) ++ unit ':' :: seconds (n % 60000000000 : Nat))
  | .minuteToSecond => unit ':' :: seconds n

theorem body_eq {q : Qualifier} {negative : Bool} (leading : Nat) {remainder : Nat}
    (h : (remainder : Int) < q.remainderLimit) :
    body q ⟨negative, leading, remainder⟩
      = Text.minusIf negative ++ (Text.ofNat leading ++ trailingText q remainder) := by
  have hsign : (if negative = true then ("-" : Text) else []) = Text.minusIf negative := rfl
  simp only [body, hsign, Text.ofInt_natCast]
  rw [List.append_assoc]
  congr 2
  cases q with
  | second =>
    simp only [Qualifier.remainderLimit, nanosPerSecond] at h
    exact drop_seconds (by omega)
  | yearToMonth => simp [trailingText]
  | dayToMinute | dayToSecond | hourToSecond =>
    simp only [trailingText, List.append_assoc, List.singleton_append]
    rfl
  | _ => rfl

theorem magnitudes?_trailingText {q : Qualifier} (leading : Nat) {remainder : Nat}
    (h : (remainder : Int) < q.remainderLimit) :
    magnitudes? q (Text.ofNat leading ++ trailingText q remainder)
      = some ((leading : Int), (remainder : Int)) := by
  have hleading := Text.isNumeral_ofNat leading
  have hmark {u : UInt16} {t : Text} (hu : Text.isDigit u = false) :
      number? (Text.ofNat leading ++ u :: t) = some ((leading : Int), u :: t) :=
    number?_append hleading (Text.noDigitNext_cons hu)
  have htwo (n : Nat) (t : Text) : number? (twoDigits n ++ unit ':' :: t)
      = some ((n : Int), unit ':' :: t) :=
    number?_append (isNumeral_twoDigits n) (Text.noDigitNext_cons (by decide))
  have hseconds (n : Nat) :
      lastSeconds? (seconds n)
        = some (((n / 1000000000 : Nat) : Int), ((n % 1000000000 : Nat) : Int)) := by
    rw [seconds_natCast]
    exact lastSeconds?_append (isNumeral_twoDigits _) (by omega)
  have hlast (n : Nat) := lastNumber?_numeral (isNumeral_twoDigits n)
  cases q with
  | year | month | day | hour | minute =>
    have hzero : remainder = 0 := by
      simp only [Qualifier.remainderLimit] at h
      omega
    simp [magnitudes?, trailingText, lastNumber?_numeral hleading, hzero]
  | second =>
    simp only [Qualifier.remainderLimit, nanosPerSecond] at h
    exact lastSeconds?_append hleading (by omega)
  | yearToMonth =>
    simp [magnitudes?, trailingText, hmark (u := unit '-') (by decide), Calendar.expect?_cons,
      lastNumber?_numeral (Text.isNumeral_ofNat remainder)]
  | dayToHour =>
    have hspaces := spaces?_numeral (isNumeral_twoDigits remainder) []
    rw [List.append_nil] at hspaces
    simp [magnitudes?, trailingText, hmark (u := unit ' ') (by decide), hspaces, hlast]
  | dayToMinute =>
    simp only [Qualifier.remainderLimit] at h
    have hspaces := spaces?_numeral (isNumeral_twoDigits (remainder / 60))
    have hminutes : ¬(60 ≤ ((remainder % 60 : Nat) : Int)) := by omega
    simp only [magnitudes?, trailingText, hmark (u := unit ' ') (by decide), hspaces, htwo,
      Calendar.expect?_cons, hlast, hminutes, Option.bind_eq_bind, Option.bind_some, if_false,
      Option.pure_def, Option.some.injEq, Prod.mk.injEq, true_and]
    omega
  | dayToSecond =>
    simp only [Qualifier.remainderLimit, nanosPerDay, nanosPerHour, nanosPerMinute,
      nanosPerSecond] at h
    have hspaces := spaces?_numeral (isNumeral_twoDigits (remainder / 3600000000000))
    simp only [magnitudes?, trailingText, hmark (u := unit ' ') (by decide), hspaces, htwo,
      Calendar.expect?_cons, hseconds, Option.bind_eq_bind, Option.bind_some]
    rw [if_neg (by simp; omega)]
    simp only [nanosPerHour, nanosPerMinute, nanosPerSecond, Option.pure_def, Option.some.injEq,
      Prod.mk.injEq, true_and]
    omega
  | hourToMinute =>
    simp [magnitudes?, trailingText, hmark (u := unit ':') (by decide), Calendar.expect?_cons,
      hlast]
  | hourToSecond =>
    simp only [Qualifier.remainderLimit, nanosPerHour, nanosPerMinute, nanosPerSecond] at h
    simp only [magnitudes?, trailingText, hmark (u := unit ':') (by decide), htwo,
      Calendar.expect?_cons, hseconds, Option.bind_eq_bind, Option.bind_some]
    rw [if_neg (by simp; omega)]
    simp only [nanosPerMinute, nanosPerSecond, Option.pure_def, Option.some.injEq, Prod.mk.injEq,
      true_and]
    omega
  | minuteToSecond =>
    simp only [Qualifier.remainderLimit, nanosPerMinute, nanosPerSecond] at h
    simp only [magnitudes?, trailingText, hmark (u := unit ':') (by decide), Calendar.expect?_cons,
      hseconds, Option.bind_eq_bind, Option.bind_some]
    rw [if_neg (by omega)]
    simp only [nanosPerSecond, Option.pure_def, Option.some.injEq, Prod.mk.injEq, true_and]
    omega

def EndsInDigit (t : Text) : Prop := ∃ u, t.getLast? = some u ∧ Text.isDigit u = true

namespace EndsInDigit

variable {s t : Text}

theorem of_isNumeral {n : Nat} (h : IsNumeral t n) : EndsInDigit t := by
  cases hlast : t.getLast? with
  | none => exact absurd (List.getLast?_eq_none_iff.1 hlast) h.ne_nil
  | some u => exact ⟨u, hlast, h.isDigit u (List.mem_of_getLast? hlast)⟩

theorem append (s : Text) (h : EndsInDigit t) : EndsInDigit (s ++ t) := by
  obtain ⟨u, hlast, hdigit⟩ := h
  exact ⟨u, by rw [List.getLast?_append, hlast]; rfl, hdigit⟩

theorem cons (u : UInt16) (h : EndsInDigit t) : EndsInDigit (u :: t) := h.append [u]

theorem append_fractionText (h : EndsInDigit s) {f : Nat} (hf : f < 1000000000) :
    EndsInDigit (s ++ fractionText f) := by
  by_cases hzero : f = 0
  · rwa [fractionText, if_pos hzero, List.append_nil]
  · obtain ⟨hleast, -⟩ := Calendar.fractionDigits_length hf hzero
    have hdigits : EndsInDigit (Calendar.fractionDigits f) := by
      cases hlast : (Calendar.fractionDigits f).getLast? with
      | none =>
        rw [List.getLast?_eq_none_iff.1 hlast] at hleast
        simp at hleast
      | some u =>
        exact ⟨u, hlast, Calendar.fractionDigits_isDigit f u (List.mem_of_getLast? hlast)⟩
    rw [fractionText, if_neg hzero]
    exact (hdigits.cons _).append s

theorem isTight (h : EndsInDigit t) (hfirst : ∀ u, t.head? = some u → Text.isBlank u = false) :
    t.IsTight := by
  obtain ⟨u, hlast, hdigit⟩ := h
  refine ⟨hfirst, fun v hv => ?_⟩
  rw [hlast] at hv
  cases hv
  exact Text.isBlank_of_isDigit hdigit

end EndsInDigit

theorem seconds_endsInDigit (n : Nat) : EndsInDigit (seconds n) := by
  rw [seconds_natCast]
  exact (EndsInDigit.of_isNumeral (isNumeral_twoDigits _)).append_fractionText (by omega)

def magnitudeText (q : Qualifier) (leading remainder : Nat) : Text :=
  Text.ofNat leading ++ trailingText q remainder

theorem magnitudeText_endsInDigit {q : Qualifier} (leading : Nat) {remainder : Nat}
    (h : (remainder : Int) < q.remainderLimit) :
    EndsInDigit (magnitudeText q leading remainder) := by
  have hleading := EndsInDigit.of_isNumeral (Text.isNumeral_ofNat leading)
  have htwo (n : Nat) := EndsInDigit.of_isNumeral (isNumeral_twoDigits n)
  unfold magnitudeText
  cases q with
  | year | month | day | hour | minute => simpa [trailingText] using hleading
  | second =>
    simp only [Qualifier.remainderLimit, nanosPerSecond] at h
    exact hleading.append_fractionText (by omega)
  | yearToMonth => exact ((EndsInDigit.of_isNumeral (Text.isNumeral_ofNat _)).cons _).append _
  | dayToHour | hourToMinute => exact ((htwo remainder).cons _).append _
  | dayToMinute => exact ((((htwo _).cons _).append _).cons _).append _
  | dayToSecond =>
    exact ((((((seconds_endsInDigit _).cons _).append _).cons _).append _).cons _).append _
  | hourToSecond => exact ((((seconds_endsInDigit _).cons _).append _).cons _).append _
  | minuteToSecond => exact ((seconds_endsInDigit _).cons _).append _

theorem magnitudeText_isTight {q : Qualifier} (leading : Nat) {remainder : Nat}
    (h : (remainder : Int) < q.remainderLimit) : (magnitudeText q leading remainder).IsTight := by
  have hleading := Text.isNumeral_ofNat leading
  refine (magnitudeText_endsInDigit leading h).isTight fun u hu => ?_
  refine Text.isBlank_of_isDigit (hleading.isDigit u ?_)
  cases hs : Text.ofNat leading with
  | nil => exact absurd hs hleading.ne_nil
  | cons v s =>
    rw [magnitudeText, hs] at hu
    cases hu
    exact List.mem_cons_self

theorem signed_magnitudeText_isTight {q : Qualifier} (negative : Bool) (leading : Nat)
    {remainder : Nat} (h : (remainder : Int) < q.remainderLimit) :
    (Text.minusIf negative ++ magnitudeText q leading remainder).IsTight := by
  cases negative with
  | false => exact magnitudeText_isTight leading h
  | true =>
    refine ((magnitudeText_endsInDigit leading h).append _).isTight fun u hu => ?_
    cases hu
    decide

theorem ne_quote_of_isDigit {t : Text} (h : ∀ u ∈ t, Text.isDigit u = true) :
    ∀ u ∈ t, u ≠ unit '\'' := by
  rintro u hu rfl
  exact absurd (h _ hu) (by decide)

theorem fractionText_ne_quote (f : Nat) : ∀ u ∈ fractionText f, u ≠ unit '\'' := by
  have hpoint : unit '.' ≠ unit '\'' := by decide
  unfold fractionText
  split
  · simp
  · exact List.forall_mem_cons.2 ⟨hpoint, ne_quote_of_isDigit (Calendar.fractionDigits_isDigit f)⟩

theorem seconds_ne_quote (n : Nat) : ∀ u ∈ seconds n, u ≠ unit '\'' := by
  rw [seconds_natCast]
  simp only [List.forall_mem_append]
  refine ⟨ne_quote_of_isDigit (isNumeral_twoDigits _).isDigit, ?_⟩
  exact fractionText_ne_quote _

/-- No quote stands in a body, so that the closing one is found. -/
theorem magnitudeText_ne_quote (q : Qualifier) (leading remainder : Nat) :
    ∀ u ∈ magnitudeText q leading remainder, u ≠ unit '\'' := by
  have htwo (n : Nat) := ne_quote_of_isDigit (isNumeral_twoDigits n).isDigit
  have hnat (n : Nat) := ne_quote_of_isDigit (Text.isNumeral_ofNat n).isDigit
  have hspace : unit ' ' ≠ unit '\'' := by decide
  have hcolon : unit ':' ≠ unit '\'' := by decide
  have hminus : unit '-' ≠ unit '\'' := by decide
  cases q <;> simp only [magnitudeText, trailingText, List.forall_mem_append, List.forall_mem_cons,
    List.append_nil]
  case year | month | day | hour | minute => exact hnat _
  case second => exact ⟨hnat _, fractionText_ne_quote _⟩
  case yearToMonth => exact ⟨hnat _, hminus, hnat _⟩
  case dayToHour => exact ⟨hnat _, hspace, htwo _⟩
  case dayToMinute => exact ⟨hnat _, hspace, htwo _, hcolon, htwo _⟩
  case dayToSecond =>
    exact ⟨hnat _, hspace, htwo _, hcolon, htwo _, hcolon, seconds_ne_quote _⟩
  case hourToMinute => exact ⟨hnat _, hcolon, htwo _⟩
  case hourToSecond => exact ⟨hnat _, hcolon, htwo _, hcolon, seconds_ne_quote _⟩
  case minuteToSecond => exact ⟨hnat _, hcolon, seconds_ne_quote _⟩

theorem violation?_eq_none {q : Qualifier} {f : IntervalFields} : f.violation? q = none ↔
    (0 ≤ f.leading ∧ 0 ≤ f.remainder) ∧ f.leading ≤ maxLeading ∧
      f.remainder < q.remainderLimit := by
  unfold violation?
  split
  next hneg =>
    simp only [Bool.or_eq_true, decide_eq_true_eq] at hneg
    simp only [reduceCtorEq, false_iff]
    omega
  next hneg =>
    simp only [Bool.or_eq_true, decide_eq_true_eq, not_or] at hneg
    split
    · simp only [reduceCtorEq, false_iff]
      omega
    · split
      · simp only [reduceCtorEq, false_iff]
        omega
      · simp only [true_iff]
        omega

theorem IsValid.forms {q : Qualifier} {f : IntervalFields} (h : f.IsValid q) :
    ∃ leading remainder : Nat, f = ⟨f.negative, leading, remainder⟩ ∧
      (leading : Int) ≤ maxLeading ∧ (remainder : Int) < q.remainderLimit := by
  obtain ⟨⟨hleading, hremainder⟩, hmax, hlimit⟩ := violation?_eq_none.1 h.inRange
  refine ⟨f.leading.toNat, f.remainder.toNat, ?_, ?_, ?_⟩
  · rw [Int.toNat_of_nonneg hleading, Int.toNat_of_nonneg hremainder]
  · omega
  · omega

theorem IsValid.leading_le {q : Qualifier} {f : IntervalFields} (h : f.IsValid q) :
    f.leading ≤ maxLeading := (violation?_eq_none.1 h.inRange).2.1

theorem parseBody?_body {q : Qualifier} {f : IntervalFields} (h : f.IsValid q) :
    parseBody? q (f.body q) = some f := by
  obtain ⟨leading, remainder, hf, -, hlimit⟩ := h.forms
  have hbody : f.body q = Text.minusIf f.negative ++ magnitudeText q leading remainder := by
    rw [hf]
    exact body_eq leading hlimit
  have hleading := Text.isNumeral_ofNat leading
  have hsign := Text.takeSign_minusIf f.negative hleading.ne_nil hleading.isDigit
    (trailingText q remainder)
  have htrim := Text.trim_of_isTight (magnitudeText_isTight leading hlimit)
  have hread := magnitudes?_trailingText leading hlimit
  rw [parseBody?, hbody, Text.trim_of_isTight (signed_magnitudeText_isTight _ leading hlimit)]
  simp only [magnitudeText] at htrim ⊢
  simp only [hsign, htrim, hread, Option.bind_eq_bind, Option.bind_some, ← hf, h.inRange,
    h.unsigned]
  rfl

theorem qualifierWords?_sql (q : Qualifier) :
    (blanks? (unit ' ' :: q.sql)).bind qualifierWords? = some (q.words.map Text.ofString) := by
  cases q <;> decide +kernel

theorem ofWords?_words (q : Qualifier) :
    Qualifier.ofWords? (q.words.map Text.ofString) = some q := by
  cases q <;> decide +kernel

theorem body_ne_quote {q : Qualifier} {f : IntervalFields} (h : f.IsValid q) :
    ∀ u ∈ f.body q, u ≠ unit '\'' := by
  obtain ⟨leading, remainder, hf, -, hlimit⟩ := h.forms
  have hsign : ∀ u ∈ Text.minusIf f.negative, u ≠ unit '\'' := by
    intro u hu
    rw [Text.eq_of_mem_minusIf hu]
    decide
  rw [hf, body_eq leading hlimit]
  exact List.forall_mem_append.2 ⟨hsign, magnitudeText_ne_quote q leading remainder⟩

theorem span_quote {s : Text} (hs : ∀ u ∈ s, u ≠ unit '\'') (t : Text) :
    (s ++ unit '\'' :: t).span (· != unit '\'') = (s, unit '\'' :: t) := by
  have hkeep : ∀ u ∈ s, (u != unit '\'') = true := fun u hu => by simpa using hs u hu
  rw [List.span_eq_takeWhile_dropWhile, List.takeWhile_append_of_pos hkeep,
    List.dropWhile_append_of_pos hkeep]
  simp

theorem parts?_literal {q : Qualifier} {f : IntervalFields} (h : f.IsValid q) :
    parts? (f.literal q) = some ⟨false, f.body q, q.words.map Text.ofString⟩ := by
  have hliteral : f.literal q
      = ("INTERVAL" : Text)
        ++ unit ' ' :: unit '\'' :: (f.body q ++ unit '\'' :: unit ' ' :: q.sql) := by
    simp only [literal, List.append_assoc]
    rfl
  have hupper : Text.asciiUpper ("INTERVAL" : Text) = ("INTERVAL" : Text) := by decide
  have hquote : Text.isBlank (unit '\'') = false := by decide
  have hspace : Text.isBlank (unit ' ') = true := by decide
  have hsign : Text.takeSign (unit '\'' :: (f.body q ++ unit '\'' :: unit ' ' :: q.sql))
      = (false, unit '\'' :: (f.body q ++ unit '\'' :: unit ' ' :: q.sql)) := rfl
  have hblanks (t : Text) : blanks? (unit ' ' :: unit '\'' :: t) = some (unit '\'' :: t) := by
    simp [blanks?, hspace, hquote]
  have hdrop (t : Text) : (unit '\'' :: t).dropWhile Text.isBlank = unit '\'' :: t :=
    List.dropWhile_cons_of_neg (by simp [hquote])
  have hwords := qualifierWords?_sql q
  rw [hliteral, parts?]
  simp only [List.take_left, List.drop_left, hupper, hblanks, hsign, hdrop,
    Calendar.expect?_cons, span_quote (body_ne_quote h), Option.bind_eq_bind, Option.bind_some]
  cases hb : blanks? (unit ' ' :: q.sql) with
  | none => simp [hb] at hwords
  | some t =>
    rw [hb] at hwords
    simp only [Option.bind_some] at hwords ⊢
    simp [hwords]

theorem literal_isTight (q : Qualifier) (f : IntervalFields) : (f.literal q).IsTight := by
  have hfirst : ("INTERVAL '" : Text).IsTight := by decide
  have hlast : q.sql.IsTight ∧ q.sql ≠ [] := by
    cases q <;> decide +kernel
  have h := Text.isTight_append (by decide) hlast.2 hfirst hlast.1 (f.body q ++ ("' " : Text))
  simpa [literal, List.append_assoc] using h

theorem parse?_literal (expected : Qualifier) {q : Qualifier} {f : IntervalFields}
    (h : f.IsValid q) : parse? expected (f.literal q) = some (q, f) := by
  rw [parse?, Text.trim_of_isTight (literal_isTight q f), parts?_literal h]
  simp [ofWords?_words, parseBody?_body h]

end Datum.IntervalFields
