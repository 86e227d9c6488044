import Datum.Calendar.Literal
import Datum.Proofs.Calendar.Exact
import Datum.Proofs.Text.Blanks
import Mathlib.Data.List.TakeWhile

/-!
# Times and offsets as text

A time of day and an offset are read back from their text. The readers take as many digits as they
find, so that each part is followed by something that is no digit.
-/

set_option autoImplicit false

namespace Datum

open Text (unit digitsValue spanDigits NoDigitNext twoDigits)

namespace Text

theorem dropEnd_append {α : Type} [DecidableEq α] (l : List α) (a : α) :
    (l.reverse.dropWhile (· == a)).reverse
      ++ List.replicate (l.length - (l.reverse.dropWhile (· == a)).length) a = l := by
  have htake : l.reverse.takeWhile (· == a)
      = List.replicate (l.reverse.takeWhile (· == a)).length a := by
    refine List.eq_replicate_of_mem fun b hb => ?_
    simpa using List.mem_takeWhile_imp hb
  have hsplit := List.takeWhile_append_dropWhile (p := (· == a)) (l := l.reverse)
  have hlength := congrArg List.length hsplit
  rw [List.length_append, List.length_reverse] at hlength
  have hcount : l.length - (l.reverse.dropWhile (· == a)).length
      = (l.reverse.takeWhile (· == a)).length := by omega
  rw [hcount, ← List.reverse_replicate, ← htake, ← List.reverse_append, hsplit,
    List.reverse_reverse]

end Text

namespace Calendar

theorem padZeros_nine {f : Nat} (hf : f < 1000000000) :
    (Text.padZeros 9 (Text.ofInt f)).length = 9 := by
  have hlength := (Text.length_ofNat_le_iff f (k := 9) (by decide)).2 hf
  rw [Text.length_padZeros, Text.ofInt_natCast]
  omega

theorem digitsValue_nine (f : Nat) : digitsValue (Text.padZeros 9 (Text.ofInt f)) = f := by
  rw [Text.digitsValue_padZeros, Text.ofInt_natCast, Text.digitsValue_ofNat]

theorem fractionDigits_append {f : Nat} (hf : f < 1000000000) :
    fractionDigits f ++ List.replicate (9 - (fractionDigits f).length) (unit '0')
      = Text.padZeros 9 (Text.ofInt f) := by
  have h := Text.dropEnd_append (Text.padZeros 9 (Text.ofInt f)) (unit '0')
  rw [padZeros_nine hf] at h
  simpa [fractionDigits] using h

theorem fractionDigits_isDigit (f : Nat) : ∀ u ∈ fractionDigits f, Text.isDigit u = true := by
  intro u hu
  have hmem := (List.dropWhile_sublist _).mem (List.mem_reverse.1 hu)
  rw [List.mem_reverse, Text.ofInt_natCast] at hmem
  exact Text.padZeros_isDigit (Text.ofNat_isDigit _) 9 u hmem

theorem fractionDigits_length {f : Nat} (hf : f < 1000000000) (hne : f ≠ 0) :
    1 ≤ (fractionDigits f).length ∧ (fractionDigits f).length ≤ 9 := by
  have happend := fractionDigits_append hf
  constructor
  · by_contra h
    have hnil : fractionDigits f = [] := List.eq_nil_of_length_eq_zero (by omega)
    have hvalue := digitsValue_nine f
    rw [← happend, hnil, List.nil_append, Text.digitsValue_zeros] at hvalue
    exact hne hvalue.symm
  · have h := congrArg List.length happend
    rw [List.length_append, padZeros_nine hf] at h
    omega

def fractionText (f : Nat) : Text := if f = 0 then [] else unit '.' :: fractionDigits f

theorem digitRun?_append {least most : Nat} {s t : Text} (hs : ∀ u ∈ s, Text.isDigit u = true)
    (ht : NoDigitNext t) (hleast : least ≤ s.length) (hmost : s.length ≤ most) :
    digitRun? least most (s ++ t) = some (s, t) := by
  simp only [digitRun?, Text.spanDigits_append hs ht]
  rw [if_pos (by simp [hleast, hmost])]

theorem noDigitNext_fractionText (f : Nat) {t : Text} (ht : NoDigitNext t) :
    NoDigitNext (fractionText f ++ t) := by
  by_cases hf : f = 0
  · simpa [fractionText, hf] using ht
  · simp only [fractionText, if_neg hf, List.cons_append]
    exact Text.noDigitNext_cons (by decide)

theorem fractionPart?_append {f : Nat} (hf : f < 1000000000) {t : Text} (ht : NoDigitNext t)
    (hpoint : t.head? ≠ some (unit '.')) :
    fractionPart? (fractionText f ++ t) = some ((f : Int), t) := by
  by_cases hzero : f = 0
  · subst hzero
    cases t with
    | nil => rfl
    | cons u t =>
      have hu : u ≠ unit '.' := by simpa using hpoint
      simp [fractionText, fractionPart?, hu]
  · obtain ⟨hleast, hmost⟩ := fractionDigits_length hf hzero
    have hrun := digitRun?_append (fractionDigits_isDigit f) ht hleast hmost
    simp only [fractionText, if_neg hzero, List.cons_append, fractionPart?, if_true, hrun]
    simp only [Option.bind_eq_bind, Option.bind_some, fractionDigits_append hf, digitsValue_nine]
    rfl

theorem twoDigits?_append {n : Nat} (h : n < 100) (t : Text) :
    twoDigits? (twoDigits n ++ t) = some ((n : Int), t) := by
  have hfirst := Text.isDigit_digitUnit (d := n / 10) (by omega)
  have hlast := Text.isDigit_digitUnit (d := n % 10) (by omega)
  have hvalue := Text.digitsValue_twoDigits h
  rw [twoDigits] at hvalue
  simp [twoDigits, twoDigits?, hfirst, hlast, hvalue]

theorem expect?_cons (u : UInt16) (t : Text) : expect? u (u :: t) = some t := by simp [expect?]

theorem eq_cons_of_expect? {u : UInt16} {t rest : Text} (h : expect? u t = some rest) :
    t = u :: rest := by
  cases t with
  | nil => cases h
  | cons v t =>
    simp only [expect?, Option.ite_none_right_eq_some, Option.some.injEq] at h
    rw [h.1, h.2]

theorem formatTime_natCast {n : Nat} (h : n < 86400000000000) :
    formatTime n = twoDigits (n / 3600000000000) ++ unit ':' :: (twoDigits (n / 60000000000 % 60)
      ++ unit ':' :: (twoDigits (n / 1000000000 % 60) ++ fractionText (n % 1000000000))) := by
  have hseconds : (n : Int).tdiv nanosPerSecond = (n / 1000000000 : Nat) := rfl
  have hfraction : (n : Int).tmod nanosPerSecond = (n % 1000000000 : Nat) := rfl
  have hsexagesimal (k : Nat) : (k : Int).tmod 60 = (k % 60 : Nat) := rfl
  have hround : Number.round53 ((n / 1000000000 : Nat) : Int) = (n / 1000000000 : Nat) :=
    Number.round53_of_le (by omega)
  have hbound : n / 1000000000 ≤ 0x20000000000000 := by omega
  have hzero : ((n % 1000000000 : Nat) : Int) = 0 ↔ n % 1000000000 = 0 := by omega
  simp only [formatTime, hseconds, hfraction, hround, floorQuotient_natCast hbound, hsexagesimal,
    Nat.div_div_eq_div_mul, hzero]
  rw [padded_two (by omega), padded_two (by omega), padded_two (by omega)]
  simp [fractionText]

theorem timePart?_formatTime {n : Nat} (h : n < 86400000000000) {t : Text} (ht : NoDigitNext t)
    (hpoint : t.head? ≠ some (unit '.')) :
    ∃ c, timePart? (formatTime n ++ t) = some (c, t) ∧ c.toNanos? = some (n : Int) := by
  have hhour : n / 3600000000000 < 100 := by omega
  have hfraction := fractionPart?_append (f := n % 1000000000) (by omega) ht hpoint
  refine ⟨⟨(n / 3600000000000 : Nat), (n / 60000000000 % 60 : Nat), (n / 1000000000 % 60 : Nat),
    (n % 1000000000 : Nat)⟩, ?_, ?_⟩
  · rw [formatTime_natCast h]
    simp only [List.append_assoc, List.cons_append, timePart?]
    rw [digitRun?_append (Text.twoDigits_isDigit hhour) (Text.noDigitNext_cons (by decide))
      (by simp [twoDigits]) (by simp [twoDigits])]
    simp only [Option.bind_eq_bind, Option.bind_some, expect?_cons,
      twoDigits?_append (n := n / 60000000000 % 60) (by omega), secondPart?, if_true,
      twoDigits?_append (n := n / 1000000000 % 60) (by omega), hfraction,
      Text.digitsValue_twoDigits hhour]
    rfl
  · rw [Clock.toNanos?, if_neg (by simp; omega)]
    simp only [nanosPerHour, nanosPerMinute, nanosPerSecond, Option.some.injEq]
    omega

theorem parseTime?_formatTime {n : Nat} (h : n < 86400000000000) :
    parseTime? (formatTime n) = some (n : Int) := by
  obtain ⟨c, hpart, hnanos⟩ := timePart?_formatTime h Text.noDigitNext_nil (by simp)
  rw [List.append_nil] at hpart
  simp [parseTime?, hpart, hnanos]

def offsetRest (minutes seconds : Nat) : Text :=
  if minutes = 0 ∧ seconds = 0 then []
  else unit ':' :: (twoDigits minutes ++ if seconds = 0 then [] else unit ':' :: twoDigits seconds)

theorem formatOffset_eq {offset : Int} (h : offset.natAbs ≤ 64800) :
    formatOffset offset = (if offset < 0 then unit '-' else unit '+')
      :: (twoDigits (offset.natAbs / 3600)
        ++ offsetRest (offset.natAbs / 60 % 60) (offset.natAbs % 60)) := by
  generalize hmagnitude : offset.natAbs = n at h ⊢
  have hsexagesimal (k : Nat) : (k : Int).tmod 60 = (k % 60 : Nat) := rfl
  have hbound : n ≤ 0x20000000000000 := by omega
  have hsign : (if offset < 0 then ("-" : Text) else ("+" : Text))
      = [if offset < 0 then unit '-' else unit '+'] := by
    split <;> rfl
  have hzero (k : Nat) : (k : Int) = 0 ↔ k = 0 := by omega
  simp only [formatOffset, hmagnitude, hsexagesimal, floorQuotient_natCast hbound, hsign, hzero]
  rw [padded_two (by omega), padded_two (by omega), padded_two (by omega)]
  simp [offsetRest]

theorem sexagesimal?_colon {n : Nat} (h : n < 100) (t : Text) :
    sexagesimal? (unit ':' :: (twoDigits n ++ t)) = some ((n : Int), t) := by
  simp [sexagesimal?, twoDigits?_append h]

theorem offsetTail?_offsetRest {minutes seconds : Nat} (hm : minutes < 60) (hs : seconds < 60) :
    offsetTail? (offsetRest minutes seconds) = some ((minutes : Int), (seconds : Int)) := by
  by_cases hzero : minutes = 0 ∧ seconds = 0
  · obtain ⟨rfl, rfl⟩ := hzero
    rfl
  · rw [offsetRest, if_neg hzero]
    have hfirst := sexagesimal?_colon (n := minutes) (by omega)
    by_cases hseconds : seconds = 0
    · have hlast := hfirst []
      rw [List.append_nil] at hlast
      simp [offsetTail?, hseconds, hlast]
    · have hlast := sexagesimal?_colon (n := seconds) (by omega) []
      rw [List.append_nil] at hlast
      simp [offsetTail?, hseconds, hfirst, hlast]

theorem offsetFields?_twoDigits {hours minutes seconds : Nat} (hh : hours < 100)
    (hm : minutes < 60) (hs : seconds < 60) :
    offsetFields? (twoDigits hours ++ offsetRest minutes seconds)
      = some ((hours : Int), (minutes : Int), (seconds : Int)) := by
  have hfirst := Text.isDigit_digitUnit (d := hours / 10) (by omega)
  have hlast := Text.isDigit_digitUnit (d := hours % 10) (by omega)
  have hvalue := Text.digitsValue_twoDigits hh
  rw [twoDigits] at hvalue
  simp [twoDigits, offsetFields?, hfirst, hlast, hvalue, offsetTail?_offsetRest hm hs]

theorem isUtcWord_sign {u : UInt16} (hu : u = unit '-' ∨ u = unit '+') (t : Text) :
    isUtcWord (u :: t) = false := by
  have hz : ("Z" : Text) = [0x5A] := rfl
  have hutc : ("UTC" : Text) = [0x55, 0x54, 0x43] := rfl
  have hupper : Text.asciiUpperUnit u ≠ 0x5A ∧ Text.asciiUpperUnit u ≠ 0x55 := by
    rcases hu with rfl | rfl <;> decide
  simp [isUtcWord, Text.asciiUpper, hz, hutc, hupper]

theorem parseOffset?_formatOffset {offset : Int} (h : offset.natAbs ≤ 64800) :
    parseOffset? (formatOffset offset) = some offset := by
  have hfields : offsetFields? (twoDigits (offset.natAbs / 3600)
      ++ offsetRest (offset.natAbs / 60 % 60) (offset.natAbs % 60))
        = some (((offset.natAbs / 3600 : Nat) : Int), ((offset.natAbs / 60 % 60 : Nat) : Int),
          ((offset.natAbs % 60 : Nat) : Int)) :=
    offsetFields?_twoDigits (by omega) (by omega) (by omega)
  rw [formatOffset_eq h]
  by_cases hneg : offset < 0
  · rw [if_pos hneg, parseOffset?, isUtcWord_sign (.inl rfl)]
    have hsign : ¬unit '-' = unit '+' := by decide
    simp only [hsign, hfields, Option.bind_eq_bind, Option.bind_some, maxOffsetSeconds]
    rw [if_neg (by simp), if_pos (by simp), if_neg (by simp; omega), if_neg (by omega),
      if_pos trivial]
    simp only [Option.some.injEq]
    omega
  · rw [if_neg hneg, parseOffset?, isUtcWord_sign (.inr rfl)]
    have hsign : ¬unit '+' = unit '-' := by decide
    simp only [hsign, hfields, Option.bind_eq_bind, Option.bind_some, maxOffsetSeconds]
    rw [if_neg (by simp), if_pos (by simp), if_neg (by simp; omega), if_neg (by omega),
      if_neg (by simp)]
    simp only [Option.some.injEq]
    omega

theorem offsetAtEnd?_formatOffset {offset : Int} (h : offset.natAbs ≤ 64800) :
    offsetAtEnd? (formatOffset offset) = some (some offset) := by
  have hread := parseOffset?_formatOffset h
  rw [formatOffset_eq h] at hread ⊢
  have hblank : Text.isBlank (if offset < 0 then unit '-' else unit '+') = false := by
    split <;> decide
  rw [offsetAtEnd?, List.dropWhile_cons_of_neg (by simp [hblank]), hread]
  rfl

theorem noDigitNext_formatOffset {offset : Int} (h : offset.natAbs ≤ 64800) :
    NoDigitNext (formatOffset offset) ∧ (formatOffset offset).head? ≠ some (unit '.') := by
  rw [formatOffset_eq h]
  constructor
  · exact Text.noDigitNext_cons (by split <;> decide)
  · simp only [List.head?_cons, ne_eq, Option.some.injEq]
    split <;> decide

theorem parseTimeLiteral?_formatTime {n : Nat} (hn : n < 86400000000000) {offset : Int}
    (h : offset.natAbs ≤ 64800) :
    parseTimeLiteral? (formatTime n ++ formatOffset offset) = some ⟨n, some offset⟩ := by
  obtain ⟨hdigit, hpoint⟩ := noDigitNext_formatOffset h
  obtain ⟨c, hpart, hnanos⟩ := timePart?_formatTime hn hdigit hpoint
  simp [parseTimeLiteral?, hpart, hnanos, offsetAtEnd?_formatOffset h]

theorem twoDigits_isBlank {n : Nat} (h : n < 100) : ∀ u ∈ twoDigits n, Text.isBlank u = false :=
  fun u hu => Text.isBlank_of_isDigit (Text.twoDigits_isDigit h u hu)

theorem formatTime_isBlank {n : Nat} (h : n < 86400000000000) :
    ∀ u ∈ formatTime n, Text.isBlank u = false := by
  have hcolon : Text.isBlank (unit ':') = false := by decide
  have hpoint : Text.isBlank (unit '.') = false := by decide
  have hfraction : ∀ u ∈ fractionText (n % 1000000000), Text.isBlank u = false := by
    unfold fractionText
    split
    · simp
    · exact List.forall_mem_cons.2
        ⟨hpoint, fun u hu => Text.isBlank_of_isDigit (fractionDigits_isDigit _ u hu)⟩
  rw [formatTime_natCast h]
  simp only [List.forall_mem_append, List.forall_mem_cons]
  exact ⟨twoDigits_isBlank (by omega), hcolon, twoDigits_isBlank (by omega), hcolon,
    twoDigits_isBlank (by omega), hfraction⟩

theorem formatOffset_isBlank {offset : Int} (h : offset.natAbs ≤ 64800) :
    ∀ u ∈ formatOffset offset, Text.isBlank u = false := by
  have hcolon : Text.isBlank (unit ':') = false := by decide
  have hsign : Text.isBlank (if offset < 0 then unit '-' else unit '+') = false := by
    split <;> decide
  have hrest : ∀ u ∈ offsetRest (offset.natAbs / 60 % 60) (offset.natAbs % 60),
      Text.isBlank u = false := by
    unfold offsetRest
    split
    · simp
    · refine List.forall_mem_cons.2 ⟨hcolon, List.forall_mem_append.2 ⟨?_, ?_⟩⟩
      · exact twoDigits_isBlank (by omega)
      · split
        · simp
        · exact List.forall_mem_cons.2 ⟨hcolon, twoDigits_isBlank (by omega)⟩
  rw [formatOffset_eq h]
  simp only [List.forall_mem_append, List.forall_mem_cons]
  exact ⟨hsign, twoDigits_isBlank (by omega), hrest⟩

end Calendar

end Datum
