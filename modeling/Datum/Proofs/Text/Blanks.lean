import Datum.Value.Make
import Mathlib.Data.List.TakeWhile

/-!
# Blanks around texts

A text is tight if it has no blanks at its ends. Trimming makes texts tight and leaves tight ones
alone, as does the fixed-width kind, which drops the spaces at the end. Blanks around a text do not
matter once it is trimmed, and they are all that is lost.
-/

set_option autoImplicit false

namespace Datum

namespace Text

def IsTight (t : Text) : Prop :=
  (∀ u, t.head? = some u → isBlank u = false) ∧ ∀ u, t.getLast? = some u → isBlank u = false

instance (t : Text) : Decidable (IsTight t) :=
  decidable_of_iff (t.head?.all (!isBlank ·) ∧ t.getLast?.all (!isBlank ·)) (by
    simp [IsTight, Option.all_eq_true])

theorem dropWhile_eq_self {α : Type} {p : α → Bool} {l : List α}
    (h : ∀ a, l.head? = some a → p a = false) : l.dropWhile p = l := by
  cases l with
  | nil => rfl
  | cons a l => exact List.dropWhile_cons_of_neg (by simp [h a rfl])

theorem trim_of_isTight {t : Text} (h : IsTight t) : trim t = t := by
  have hstart : trimStart t = t := dropWhile_eq_self h.1
  have hend : t.reverse.dropWhile isBlank = t.reverse := by
    refine dropWhile_eq_self fun u hu => h.2 u ?_
    rwa [List.head?_reverse] at hu
  rw [trim, hstart, trimEnd, hend, List.reverse_reverse]

theorem dropTrailingSpaces_of_getLast? {t : Text} (h : t.getLast? ≠ some (unit ' ')) :
    t.dropTrailingSpaces = t := by
  have hend : t.reverse.dropWhile (· == 0x20) = t.reverse := by
    refine dropWhile_eq_self fun u hu => ?_
    rw [List.head?_reverse] at hu
    have hspace : u ≠ 0x20 := by
      rintro rfl
      exact h hu
    simpa using hspace
  rw [dropTrailingSpaces, hend, List.reverse_reverse]

theorem dropTrailingSpaces_of_isTight {t : Text} (h : IsTight t) : t.dropTrailingSpaces = t :=
  dropTrailingSpaces_of_getLast? fun hlast => absurd (h.2 _ hlast) (by decide)

theorem exists_trailing_spaces (t : Text) :
    ∃ spaces : Text, t = t.dropTrailingSpaces ++ spaces ∧ ∀ u ∈ spaces, u = unit ' ' := by
  refine ⟨(t.reverse.takeWhile (· == 0x20)).reverse, ?_, fun u hu => ?_⟩
  · rw [dropTrailingSpaces, ← List.reverse_append, List.takeWhile_append_dropWhile,
      List.reverse_reverse]
  · have hspace := List.mem_takeWhile_imp (List.mem_reverse.1 hu)
    exact eq_of_beq hspace

theorem dropTrailingSpaces_append {s spaces : Text} (h : ∀ u ∈ spaces, u = unit ' ') :
    (s ++ spaces).dropTrailingSpaces = s.dropTrailingSpaces := by
  have hspaces : ∀ u ∈ spaces.reverse, (u == 0x20) = true :=
    fun u hu => beq_iff_eq.2 (h u (List.mem_reverse.1 hu))
  rw [dropTrailingSpaces, List.reverse_append, List.dropWhile_append_of_pos hspaces,
    dropTrailingSpaces]

/-- Spaces that are dropped before a text is cut would have been dropped after it. -/
theorem dropTrailingSpaces_take (t : Text) (n : Nat) :
    dropTrailingSpaces (t.dropTrailingSpaces.take n) = dropTrailingSpaces (t.take n) := by
  obtain ⟨spaces, ht, hspaces⟩ := exists_trailing_spaces t
  have hcut : t.take n = t.dropTrailingSpaces.take n
      ++ spaces.take (n - t.dropTrailingSpaces.length) := by
    rw [← List.take_append, ← ht]
  rw [hcut, dropTrailingSpaces_append fun u hu => hspaces u (List.mem_of_mem_take hu)]

theorem length_dropTrailingSpaces_le (t : Text) : t.dropTrailingSpaces.length ≤ t.length := by
  obtain ⟨spaces, ht, -⟩ := exists_trailing_spaces t
  have hlength := congrArg List.length ht
  rw [List.length_append] at hlength
  omega

theorem isTight_trim (t : Text) : IsTight (trim t) := by
  constructor
  · intro u hu
    -- What is dropped at the end leaves the first unit, if any is left.
    have hsub : ∀ s : Text, ∀ v, (trimEnd s).head? = some v → s.head? = some v := by
      intro s v hv
      obtain ⟨r, hr⟩ := List.dropWhile_suffix isBlank (l := s.reverse)
      have hs : s = trimEnd s ++ r.reverse := by
        rw [trimEnd, ← List.reverse_append, hr, List.reverse_reverse]
      rw [hs, List.head?_append, hv]
      rfl
    have hfirst := List.head?_dropWhile_not isBlank t
    have hu : (t.dropWhile isBlank).head? = some u := hsub (trimStart t) u hu
    rw [hu] at hfirst
    exact hfirst
  · intro u hu
    have hlast := List.head?_dropWhile_not isBlank (trimStart t).reverse
    rw [trim, trimEnd, List.getLast?_reverse] at hu
    rw [hu] at hlast
    exact hlast

theorem trim_trim (t : Text) : t.trim.trim = t.trim := trim_of_isTight (isTight_trim t)

theorem isTight_append {s t : Text} (hs : s ≠ []) (ht : t ≠ []) (hhead : IsTight s)
    (hlast : IsTight t) (m : Text) : IsTight (s ++ m ++ t) := by
  constructor
  · intro u hu
    refine hhead.1 u ?_
    cases s with
    | nil => exact absurd rfl hs
    | cons v s => exact hu
  · intro u hu
    refine hlast.2 u ?_
    rw [List.getLast?_append] at hu
    cases h : t.getLast? with
    | none => exact absurd (List.getLast?_eq_none_iff.1 h) ht
    | some v => rwa [h] at hu

theorem isTight_of_forall {t : Text} (h : ∀ u ∈ t, isBlank u = false) : IsTight t :=
  ⟨fun u hu => h u (List.mem_of_head? hu), fun u hu => h u (List.mem_of_getLast? hu)⟩

theorem isBlank_of_printed {u : UInt16} (hlow : 33 ≤ u.toNat) (hhigh : u.toNat ≤ 126) :
    isBlank u = false := by
  simp only [isBlank, Bool.or_eq_false_iff, Bool.and_eq_false_iff, decide_eq_false_iff_not,
    beq_eq_false_iff_ne]
  omega

theorem isBlank_of_isDigit {u : UInt16} (h : isDigit u = true) : isBlank u = false := by
  simp only [isDigit, Bool.and_eq_true, decide_eq_true_eq] at h
  exact isBlank_of_printed (by omega) (by omega)

theorem isBlank_of_isAsciiLetter {u : UInt16} (h : isAsciiLetter u = true) : isBlank u = false := by
  simp only [isAsciiLetter, Bool.or_eq_true, Bool.and_eq_true, decide_eq_true_eq] at h
  exact isBlank_of_printed (by omega) (by omega)

theorem isAsciiLetter_of_upper {u : UInt16} (h : isAsciiLetter (asciiUpperUnit u) = true) :
    isAsciiLetter u = true := by
  unfold asciiUpperUnit at h
  split at h
  next hlower => simp only [isAsciiLetter, hlower, Bool.or_true]
  next => exact h

def IsBlanks (t : Text) : Prop := ∀ u ∈ t, isBlank u = true

instance (t : Text) : Decidable (IsBlanks t) :=
  decidable_of_iff (t.all isBlank = true) List.all_eq_true

variable {a b t : Text}

theorem trimEnd_append (ha : IsBlanks a) (t : Text) : trimEnd (t ++ a) = trimEnd t := by
  have hreverse : ∀ u ∈ a.reverse, isBlank u = true := fun u hu => ha u (List.mem_reverse.1 hu)
  rw [trimEnd, List.reverse_append, List.dropWhile_append_of_pos hreverse, trimEnd]

theorem trim_blanks_append (hb : IsBlanks b) (t : Text) : trim (b ++ t) = trim t := by
  rw [trim, trimStart, List.dropWhile_append_of_pos hb, trim, trimStart]

theorem trim_append_blanks (ha : IsBlanks a) (t : Text) : trim (t ++ a) = trim t := by
  have hnil : a.dropWhile isBlank = [] := List.dropWhile_eq_nil_iff.2 ha
  rw [trim, trimStart, List.dropWhile_append]
  split
  next hempty =>
    rw [hnil, trim, trimStart, List.isEmpty_iff.1 hempty]
  next => exact trimEnd_append ha _

theorem exists_trimEnd (t : Text) : ∃ a, IsBlanks a ∧ trimEnd t ++ a = t := by
  refine ⟨(t.reverse.takeWhile isBlank).reverse, fun u hu => ?_, ?_⟩
  · exact List.mem_takeWhile_imp (List.mem_reverse.1 hu)
  · rw [trimEnd, ← List.reverse_append, List.takeWhile_append_dropWhile, List.reverse_reverse]

theorem exists_trim (t : Text) : ∃ b a, IsBlanks b ∧ IsBlanks a ∧ b ++ (trim t ++ a) = t := by
  obtain ⟨a, ha, hsplit⟩ := exists_trimEnd (trimStart t)
  refine ⟨t.takeWhile isBlank, a, fun u hu => List.mem_takeWhile_imp hu, ha, ?_⟩
  rw [trim, hsplit, trimStart, List.takeWhile_append_dropWhile]

theorem trim_trimEnd (t : Text) : trim (trimEnd t) = trim t := by
  obtain ⟨a, ha, hsplit⟩ := exists_trimEnd t
  rw [← trim_append_blanks ha, hsplit]

theorem trimEnd_cons {u : UInt16} (hu : isBlank u = false) (t : Text) :
    trimEnd (u :: t) = u :: trimEnd t := by
  rw [trimEnd, List.reverse_cons, List.dropWhile_append]
  split
  next hempty => simp [trimEnd, List.isEmpty_iff.1 hempty, hu]
  next => rw [List.reverse_append, trimEnd]; rfl

end Text

namespace Value

theorem ofText_of_isTight (k : StringKind) {t : Text} (h : t.IsTight) :
    ofText k t = .string k t := by
  cases k with
  | varchar | varcharIgnoreCase => rfl
  | char => rw [ofText, Text.dropTrailingSpaces_of_isTight h]

end Value

end Datum
