import Datum.Interval.Literal
import Datum.Proofs.Text.Blanks
import Mathlib.Data.List.SplitBy

/-!
# Words between blanks

Words of letters with blanks between them (`Spells`) are what a text is split into, and a text of
letters and blanks that neither begins nor ends with a blank is such a sequence of words.
-/

set_option autoImplicit false

namespace Datum

namespace Text

structure IsWord (t : Text) : Prop where
  ne_nil : t ≠ []
  letters : ∀ u ∈ t, isAsciiLetter u = true

instance (t : Text) : Decidable (IsWord t) :=
  decidable_of_iff (t ≠ [] ∧ t.all isAsciiLetter = true) (by
    rw [List.all_eq_true]
    exact ⟨fun h => ⟨h.1, h.2⟩, fun h => ⟨h.ne_nil, h.letters⟩⟩)

inductive Spells : List Text → Text → Prop
  | single {w : Text} : IsWord w → Spells [w] w
  | cons {w gap : Text} {ws : List Text} {t : Text} : IsWord w → gap ≠ [] → IsBlanks gap →
      Spells ws t → Spells (w :: ws) (w ++ (gap ++ t))

variable {t w : Text}

theorem IsWord.isBlank (h : IsWord t) : ∀ u ∈ t, Text.isBlank u = false :=
  fun u hu => isBlank_of_isAsciiLetter (h.letters u hu)

theorem Spells.ne_nil {ws : List Text} (h : Spells ws t) : t ≠ [] := by
  cases h with
  | single hw => exact hw.ne_nil
  | cons hw => exact List.append_ne_nil_of_left_ne_nil hw.ne_nil _

theorem Spells.isTight {ws : List Text} (h : Spells ws t) : IsTight t := by
  induction h with
  | single hw => exact isTight_of_forall hw.isBlank
  | @cons w gap ws t hw _ _ ht ih =>
    rw [← List.append_assoc]
    exact isTight_append hw.ne_nil ht.ne_nil (isTight_of_forall hw.isBlank) ih gap

theorem Spells.blank_or_letter {ws : List Text} (h : Spells ws t) :
    ∀ u ∈ t, (Text.isBlank u || isAsciiLetter u) = true := by
  have hword {w : Text} (hw : IsWord w) : ∀ u ∈ w, (Text.isBlank u || isAsciiLetter u) = true :=
    fun u hu => by rw [hw.letters u hu, Bool.or_true]
  induction h with
  | single hw => exact hword hw
  | cons hw _ hgap _ ih =>
    refine List.forall_mem_append.2 ⟨hword hw, List.forall_mem_append.2 ⟨fun u hu => ?_, ih⟩⟩
    rw [hgap u hu, Bool.true_or]

end Text

namespace IntervalFields

open Text (IsBlanks IsWord Spells IsTight)

variable {t w gap : Text}

theorem splitBy_run (hne : t ≠ []) {b : Bool} (h : ∀ u ∈ t, Text.isBlank u = b) :
    t.splitBy (fun u v => Text.isBlank u == Text.isBlank v) = [t] := by
  refine List.splitBy_of_isChain hne (List.Pairwise.isChain ?_)
  refine List.pairwise_of_forall_mem_list fun u hu v hv => ?_
  rw [h u hu, h v hv, beq_self_eq_true]

theorem splitWords_word (hw : IsWord w) : splitWords w = [w] := by
  have hblank : w.any Text.isBlank = false :=
    List.any_eq_false.2 fun u hu => by simp [hw.isBlank u hu]
  simp [splitWords, splitBy_run hw.ne_nil hw.isBlank, hblank]

theorem splitWords_append (hw : IsWord w) (hne : gap ≠ []) (hgap : IsBlanks gap)
    (ht : ∀ u, t.head? = some u → Text.isBlank u = false) :
    splitWords (w ++ (gap ++ t)) = w :: splitWords t := by
  have hgapBlank : gap.any Text.isBlank = true := by
    obtain ⟨u, hu⟩ := List.exists_mem_of_ne_nil gap hne
    exact List.any_eq_true.2 ⟨u, hu, hgap u hu⟩
  have hfirst : ∀ u ∈ w.getLast?, ∀ v ∈ (gap ++ t).head?,
      (Text.isBlank u == Text.isBlank v) = false := by
    intro u hu v hv
    have hv : v ∈ gap.head? := by
      cases gap with
      | nil => exact absurd rfl hne
      | cons => exact hv
    rw [hw.isBlank u (List.mem_of_getLast? hu), hgap v (List.mem_of_head? hv)]
    rfl
  have hsecond : ∀ u ∈ gap.getLast?, ∀ v ∈ t.head?,
      (Text.isBlank u == Text.isBlank v) = false := by
    intro u hu v hv
    rw [hgap u (List.mem_of_getLast? hu), ht v hv]
    rfl
  have hword := splitWords_word hw
  rw [splitWords] at hword
  rw [splitWords, List.splitBy_append hfirst, List.splitBy_append hsecond, List.filter_append,
    List.filter_append, hword, splitBy_run hne hgap]
  simp [hgapBlank, splitWords]

theorem splitWords_spells {ws : List Text} (h : Spells ws t) : splitWords t = ws := by
  induction h with
  | single hw => exact splitWords_word hw
  | cons hw hne hgap ht ih => rw [splitWords_append hw hne hgap ht.isTight.1, ih]

theorem exists_run (p : UInt16 → Bool) (hne : t ≠ [])
    (hfirst : ∀ u, t.head? = some u → p u = true) :
    ∃ run rest, t = run ++ rest ∧ run ≠ [] ∧ (∀ u ∈ run, p u = true) ∧
      ∀ u, rest.head? = some u → p u = false := by
  refine ⟨t.takeWhile p, t.dropWhile p, List.takeWhile_append_dropWhile.symm, ?_,
    fun u hu => List.mem_takeWhile_imp hu, fun u hu => ?_⟩
  · cases t with
    | nil => exact absurd rfl hne
    | cons u t => simp [hfirst u rfl]
  · have hhead := List.head?_dropWhile_not p t
    rw [hu] at hhead
    simpa using hhead

theorem exists_word (hne : t ≠ []) (ht : IsTight t)
    (hunits : ∀ u ∈ t, (Text.isBlank u || Text.isAsciiLetter u) = true) :
    IsWord t ∨ ∃ w gap rest, t = w ++ (gap ++ rest) ∧ IsWord w ∧ gap ≠ [] ∧ IsBlanks gap ∧
      rest ≠ [] ∧ IsTight rest := by
  obtain ⟨w, gapped, rfl, hw, hletters, hgapped⟩ :=
    exists_run (!Text.isBlank ·) hne fun u hu => by simp [ht.1 u hu]
  have hword : IsWord w := by
    refine ⟨hw, fun u hu => ?_⟩
    have hunit := hunits u (List.mem_append_left _ hu)
    have hblank : Text.isBlank u = false := by simpa using hletters u hu
    rwa [hblank, Bool.false_or] at hunit
  by_cases hnil : gapped = []
  · exact .inl (by rwa [hnil, List.append_nil])
  obtain ⟨gap, rest, rfl, hgap, hblanks, hrest⟩ :=
    exists_run Text.isBlank hnil fun u hu => by simpa using hgapped u hu
  have hlast : ∀ u, (gap ++ rest).getLast? = some u → Text.isBlank u = false :=
    fun u hu => ht.2 u (by rw [List.getLast?_append, hu]; rfl)
  refine .inr ⟨w, gap, rest, rfl, hword, hgap, hblanks, ?_, hrest, fun u hu => ?_⟩
  · -- the last unit of the text is not a blank of the gap
    rintro rfl
    rw [List.append_nil] at hlast
    have hblank := hblanks _ (List.getLast_mem hgap)
    rw [hlast _ (List.getLast?_eq_getLast_of_ne_nil hgap)] at hblank
    exact absurd hblank Bool.false_ne_true
  · exact hlast u (by rw [List.getLast?_append, hu]; rfl)

theorem spells_splitWords (hne : t ≠ []) (ht : IsTight t)
    (hunits : ∀ u ∈ t, (Text.isBlank u || Text.isAsciiLetter u) = true) :
    Spells (splitWords t) t := by
  -- what is left after the first word is shorter
  induction hn : t.length using Nat.strong_induction_on generalizing t with
  | _ n ih =>
    obtain hword | ⟨w, gap, rest, rfl, hw, hgap, hblanks, hrest, htight⟩ :=
      exists_word hne ht hunits
    · rw [splitWords_word hword]
      exact .single hword
    · rw [splitWords_append hw hgap hblanks htight.1]
      simp only [List.forall_mem_append] at hunits
      have hlength := List.length_pos_iff.2 hgap
      simp only [List.length_append] at hn
      exact .cons hw hgap hblanks (ih rest.length (by omega) hrest htight hunits.2.2 rfl)

end IntervalFields

end Datum
