import Datum.Proofs.Compare.Antisymmetry
import Datum.Proofs.Number.Places

/-!
# The common type of many operands

Types are combined two at a time, in any bracketing. The outcome depends on the list of operands
alone: it has the highest kind, the greatest precision and scale, and the extension that comes first
among the operands of that kind. Of this only the extension depends on the order of the operands.
-/

set_option autoImplicit false

namespace Datum

/-- A way to combine a list of operands two at a time. -/
inductive Bracketing where
  | operand (t : TypeInfo)
  | combine (l r : Bracketing)

namespace Bracketing

def operands : Bracketing → List TypeInfo
  | .operand t => [t]
  | .combine l r => l.operands ++ r.operands

def outcome : Bracketing → Outcome TypeInfo
  | .operand t => .ok t
  | .combine l r => do (← l.outcome).higher (← r.outcome)

theorem exists_operands {ts : List TypeInfo} (h : ts ≠ []) : ∃ b : Bracketing, b.operands = ts := by
  induction ts with
  | nil => exact absurd rfl h
  | cons t rest ih =>
    by_cases hrest : rest = []
    · exact ⟨.operand t, by rw [hrest]; rfl⟩
    · obtain ⟨b, hb⟩ := ih hrest
      exact ⟨.combine (.operand t) b, by rw [operands, hb]; rfl⟩

end Bracketing

namespace TypeInfo

def firstExtension (kind : Kind) (ts : List TypeInfo) : Option Extension :=
  ts.findSome? fun t => if t.kind = some kind then t.extension else none

theorem firstExtension_append (kind : Kind) (ss ts : List TypeInfo) :
    firstExtension kind (ss ++ ts) = (firstExtension kind ss).or (firstExtension kind ts) :=
  List.findSome?_append

theorem firstExtension_eq_none {kind : Kind} {ts : List TypeInfo}
    (h : ∀ t ∈ ts, t.kind ≠ some kind) : firstExtension kind ts = none :=
  List.findSome?_eq_none_iff.2 fun t ht => if_neg (h t ht)

theorem higherExtension_eq (kind : Kind) (s t : TypeInfo) : higherExtension kind s t =
    (firstExtension kind [s]).or (firstExtension kind [t]) := by
  unfold higherExtension firstExtension
  by_cases hs : s.kind = some kind <;> by_cases ht : t.kind = some kind <;>
    cases hextension : s.extension <;> simp [hs, ht, hextension]

structure IsCommon (ts : List TypeInfo) (u : TypeInfo) : Prop where
  kind : ∃ k, u.kind = some k ∧ (∃ t ∈ ts, t.kind = some k) ∧
    ∀ t ∈ ts, ∃ j, t.kind = some j ∧ j.rank ≤ k.rank
  precision : Num.IsMaximum (ts.map (·.precision)) u.precision
  scale : Num.IsMaximum (ts.map (·.scale)) u.scale
  extension : ∀ k, u.kind = some k → u.extension = firstExtension k ts

namespace IsCommon

variable {ss ts : List TypeInfo} {s t : TypeInfo}

theorem single {k : Kind} (h : t.kind = some k) : IsCommon [t] t where
  kind := ⟨k, h, ⟨t, by simp, h⟩, fun s hs => ⟨k, by rw [List.mem_singleton.1 hs, h], Nat.le_refl _⟩⟩
  precision := .singleton t.precision
  scale := .singleton t.scale
  extension j hj := by simp [firstExtension, hj]

/-- Seen from a kind that is not lower, a list of operands has the extension of its common type. -/
theorem firstExtension_eq {j k : Kind} (h : IsCommon ts t) (hj : t.kind = some j)
    (hle : j.rank ≤ k.rank) : firstExtension k ts = firstExtension k [t] := by
  by_cases hjk : j = k
  · subst hjk
    rw [← h.extension j hj]
    simp [firstExtension, hj]
  · obtain ⟨i, hi, -, hbelow⟩ := h.kind
    obtain rfl : j = i := Option.some.inj (hj.symm.trans hi)
    have hlt : j.rank < k.rank := Nat.lt_of_le_of_ne hle fun heq => hjk (Kind.rank_inj heq)
    rw [firstExtension_eq_none, firstExtension_eq_none]
    · intro s hs hk
      rw [List.mem_singleton.1 hs, hj] at hk
      exact hjk (Option.some.inj hk)
    · intro s hs hk
      obtain ⟨i, hi, hle⟩ := hbelow s hs
      obtain rfl : k = i := Option.some.inj (hk.symm.trans hi)
      omega

theorem higher (hs : IsCommon ss s) (ht : IsCommon ts t) :
    ∃ u, s.higher t = .ok u ∧ IsCommon (ss ++ ts) u := by
  obtain ⟨j, hj, ⟨a, ha, haj⟩, hbelow⟩ := hs.kind
  obtain ⟨k, hk, ⟨b, hb, hbk⟩, hbelow'⟩ := ht.kind
  obtain ⟨i, hi⟩ : ∃ i, i = if k.rank ≤ j.rank then j else k := ⟨_, rfl⟩
  have hhigher : higherKind s.kind t.kind = .ok i := by
    rw [hj, hk, Compare.higherKind_some, hi]
  have hji : j.rank ≤ i.rank := by rw [hi]; split <;> omega
  have hki : k.rank ≤ i.rank := by rw [hi]; split <;> omega
  refine ⟨_, by rw [TypeInfo.higher, hhigher]; rfl, ⟨i, rfl, ?_, ?_⟩, ?_, ?_, ?_⟩
  · rw [hi]
    split
    · exact ⟨a, List.mem_append_left ts ha, haj⟩
    · exact ⟨b, List.mem_append_right ss hb, hbk⟩
  · intro c hc
    rcases List.mem_append.1 hc with hc | hc
    · obtain ⟨h, hh, hle⟩ := hbelow c hc
      exact ⟨h, hh, hle.trans hji⟩
    · obtain ⟨h, hh, hle⟩ := hbelow' c hc
      exact ⟨h, hh, hle.trans hki⟩
  · rw [List.map_append]
    exact hs.precision.append ht.precision
  · rw [List.map_append]
    exact hs.scale.append ht.scale
  · rintro h ⟨rfl⟩
    rw [firstExtension_append, hs.firstExtension_eq hj hji, ht.firstExtension_eq hk hki]
    exact higherExtension_eq i s t

theorem kind_eq (hperm : ss.Perm ts) (hs : IsCommon ss s) (ht : IsCommon ts t) :
    s.kind = t.kind := by
  obtain ⟨j, hj, ⟨a, ha, haj⟩, hbelow⟩ := hs.kind
  obtain ⟨k, hk, ⟨b, hb, hbk⟩, hbelow'⟩ := ht.kind
  obtain ⟨j', hj', hjk⟩ := hbelow' a (hperm.mem_iff.1 ha)
  obtain ⟨k', hk', hkj⟩ := hbelow b (hperm.mem_iff.2 hb)
  obtain rfl : j = j' := Option.some.inj (haj.symm.trans hj')
  obtain rfl : k = k' := Option.some.inj (hbk.symm.trans hk')
  rw [hj, hk, Kind.rank_inj (Nat.le_antisymm hjk hkj)]

theorem eq_of_perm (hperm : ss.Perm ts) (hs : IsCommon ss s) (ht : IsCommon ts t) :
    s = { t with extension := s.extension } := by
  have hkind := hs.kind_eq hperm ht
  have hprecision := hs.precision.unique (hperm.map _) ht.precision
  have hscale := hs.scale.unique (hperm.map _) ht.scale
  cases s
  simp_all

theorem unique (hs : IsCommon ts s) (ht : IsCommon ts t) : s = t := by
  have hsame := hs.eq_of_perm (.refl ts) ht
  obtain ⟨k, hk, -⟩ := ht.kind
  have hextension := hs.extension k ((hs.kind_eq (.refl ts) ht).trans hk)
  rw [hsame, hextension, ← ht.extension k hk]

theorem of_bracketing (b : Bracketing) (h : ∀ t ∈ b.operands, t.kind ≠ none) :
    ∃ u, b.outcome = .ok u ∧ IsCommon b.operands u := by
  induction b with
  | operand t =>
    obtain ⟨k, hk⟩ := Option.ne_none_iff_exists'.1 (h t (by simp [Bracketing.operands]))
    exact ⟨t, rfl, .single hk⟩
  | combine l r ihl ihr =>
    obtain ⟨s, hs, hsl⟩ := ihl fun t ht => h t (List.mem_append_left _ ht)
    obtain ⟨t, ht, htr⟩ := ihr fun t ht => h t (List.mem_append_right _ ht)
    obtain ⟨u, hu, hulr⟩ := hsl.higher htr
    exact ⟨u, by rw [Bracketing.outcome, hs, ht]; exact hu, hulr⟩

end IsCommon

/-- Operands of known kinds have one common type. Every bracketing gives it, and a bracketing of the
same operands in another order differs from it in the extension at most. -/
theorem bracketings_agree {ts : List TypeInfo} (hne : ts ≠ []) (hkinds : ∀ t ∈ ts, t.kind ≠ none) :
    (∃ b : Bracketing, b.operands = ts) ∧ ∃ u, IsCommon ts u ∧ (∀ v, IsCommon ts v → v = u) ∧
      (∀ b : Bracketing, b.operands = ts → b.outcome = .ok u) ∧
      ∀ b : Bracketing, b.operands.Perm ts →
        ∃ e, b.outcome = .ok { u with extension := e } := by
  obtain ⟨b, rfl⟩ := Bracketing.exists_operands hne
  obtain ⟨u, -, hu⟩ := IsCommon.of_bracketing b hkinds
  refine ⟨⟨b, rfl⟩, u, hu, fun v hv => hv.unique hu, fun c hc => ?_, fun c hperm => ?_⟩
  · obtain ⟨v, hv, hcommon⟩ := IsCommon.of_bracketing c (hc ▸ hkinds)
    rw [hc] at hcommon
    rw [hv, hcommon.unique hu]
  · obtain ⟨v, hv, hcommon⟩ :=
      IsCommon.of_bracketing c fun t ht => hkinds t (hperm.mem_iff.1 ht)
    exact ⟨v.extension, by rw [hv, ← hcommon.eq_of_perm hperm hu]⟩

/-- An operand of the kind without an extension stands before two that have one, and the other way
round only the extension changes. -/
theorem bracketings_agree_of_geometries :
    let a : TypeInfo := .plain .geometry 5 0
    let b : TypeInfo := .extended .geometry 7 (.geometry ⟨some (.int 1), none⟩)
    let c : TypeInfo := .plain .numeric 10 2
    let d : TypeInfo := .extended .geometry 7 (.geometry ⟨some (.int 2), none⟩)
    let u : TypeInfo := ⟨some .geometry, .int 10, .int 2, some (.geometry ⟨some (.int 1), none⟩)⟩
    Bracketing.outcome (.combine (.combine (.operand a) (.operand b))
        (.combine (.operand c) (.operand d))) = .ok u ∧
      Bracketing.outcome (.combine (.operand a)
        (.combine (.operand b) (.combine (.operand c) (.operand d)))) = .ok u ∧
      ∃ e, Bracketing.outcome (.combine (.operand d)
        (.combine (.operand c) (.combine (.operand b) (.operand a)))) =
          .ok { u with extension := e } := by
  intro a b c d u
  have hne : [a, b, c, d] ≠ [] := List.cons_ne_nil _ _
  obtain ⟨-, v, -, -, hsame, hperm⟩ :=
    bracketings_agree hne (by simp [a, b, c, d, plain, extended])
  have hv : Bracketing.outcome (.combine (.combine (.operand a) (.operand b))
      (.combine (.operand c) (.operand d))) = .ok v := hsame _ rfl
  have hu : Bracketing.outcome (.combine (.combine (.operand a) (.operand b))
      (.combine (.operand c) (.operand d))) = .ok u := by
    simp [Bracketing.outcome, higher, higherKind, higherExtension, Num.max_int, Kind.rank, plain,
      extended, a, b, c, d, u]
  obtain rfl : u = v := Except.ok.inj (hu.symm.trans hv)
  exact ⟨hv, hsame _ rfl, hperm _ (List.reverse_perm [a, b, c, d])⟩

end TypeInfo

end Datum
