import Datum.Proofs.Convert.Kind

/-!
# The kind that was asked for

A conversion gives a value of the kind that it was asked for. NULL, which belongs to every kind,
stands for NULL and for the row of a result without rows. The domain of an enumerator is the other
way out: a value that already has the target kind is cast to the domain, and a label or an ordinal
becomes the enumerator that it names.
-/

set_option autoImplicit false

namespace Datum

def Kind.namesEnumerators : Kind → Bool
  | .string _ | .integer _ => true
  | _ => false

theorem EnumDomain.lookup_domain (d : EnumDomain) (k : EnumKey) (source : Kind) :
    Ensures (d.lookup k source) (·.domain = d) := by
  unfold lookup
  split
  next e he =>
    obtain ⟨n, -, he⟩ := Option.bind_eq_some_iff.1 he
    unfold enumerator? at he
    split at he
    · simp at he
    · obtain ⟨label, -, rfl⟩ := Option.map_eq_some_iff.1 he
      simp
  · simp

namespace Convert

open Value

theorem enumCast_kind (d : EnumDomain) (v : Value) (hv : v.isNull = false) :
    Ensures (d.cast v) fun r => r.kind = v.kind ∨
      v.kind.namesEnumerators = true ∧ ∃ e, r = .enum e ∧ e.domain = d := by
  have found (k : EnumKey) (source : Kind) : Ensures (do return .enum (← d.lookup k source))
      fun r : Value => ∃ e, r = .enum e ∧ e.domain = d := by
    simpa using d.lookup_domain k source
  unfold EnumDomain.cast
  split
  · simp [isNull] at hv
  next e =>
    split
    · simp
    · simp [ensures_of_forall]
  · exact (found _ _).mono fun r hr => .inr ⟨rfl, hr⟩
  · exact (found _ _).mono fun r hr => .inr ⟨rfl, hr⟩
  · exact ensures_unsupported _ _ _ _

theorem toRow_eq_null {v : Value} (h : toRow v = .ok .null) :
    ∃ mark columns, v = .resultSet mark columns [] := by
  unfold toRow at h
  split at h
  next mark columns => exact ⟨mark, columns, rfl⟩
  · simp at h
  · simp at h
  · simp at h

end Convert

/-- With a store that makes large objects of the kind it is asked for, a converted value has the
target kind. Otherwise it is NULL, for NULL or for the row of a result without rows, or a label or
an ordinal of the target kind was cast to the domain of the target. -/
theorem convert_kind (v : Value) (target : Kind) (c : ConvertContext)
    (hstore : ∀ k data, (c.store k data).kind = k) :
    Ensures (convert v target c) fun r => r.kind = target ∨
      (r = .null ∧
        (v = .null ∨ target = .row ∧ ∃ mark columns, v = .resultSet mark columns [])) ∨
      ∃ d e, c.extension = some (.enum d) ∧ v.kind = target ∧
        target.namesEnumerators = true ∧ r = .enum e ∧ e.domain = d := by
  unfold convert
  split
  next hv =>
    obtain rfl := Value.isNull_iff.1 hv
    simp
  next hv =>
    have hv : v.isNull = false := by simpa using hv
    split
    next hk =>
      subst hk
      split
      · simp
      next extension he =>
        cases extension with
        | enum d =>
          refine (Convert.enumCast_kind d v hv).mono fun r hr => ?_
          rcases hr with hr | ⟨hnames, e, hr, hd⟩
          · exact .inl hr
          · exact .inr (.inr ⟨d, e, he, rfl, hnames, hr, hd⟩)
        | geometry constraint =>
          exact (Convert.constraint_cast_kind constraint v hv).mono fun r hr => .inl hr
    · intro r hr
      rcases Convert.byRule_kind v target c r hr with hkind | ⟨k, data, rfl, rfl⟩ | ⟨rfl, rfl, -⟩
      · exact .inl hkind
      · exact .inl (by simp [hstore])
      · exact .inr (.inl ⟨rfl, .inr ⟨rfl, Convert.toRow_eq_null hr⟩⟩)

theorem convert_kind_of_clob : ∃ r,
    convert (.string .varchar "a") (.lob .clob) (.ofSession (.system 0 0)) = .ok r ∧
      r.kind = .lob .clob := by
  have hr : convert (.string .varchar "a") (.lob .clob) (.ofSession (.system 0 0)) =
      .ok (.lob (.ofText "a")) := by rfl
  have h := convert_kind _ _ (.ofSession (.system 0 0)) (fun k data => rfl) _ hr
  refine ⟨_, hr, ?_⟩
  simpa using h

/-- A character string is converted to its own kind and becomes an enumerator. -/
theorem convert_kind_ne_target : ∃ v target c r, (∀ k data, (c.store k data).kind = k) ∧
    convert v target c = .ok r ∧
      ¬(r.kind = target ∨ r = .null ∧ v = .null ∨ target = .null ∨
        target = .row ∧ ∃ mark columns, v = .resultSet mark columns []) := by
  let c : ConvertContext :=
    { ConvertContext.ofSession (.system 0 0) with extension := some (.enum ⟨["a"]⟩) }
  refine ⟨.string .varchar "a", .string .varchar, c, .enum ⟨"a", 0, ⟨["a"]⟩⟩, fun k data => rfl,
    by rfl, ?_⟩
  simp

end Datum
