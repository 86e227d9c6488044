import Datum.Proofs.Compare.ColumnOrder
import Datum.Proofs.Compare.Refinement
import Datum.Proofs.WellFormed
import Mathlib.Order.Defs.Unbundled

/-!
# The order of enumerators

Enumerators compare by the places of their labels in the domain that their domains share. Any two
compare, and only those of one label are equal. But every pair of domains shares another one, so
that the order is transitive on the enumerators of a family of domains only where all the shared
domains follow one order of labels.
-/

set_option autoImplicit false

namespace Datum

namespace EnumDomain

variable {d e : EnumDomain} {l m : Text}

def place (d : EnumDomain) (label : Text) : Nat := d.keys.idxOf (key label)

theorem place_lt (h : key l ∈ d.keys) : d.place l < d.keys.length := List.idxOf_lt_length_of_mem h

theorem place_inj (h : key l ∈ d.keys) : d.place l = d.place m ↔ key l = key m := List.idxOf_inj h

theorem place_merged (h : key l ∈ d.keys) : (d.merged e).place l = d.place l := by
  rw [place, keys_merged, List.idxOf_append_of_mem h]
  rfl

theorem le_place_merged (h : key l ∉ d.keys) : d.keys.length ≤ (d.merged e).place l := by
  rw [place, keys_merged, List.idxOf_append_of_notMem h]
  exact Nat.le_add_right _ _

theorem lt_place_merged (hl : key l ∈ d.keys) (hm : key m ∉ d.keys) :
    (d.merged e).place l < (d.merged e).place m := by
  have hbound := place_lt hl
  have hnew := le_place_merged (e := e) hm
  rw [place_merged hl]
  omega

end EnumDomain

open EnumDomain (key)

theorem Enumerator.IsValid.key_mem {e : Enumerator} (h : e.IsValid) :
    key e.label ∈ e.domain.keys :=
  List.mem_map_of_mem (List.mem_of_getElem? h.label)

theorem EnumDomain.IsValid.exists_enumerator {d : EnumDomain} (hd : d.IsValid) {k : Text}
    (h : k ∈ d.keys) : ∃ e : Enumerator, e.IsValid ∧ e.domain = d ∧ key e.label = k := by
  obtain ⟨label, hlabel, rfl⟩ := List.mem_map.1 h
  obtain ⟨ordinal, hordinal⟩ := List.getElem?_of_mem hlabel
  exact ⟨⟨label, ordinal, d⟩, ⟨hd, hordinal⟩, rfl, rfl⟩

namespace Compare

open Value

section Pair

variable {a b : Enumerator} {u : EnumDomain}

theorem exists_shared (ha : a.IsValid) (hb : b.IsValid) :
    ∃ u, a.domain.shared b.domain = .ok u :=
  ⟨_, EnumDomain.shared_eq ha.domain hb.domain⟩

theorem mem_keys_shared (ha : a.IsValid) (hb : b.IsValid) (hu : a.domain.shared b.domain = .ok u)
    (k : Text) : k ∈ u.keys ↔ k ∈ a.domain.keys ∨ k ∈ b.domain.keys := by
  rw [EnumDomain.shared_eq ha.domain hb.domain] at hu
  cases hu
  split
  · rw [EnumDomain.mem_keys_merged, or_comm]
  · rw [EnumDomain.mem_keys_merged]

theorem cast_enum (ha : a.IsValid) :
    u.cast (.enum a) = do return .enum (← u.lookup (.label a.label) .enum) := by
  simp only [EnumDomain.cast]
  split
  next h => rw [← h, EnumDomain.lookup_label ha.domain ha.label]; rfl
  next => rfl

theorem cast_enum_ok (ha : a.IsValid) (h : key a.label ∈ u.keys) :
    ∃ e : Enumerator, u.cast (.enum a) = .ok (.enum e) ∧ e.ordinal = u.place a.label := by
  obtain ⟨e, he, hordinal⟩ := EnumDomain.lookup_label_ok h .enum
  refine ⟨e, ?_, hordinal⟩
  rw [cast_enum ha, he]
  rfl

theorem total_enum (s : Session) (ha : a.IsValid) (hb : b.IsValid)
    (hu : a.domain.shared b.domain = .ok u) :
    total s (.enum a) (.enum b) = .ok (Ord.compare (u.place a.label) (u.place b.label)) := by
  have hmem := mem_keys_shared ha hb hu
  obtain ⟨d, hd, hdplace⟩ := cast_enum_ok ha ((hmem _).2 (.inl ha.key_mem))
  obtain ⟨e, he, heplace⟩ := cast_enum_ok hb ((hmem _).2 (.inr hb.key_mem))
  have hcoerce : coerce s (.enum a) (.enum b) = .ok (.enum d, .enum e) := by
    simp [coerce, coerceTo, context, higherKind_some, sharedDomain, hu, convert, isNull,
      Extension.cast, hd, he, both]
  rw [total_of_not_null rfl rfl rfl, withCoercion, afterCoercion, hcoerce, ← hdplace, ← heplace]
  rfl

theorem total_enum_eq_iff (s : Session) (ha : a.IsValid) (hb : b.IsValid) :
    total s (.enum a) (.enum b) = .ok .eq ↔ key a.label = key b.label := by
  obtain ⟨u, hu⟩ := exists_shared ha hb
  have hmem := (mem_keys_shared ha hb hu _).2 (.inl ha.key_mem)
  rw [total_enum s ha hb hu, Except.ok.injEq, Nat.compare_eq_eq, EnumDomain.place_inj hmem]

/-- Any two enumerators compare in a domain that has the labels of both of theirs, once each, and
that begins with the domain whose text comes first. They are equal just if their labels are, blanks
and case aside. -/
theorem enumerators_compare (s : Session) (ha : a.IsValid) (hb : b.IsValid) :
    ∃ u : EnumDomain,
      sharedDomain (.enum a) (.enum b) = .ok (some u) ∧
      sharedDomain (.enum b) (.enum a) = .ok (some u) ∧
      u.keys.Nodup ∧
      (∀ k, k ∈ u.keys ↔ k ∈ a.domain.keys ∨ k ∈ b.domain.keys) ∧
      (a.domain.sql.compare b.domain.sql ≠ .gt → a.domain.labels <+: u.labels) ∧
      (a.domain.sql.compare b.domain.sql ≠ .lt → b.domain.labels <+: u.labels) ∧
      ∃ o, total s (.enum a) (.enum b) = .ok o ∧ (o = .eq ↔ key a.label = key b.label) := by
  have hu := EnumDomain.shared_eq ha.domain hb.domain
  have hu' : b.domain.shared a.domain = _ := (EnumDomain.shared_comm _ _).trans hu
  refine ⟨_, ?_, ?_, ?_, mem_keys_shared ha hb hu, ?_, ?_, _, total_enum s ha hb hu, ?_⟩
  · simp only [sharedDomain, hu, ok_bind, pure_eq_ok]
  · simp only [sharedDomain, hu', ok_bind, pure_eq_ok]
  · split
    · exact (EnumDomain.merged_isValid hb.domain ha.domain).distinct
    · exact (EnumDomain.merged_isValid ha.domain hb.domain).distinct
  · intro hfirst
    rw [if_neg hfirst]
    exact List.prefix_append _ _
  · intro hlast
    split
    · exact List.prefix_append _ _
    next hgt =>
      have heq : a.domain.sql.compare b.domain.sql = .eq := by
        cases h : a.domain.sql.compare b.domain.sql <;> simp_all
      rw [EnumDomain.sql_inj (Std.LawfulEqCmp.eq_of_compare heq), EnumDomain.merged_self]
  · rw [← total_enum_eq_iff s ha hb, total_enum s ha hb hu, Except.ok.injEq]

theorem enumerators_compare_of_spellings : ∃ a b : Enumerator, a.IsValid ∧ b.IsValid ∧
    a.label ≠ b.label ∧ total (.system 0 0) (.enum a) (.enum b) = .ok .eq := by
  let a : Enumerator := ⟨"a", 1, ⟨["b", "a"]⟩⟩
  let b : Enumerator := ⟨"A", 0, ⟨["A", "c"]⟩⟩
  have ha : a.IsValid := ⟨⟨by decide, by decide, by decide⟩, by decide⟩
  have hb : b.IsValid := ⟨⟨by decide, by decide, by decide⟩, by decide⟩
  obtain ⟨u, -, -, -, -, -, -, o, ho, heq⟩ := enumerators_compare (.system 0 0) ha hb
  rw [heq.2 (by decide)] at ho
  exact ⟨a, b, ha, hb, by decide, ho⟩

end Pair

def IsOf (F : EnumDomain → Prop) (v : Value) : Prop :=
  ∃ e : Enumerator, v = .enum e ∧ e.IsValid ∧ F e.domain

/-- In every domain that two domains of a family share, the keys follow one order. -/
def FollowOrder (F : EnumDomain → Prop) (before : Text → Text → Prop) : Prop :=
  ∀ d e, F d → F e → Ensures (d.shared e) fun u => u.keys.Pairwise before

section Family

variable {s : Session} {F : EnumDomain → Prop} {before : Text → Text → Prop} {a b c : Enumerator}

theorem atMost_enum (s : Session) (ha : a.IsValid) (hb : b.IsValid) {u : EnumDomain}
    (hu : a.domain.shared b.domain = .ok u) :
    AtMost (total s) (.enum a) (.enum b) ↔ u.place a.label ≤ u.place b.label := by
  simp only [AtMost, total_enum s ha hb hu, Except.ok.injEq, exists_eq_left', Nat.isLE_compare]

theorem atMost_of_order [IsStrictOrder Text before] (h : FollowOrder F before) (ha : a.IsValid)
    (hb : b.IsValid) (hFa : F a.domain) (hFb : F b.domain) :
    AtMost (total s) (.enum a) (.enum b) ↔ key a.label = key b.label ∨
      before (key a.label) (key b.label) := by
  obtain ⟨u, hu⟩ := exists_shared ha hb
  have hpairs := List.pairwise_iff_getElem.1 (h _ _ hFa hFb u hu)
  have hmem := mem_keys_shared ha hb hu
  have hamem := (hmem _).2 (.inl ha.key_mem)
  have hbmem := (hmem _).2 (.inr hb.key_mem)
  have hplace {l m : Text} (hl : key l ∈ u.keys) (hm : key m ∈ u.keys)
      (hlt : u.place l < u.place m) : before (key l) (key m) := by
    have hlm := hpairs _ _ (EnumDomain.place_lt hl) (EnumDomain.place_lt hm) hlt
    simpa only [EnumDomain.place, List.getElem_idxOf] using hlm
  rw [atMost_enum s ha hb hu]
  constructor
  · intro hle
    rcases Nat.eq_or_lt_of_le hle with heq | hlt
    · exact .inl ((EnumDomain.place_inj hamem).1 heq)
    · exact .inr (hplace hamem hbmem hlt)
  · rintro (heq | hbefore)
    · exact Nat.le_of_eq ((EnumDomain.place_inj hamem).2 heq)
    · by_contra hlt
      exact asymm hbefore (hplace hbmem hamem (Nat.lt_of_not_le hlt))

theorem turned_enum (s : Session) (ha : a.IsValid) (hb : b.IsValid) :
    ∃ o, total s (.enum a) (.enum b) = .ok o ∧ total s (.enum b) (.enum a) = .ok o.swap := by
  obtain ⟨u, hu⟩ := exists_shared ha hb
  have hu' := (EnumDomain.shared_comm b.domain a.domain).trans hu
  exact ⟨_, total_enum s ha hb hu, by rw [total_enum s hb ha hu', Nat.compare_swap]⟩

theorem preordered_of_order [IsStrictOrder Text before] (h : FollowOrder F before) :
    Preordered (IsOf F) (total s) where
  turned := by
    rintro _ _ ⟨a, rfl, ha, -⟩ ⟨b, rfl, hb, -⟩
    exact turned_enum s ha hb
  trans := by
    rintro _ _ _ ⟨a, rfl, ha, hFa⟩ ⟨b, rfl, hb, hFb⟩ ⟨c, rfl, hc, hFc⟩ hab hbc
    rw [atMost_of_order h ha hb hFa hFb] at hab
    rw [atMost_of_order h hb hc hFb hFc] at hbc
    rw [atMost_of_order h ha hc hFa hFc]
    rcases hab with hab | hab
    · rwa [hab]
    · rcases hbc with hbc | hbc
      · exact .inr (hbc ▸ hab)
      · exact .inr (IsTrans.trans _ _ _ hab hbc)

def KeyBefore (s : Session) (F : EnumDomain → Prop) (k l : Text) : Prop :=
  ∃ a b : Enumerator, IsOf F (.enum a) ∧ IsOf F (.enum b) ∧ key a.label = k ∧ key b.label = l ∧
    total s (.enum a) (.enum b) = .ok .lt

theorem IsOf.isValid (h : IsOf F (.enum a)) : a.IsValid := by
  obtain ⟨_, heq, hvalid, -⟩ := h
  cases heq
  exact hvalid

theorem KeyBefore.isStrictOrder (h : Preordered (IsOf F) (total s)) :
    IsStrictOrder Text (KeyBefore s F) where
  irrefl := by
    rintro k ⟨a, b, ha, hb, hak, hbk, hlt⟩
    rw [(total_enum_eq_iff s ha.isValid hb.isValid).2 (hak.trans hbk.symm)] at hlt
    cases hlt
  trans := by
    rintro k l m ⟨a, b, ha, hb, hak, hbl, hab⟩ ⟨b', c, hb', hc, hbl', hcm, hbc⟩
    -- enumerators of the key in the middle are equal, whatever their domains are
    have hsame := (total_enum_eq_iff s hb.isValid hb'.isValid).2 (hbl.trans hbl'.symm)
    have hab' := h.trans ha hb hb' ⟨_, hab, rfl⟩ ⟨_, hsame, rfl⟩
    obtain ⟨o, hac, hle⟩ := h.trans ha hb' hc hab' ⟨_, hbc, rfl⟩
    cases o with
    | lt => exact ⟨a, c, ha, hc, hak, hcm, hac⟩
    | gt => cases hle
    | eq =>
      have hbc' := (h.eq_of_between ha hb' hc hab' ⟨_, hbc, rfl⟩ hac).2
      rw [hbc] at hbc'
      cases hbc'

theorem keys_pairwise {d : EnumDomain} (hd : d.IsValid) (hF : F d) :
    d.keys.Pairwise (KeyBefore s F) := by
  refine List.pairwise_iff_getElem.2 fun i j hi hj hij => ?_
  obtain ⟨a, ha, rfl, hak⟩ := hd.exists_enumerator (List.getElem_mem hi)
  obtain ⟨b, hb, hdomain, hbk⟩ := hd.exists_enumerator (List.getElem_mem hj)
  have hu : a.domain.shared b.domain = .ok a.domain := by
    rw [hdomain, EnumDomain.shared, if_pos rfl]
  refine ⟨a, b, ⟨a, rfl, ha, hF⟩, ⟨b, rfl, hb, hdomain ▸ hF⟩, hak, hbk, ?_⟩
  rw [total_enum s ha hb hu, EnumDomain.place, EnumDomain.place, hak, hbk,
    hd.distinct.idxOf_getElem, hd.distinct.idxOf_getElem, Nat.compare_eq_lt.2 hij]

theorem merged_pairwise {d e : EnumDomain} (hd : d.IsValid) (he : e.IsValid) (hFd : F d)
    (hFe : F e) (hshared : d.shared e = .ok (d.merged e)) :
    (d.merged e).keys.Pairwise (KeyBefore s F) := by
  rw [EnumDomain.keys_merged]
  refine List.pairwise_append.2 ⟨keys_pairwise hd hFd, (keys_pairwise he hFe).filter _, ?_⟩
  intro k hk l hl
  -- an enumerator of the old key comes before one of the new key, whose label is added at the end
  obtain ⟨hle, hnew⟩ := List.mem_filter.1 hl
  obtain ⟨a, ha, rfl, rfl⟩ := hd.exists_enumerator hk
  obtain ⟨b, hb, rfl, rfl⟩ := he.exists_enumerator hle
  have hplace := EnumDomain.lt_place_merged (e := b.domain) hk (by simpa using hnew)
  refine ⟨a, b, ⟨a, rfl, ha, hFd⟩, ⟨b, rfl, hb, hFe⟩, rfl, rfl, ?_⟩
  rw [total_enum s ha hb hshared, Nat.compare_eq_lt.2 hplace]

theorem shared_pairwise (hF : ∀ d, F d → d.IsValid) : FollowOrder F (KeyBefore s F) := by
  intro d e hd he u hu
  have hshared := EnumDomain.shared_eq (hF d hd) (hF e he)
  rw [hshared, Except.ok.injEq] at hu
  subst hu
  split
  next hgt =>
    rw [if_pos hgt] at hshared
    exact merged_pairwise (hF e he) (hF d hd) he hd ((EnumDomain.shared_comm e d).trans hshared)
  next hle =>
    rw [if_neg hle] at hshared
    exact merged_pairwise (hF d hd) (hF e he) hd he hshared

/-- The order is transitive on the enumerators of a family of domains just if there is one order of
keys that every two domains of the family, merged, follow. -/
theorem enumerators_transitive_iff (s : Session) (hF : ∀ d, F d → d.IsValid) :
    (∀ a b c, IsOf F a → IsOf F b → IsOf F c →
        AtMost (total s) a b → AtMost (total s) b c → AtMost (total s) a c) ↔
      ∃ before, IsStrictOrder Text before ∧ FollowOrder F before := by
  constructor
  · intro htrans
    have horder : Preordered (IsOf F) (total s) := by
      refine ⟨?_, htrans _ _ _⟩
      rintro _ _ ⟨a, rfl, ha, -⟩ ⟨b, rfl, hb, -⟩
      exact turned_enum s ha hb
    exact ⟨KeyBefore s F, KeyBefore.isStrictOrder horder, shared_pairwise hF⟩
  · rintro ⟨before, hstrict, hfollow⟩ a b c ha hb hc
    exact (preordered_of_order hfollow).trans ha hb hc

theorem enumerators_transitive_of_alphabetical :
    let F := fun d : EnumDomain => d = ⟨["a", "b"]⟩ ∨ d = ⟨["b", "c"]⟩
    ∀ a b c, IsOf F a → IsOf F b → IsOf F c → AtMost (total (.system 0 0)) a b →
      AtMost (total (.system 0 0)) b c → AtMost (total (.system 0 0)) a c := by
  intro F
  have hF : ∀ d, F d → d.IsValid := by
    rintro d (rfl | rfl)
    · exact ⟨by decide, by decide, by decide⟩
    · exact ⟨by decide, by decide, by decide⟩
  refine (enumerators_transitive_iff (.system 0 0) hF).2 ⟨fun k l => k.compare l = .lt, ?_, ?_⟩
  · exact {
      irrefl := fun k h => by
        have hself : k.compare k = .eq := Std.ReflCmp.compare_self
        rw [hself] at h
        cases h
      trans := fun _ _ _ => Std.TransCmp.lt_trans }
  · rintro d e (rfl | rfl) (rfl | rfl) u hu
    all_goals
      cases hu
      decide

/-- Within `ENUM('b', 'a')` the label `b` comes first, but `a` begins the domain that it shares with
`ENUM('a')`. -/
theorem enumerators_not_transitive :
    let b : Enumerator := ⟨"b", 0, ⟨["b", "a"]⟩⟩
    let a : Enumerator := ⟨"a", 1, ⟨["b", "a"]⟩⟩
    let a' : Enumerator := ⟨"a", 0, ⟨["a"]⟩⟩
    (b.IsValid ∧ a.IsValid ∧ a'.IsValid) ∧
      total (.system 0 0) (.enum b) (.enum a) = .ok .lt ∧
      total (.system 0 0) (.enum a) (.enum a') = .ok .eq ∧
      total (.system 0 0) (.enum b) (.enum a') = .ok .gt := by
  intro b a a'
  have hb : b.IsValid := ⟨⟨by decide, by decide, by decide⟩, by decide⟩
  have ha : a.IsValid := ⟨⟨by decide, by decide, by decide⟩, by decide⟩
  have ha' : a'.IsValid := ⟨⟨by decide, by decide, by decide⟩, by decide⟩
  refine ⟨⟨hb, ha, ha'⟩, ?_, (total_enum_eq_iff _ ha ha').2 (by decide), ?_⟩
  · rw [total_enum _ hb ha rfl, Except.ok.injEq]
    decide
  · rw [total_enum _ hb ha' rfl, Except.ok.injEq]
    decide

end Family

end Compare

end Datum
