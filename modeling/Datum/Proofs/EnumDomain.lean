import Datum.EnumDomain
import Datum.Proofs.Compare.Keys
import Datum.Proofs.Outcome
import Datum.Proofs.Text.Blanks

/-!
# Domains and their text

The SQL text of a domain names its labels (`EnumDomain.sql_inj`), so that it tells two domains
apart and the domain that two operands share does not depend on their order
(`EnumDomain.shared_comm`).
-/

set_option autoImplicit false

namespace Datum

open Std (LawfulEqCmp OrientedCmp)

namespace Text

instance : LawfulEqCmp compare := by
  have : LawfulEqCmp (compareOn UInt16.toNat) :=
    ⟨fun h => by simpa [compareOn, UInt16.toNat_inj] using h⟩
  rw [compare_eq]
  infer_instance

/-- The inside of a quoted text ends at the first quote that is not doubled. -/
theorem doubled_inj {q : UInt16} {s t a b : Text} (ha : a.head? ≠ some q) (hb : b.head? ≠ some q)
    (h : s.flatMap (fun u => if u = q then [u, u] else [u]) ++ q :: a =
      t.flatMap (fun u => if u = q then [u, u] else [u]) ++ q :: b) : s = t ∧ a = b := by
  induction s generalizing t with
  | nil =>
    cases t with
    | nil => simpa using h
    | cons v t =>
      -- a quote inside would be followed by another one, with which `a` does not begin
      by_cases hv : v = q
      · subst hv
        simp only [List.flatMap_nil, List.nil_append, List.flatMap_cons, if_true, List.cons_append,
          List.cons.injEq, true_and] at h
        simp [h] at ha
      · simp only [List.flatMap_nil, List.nil_append, List.flatMap_cons, if_neg hv,
          List.cons_append, List.cons.injEq] at h
        exact absurd h.1.symm hv
  | cons u s ih =>
    cases t with
    | nil =>
      by_cases hu : u = q
      · subst hu
        simp only [List.flatMap_nil, List.nil_append, List.flatMap_cons, if_true, List.cons_append,
          List.cons.injEq, true_and] at h
        simp [← h] at hb
      · simp only [List.flatMap_nil, List.nil_append, List.flatMap_cons, if_neg hu,
          List.cons_append, List.cons.injEq] at h
        exact absurd h.1 hu
    | cons v t =>
      have huv : u = v := by
        by_cases hu : u = q <;> by_cases hv : v = q <;> simp_all
      subst huv
      have h := ih (t := t) (by simpa [List.append_assoc] using h)
      exact ⟨by rw [h.1], h.2⟩

theorem quoteSql_inj {s t a b : Text} (ha : a.head? ≠ some (unit '\''))
    (hb : b.head? ≠ some (unit '\'')) (h : s.quoteSql ++ a = t.quoteSql ++ b) :
    s = t ∧ a = b := by
  simp only [quoteSql, List.append_assoc, List.cons_append, List.nil_append] at h
  exact doubled_inj ha hb (List.cons.inj h).2

theorem join_cons (separator t : Text) (rest : List Text) :
    join separator (t :: rest) = t ++ rest.flatMap (separator ++ ·) := by
  induction rest generalizing t with
  | nil => simp [join]
  | cons u rest ih => simp [join, ih]

end Text

namespace EnumDomain

def tailSql (labels : List Text) : Text :=
  labels.flatMap (fun label => (", " : Text) ++ label.quoteSql) ++ (")" : Text)

theorem tailSql_nil : tailSql [] = [0x29] := rfl

theorem tailSql_cons (label : Text) (rest : List Text) :
    tailSql (label :: rest) = 0x2C :: 0x20 :: (label.quoteSql ++ tailSql rest) := by
  have hcomma : (", " : Text) = [0x2C, 0x20] := rfl
  simp [tailSql, hcomma]

theorem tailSql_head (labels : List Text) : (tailSql labels).head? ≠ some (Text.unit '\'') := by
  cases labels with
  | nil => decide
  | cons label rest =>
    rw [tailSql_cons, List.head?_cons]
    decide

theorem tailSql_inj {l r : List Text} (h : tailSql l = tailSql r) : l = r := by
  induction l generalizing r with
  | nil =>
    cases r with
    | nil => rfl
    | cons label rest => simp [tailSql_nil, tailSql_cons] at h
  | cons a l ih =>
    cases r with
    | nil => simp [tailSql_nil, tailSql_cons] at h
    | cons b r =>
      simp only [tailSql_cons, List.cons.injEq, true_and] at h
      obtain ⟨hab, hlr⟩ := Text.quoteSql_inj (tailSql_head l) (tailSql_head r) h
      rw [hab, ih hlr]

theorem sql_nil : sql ⟨[]⟩ = ("ENUM(" : Text) ++ [0x29] := rfl

theorem sql_cons (label : Text) (rest : List Text) :
    sql ⟨label :: rest⟩ = ("ENUM(" : Text) ++ (label.quoteSql ++ tailSql rest) := by
  simp [sql, Text.join_cons, tailSql, List.flatMap_map, List.append_assoc]

theorem sql_inj {l r : EnumDomain} (h : l.sql = r.sql) : l = r := by
  have hquote (label : Text) (rest : List Text) : [0x29] ≠ label.quoteSql ++ tailSql rest := by
    intro h
    have hhead : some (0x29 : UInt16) = some (Text.unit '\'') := congrArg List.head? h
    exact absurd hhead (by decide)
  obtain ⟨l⟩ := l
  obtain ⟨r⟩ := r
  cases l with
  | nil =>
    cases r with
    | nil => rfl
    | cons b r =>
      rw [sql_nil, sql_cons, List.append_cancel_left_eq] at h
      exact absurd h (hquote b r)
  | cons a l =>
    cases r with
    | nil =>
      rw [sql_nil, sql_cons, List.append_cancel_left_eq] at h
      exact absurd h.symm (hquote a l)
    | cons b r =>
      rw [sql_cons, sql_cons, List.append_cancel_left_eq] at h
      obtain ⟨hab, hlr⟩ := Text.quoteSql_inj (tailSql_head l) (tailSql_head r) h
      rw [hab, tailSql_inj hlr]

theorem shared_comm (l r : EnumDomain) : l.shared r = r.shared l := by
  by_cases h : l = r
  · rw [h]
  have hne : l.sql.compare r.sql ≠ .eq := fun he => h (sql_inj (LawfulEqCmp.eq_of_compare he))
  have hswap : r.sql.compare l.sql = (l.sql.compare r.sql).swap := OrientedCmp.eq_swap
  simp only [shared, if_neg h, if_neg (Ne.symm h), hswap]
  cases hc : l.sql.compare r.sql with
  | lt => simp
  | eq => exact absurd hc hne
  | gt => simp

/-- What the construction of a domain from labels ensures. -/
structure IsValid (d : EnumDomain) : Prop where
  ne_nil : d.labels ≠ []
  trimmed : ∀ label ∈ d.labels, label.trim = label ∧ label ≠ []
  distinct : d.keys.Nodup

theorem key_trim (label : Text) : key label.trim = key label := by
  rw [key, key, Text.trim_trim]

theorem addLabels_spec (seen labels : List Text) : Ensures (addLabels seen labels) fun added =>
    added.length = labels.length ∧ (∀ label ∈ added, label.trim = label ∧ label ≠ []) ∧
      (added.map key).Nodup ∧ ∀ k ∈ added.map key, k ∉ seen := by
  induction labels generalizing seen with
  | nil => simp [addLabels]
  | cons raw labels ih =>
    unfold addLabels
    split
    · simp
    next hraw =>
      simp only [Bool.or_eq_true, List.isEmpty_iff, not_or, List.contains_iff_mem] at hraw
      simp only [ensures_bind, pure_eq_ok, ensures_ok]
      refine (ih (key raw :: seen)).mono fun added h => ?_
      obtain ⟨hlength, htrimmed, hdistinct, hnew⟩ := h
      refine ⟨by simp [hlength], ?_, ?_, ?_⟩
      · exact List.forall_mem_cons.2 ⟨⟨Text.trim_trim raw, hraw.1⟩, htrimmed⟩
      · rw [List.map_cons, key_trim]
        refine List.nodup_cons.2 ⟨fun hmem => ?_, hdistinct⟩
        exact hnew _ hmem List.mem_cons_self
      · rw [List.map_cons, key_trim]
        refine List.forall_mem_cons.2 ⟨hraw.2, fun k hk hseen => ?_⟩
        exact hnew k hk (List.mem_cons_of_mem _ hseen)

theorem ofLabels_isValid (labels : List Text) : Ensures (ofLabels labels) IsValid := by
  unfold ofLabels
  split
  · simp
  next hne =>
    simp only [ensures_bind, pure_eq_ok, ensures_ok]
    refine (addLabels_spec [] labels).mono fun added h => ⟨?_, h.2.1, h.2.2.1⟩
    rintro rfl
    exact hne (by simpa using List.eq_nil_of_length_eq_zero h.1.symm)

theorem lookup_label {d : EnumDomain} (hd : d.IsValid) {label : Text} {ordinal : Nat}
    (h : d.labels[ordinal]? = some label) (source : Kind) :
    d.lookup (.label label) source = .ok ⟨label, ordinal, d⟩ := by
  have hkey : d.keys[ordinal]? = some (key label) := by simp [keys, h]
  have hindex : d.keys.idxOf? (key label) = some ordinal := by
    obtain ⟨hlt, hget⟩ := List.getElem?_eq_some_iff.1 hkey
    refine List.idxOf?_eq_some_iff.2 ⟨hlt, hget, fun j hj hsame => ?_⟩
    have hjlt : j < d.keys.length := by omega
    have hinj : j = ordinal := (List.getElem_inj hd.distinct).1 (hsame.trans hget.symm)
    omega
  have hsign : ¬(ordinal : Int) < 0 := by omega
  simp [lookup, ordinal?, hindex, enumerator?, h, hsign]

theorem lookup_label_ok {d : EnumDomain} {label : Text} (h : key label ∈ d.keys) (source : Kind) :
    ∃ e, d.lookup (.label label) source = .ok e ∧ e.ordinal = d.keys.idxOf (key label) := by
  obtain ⟨ordinal, hindex⟩ := Option.isSome_iff_exists.1 (List.isSome_idxOf?.2 h)
  obtain ⟨hlt, -, -⟩ := List.idxOf?_eq_some_iff.1 hindex
  have hlt : ordinal < d.labels.length := by simpa [keys] using hlt
  have hsign : ¬(ordinal : Int) < 0 := by omega
  refine ⟨⟨d.labels[ordinal], ordinal, d⟩, ?_, ?_⟩
  · simp [lookup, ordinal?, hindex, enumerator?, hlt, hsign]
  · rw [List.idxOf_eq_getD_idxOf?, hindex]
    rfl

theorem addLabels_eq {seen labels : List Text}
    (htrimmed : ∀ label ∈ labels, label.trim = label ∧ label ≠ [])
    (hdistinct : (labels.map key).Nodup) (hnew : ∀ k ∈ labels.map key, k ∉ seen) :
    addLabels seen labels = .ok labels := by
  induction labels generalizing seen with
  | nil => rfl
  | cons label labels ih =>
    obtain ⟨htrim, hempty⟩ := htrimmed label (by simp)
    rw [List.map_cons, List.nodup_cons] at hdistinct
    have hseen : key label ∉ seen := hnew _ (by simp)
    have hrest : addLabels (key label :: seen) labels = .ok labels := by
      refine ih (fun l hl => htrimmed l (by simp [hl])) hdistinct.2 fun k hk => ?_
      rw [List.mem_cons, not_or]
      exact ⟨fun h => hdistinct.1 (h ▸ hk), hnew k (by simp only [List.map_cons]; exact .tail _ hk)⟩
    simp [addLabels, htrim, hempty, hseen, hrest]

def merged (d other : EnumDomain) : EnumDomain :=
  ⟨d.labels ++ other.labels.filter fun label => !d.keys.contains (key label)⟩

theorem keys_merged (d other : EnumDomain) :
    (d.merged other).keys = d.keys ++ other.keys.filter fun k => !d.keys.contains k := by
  simp only [merged, keys, List.map_append, List.filter_map]
  rfl

theorem mem_keys_merged {d other : EnumDomain} {k : Text} :
    k ∈ (d.merged other).keys ↔ k ∈ d.keys ∨ k ∈ other.keys := by
  rw [keys_merged, List.mem_append, List.mem_filter]
  by_cases h : k ∈ d.keys <;> simp [h]

theorem merged_self (d : EnumDomain) : d.merged d = d := by
  have hnone : d.labels.filter (fun label => !d.keys.contains (key label)) = [] := by
    refine List.filter_eq_nil_iff.2 fun label hlabel => ?_
    have hkey : key label ∈ d.keys := List.mem_map_of_mem hlabel
    simp [hkey]
  rw [merged, hnone, List.append_nil]

theorem merged_isValid {d other : EnumDomain} (hd : d.IsValid) (ho : other.IsValid) :
    (d.merged other).IsValid where
  ne_nil := List.append_ne_nil_of_left_ne_nil hd.ne_nil _
  trimmed := by
    intro label hl
    rcases List.mem_append.1 hl with hl | hl
    · exact hd.trimmed label hl
    · exact ho.trimmed label (List.mem_of_mem_filter hl)
  distinct := by
    rw [keys_merged]
    refine List.nodup_append.2 ⟨hd.distinct, ho.distinct.filter _, ?_⟩
    rintro k hk _ hnew rfl
    simpa [hk] using (List.mem_filter.1 hnew).2

theorem union_eq {d other : EnumDomain} (hd : d.IsValid) (ho : other.IsValid) :
    d.union other = .ok (d.merged other) := by
  have hvalid := merged_isValid hd ho
  have hall : addLabels [] (d.merged other).labels = .ok (d.merged other).labels :=
    addLabels_eq hvalid.trimmed hvalid.distinct (by simp)
  have hunion : d.union other =
      if (other.labels.filter fun label => !d.keys.contains (key label)).isEmpty then .ok d
      else ofLabels (d.merged other).labels := rfl
  rw [hunion]
  split
  next hnone => rw [merged, List.isEmpty_iff.1 hnone, List.append_nil]
  next => simp [ofLabels, hall, hvalid.ne_nil]

theorem shared_eq {l r : EnumDomain} (hl : l.IsValid) (hr : r.IsValid) :
    l.shared r = .ok (if l.sql.compare r.sql = .gt then r.merged l else l.merged r) := by
  unfold shared
  split
  next h =>
    subst h
    have hself : l.sql.compare l.sql = .eq := Std.ReflCmp.compare_self
    rw [hself, merged_self]
    rfl
  next hne =>
    rw [union_eq hl hr, union_eq hr hl]
    cases hcompare : l.sql.compare r.sql with
    | lt => rfl
    | eq => exact absurd (sql_inj (LawfulEqCmp.eq_of_compare hcompare)) hne
    | gt => rfl

end EnumDomain

end Datum
