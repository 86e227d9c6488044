import Datum.Proofs.Compare.ExactNumbers
import Datum.Proofs.Number.SinglePrecision

/-!
# The order of exact and approximate numbers

Among themselves exact numbers compare by their values, but with an approximate number each compares
by what it is rounded to. So the order of a mixture is transitive only where rounding tells apart
the exact numbers in it, and where single precision is in the mixture with double precision, it must
keep them too (`mixed_numbers_transitive_iff`).
-/

set_option autoImplicit false

namespace Datum

open Number (InFormat inFormat_intCast)
open Double (ofRat)

namespace FloatKind

def bits : FloatKind → Nat
  | .real => 24
  | .double => 53

def least : FloatKind → Int
  | .real => -149
  | .double => -1074

def limit : FloatKind → Nat
  | .real => 128
  | .double => 1024

def Holds (k : FloatKind) (x : ℚ) : Prop := InFormat k.bits k.least x ∧ |x| < 2 ^ k.limit

def round (k : FloatKind) (x : Double) : Double :=
  match k with
  | .real => x.toSingle
  | .double => x

variable {k : FloatKind} {x y : ℚ}

theorem rank_round_mono (k : FloatKind) {x y : Double} (h : x.rank ≤ y.rank) :
    (k.round x).rank ≤ (k.round y).rank := by
  cases k with
  | real => exact Double.rank_toSingle_mono h
  | double => exact h

theorem holds_intCast (k : FloatKind) {n : Int} (h : n.natAbs ≤ 2 ^ k.bits) : k.Holds n := by
  refine ⟨inFormat_intCast (by cases k <;> decide) h (by cases k <;> decide), ?_⟩
  have hbits : 2 ^ k.bits < 2 ^ k.limit :=
    Nat.pow_lt_pow_right (by decide) (by cases k <;> decide)
  rw [← Int.cast_abs, Int.abs_eq_natAbs]
  exact_mod_cast h.trans_lt hbits

theorem Holds.double (h : k.Holds x) : double.Holds x := by
  obtain ⟨hformat, hlimit⟩ := h
  refine ⟨hformat.mono (by cases k <;> decide) (by cases k <;> decide), hlimit.trans_le ?_⟩
  exact pow_le_pow_right₀ one_le_two (by cases k <;> decide)

theorem round_ofRat (h : k.Holds x) : k.round (ofRat x) = ofRat x := by
  cases k with
  | real => exact Double.toSingle_ofRat h.1 h.2
  | double => rfl

theorem rank_ofRat_lt_of_holds (h : x < y) (hx : double.Holds x) (hy : double.Holds y) :
    (ofRat x).rank < (ofRat y).rank :=
  Double.rank_ofRat_lt h hx.1 hy.1 hx.2 hy.2

theorem ofRat_inj (hx : double.Holds x) (hy : double.Holds y) : ofRat x = ofRat y ↔ x = y := by
  refine ⟨fun h => ?_, congrArg ofRat⟩
  rcases lt_trichotomy x y with hlt | heq | hgt
  · exact absurd (congrArg Double.rank h) (rank_ofRat_lt_of_holds hlt hx hy).ne
  · exact heq
  · exact absurd (congrArg Double.rank h) (rank_ofRat_lt_of_holds hgt hy hx).ne'

end FloatKind

namespace Value

variable {v w : Value} {x y : ℚ}

def nearestDouble : Value → Double
  | .boolean b => if b then Double.ofInt 1 else Double.zero
  | .integer _ n => n.toDouble
  | .numeric d => d.toDouble
  | _ => .nan

def rounded (k : FloatKind) (v : Value) : Double := k.round v.nearestDouble

theorem ofDouble_eq (k : FloatKind) (x : Double) : ofDouble k x = .float k (k.round x) := by
  cases k <;> rfl

/-- Only the zero with a minus sign is no rounded number. -/
theorem nearestDouble_eq (hv : v.HasNumber x) :
    v.nearestDouble = ofRat x ∨ x = 0 ∧ v.nearestDouble = .negZero ∧
      ∃ k, v = .integer k .minusZero := by
  obtain ⟨-, hnumber⟩ := hv
  cases v with
  | boolean b =>
    cases hnumber
    cases b with
    | false => exact .inl Double.ofRat_zero.symm
    | true =>
      refine .inl ((Double.ofInt_eq_ofRat 1).trans ?_)
      norm_num
  | integer k n =>
    cases hnumber
    cases n with
    | int n => exact .inl (Double.ofInt_eq_ofRat n)
    | minusZero => exact .inr ⟨by simp [Whole.val], rfl, k, rfl⟩
  | numeric d =>
    cases hnumber
    exact .inl d.toDouble_eq_ofRat
  | _ => cases hnumber

theorem rank_negZero : Double.negZero.rank = -1 := rfl

theorem rank_rounded_le (k : FloatKind) (hv : v.HasNumber x) (hw : w.HasNumber y) (h : x < y) :
    (v.rounded k).rank ≤ (w.rounded k).rank := by
  apply FloatKind.rank_round_mono
  rcases nearestDouble_eq hv with hv | ⟨hx, hv, -⟩ <;>
    rcases nearestDouble_eq hw with hw | ⟨hy, hw, -⟩ <;> rw [hv, hw]
  · exact Double.rank_ofRat_mono h.le
  · have := Double.rank_ofRat_lt_zero (hy ▸ h)
    rw [rank_negZero]
    omega
  · have := Double.rank_ofRat_nonneg (hx ▸ h).le
    rw [rank_negZero]
    omega

/-- Exact numbers of one value are rounded to one number, or to the two zeros. -/
theorem rank_rounded_le_add_one (k : FloatKind) (hv : v.HasNumber x) (hw : w.HasNumber x) :
    (v.rounded k).rank ≤ (w.rounded k).rank + 1 := by
  have hzeros : (k.round .zero).rank = 0 ∧ (k.round .negZero).rank = -1 := by
    cases k <;> exact ⟨by decide, by decide⟩
  unfold rounded
  rcases nearestDouble_eq hv with hv | ⟨hx, hv, -⟩ <;>
    rcases nearestDouble_eq hw with hw | ⟨hy, hw, -⟩ <;> rw [hv, hw]
  · omega
  · rw [hy, Double.ofRat_zero]
    omega
  · rw [hx, Double.ofRat_zero]
    omega
  · omega

end Value

namespace Convert

open Value

theorem toFloat_hasNumber {v : Value} {x : ℚ} (hv : v.HasNumber x) (k : FloatKind) :
    toFloat v k = .ok (.float k (v.rounded k)) := by
  obtain ⟨-, hnumber⟩ := hv
  cases v with
  | boolean b =>
    have hbit : k.round (if b then Double.ofInt 1 else Double.zero) =
        if b then Double.ofInt 1 else Double.zero := by
      cases k <;> cases b <;> decide +kernel
    rw [rounded, nearestDouble, hbit]
    rfl
  | integer j n =>
    rw [rounded, ← ofDouble_eq]
    rfl
  | numeric d =>
    rw [rounded, ← ofDouble_eq]
    rfl
  | _ => cases hnumber

end Convert

namespace Compare

open Value

variable {s : Session} {v w a b c : Value} {x y : ℚ}

theorem exact_rank_lt (hv : v.HasNumber x) (k : FloatKind) : v.kind.rank < (Kind.float k).rank := by
  obtain ⟨-, hnumber⟩ := hv
  cases v with
  | boolean b =>
    change Kind.boolean.rank < _
    cases k <;> decide
  | integer j n =>
    change (Kind.integer j).rank < _
    cases j <;> cases k <;> decide
  | numeric d =>
    change Kind.numeric.rank < _
    cases k <;> decide
  | _ => cases hnumber

theorem exact_isNull (hv : v.HasNumber x) : v.isNull = false := by
  cases v with
  | null => cases hv.2
  | _ => rfl

theorem exact_not_result (hv : v.HasNumber x) (w : Value) : isSameResult v w = false := by
  cases v with
  | resultSet => cases hv.2
  | _ => rfl

theorem typeSafe_float (s : Session) (k : FloatKind) (x y : Double) :
    typeSafe s (.float k x) (.float k y) = .ok (x.compare y) := by
  simp only [typeSafe, sameKind, if_true]

theorem convert_exact (hv : v.HasNumber x) (k : FloatKind) (c : ConvertContext) :
    convert v (.float k) c = .ok (.float k (v.rounded k)) := by
  rw [convert_eq_byRule (exact_isNull hv) (Kind.ne_of_rank_lt (exact_rank_lt hv k))]
  exact Convert.toFloat_hasNumber hv k

theorem total_exact_float (s : Session) (hv : v.HasNumber x) (k : FloatKind) (y : Double) :
    total s v (.float k y) = .ok ((v.rounded k).compare y) := by
  rw [total_of_not_null (exact_isNull hv) rfl (exact_not_result hv _),
    withCoercion_of_rank_lt (exact_rank_lt hv k) (by simp [kind])]
  change convert v (.float k) _ >>= _ = _
  rw [convert_exact hv, ok_bind, typeSafe_float]

theorem total_float_exact (s : Session) (hv : v.HasNumber x) (k : FloatKind) (y : Double) :
    total s (.float k y) v = .ok (y.compare (v.rounded k)) := by
  rw [total_of_not_null rfl (exact_isNull hv) rfl,
    withCoercion_of_lt_rank (exact_rank_lt hv k) (by simp [kind])]
  change convert v (.float k) _ >>= _ = _
  rw [convert_exact hv, ok_bind, typeSafe_float]

theorem total_exact_rounded (s : Session) (hv : v.HasNumber x) (k : FloatKind) :
    total s v (.float k (v.rounded k)) = .ok .eq := by
  rw [total_exact_float s hv, Double.compare_eq_eq.2 rfl]

theorem total_rounded_exact (s : Session) (hv : v.HasNumber x) (k : FloatKind) :
    total s (.float k (v.rounded k)) v = .ok .eq := by
  rw [total_float_exact s hv, Double.compare_eq_eq.2 rfl]

theorem total_float_float (s : Session) (j k : FloatKind) (x y : Double) :
    total s (.float j x) (.float k y) = .ok (x.compare y) := by
  rw [total_of_not_null rfl rfl rfl]
  have hrank : (Kind.float .real).rank < (Kind.float .double).rank := by decide
  have hsame (k : FloatKind) : withCoercion s (.float k x) (.float k y) = .ok (x.compare y) := by
    rw [withCoercion, afterCoercion_same s _ (l := .float k x) (r := .float k y) rfl
      fun d e h => (by cases h)]
    exact typeSafe_float s k x y
  cases j with
  | real =>
    cases k with
    | real => exact hsame .real
    | double =>
      rw [withCoercion_of_rank_lt (v := .float .real x) (w := .float .double y) hrank
        (by simp [kind])]
      exact typeSafe_float s .double x y
  | double =>
    cases k with
    | real =>
      rw [withCoercion_of_lt_rank (v := .float .double x) (w := .float .real y) hrank
        (by simp [kind])]
      exact typeSafe_float s .double x y
    | double => exact hsame .double

def IsExact (v : Value) : Prop := ∃ x, v.HasNumber x

variable {T : Value → Prop} {K : FloatKind → Prop}

def Mixture (T : Value → Prop) (K : FloatKind → Prop) (v : Value) : Prop :=
  T v ∨ ∃ k x, K k ∧ v = .ofDouble k x

/-- Rounding tells apart what it has to, and all kinds round to the same. -/
structure Faithful (T : Value → Prop) (K : FloatKind → Prop) : Prop where
  same : ∀ {k v w x y}, K k → T v → T w → v.HasNumber x → w.HasNumber y →
    (x = y ↔ v.rounded k = w.rounded k)
  agree : ∀ {j k v}, K j → K k → T v → v.rounded j = v.rounded k

theorem Faithful.compare_eq (h : Faithful T K) {k : FloatKind} (hk : K k) (hv : T v) (hw : T w)
    (hx : v.HasNumber x) (hy : w.HasNumber y) :
    Ord.compare x y = (v.rounded k).compare (w.rounded k) := by
  have hlt {v w : Value} {x y : ℚ} (hv : T v) (hw : T w) (hx : v.HasNumber x)
      (hy : w.HasNumber y) (hlt : x < y) : (v.rounded k).rank < (w.rounded k).rank := by
    refine lt_of_le_of_ne (rank_rounded_le k hx hy hlt) fun heq => hlt.ne ?_
    exact (h.same hk hv hw hx hy).2 (Double.rank_injective heq)
  rcases lt_trichotomy x y with hxy | hxy | hxy
  · rw [compare_lt_iff_lt.2 hxy, Double.compare_eq_lt.2 (hlt hv hw hx hy hxy)]
  · rw [compare_eq_iff_eq.2 hxy, Double.compare_eq_eq.2 ((h.same hk hv hw hx hy).1 hxy)]
  · rw [compare_gt_iff_gt.2 hxy]
    exact (Int.compare_eq_gt.2 (hlt hw hv hy hx hxy)).symm

/-- The double by which a number of a mixture compares with all others. -/
def HasKey (T : Value → Prop) (K : FloatKind → Prop) (k : FloatKind) (v : Value) (r : Double) :
    Prop :=
  (T v ∧ IsExact v ∧ r = v.rounded k) ∨ ∃ j, K j ∧ v = .float j r

theorem Faithful.total_eq (h : Faithful T K) (s : Session) {k : FloatKind} (hk : K k)
    {x y : Double} (hv : HasKey T K k v x) (hw : HasKey T K k w y) :
    total s v w = .ok (x.compare y) := by
  obtain ⟨hv, ⟨p, hp⟩, rfl⟩ | ⟨i, hi, rfl⟩ := hv <;>
    obtain ⟨hw, ⟨q, hq⟩, rfl⟩ | ⟨j, hj, rfl⟩ := hw
  · rw [(hasNumber_promotes s).total_eq hp hq, h.compare_eq hk hv hw hp hq]
  · rw [total_exact_float s hp, h.agree hj hk hv]
  · rw [total_float_exact s hq, h.agree hi hk hw]
  · exact total_float_float s i j x y

theorem Faithful.preordered (h : Faithful T K) (hT : ∀ v, T v → IsExact v) (s : Session) :
    Preordered (Mixture T K) (total s) := by
  by_cases hsome : ∃ k, K k
  · obtain ⟨k, hk⟩ := hsome
    refine (Preordered.of_key (HasKey T K k) Double.compare (h.total_eq s hk)).mono ?_
    rintro v (hv | ⟨j, x, hj, rfl⟩)
    · exact ⟨_, .inl ⟨hv, hT v hv, rfl⟩⟩
    · exact ⟨_, .inr ⟨j, hj, ofDouble_eq j x⟩⟩
  · refine (hasNumber_promotes s).preordered.mono ?_
    rintro v (hv | ⟨j, x, hj, rfl⟩)
    · exact hT v hv
    · exact absurd ⟨j, hj⟩ hsome

/-- In a mixture every exact number is equal to what it is rounded to. -/
theorem faithful_of_preordered (hT : ∀ v, T v → IsExact v)
    (h : Preordered (Mixture T K) (total s)) : Faithful T K := by
  have hin {k : FloatKind} (hk : K k) (v : Value) : Mixture T K (.float k (v.rounded k)) :=
    .inr ⟨k, v.nearestDouble, hk, (ofDouble_eq k _).symm⟩
  refine ⟨fun {k v w x y} hk hv hw hx hy => ⟨fun hxy => ?_, fun hround => ?_⟩,
    fun {j k v} hj hk hv => ?_⟩
  · have hwv : total s w v = .ok .eq := by
      rw [(hasNumber_promotes s).total_eq hy hx, compare_eq_iff_eq.2 hxy.symm]
    have hwf := h.eq_trans (.inl hw) (.inl hv) (hin hk v) hwv (total_exact_rounded s hx k)
    rw [total_exact_float s hy, Except.ok.injEq, Double.compare_eq_eq] at hwf
    exact hwf.symm
  · have hfw : total s (.float k (v.rounded k)) w = .ok .eq :=
      hround ▸ total_rounded_exact s hy k
    have hvw := h.eq_trans (.inl hv) (hin hk v) (.inl hw) (total_exact_rounded s hx k) hfw
    rwa [(hasNumber_promotes s).total_eq hx hy, Except.ok.injEq, compare_eq_iff_eq] at hvw
  · obtain ⟨x, hx⟩ := hT v hv
    have hfg := h.eq_trans (hin hj v) (.inl hv) (hin hk v) (total_rounded_exact s hx j)
      (total_exact_rounded s hx k)
    rwa [total_float_float, Except.ok.injEq, Double.compare_eq_eq] at hfg

theorem turned_numbers (s : Session) (ha : Mixture IsExact (fun _ => True) a)
    (hb : Mixture IsExact (fun _ => True) b) :
    ∃ o, total s a b = .ok o ∧ total s b a = .ok o.swap := by
  have hswap (x y : Double) : y.compare x = (x.compare y).swap := Std.OrientedCmp.eq_swap
  obtain ⟨x, ha⟩ | ⟨j, x, -, rfl⟩ := ha <;> obtain ⟨y, hb⟩ | ⟨k, y, -, rfl⟩ := hb
  · exact (hasNumber_promotes s).preordered.turned ⟨x, ha⟩ ⟨y, hb⟩
  · rw [ofDouble_eq]
    exact ⟨_, total_exact_float s ha k _, by rw [total_float_exact s ha, hswap]⟩
  · rw [ofDouble_eq]
    exact ⟨_, total_float_exact s hb j _, by rw [total_exact_float s hb, hswap]⟩
  · rw [ofDouble_eq, ofDouble_eq]
    exact ⟨_, total_float_float s j k _ _, by rw [total_float_float, hswap]⟩

theorem faithful_of_holds (hT : ∀ v, T v → IsExact v)
    (h : ∀ v x, T v → v.HasNumber x →
      (∀ j, v ≠ .integer j .minusZero) ∧ ∀ k, K k → k.Holds x) : Faithful T K := by
  have hrounded {k : FloatKind} (hk : K k) {v : Value} {x : ℚ} (hv : T v)
      (hx : v.HasNumber x) : v.rounded k = ofRat x ∧ FloatKind.double.Holds x := by
    obtain ⟨hsign, hheld⟩ := h v x hv hx
    have hself := FloatKind.round_ofRat (hheld k hk)
    refine ⟨?_, (hheld k hk).double⟩
    rcases nearestDouble_eq hx with heq | ⟨-, -, j, rfl⟩
    · rw [rounded, heq, hself]
    · exact absurd rfl (hsign j)
  refine ⟨fun hk hv hw hx hy => ?_, fun {j k v} hj hk hv => ?_⟩
  · obtain ⟨hrx, hx⟩ := hrounded hk hv hx
    obtain ⟨hry, hy⟩ := hrounded hk hw hy
    rw [hrx, hry, FloatKind.ofRat_inj hx hy]
  · obtain ⟨x, hx⟩ := hT v hv
    rw [(hrounded hj hv hx).1, (hrounded hk hv hx).1]

def place (k : FloatKind) : Value → Int
  | .float _ x => x.rank
  | v => (v.rounded k).rank

theorem place_exact (hv : v.HasNumber x) (k : FloatKind) : place k v = (v.rounded k).rank := by
  cases v with
  | float => cases hv.2
  | _ => rfl

theorem total_exact_lt (hv : v.HasNumber x) (hw : w.HasNumber y) :
    total s v w = .ok .lt ↔ x < y := by
  rw [(hasNumber_promotes s).total_eq hv hw, Except.ok.injEq, compare_lt_iff_lt]

variable {k : FloatKind}

theorem total_lt_iff (ha : Mixture IsExact (· = k) a) (hb : Mixture IsExact (· = k) b)
    (h : ¬(IsExact a ∧ IsExact b)) : total s a b = .ok .lt ↔ place k a < place k b := by
  obtain ⟨x, ha⟩ | ⟨_, x, rfl, rfl⟩ := ha <;> obtain ⟨y, hb⟩ | ⟨_, y, rfl, rfl⟩ := hb
  · exact absurd ⟨⟨x, ha⟩, y, hb⟩ h
  · rw [ofDouble_eq, total_exact_float s ha, place_exact ha, Except.ok.injEq, Double.compare_eq_lt,
      place]
  · rw [ofDouble_eq, total_float_exact s hb, place_exact hb, Except.ok.injEq, Double.compare_eq_lt,
      place]
  · rw [ofDouble_eq, ofDouble_eq, total_float_float, Except.ok.injEq, Double.compare_eq_lt, place,
      place]

theorem place_le_of_total_lt (ha : Mixture IsExact (· = k) a) (hb : Mixture IsExact (· = k) b)
    (h : total s a b = .ok .lt) : place k a ≤ place k b := by
  by_cases hexact : IsExact a ∧ IsExact b
  · obtain ⟨⟨x, ha⟩, y, hb⟩ := hexact
    rw [place_exact ha, place_exact hb]
    exact rank_rounded_le k ha hb ((total_exact_lt ha hb).1 h)
  · exact ((total_lt_iff ha hb hexact).1 h).le

theorem total_lt_trans (ha : Mixture IsExact (· = k) a) (hb : Mixture IsExact (· = k) b)
    (hc : Mixture IsExact (· = k) c) (hab : total s a b = .ok .lt) (hbc : total s b c = .ok .lt) :
    total s a c = .ok .lt := by
  have hle := place_le_of_total_lt ha hb hab
  have hle' := place_le_of_total_lt hb hc hbc
  by_cases hac : IsExact a ∧ IsExact c
  · obtain ⟨⟨x, hx⟩, z, hz⟩ := hac
    rw [total_exact_lt hx hz]
    by_cases hexact : IsExact b
    · obtain ⟨y, hy⟩ := hexact
      exact ((total_exact_lt hx hy).1 hab).trans ((total_exact_lt hy hz).1 hbc)
    · -- an approximate number in between keeps the places of the others two apart
      have hlt := (total_lt_iff ha hb fun h => hexact h.2).1 hab
      have hlt' := (total_lt_iff hb hc fun h => hexact h.1).1 hbc
      rw [place_exact hx] at hlt
      rw [place_exact hz] at hlt'
      by_contra hge
      rcases (not_lt.1 hge).lt_or_eq with hzx | rfl
      · have := rank_rounded_le k hz hx hzx
        omega
      · have := rank_rounded_le_add_one k hz hx
        omega
  · rw [total_lt_iff ha hc hac]
    by_cases hfirst : IsExact a ∧ IsExact b
    · exact hle.trans_lt ((total_lt_iff hb hc fun h => hac ⟨hfirst.1, h.2⟩).1 hbc)
    · exact ((total_lt_iff ha hb hfirst).1 hab).trans_le hle'

/-- Exact and approximate numbers always compare, and the order is antisymmetric. It is transitive
on a mixture just where rounding is faithful to the exact numbers in it, as it is to the numbers
that the approximate kinds have, such as the integers of few enough bits. Within one approximate
kind the strict order is transitive on all numbers. -/
theorem mixed_numbers_transitive_iff (s : Session) (hT : ∀ v, T v → IsExact v) :
    (∀ a b, Mixture IsExact (fun _ => True) a → Mixture IsExact (fun _ => True) b →
        ∃ o, total s a b = .ok o ∧ total s b a = .ok o.swap) ∧
      ((∀ a b c, Mixture T K a → Mixture T K b → Mixture T K c →
        AtMost (total s) a b → AtMost (total s) b c → AtMost (total s) a c) ↔ Faithful T K) ∧
      ((∀ v x, T v → v.HasNumber x →
        (∀ j, v ≠ .integer j .minusZero) ∧ ∀ k, K k → k.Holds x) → Faithful T K) ∧
      (∀ (k : FloatKind) (n : Int), n.natAbs ≤ 2 ^ k.bits → k.Holds n) ∧
      ∀ k a b c, Mixture IsExact (· = k) a → Mixture IsExact (· = k) b →
        Mixture IsExact (· = k) c → total s a b = .ok .lt → total s b c = .ok .lt →
        total s a c = .ok .lt := by
  refine ⟨fun a b => turned_numbers s, ⟨fun htrans => ?_, fun h a b c => ?_⟩,
    faithful_of_holds hT, fun k n => k.holds_intCast, fun k a b c => total_lt_trans⟩
  · have hall {v : Value} (hv : Mixture T K v) : Mixture IsExact (fun _ => True) v :=
      hv.imp (hT v) fun ⟨k, x, _, hx⟩ => ⟨k, x, trivial, hx⟩
    exact faithful_of_preordered hT
      ⟨fun ha hb => turned_numbers s (hall ha) (hall hb), htrans _ _ _⟩
  · exact (h.preordered hT s).trans

theorem mixed_numbers_transitive_of_small_integers : ∃ a b c : Value,
    a.HasNumber (-1) ∧ b = .ofDouble .real (.ofInt 16777216) ∧ c.HasNumber 16777216 ∧
      AtMost (total (.system 0 0)) a b ∧ AtMost (total (.system 0 0)) b c ∧
      AtMost (total (.system 0 0)) a c ∧
      Faithful (fun v => v = a ∨ v = c) (fun _ => True) := by
  let a : Value := .integer .tinyint (.int (-1))
  let c : Value := .integer .integer (.int 16777216)
  have ha : a.HasNumber (-1) := ⟨by rfl, by simp [a, number?, Whole.val]⟩
  have hc : c.HasNumber 16777216 := ⟨by rfl, by simp [c, number?, Whole.val]⟩
  obtain ⟨-, hiff, hheld, hints, -⟩ :=
    mixed_numbers_transitive_iff (T := fun v => v = a ∨ v = c) (K := fun _ => True) (.system 0 0)
      (by rintro v (rfl | rfl) <;> exact ⟨_, by assumption⟩)
  have hfaithful := hheld (by
    rintro v x (rfl | rfl) ⟨-, hx⟩ <;> cases hx
    · exact ⟨by simp [a], fun k _ => hints k (-1) (Nat.one_le_two_pow)⟩
    · exact ⟨by simp [c], fun k _ => hints k 16777216 (by cases k <;> decide)⟩)
  have hab : AtMost (total (.system 0 0)) a (.ofDouble .real (.ofInt 16777216)) :=
    ⟨.lt, total_exact_float _ ha .real _, rfl⟩
  have hbc : AtMost (total (.system 0 0)) (.ofDouble .real (.ofInt 16777216)) c :=
    ⟨.eq, total_float_exact _ hc .real _, rfl⟩
  exact ⟨a, _, c, ha, rfl, hc, hab, hbc,
    hiff.2 hfaithful _ _ _ (.inl (.inl rfl)) (.inr ⟨_, _, trivial, rfl⟩) (.inl (.inr rfl)) hab hbc,
    hfaithful⟩

/-- Both integers are equal to the double that they are rounded to, and are not equal. -/
theorem mixed_numbers_not_transitive : ∃ a b c : Value,
    a.HasNumber (2 ^ 53 + 1) ∧ b = .ofDouble .double (.ofInt (2 ^ 53)) ∧ c.HasNumber (2 ^ 53) ∧
      AtMost (total (.system 0 0)) a b ∧ AtMost (total (.system 0 0)) b c ∧
      ¬AtMost (total (.system 0 0)) a c := by
  have ha : (Value.integer .bigint (.int 9007199254740993)).HasNumber (2 ^ 53 + 1) :=
    ⟨by rfl, by norm_num [number?, Whole.val]⟩
  have hc : (Value.integer .bigint (.int 9007199254740992)).HasNumber (2 ^ 53) :=
    ⟨by rfl, by norm_num [number?, Whole.val]⟩
  refine ⟨_, _, _, ha, rfl, hc, ⟨.eq, ?_, rfl⟩, ⟨.eq, ?_, rfl⟩, ?_⟩
  · exact total_exact_float _ ha .double _
  · exact total_float_exact _ hc .double _
  · rw [AtMost, (hasNumber_promotes _).total_eq ha hc, compare_gt_iff_gt.2 (by norm_num)]
    rintro ⟨o, ho, hle⟩
    cases ho
    cases hle

end Compare

end Datum
