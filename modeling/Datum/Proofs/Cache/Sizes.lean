import Datum.Proofs.Cache.Runs
import Datum.Proofs.Convert.Integers
import Datum.Proofs.Number.IntegralDoubles
import Datum.Settings

/-!
# Sizes of caches

A size is tested on words of 32 bits, and below `2 ^ 32` the sizes are the powers of two. Above, the
low word decides, and no table can be made. Settings are tested in the same way as the sizes that
callers give (`cache_sizes`).
-/

set_option autoImplicit false

namespace Datum

open Number

theorem Num.toInt?_ofDouble (x : Double) : (ofDouble x).toInt? = x.toInt? := by
  unfold ofDouble
  split
  next => rfl
  next hproper =>
    have hsome : x.toInt? ≠ none := by
      intro hnone
      simp [Double.isProper, hnone] at hproper
    obtain ⟨n, hn⟩ := Option.ne_none_iff_exists'.1 hsome
    rw [hn]
    rfl

namespace Cache

/-- The low word of a size is zero, or a power of two as far as the next smaller number is exact. -/
def IsSize (n : Int) : Prop :=
  0 < n ∧ (n % 2 ^ 32 = 0 ∨ n % 2 ^ 32 = 2 ∨ n ≤ 2 ^ 53 ∧ ∃ k : Nat, n % 2 ^ 32 = 2 ^ k)

variable {n : Int}

theorem bitsApart_iff (n m : Int) : bitsApart n m = true ↔
    (n % 2 ^ 32).toNat &&& (m % 2 ^ 32).toNat = 0 := by
  rw [bitsApart, beq_iff_eq]
  rfl

theorem bitsApart_pred (n : Int) : bitsApart n (n - 1) = true ↔
    n % 2 ^ 32 = 0 ∨ ∃ k : Nat, n % 2 ^ 32 = 2 ^ k := by
  rw [bitsApart_iff]
  obtain ⟨r, hr⟩ : ∃ r : Nat, n % 2 ^ 32 = r := Int.eq_ofNat_of_zero_le (by omega)
  by_cases hzero : r = 0
  · have hlow : n % 2 ^ 32 = 0 := by omega
    rw [hlow]
    exact iff_of_true (Nat.zero_and _) (.inl rfl)
  have hpred : (n - 1) % 2 ^ 32 = (r - 1 : Nat) := by omega
  rw [hr, hpred, Int.toNat_natCast, Int.toNat_natCast,
    Nat.and_sub_one_eq_zero_iff_isPowerOfTwo hzero]
  constructor
  · rintro ⟨k, hk⟩
    exact .inr ⟨k, by exact_mod_cast hk⟩
  · rintro (h | ⟨k, hk⟩)
    · omega
    · exact ⟨k, by exact_mod_cast hk⟩

theorem bitsApart_self (n : Int) : bitsApart n n = true ↔ n % 2 ^ 32 = 0 := by
  rw [bitsApart_iff, Nat.and_self]
  omega

theorem bitsApart_sub_two (h : n % 4 = 2) : bitsApart n (n - 2) = true ↔ n % 2 ^ 32 = 2 := by
  rw [bitsApart_iff]
  obtain ⟨r, hr⟩ : ∃ r : Nat, n % 2 ^ 32 = r := Int.eq_ofNat_of_zero_le (by omega)
  have hpred : (n - 2) % 2 ^ 32 = (r - 2 : Nat) := by omega
  have hlow : (r &&& (r - 2)) % 2 = 0 := by
    have : ¬ (r &&& (r - 2)) % 2 = 1 := by
      rw [Nat.and_mod_two_eq_one]
      omega
    omega
  have hhalf : (r &&& (r - 2)) / 2 = r / 2 &&& (r / 2 - 1) := by
    rw [Nat.and_div_two]
    congr 1
    omega
  have hodd : (r / 2 &&& (r / 2 - 1)) = 0 ↔ r / 2 = 1 := by
    rw [Nat.and_sub_one_eq_zero_iff_isPowerOfTwo (by omega)]
    constructor
    · rintro ⟨k, hk⟩
      cases k with
      | zero => exact hk
      | succ k =>
        rw [Nat.pow_succ] at hk
        omega
    · exact fun hone => ⟨0, hone⟩
  rw [hr, hpred, Int.toNat_natCast, Int.toNat_natCast]
  omega

theorem bitsApart_round53 {k m : Nat} {q : Int} (hpos : 0 < k) (hm : m < 2 ^ 53)
    (h : (k : ℚ) = m * 2 ^ q) : bitsApart k (round53 (k - 1)) = true ↔ IsSize k := by
  unfold IsSize
  rcases Nat.lt_or_ge (2 ^ 53) k with hlt | hle
  · rw [round53_pred hm h hlt]
    split
    next hhalf =>
      rw [bitsApart_sub_two (by omega)]
      omega
    next hwhole =>
      rw [bitsApart_self]
      omega
  · rw [round53_of_le (by omega), bitsApart_pred]
    constructor
    · rintro (hzero | hpow)
      · exact ⟨by omega, .inl hzero⟩
      · exact ⟨by omega, .inr (.inr ⟨by omega, hpow⟩)⟩
    · rintro ⟨-, hzero | htwo | ⟨-, hpow⟩⟩
      · exact .inl hzero
      · exact .inr ⟨1, htwo⟩
      · exact .inr hpow

theorem exists_of_toInt? {x : Double} (h : x.toInt? = some n) (hpos : 0 < n) :
    ∃ (a : Fin (Double.top + 1)) (k m : Nat) (q : Int), x = .number false a ∧ a.val ≠ Double.top ∧
      Double.magnitudeValue a.val = k ∧ n = k ∧ m < 2 ^ 53 ∧ (k : ℚ) = m * 2 ^ q := by
  obtain ⟨negative, a, k, rfl, htop, hvalue, hn⟩ := Double.toInt?_eq_some.1 h
  obtain ⟨m, q, hformat, hm, -⟩ := Double.magnitudeValue_inFormat a.val
  cases negative with
  | true =>
    simp only [Double.signed, if_true] at hn
    omega
  | false => exact ⟨a, k, m, q, rfl, htop, hvalue, hn, hm, hvalue.symm.trans hformat⟩

theorem size?_ofDouble {x : Double} :
    size? (.ofDouble x) = some n ↔ x.toInt? = some n ∧ IsSize n := by
  unfold size?
  rw [Num.toInt?_ofDouble]
  cases hx : x.toInt? with
  | none => simp
  | some i =>
    have htest : (0 < i && bitsApart i (round53 (i - 1))) = true ↔ IsSize i := by
      rw [Bool.and_eq_true, decide_eq_true_eq]
      constructor
      · rintro ⟨hpos, happart⟩
        obtain ⟨-, k, m, q, -, -, -, rfl, hm, hk⟩ := exists_of_toInt? hx hpos
        exact (bitsApart_round53 (by omega) hm hk).1 happart
      · intro hsize
        obtain ⟨-, k, m, q, -, -, -, rfl, hm, hk⟩ := exists_of_toInt? hx hsize.1
        exact ⟨hsize.1, (bitsApart_round53 (by have := hsize.1; omega) hm hk).2 hsize⟩
    constructor
    · intro h
      simp only at h
      split at h
      next hsize =>
        cases h
        exact ⟨rfl, htest.1 hsize⟩
      next => cases h
    · rintro ⟨hi, hsize⟩
      cases hi
      exact if_pos (htest.2 hsize)

theorem make_eq_ok {x : Double} {enabled : Bool} {retention : Retention} {c : Cache} :
    make (.ofDouble x) enabled retention = .ok c ↔
      ∃ n, x.toInt? = some n ∧ IsSize n ∧ c = ⟨n, enabled, retention, none, 0, 0, 0⟩ := by
  unfold make
  cases hsize : size? (.ofDouble x) with
  | none =>
    refine iff_of_false (by simp) ?_
    rintro ⟨n, hn, hn', -⟩
    rw [size?_ofDouble.2 ⟨hn, hn'⟩] at hsize
    cases hsize
  | some n =>
    obtain ⟨hx, hn⟩ := size?_ofDouble.1 hsize
    constructor
    · intro h
      cases h
      exact ⟨n, hx, hn, rfl⟩
    · rintro ⟨n', hx', -, rfl⟩
      cases hx.symm.trans hx'
      rfl

theorem isSize_two_pow (k : Nat) : IsSize (2 ^ k) := by
  refine ⟨by positivity, ?_⟩
  rcases Nat.lt_or_ge k 32 with hlt | hge
  · have hle : 2 ^ k < 2 ^ 32 := Nat.pow_lt_pow_right (by decide) hlt
    have hsmall : (2 : Int) ^ k < 2 ^ 32 := by exact_mod_cast hle
    have hself : (2 : Int) ^ k % 2 ^ 32 = 2 ^ k := Int.emod_eq_of_lt (by positivity) hsmall
    exact .inr (.inr ⟨by omega, k, hself⟩)
  · exact .inl (Int.emod_eq_zero_of_dvd (pow_dvd_pow 2 hge))

theorem IsSize.eq_two_pow (h : IsSize n) (hn : n < 2 ^ 32) : ∃ k : Nat, n = 2 ^ k := by
  obtain ⟨hpos, hzero | htwo | ⟨-, k, hk⟩⟩ := h
  · omega
  · exact ⟨1, by omega⟩
  · exact ⟨k, by omega⟩

/-- In a table that can be made a hash falls on one of the slots, and each of them is the slot of
some value. -/
theorem IsSize.index {c : Cache} (h : IsSize c.size) (hmax : c.size ≤ maxSlots) :
    (∀ hash, 0 ≤ index c.size hash ∧ index c.size hash < c.size) ∧
      ∀ i, 0 ≤ i → i < c.size →
        ∃ (v : Value) (hash : Int), v.WellFormed ∧ v.hash = .ok hash ∧ index c.size hash = i := by
  unfold maxSlots at hmax
  obtain ⟨k, hk⟩ := h.eq_two_pow (by omega)
  have hk31 : k ≤ 31 := by
    by_contra hgt
    have hpow : 2 ^ 32 ≤ 2 ^ k := Nat.pow_le_pow_right (by decide) (by omega)
    have hpow' : (2 : Int) ^ 32 ≤ 2 ^ k := by exact_mod_cast hpow
    omega
  have hindex (hash : Int) : Cache.index c.size hash = hash % c.size := by
    rw [index_eq_slot hk31 hk, slot_eq h.1]
  refine ⟨fun hash => ?_, fun i hnonneg hlt => ?_⟩
  · rw [hindex]
    exact ⟨Int.emod_nonneg hash h.1.ne', Int.emod_lt_of_pos hash h.1⟩
  · have hbound : (2 : Int) ^ k ≤ 2 ^ 31 := by
      exact_mod_cast Nat.pow_le_pow_right (show 0 < 2 by decide) hk31
    have hkind : IntegerKind.integer.bound = 2 ^ 31 := rfl
    have hholds : IntegerKind.integer.holds i = true := by
      rw [IntegerKind.holds_iff, hkind]
      omega
    refine ⟨.integer .integer (.int i), i, hholds, rfl, ?_⟩
    rw [hindex, Int.emod_eq_of_lt hnonneg hlt]

theorem intern_of_maxSlots_lt {c : Cache} (henabled : c.enabled = true) (htable : c.table = none)
    (hmax : maxSlots < c.size) (v : Value) : (c.intern v).1 = .error .tooLarge := by
  simp only [intern, henabled, Bool.not_true, Bool.false_eq_true, if_false, withTable, htable,
    if_pos hmax]

end Cache

namespace Settings

open Cache (IsSize)

variable {x : Double} {n : Int}

theorem pred_of_value {a : Fin (Double.top + 1)} {p : Nat}
    (hvalue : Double.magnitudeValue a.val = (p + 1 : Nat)) :
    pred (.number false a) = Double.ofInt p := by
  have hden := Double.ratio_den_ne_zero a.val
  have hnum : ((Double.signed false ((p + 1) * (Double.ratio a.val).2) : Int)
      - (Double.ratio a.val).2 : Int) = p * (Double.ratio a.val).2 := by
    simp only [Double.signed]
    push_cast
    ring
  have hquotient : (((p * (Double.ratio a.val).2 : Int) : ℚ) / (Double.ratio a.val).2) = p := by
    rw [Int.cast_mul, Int.cast_natCast, Int.cast_natCast,
      mul_div_cancel_right₀ _ (Nat.cast_ne_zero.2 hden)]
  simp only [pred, Double.ratio_of_value hvalue]
  rw [hnum, Double.ofRatio_natAbs _ hden, hquotient, Double.ofInt_eq_ofRat, Int.cast_natCast]

theorem trunc?_pred {a : Fin (Double.top + 1)} {k : Nat} (ha : a.val ≠ Double.top)
    (hvalue : Double.magnitudeValue a.val = k) (hk : 0 < k) :
    (pred (.number false a)).trunc? = some (round53 (k - 1)) := by
  obtain ⟨p, rfl⟩ : ∃ p, k = p + 1 := ⟨k - 1, by omega⟩
  have hbelow : Double.nearest p 1 ≤ a.val := by
    rw [← Double.nearest_ratio a.val]
    refine Double.nearest_mono one_ne_zero (Double.ratio_den_ne_zero a.val) ?_
    rw [Double.ratio_value, hvalue, Nat.cast_one, div_one]
    exact_mod_cast Nat.le_succ p
  have hlt : Double.nearest p 1 < Double.top := by
    have := a.isLt
    omega
  have hshift : ((p + 1 : Nat) : Int) - 1 = p := by omega
  rw [pred_of_value hvalue, hshift, Double.trunc?_ofInt_natCast hlt]

theorem issueUnless_eq_nil {condition : Bool} {issue : Text} :
    issueUnless condition issue = [] ↔ condition = true := by
  unfold issueUnless
  cases condition <;> simp

theorem rank_pos_iff (hx : x.toInt? = some n) : 0 < x.rank ↔ 0 < n := by
  obtain ⟨negative, a, k, rfl, ha, hvalue, rfl⟩ := Double.toInt?_eq_some.1 hx
  cases negative with
  | true =>
    simp only [Double.rank, Double.signed, if_true]
    omega
  | false =>
    have hpos : 0 < a.val ↔ 0 < k := by
      rw [← Double.magnitudeValue_strictMono.lt_iff_lt, Double.magnitudeValue_zero, hvalue,
        Nat.cast_pos]
    simp only [Double.rank, Double.signed, Bool.false_eq_true, if_false]
    omega

theorem isPowerOfTwo_iff (hx : x.toInt? = some n) (hpos : 0 < n) :
    isPowerOfTwo x = true ↔ IsSize n := by
  obtain ⟨a, k, m, q, rfl, ha, hvalue, rfl, hm, hformat⟩ := Cache.exists_of_toInt? hx hpos
  have hk : 0 < k := by omega
  have hself := Double.trunc?_of_value false ha hvalue
  simp only [isPowerOfTwo, hself, trunc?_pred ha hvalue hk, Double.signed, Bool.false_eq_true,
    if_false]
  exact Cache.bitsApart_round53 hk hm hformat

theorem sizeIssues_eq_nil : sizeIssues x = [] ↔ ∃ n, x.toInt? = some n ∧ IsSize n := by
  cases hx : x.toInt? with
  | none =>
    refine iff_of_false (fun h => ?_) (by simp)
    unfold sizeIssues at h
    split at h
    · cases h
    · rw [List.append_eq_nil_iff, List.append_eq_nil_iff, issueUnless_eq_nil, hx] at h
      cases h.1.1
  | some n =>
    have hnan : x.isNaN = false := by
      cases x with
      | nan => cases hx
      | number => rfl
    have hzero : Double.zero.rank = 0 := rfl
    rw [sizeIssues, hnan, if_neg (by simp), List.append_eq_nil_iff, List.append_eq_nil_iff,
      issueUnless_eq_nil, issueUnless_eq_nil, issueUnless_eq_nil, hx, hzero, decide_eq_true_eq,
      rank_pos_iff hx]
    constructor
    · rintro ⟨⟨-, hpos⟩, hpower⟩
      exact ⟨n, rfl, (isPowerOfTwo_iff hx hpos).1 hpower⟩
    · rintro ⟨n', hn', hsize⟩
      cases hn'
      exact ⟨⟨rfl, hsize.1⟩, (isPowerOfTwo_iff hx hsize.1).2 hsize⟩

theorem sizeOf?_eq_ok {t : Text} :
    sizeOf? (some t) = .ok n ↔ (number t).toInt? = some n ∧ IsSize n := by
  simp only [sizeOf?]
  constructor
  · intro h
    split at h
    next hissues hn =>
      cases h
      obtain ⟨n', hn', hsize⟩ := sizeIssues_eq_nil.1 hissues
      cases hn.symm.trans hn'
      exact ⟨hn, hsize⟩
    next => cases h
  · rintro ⟨hn, hsize⟩
    rw [sizeIssues_eq_nil.2 ⟨n, hn, hsize⟩, hn]

theorem read_eq_ok {env : List (Text × Text)} {s : Settings} : read env = .ok s ↔
    choice flags true (find? env cacheName) = .ok s.objectCache ∧
      sizeOf? (find? env sizeName) = .ok s.objectCacheSize ∧
      choice retentions .weak (find? env retentionName) = .ok s.objectCacheRetention := by
  unfold read
  cases hcache : choice flags true (find? env cacheName) with
  | error => simp [fail]
  | ok cache =>
    cases hsize : sizeOf? (find? env sizeName) with
    | error => simp [fail]
    | ok size =>
      cases hretention : choice retentions .weak (find? env retentionName) with
      | error => simp [fail]
      | ok retention =>
        obtain ⟨cache', size', retention'⟩ := s
        simp

end Settings

namespace Cache

open Settings (find? sizeName)

/-- Whether a number is the size of a cache, given by a caller or written in a setting: below
`2 ^ 32` if it is a power of two, and further up if it is one or its low word says so. Where a table
can be made hashes fall on all of its slots and on nothing else. -/
theorem cache_sizes (x : Double) (enabled : Bool) (retention : Retention) :
    (∀ c, make (.ofDouble x) enabled retention = .ok c ↔
      ∃ n, x.toInt? = some n ∧ IsSize n ∧ c = ⟨n, enabled, retention, none, 0, 0, 0⟩) ∧
    (∀ env t (s : Settings), find? env sizeName = some t → Settings.number t = x →
      (Settings.read env = .ok s ↔
        (Settings.choice Settings.flags true (find? env Settings.cacheName) = .ok s.objectCache ∧
          Settings.choice Settings.retentions .weak (find? env Settings.retentionName) =
            .ok s.objectCacheRetention) ∧
        x.toInt? = some s.objectCacheSize ∧ IsSize s.objectCacheSize)) ∧
    (∀ k : Nat, IsSize (2 ^ k)) ∧
    (∀ n, n < 2 ^ 32 → (IsSize n ↔ ∃ k : Nat, n = 2 ^ k)) ∧
    ∀ c, make (.ofDouble x) enabled retention = .ok c →
      (c.size ≤ maxSlots →
        (∀ hash, 0 ≤ index c.size hash ∧ index c.size hash < c.size) ∧
          ∀ i, 0 ≤ i → i < c.size → ∃ (v : Value) (hash : Int),
            v.WellFormed ∧ v.hash = .ok hash ∧ index c.size hash = i) ∧
      (maxSlots < c.size → enabled = true → ∀ v, (c.intern v).1 = .error .tooLarge) := by
  refine ⟨fun c => make_eq_ok, fun env t s ht hx => ?_, isSize_two_pow,
    fun n hn => ⟨fun h => h.eq_two_pow hn, ?_⟩, fun c hmake => ?_⟩
  · rw [Settings.read_eq_ok, ht, Settings.sizeOf?_eq_ok, hx]
    tauto
  · rintro ⟨k, rfl⟩
    exact isSize_two_pow k
  · obtain ⟨n, -, hn, rfl⟩ := make_eq_ok.1 hmake
    exact ⟨hn.index, fun hmax henabled => intern_of_maxSlots_lt henabled rfl hmax⟩

theorem cache_sizes_of_setting : ∃ (env : List (Text × Text)) (s : Settings) (c : Cache),
    find? env sizeName = some " 0x40 " ∧ Settings.read env = .ok s ∧ s.objectCacheSize = 64 ∧
      make (.ofDouble (.ofInt 64)) true .strong = .ok c ∧
      ∃ (v : Value) (hash : Int), v.hash = .ok hash ∧ index c.size hash = 63 := by
  let env : List (Text × Text) := [(sizeName, " 0x40 ")]
  obtain ⟨hmake, hread, hpower, -, hindex⟩ := cache_sizes (.ofInt 64) true .strong
  have hsize : IsSize 64 := hpower 6
  have hc := (hmake _).2 ⟨64, by rfl, hsize, rfl⟩
  obtain ⟨hslots, -⟩ := hindex _ hc
  obtain ⟨-, hall⟩ := hslots (by decide)
  obtain ⟨v, hash, -, hv, hi⟩ := hall 63 (by decide) (by decide)
  exact ⟨env, ⟨true, 64, .weak⟩, _, rfl,
    (hread env " 0x40 " ⟨true, 64, .weak⟩ rfl rfl).2 ⟨⟨rfl, rfl⟩, rfl, hsize⟩, rfl, hc, v, hash, hv,
    hi⟩

/-- Three times `2 ^ 32` is a size and no power of two, and of `2 ^ 32` slots a hash below zero
falls on none. -/
theorem size_not_power_of_two : ∃ c d : Cache,
    make (.ofDouble (.ofInt 12884901888)) true .weak = .ok c ∧ c.size = 12884901888 ∧
      Settings.read [(sizeName, "12884901888")] = .ok ⟨true, 12884901888, .weak⟩ ∧
      (¬∃ k : Nat, (12884901888 : Int) = 2 ^ k) ∧
      make (.ofDouble (.ofInt 4294967296)) true .weak = .ok d ∧ index d.size (-1) = -1 := by
  refine ⟨⟨12884901888, true, .weak, none, 0, 0, 0⟩, ⟨4294967296, true, .weak, none, 0, 0, 0⟩,
    by rfl, rfl, by rfl, ?_, by rfl, by decide⟩
  rintro ⟨k, hk⟩
  have hnat : 12884901888 = 2 ^ k := by exact_mod_cast hk
  rcases Nat.lt_or_ge k 34 with hlt | hge
  · have hle : 2 ^ k ≤ 2 ^ 33 := Nat.pow_le_pow_right (by decide) (by omega)
    omega
  · have hle : 2 ^ 34 ≤ 2 ^ k := Nat.pow_le_pow_right (by decide) hge
    omega

end Cache

end Datum
