import Datum.Proofs.Cache
import Datum.Proofs.Equality.Relation
import Mathlib.Algebra.GroupWithZero.Divisibility
import Mathlib.Algebra.Ring.Int.Defs
import Mathlib.Data.List.Induction

/-!
# Runs of the cache

What is in the slots of a cache after any calls, and how long it stays there. One call keeps the
invariant of the slots (`Running.intern`, `Running.clear`), and a value stays in its slot until the
cache is cleared or another value takes the slot.
-/

set_option autoImplicit false

namespace Datum.Cache

inductive Call where
  | intern (v : Value)
  | clear

def step (c : Cache) : Call → Cache
  | .intern v => (c.intern v).2
  | .clear => c.clear

def after (c : Cache) (calls : List Call) : Cache := calls.foldl step c

def Call.value? : Call → Option Value
  | .intern v => some v
  | .clear => none

def interned (calls : List Call) : List Value := calls.filterMap Call.value?

def live (calls : List Call) : List Value :=
  calls.foldl (fun seen call =>
    match call with
    | .intern v => seen ++ [v]
    | .clear => []) []

def at? (c : Cache) (i : Nat) : Option Value := c.table.bind (lookup? i)

def index (size hash : Int) : Int := (BitVec.ofInt 32 hash &&& BitVec.ofInt 32 (size - 1)).toInt

/-- The slot that interning a value would fill anew. -/
def missAt? (c : Cache) (v : Value) : Option Nat :=
  match v.hash with
  | .ok n => if (c.intern v).2.misses = c.misses then none else some (c.slot n)
  | .error _ => none

def Undisturbed (i : Nat) (c : Cache) : List Call → Prop
  | [] => True
  | .clear :: _ => False
  | .intern v :: rest => c.missAt? v ≠ some i ∧ Undisturbed i (c.intern v).2 rest

@[simp] theorem after_nil (c : Cache) : c.after [] = c := rfl

@[simp] theorem after_cons (c : Cache) (call : Call) (rest : List Call) :
    c.after (call :: rest) = (c.step call).after rest := rfl

@[simp] theorem after_concat (c : Cache) (calls : List Call) (call : Call) :
    c.after (calls ++ [call]) = (c.after calls).step call := by
  simp [after]

@[simp] theorem live_intern (calls : List Call) (v : Value) :
    live (calls ++ [.intern v]) = live calls ++ [v] := by
  simp [live]

@[simp] theorem live_clear (calls : List Call) : live (calls ++ [.clear]) = [] := by
  simp [live]

@[simp] theorem interned_intern (calls : List Call) (v : Value) :
    interned (calls ++ [.intern v]) = interned calls ++ [v] := by
  simp [interned, Call.value?]

@[simp] theorem interned_clear (calls : List Call) :
    interned (calls ++ [.clear]) = interned calls := by
  simp [interned, Call.value?]

theorem slot_eq {c : Cache} (h : 0 < c.size) (hash : Int) : (c.slot hash : Int) = hash % c.size :=
  Int.toNat_of_nonneg (Int.emod_nonneg hash (Int.ne_of_gt h))

theorem index_eq_slot {c : Cache} {k : Nat} (hk : k ≤ 31) (hsize : c.size = 2 ^ k) (hash : Int) :
    index c.size hash = c.slot hash := by
  have hle : 2 ^ k ≤ 2 ^ 31 := Nat.pow_le_pow_right (by decide) hk
  have hpos : 0 < 2 ^ k := Nat.two_pow_pos k
  have hdvd : (2 ^ k : Int) ∣ 2 ^ 32 := pow_dvd_pow 2 (by omega)
  have hmask : (BitVec.ofInt 32 (c.size - 1)).toNat = 2 ^ k - 1 := by
    have hcast : c.size - 1 = ((2 ^ k - 1 : Nat) : Int) := by
      rw [hsize, Int.natCast_sub hpos]
      rfl
    rw [hcast, BitVec.ofInt_natCast, BitVec.toNat_ofNat]
    exact Nat.mod_eq_of_lt (by omega)
  -- the bits below a power of two are the remainder by it, of a negative hash as well
  have hnat : (BitVec.ofInt 32 hash &&& BitVec.ofInt 32 (c.size - 1)).toNat
      = (BitVec.ofInt 32 hash).toNat % 2 ^ k := by
    rw [BitVec.toNat_and, hmask, Nat.and_two_pow_sub_one_eq_mod]
  have hlt : 2 * (BitVec.ofInt 32 hash &&& BitVec.ofInt 32 (c.size - 1)).toNat < 2 ^ 32 := by
    have := Nat.mod_lt (BitVec.ofInt 32 hash).toNat hpos
    omega
  have hword : ((BitVec.ofInt 32 hash).toNat : Int) = hash % 2 ^ 32 := by
    rw [BitVec.toNat_ofInt, Int.toNat_of_nonneg]
    · rfl
    · exact Int.emod_nonneg hash (by decide)
  rw [index, BitVec.toInt_eq_toNat_of_lt hlt, hnat, slot_eq (by rw [hsize]; exact_mod_cast hpos)]
  rw [hsize, Int.natCast_emod, hword]
  push_cast
  exact Int.emod_emod_of_dvd hash hdvd

section Step

variable {c : Cache} {v w : Value}

theorem lookup?_put (i j : Nat) (v : Value) (slots : List (Nat × Value)) :
    lookup? j (put i v slots) = if j = i then some v else lookup? j slots := by
  induction slots with
  | nil => simp [put, lookup?, eq_comm]
  | cons p rest ih =>
    obtain ⟨m, w⟩ := p
    simp only [put]
    by_cases hm : m = i
    · by_cases hj : j = i
      · simp [hm, hj, lookup?]
      · simp [hm, Ne.symm hj, hj, lookup?]
    · by_cases hj : j = m
      · simp [hm, hj, lookup?]
      · simp [hm, Ne.symm hj, lookup?, ih]

structure Like (c next : Cache) : Prop where
  size : next.size = c.size
  enabled : next.enabled = c.enabled

structure Hit (c : Cache) (i : Nat) (v w : Value) (next : Cache) : Prop extends Like c next where
  found : c.at? i = some w
  equal : w.equals v = true
  hits : next.hits = c.hits + 1
  misses : next.misses = c.misses
  slots : ∀ j, next.at? j = c.at? j

structure Miss (c : Cache) (i : Nat) (v : Value) (next : Cache) : Prop extends Like c next where
  unequal : ∀ w, c.at? i = some w → w.equals v = false
  hits : next.hits = c.hits
  misses : next.misses = c.misses + 1
  slots : ∀ j, next.at? j = if j = i then some v else c.at? j

structure Failed (c next : Cache) : Prop extends Like c next where
  hits : next.hits = c.hits
  misses : next.misses = c.misses
  slots : ∀ j, next.at? j = c.at? j

theorem withTable_eq (hfits : c.size ≤ maxSlots) : ∃ allocations, c.withTable =
    (.ok (c.table.getD []), { c with table := some (c.table.getD []), allocations }) := by
  unfold withTable
  split
  next slots hslots =>
    refine ⟨c.allocations, ?_⟩
    cases c
    simp_all
  next hnone =>
    rw [if_neg (Int.not_lt.2 hfits), hnone]
    exact ⟨c.allocations + 1, rfl⟩

theorem lookup?_table (c : Cache) (i : Nat) : lookup? i (c.table.getD []) = c.at? i := by
  unfold at?
  cases c.table <;> rfl

theorem intern_cases (henabled : c.enabled = true) (hfits : c.size ≤ maxSlots) {n : Int}
    (hn : v.hash = .ok n) : ∃ w, (c.intern v).1 = .ok w ∧
      (Hit c (c.slot n) v w (c.intern v).2 ∨ w = v ∧ Miss c (c.slot n) v (c.intern v).2) := by
  obtain ⟨allocations, htable⟩ := withTable_eq hfits
  unfold intern
  rw [if_neg (by simp [henabled]), htable]
  simp only [hn]
  rw [show slot { c with table := some (c.table.getD []), allocations } n = c.slot n from rfl]
  unfold internAt
  rw [lookup?_table]
  split
  next w hfound =>
    split
    next heq => exact ⟨w, rfl, .inl ⟨⟨rfl, rfl⟩, hfound, heq, rfl, rfl, c.lookup?_table⟩⟩
    next hne =>
      refine ⟨v, rfl, .inr ⟨rfl, ⟨rfl, rfl⟩, fun u hu => ?_, rfl, rfl, fun j => ?_⟩⟩
      · rw [hfound] at hu
        cases hu
        simpa using hne
      · rw [← lookup?_table c]
        exact lookup?_put _ j v _
  next hnone =>
    refine ⟨v, rfl, .inr ⟨rfl, ⟨rfl, rfl⟩, fun u hu => ?_, rfl, rfl, fun j => ?_⟩⟩
    · rw [hnone] at hu
      cases hu
    · rw [← lookup?_table c]
      exact lookup?_put _ j v _

theorem intern_failed (henabled : c.enabled = true) (hfits : c.size ≤ maxSlots) {f : Fault}
    (hn : v.hash = .error f) : Failed c (c.intern v).2 := by
  obtain ⟨allocations, htable⟩ := withTable_eq hfits
  unfold intern
  rw [if_neg (by simp [henabled]), htable]
  simp only [hn]
  exact ⟨⟨rfl, rfl⟩, rfl, rfl, c.lookup?_table⟩

theorem Like.slot {next : Cache} (h : Like c next) (n : Int) : next.slot n = c.slot n := by
  rw [Cache.slot, Cache.slot, h.size]

end Step

/-- Whether a value has a hash; only a result of which a geometry cannot be written has none. -/
def hasHash (v : Value) : Bool := v.hash.isOk

theorem hasHash_iff {v : Value} : hasHash v = true ↔ ∃ n, v.hash = .ok n := by
  unfold hasHash
  cases v.hash <;> simp [Except.isOk, Except.toBool]

/-- A cache of `2 ^ k` slots that has begun empty, after some calls. -/
structure Running (k : Nat) (c : Cache) (calls : List Call) : Prop where
  enabled : c.enabled = true
  size : c.size = 2 ^ k
  counted : c.hits + c.misses = ((interned calls).filter hasHash).length
  placed : ∀ i w, c.at? i = some w → w ∈ live calls ∧ ∃ n, w.hash = .ok n ∧ c.slot n = i

namespace Running

variable {k : Nat} {c : Cache} {calls : List Call}

theorem fits (h : Running k c calls) (hk : k ≤ 31) : c.size ≤ maxSlots := by
  have hle : (2 ^ k : Int) ≤ 2 ^ 31 := by
    exact_mod_cast Nat.pow_le_pow_right (by decide) hk
  rw [h.size, maxSlots]
  omega

theorem clear (h : Running k c calls) : Running k c.clear (calls ++ [.clear]) where
  enabled := h.enabled
  size := h.size
  counted := by
    rw [interned_clear]
    exact h.counted
  placed i w hw := by
    simp [at?, Cache.clear] at hw

theorem intern (h : Running k c calls) (hk : k ≤ 31) (v : Value) :
    Running k (c.intern v).2 (calls ++ [.intern v]) := by
  cases hn : v.hash with
  | error f =>
    have hfailed := intern_failed h.enabled (h.fits hk) hn
    refine ⟨hfailed.enabled.trans h.enabled, hfailed.size.trans h.size, ?_, fun i w hw => ?_⟩
    · have hnone : hasHash v = false := by simp [hasHash, hn, Except.isOk, Except.toBool]
      simp [hfailed.hits, hfailed.misses, h.counted, hnone]
    · rw [hfailed.slots] at hw
      obtain ⟨hlive, n, hhash, hslot⟩ := h.placed i w hw
      exact ⟨by simp [hlive], n, hhash, (hfailed.slot n).trans hslot⟩
  | ok n =>
    have hsome := hasHash_iff.2 ⟨n, hn⟩
    obtain ⟨w, -, hhit | ⟨rfl, hmiss⟩⟩ := intern_cases h.enabled (h.fits hk) hn
    · refine ⟨hhit.enabled.trans h.enabled, hhit.size.trans h.size, ?_, fun i u hu => ?_⟩
      · have := h.counted
        simp [hhit.hits, hhit.misses, hsome]
        omega
      · rw [hhit.slots] at hu
        obtain ⟨hlive, m, hhash, hslot⟩ := h.placed i u hu
        exact ⟨by simp [hlive], m, hhash, (hhit.slot m).trans hslot⟩
    · refine ⟨hmiss.enabled.trans h.enabled, hmiss.size.trans h.size, ?_, fun i u hu => ?_⟩
      · have := h.counted
        simp [hmiss.hits, hmiss.misses, hsome]
        omega
      · rw [hmiss.slots] at hu
        split at hu
        next hi =>
          cases hu
          exact ⟨by simp, n, hn, (hmiss.slot n).trans hi.symm⟩
        next =>
          obtain ⟨hlive, m, hhash, hslot⟩ := h.placed i u hu
          exact ⟨by simp [hlive], m, hhash, (hmiss.slot m).trans hslot⟩

theorem after (hk : k ≤ 31) (h : Running k c []) (calls : List Call) :
    Running k (c.after calls) calls := by
  induction calls using List.reverseRecOn with
  | nil => exact h
  | append_singleton calls call ih =>
    rw [after_concat]
    cases call with
    | intern v => exact ih.intern hk v
    | clear => exact ih.clear

end Running

theorem missAt?_eq {c next : Cache} {v : Value} {n : Int} (hn : v.hash = .ok n)
    (hnext : (c.intern v).2 = next) (h : Miss c (c.slot n) v next) :
    c.missAt? v = some (c.slot n) := by
  have hcount : (c.intern v).2.misses ≠ c.misses := by
    rw [hnext, h.misses]
    omega
  simp [missAt?, hn, hcount]

theorem Undisturbed.keeps {c : Cache} {between : List Call} {i : Nat} {r : Value}
    (henabled : c.enabled = true) (hfits : c.size ≤ maxSlots) (hr : c.at? i = some r)
    (h : Undisturbed i c between) :
    Like c (c.after between) ∧ (c.after between).at? i = some r := by
  induction between generalizing c with
  | nil => exact ⟨⟨rfl, rfl⟩, hr⟩
  | cons call rest ih =>
    cases call with
    | clear => exact h.elim
    | intern v =>
      obtain ⟨hmissed, hrest⟩ := h
      have hnext : Like c (c.intern v).2 ∧ (c.intern v).2.at? i = some r := by
        cases hn : v.hash with
        | error f =>
          have hfailed := intern_failed henabled hfits hn
          exact ⟨hfailed.toLike, (hfailed.slots i).trans hr⟩
        | ok n =>
          obtain ⟨w, -, hhit | ⟨rfl, hmiss⟩⟩ := intern_cases henabled hfits hn
          · exact ⟨hhit.toLike, (hhit.slots i).trans hr⟩
          · -- this miss falls on another slot, since the calls leave the slot undisturbed
            have hi : i ≠ c.slot n := by
              rintro rfl
              exact hmissed (missAt?_eq hn rfl hmiss)
            refine ⟨hmiss.toLike, ?_⟩
            rw [hmiss.slots, if_neg hi, hr]
      obtain ⟨hlike, hr⟩ := hnext
      obtain ⟨hafter, hkept⟩ :=
        ih (hlike.enabled.trans henabled) (by rwa [hlike.size]) hr hrest
      exact ⟨⟨hafter.size.trans hlike.size, hafter.enabled.trans hlike.enabled⟩, hkept⟩

structure Answers (c : Cache) (calls : List Call) (v : Value) (i : Nat) (r : Value) : Prop where
  returned : (c.intern v).1 = .ok r
  kind : r.kind = v.kind
  known : r = v ∨ r.equals v = true ∧ r ∈ live calls
  kept : (c.intern v).2.at? i = some r
  retained : ∀ between w, w.equals v = true → w.MarksAgree v →
    Undisturbed i (c.intern v).2 between → (((c.intern v).2.after between).intern w).1 = .ok r

theorem Running.answers {k : Nat} (hk : k ≤ 31) {c : Cache} {calls : List Call}
    (h : Running k c calls) {v : Value} {n : Int} (hn : v.hash = .ok n) :
    ∃ r, Answers c calls v (c.slot n) r := by
  obtain ⟨r, hreturned, hcases⟩ := intern_cases h.enabled (h.fits hk) hn
  have hnext := h.intern hk v
  have hequals : r.equals v = true := by
    rcases hcases with hhit | ⟨rfl, -⟩
    · exact hhit.equal
    · exact r.equals_refl
  have hkept : (c.intern v).2.at? (c.slot n) = some r := by
    rcases hcases with hhit | ⟨rfl, hmiss⟩
    · exact (hhit.slots _).trans hhit.found
    · rw [hmiss.slots, if_pos rfl]
  have hknown : r = v ∨ r.equals v = true ∧ r ∈ live calls := by
    rcases hcases with hhit | ⟨rfl, -⟩
    · exact .inr ⟨hequals, (h.placed _ _ hhit.found).1⟩
    · exact .inl rfl
  refine ⟨r, hreturned, Value.kind_eq_of_equals hequals, hknown, hkept, ?_⟩
  intro between w hwv hmarks hundisturbed
  obtain ⟨hlike, hfound⟩ := hundisturbed.keeps hnext.enabled (hnext.fits hk) hkept
  have hw : w.hash = .ok n := (Value.hash_eq_of_equals hmarks hwv).trans hn
  have hslot : ((c.intern v).2.after between).slot n = c.slot n := by
    rw [hlike.slot, slot, slot, hnext.size, h.size]
  have hrw : r.equals w = true := Value.equals_trans hequals (Value.equals_symm hwv)
  -- a miss of this slot would say that what is in it is not equal to `w`
  obtain ⟨u, hu, hhit | ⟨-, hmiss⟩⟩ :=
    intern_cases (hlike.enabled.trans hnext.enabled) (hlike.size ▸ hnext.fits hk) hw
  · have hfound' := hhit.found
    rw [hslot, hfound] at hfound'
    cases hfound'
    exact hu
  · have hne := hmiss.unequal r (by rw [hslot, hfound])
    rw [hrw] at hne
    cases hne

end Datum.Cache
