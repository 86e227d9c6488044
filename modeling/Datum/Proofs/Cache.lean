import Datum.Cache
import Datum.Compare
import Datum.Proofs.Equality
import Mathlib.Data.List.Forall2

/-!
# What the cache shows

A cache gives back values that equal what the conversion made, each of which some conversion of the
run has made. So it is seen only where equality passes over something.
-/

set_option autoImplicit false

namespace Datum

/-- A conversion that is asked for. The context holds the mark of the result that it may make, so
that with and without a cache it makes the same one. -/
structure Request where
  value : Value
  target : Kind
  context : ConvertContext

def Request.answer (q : Request) : Outcome Value := convert q.value q.target q.context

namespace Cache

/-- What happens to a shared cache. It is cleared also where its table is reclaimed. -/
inductive Use where
  | ask (q : Request)
  | clear

def asked : List Use → List Request
  | [] => []
  | .ask q :: rest => q :: asked rest
  | .clear :: rest => asked rest

def answers (c : Cache) : List Use → List (Outcome Value)
  | [] => []
  | .ask q :: rest =>
    let (r, c) := c.convert q.value q.target q.context
    r :: c.answers rest
  | .clear :: rest => c.clear.answers rest

structure Holds (S : Value → Prop) (c : Cache) : Prop where
  fits : c.size ≤ maxSlots
  slots : ∀ slots, c.table = some slots → ∀ p ∈ slots, S p.2

variable {S : Value → Prop} {c : Cache}

theorem lookup?_mem {n : Nat} {w : Value} {slots : List (Nat × Value)}
    (h : lookup? n slots = some w) : (n, w) ∈ slots := by
  induction slots with
  | nil => simp [lookup?] at h
  | cons p rest ih =>
    obtain ⟨m, v⟩ := p
    simp only [lookup?] at h
    split at h
    next hm =>
      simp only [Option.some.injEq] at h
      simp [hm, h]
    · exact List.mem_cons_of_mem _ (ih h)

theorem mem_put {n : Nat} {v : Value} {slots : List (Nat × Value)} {p : Nat × Value}
    (h : p ∈ put n v slots) : p = (n, v) ∨ p ∈ slots := by
  induction slots with
  | nil => simpa [put] using h
  | cons q rest ih =>
    obtain ⟨m, w⟩ := q
    simp only [put] at h
    split at h
    · rcases List.mem_cons.1 h with rfl | h
      · exact .inl rfl
      · exact .inr (List.mem_cons_of_mem _ h)
    · rcases List.mem_cons.1 h with rfl | h
      · exact .inr (by simp)
      · exact (ih h).imp_right (List.mem_cons_of_mem _)

theorem Holds.clear (h : Holds S c) : Holds S c.clear :=
  ⟨h.fits, by simp [Cache.clear]⟩

theorem Holds.withTable (h : Holds S c) : ∃ slots, c.withTable.1 = .ok slots ∧
    (∀ p ∈ slots, S p.2) ∧ Holds S c.withTable.2 := by
  unfold Cache.withTable
  split
  next slots hslots => exact ⟨slots, rfl, h.slots slots hslots, h⟩
  next =>
    have hfits : ¬maxSlots < c.size := by
      have := h.fits
      omega
    simp only [if_neg hfits]
    exact ⟨[], rfl, by simp, h.fits, by simp⟩

theorem internAt_equals (c : Cache) (slots : List (Nat × Value)) (n : Nat) (v : Value) :
    (c.internAt slots n v).1.equals v = true := by
  unfold Cache.internAt
  split
  · split
    next heq => exact heq
    · exact v.equals_refl
  · exact v.equals_refl

/-- What a cache gives back for a value, whatever is in its slots, equals the value. -/
theorem intern_equals (c : Cache) (v : Value) : Ensures (c.intern v).1 (·.equals v = true) := by
  unfold Cache.intern
  split
  · exact (ensures_ok _ _).2 v.equals_refl
  · split
    · simp
    · split
      · simp
      · exact (ensures_ok _ _).2 (internAt_equals _ _ _ v)

theorem convert_equals (c : Cache) (v : Value) (target : Kind) (context : ConvertContext) :
    Ensures (c.convert v target context).1 fun w =>
      ∃ u, Datum.convert v target context = .ok u ∧ w.equals u = true := by
  unfold Cache.convert
  split
  · simp
  next u hu =>
    split
    · exact (c.intern_equals u).mono fun w hw => ⟨u, hu, hw⟩
    · exact (ensures_ok _ _).2 ⟨u, hu, u.equals_refl⟩

theorem Holds.internAt {slots : List (Nat × Value)} {v : Value} (h : Holds S c)
    (hslots : ∀ p ∈ slots, S p.2) (hv : S v) (n : Nat) :
    S (c.internAt slots n v).1 ∧ Holds S (c.internAt slots n v).2 := by
  have put : ∀ p ∈ put n v slots, S p.2 := by
    intro p hp
    rcases mem_put hp with rfl | hp
    · exact hv
    · exact hslots p hp
  unfold Cache.internAt
  -- an equal value is in the slot, another one is, or none
  split
  next w hw =>
    split
    · exact ⟨hslots _ (lookup?_mem hw), h.fits, h.slots⟩
    · exact ⟨hv, h.fits, by simpa using put⟩
  · exact ⟨hv, h.fits, by simpa using put⟩

theorem Holds.intern {v : Value} (h : Holds S c) (hv : S v) (hhash : ∃ n, v.hash = .ok n) :
    ∃ w, (c.intern v).1 = .ok w ∧ w.equals v = true ∧ S w ∧ Holds S (c.intern v).2 := by
  unfold Cache.intern
  split
  · exact ⟨v, rfl, v.equals_refl, hv, h⟩
  · obtain ⟨slots, htable, hslots, hholds⟩ := h.withTable
    obtain ⟨n, hn⟩ := hhash
    generalize hw : c.withTable = p at htable hholds
    obtain ⟨made, c'⟩ := p
    simp only at htable hholds
    subst htable
    simp only [hn]
    obtain ⟨hS, hnext⟩ := hholds.internAt hslots hv (c'.slot n)
    exact ⟨_, rfl, c'.internAt_equals slots _ v, hS, hnext⟩

/-- An answer beside the plain one: the same failure, or a value with a property that equals the
plain one, and is the plain one unless equality passes over part of them. -/
def Faithful (S : Value → Prop) (q : Request) (r : Outcome Value) : Prop :=
  match q.answer with
  | .error f => r = .error f
  | .ok plain => ∃ found, r = .ok found ∧ found.equals plain = true ∧ S found ∧
      ∀ d, found.MarksAgree plain → found.SeenIn d → plain.SeenIn d → found = plain

theorem Holds.convert {q : Request} (h : Holds S c) (hS : ∀ v, q.answer = .ok v → S v)
    (hhash : ∀ v, q.answer = .ok v → ∃ n, v.hash = .ok n) :
    Faithful S q (c.convert q.value q.target q.context).1 ∧
      Holds S (c.convert q.value q.target q.context).2 := by
  unfold Faithful Cache.convert
  cases hq : q.answer with
  | error f =>
    simp only [Request.answer] at hq
    simp only [hq]
    exact ⟨trivial, h⟩
  | ok plain =>
    have hplain := hq
    simp only [Request.answer] at hq
    simp only [hq]
    split
    · obtain ⟨found, hfound, heq, hfoundS, hnext⟩ := h.intern (hS plain hplain) (hhash plain hplain)
      have hsame d (hmarks : found.MarksAgree plain) (hf : found.SeenIn d) (hp : plain.SeenIn d) :
          found = plain := Value.eq_of_equals hmarks hf hp heq
      exact ⟨⟨found, hfound, heq, hfoundS, hsame⟩, hnext⟩
    · exact ⟨⟨plain, rfl, plain.equals_refl, hS plain hplain, fun _ _ _ _ => rfl⟩, h⟩

theorem Holds.answers {uses : List Use} (h : Holds S c)
    (hS : ∀ q ∈ asked uses, ∀ v, q.answer = .ok v → S v)
    (hhash : ∀ q ∈ asked uses, ∀ v, q.answer = .ok v → ∃ n, v.hash = .ok n) :
    List.Forall₂ (Faithful S) (asked uses) (c.answers uses) := by
  induction uses generalizing c with
  | nil => exact .nil
  | cons use rest ih =>
    cases use with
    | clear => exact ih h.clear hS hhash
    | ask q =>
      obtain ⟨hanswer, hnext⟩ := h.convert (hS q List.mem_cons_self) (hhash q List.mem_cons_self)
      refine .cons hanswer (ih hnext ?_ ?_)
      · exact fun p hp => hS p (List.mem_cons_of_mem q hp)
      · exact fun p hp => hhash p (List.mem_cons_of_mem q hp)

theorem holds_make {size : Num} {enabled : Bool} {retention : Retention}
    (hmake : make size enabled retention = .ok c) (hsize : c.size ≤ maxSlots) : Holds S c := by
  unfold make at hmake
  split at hmake
  · cases hmake
    exact ⟨hsize, by simp⟩
  · simp at hmake

/-- A new cache of which the table can be made answers every request of a run as without a cache: it
fails in the same way, or gives a value that equals the plain answer and is the plain answer to a
request of the run. -/
theorem cache_answers {size : Num} {enabled : Bool} {retention : Retention} {c : Cache}
    (hmake : make size enabled retention = .ok c) (hsize : c.size ≤ maxSlots) (uses : List Use)
    (haccepted : ∀ q ∈ asked uses, ∀ v, q.answer = .ok v →
      ∀ g, (Value.geometry g).Within v → g.IsAccepted) :
    List.Forall₂ (Faithful fun v => ∃ p ∈ asked uses, p.answer = .ok v) (asked uses)
      (c.answers uses) :=
  (holds_make hmake hsize).answers (fun q hq _ hv => ⟨q, hq, hv⟩)
    fun q hq v hv => (Value.isWritable_of_accepted (haccepted q hq v hv)).hash_ok

theorem cache_answers_of_integer : ∃ (c : Cache) (q : Request) (v : Value),
    make (.int 16) true .strong = .ok c ∧ q.answer = .ok v ∧
      c.answers [.ask q, .ask q, .clear, .ask q] = [.ok v, .ok v, .ok v] := by
  let c : Cache := ⟨16, true, .strong, none, 0, 0, 0⟩
  let q : Request := ⟨.string .varchar "5", .integer .bigint, .ofSession (.system 0 0)⟩
  let v : Value := .integer .bigint (.int 5)
  let uses : List Use := [.ask q, .ask q, .clear, .ask q]
  have hmake : make (.int 16) true .strong = .ok c := by rfl
  have hq : q.answer = .ok v := by rfl
  have hasked : ∀ p ∈ asked uses, p = q := by simp [uses, asked]
  have hplain : ∀ p ∈ asked uses, ∀ w, p.answer = .ok w → w = v := by
    intro p hp w hw
    rw [hasked p hp, hq] at hw
    exact (Except.ok.inj hw).symm
  have h := cache_answers hmake (by decide) uses (by
    intro p hp w hw g hg
    rw [hplain p hp w hw, Value.within_integer] at hg
    simp at hg)
  refine ⟨c, q, v, hmake, hq, ?_⟩
  have hanswer : ∀ r, Faithful (fun w => ∃ p ∈ asked uses, p.answer = .ok w) q r → r = .ok v := by
    intro r hr
    simp only [Faithful, hq] at hr
    obtain ⟨found, hfound, -, ⟨p, hp, hanswer⟩, -⟩ := hr
    rw [hfound, hplain p hp found hanswer]
  obtain ⟨r₁, rest₁, h₁, h, hrest₁⟩ := List.forall₂_cons_left_iff.1 h
  obtain ⟨r₂, rest₂, h₂, h, hrest₂⟩ := List.forall₂_cons_left_iff.1 h
  obtain ⟨r₃, rest₃, h₃, h, hrest₃⟩ := List.forall₂_cons_left_iff.1 h
  obtain rfl := List.forall₂_nil_left_iff.1 h
  change c.answers uses = _
  rw [hrest₁, hrest₂, hrest₃, hanswer r₁ h₁, hanswer r₂ h₂, hanswer r₃ h₃]

/-- A cache that holds a label of one domain gives it back for the same label at the same place of
another domain. The type of the answer shows it, and so does a comparison. -/
theorem cache_shows_domain : ∃ (c : Cache) (p q : Request) (plain found w : Value),
    make (.int 16) true .strong = .ok c ∧ q.answer = .ok plain ∧
      (c.answers [.ask p, .ask q])[1]? = some (.ok found) ∧
        found.type.same plain.type = false ∧
          Compare.total (.system 0 0) found w = .ok .lt ∧
            Compare.total (.system 0 0) plain w = .ok .gt := by
  let request (d : EnumDomain) : Request :=
    ⟨.string .varchar "b", .enum,
      { ConvertContext.ofSession (.system 0 0) with extension := some (.enum d) }⟩
  exact ⟨⟨16, true, .strong, none, 0, 0, 0⟩, request ⟨["a", "b"]⟩, request ⟨["c", "b"]⟩,
    .enum ⟨"b", 1, ⟨["c", "b"]⟩⟩, .enum ⟨"b", 1, ⟨["a", "b"]⟩⟩, .enum ⟨"c", 0, ⟨["c", "b"]⟩⟩,
    by rfl, by rfl, by rfl, by decide, by rfl, by rfl⟩

end Cache

end Datum
