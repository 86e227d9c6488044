import Datum.Proofs.Convert.Kind
import Datum.Proofs.Text.Utf8
import Datum.Proofs.Uuid

/-!
# Casts among the kinds of bytes

Binary strings, large objects of bytes and objects carry bytes. Conversion from one of these kinds
to another keeps the bytes, except from objects to large objects: an object becomes one through its
text, so that the digits of the bytes take their place (`bytes_through_casts`).
-/

set_option autoImplicit false

namespace Datum

def Kind.isBytes : Kind → Bool
  | .varbinary | .lob .blob | .javaObject => true
  | _ => false

theorem Kind.isBytes_iff {k : Kind} :
    k.isBytes = true ↔ k = .varbinary ∨ k = .lob .blob ∨ k = .javaObject := by
  cases k with
  | lob k => cases k <;> simp [isBytes]
  | _ => simp [isBytes]

inductive Carries : Value → Bytes → Prop where
  | varbinary {b : Bytes} : Carries (.varbinary b) b
  | blob {b : Bytes} : Carries (.lob ⟨.blob, b⟩) b
  | object {b : Bytes} {held : Held Value} : Carries (.object b held) b

namespace Carries

variable {v : Value} {b : Bytes}

theorem payload? (h : Carries v b) : v.payload? = some b := by
  cases h <;> rfl

theorem isNull (h : Carries v b) : v.isNull = false := by
  cases h <;> rfl

end Carries

namespace Convert

/-- The values that conversion to one kind after another passes through, the first one included. -/
def chain (v : Value) : List (Kind × ConvertContext) → Outcome (List Value)
  | [] => .ok [v]
  | (k, c) :: rest => do
    let w ← convert v k c
    return v :: (← chain w rest)

def hexBytes (b : Bytes) : Bytes := Text.Utf8.encode (Text.Hex.encode b)

/-- Of the kinds of bytes only objects become others, large objects, through their text. -/
def isThroughText (source target : Kind) : Bool := source = .javaObject && target = .lob .blob

structure IsBytesStep (s : Kind × ConvertContext) : Prop where
  kind : s.1.isBytes = true
  store : ∀ data, s.2.store .blob data = ⟨.blob, data⟩

def textSteps : Kind → List Kind → Nat
  | _, [] => 0
  | source, target :: rest =>
    textSteps target rest + if isThroughText source target then 1 else 0

theorem textSteps_take_le (source : Kind) (kinds : List Kind) (i : Nat) :
    textSteps source (kinds.take i) ≤ textSteps source kinds := by
  induction kinds generalizing source i with
  | nil => rw [List.take_nil]
  | cons target rest ih =>
    cases i with
    | zero => exact Nat.zero_le _
    | succ i => exact Nat.add_le_add_right (ih target i) _

theorem length_hexBytes (b : Bytes) : (hexBytes b).length = 2 * b.length := by
  rw [hexBytes, Text.Utf8.length_encode_of_isAscii (Text.Hex.isAscii_encode b),
    Text.Hex.length_encode]

theorem length_iterate_hexBytes (n : Nat) (b : Bytes) :
    (hexBytes^[n] b).length = 2 ^ n * b.length := by
  induction n generalizing b with
  | zero => simp
  | succ n ih =>
    rw [Function.iterate_succ_apply, ih, length_hexBytes, pow_succ, Nat.mul_assoc]

theorem iterate_hexBytes_eq_iff {n : Nat} {b : Bytes} : hexBytes^[n] b = b ↔ n = 0 ∨ b = [] := by
  constructor
  · intro h
    have hlength := length_iterate_hexBytes n b
    rw [h] at hlength
    by_contra hne
    obtain ⟨hn, hb⟩ := not_or.1 hne
    have hpos := List.length_pos_iff.2 hb
    have htwo : 2 ≤ 2 ^ n := Nat.le_self_pow hn 2
    have hgrown := Nat.mul_le_mul_right b.length htwo
    omega
  · rintro (rfl | rfl)
    · rfl
    · exact List.eq_nil_of_length_eq_zero (length_iterate_hexBytes n [])

section Step

variable {v w : Value} {k : Kind} {b : Bytes} {c : ConvertContext}

theorem cast_carries (e : Extension) (h : Carries v b) : Ensures (e.cast v) (· = v) := by
  cases h <;> cases e <;> exact ensures_unsupported _ _ _ _

theorem toLob_blob (hs : IsBytesStep (.lob .blob, c)) (h : blobBytes v = .ok b) :
    byRule v (.lob .blob) c = .ok (.lob ⟨.blob, b⟩) := by
  have hstore : c.store .blob b = ⟨.blob, b⟩ := hs.store b
  simp [byRule, toLob, lobBytes, h, hstore]

theorem byRule_carries (hs : IsBytesStep (k, c)) (h : Carries v b) (hne : v.kind ≠ k) :
    ∃ w, byRule v k c = .ok w ∧ w.kind = k ∧
      Carries w (if isThroughText v.kind k then hexBytes b else b) := by
  rcases Kind.isBytes_iff.1 hs.kind with rfl | rfl | rfl
  · cases h with
    | varbinary => exact absurd rfl hne
    | blob => exact ⟨_, rfl, rfl, .varbinary⟩
    | object => exact ⟨_, rfl, rfl, .varbinary⟩
  · cases h with
    | varbinary => exact ⟨_, toLob_blob hs rfl, rfl, .blob⟩
    | blob => exact absurd rfl hne
    | object => exact ⟨_, toLob_blob hs rfl, rfl, .blob⟩
  · cases h with
    | varbinary => exact ⟨_, rfl, rfl, .object⟩
    | blob => exact ⟨_, rfl, rfl, .object⟩
    | object => exact absurd rfl hne

theorem convert_carries (hs : IsBytesStep (k, c)) (h : Carries v b) :
    Ensures (convert v k c) fun w =>
      w.kind = k ∧ Carries w (if isThroughText v.kind k then hexBytes b else b) := by
  by_cases hkind : v.kind = k
  · subst hkind
    have hsame : isThroughText v.kind v.kind = false := by
      cases h <;> rfl
    have hkept : Ensures (convert v v.kind c) (· = v) := by
      cases hext : c.extension with
      | none => rw [convert_self hext, ensures_ok]
      | some e =>
        rw [convert, h.isNull, if_neg Bool.false_ne_true, if_pos rfl, hext]
        exact cast_carries e h
    refine hkept.mono fun w hw => ?_
    rw [hw, hsame]
    exact ⟨rfl, h⟩
  · obtain ⟨w, hw, hfacts⟩ := byRule_carries hs h hkind
    rw [convert_eq_byRule h.isNull hkind, hw, ensures_ok]
    exact hfacts

theorem exists_convert_carries (hs : IsBytesStep (k, c)) (hext : c.extension = none)
    (h : Carries v b) : ∃ w, convert v k c = .ok w := by
  by_cases hkind : v.kind = k
  · subst hkind
    exact ⟨v, convert_self hext⟩
  · obtain ⟨w, hw, -⟩ := byRule_carries hs h hkind
    exact ⟨w, (convert_eq_byRule h.isNull hkind c).trans hw⟩

end Step

section Chain

variable {v : Value} {b : Bytes} {steps : List (Kind × ConvertContext)}

theorem chain_cons_eq_ok {k : Kind} {c : ConvertContext} {vs : List Value} :
    chain v ((k, c) :: steps) = .ok vs ↔
      ∃ w ws, convert v k c = .ok w ∧ chain w steps = .ok ws ∧ vs = v :: ws := by
  simp only [chain, bind_eq_ok, pure_eq_ok, Except.ok.injEq]
  constructor
  · rintro ⟨w, hw, ws, hws, rfl⟩
    exact ⟨w, ws, hw, hws, rfl⟩
  · rintro ⟨w, ws, hw, hws, rfl⟩
    exact ⟨w, hw, ws, hws, rfl⟩

theorem chain_carries (hsteps : ∀ s ∈ steps, IsBytesStep s) (h : Carries v b) {vs : List Value}
    (hvs : chain v steps = .ok vs) :
    vs.map Value.kind = v.kind :: steps.map Prod.fst ∧
      ∀ i w, vs[i]? = some w →
        Carries w (hexBytes^[textSteps v.kind ((steps.map Prod.fst).take i)] b) := by
  induction steps generalizing v b vs with
  | nil =>
    cases hvs
    refine ⟨rfl, fun i w hw => ?_⟩
    obtain ⟨rfl, rfl⟩ : i = 0 ∧ v = w := by simpa [List.getElem?_singleton] using hw
    exact h
  | cons s rest ih =>
    obtain ⟨hs, hrest⟩ := List.forall_mem_cons.1 hsteps
    obtain ⟨w, ws, hw, hws, rfl⟩ := chain_cons_eq_ok.1 hvs
    obtain ⟨hkind, hcarried⟩ := convert_carries hs h w hw
    obtain ⟨hkinds, hpayloads⟩ := ih hrest hcarried hws
    rw [hkind] at hkinds hpayloads
    refine ⟨by rw [List.map_cons, hkinds, List.map_cons], fun i u hu => ?_⟩
    cases i with
    | zero =>
      obtain rfl : v = u := by simpa using hu
      exact h
    | succ i =>
      have hlater := hpayloads i u (by simpa using hu)
      rw [List.map_cons, List.take_succ_cons, textSteps]
      split at hlater
      next htext => rwa [if_pos htext, Function.iterate_succ_apply]
      next htext => rwa [if_neg htext]

theorem exists_chain (hsteps : ∀ s ∈ steps, IsBytesStep s)
    (hext : ∀ s ∈ steps, s.2.extension = none) (h : Carries v b) :
    ∃ vs, chain v steps = .ok vs := by
  induction steps generalizing v b with
  | nil => exact ⟨[v], rfl⟩
  | cons s rest ih =>
    obtain ⟨hs, hrest⟩ := List.forall_mem_cons.1 hsteps
    obtain ⟨hnone, hrestNone⟩ := List.forall_mem_cons.1 hext
    obtain ⟨w, hw⟩ := exists_convert_carries hs hnone h
    obtain ⟨-, hcarried⟩ := convert_carries hs h w hw
    obtain ⟨ws, hws⟩ := ih hrest hrestNone hcarried
    exact ⟨v :: ws, chain_cons_eq_ok.2 ⟨w, ws, hw, hws, rfl⟩⟩

/-- Bytes that are cast from one of their kinds to another, any number of times, stay as they are
but for the steps from objects to large objects: with each of these the digits of their text take
their place. So a value of the chain has the bytes at its beginning if and only if no such step
leads to it, or there are no bytes. Without a domain or a constraint no step fails. -/
theorem bytes_through_casts (hsteps : ∀ s ∈ steps, IsBytesStep s) :
    (∀ vs, chain (.varbinary b) steps = .ok vs →
      vs.map Value.kind = .varbinary :: steps.map Prod.fst ∧
      ∀ i n w, vs[i]? = some w → textSteps .varbinary ((steps.map Prod.fst).take i) = n →
        w.payload? = some (hexBytes^[n] b) ∧ (w.payload? = some b ↔ n = 0 ∨ b = [])) ∧
    ((∀ s ∈ steps, s.2.extension = none) → ∃ vs, chain (.varbinary b) steps = .ok vs) := by
  refine ⟨fun vs hvs => ?_, fun hext => exists_chain hsteps hext .varbinary⟩
  obtain ⟨hkinds, hcarries⟩ := chain_carries hsteps .varbinary hvs
  refine ⟨hkinds, fun i n w hw hn => ?_⟩
  have hpayload := (hcarries i w hw).payload?
  rw [Value.kind_varbinary, hn] at hpayload
  exact ⟨hpayload, by rw [hpayload, Option.some_inj, iterate_hexBytes_eq_iff]⟩

theorem bytes_through_casts_of_return :
    let c : ConvertContext := .ofSession (.system 0 0)
    let steps : List (Kind × ConvertContext) :=
      [(.javaObject, c), (.varbinary, c), (.lob .blob, c), (.javaObject, c)]
    (∀ s ∈ steps, IsBytesStep s) ∧ (∀ s ∈ steps, s.2.extension = none) ∧
      ∃ vs : List Value, chain (.varbinary [0xCA, 0xFE]) steps = .ok vs ∧
        ∀ (i : Nat) (w : Value), vs[i]? = some w → w.payload? = some [0xCA, 0xFE] := by
  intro c steps
  have hsteps : ∀ s ∈ steps, IsBytesStep s := by
    simp only [steps, List.forall_mem_cons]
    exact ⟨⟨rfl, fun _ => rfl⟩, ⟨rfl, fun _ => rfl⟩, ⟨rfl, fun _ => rfl⟩, ⟨rfl, fun _ => rfl⟩,
      fun _ h => absurd h List.not_mem_nil⟩
  have hext : ∀ s ∈ steps, s.2.extension = none := by
    simp [steps, c, ConvertContext.ofSession]
  obtain ⟨hbytes, hchain⟩ := bytes_through_casts (b := [0xCA, 0xFE]) hsteps
  obtain ⟨vs, hvs⟩ := hchain hext
  obtain ⟨-, hkept⟩ := hbytes vs hvs
  have hnone (i : Nat) : textSteps .varbinary ((steps.map Prod.fst).take i) = 0 :=
    Nat.eq_zero_of_le_zero (textSteps_take_le _ _ i)
  exact ⟨hsteps, hext, vs, hvs, fun i w hw => ((hkept i 0 w hw (hnone i)).2).2 (.inl rfl)⟩

/-- An object becomes a large object of the digits of its bytes. -/
theorem object_to_blob_changes_bytes :
    let c : ConvertContext := .ofSession (.system 0 0)
    ∃ w : Value, chain (.varbinary [0xCA, 0xFE]) [(.javaObject, c), (.lob .blob, c)]
        = .ok [.varbinary [0xCA, 0xFE], .object [0xCA, 0xFE] .nothing, w] ∧
      w.payload? = some [0x63, 0x61, 0x66, 0x65] ∧ w.payload? ≠ some [0xCA, 0xFE] :=
  ⟨.lob ⟨.blob, [0x63, 0x61, 0x66, 0x65]⟩, by rfl, rfl, by decide⟩

end Chain

end Convert

end Datum
