import Datum.Proofs.Interval.Length
import Datum.Proofs.Interval.Literal
import Datum.Proofs.Interval.Words

/-!
# Full literals

What a literal is that names its qualifier (`FullLiteral`): the keyword, a sign that may be left
out, a body in quotes and the words of a qualifier, with blanks between them. Reading such a text
gives the body under the named qualifier, turned round by a minus, and every other text is read as a
body.
-/

set_option autoImplicit false

namespace Datum

open Text (unit IsBlanks IsTight Spells)

def Unsigned (t : Text) : Prop := ∀ u, t.trim.head? = some u → u ≠ unit '-' ∧ u ≠ unit '+'

namespace IntervalFields

variable {q : Qualifier} {t : Text}

def turned (minus : Bool) (f : IntervalFields) : IntervalFields :=
  if minus && !f.isZero then { f with negative := !f.negative } else f

theorem toAbsolute_turned (q : Qualifier) (s : Sign) (f : IntervalFields) :
    (f.turned s.isMinus).toAbsolute q = s.factor * f.toAbsolute q := by
  cases s with
  | none | plus => exact (Int.one_mul _).symm
  | minus =>
    by_cases hzero : f.isZero = true
    · have hfields := hzero
      simp only [isZero, Bool.and_eq_true, beq_iff_eq] at hfields
      simp [turned, Sign.isMinus, hzero, toAbsolute, hfields]
    · simp only [turned, Sign.isMinus, hzero, toAbsolute, Sign.factor]
      cases f.negative <;> simp

theorem turned_unsignedZero (minus : Bool) (leading remainder : Int) :
    turned minus (unsignedZero ⟨false, leading, remainder⟩) =
      unsignedZero ⟨minus, leading, remainder⟩ := by
  cases hzero : leading == 0 && remainder == 0 <;> cases minus <;>
    simp [turned, unsignedZero, isZero, hzero]

theorem takeSign_signed (s : Sign) {b : Text} (hb : IsBlanks b) (ht : Unsigned t) :
    ∃ rest, Text.takeSign (b ++ (s.text ++ t)).trim = (s.isMinus, rest) ∧ rest.trim = t.trim := by
  have hmarked {u : UInt16} (hu : Text.isBlank u = false) :
      Text.trim (u :: t) = u :: Text.trimEnd t := by
    rw [Text.trim, Text.trimStart, List.dropWhile_cons_of_neg (by simp [hu]), Text.trimEnd_cons hu]
  rw [Text.trim_blanks_append hb]
  cases s with
  | none => exact ⟨t.trim, takeSign_unsigned ht, Text.trim_trim t⟩
  | plus =>
    refine ⟨Text.trimEnd t, ?_, Text.trim_trimEnd t⟩
    rw [Sign.text, List.singleton_append, hmarked (u := unit '+') (by decide)]
    rfl
  | minus =>
    refine ⟨Text.trimEnd t, ?_, Text.trim_trimEnd t⟩
    rw [Sign.text, List.singleton_append, hmarked (u := unit '-') (by decide)]
    rfl

theorem parseBody?_signed (q : Qualifier) (s : Sign) {b : Text} (hb : IsBlanks b)
    (ht : Unsigned t) :
    parseBody? q (b ++ (s.text ++ t)) = (parseBody? q t).map (turned s.isMinus) := by
  have hbody {minus : Bool} {t rest : Text} (hsign : Text.takeSign t.trim = (minus, rest)) :
      parseBody? q t = (magnitudes? q rest.trim).bind fun m =>
        if (violation? q ⟨false, m.1, m.2⟩).isSome then none
        else some (turned minus (unsignedZero ⟨false, m.1, m.2⟩)) := by
    simp only [turned_unsignedZero]
    rw [parseBody?, hsign]
    rfl
  obtain ⟨rest, hsigned, hrest⟩ := takeSign_signed s hb ht
  rw [hbody hsigned, hbody (takeSign_unsigned ht), hrest, Text.trim_trim]
  cases magnitudes? q t.trim with
  | none => rfl
  | some m =>
    simp only [Option.bind_some]
    split
    · rfl
    · simp [turned]

theorem blanks?_append {b : Text} (hne : b ≠ []) (hb : IsBlanks b) (t : Text) :
    blanks? (b ++ t) = some (t.dropWhile Text.isBlank) := by
  cases b with
  | nil => exact absurd rfl hne
  | cons u b =>
    obtain ⟨hu, hb⟩ := List.forall_mem_cons.1 hb
    rw [List.cons_append, blanks?, if_pos hu, List.dropWhile_append_of_pos hb]

theorem exists_blanks {t rest : Text} (h : blanks? t = some rest) :
    ∃ b, b ≠ [] ∧ IsBlanks b ∧ b ++ rest = t ∧
      ∀ u, rest.head? = some u → Text.isBlank u = false := by
  cases t with
  | nil => cases h
  | cons v t =>
    simp only [blanks?, Option.ite_none_right_eq_some, Option.some.injEq] at h
    obtain ⟨hv, rfl⟩ := h
    refine ⟨v :: t.takeWhile Text.isBlank, List.cons_ne_nil _ _, ?_, ?_, fun u hu => ?_⟩
    · exact List.forall_mem_cons.2 ⟨hv, fun u hu => List.mem_takeWhile_imp hu⟩
    · rw [List.cons_append, List.takeWhile_append_dropWhile]
    · have hhead := List.head?_dropWhile_not Text.isBlank t
      rw [hu] at hhead
      simpa using hhead

theorem qualifierWords?_spells {ws : List Text} (h : Spells ws t)
    (hq : ws.map Text.asciiUpper = q.words.map Text.ofString) :
    qualifierWords? t = some (q.words.map Text.ofString) := by
  have hall : t.all (fun u => Text.isBlank u || Text.isAsciiLetter u) = true :=
    List.all_eq_true.2 h.blank_or_letter
  rw [qualifierWords?, splitWords_spells h, hq, hall]
  cases q <;> decide

theorem spells_of_qualifierWords? {ws : List Text} (h : qualifierWords? t = some ws)
    (hfirst : ∀ u, t.head? = some u → Text.isBlank u = false)
    (hlast : ∀ u, t.getLast? = some u → Text.isBlank u = false) :
    Spells (splitWords t) t ∧ (splitWords t).map Text.asciiUpper = ws := by
  have hne : t ≠ [] := by
    rintro rfl
    cases h
  simp only [qualifierWords?] at h
  split at h
  next => cases h
  next hunits =>
    simp only [Bool.not_eq_true', Bool.not_eq_false, List.all_eq_true] at hunits
    refine ⟨spells_splitWords hne ⟨hfirst, hlast⟩ hunits, ?_⟩
    split at h
    next w hw => rw [hw, Option.some.inj h]
    next a b c hw =>
      split at h
      · rw [hw, Option.some.inj h]
      · cases h
    next => cases h

theorem words_of_ofWords? {ws : List Text} (h : Qualifier.ofWords? ws = some q) :
    ws = q.words.map Text.ofString := by
  have hfound := List.find?_some h
  exact (eq_of_beq hfound).symm

end IntervalFields

/-- A literal that names its qualifier, in its parts; `afterKeyword` and its like are blanks. -/
structure FullLiteral where
  before : Text
  keyword : Text
  afterKeyword : Text
  sign : Sign
  afterSign : Text
  body : Text
  afterBody : Text
  words : List Text
  name : Text
  after : Text
  qualifier : Qualifier
  keyword_upper : Text.asciiUpper keyword = ("INTERVAL" : Text)
  body_closed : unit '\'' ∉ body
  spells : Spells words name
  named : words.map Text.asciiUpper = qualifier.words.map Text.ofString
  gaps : afterKeyword ≠ [] ∧ afterBody ≠ []
  blanks : IsBlanks before ∧ IsBlanks afterKeyword ∧ IsBlanks afterSign ∧ IsBlanks afterBody ∧
    IsBlanks after

namespace FullLiteral

open IntervalFields

def core (l : FullLiteral) : Text :=
  l.keyword ++ (l.afterKeyword ++ (l.sign.text ++ (l.afterSign ++
    unit '\'' :: (l.body ++ unit '\'' :: (l.afterBody ++ l.name)))))

def text (l : FullLiteral) : Text := l.before ++ (l.core ++ l.after)

variable (l : FullLiteral)

theorem keyword_isBlank : ∀ u ∈ l.keyword, Text.isBlank u = false := by
  have hletters := List.all_eq_true.1
    (show ("INTERVAL" : Text).all Text.isAsciiLetter = true by decide)
  intro u hu
  have hmem : Text.asciiUpperUnit u ∈ Text.asciiUpper l.keyword := List.mem_map_of_mem hu
  rw [l.keyword_upper] at hmem
  exact Text.isBlank_of_isAsciiLetter (Text.isAsciiLetter_of_upper (hletters _ hmem))

theorem keyword_length : l.keyword.length = 8 := by
  have hlength := congrArg List.length l.keyword_upper
  rwa [Text.asciiUpper, List.length_map] at hlength

theorem core_isTight : IsTight l.core := by
  have hkeyword := Text.isTight_of_forall l.keyword_isBlank
  have hne : l.keyword ≠ [] := List.ne_nil_of_length_pos (by rw [l.keyword_length]; decide)
  have htight := Text.isTight_append hne l.spells.ne_nil hkeyword l.spells.isTight
    (l.afterKeyword ++ (l.sign.text ++ (l.afterSign ++
      unit '\'' :: (l.body ++ unit '\'' :: l.afterBody))))
  simpa [core, List.append_assoc] using htight

theorem trim_text : l.text.trim = l.core := by
  obtain ⟨hbefore, -, -, -, hafter⟩ := l.blanks
  rw [text, Text.trim_blanks_append hbefore, Text.trim_append_blanks hafter,
    Text.trim_of_isTight l.core_isTight]

theorem takeSign_quote (s : Sign) {b : Text} (hb : IsBlanks b) (t : Text) :
    ∃ rest, Text.takeSign ((s.text ++ (b ++ unit '\'' :: t)).dropWhile Text.isBlank) =
      (s.isMinus, rest) ∧ rest.dropWhile Text.isBlank = unit '\'' :: t := by
  have hquote : (unit '\'' :: t).dropWhile Text.isBlank = unit '\'' :: t :=
    List.dropWhile_cons_of_neg (by decide)
  have hdrop : (b ++ unit '\'' :: t).dropWhile Text.isBlank = unit '\'' :: t := by
    rw [List.dropWhile_append_of_pos hb, hquote]
  cases s with
  | none => exact ⟨unit '\'' :: t, by rw [Sign.text, List.nil_append, hdrop]; rfl, hquote⟩
  | plus | minus => exact ⟨b ++ unit '\'' :: t, rfl, hdrop⟩

theorem parts?_core : parts? l.core =
    some ⟨l.sign.isMinus, l.body, l.qualifier.words.map Text.ofString⟩ := by
  obtain ⟨-, hkeyword, hsign, hbody, -⟩ := l.blanks
  obtain ⟨rest, htake, hrest⟩ := takeSign_quote l.sign hsign
    (l.body ++ unit '\'' :: (l.afterBody ++ l.name))
  have hname : l.name.dropWhile Text.isBlank = l.name :=
    Text.dropWhile_eq_self l.spells.isTight.1
  have hclosed : ∀ u ∈ l.body, u ≠ unit '\'' := fun u hu h => l.body_closed (h ▸ hu)
  have hword : (("INTERVAL" : Text)).length = l.keyword.length := l.keyword_length.symm
  rw [core, parts?]
  simp only [hword, List.take_left, List.drop_left, l.keyword_upper, bne_self_eq_false,
    blanks?_append l.gaps.1 hkeyword, htake, hrest, Calendar.expect?_cons,
    span_quote hclosed, blanks?_append l.gaps.2 hbody, hname,
    qualifierWords?_spells l.spells l.named, Option.bind_eq_bind, Option.bind_some]
  rfl

theorem parse?_text (k : Qualifier) : parse? k l.text =
    (parseBody? l.qualifier l.body).map fun f => (l.qualifier, f.turned l.sign.isMinus) := by
  rw [parse?, l.trim_text, l.parts?_core]
  simp only [ofWords?_words, Option.bind_eq_bind, Option.bind_some]
  cases parseBody? l.qualifier l.body <;> rfl

theorem exists_text {t : Text} {p : Parts} {q : Qualifier} (h : parts? t.trim = some p)
    (hq : Qualifier.ofWords? p.words = some q) : ∃ l : FullLiteral, l.text = t := by
  obtain ⟨before, after, hbefore, hafter, ht⟩ := Text.exists_trim t
  have htight := Text.isTight_trim t
  generalize t.trim = s at h ht htight
  simp only [parts?, Option.bind_eq_bind] at h
  split at h
  next => cases h
  next hkeyword =>
    simp only [Option.bind_eq_some_iff, Option.pure_def, Option.some.injEq] at h
    obtain ⟨r, hr, u, hu, v, hv, w, hw, ws, hws, rfl⟩ := h
    obtain ⟨afterKeyword, hgap, hblanks, hkeywordSplit, -⟩ := exists_blanks hr
    obtain ⟨sign, hsign, -⟩ := exists_sign r
    have hquote := Calendar.eq_cons_of_expect? hu
    have hquote' := Calendar.eq_cons_of_expect? hv
    rw [List.span_eq_takeWhile_dropWhile] at hquote'
    obtain ⟨afterBody, hgap', hblanks', hbodySplit, hfirst⟩ := exists_blanks hw
    -- the text is put together again from its parts, the last cut first
    have hsplit : s.take 8 ++ (afterKeyword ++ (sign.text ++
        (r.takeSign.2.takeWhile Text.isBlank ++ unit '\'' :: (u.takeWhile (· != unit '\'') ++
          unit '\'' :: (afterBody ++ w))))) = s := by
      rw [hbodySplit, ← hquote', List.takeWhile_append_dropWhile, ← hquote,
        List.takeWhile_append_dropWhile, hsign, hkeywordSplit]
      exact List.take_append_drop 8 s
    have hlast : ∀ u, w.getLast? = some u → Text.isBlank u = false := by
      intro u hu
      refine htight.2 u ?_
      rw [← hsplit]
      simp [List.getLast?_append, List.getLast?_cons, hu]
    obtain ⟨hspells, hnamed⟩ := spells_of_qualifierWords? hws hfirst hlast
    let l : FullLiteral :=
      { before, afterKeyword, sign, afterBody, after
        keyword := s.take 8
        afterSign := r.takeSign.2.takeWhile Text.isBlank
        body := u.takeWhile (· != unit '\'')
        words := splitWords w
        name := w
        qualifier := q
        keyword_upper := bne_eq_false_iff_eq.1 (Bool.eq_false_of_not_eq_true hkeyword)
        body_closed := fun h => by simpa using List.mem_takeWhile_imp h
        spells := hspells
        named := hnamed.trans (words_of_ofWords? hq)
        gaps := ⟨hgap, hgap'⟩
        blanks := ⟨hbefore, hblanks, fun u hu => List.mem_takeWhile_imp hu, hblanks', hafter⟩ }
    refine ⟨l, ?_⟩
    rw [← ht, ← hsplit]
    rfl

end FullLiteral

namespace IntervalFields

variable {t : Text}

theorem magnitudes?_of_number? (q : Qualifier) (h : number? t = none) :
    magnitudes? q t = none := by
  cases q <;> simp [magnitudes?, lastNumber?, lastSeconds?, h]

theorem number?_of_letter {u : UInt16} (hu : Text.isAsciiLetter u = true) (t : Text) :
    number? (u :: t) = none := by
  have hdigit : Text.isDigit u = false := by
    simp only [Text.isAsciiLetter, Bool.or_eq_true, Bool.and_eq_true, decide_eq_true_eq] at hu
    simp only [Text.isDigit, Bool.and_eq_false_iff, decide_eq_false_iff_not]
    omega
  simp [number?, Text.spanDigits, List.span_eq_takeWhile_dropWhile, hdigit]

theorem exists_letter_of_parts? {p : Parts} (h : parts? t = some p) :
    ∃ u rest, t = u :: rest ∧ Text.isAsciiLetter u = true := by
  simp only [parts?] at h
  split at h
  next => cases h
  next hkeyword =>
    have hupper := bne_eq_false_iff_eq.1 (Bool.eq_false_of_not_eq_true hkeyword)
    cases t with
    | nil => cases hupper
    | cons u rest =>
      refine ⟨u, rest, rfl, Text.isAsciiLetter_of_upper ?_⟩
      rw [(List.cons.inj hupper).1]
      decide

/-- What begins with the keyword is no body. -/
theorem parseBody?_of_parts? {p : Parts} (k : Qualifier) (h : parts? t.trim = some p) :
    parseBody? k t = none := by
  obtain ⟨u, rest, hs, hu⟩ := exists_letter_of_parts? h
  have hunsigned : Text.takeSign t.trim = (false, t.trim) := by
    refine takeSign_unsigned fun v hv => ?_
    rw [hs] at hv
    cases hv
    constructor <;> rintro rfl <;> exact absurd hu (by decide)
  have hnumber : number? t.trim = none := by
    rw [hs]
    exact number?_of_letter hu rest
  rw [parseBody?, hunsigned]
  simp [Text.trim_trim, magnitudes?_of_number? k hnumber]

theorem parse?_of_no_literal (k : Qualifier) (h : ∀ l : FullLiteral, l.text ≠ t) :
    parse? k t = (parseBody? k t).map fun f => (k, f) := by
  cases hparts : parts? t.trim with
  | none => rw [parse?, hparts]
  | some p =>
    rw [parseBody?_of_parts? k hparts, parse?, hparts]
    cases hq : Qualifier.ofWords? p.words with
    | none => simp [hq]
    | some q =>
      obtain ⟨l, hl⟩ := FullLiteral.exists_text hparts hq
      exact absurd hl (h l)

end IntervalFields

end Datum
