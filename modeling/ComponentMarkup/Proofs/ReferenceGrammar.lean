/-
  How character references are written.

  * `Text.IsNumeral`: digits of a base as they are written, with the number they stand for;
    `Text.readUnsigned?_iff`: what is read as a number.
  * `Names`: the bodies of references. A number may have one of the given signs before it.
  * `Decodes`: text with its references replaced, from left to right.
  * `decodeReferences_iff`: decoding replaces the references in which a number can have a plus sign.
    In a text without such signs, these are the references with plain numbers.
  * `decodeReferences_plus_sign`: a number with a sign.
-/
import Mathlib.Data.Nat.Digits.Lemmas
import ComponentMarkup.Proofs.Escaping
import ComponentMarkup.Proofs.ReadingOn

namespace ComponentMarkup

/-! ## Numbers -/

namespace Text

/-- The digits in the order of their values, each in all its forms. -/
def digitForms : List (List Char) :=
  [['0'], ['1'], ['2'], ['3'], ['4'], ['5'], ['6'], ['7'], ['8'], ['9'],
    ['a', 'A'], ['b', 'B'], ['c', 'C'], ['d', 'D'], ['e', 'E'], ['f', 'F']]

/-- A digit of a base, with its value. -/
def IsDigit (base : Nat) (c : Char) (n : Nat) : Prop :=
  n < base ∧ ∃ forms, digitForms[n]? = some forms ∧ c ∈ forms

/-- One or more digits, the first of which has the highest place, and their number. -/
def IsNumeral (base : Nat) (cs : List Char) (n : Nat) : Prop :=
  cs ≠ [] ∧ ∃ values, List.Forall₂ (IsDigit base) cs values ∧ n = Nat.ofDigits base values.reverse

variable {base n : Nat} {c : Char} {cs : List Char}

theorem toNat_le_of_le {a b : Char} (h : a ≤ b) : a.toNat ≤ b.toNat :=
  UInt32.le_iff_toNat_le.1 (Char.le_def.1 h)

/-- The forms of a value that is counted from the first character of a range. -/
theorem exists_forms_of_range {first last : Char} (value : Nat) (hlow : first ≤ c)
    (hhigh : c ≤ last) (hforms : ∀ k ≤ last.toNat - first.toNat,
      ∃ forms, digitForms[k + value]? = some forms ∧ Char.ofNat (first.toNat + k) ∈ forms) :
    ∃ forms, digitForms[c.toNat - first.toNat + value]? = some forms ∧ c ∈ forms := by
  have hlow := toNat_le_of_le hlow
  have hhigh := toNat_le_of_le hhigh
  obtain ⟨forms, hget, hmem⟩ := hforms (c.toNat - first.toNat) (by omega)
  rw [Nat.add_sub_cancel' hlow, Char.ofNat_toNat] at hmem
  exact ⟨forms, hget, hmem⟩

-- with `∀ c ∈ entry.1`, every character there is would be tried
theorem digitValue?_of_mem :
    ∀ entry ∈ digitForms.zipIdx, entry.1.all (digitValue? 16 · = some entry.2) := by
  decide

/-- A digit has the same value in each base that it belongs to. -/
theorem digitValue?_of_lt (h : digitValue? 16 c = some n) (hn : n < base) :
    digitValue? base c = some n := by
  simp only [digitValue?, Option.ite_none_right_eq_some, Option.some_inj] at h ⊢
  split_ifs at h ⊢ <;> omega

theorem digitValue?_iff : digitValue? base c = some n ↔ IsDigit base c n := by
  constructor
  · intro h
    simp only [digitValue?, Option.ite_none_right_eq_some, Option.some_inj] at h
    obtain ⟨hn, rfl⟩ := h
    refine ⟨hn, ?_⟩
    by_cases hdigit : '0' ≤ c ∧ c ≤ '9'
    · rw [if_pos hdigit]
      exact exists_forms_of_range 0 hdigit.1 hdigit.2 (by decide)
    rw [if_neg hdigit] at hn ⊢
    by_cases hsmall : 'a' ≤ c ∧ c ≤ 'f'
    · rw [if_pos hsmall]
      exact exists_forms_of_range 10 hsmall.1 hsmall.2 (by decide)
    rw [if_neg hsmall] at hn ⊢
    by_cases hcapital : 'A' ≤ c ∧ c ≤ 'F'
    · rw [if_pos hcapital]
      exact exists_forms_of_range 10 hcapital.1 hcapital.2 (by decide)
    · -- a character of no range has the base as its value, which is too high
      rw [if_neg hcapital] at hn
      exact absurd hn (Nat.lt_irrefl _)
  · rintro ⟨hn, forms, hforms, hc⟩
    have hmem : (forms, n) ∈ digitForms.zipIdx := List.mem_zipIdx_iff_getElem?.2 hforms
    have hvalue := List.all_eq_true.1 (digitValue?_of_mem _ hmem) c hc
    exact digitValue?_of_lt (of_decide_eq_true hvalue) hn

theorem readDigitsAfter?_iff (acc : Nat) :
    readDigitsAfter? base acc cs = some n ↔ ∃ values, List.Forall₂ (IsDigit base) cs values ∧
      n = Nat.ofDigits base values.reverse + base ^ values.length * acc := by
  induction cs generalizing acc with
  | nil => simp [readDigitsAfter?, eq_comm]
  | cons c cs ih =>
    have hvalue (d : Nat) (values : List Nat) :
        Nat.ofDigits base (d :: values).reverse + base ^ (d :: values).length * acc =
          Nat.ofDigits base values.reverse + base ^ values.length * (acc * base + d) := by
      rw [List.reverse_cons, Nat.ofDigits_append, Nat.ofDigits_singleton, List.length_reverse,
        List.length_cons]
      ring
    rw [readDigitsAfter?]
    constructor
    · intro h
      split at h
      next d hd =>
        obtain ⟨values, hvalues, rfl⟩ := (ih _).1 h
        exact ⟨d :: values, .cons (digitValue?_iff.1 hd) hvalues, (hvalue d values).symm⟩
      next => cases h
    · rintro ⟨_, hall, rfl⟩
      obtain ⟨d, values, hd, hvalues, rfl⟩ := List.forall₂_cons_left_iff.1 hall
      rw [digitValue?_iff.2 hd]
      exact (ih _).2 ⟨values, hvalues, hvalue d values⟩

theorem readDigits?_iff : readDigits? base cs = some n ↔ IsNumeral base cs n := by
  cases cs with
  | nil => simp [readDigits?, IsNumeral]
  | cons c cs =>
    have hafter : readDigits? base (c :: cs) = readDigitsAfter? base 0 (c :: cs) := rfl
    rw [hafter, readDigitsAfter?_iff]
    simp [IsNumeral]

theorem IsNumeral.head_ne (h : IsNumeral base (c :: cs) n) : c ≠ '+' ∧ c ≠ 'x' ∧ c ≠ 'X' := by
  obtain ⟨-, _, hall, -⟩ := h
  obtain ⟨_, _, ⟨-, forms, hforms, hc⟩, -⟩ := List.forall₂_cons_left_iff.1 hall
  have hfree : ∀ forms ∈ digitForms, '+' ∉ forms ∧ 'x' ∉ forms ∧ 'X' ∉ forms := by decide
  obtain ⟨hplus, hx, hcapital⟩ := hfree forms (List.mem_of_getElem? hforms)
  exact ⟨fun h => hplus (h ▸ hc), fun h => hx (h ▸ hc), fun h => hcapital (h ▸ hc)⟩

/-- **A number** is a numeral, and it may have a plus sign before it. -/
theorem readUnsigned?_iff : readUnsigned? base cs = some n ↔
    ∃ sign ∈ [[], ['+']], ∃ digits, cs = sign ++ digits ∧ IsNumeral base digits n := by
  constructor
  · intro h
    unfold readUnsigned? at h
    split at h
    next digits => exact ⟨['+'], by simp, digits, rfl, readDigits?_iff.1 h⟩
    next => exact ⟨[], by simp, cs, rfl, readDigits?_iff.1 h⟩
  · rintro ⟨sign, hsign, digits, rfl, h⟩
    rw [List.mem_pair] at hsign
    rcases hsign with rfl | rfl
    · rw [List.nil_append]
      unfold readUnsigned?
      split
      next => exact absurd rfl h.head_ne.1
      next => exact readDigits?_iff.2 h
    · exact readDigits?_iff.2 h

end Text

namespace Markup

/-! ## References -/

/-- The names of characters. -/
def namedCharacters : List (List Char × Char) :=
  [(['a', 'm', 'p'], '&'), (['l', 't'], '<'), (['g', 't'], '>'), (['q', 'u', 'o', 't'], '"'),
    (['a', 'p', 'o', 's'], '\''), (['n', 'b', 's', 'p'], '\u00a0')]

/-- The body of a reference names a character: by its name, or by its number after `#` or `#x`. One
of the given signs may stand before the number. -/
inductive Names (signs : List (List Char)) : List Char → Char → Prop
  | named {name c} : (name, c) ∈ namedCharacters → Names signs name c
  | decimal {sign digits c} : sign ∈ signs → Text.IsNumeral 10 digits c.toNat →
      Names signs ('#' :: (sign ++ digits)) c
  | hexadecimal {x sign digits c} : x = 'x' ∨ x = 'X' → sign ∈ signs →
      Text.IsNumeral 16 digits c.toNat → Names signs ('#' :: x :: (sign ++ digits)) c

/-- The text up to the next `;` is a body of at most eight characters that names `c`. -/
def IsReference (names : List Char → Char → Prop) (cs : List Char) (c : Char)
    (after : List Char) : Prop :=
  ∃ body, cs = body ++ ';' :: after ∧ ';' ∉ body ∧ body.length ≤ 8 ∧ names body c

/-- What text becomes from left to right. Each `&` with a reference after it is replaced together
with that; all other characters are copied. -/
inductive Decodes (names : List Char → Char → Prop) : List Char → List Char → Prop
  | nil : Decodes names [] []
  | copied {c cs out} : c ≠ '&' → Decodes names cs out → Decodes names (c :: cs) (c :: out)
  | replaced {cs after c out} : IsReference names cs c after → Decodes names after out →
      Decodes names ('&' :: cs) (c :: out)
  | kept {cs out} : (∀ c after, ¬ IsReference names cs c after) → Decodes names cs out →
      Decodes names ('&' :: cs) ('&' :: out)

theorem Names.mono {signs signs' : List (List Char)} {body : List Char} {c : Char}
    (h : Names signs body c) (hsub : signs ⊆ signs') : Names signs' body c := by
  cases h with
  | named h => exact .named h
  | decimal hsign hnumeral => exact .decimal (hsub hsign) hnumeral
  | hexadecimal hx hsign hnumeral => exact .hexadecimal hx (hsub hsign) hnumeral

section
variable {n : Nat} {c : Char} {cs body digits after raw out : List Char}

theorem scalar?_iff : scalar? n = some c ↔ c.toNat = n := by
  rw [scalar?, Option.ite_none_right_eq_some, Option.some_inj]
  constructor
  · rintro ⟨hvalid, rfl⟩
    rw [Char.ofNat, dif_pos hvalid]
    rfl
  · rintro rfl
    exact ⟨c.valid, Char.ofNat_toNat c⟩

theorem readUnsigned?_bind_iff {base : Nat} :
    (Text.readUnsigned? base cs).bind scalar? = some c ↔
      ∃ sign ∈ [[], ['+']], ∃ digits, cs = sign ++ digits ∧ Text.IsNumeral base digits c.toNat := by
  rw [← Text.readUnsigned?_iff, Option.bind_eq_some_iff]
  simp only [scalar?_iff, exists_eq_right']

theorem referent?_decimal (h : ∀ rest, digits ≠ 'x' :: rest ∧ digits ≠ 'X' :: rest) :
    referent? ('#' :: digits) = (Text.readUnsigned? 10 digits).bind scalar? := by
  rw [referent?.eq_3 digits (fun rest => (h rest).1) fun rest => (h rest).2]

/-- **The bodies that name a character** are those of the grammar with an optional plus sign. -/
theorem referent?_iff : referent? body = some c ↔ Names [[], ['+']] body c := by
  constructor
  · intro h
    unfold referent? at h
    split at h
    next digits =>
      obtain ⟨sign, hsign, digits, rfl, hnumeral⟩ := readUnsigned?_bind_iff.1 h
      exact .hexadecimal (.inl rfl) hsign hnumeral
    next digits =>
      obtain ⟨sign, hsign, digits, rfl, hnumeral⟩ := readUnsigned?_bind_iff.1 h
      exact .hexadecimal (.inr rfl) hsign hnumeral
    next digits _ _ =>
      obtain ⟨sign, hsign, digits, rfl, hnumeral⟩ := readUnsigned?_bind_iff.1 h
      exact .decimal hsign hnumeral
    iterate 6
      next =>
        cases h
        exact .named (by decide)
    next => cases h
  · intro h
    cases h with
    | named h =>
      simp only [namedCharacters, List.mem_cons, List.not_mem_nil, or_false, Prod.mk.injEq] at h
      rcases h with ⟨rfl, rfl⟩ | ⟨rfl, rfl⟩ | ⟨rfl, rfl⟩ | ⟨rfl, rfl⟩ | ⟨rfl, rfl⟩ | ⟨rfl, rfl⟩ <;>
        rfl
    | @decimal sign digits _ hsign hnumeral =>
      have hhead (rest : List Char) :
          sign ++ digits ≠ 'x' :: rest ∧ sign ++ digits ≠ 'X' :: rest := by
        rw [List.mem_pair] at hsign
        rcases hsign with rfl | rfl
        · constructor <;> rintro rfl
          · exact hnumeral.head_ne.2.1 rfl
          · exact hnumeral.head_ne.2.2 rfl
        · constructor <;> rintro ⟨⟩
      rw [referent?_decimal hhead]
      exact readUnsigned?_bind_iff.2 ⟨_, hsign, _, rfl, hnumeral⟩
    | hexadecimal hx hsign hnumeral =>
      have hread := readUnsigned?_bind_iff.2 ⟨_, hsign, _, rfl, hnumeral⟩
      rcases hx with rfl | rfl <;> exact hread

/-- **A reference** is taken where one stands. -/
theorem takeReference?_iff :
    takeReference? cs = some (c, after) ↔ IsReference (Names [[], ['+']]) cs c after := by
  have hmax : maxReferenceLength + 1 = 9 := rfl
  rw [takeReference?, hmax]
  constructor
  · intro h
    split at h
    next body rest hcut =>
      obtain ⟨d, hd, he⟩ := Option.map_eq_some_iff.1 h
      cases he
      obtain ⟨htake, hfree⟩ := Text.cut?_singleton_iff.1 hcut
      have hbegins : body ++ [';'] <+: cs.take 9 := ⟨rest, by simpa using htake.symm⟩
      have hlength := hbegins.length_le
      rw [List.length_append, List.length_take, List.length_singleton] at hlength
      have hcs := List.prefix_iff_eq_append.1 (hbegins.trans (List.take_prefix 9 cs))
      rw [List.append_assoc, List.singleton_append, List.length_append] at hcs
      exact ⟨body, hcs.symm, hfree, by omega, referent?_iff.1 hd⟩
    next => cases h
  · rintro ⟨body, rfl, hfree, hlength, hnames⟩
    have hrest : 9 - body.length = 8 - body.length + 1 := by omega
    have hcut : Text.cut? [';'] ((body ++ ';' :: after).take 9) =
        some (body, after.take (8 - body.length)) := by
      rw [Text.cut?_singleton_iff, List.take_append, List.take_of_length_le (by omega), hrest,
        List.take_succ_cons]
      exact ⟨rfl, hfree⟩
    have hdrop : (body ++ ';' :: after).drop (body.length + 1) = after := by
      rw [← List.drop_drop, List.drop_left]
      rfl
    rw [hcut]
    simp only
    rw [referent?_iff.2 hnames, Option.map_some, hdrop]

/-! ## Decoding -/

theorem decodeReferences_kept (h : takeReference? cs = none) :
    decodeReferences ('&' :: cs) = '&' :: decodeReferences cs := by
  rw [decodeReferences, if_pos rfl]
  split
  next h' => rw [h] at h'; cases h'
  next => rfl

theorem takeReference?_eq_none_iff :
    takeReference? cs = none ↔ ∀ c after, ¬ IsReference (Names [[], ['+']]) cs c after := by
  simp only [← takeReference?_iff, Option.eq_none_iff_forall_ne_some, Prod.forall, Ne]

/-- **Decoding replaces the references**, in whose numbers a plus sign may stand. -/
theorem decodeReferences_eq_iff :
    decodeReferences raw = out ↔ Decodes (Names [[], ['+']]) raw out := by
  constructor
  · rintro rfl
    fun_induction decodeReferences raw with
    | case1 => exact .nil
    | case2 cs c after htake ih => exact .replaced (takeReference?_iff.1 htake) ih
    | case3 cs htake ih => exact .kept (takeReference?_eq_none_iff.1 htake) ih
    | case4 c cs hc ih => exact .copied hc ih
  · intro h
    induction h with
    | nil => exact decodeReferences_nil
    | copied hc _ ih => rw [decodeReferences_cons_of_ne hc, ih]
    | replaced href _ ih => rw [decodeReferences_reference (takeReference?_iff.2 href), ih]
    | kept hnone _ ih => rw [decodeReferences_kept (takeReference?_eq_none_iff.2 hnone), ih]

/-- Only the references that stand in the text count. -/
theorem Decodes.of_agree {names names' : List Char → Char → Prop} (h : Decodes names raw out)
    (hagree : ∀ cs, '&' :: cs <:+ raw →
      ∀ c after, IsReference names cs c after ↔ IsReference names' cs c after) :
    Decodes names' raw out := by
  induction h with
  | nil => exact .nil
  | copied hc _ ih =>
    exact .copied hc (ih fun cs hcs => hagree cs (hcs.trans (List.suffix_cons _ _)))
  | @replaced cs after c out href _ ih =>
    have hsuffix : after <:+ '&' :: cs := by
      obtain ⟨body, rfl, -⟩ := href
      exact ⟨'&' :: (body ++ [';']), by simp⟩
    exact .replaced ((hagree cs (List.suffix_refl _) c after).1 href)
      (ih fun cs hcs => hagree cs (hcs.trans hsuffix))
  | @kept cs out hnone _ ih =>
    refine .kept (fun c after href => hnone c after ?_)
      (ih fun cs hcs => hagree cs (hcs.trans (List.suffix_cons _ _)))
    exact (hagree cs (List.suffix_refl _) c after).2 href

/-- How references begin that have a sign before the number. -/
def signMarks : List (List Char) := [['&', '#', '+'], ['&', '#', 'x', '+'], ['&', '#', 'X', '+']]

theorem isReference_iff_of_suffix (hmarks : ∀ mark ∈ signMarks, ¬ mark <:+: raw)
    (hsuffix : '&' :: cs <:+ raw) :
    IsReference (Names [[], ['+']]) cs c after ↔ IsReference (Names [[]]) cs c after := by
  constructor
  · rintro ⟨body, rfl, hfree, hlength, hnames⟩
    refine ⟨body, rfl, hfree, hlength, ?_⟩
    have hnot (mark : List Char) (hmark : mark ∈ signMarks) :
        ¬ mark <+: '&' :: (body ++ ';' :: after) := fun h =>
      hmarks mark hmark (h.isInfix.trans hsuffix.isInfix)
    cases hnames with
    | named h => exact .named h
    | decimal hsign hnumeral =>
      rw [List.mem_pair] at hsign
      rcases hsign with rfl | rfl
      · exact .decimal (List.mem_singleton_self _) hnumeral
      · exact absurd ⟨_, rfl⟩ (hnot ['&', '#', '+'] (by simp [signMarks]))
    | hexadecimal hx hsign hnumeral =>
      rw [List.mem_pair] at hsign
      rcases hsign with rfl | rfl
      · exact .hexadecimal hx (List.mem_singleton_self _) hnumeral
      · rcases hx with rfl | rfl
        · exact absurd ⟨_, rfl⟩ (hnot ['&', '#', 'x', '+'] (by simp [signMarks]))
        · exact absurd ⟨_, rfl⟩ (hnot ['&', '#', 'X', '+'] (by simp [signMarks]))
  · rintro ⟨body, rfl, hfree, hlength, hnames⟩
    exact ⟨body, rfl, hfree, hlength, hnames.mono (by simp)⟩

/-- **Decoding replaces the references from left to right.** A number may have a plus sign before
it. In text without such signs, the references are the ones with plain numbers. -/
theorem decodeReferences_iff (raw out : List Char) :
    (decodeReferences raw = out ↔ Decodes (Names [[], ['+']]) raw out) ∧
    ((∀ mark ∈ signMarks, ¬ mark <:+: raw) →
      (decodeReferences raw = out ↔ Decodes (Names [[]]) raw out)) := by
  refine ⟨decodeReferences_eq_iff, fun hmarks => ?_⟩
  refine decodeReferences_eq_iff.trans ⟨fun h => ?_, fun h => ?_⟩
  · exact h.of_agree fun cs hcs c after => isReference_iff_of_suffix hmarks hcs
  · exact h.of_agree fun cs hcs c after => (isReference_iff_of_suffix hmarks hcs).symm

end

/-- A text in which one reference is replaced, and another one kept since it names nothing. -/
theorem decodeReferences_iff_dash :
    (∀ mark ∈ signMarks, ¬ mark <:+: ['&', '#', 'x', '2', 'D', ';', '&', '#', ';']) ∧
    Decodes (Names [[]]) ['&', '#', 'x', '2', 'D', ';', '&', '#', ';'] ['-', '&', '#', ';'] := by
  have hmarks : ∀ mark ∈ signMarks,
      ¬ mark <:+: ['&', '#', 'x', '2', 'D', ';', '&', '#', ';'] := by decide
  exact ⟨hmarks, ((decodeReferences_iff _ _).2 hmarks).1 (by decide +kernel)⟩

/-- A sign is not the beginning of a plain number. -/
theorem not_isReference_plus_sign (cs : List Char) (c : Char) (after : List Char) :
    ¬ IsReference (Names [[]]) ('#' :: '+' :: cs) c after := by
  rintro ⟨body, hbody, -, -, hnames⟩
  cases hnames with
  | named h =>
    have hall : ∀ entry ∈ namedCharacters, entry.1 ≠ [] ∧ entry.1.head? ≠ some '#' := by decide
    obtain ⟨hne, hhead⟩ := hall _ h
    have hfirst := congrArg List.head? hbody
    rw [List.head?_append_of_ne_nil _ hne] at hfirst
    exact hhead hfirst.symm
  | @decimal sign digits _ hsign hnumeral =>
    obtain rfl := List.mem_singleton.1 hsign
    obtain ⟨d, ds, rfl⟩ := List.exists_cons_of_ne_nil hnumeral.1
    injection hbody with _ hbody
    injection hbody with hd _
    exact hnumeral.head_ne.1 hd.symm
  | hexadecimal hx =>
    injection hbody with _ hbody
    injection hbody with hd _
    rcases hx with rfl | rfl <;> cases hd

/-- A number with a sign before it is decoded, but no reference with a plain number. -/
theorem decodeReferences_plus_sign :
    let raw := ['&', '#', '+', '6', '5', ';']
    decodeReferences raw = ['A'] ∧ ¬ Decodes (Names [[]]) raw (decodeReferences raw) ∧
    Decodes (Names [[]]) raw raw := by
  intro raw
  have hdecode : decodeReferences raw = ['A'] := by decide +kernel
  have hnone := not_isReference_plus_sign ['6', '5', ';']
  have hnot : ¬ Decodes (Names [[]]) ['&', '#', '+', '6', '5', ';'] ['A'] := by
    intro h
    cases h with
    | replaced href => exact hnone _ _ href
  refine ⟨hdecode, hdecode ▸ hnot, .kept hnone ?_⟩
  exact .copied (by decide) (.copied (by decide) (.copied (by decide) (.copied (by decide)
    (.copied (by decide) .nil))))

end Markup

end ComponentMarkup
