/-
  The full lowercase of texts.

  * `lettersFrom`, `lettersIn`: sets of letters as numbers, so that the tables can be compared
    (`tables_agree`).
  * `lowercase_asciiLower`: a text and the same text with its ASCII capitals lowered have the same
    full lowercase, final sigmas included.
  * `IsLower`: texts in small letters. They are their own lowercase (`lowercase_of_isLower`), and
    stay where they are when the text around them is lowered (`infix_lowercase`).
  * `isLower_lowercase`: no letter is moved twice, so a lowered text is in small letters, and
    lowering it again does not change it (`lowercase_lowercase`).
  * `lowerChar_of_not_isAlphanumeric`: only letters are moved.
-/
import ComponentMarkup.Text.Alphabetic
import ComponentMarkup.Text.Case

namespace ComponentMarkup.Text

/-! ## Sets of letters

The tables are too long to compare their runs two by two. A set of letters is a number instead, in
which the binary digits at their places are one, so that two sets are compared by one operation. -/

variable {c d : Char} {table : CharTable} {sets : List Nat} {first step count n : Nat}

/-- The number that has `count` digits that are one, `step` apart. -/
def digitsApart (step count : Nat) : Nat := (1 <<< (step * count) - 1) / (1 <<< step - 1)

/-- The set of `count` letters that are `step` apart. -/
def lettersFrom (first step count : Nat) : Nat := digitsApart step count <<< first

/-- The letters of several sets. -/
def lettersOf (sets : List Nat) : Nat := sets.foldr (· ||| ·) 0

/-- The letters of a table. -/
def lettersIn (table : CharTable) : Nat :=
  lettersOf (table.map fun range => lettersFrom range.1 1 (range.2 + 1 - range.1))

theorem one_shiftLeft_pos (n : Nat) : 0 < 1 <<< n := by
  rw [Nat.one_shiftLeft]
  exact Nat.two_pow_pos n

theorem digitsApart_lt (step count : Nat) : digitsApart step count < 1 <<< (step * count) := by
  have := one_shiftLeft_pos (step * count)
  have := Nat.div_le_self (1 <<< (step * count) - 1) (1 <<< step - 1)
  rw [digitsApart]
  omega

theorem digitsApart_succ (hstep : 0 < step) (count : Nat) :
    digitsApart step (count + 1) = 1 <<< (step * count) + digitsApart step count := by
  have hpos : 0 < 1 <<< step - 1 := by
    have := Nat.one_lt_two_pow (Nat.ne_of_gt hstep)
    rw [Nat.one_shiftLeft]
    omega
  have hmul : 1 <<< (step * (count + 1)) = 1 <<< (step * count) * 1 <<< step := by
    rw [Nat.one_shiftLeft, Nat.one_shiftLeft, Nat.one_shiftLeft, ← Nat.pow_add, Nat.mul_succ]
  have hsum : 1 <<< (step * (count + 1)) - 1 =
      (1 <<< (step * count) - 1) + 1 <<< (step * count) * (1 <<< step - 1) := by
    have := one_shiftLeft_pos (step * count)
    have := Nat.le_mul_of_pos_right (1 <<< (step * count)) (one_shiftLeft_pos step)
    rw [hmul, Nat.mul_sub_one]
    omega
  rw [digitsApart, hsum, Nat.add_mul_div_right _ _ hpos, Nat.add_comm, ← digitsApart]

theorem lettersFrom_succ (hstep : 0 < step) (first count : Nat) :
    lettersFrom first step (count + 1) =
      lettersFrom first step count ||| 1 <<< (first + step * count) := by
  -- the other letters are digits below the last one
  have hor := Nat.two_pow_add_eq_or_of_lt (Nat.one_shiftLeft _ ▸ digitsApart_lt step count) 1
  rw [Nat.mul_one, ← Nat.one_shiftLeft, ← digitsApart_succ hstep] at hor
  rw [lettersFrom, hor, Nat.or_comm, Nat.shiftLeft_or_distrib, ← lettersFrom, ← Nat.shiftLeft_add,
    Nat.add_comm first]

theorem testBit_lettersFrom (hstep : 0 < step) :
    (lettersFrom first step count).testBit n = true ↔ ∃ i < count, n = first + step * i := by
  induction count with
  | zero => simp [lettersFrom, digitsApart]
  | succ count ih =>
    rw [lettersFrom_succ hstep, Nat.testBit_or, Bool.or_eq_true, ih, Nat.one_shiftLeft,
      Nat.testBit_two_pow, decide_eq_true_eq, Nat.exists_lt_succ_right, eq_comm (b := n)]

theorem testBit_lettersOf :
    (lettersOf sets).testBit n = true ↔ ∃ set ∈ sets, set.testBit n = true := by
  induction sets with
  | nil => simp [lettersOf]
  | cons set sets ih =>
    rw [lettersOf, List.foldr_cons, ← lettersOf, Nat.testBit_or, Bool.or_eq_true, ih]
    simp

theorem testBit_lettersIn :
    (lettersIn table).testBit c.toNat = true ↔ table.has c = true := by
  rw [lettersIn, testBit_lettersOf, CharTable.has_iff]
  constructor
  · rintro ⟨set, hset, hc⟩
    obtain ⟨range, hrange, rfl⟩ := List.mem_map.1 hset
    obtain ⟨i, hi, hc⟩ := (testBit_lettersFrom Nat.one_pos).1 hc
    exact ⟨range, hrange, by omega, by omega⟩
  · rintro ⟨range, hrange, hfirst, hlast⟩
    refine ⟨_, List.mem_map_of_mem hrange, (testBit_lettersFrom Nat.one_pos).2 ?_⟩
    exact ⟨c.toNat - range.1, by omega, by omega⟩

/-- The letters that lowering moves. -/
def movedLetters : Nat :=
  lettersOf (lowerRuns.map fun run =>
    lettersFrom run.first run.step ((run.last - run.first) / run.step + 1))

/-- What the letters that lowering moves become. -/
def smallLetters : Nat :=
  lettersOf (lowerRuns.map fun run =>
    lettersFrom (Int.ofNat run.first + run.shift).toNat run.step
      ((run.last - run.first) / run.step + 1))

/-- The letters of ASCII. -/
def asciiLetters : Nat := lettersOf [lettersFrom 65 1 26, lettersFrom 97 1 26]

/-- All that has to be checked of the tables. -/
theorem tables_agree :
    asciiLetters &&& lettersIn caseIgnorableTable = 0 ∧
    (∀ run ∈ lowerRuns, 0 < run.step ∧ 0 ≤ Int.ofNat run.first + run.shift) ∧
    smallLetters &&& movedLetters = 0 ∧
    movedLetters &&& lettersIn alphabeticTable = movedLetters ∧
    smallLetters % 1 <<< 128 = 1 <<< 107 ∧ smallLetters.testBit 0x130 = false := by
  decide +kernel

theorem testBit_of_apart {a b : Nat} (hapart : a &&& b = 0) (h : a.testBit n = true) :
    b.testBit n = false := by
  have hboth := congrArg (Nat.testBit · n) hapart
  rwa [Nat.testBit_and, h, Bool.true_and, Nat.zero_testBit] at hboth

/-! ## ASCII capitals -/

theorem toLower_cases (c : Char) :
    c.toLower = c ∨ 65 ≤ c.toNat ∧ c.toNat ≤ 90 ∧ c.toLower.toNat = c.toNat + 32 := by
  refine (toLower_eq_self_or c).imp_right ?_
  rintro ⟨n, hn, rfl⟩
  revert n
  decide

theorem toLower_toLower (c : Char) : c.toLower.toLower = c.toLower := by
  rcases toLower_cases c with h | ⟨hfirst, hlast, hsmall⟩
  · rw [h, h]
  · rcases toLower_cases c.toLower with h | ⟨-, hlast', -⟩
    · exact h
    · omega

theorem lowerChar_toLower (c : Char) : lowerChar c.toLower = lowerChar c := by
  rcases toLower_cases c with h | ⟨hfirst, hlast, hsmall⟩
  · rw [h]
  · rw [lowerChar, if_pos (by omega), lowerChar, if_pos (by omega), toLower_toLower]

theorem has_casedTable_toLower (c : Char) : casedTable.has c.toLower = casedTable.has c := by
  rcases toLower_cases c with h | ⟨hfirst, hlast, hsmall⟩
  · rw [h]
  · -- the first two ranges are the letters of ASCII
    have hcapital : casedTable.has c = true :=
      CharTable.has_iff.2 ⟨_, .head _, hfirst, hlast⟩
    have hletter : casedTable.has c.toLower = true :=
      CharTable.has_iff.2 ⟨_, .tail _ (.head _), by omega, by omega⟩
    rw [hcapital, hletter]

theorem not_caseIgnorable (h : 65 ≤ c.toNat ∧ c.toNat ≤ 90 ∨ 97 ≤ c.toNat ∧ c.toNat ≤ 122) :
    caseIgnorableTable.has c = false := by
  have hletter : asciiLetters.testBit c.toNat = true := by
    refine testBit_lettersOf.2 ?_
    rcases h with ⟨hfirst, hlast⟩ | ⟨hfirst, hlast⟩
    · refine ⟨_, .head _, (testBit_lettersFrom Nat.one_pos).2 ?_⟩
      exact ⟨c.toNat - 65, by omega, by omega⟩
    · refine ⟨_, .tail _ (.head _), (testBit_lettersFrom Nat.one_pos).2 ?_⟩
      exact ⟨c.toNat - 97, by omega, by omega⟩
  rw [← Bool.not_eq_true, ← testBit_lettersIn, Bool.not_eq_true]
  exact testBit_of_apart tables_agree.1 hletter

theorem has_caseIgnorableTable_toLower (c : Char) :
    caseIgnorableTable.has c.toLower = caseIgnorableTable.has c := by
  rcases toLower_cases c with h | ⟨hfirst, hlast, hsmall⟩
  · rw [h]
  · rw [not_caseIgnorable (.inl ⟨hfirst, hlast⟩), not_caseIgnorable (.inr (by omega))]

theorem toLower_eq_sigma_iff {c : Char} : c.toLower = 'Σ' ↔ c = 'Σ' := by
  rcases toLower_cases c with h | ⟨hfirst, hlast, hsmall⟩
  · rw [h]
  · have hsigma : 'Σ'.toNat = 931 := rfl
    constructor
    · intro h
      rw [h] at hsmall
      omega
    · rintro rfl
      omega

theorem casedNext_map_toLower (cs : List Char) :
    casedNext (cs.map Char.toLower) = casedNext cs := by
  have hignorable : caseIgnorableTable.has ∘ Char.toLower = caseIgnorableTable.has :=
    funext has_caseIgnorableTable_toLower
  unfold casedNext
  rw [List.dropWhile_map, hignorable]
  cases cs.dropWhile caseIgnorableTable.has with
  | nil => rfl
  | cons c rest => exact has_casedTable_toLower c

theorem lowerAfter_map_toLower (before cs : List Char) :
    lowerAfter (before.map Char.toLower) (cs.map Char.toLower) = lowerAfter before cs := by
  induction cs generalizing before with
  | nil => rfl
  | cons c cs ih =>
    have hrest := ih (c :: before)
    rw [List.map_cons] at hrest
    rw [List.map_cons, lowerAfter, lowerAfter, hrest, lowerChar_toLower, casedNext_map_toLower,
      casedNext_map_toLower]
    simp only [toLower_eq_sigma_iff]

/-- **ASCII capitals do not count for the full lowercase**, neither themselves nor for the form of a
sigma next to them. -/
@[simp] theorem lowercase_asciiLower (s : String) : lowercase (asciiLower s) = lowercase s := by
  rw [lowercase, asciiLower, String.toList_ofList]
  exact congrArg String.ofList (lowerAfter_map_toLower [] s.toList)

@[simp] theorem asciiLower_asciiLower (s : String) : asciiLower (asciiLower s) = asciiLower s := by
  rw [asciiLower, asciiLower, String.toList_ofList, List.map_map]
  exact congrArg String.ofList (List.map_congr_left fun c _ => toLower_toLower c)

/-! ## Texts in small letters -/

variable {sep cs : List Char} {separator s : String}

/-- Lowering keeps the characters of the text. -/
def IsLower (s : String) : Prop := ∀ c ∈ s.toList, lowerChar c = [c]

theorem isLower_hyphen : IsLower "-" := by
  rw [IsLower, show "-".toList = ['-'] from rfl, List.forall_mem_singleton]
  rfl

theorem exists_lowerAfter_append (before cs rest : List Char) :
    ∃ lowered,
      lowerAfter before (cs ++ rest) = lowered ++ lowerAfter (cs.reverse ++ before) rest := by
  induction cs generalizing before with
  | nil => exact ⟨[], rfl⟩
  | cons c cs ih =>
    obtain ⟨lowered, h⟩ := ih (c :: before)
    rw [List.cons_append, lowerAfter, h, List.reverse_cons, List.append_assoc cs.reverse,
      List.singleton_append, ← List.append_assoc]
    exact ⟨_, rfl⟩

theorem lowerAfter_append_of_lower (h : ∀ c ∈ sep, lowerChar c = [c]) (before rest : List Char) :
    lowerAfter before (sep ++ rest) = sep ++ lowerAfter (sep.reverse ++ before) rest := by
  induction sep generalizing before with
  | nil => rfl
  | cons c sep ih =>
    have hc : lowerChar c = [c] := h c List.mem_cons_self
    -- a capital sigma is never kept
    have hsigma : c ≠ 'Σ' := by
      rintro rfl
      exact absurd hc (by decide)
    rw [List.cons_append, lowerAfter, if_neg hsigma, hc,
      ih fun d hd => h d (List.mem_cons_of_mem c hd)]
    simp

/-- **A text in small letters stays where it is** when the text around it is lowered. -/
theorem infix_lowercase (hlower : IsLower separator) (h : separator.toList <:+: s.toList) :
    separator.toList <:+: (lowercase s).toList := by
  obtain ⟨before, after, hs⟩ := h
  rw [lowercase, String.toList_ofList, ← hs, List.append_assoc]
  obtain ⟨lowered, hbefore⟩ := exists_lowerAfter_append [] before (separator.toList ++ after)
  rw [hbefore, lowerAfter_append_of_lower hlower, ← List.append_assoc]
  exact ⟨_, _, rfl⟩

/-- A text in small letters is its own lowercase. -/
theorem lowercase_of_isLower (h : IsLower s) : lowercase s = s := by
  have hlower := lowerAfter_append_of_lower h [] []
  rw [List.append_nil, lowerAfter, List.append_nil] at hlower
  rw [lowercase, hlower, String.ofList_toList]

/-! ## Letters that are moved -/

theorem testBit_of_shifted? {run : CaseRun} {m n : Nat} (hrun : run ∈ lowerRuns)
    (h : run.shifted? m = some n) :
    movedLetters.testBit m = true ∧ smallLetters.testBit n = true := by
  obtain ⟨-, hruns, -⟩ := tables_agree
  obtain ⟨hstep, hshift⟩ := hruns run hrun
  unfold CaseRun.shifted? at h
  split at h
  next hm =>
    cases h
    obtain ⟨hfirst, hlast, hmod⟩ := hm
    have hcount : (m - run.first) / run.step < (run.last - run.first) / run.step + 1 :=
      Nat.lt_succ_of_le (Nat.div_le_div_right (by omega))
    have hm : m = run.first + run.step * ((m - run.first) / run.step) := by
      have := Nat.div_add_mod (m - run.first) run.step
      omega
    constructor
    · refine testBit_lettersOf.2 ⟨_, List.mem_map_of_mem hrun, ?_⟩
      exact (testBit_lettersFrom hstep).2 ⟨_, hcount, hm⟩
    · refine testBit_lettersOf.2 ⟨_, List.mem_map_of_mem hrun, ?_⟩
      refine (testBit_lettersFrom hstep).2 ⟨_, hcount, ?_⟩
      simp only [Int.ofNat_eq_natCast] at hshift ⊢
      omega
  next => cases h

/-- **No letter is moved twice.** -/
theorem not_moved_of_small (h : smallLetters.testBit n = true) :
    movedLetters.testBit n = false := by
  obtain ⟨-, -, hapart, -⟩ := tables_agree
  exact testBit_of_apart hapart h

theorem has_alphabeticTable_of_moved (h : movedLetters.testBit c.toNat = true) :
    alphabeticTable.has c = true := by
  obtain ⟨-, -, -, hsubset, -⟩ := tables_agree
  rw [← hsubset, Nat.testBit_and, Bool.and_eq_true] at h
  exact testBit_lettersIn.1 h.2

/-- The one letter of ASCII that another one is moved to is small, and none is moved to the dotted
capital. -/
theorem of_small (h : smallLetters.testBit n = true) : n ≠ 0x130 ∧ (n < 128 → n = 107) := by
  obtain ⟨-, -, -, -, hletter, hdotted⟩ := tables_agree
  constructor
  · rintro rfl
    exact Bool.noConfusion (hdotted.symm.trans h)
  · intro hascii
    have hn := congrArg (Nat.testBit · n) hletter
    rw [Nat.one_shiftLeft, Nat.one_shiftLeft, Nat.testBit_mod_two_pow, Nat.testBit_two_pow, h,
      decide_eq_true hascii, Bool.and_self, eq_comm, decide_eq_true_eq] at hn
    exact hn.symm

/-! ## Lowering again -/

theorem lowerChar_of_shiftedBy (hascii : ¬ c.toNat < 128) (hdotted : c ≠ '\u0130') :
    lowerChar c = [shiftedBy lowerRuns c] := by
  rw [lowerChar, if_neg hascii, if_neg hdotted]

/-- Characters that no run moves stay as they are. -/
theorem shiftedBy_of_not_moved (h : movedLetters.testBit c.toNat = false) :
    shiftedBy lowerRuns c = c := by
  unfold shiftedBy
  split
  next n hfound =>
    obtain ⟨run, hrun, hn⟩ := List.exists_of_findSome?_eq_some hfound
    exact Bool.noConfusion (h.symm.trans (testBit_of_shifted? hrun hn).1)
  next => rfl

/-- **Only letters are moved.** -/
theorem lowerChar_of_not_isAlphanumeric (h : isAlphanumeric c = false) : lowerChar c = [c] := by
  by_cases hascii : c.toNat < 128
  · rcases toLower_cases c with hc | ⟨hfirst, hlast, -⟩
    · rw [lowerChar, if_pos hascii, hc]
    · have hletter : c.isAlpha = true :=
        Bool.or_eq_true_iff.2 (.inl (decide_eq_true ⟨hfirst, hlast⟩))
      rw [isAlphanumeric, isAlphabetic, if_pos hascii, hletter] at h
      cases h
  · have hdotted : c ≠ '\u0130' := by
      rintro rfl
      exact absurd h (by decide)
    rw [lowerChar_of_shiftedBy hascii hdotted, shiftedBy_of_not_moved]
    cases hmoved : movedLetters.testBit c.toNat with
    | false => rfl
    | true =>
      rw [isAlphanumeric, isAlphabetic, if_neg hascii, has_alphabeticTable_of_moved hmoved] at h
      cases h

/-- What a character is lowered to stays as it is. -/
theorem lowerChar_of_mem (h : d ∈ lowerChar c) : lowerChar d = [d] := by
  by_cases hascii : c.toNat < 128
  · rw [lowerChar, if_pos hascii, List.mem_singleton] at h
    rw [h, lowerChar_toLower, lowerChar, if_pos hascii]
  by_cases hdotted : c = '\u0130'
  · subst hdotted
    have hforms : lowerChar '\u0130' = ['i', '\u0307'] := rfl
    rw [hforms, List.mem_cons, List.mem_singleton] at h
    rcases h with rfl | rfl <;> rfl
  rw [lowerChar_of_shiftedBy hascii hdotted, List.mem_singleton, shiftedBy] at h
  split at h
  next n hfound =>
    obtain ⟨run, hrun, hn⟩ := List.exists_of_findSome?_eq_some hfound
    have hsmall := (testBit_of_shifted? hrun hn).2
    obtain ⟨hne, hletter⟩ := of_small hsmall
    by_cases hvalid : n.isValidChar
    · have hn : d.toNat = n := by
        rw [h, Char.ofNat, dif_pos hvalid]
        rfl
      by_cases hlow : n < 128
      · rw [h, hletter hlow]
        rfl
      · have hdotted : d ≠ '\u0130' := by
          rintro rfl
          exact hne hn.symm
        rw [lowerChar_of_shiftedBy (hn ▸ hlow) hdotted, shiftedBy_of_not_moved]
        rw [hn]
        exact not_moved_of_small hsmall
    · rw [h, Char.ofNat, dif_neg hvalid]
      rfl
  next hnone =>
    subst h
    rw [lowerChar_of_shiftedBy hascii hdotted, shiftedBy, hnone]

theorem lowerChar_of_mem_lowerAfter {before : List Char} (h : d ∈ lowerAfter before cs) :
    lowerChar d = [d] := by
  induction cs generalizing before with
  | nil => cases h
  | cons c cs ih =>
    rw [lowerAfter, List.mem_append] at h
    rcases h with h | h
    · split at h
      next =>
        -- both small sigmas stay as they are
        rw [List.mem_singleton] at h
        subst h
        split <;> rfl
      next => exact lowerChar_of_mem h
    · exact ih h

theorem isLower_lowercase (s : String) : IsLower (lowercase s) := by
  intro d hd
  rw [lowercase, String.toList_ofList] at hd
  exact lowerChar_of_mem_lowerAfter hd

/-- **Lowering twice is lowering once.** -/
theorem lowercase_lowercase (s : String) : lowercase (lowercase s) = lowercase s :=
  lowercase_of_isLower (isLower_lowercase s)

end ComponentMarkup.Text
