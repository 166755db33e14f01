/-
  What comes next at a reading position.

  * `Text.cut?_eq_some_iff`: text is cut where a pattern comes for the first time;
    `Text.cut?_singleton_iff` is the case of one character.
  * `Cursor.takeWhile_iff`, `Cursor.skip?_iff`, `Cursor.takeUntil?_iff`: what the ways to read on
    give, said by the characters that are read and by the one that comes next.
  * `isKeyChar_of_isSpace`, `isLegalName_iff`, `isLegalKey_iff`: the characters of names.
-/
import ComponentMarkup.Proofs.LegalTree

namespace ComponentMarkup

/-! ## Closing characters -/

namespace Text

variable {pat cs before after : List Char}

theorem not_isInfix_dropLast (hpat : pat ≠ []) : ¬ pat <:+: pat.dropLast := by
  intro h
  have hlen := h.length_le
  have hpos := List.length_pos_iff.2 hpat
  rw [List.length_dropLast] at hlen
  omega

theorem begins_append_dropLast (pat before after : List Char) :
    before ++ pat.dropLast <+: before ++ pat ++ after := by
  rw [List.append_assoc]
  exact (List.prefix_append_right_inj before).2
    ((List.dropLast_prefix pat).trans (List.prefix_append pat after))

/-- Before a text of at least one character, a pattern can only begin where its last character still
is before the end of the next one. -/
theorem isPrefix_append_dropLast {c : Char} (h : pat <+: c :: (before ++ pat ++ after)) :
    pat <+: c :: (before ++ pat.dropLast) := by
  refine List.prefix_of_prefix_length_le h (begins_append_dropLast pat (c :: before) after) ?_
  rw [List.length_cons, List.length_append, List.length_dropLast]
  omega

/-- **Text is cut where the pattern comes for the first time**: it does not come before its last
character is read. -/
theorem cut?_eq_some_iff (hpat : pat ≠ []) : cut? pat cs = some (before, after) ↔
    cs = before ++ pat ++ after ∧ ¬ pat <:+: before ++ pat.dropLast := by
  induction cs generalizing before with
  | nil => simp [cut?, hpat]
  | cons c cs ih =>
    have hcut (rest : List Char) : pat.isPrefixOf? (c :: cs) = some rest ↔ c :: cs = pat ++ rest :=
      isPrefixOf?_eq_some
    rw [cut?]
    cases hp : pat.isPrefixOf? (c :: cs) with
    | some rest =>
      have hcs := (hcut rest).1 hp
      cases before with
      | nil => simp [hcs, not_isInfix_dropLast hpat, eq_comm]
      | cons d ds =>
        refine iff_of_false (by simp) ?_
        rintro ⟨he, hnone⟩
        have hbegins : pat <+: d :: (ds ++ pat ++ after) := ⟨rest, hcs.symm.trans he⟩
        exact hnone (isPrefix_append_dropLast hbegins).isInfix
    | none =>
      have hfree : ¬ pat <+: c :: cs := by
        rintro ⟨rest, hrest⟩
        rw [(hcut rest).2 hrest.symm] at hp
        cases hp
      cases before with
      | nil =>
        refine iff_of_false (by simp) ?_
        rintro ⟨he, -⟩
        exact hfree ⟨after, he.symm⟩
      | cons d ds =>
        have hmap :
            (cut? pat cs).map (fun parts => (c :: parts.1, parts.2)) = some (d :: ds, after) ↔
              c = d ∧ cut? pat cs = some (ds, after) := by
          cases cut? pat cs <;> simp [Prod.ext_iff, and_assoc]
        rw [hmap, ih, List.cons_append, List.cons_append, List.cons.injEq, List.cons_append,
          List.infix_cons_iff, and_assoc]
        refine and_congr_right fun hd => and_congr_right fun hcs => ?_
        have : ¬ pat <+: d :: (ds ++ pat.dropLast) := by
          intro hbegins
          refine hfree (hbegins.trans ?_)
          rw [hd, hcs]
          exact begins_append_dropLast pat (d :: ds) after
        rw [or_iff_right this]

theorem singleton_isInfix_iff {d : Char} : [d] <:+: cs ↔ d ∈ cs := by
  constructor
  · intro h
    exact h.subset (List.mem_singleton_self d)
  · intro h
    obtain ⟨before, after, rfl⟩ := List.append_of_mem h
    exact ⟨before, after, by simp⟩

theorem cut?_singleton_iff {d : Char} : cut? [d] cs = some (before, after) ↔
    cs = before ++ d :: after ∧ d ∉ before := by
  rw [cut?_eq_some_iff (List.cons_ne_nil d []), List.dropLast_singleton, List.append_nil,
    singleton_isInfix_iff, List.append_assoc, List.singleton_append]

end Text

namespace Markup

/-! ## Reading on -/

namespace Cursor

variable {a b c : Cursor} {s t : List Char} {p : Char → Bool}

theorem Reads.unique (hb : a.Reads s b) (hc : a.Reads s c) : b = c := by
  have hr : b.rest = c.rest := List.append_cancel_left (hb.1.symm.trans hc.1)
  have ho : b.offset = c.offset := hb.2.trans hc.2.symm
  cases b; cases c; cases hr; cases ho; rfl

theorem Reads.eq_of_nil (h : a.Reads [] b) : a = b :=
  (Reads.refl a).unique h

theorem Reads.split (h : a.Reads (s ++ t) c) : ∃ b, a.Reads s b ∧ b.Reads t c := by
  refine ⟨a.past s (t ++ c.rest), reads_past ?_, rfl, ?_⟩
  · rw [h.1, List.append_assoc]
  · rw [h.2, utf8Length_append, ← Nat.add_assoc]; rfl

theorem Reads.split_cons {d : Char} (h : a.Reads (d :: s) c) :
    ∃ b, a.Reads [d] b ∧ b.Reads s c :=
  Reads.split (s := [d]) h

theorem Reads.past_eq (h : a.Reads s b) : a.past s b.rest = b :=
  (reads_past h.1).unique h

theorem Reads.finish_eq (h : a.Reads s b) : b.finish = a.finish := by
  have hread := h.trans b.reads_finish
  rw [← h.1] at hread
  exact hread.unique a.reads_finish

theorem Reads.head? (h : a.Reads s b) : a.rest.head? = s.head?.or b.rest.head? := by
  rw [h.1, List.head?_append]

theorem Reads.head?_of_cons {d : Char} (h : a.Reads (d :: s) b) : a.rest.head? = some d := by
  rw [h.1]; rfl

/-- The longest run of characters of a class: all are in the class and the next one is not. -/
theorem takeWhile_iff : a.takeWhile p = (s, b) ↔
    a.Reads s b ∧ (∀ c ∈ s, p c = true) ∧ ∀ c ∈ b.rest.head?, p c = false := by
  constructor
  · intro h
    have hread := reads_takeWhile p a
    rw [h] at hread
    rw [takeWhile, Prod.mk.injEq] at h
    obtain ⟨rfl, rfl⟩ := h
    refine ⟨hread, List.all_eq_true.1 List.all_takeWhile, fun c hc => ?_⟩
    have hnot := List.head?_dropWhile_not p a.rest
    rw [past, Option.mem_def] at hc
    rwa [hc] at hnot
  · rintro ⟨h, hs, hb⟩
    have htake : a.rest.takeWhile p = s := by
      rw [h.1, List.takeWhile_append_of_pos hs]
      cases hr : b.rest with
      | nil => simp
      | cons c cs => simp [hb c (by simp [hr])]
    have hread := reads_takeWhile p a
    rw [takeWhile, htake] at hread ⊢
    exact Prod.ext rfl (hread.unique h)

theorem takeWhile_eq (h : a.Reads s b) (hs : ∀ c ∈ s, p c = true)
    (hb : ∀ c ∈ b.rest.head?, p c = false) : a.takeWhile p = (s, b) :=
  takeWhile_iff.2 ⟨h, hs, hb⟩

theorem skipWhile_eq (h : a.Reads s b) (hs : ∀ c ∈ s, p c = true)
    (hb : ∀ c ∈ b.rest.head?, p c = false) : a.skipWhile p = b := by
  rw [skipWhile, takeWhile_eq h hs hb]

theorem reads_skipWhile (p : Char → Bool) (a : Cursor) :
    ∃ s, a.Reads s (a.skipWhile p) ∧ (∀ c ∈ s, p c = true) ∧
      ∀ c ∈ (a.skipWhile p).rest.head?, p c = false :=
  ⟨_, takeWhile_iff.1 rfl⟩

theorem skip?_iff : a.skip? s = some b ↔ a.Reads s b := by
  refine ⟨reads_skip?, fun h => ?_⟩
  rw [skip?, Text.isPrefixOf?_eq_some.2 h.1, Option.map_some, h.past_eq]

theorem skip?_eq (h : a.Reads s b) : a.skip? s = some b :=
  skip?_iff.2 h

theorem skip?_past {rest : List Char} (h : a.rest = s ++ rest) :
    a.skip? s = some (a.past s rest) :=
  skip?_eq (reads_past h)

theorem skip?_eq_none {d : Char} (h : ∀ c ∈ a.rest.head?, c ≠ d) : a.skip? [d] = none := by
  cases hs : a.skip? [d] with
  | none => rfl
  | some b => exact absurd rfl (h d (by simp [(reads_skip? hs).1]))

theorem skip?_eq_none_of (h : ∀ rest, a.rest ≠ s ++ rest) : a.skip? s = none := by
  cases hs : a.skip? s with
  | none => rfl
  | some b => exact absurd (reads_skip? hs).1 (h b.rest)

/-- Reading up to a pattern stops where it comes for the first time. -/
theorem takeUntil?_iff {pat : List Char} (hpat : pat ≠ []) : a.takeUntil? pat = some (s, b) ↔
    a.Reads (s ++ pat) b ∧ ¬ pat <:+: s ++ pat.dropLast := by
  constructor
  · intro h
    obtain ⟨⟨before, after⟩, hcut, he⟩ := Option.map_eq_some_iff.1 h
    cases he
    exact ⟨reads_takeUntil? h, ((Text.cut?_eq_some_iff hpat).1 hcut).2⟩
  · rintro ⟨h, hnone⟩
    rw [takeUntil?, (Text.cut?_eq_some_iff hpat).2 ⟨h.1, hnone⟩, Option.map_some, h.past_eq]

theorem takeUntil?_singleton_iff {d : Char} : a.takeUntil? [d] = some (s, b) ↔
    a.Reads (s ++ [d]) b ∧ d ∉ s := by
  rw [takeUntil?_iff (List.cons_ne_nil d []), List.dropLast_singleton, List.append_nil,
    Text.singleton_isInfix_iff]

end Cursor

/-! ## Character classes -/

theorem isSpace_iff {c : Char} : isSpace c = true ↔ c = ' ' ∨ c = '\t' ∨ c = '\r' ∨ c = '\n' := by
  simp [isSpace, or_assoc]

theorem isKeyChar_of_isSpace {c : Char} (h : isSpace c = true) : isKeyChar c = false := by
  rcases isSpace_iff.1 h with rfl | rfl | rfl | rfl <;> decide

theorem isNameChar_of_isSpace {c : Char} (h : isSpace c = true) : isNameChar c = false := by
  rcases isSpace_iff.1 h with rfl | rfl | rfl | rfl <;> decide

theorem isBareChar_of_isSpace {c : Char} (h : isSpace c = true) : isBareChar c = false := by
  rcases isSpace_iff.1 h with rfl | rfl | rfl | rfl <;> decide

theorem isSpace_of_isKeyChar {c : Char} (h : isKeyChar c = true) : isSpace c = false := by
  cases hs : isSpace c with
  | false => rfl
  | true => rw [isKeyChar_of_isSpace hs] at h; cases h

theorem isSpace_of_isBareChar {c : Char} (h : isBareChar c = true) : isSpace c = false := by
  cases hs : isSpace c with
  | false => rfl
  | true => rw [isBareChar_of_isSpace hs] at h; cases h

theorem isNameChar_of_isNameStart {c : Char} (h : isNameStart c = true) : isNameChar c = true := by
  simp only [isNameStart, isNameChar, Bool.or_eq_true] at h ⊢
  rcases h with (h | h) | h
  · exact .inl (.inl (.inl (.inl (Text.isAlphanumeric_of_isAlphabetic h))))
  · exact .inl (.inl (.inr h))
  · exact .inl (.inr h)

theorem isLegalName_iff {name : String} : isLegalName name = true ↔
    ∃ c cs, name.toList = c :: cs ∧ isNameStart c = true ∧
      ∀ d ∈ name.toList, isNameChar d = true := by
  simp only [isLegalName, Bool.and_eq_true, List.all_eq_true]
  constructor
  · rintro ⟨hstart, hall⟩
    cases hn : name.toList with
    | nil => simp [hn] at hstart
    | cons c cs => exact ⟨c, cs, rfl, by simpa [hn] using hstart, hn ▸ hall⟩
  · rintro ⟨c, cs, hn, hstart, hall⟩
    exact ⟨by simpa [hn] using hstart, hall⟩

theorem isLegalKey_iff {key : String} : isLegalKey key = true ↔
    ∃ c cs, key.toList = c :: cs ∧ ∀ d ∈ key.toList, isKeyChar d = true := by
  simp only [isLegalKey, Bool.and_eq_true, List.all_eq_true, Bool.not_eq_true',
    List.isEmpty_eq_false_iff_exists_mem]
  constructor
  · rintro ⟨⟨c, hc⟩, hall⟩
    cases hk : key.toList with
    | nil => simp [hk] at hc
    | cons c cs => exact ⟨c, cs, rfl, hk ▸ hall⟩
  · rintro ⟨c, cs, hk, hall⟩
    exact ⟨⟨c, by simp [hk]⟩, hall⟩

end Markup

end ComponentMarkup
