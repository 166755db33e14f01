/-
  Words joined by a separator of which they hold no character.

  * `Apart`: such words, none of them empty; `AreTokens` is the same for texts.
  * `Apart.exists_of_intercalate_eq`: the separator occurs between two words and nowhere else.
  * `Apart.arePieces`: splitting gives the words back (`AreTokens.splitAt_intercalate`), so that
    joined texts are equal only if their words are (`AreTokens.intercalate_inj`).
-/
import ComponentMarkup.Proofs.SplitPieces

namespace ComponentMarkup

namespace Text

variable {sep word before after rest x y : List Char} {words : List (List Char)}

/-! ## Separators -/

theorem not_prefix_of_head (hsep : sep ≠ []) (hfree : ∀ c ∈ sep, c ∉ before) (hne : before ≠ []) :
    ¬ sep <+: before ++ rest := by
  rintro ⟨more, h⟩
  obtain ⟨c, cs, rfl⟩ := List.exists_cons_of_ne_nil hsep
  obtain ⟨d, ds, rfl⟩ := List.exists_cons_of_ne_nil hne
  rw [List.cons_append, List.cons_append, List.cons.injEq] at h
  exact hfree c (List.mem_cons_self ..) (h.1 ▸ List.mem_cons_self ..)

theorem not_isInfix_of_free (hsep : sep ≠ []) (hfree : ∀ c ∈ sep, c ∉ word) : ¬ sep <:+: word := by
  intro h
  obtain ⟨c, cs, rfl⟩ := List.exists_cons_of_ne_nil hsep
  exact hfree c (List.mem_cons_self ..) (h.subset (List.mem_cons_self ..))

/-- A separator behind a word does not begin before the end of the word. -/
theorem not_isInfix_append_dropLast (hsep : sep ≠ []) (hfree : ∀ c ∈ sep, c ∉ word) :
    ¬ sep <:+: word ++ sep.dropLast := by
  rintro ⟨x, y, h⟩
  rw [List.append_assoc, List.append_eq_append_iff] at h
  have hpos := List.length_pos_iff.2 hsep
  rcases h with ⟨more, rfl, hend⟩ | ⟨more, -, hend⟩
  · by_cases hmore : more = []
    · have := congrArg List.length hend
      rw [hmore, List.nil_append, List.length_append, List.length_dropLast] at this
      omega
    · have hfree' : ∀ c ∈ sep, c ∉ more := fun c hc hm => hfree c hc (List.mem_append_right _ hm)
      exact not_prefix_of_head hsep hfree' hmore ⟨y, hend⟩
  · have := congrArg List.length hend
    rw [List.length_append, List.length_append, List.length_dropLast] at this
    omega

/-- A separator does not begin inside a word. -/
theorem exists_of_append_sep (hsep : sep ≠ []) (hfree : ∀ c ∈ sep, c ∉ word)
    (h : word ++ (sep ++ rest) = x ++ (sep ++ y)) :
    ∃ more, x = word ++ more ∧ sep ++ rest = more ++ (sep ++ y) := by
  rcases List.append_eq_append_iff.1 h with h | ⟨more, rfl, hy⟩
  · exact h
  by_cases hmore : more = []
  · subst hmore
    exact ⟨[], by simp, hy.symm⟩
  · have hfree' : ∀ c ∈ sep, c ∉ more := fun c hc hm => hfree c hc (List.mem_append_right _ hm)
    exact absurd ⟨y, hy⟩ (not_prefix_of_head hsep hfree' hmore)

/-- A separator does not begin inside another one that a word comes after. -/
theorem eq_of_sep_append (hfree : ∀ c ∈ sep, c ∉ word) (hne : word ≠ [])
    (h : sep ++ (word ++ rest) = x ++ (sep ++ y)) :
    x = [] ∧ word ++ rest = y ∨ ∃ more, x = sep ++ more ∧ word ++ rest = more ++ (sep ++ y) := by
  rcases List.append_eq_append_iff.1 h with h | ⟨tail, hsplit, hy⟩
  · exact .inr h
  by_cases hx : x = []
  · subst hx
    obtain rfl : sep = tail := hsplit
    exact .inl ⟨rfl, (List.append_cancel_left hy).symm⟩
  -- otherwise the end of the second separator lies in the word
  · have hshorter : tail.length < sep.length := by
      have := List.length_pos_iff.2 hx
      rw [hsplit, List.length_append]
      omega
    rcases List.append_eq_append_iff.1 hy with ⟨more, htail, -⟩ | ⟨more, hend, hword⟩
    · rw [htail, List.length_append] at hshorter
      omega
    · have hmore : more ≠ [] := by
        rintro rfl
        rw [hend, List.append_nil] at hshorter
        exact absurd hshorter (Nat.lt_irrefl _)
      obtain ⟨c, cs, rfl⟩ := List.exists_cons_of_ne_nil hmore
      obtain ⟨d, ds, rfl⟩ := List.exists_cons_of_ne_nil hne
      rw [List.cons_append, List.cons_append, List.cons.injEq] at hword
      refine absurd (List.mem_cons_self ..) (hfree d ?_)
      rw [hend, hword.1]
      exact List.mem_append_right _ (List.mem_cons_self ..)

/-! ## Joined words -/

/-- Words that are not empty and hold no character of a separator. -/
def Apart (sep : List Char) (words : List (List Char)) : Prop :=
  ∀ word ∈ words, word ≠ [] ∧ ∀ c ∈ sep, c ∉ word

theorem exists_intercalate_cons (sep word : List Char) (words : List (List Char)) :
    ∃ rest, sep.intercalate (word :: words) = word ++ rest := by
  cases words with
  | nil => exact ⟨[], by simp⟩
  | cons next words => exact ⟨_, by rw [List.intercalate_cons_cons, List.append_assoc]⟩

/-- **A separator in joined words** stands between two of them. -/
theorem Apart.exists_of_intercalate_eq (hsep : sep ≠ []) (hw : Apart sep words)
    (h : sep.intercalate words = x ++ (sep ++ y)) :
    ∃ front back, front ≠ [] ∧ back ≠ [] ∧ words = front ++ back ∧
      x = sep.intercalate front ∧ y = sep.intercalate back := by
  induction words generalizing x with
  | nil =>
    rw [List.intercalate_nil, eq_comm, List.append_eq_nil_iff, List.append_eq_nil_iff] at h
    exact absurd h.2.1 hsep
  | cons word words ih =>
    obtain ⟨⟨-, hfree⟩, hrest⟩ := List.forall_mem_cons.1 hw
    cases words with
    | nil =>
      rw [List.intercalate_singleton] at h
      obtain ⟨c, cs, rfl⟩ := List.exists_cons_of_ne_nil hsep
      exact absurd (by simp [h]) (hfree c (List.mem_cons_self ..))
    | cons next words =>
      obtain ⟨⟨hne, hnext⟩, -⟩ := List.forall_mem_cons.1 hrest
      obtain ⟨tail, htail⟩ := exists_intercalate_cons sep next words
      rw [List.intercalate_cons_cons, List.append_assoc] at h
      obtain ⟨more, rfl, hmore⟩ := exists_of_append_sep hsep hfree h
      rw [htail] at hmore
      rcases eq_of_sep_append hnext hne hmore with ⟨rfl, hy⟩ | ⟨more, rfl, hwords⟩
      · exact ⟨[word], next :: words, by simp, by simp, rfl, by simp, by rw [htail, hy]⟩
      · obtain ⟨front, back, hfront, hback, heq, hx, hy⟩ := ih hrest (htail.trans hwords)
        refine ⟨word :: front, back, by simp, hback, by rw [heq, List.cons_append], ?_, hy⟩
        rw [List.intercalate_cons_of_ne_nil hfront, hx, List.append_assoc]

theorem Apart.arePieces (hsep : sep ≠ []) (hw : Apart sep words) (hne : words ≠ []) :
    ArePieces sep words := by
  induction words with
  | nil => exact absurd rfl hne
  | cons word words ih =>
    obtain ⟨⟨-, hfree⟩, hrest⟩ := List.forall_mem_cons.1 hw
    cases words with
    | nil => exact .single (not_isInfix_of_free hsep hfree)
    | cons next words =>
      exact (ih hrest (List.cons_ne_nil _ _)).cons (not_isInfix_append_dropLast hsep hfree)

end Text

/-! ## Joined tokens -/

/-- Tokens that are not empty and hold no character of a joiner. -/
def AreTokens (joiner : String) (tokens : List String) : Prop :=
  ∀ token ∈ tokens, token ≠ "" ∧ ∀ c ∈ joiner.toList, c ∉ token.toList

instance (joiner : String) (tokens : List String) : Decidable (AreTokens joiner tokens) :=
  decidable_of_iff
    (tokens.all fun token => token != "" && joiner.toList.all fun c => !token.toList.contains c)
    (by simp [AreTokens])

namespace AreTokens

variable {joiner a b : String} {tokens others : List String}

theorem apart (h : AreTokens joiner tokens) :
    Text.Apart joiner.toList (tokens.map String.toList) := by
  intro word hword
  obtain ⟨token, htoken, rfl⟩ := List.mem_map.1 hword
  obtain ⟨hne, hfree⟩ := h token htoken
  exact ⟨by rwa [Ne, String.toList_eq_nil_iff], hfree⟩

theorem of_subset (h : AreTokens joiner tokens) (hsub : others ⊆ tokens) :
    AreTokens joiner others :=
  fun token htoken => h token (hsub htoken)

theorem splitAt_intercalate (hj : joiner ≠ "") (h : AreTokens joiner tokens) (hne : tokens ≠ []) :
    Text.splitAt joiner (joiner.intercalate tokens) = tokens := by
  have hsep : joiner.toList ≠ [] := by rwa [Ne, String.toList_eq_nil_iff]
  exact Text.splitAt_intercalate_of_arePieces hj
    (h.apart.arePieces hsep (by rwa [Ne, List.map_eq_nil_iff]))

theorem intercalate_eq_empty_iff (h : AreTokens joiner tokens) :
    joiner.intercalate tokens = "" ↔ tokens = [] := by
  constructor
  · intro hjoin
    cases tokens with
    | nil => rfl
    | cons token tokens =>
      obtain ⟨rest, hrest⟩ := Text.exists_intercalate_cons joiner.toList token.toList
        (tokens.map String.toList)
      have hlist := congrArg String.toList hjoin
      rw [String.toList_intercalate, List.map_cons, hrest] at hlist
      have htoken := (List.append_eq_nil_iff.1 hlist).1
      exact absurd (String.toList_eq_nil_iff.1 htoken) (h token (List.mem_cons_self ..)).1
  · rintro rfl
    exact String.intercalate_nil

theorem intercalate_inj (hj : joiner ≠ "") (h : AreTokens joiner tokens)
    (h' : AreTokens joiner others) :
    joiner.intercalate tokens = joiner.intercalate others ↔ tokens = others := by
  constructor
  · intro heq
    by_cases hne : tokens = []
    · rw [h.intercalate_eq_empty_iff.2 hne, eq_comm, h'.intercalate_eq_empty_iff] at heq
      rw [hne, heq]
    · have hne' : others ≠ [] := by
        rwa [Ne, ← h'.intercalate_eq_empty_iff, ← heq, h.intercalate_eq_empty_iff]
      rw [← h.splitAt_intercalate hj hne, heq, h'.splitAt_intercalate hj hne']
  · exact congrArg _

/-- The joiner occurs between two tokens and nowhere else. -/
theorem exists_of_intercalate_eq (hj : joiner ≠ "") (h : AreTokens joiner tokens)
    (heq : joiner.intercalate tokens = a ++ joiner ++ b) :
    ∃ front back, front ≠ [] ∧ back ≠ [] ∧ tokens = front ++ back ∧
      a = joiner.intercalate front ∧ b = joiner.intercalate back := by
  have hsep : joiner.toList ≠ [] := by rwa [Ne, String.toList_eq_nil_iff]
  have hlist := congrArg String.toList heq
  rw [String.toList_intercalate, String.toList_append, String.toList_append,
    List.append_assoc] at hlist
  obtain ⟨front, back, hfront, hback, hwords, ha, hb⟩ := h.apart.exists_of_intercalate_eq hsep hlist
  obtain ⟨front, back, rfl, rfl, rfl⟩ := List.map_eq_append_iff.1 hwords
  rw [← String.toList_intercalate, String.toList_inj] at ha hb
  exact ⟨front, back, by rintro rfl; exact hfront rfl, by rintro rfl; exact hback rfl, rfl, ha, hb⟩

end AreTokens

end ComponentMarkup
