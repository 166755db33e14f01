/-
  Doubled tokens dropped from a class until none is left.

  * `DropsDouble`: one of two neighbours that are equal and among the given tokens is dropped.
  * `reaches_collapsed`: one walk over the tokens drops one double after another, and
    `eq_collapsed_of_reaches`: whichever are dropped first, the same tokens are left in the end.
  * `splitAt_collapse`: the parts of a collapsed class are the ones that were kept, also where the
    joiner overlaps with itself or with the parts.
  * `collapse_reaches`: so one pass over a class is enough, whatever its text is.
-/
import Mathlib.Logic.Relation
import ComponentMarkup.Proofs.ScopedClass
import ComponentMarkup.Proofs.SplitPieces

namespace ComponentMarkup

variable {earlier tokens others : List String}

/-! ## Dropping doubles -/

/-- One of two equal neighbours among the given tokens is dropped. -/
inductive DropsDouble (earlier : List String) : List String → List String → Prop
  | drop (before : List String) (token : String) (after : List String) (h : token ∈ earlier) :
      DropsDouble earlier (before ++ token :: token :: after) (before ++ token :: after)

theorem DropsDouble.cons (first : String) (h : DropsDouble earlier tokens others) :
    DropsDouble earlier (first :: tokens) (first :: others) := by
  cases h with
  | drop before token after hmem => exact .drop (first :: before) token after hmem

/-- One walk over the tokens drops one double after another. -/
theorem reaches_collapsed (earlier tokens : List String) :
    Relation.ReflTransGen (DropsDouble earlier) tokens (collapsed earlier tokens) := by
  cases tokens with
  | nil => exact .refl
  | cons first tokens =>
    rw [collapsed, List.destutter_cons']
    induction tokens generalizing first with
    | nil => exact .refl
    | cons token tokens ih =>
      by_cases hrepeats : token = first ∧ token ∈ earlier
      · obtain ⟨rfl, hmem⟩ := hrepeats
        rw [List.destutter'_cons_neg _ (not_not.2 ⟨rfl, hmem⟩)]
        exact .head (.drop [] token tokens hmem) (ih token)
      · rw [List.destutter'_cons_pos _ hrepeats]
        exact (ih token).lift (first :: ·) fun _ _ => DropsDouble.cons first

/-- A double that is dropped does not change what the walk keeps. -/
theorem DropsDouble.collapsed_eq (h : DropsDouble earlier tokens others) :
    collapsed earlier tokens = collapsed earlier others := by
  obtain ⟨before, token, after, hmem⟩ := h
  have hdouble : ¬ ¬ (token = token ∧ token ∈ earlier) := not_not.2 ⟨rfl, hmem⟩
  cases before with
  | nil =>
    rw [collapsed, collapsed, List.nil_append, List.nil_append, List.destutter_cons',
      List.destutter_cons', List.destutter'_cons_neg _ hdouble]
  | cons first before =>
    rw [collapsed, collapsed, List.cons_append, List.cons_append, List.destutter_cons',
      List.destutter_cons']
    induction before generalizing first with
    | nil =>
      by_cases hrepeats : token = first ∧ token ∈ earlier
      · obtain ⟨rfl, -⟩ := hrepeats
        rw [List.nil_append, List.nil_append, List.destutter'_cons_neg _ hdouble]
      · rw [List.nil_append, List.nil_append, List.destutter'_cons_pos _ hrepeats,
          List.destutter'_cons_neg _ hdouble, List.destutter'_cons_pos _ hrepeats]
    | cons next before ih =>
      rw [List.cons_append, List.cons_append]
      by_cases hrepeats : next = first ∧ next ∈ earlier
      · rw [List.destutter'_cons_neg _ (not_not.2 hrepeats),
          List.destutter'_cons_neg _ (not_not.2 hrepeats), ih]
      · rw [List.destutter'_cons_pos _ hrepeats, List.destutter'_cons_pos _ hrepeats, ih]

/-- **The order does not matter**: if doubles are dropped until none is left, what is left is what
the walk keeps. -/
theorem eq_collapsed_of_reaches (h : Relation.ReflTransGen (DropsDouble earlier) tokens others)
    (hnone : HasNoDoubles earlier others) : others = collapsed earlier tokens := by
  have hsame : collapsed earlier tokens = collapsed earlier others := by
    clear hnone
    induction h with
    | refl => rfl
    | tail _ hstep ih => exact ih.trans hstep.collapsed_eq
  rw [hsame, collapsed, List.destutter_of_isChain _ _ hnone]

theorem head?_collapsed (earlier tokens : List String) :
    (collapsed earlier tokens).head? = tokens.head? := by
  cases tokens with
  | nil => rfl
  | cons first tokens =>
    rw [collapsed, List.destutter_cons']
    induction tokens with
    | nil => rfl
    | cons token tokens ih =>
      by_cases hrepeats : token = first ∧ token ∈ earlier
      · rw [List.destutter'_cons_neg _ (not_not.2 hrepeats), ih]
        rfl
      · rw [List.destutter'_cons_pos _ hrepeats]
        rfl

/-! ## Texts -/

namespace ClassConfig

variable {config : ClassConfig} {stack : List String} {value : String}

theorem collapse_eq_intercalate (config : ClassConfig) (stack : List String) (value : String) :
    config.collapse stack value = config.joiner.intercalate
      (collapsed (stack.dropLast.filter (· ≠ "")) (Text.splitAt config.joiner value)) := by
  rw [collapse, collapsed, dropDoubles_eq_destutter]
  intro token _
  simp [and_comm]

/-- **The parts of a collapsed class** are the ones that were kept. -/
theorem splitAt_collapse (config : ClassConfig) (stack : List String) (value : String) :
    Text.splitAt config.joiner (config.collapse stack value) =
      collapsed (stack.dropLast.filter (· ≠ "")) (Text.splitAt config.joiner value) := by
  rw [collapse_eq_intercalate]
  exact Text.splitAt_intercalate_of_sublist config.joiner_ne_empty (List.destutter_sublist _ _)
    (getLast?_collapsed _ _)

/-- **One pass over a class is enough.** The joiner and the text are any, and the tokens that count
are those of the stack before its last one that are not empty. No part of the collapsed class
repeats the part before it and is one of them, so collapsing again changes nothing. The parts are
those of the text less one repeated part after another; the first and the last are the same. And
whichever repeated parts are dropped first, the same parts are left once there are no more. -/
theorem collapse_reaches (config : ClassConfig) (stack : List String) (value : String) :
    let earlier := stack.dropLast.filter (· ≠ "")
    let parts := Text.splitAt config.joiner value
    let left := Text.splitAt config.joiner (config.collapse stack value)
    HasNoDoubles earlier left ∧
    config.collapse stack (config.collapse stack value) = config.collapse stack value ∧
    Relation.ReflTransGen (DropsDouble earlier) parts left ∧
    left.head? = parts.head? ∧ left.getLast? = parts.getLast? ∧
    ∀ others, Relation.ReflTransGen (DropsDouble earlier) parts others →
      HasNoDoubles earlier others → others = left := by
  intro earlier parts left
  have hleft : left = collapsed earlier parts := splitAt_collapse config stack value
  refine ⟨?_, ?_, ?_, ?_, ?_, ?_⟩
  · rw [hleft]
    exact hasNoDoubles_collapsed earlier parts
  · rw [collapse_eq_intercalate config stack (config.collapse stack value), splitAt_collapse,
      collapsed, collapsed, List.destutter_idem, ← collapsed, ← collapse_eq_intercalate]
  · rw [hleft]
    exact reaches_collapsed earlier parts
  · rw [hleft, head?_collapsed]
  · rw [hleft, getLast?_collapsed]
  · intro others hreaches hnone
    rw [hleft]
    exact eq_collapsed_of_reaches hreaches hnone

/-- The joiner is found from left to right, so that the last part begins with a half of it. -/
example : ({} : ClassConfig).collapse ["a", "b"] "a__a___a" = "a___a" := by
  decide +kernel

end ClassConfig

end ComponentMarkup
