/-
  Classes as lists of tokens.

  * `Carries`: a list of tokens holds a scope at its start or between other tokens, or is the scope.
  * `classTokens`: the tokens of a class.
  * `classOf_eq_join`: a class is what joins them, if tokens hold no character of the joiner. The
    texts are searched for a scope and split at the joiner, which comes to the same, since the
    joiner occurs between tokens only.
  * `compute_eq_join`: this holds of all classes of a component.
  * `compute_ne_join_of_joiner_in_token`: a scope of several tokens does not count either if it
    reads like the token of the component.
-/
import Mathlib.Data.List.Destutter
import Mathlib.Data.List.DropRight
import Mathlib.Data.List.Infix
import ComponentMarkup.ClassName
import ComponentMarkup.Proofs.JoinedWords

namespace ComponentMarkup

variable {joiner : String} {tokens scope stack earlier : List String}

/-! ## Tokens in place of texts -/

/-- The tokens are the scope, or begin with it, or have it between others. -/
def Carries (scope tokens : List String) : Prop :=
  tokens = scope ∨ (∃ after, after ≠ [] ∧ tokens = scope ++ after) ∨
    ∃ before after, before ≠ [] ∧ after ≠ [] ∧ tokens = before ++ scope ++ after

theorem carries_iff : Carries scope tokens ↔
    tokens = scope ∨ (scope <+: tokens ∧ tokens ≠ scope) ∨
      ∃ before ∈ tokens.inits, ∃ after ∈ tokens.tails,
        before ≠ [] ∧ after ≠ [] ∧ tokens = before ++ scope ++ after := by
  refine or_congr_right (or_congr ?_ ?_)
  · constructor
    · rintro ⟨after, hne, rfl⟩
      exact ⟨List.prefix_append .., by simpa using hne⟩
    · rintro ⟨⟨after, rfl⟩, hne⟩
      exact ⟨after, by simpa using hne, rfl⟩
  · constructor
    · rintro ⟨before, after, hbefore, hafter, rfl⟩
      exact ⟨before, (List.mem_inits ..).2 ⟨scope ++ after, by simp⟩, after,
        (List.mem_tails ..).2 (List.suffix_append ..), hbefore, hafter, rfl⟩
    · rintro ⟨before, -, after, -, h⟩
      exact ⟨before, after, h⟩

instance (scope tokens : List String) : Decidable (Carries scope tokens) :=
  decidable_of_iff _ carries_iff.symm

/-- The tokens of a class: the last ones of the stack, behind those of the scope unless they carry
it, without the ones that repeat the token kept before them and are in the stack before its last. -/
def classTokens (stack : List String) (scope : Option (List String)) (count : Nat) : List String :=
  let tokens := stack.rtake count
  let full := match scope with
    | some scope => if tokens = [] ∨ Carries scope tokens then tokens else scope ++ tokens
    | none => tokens
  full.destutter fun last token => ¬ (token = last ∧ token ∈ stack.dropLast)

namespace ClassConfig

variable {config : ClassConfig} {own : String}

theorem dropDoubles_go_eq_destutter' {dropped : List String}
    (h : ∀ token ∈ tokens, token ∈ dropped ↔ token ≠ "" ∧ token ∈ earlier) (last : String) :
    last :: dropDoubles.go earlier last tokens =
      tokens.destutter' (fun last token => ¬ (token = last ∧ token ∈ dropped)) last := by
  induction tokens generalizing last with
  | nil => rfl
  | cons token tokens ih =>
    obtain ⟨htoken, hrest⟩ := List.forall_mem_cons.1 h
    have hdrop : token = last ∧ token ∈ dropped ↔ token = last ∧ token ≠ "" ∧ token ∈ earlier :=
      and_congr_right' htoken
    rw [dropDoubles.go]
    by_cases hrepeats : token = last ∧ token ∈ dropped
    · rw [if_pos (hdrop.1 hrepeats), ih hrest, List.destutter'_cons_neg _ (not_not.2 hrepeats)]
    · rw [if_neg (mt hdrop.2 hrepeats), ih hrest, List.destutter'_cons_pos _ hrepeats]

theorem dropDoubles_eq_destutter {dropped : List String}
    (h : ∀ token ∈ tokens, token ∈ dropped ↔ token ≠ "" ∧ token ∈ earlier) :
    dropDoubles earlier tokens =
      tokens.destutter fun last token => ¬ (token = last ∧ token ∈ dropped) := by
  cases tokens with
  | nil => rfl
  | cons token tokens =>
    exact dropDoubles_go_eq_destutter' (List.forall_mem_cons.1 h).2 token

theorem collapse_intercalate (h : AreTokens config.joiner tokens) :
    config.collapse stack (config.joiner.intercalate tokens) = config.joiner.intercalate
      (tokens.destutter fun last token => ¬ (token = last ∧ token ∈ stack.dropLast)) := by
  unfold collapse
  by_cases hne : tokens = []
  · subst hne
    have hempty : Text.splitAt config.joiner "" = [""] := by
      rw [Text.splitAt, String.toList_empty, Text.piecesOf_of_not_isInfix]
      · rfl
      · rw [List.infix_nil, String.toList_eq_nil_iff]
        exact config.joiner_ne_empty
    rw [String.intercalate_nil, hempty]
    rfl
  · rw [h.splitAt_intercalate config.joiner_ne_empty hne,
      dropDoubles_eq_destutter fun token htoken => (and_iff_right (h token htoken).1).symm]

/-! ## A scope in joined tokens -/

theorem isPrefixOf_intercalate_iff (hj : joiner ≠ "") (ht : AreTokens joiner tokens)
    (hs : AreTokens joiner scope) (hscope : scope ≠ []) :
    (joiner.intercalate scope ++ joiner).toList.isPrefixOf
        (joiner.intercalate tokens).toList = true ↔
      ∃ after, after ≠ [] ∧ tokens = scope ++ after := by
  rw [List.isPrefixOf_iff_prefix]
  constructor
  · rintro ⟨rest, h⟩
    have heq : joiner.intercalate tokens =
        joiner.intercalate scope ++ joiner ++ String.ofList rest := by
      rw [← String.toList_inj, ← h]
      simp only [String.toList_append, String.toList_ofList]
    obtain ⟨front, back, -, hback, rfl, hfront, -⟩ := ht.exists_of_intercalate_eq hj heq
    have hsame := (hs.intercalate_inj hj (ht.of_subset (List.subset_append_left ..))).1 hfront
    exact ⟨back, hback, by rw [hsame]⟩
  · rintro ⟨after, hafter, rfl⟩
    refine ⟨(joiner.intercalate after).toList, ?_⟩
    rw [String.intercalate_append_of_ne_nil hscope hafter, ← String.toList_append]

theorem occursIn_intercalate_iff (hj : joiner ≠ "") (ht : AreTokens joiner tokens)
    (hs : AreTokens joiner scope) (hscope : scope ≠ []) :
    Text.occursIn (joiner ++ (joiner.intercalate scope ++ joiner)).toList
        (joiner.intercalate tokens).toList = true ↔
      ∃ before after, before ≠ [] ∧ after ≠ [] ∧ tokens = before ++ scope ++ after := by
  rw [Text.occursIn_iff]
  constructor
  · rintro ⟨start, rest, h⟩
    have heq : joiner.intercalate tokens = String.ofList start ++ joiner ++
        (joiner.intercalate scope ++ joiner ++ String.ofList rest) := by
      rw [← String.toList_inj, ← h]
      simp only [String.toList_append, String.toList_ofList, List.append_assoc]
    obtain ⟨before, more, hbefore, -, rfl, -, hmore⟩ := ht.exists_of_intercalate_eq hj heq
    have hmoreTokens := ht.of_subset (List.subset_append_right before more)
    obtain ⟨front, after, -, hafter, rfl, hfront, -⟩ :=
      hmoreTokens.exists_of_intercalate_eq hj hmore.symm
    have hfrontTokens := hmoreTokens.of_subset (List.subset_append_left front after)
    rw [hs.intercalate_inj hj hfrontTokens] at hfront
    exact ⟨before, after, hbefore, hafter, by rw [hfront, List.append_assoc]⟩
  · rintro ⟨before, after, hbefore, hafter, rfl⟩
    rw [String.intercalate_append_of_ne_nil (by simp [hbefore]) hafter,
      String.intercalate_append_of_ne_nil hbefore hscope]
    refine ⟨(joiner.intercalate before).toList, (joiner.intercalate after).toList, ?_⟩
    simp only [String.toList_append, List.append_assoc]

/-- **A scope is found in joined tokens** exactly if the tokens carry it. -/
theorem inScope_intercalate (ht : AreTokens config.joiner tokens)
    (hs : AreTokens config.joiner scope) (hscope : scope ≠ []) :
    config.inScope (config.joiner.intercalate tokens) (config.joiner.intercalate scope) =
      config.joiner.intercalate
        (if tokens = [] ∨ Carries scope tokens then tokens else scope ++ tokens) := by
  have hj := config.joiner_ne_empty
  have hcarries : (_ ∨ _ ∨ _ ∨ _) ↔ (tokens = [] ∨ Carries scope tokens) :=
    or_congr ht.intercalate_eq_empty_iff <| or_congr (ht.intercalate_inj hj hs) <|
      or_congr (isPrefixOf_intercalate_iff hj ht hs hscope)
        (occursIn_intercalate_iff hj ht hs hscope)
  refine (if_congr hcarries rfl rfl).trans ?_
  split
  next => rfl
  next h =>
    rw [not_or] at h
    exact (String.intercalate_append_of_ne_nil hscope h.1).symm

/-! ## Classes -/

/-- **A class** joins its tokens. A scope that reads like the component's own token does not
count. -/
theorem classOf_eq_join {scope : Option (List String)} (hstack : AreTokens config.joiner stack)
    (hscope : ∀ s ∈ scope, s ≠ [] ∧ AreTokens config.joiner s) (own : String) (count : Nat) :
    config.classOf own stack (scope.map config.joiner.intercalate) count =
      config.joiner.intercalate
        (classTokens stack (scope.filter fun s => config.joiner.intercalate s ≠ own) count) := by
  have ht : AreTokens config.joiner (stack.rtake count) :=
    hstack.of_subset (List.drop_subset _ stack)
  have htrailing : config.trailing stack count =
      config.joiner.intercalate (stack.rtake count) := rfl
  unfold classOf classTokens
  cases scope with
  | none => exact collapse_intercalate ht
  | some s =>
    obtain ⟨hne, hs⟩ := hscope s rfl
    have hempty : config.joiner.intercalate s ≠ "" := by rwa [Ne, hs.intercalate_eq_empty_iff]
    dsimp only [Option.map_some]
    by_cases hown : config.joiner.intercalate s = own
    · rw [if_pos (.inr hown), Option.filter_some_neg (by simpa using hown)]
      exact collapse_intercalate ht
    · rw [if_neg (not_or.2 ⟨hempty, hown⟩), Option.filter_some_pos (by simpa using hown),
        htrailing, inScope_intercalate ht hs hne]
      refine collapse_intercalate ?_
      split
      next => exact ht
      next => exact List.forall_mem_append.2 ⟨hs, ht⟩

theorem level?_compute (config : ClassConfig) (node : Node) (stack : List String)
    (scope : Option String) {n : Nat} (hpos : 1 ≤ n) (hle : n ≤ classLevels) :
    (config.compute node stack scope).value.level? n =
      some (config.classOf (config.token node) stack scope n) := by
  have hbound : n - 1 < classLevels := by omega
  have hn : n - 1 + 1 = n := by omega
  have hlevels : (config.compute node stack scope).value.levels = (List.range classLevels).map
      fun i => config.classOf (config.token node) stack scope (i + 1) := rfl
  rw [ClassSet.level?, if_neg (by omega), hlevels, List.getElem?_map, List.getElem?_range hbound,
    Option.map_some, hn]

/-- **All classes of a component join their tokens**, the default one and those of fixed length. -/
theorem compute_eq_join {scope : Option (List String)} (hstack : AreTokens config.joiner stack)
    (hscope : ∀ s ∈ scope, s ≠ [] ∧ AreTokens config.joiner s) (node : Node) :
    let classes := (config.compute node stack (scope.map config.joiner.intercalate)).value
    let active := scope.filter fun s => config.joiner.intercalate s ≠ config.token node
    classes.default =
        config.joiner.intercalate (classTokens stack active (config.lengthFor node)) ∧
      ∀ n, 1 ≤ n → n ≤ classLevels →
        classes.level? n = some (config.joiner.intercalate (classTokens stack active n)) := by
  intro classes active
  refine ⟨classOf_eq_join hstack hscope _ _, fun n hpos hle => ?_⟩
  rw [level?_compute config node stack _ hpos hle, classOf_eq_join hstack hscope]

/-- A scope of two tokens, the last of which is the first of the stack too. -/
theorem compute_eq_join_panel :
    let config : ClassConfig := {}
    let node : Node := ⟨"item", ∅, []⟩
    let stack := ["box", "card", "card", "item"]
    let scope := some ["panel", "box"]
    let classes := (config.compute node stack (scope.map config.joiner.intercalate)).value
    AreTokens config.joiner stack ∧ (∀ s ∈ scope, s ≠ [] ∧ AreTokens config.joiner s) ∧
    classes.default = "panel__box__card__item" ∧
    classes.level? 4 = some "panel__box__card__item" := by
  intro config node stack scope classes
  have hstack : AreTokens config.joiner stack := by decide
  have hscope : ∀ s ∈ scope, s ≠ [] ∧ AreTokens config.joiner s := by decide
  obtain ⟨hdefault, hlevels⟩ := compute_eq_join hstack hscope node
  refine ⟨hstack, hscope, hdefault.trans (by decide +kernel), ?_⟩
  exact (hlevels 4 (by decide) (by decide)).trans (by decide +kernel)

/-- The scope has two tokens, but reads like the token of the component, which holds the joiner. It
does not count, although its tokens are not that token. -/
theorem compute_ne_join_of_joiner_in_token :
    let config : ClassConfig := { configuredJoiner := "-", skipTags := ["a-b"] }
    let node : Node := ⟨"a-b", ∅, []⟩
    let scope := some ["a", "b"]
    AreTokens config.joiner ["c"] ∧ (∀ s ∈ scope, s ≠ [] ∧ AreTokens config.joiner s) ∧
    scope ≠ some [config.token node] ∧
    (config.compute node ["c"] (scope.map config.joiner.intercalate)).value.level? 1 ≠
      some (config.joiner.intercalate
        (classTokens ["c"] (scope.filter fun s => s ≠ [config.token node]) 1)) := by
  decide +kernel

end ClassConfig

end ComponentMarkup
