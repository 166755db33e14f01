/-
  Classes that are put into their scope once more.

  * `HasNoDoubles`: no token repeats the one before it, so that collapsing changes nothing.
  * `carries_classTokens_iff`: a class carries the scope that it was made for, unless collapsing
    took the scope apart (`StaysScoped`). That happens if the scope has doubled tokens itself, and
    if the class had the scope in it already, before a repetition of its last token. A scope that
    was put in front stays there.
  * `inScope_compute_iff`: the classes of a component that carry their scope are the ones that do
    not change when they are put into it again.
  * `inScope_compute_ne_of_repeated_token`: a component inside a scope that ends with the token of
    the component.
-/
import ComponentMarkup.Proofs.ClassTokens

namespace ComponentMarkup

variable {earlier tokens scope stack : List String} {count : Nat}

/-! ## Collapsed tokens -/

/-- No token repeats the one before it and is one of the given tokens. -/
def HasNoDoubles (earlier tokens : List String) : Prop :=
  tokens.IsChain fun last token => ¬ (token = last ∧ token ∈ earlier)

/-- Tokens without those that repeat the token kept before them and are among the given ones. -/
def collapsed (earlier tokens : List String) : List String :=
  tokens.destutter fun last token => ¬ (token = last ∧ token ∈ earlier)

theorem hasNoDoubles_collapsed (earlier tokens : List String) :
    HasNoDoubles earlier (collapsed earlier tokens) :=
  List.isChain_destutter _ tokens

theorem collapsed_subset (earlier tokens : List String) : collapsed earlier tokens ⊆ tokens :=
  (List.destutter_sublist _ tokens).subset

/-- What is dropped is the same as what is kept before it, so the last token stays. -/
theorem getLast?_collapsed (earlier tokens : List String) :
    (collapsed earlier tokens).getLast? = tokens.getLast? := by
  cases tokens with
  | nil => rfl
  | cons first tokens =>
    rw [collapsed, List.destutter_cons']
    induction tokens generalizing first with
    | nil => rfl
    | cons token tokens ih =>
      by_cases h : token = first ∧ token ∈ earlier
      · rw [List.destutter'_cons_neg _ (not_not.2 h), ih, h.1, List.getLast?_cons_cons]
      · obtain ⟨next, more, hmore⟩ := List.exists_cons_of_ne_nil
          (List.destutter'_ne_nil (a := token) (l := tokens)
            fun last token => ¬ (token = last ∧ token ∈ earlier))
        rw [List.destutter'_cons_pos _ h, hmore, List.getLast?_cons_cons, ← hmore, ih,
          List.getLast?_cons_cons]

/-- Tokens without doubles stay together at the start. -/
theorem prefix_destutter' {first : String} (h : HasNoDoubles earlier (first :: tokens))
    (after : List String) : first :: tokens <+: (tokens ++ after).destutter'
      (fun last token => ¬ (token = last ∧ token ∈ earlier)) first := by
  induction tokens generalizing first with
  | nil =>
    rw [List.nil_append]
    induction after with
    | nil => exact List.prefix_refl _
    | cons token after ih =>
      by_cases hrepeats : token = first ∧ token ∈ earlier
      · rwa [List.destutter'_cons_neg _ (not_not.2 hrepeats)]
      · rw [List.destutter'_cons_pos _ hrepeats]
        exact ⟨_, rfl⟩
  | cons token tokens ih =>
    obtain ⟨hfirst, hrest⟩ := List.isChain_cons_cons.1 h
    rw [List.cons_append, List.destutter'_cons_pos _ hfirst]
    exact (List.prefix_cons_inj first).2 (ih hrest)

theorem prefix_collapsed (h : HasNoDoubles earlier scope) (after : List String) :
    scope <+: collapsed earlier (scope ++ after) := by
  cases scope with
  | nil => exact List.nil_prefix
  | cons start scope =>
    rw [collapsed, List.cons_append, List.destutter_cons']
    exact prefix_destutter' h after

/-- **Tokens without doubles stay together**, whatever is around them. -/
theorem infix_collapsed (h : HasNoDoubles earlier scope) (hscope : scope <:+: tokens) :
    scope <:+: collapsed earlier tokens := by
  obtain ⟨before, after, rfl⟩ := hscope
  rw [List.append_assoc]
  cases before with
  | nil => exact (prefix_collapsed h after).isInfix
  | cons first before =>
    rw [collapsed, List.cons_append, List.destutter_cons']
    -- the walk keeps `first`, then meets the tokens after those of `before`
    induction before generalizing first with
    | nil =>
      cases scope with
      | nil => exact List.nil_infix
      | cons start scope =>
        rw [List.nil_append, List.cons_append]
        by_cases hrepeats : start = first ∧ start ∈ earlier
        · rw [List.destutter'_cons_neg _ (not_not.2 hrepeats), ← hrepeats.1]
          exact (prefix_destutter' h after).isInfix
        · rw [List.destutter'_cons_pos _ hrepeats]
          exact List.infix_cons (prefix_destutter' h after).isInfix
    | cons token before ih =>
      rw [List.cons_append]
      by_cases hrepeats : token = first ∧ token ∈ earlier
      · rw [List.destutter'_cons_neg _ (not_not.2 hrepeats)]
        exact ih first
      · rw [List.destutter'_cons_pos _ hrepeats]
        exact List.infix_cons (ih token)

/-! ## Classes that carry their scope -/

theorem Carries.isInfix (h : Carries scope tokens) : scope <:+: tokens := by
  rcases h with rfl | ⟨after, -, rfl⟩ | ⟨before, after, -, -, rfl⟩
  · exact List.infix_refl _
  · exact (List.prefix_append ..).isInfix
  · exact List.infix_append ..

/-- Tokens with another last one than the scope carry it wherever it stands. -/
theorem Carries.of_isInfix (hscope : scope ≠ []) (h : scope <:+: tokens)
    (hlast : tokens.getLast? ≠ scope.getLast?) : Carries scope tokens := by
  obtain ⟨before, after, rfl⟩ := h
  have hafter : after ≠ [] := by
    rintro rfl
    rw [List.append_nil, List.getLast?_append_of_ne_nil _ hscope] at hlast
    exact hlast rfl
  by_cases hbefore : before = []
  · exact .inr (.inl ⟨after, hafter, by rw [hbefore, List.nil_append]⟩)
  · exact .inr (.inr ⟨before, after, hbefore, hafter, rfl⟩)

/-- The scope of a class has no doubled tokens. If it ends with the last token of the stack, and the
last tokens carry it, they do so when they are collapsed as well. -/
def StaysScoped (stack scope : List String) (count : Nat) : Prop :=
  HasNoDoubles stack.dropLast scope ∧
    (scope.getLast? = stack.getLast? → Carries scope (stack.rtake count) →
      Carries scope (collapsed stack.dropLast (stack.rtake count)))

instance : Decidable (StaysScoped stack scope count) :=
  inferInstanceAs (Decidable (List.IsChain _ _ ∧ (_ → _ → _)))

theorem getLast?_rtake (hcount : 0 < count) : (stack.rtake count).getLast? = stack.getLast? := by
  rw [List.rtake.eq_def, List.getLast?_drop]
  split
  next h =>
    have hlength : stack.length = 0 := by omega
    rw [List.length_eq_zero_iff.1 hlength]
    rfl
  next => rfl

theorem classTokens_some (stack scope : List String) (count : Nat) :
    classTokens stack (some scope) count = collapsed stack.dropLast
      (if stack.rtake count = [] ∨ Carries scope (stack.rtake count) then stack.rtake count
        else scope ++ stack.rtake count) :=
  rfl

/-- A class ends with the last token of the stack. -/
theorem getLast?_classTokens (hcount : 0 < count) :
    (classTokens stack (some scope) count).getLast? = stack.getLast? := by
  rw [classTokens_some, getLast?_collapsed]
  split
  next => exact getLast?_rtake hcount
  next h =>
    rw [not_or] at h
    rw [List.getLast?_append_of_ne_nil _ h.1, getLast?_rtake hcount]

/-- **A class carries its scope** unless collapsing took the scope apart. -/
theorem carries_classTokens_iff (hstack : stack ≠ []) (hscope : scope ≠ []) (hcount : 0 < count) :
    Carries scope (classTokens stack (some scope) count) ↔ StaysScoped stack scope count := by
  have hnone : stack.rtake count ≠ [] := by
    rwa [Ne, ← List.getLast?_eq_none_iff, getLast?_rtake hcount, List.getLast?_eq_none_iff]
  simp only [classTokens_some, hnone, false_or]
  constructor
  · intro h
    have hdoubles : HasNoDoubles stack.dropLast scope :=
      List.IsChain.infix (hasNoDoubles_collapsed ..) h.isInfix
    refine ⟨hdoubles, fun _ hcarries => ?_⟩
    rwa [if_pos hcarries] at h
  · rintro ⟨hdoubles, hends⟩
    by_cases hcarries : Carries scope (stack.rtake count)
    · rw [if_pos hcarries]
      by_cases hown : scope.getLast? = stack.getLast?
      · exact hends hown hcarries
      · refine .of_isInfix hscope (infix_collapsed hdoubles hcarries.isInfix) ?_
        rw [getLast?_collapsed, getLast?_rtake hcount]
        exact Ne.symm hown
    · -- the scope was put in front, where it stays
      rw [if_neg hcarries]
      obtain ⟨after, hafter⟩ := prefix_collapsed hdoubles (stack.rtake count)
      by_cases hnil : after = []
      · exact .inl (by rw [← hafter, hnil, List.append_nil])
      · exact .inr (.inl ⟨after, hnil, hafter.symm⟩)

/-! ## Texts -/

namespace ClassConfig

variable {config : ClassConfig}

/-- A scope is put before joined tokens unless they carry it. -/
theorem inScope_eq_self_iff (ht : AreTokens config.joiner tokens)
    (hs : AreTokens config.joiner scope) (htokens : tokens ≠ []) (hscope : scope ≠ []) :
    config.inScope (config.joiner.intercalate tokens) (config.joiner.intercalate scope) =
      config.joiner.intercalate tokens ↔ Carries scope tokens := by
  rw [inScope_intercalate ht hs hscope]
  constructor
  · intro h
    have hboth : AreTokens config.joiner (scope ++ tokens) := List.forall_mem_append.2 ⟨hs, ht⟩
    by_contra hcarries
    rw [if_neg (not_or.2 ⟨htokens, hcarries⟩),
      AreTokens.intercalate_inj config.joiner_ne_empty hboth ht] at h
    exact hscope (List.append_left_eq_self.1 h)
  · intro h
    rw [if_pos (.inr h)]

theorem areTokens_classTokens (hstack : AreTokens config.joiner stack)
    (hs : AreTokens config.joiner scope) :
    AreTokens config.joiner (classTokens stack (some scope) count) := by
  have hlast : AreTokens config.joiner (stack.rtake count) :=
    hstack.of_subset (List.drop_subset _ stack)
  rw [classTokens_some]
  refine AreTokens.of_subset ?_ (collapsed_subset ..)
  split
  next => exact hlast
  next => exact List.forall_mem_append.2 ⟨hs, hlast⟩

theorem classOf_eq_join_of_ne {own : String} (hstack : AreTokens config.joiner stack)
    (hs : AreTokens config.joiner scope) (hscope : scope ≠ [])
    (hown : config.joiner.intercalate scope ≠ own) (count : Nat) :
    config.classOf own stack (some (config.joiner.intercalate scope)) count =
      config.joiner.intercalate (classTokens stack (some scope) count) := by
  have hsome : ∀ s ∈ some scope, s ≠ [] ∧ AreTokens config.joiner s := by
    intro s h
    rw [← Option.mem_some_iff.1 h]
    exact ⟨hscope, hs⟩
  have hjoin := classOf_eq_join hstack hsome own count
  rwa [Option.filter_some_pos (by simpa using hown)] at hjoin

theorem inScope_classOf_iff {own : String} (hstack : AreTokens config.joiner stack)
    (hne : stack ≠ []) (hs : AreTokens config.joiner scope) (hscope : scope ≠ [])
    (hown : config.joiner.intercalate scope ≠ own) (hcount : 0 < count) :
    config.inScope (config.classOf own stack (some (config.joiner.intercalate scope)) count)
        (config.joiner.intercalate scope) =
      config.classOf own stack (some (config.joiner.intercalate scope)) count ↔
        StaysScoped stack scope count := by
  have htokens : classTokens stack (some scope) count ≠ [] := by
    rwa [Ne, ← List.getLast?_eq_none_iff, getLast?_classTokens hcount, List.getLast?_eq_none_iff]
  rw [classOf_eq_join_of_ne hstack hs hscope hown,
    inScope_eq_self_iff (areTokens_classTokens hstack hs) hs htokens hscope,
    carries_classTokens_iff hne hscope hcount]

theorem lengthFor_pos (config : ClassConfig) (node : Node) : 0 < config.lengthFor node := by
  unfold lengthFor
  cases h : (node.attribute? "inherit").bind length? with
  | none => exact Nat.lt_of_lt_of_le Nat.one_pos (Nat.le_max_right ..)
  | some n =>
    obtain ⟨s, -, hs⟩ := Option.bind_eq_some_iff.1 h
    unfold length? at hs
    split at hs
    next =>
      split at hs
      next hn => cases hs; exact hn.1
      next => cases hs
    next => cases hs

/-- **Putting a class into its scope again changes nothing**, exactly if collapsing did not take the
scope apart. The scope is any list of tokens that does not read like the token of the component,
which is the last one of the stack. -/
theorem inScope_compute_iff {node : Node} (hstack : AreTokens config.joiner stack)
    (hlast : stack.getLast? = some (config.token node)) (hs : AreTokens config.joiner scope)
    (hscope : scope ≠ []) (hown : config.joiner.intercalate scope ≠ config.token node) :
    let text := config.joiner.intercalate scope
    let classes := (config.compute node stack (some text)).value
    (config.inScope classes.default text = classes.default ↔
        StaysScoped stack scope (config.lengthFor node)) ∧
      ∀ n, 1 ≤ n → n ≤ classLevels → ∃ value, classes.level? n = some value ∧
        (config.inScope value text = value ↔ StaysScoped stack scope n) := by
  intro text classes
  have hne : stack ≠ [] := by
    rintro rfl
    cases hlast
  refine ⟨inScope_classOf_iff hstack hne hs hscope hown (lengthFor_pos config node), ?_⟩
  intro n hpos hle
  exact ⟨_, level?_compute config node stack _ hpos hle,
    inScope_classOf_iff hstack hne hs hscope hown hpos⟩

/-- A component inside a scope that ends with the token of the component: the class of three tokens
is collapsed to the scope, in the one of four the scope comes last. -/
theorem inScope_compute_iff_card :
    let config : ClassConfig := {}
    let node : Node := ⟨"card", .ofList [("inherit", "3")], []⟩
    let stack := ["page", "panel", "card", "card"]
    let scope := ["panel", "card"]
    let classes := (config.compute node stack (some (config.joiner.intercalate scope))).value
    AreTokens config.joiner stack ∧ stack.getLast? = some (config.token node) ∧
    AreTokens config.joiner scope ∧ scope ≠ [] ∧
    config.joiner.intercalate scope ≠ config.token node ∧
    config.inScope classes.default (config.joiner.intercalate scope) = classes.default ∧
    ∃ value, classes.level? 4 = some value ∧
      config.inScope value (config.joiner.intercalate scope) ≠ value := by
  intro config node stack scope classes
  have hstack : AreTokens config.joiner stack := by decide
  have hlast : stack.getLast? = some (config.token node) := by decide +kernel
  have hs : AreTokens config.joiner scope := by decide
  have hscope : scope ≠ [] := by decide
  have hown : config.joiner.intercalate scope ≠ config.token node := by decide +kernel
  obtain ⟨hdefault, hlevels⟩ := inScope_compute_iff hstack hlast hs hscope hown
  obtain ⟨value, hvalue, hiff⟩ := hlevels 4 (by decide) (by decide)
  exact ⟨hstack, hlast, hs, hscope, hown, hdefault.2 (by decide +kernel), value, hvalue,
    mt hiff.1 (by decide +kernel)⟩

/-- The class has its scope at its end only, since the component's token, which came after it, is
doubled. Put into the scope again, it has the scope in front as well. -/
theorem inScope_compute_ne_of_repeated_token :
    let config : ClassConfig := {}
    let node : Node := ⟨"card", .ofList [("inherit", "4")], []⟩
    let stack := ["page", "panel", "card", "card"]
    let scope := ["panel", "card"]
    let classes := (config.compute node stack (some (config.joiner.intercalate scope))).value
    AreTokens config.joiner stack ∧ stack.getLast? = some (config.token node) ∧
    AreTokens config.joiner scope ∧ config.joiner.intercalate scope ≠ config.token node ∧
    classes.default = "page__panel__card" ∧
    config.inScope classes.default "panel__card" = "panel__card__page__panel__card" := by
  decide +kernel

end ClassConfig

end ComponentMarkup
