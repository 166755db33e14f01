/-
  Where views run, and documents expanded one after another.

  * `tokensOf`: the class tokens of the elements around another one.
  * `surroundings_of_reaches`: an element that is reached stands inside of the elements on the way
    to it, and of the class tokens of those with a template.
  * `expandAll_none`: documents expanded one after another are expanded each as if alone, nothing is
    left on the stacks after any of them, and every view runs in the surroundings and with the
    parents of the element that it runs for.
-/
import ComponentMarkup.Proofs.PlainExpansion
import ComponentMarkup.Proofs.ReservedKeys

namespace ComponentMarkup

namespace Expander

variable {x : Expander} {place target : Place} {around : List Enclosing}

/-! ## Surroundings -/

variable (x) in
/-- The class token that a component adds, if components with its tag add one. -/
def tokenOf (node : Node) : List String :=
  if x.config.classes.participates node.name then [x.config.classes.token node] else []

variable (x) in
/-- The class tokens of those elements that a template is applied to. -/
def tokensOf (elements : List Enclosing) : List String :=
  elements.flatMap fun e => if e.applied then x.tokenOf e.node else []

theorem inside_eq (place : Place) : x.inside place =
    ⟨place.surroundings.path ++ [place.node.name],
      place.surroundings.tokens ++ x.tokenOf place.node⟩ := by
  unfold inside tokenOf
  split
  · rfl
  · rw [List.append_nil]; rfl

theorem surroundings_replaced (place : Place) : (x.replaced place).surroundings =
    ⟨place.surroundings.path ++ [place.node.name], place.surroundings.tokens ++
      if (x.applied? place).isSome then x.tokenOf place.node else []⟩ := by
  cases h : x.applied? place with
  | none =>
    rw [replaced_of_none h, Option.isSome_none, if_neg Bool.false_ne_true, List.append_nil]
    rfl
  | some result => rw [replaced_of_some h, inside_eq, Option.isSome_some, if_pos rfl]

/-- **An element that is reached stands inside of the elements on the way**, and below the class
tokens of those that a template is applied to. -/
theorem surroundings_of_reaches (h : x.Reaches place around target) : target.surroundings =
    ⟨place.surroundings.path ++ around.map (·.node.name),
      place.surroundings.tokens ++ x.tokensOf around⟩ := by
  induction h with
  | start => rw [List.map_nil, tokensOf, List.flatMap_nil, List.append_nil, List.append_nil]
  | step hc _ ih =>
    rw [ih, surroundings_replaced, tokensOf, tokensOf, List.flatMap_cons, List.map_cons,
      List.append_assoc, List.append_assoc, List.singleton_append]

/-- Where a view runs in the expansion of a document: for an element below others, at most as deep
as is configured, inside of them and of their class tokens. -/
theorem of_runsBelow {root : Node} {depth : Nat} {name : String} {s : Surroundings}
    {bindings : Bindings} (h : x.RunsBelow depth ⟨root, .none, none⟩ name s bindings) :
    ∃ around target, x.Reaches ⟨root, .none, none⟩ around target ∧ name ∈ x.templates target ∧
      s.path = around.map (·.node.name) ++ [target.node.name] ∧ s.path.length = around.length + 1 ∧
      around.length + 1 ≤ depth ∧ s.tokens = x.tokensOf around ++ x.tokenOf target.node ∧
      bindings.get? "nodeParents" = some (.list (around.map (·.node.name))) := by
  obtain ⟨around, target, hr, hlt, hname, rfl, rfl⟩ := h
  have hs := surroundings_of_reaches hr
  have hpath : (x.inside target).path = around.map (·.node.name) ++ [target.node.name] := by
    rw [inside_eq, hs]
    rfl
  refine ⟨around, target, hr, hname, hpath, ?_, hlt, ?_, ?_⟩
  · rw [hpath, List.length_append, List.length_map]
    rfl
  · rw [inside_eq, hs]
    rfl
  · have hparents : (x.inside target).parents = around.map (·.node.name) := by
      rw [Surroundings.parents, hpath, List.dropLast_concat]
    rw [← hparents]
    exact Bindings.get?_ofNode (by simp [Bindings.reserved])

/-! ## Several documents -/

theorem value_expandAll (s : Surroundings) (roots : List Node) : (x.expandAll s roots).value =
    roots.map fun root => ((x.expandIn s root).value.1, s) := by
  induction roots with
  | nil => rfl
  | cons root roots ih =>
    rw [expandAll, Logged.value_bind, Logged.value_bind, value_expandIn, ih, List.map_cons,
      value_expandIn]
    rfl

theorem events_expandAll (s : Surroundings) (roots : List Node) : (x.expandAll s roots).events =
    roots.flatMap fun root => (x.expandIn s root).events := by
  induction roots with
  | nil => rfl
  | cons root roots ih =>
    rw [expandAll, Logged.events_bind, Logged.events_bind, value_expandIn, ih, Logged.events_pure,
      List.append_nil, List.flatMap_cons]

theorem expand_eq (root : Node) : x.expand root =
    ⟨(x.expandIn .none root).value.1, (x.expandIn .none root).events⟩ :=
  Logged.eq_of rfl (List.append_nil _)

theorem runs_expandIn (s : Surroundings) (root : Node) :
    x.views.Runs (x.RunsBelow x.config.classes.maxDepth ⟨root, s, none⟩)
      (x.expandIn s root).events :=
  (leads_expandNode x.config.classes.maxDepth ⟨root, s, none⟩).runs

/-- **Documents that are expanded one after another do not touch each other**: each one is expanded
as if alone, and after it no element and no class token is left. A view runs only for an element
that is reached at most as deep as configured. It runs inside of the elements on the way as they
were before their templates, which are its parents, and of the class tokens of those among them that
a template was applied to, with the element's own token last. -/
theorem expandAll_none (x : Expander) (roots : List Node) :
    (x.expandAll .none roots).value =
        roots.map (fun root => ((x.expand root).value, Surroundings.none)) ∧
      (x.expandAll .none roots).events = roots.flatMap (fun root => (x.expand root).events) ∧
      x.views.Runs
        (fun name s bindings => ∃ root ∈ roots, ∃ around target,
          x.Reaches ⟨root, .none, none⟩ around target ∧ name ∈ x.templates target ∧
          s.path = around.map (·.node.name) ++ [target.node.name] ∧
          s.path.length = around.length + 1 ∧ around.length + 1 ≤ x.config.classes.maxDepth ∧
          s.tokens = x.tokensOf around ++ x.tokenOf target.node ∧
          bindings.get? "nodeParents" = some (.list (around.map (·.node.name))))
        (x.expandAll .none roots).events := by
  refine ⟨?_, ?_, ?_⟩
  · simp only [value_expandAll, expand_eq]
  · simp only [events_expandAll, expand_eq]
  · rw [events_expandAll]
    induction roots with
    | nil => exact .nil
    | cons root roots ih =>
      rw [List.flatMap_cons]
      refine .append ((runs_expandIn .none root).mono fun name s bindings h => ?_)
        (ih.mono fun name s bindings h => ?_)
      · exact ⟨root, List.mem_cons_self .., of_runsBelow h⟩
      · obtain ⟨earlier, hm, hrest⟩ := h
        exact ⟨earlier, List.mem_cons_of_mem _ hm, hrest⟩

end Expander

end ComponentMarkup
