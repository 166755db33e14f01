/-
  The depth limit.

  * `Node.level`: the elements of a tree at a depth. `Expander.reachedAt`: those that the expansion
    of an element comes to at a depth, both in document order.
  * `Expander.withMaxDepth`: the same configuration but for the depth limit.
  * `run_expandNode_withMaxDepth`: where the expansion comes to no element at the limit, a larger
    limit changes nothing, not even the log.
  * `level_expanded?`: the elements at the limit are those of the expanded document at that depth.
  * `expand_depthLimit`: both for documents, with the views that run.
-/
import ComponentMarkup.Proofs.ExpansionPath
import ComponentMarkup.Proofs.Pruning

namespace ComponentMarkup

/-- The elements of a tree at a depth below its root, in document order. -/
def Node.level : Nat → Node → List Node
  | 0, node => [node]
  | depth + 1, node => node.elements.flatMap (Node.level depth)

theorem Node.mem_elements_iff {node child : Node} :
    child ∈ node.elements ↔ .element child ∈ node.children := by
  rw [elements, List.mem_filterMap]
  constructor
  · rintro ⟨child' | s, hc, hnode⟩
    · cases hnode
      exact hc
    · cases hnode
  · exact fun hc => ⟨_, hc, rfl⟩

/-! ## Steps -/

section
variable {α β : Type} {m m' : Expanding α} {f f' : α → Expanding β} {s t : Surroundings} {a : α}
  {e : Event}

theorem run_bind_congr (h : m.run s = m'.run s)
    (h' : ∀ a t, (m'.run s).value = (a, t) → (f a).run t = (f' a).run t) :
    (m >>= f).run s = (m' >>= f').run s := by
  have hrest := h' _ _ (Prod.eta (m'.run s).value).symm
  rw [StateT.run_bind, StateT.run_bind, h]
  refine Logged.eq_of ?_ ?_
  · rw [Logged.value_bind, Logged.value_bind, hrest]
  · rw [Logged.events_bind, Logged.events_bind, hrest]

theorem mem_run_bind_left (h : e ∈ (m.run s).events) : e ∈ ((m >>= f).run s).events :=
  List.mem_append_left _ h

theorem mem_run_bind_right (hm : (m.run s).value = (a, t)) (h : e ∈ ((f a).run t).events) :
    e ∈ ((m >>= f).run s).events := by
  rw [StateT.run_bind, Logged.events_bind, hm]
  exact List.mem_append_right _ h

end

namespace Expander

/-- The same configuration with another depth limit. -/
def withMaxDepth (x : Expander) (maxDepth : Nat) : Expander :=
  { x with config := { x.config with classes := { x.config.classes with maxDepth := maxDepth } } }

variable (x : Expander)

/-- The elements that the expansion of an element comes to at a depth, in document order. -/
def reachedAt : Nat → Place → List Node
  | 0, place => [place.node]
  | depth + 1, place =>
    (x.replaced place).node.elements.flatMap fun node =>
      reachedAt depth { x.replaced place with node }

variable {x} {place : Place} {s : Surroundings} {node : Node} {children : List Child}

theorem mem_reachedAt_iff {depth : Nat} : node ∈ x.reachedAt depth place ↔
    ∃ around target, x.Reaches place around target ∧ around.length = depth ∧ target.node = node := by
  induction depth generalizing place with
  | zero =>
    rw [reachedAt, List.mem_singleton]
    constructor
    · rintro rfl
      exact ⟨[], place, .start, rfl, rfl⟩
    · rintro ⟨around, target, hr, hlen, rfl⟩
      cases hr with
      | start => rfl
      | step hc hr => cases hlen
  | succ depth ih =>
    rw [reachedAt, List.mem_flatMap]
    constructor
    · rintro ⟨child, hc, hnode⟩
      obtain ⟨around, target, hr, hlen, htarget⟩ := ih.1 hnode
      exact ⟨_, target, .step (Node.mem_elements_iff.1 hc) hr, congrArg (· + 1) hlen, htarget⟩
    · rintro ⟨around, target, hr, hlen, htarget⟩
      cases hr with
      | start => cases hlen
      | step hc hr =>
        exact ⟨_, Node.mem_elements_iff.2 hc, ih.2 ⟨_, target, hr, Nat.succ.inj hlen, htarget⟩⟩

/-! ## Children -/

section
variable {step step' : Node → Expanding (Option Node)}

theorem run_mapElements_congr
    (h : ∀ node, .element node ∈ children → (step node).run s = (step' node).run s)
    (hback : ∀ node, ((step' node).run s).value.2 = s) :
    (mapElements step children).run s = (mapElements step' children).run s := by
  induction children with
  | nil => rfl
  | cons child rest ih =>
    have hrest := ih fun node hn => h node (List.mem_cons_of_mem _ hn)
    cases child with
    | text content => exact run_bind_congr hrest fun _ _ _ => rfl
    | element node =>
      refine run_bind_congr (h node (List.mem_cons_self ..)) fun kept t hkept => ?_
      have ht : t = s := by rw [← hback node, hkept]
      subst ht
      cases kept with
      | none => exact hrest
      | some kept => exact run_bind_congr hrest fun _ _ _ => rfl

/-- What happens at one of the elements happens. -/
theorem mem_run_mapElements {e : Event} (hn : .element node ∈ children)
    (he : e ∈ ((step node).run s).events) (hback : ∀ node, ((step node).run s).value.2 = s) :
    e ∈ ((mapElements step children).run s).events := by
  induction children with
  | nil => cases hn
  | cons child rest ih =>
    cases child with
    | text content =>
      have hn : .element node ∈ rest := (List.mem_cons.1 hn).resolve_left (by simp)
      exact mem_run_bind_left (ih hn)
    | element first =>
      rcases List.mem_cons.1 hn with hfirst | hn
      · cases hfirst
        exact mem_run_bind_left he
      · have hvalue : ((step first).run s).value = (((step first).run s).value.1, s) :=
          Prod.ext rfl (hback first)
        refine mem_run_bind_right hvalue ?_
        cases ((step first).run s).value.1 with
        | none => exact ih hn
        | some kept => exact mem_run_bind_left (ih hn)

theorem elements_mapChildren (step : Node → Option Node) (children : List Child) :
    (mapChildren step children).filterMap Child.element? =
      (children.filterMap Child.element?).flatMap fun node => (step node).toList := by
  induction children with
  | nil => rfl
  | cons child rest ih =>
    cases child with
    | text content => exact ih
    | element node =>
      cases hs : step node with
      | none => simpa [mapChildren, hs, Child.element?] using ih
      | some kept => simpa [mapChildren, hs, Child.element?] using ih

end

/-! ## A larger limit -/

section
variable (x) (maxDepth : Nat)

theorem runFirst_withMaxDepth (tag : String) (s : Surroundings) (bindings : Bindings)
    (names : List String) :
    (x.withMaxDepth maxDepth).runFirst tag s bindings names = x.runFirst tag s bindings names := by
  induction names with
  | nil => rfl
  | cons name names ih =>
    rw [runFirst, runFirst, ih]
    rfl

theorem applyTemplate_withMaxDepth (s : Surroundings) (node : Node) (names : List String)
    (scope : Option String) :
    (x.withMaxDepth maxDepth).applyTemplate s node names scope =
      x.applyTemplate s node names scope := by
  unfold applyTemplate
  simp only [runFirst_withMaxDepth]
  rfl

theorem replace_withMaxDepth (scope : Option String) (node : Node) :
    (x.withMaxDepth maxDepth).replace scope node = x.replace scope node := by
  unfold replace
  simp only [applyTemplate_withMaxDepth]
  rfl

end

/-- An expanded element leaves the surroundings as they were. -/
theorem surroundings_expandNode (depth : Nat) (place : Place) :
    ((x.expandNode depth place.scope place.node).run place.surroundings).value.2 =
      place.surroundings := by
  rw [(leads_expandNode depth place).value]

theorem value_replace (x : Expander) (place : Place) : ∃ hasToken,
    ((x.replace place.scope place.node).run (place.surroundings.enter place.node.name)).value =
      (⟨(x.replaced place).node, (x.replaced place).scope, hasToken⟩,
        (x.replaced place).surroundings) := by
  obtain ⟨hasToken, hleads, -⟩ := @leads_replace x (fun _ _ _ => True) place fun _ _ => trivial
  exact ⟨hasToken, hleads.value⟩

/-- **A larger limit changes nothing** where the expansion comes to no element at the smaller one:
the step at each element is the same, from the surroundings that it is taken in. -/
theorem run_expandNode_withMaxDepth (maxDepth : Nat) {depth deeper : Nat} (place : Place)
    (hle : depth ≤ deeper) (hfits : x.reachedAt depth place = []) :
    ((x.withMaxDepth maxDepth).expandNode deeper place.scope place.node).run place.surroundings =
      (x.expandNode depth place.scope place.node).run place.surroundings := by
  induction depth generalizing deeper place with
  | zero => cases hfits
  | succ depth ih =>
    obtain ⟨deeper, rfl⟩ := Nat.exists_eq_succ_of_ne_zero (Nat.ne_zero_of_lt hle)
    rw [reachedAt, List.flatMap_eq_nil_iff] at hfits
    obtain ⟨hasToken, hreplaced⟩ := x.value_replace place
    rw [expandNode, expandNode, replace_withMaxDepth]
    refine run_bind_congr rfl fun _ entered hentered => ?_
    cases hentered
    refine run_bind_congr rfl fun replacement inner hinner => ?_
    rw [hreplaced] at hinner
    cases hinner
    refine run_bind_congr ?_ fun _ _ _ => rfl
    refine run_mapElements_congr (fun node hn => ?_) fun node =>
      surroundings_expandNode depth { x.replaced place with node }
    exact ih { x.replaced place with node } (Nat.le_of_succ_le_succ hle)
      (hfits node (Node.mem_elements_iff.2 hn))

/-! ## Elements at the limit -/

theorem tooDeep_mem_expandNode {depth : Nat} (h : node ∈ x.reachedAt depth place) :
    .tooDeep node.name x.config.classes.maxDepth ∈
      ((x.expandNode depth place.scope place.node).run place.surroundings).events := by
  induction depth generalizing place with
  | zero =>
    rw [List.mem_singleton.1 h]
    exact List.mem_cons_self ..
  | succ depth ih =>
    obtain ⟨child, hc, hnode⟩ := List.mem_flatMap.1 h
    obtain ⟨hasToken, hreplaced⟩ := x.value_replace place
    rw [expandNode]
    refine mem_run_bind_right rfl (mem_run_bind_right hreplaced (mem_run_bind_left ?_))
    exact mem_run_mapElements (Node.mem_elements_iff.1 hc) (ih hnode) fun node =>
      surroundings_expandNode depth { x.replaced place with node }

/-- An element that is dropped has no elements. -/
theorem elements_kept? (node : Node) :
    (x.kept? node).toList.flatMap Node.elements = node.elements := by
  rw [kept?]
  split
  next hdropped =>
    have hnone : node.hasElements = false := by
      rw [Bool.and_eq_true, Node.isEmpty, Bool.and_eq_true, Bool.not_eq_true'] at hdropped
      exact hdropped.1.1
    refine (List.filterMap_eq_nil_iff.2 fun child hc => ?_).symm
    rw [Node.hasElements, List.any_eq_false] at hnone
    exact Option.not_isSome_iff_eq_none.1 (hnone child hc)
  next => simp

/-- **The elements at the limit are kept as they are**, each in its place. -/
theorem level_expanded? (depth : Nat) (place : Place) :
    (x.expanded? depth place).toList.flatMap (Node.level depth) = x.reachedAt depth place := by
  induction depth generalizing place with
  | zero => rfl
  | succ depth ih =>
    have hlevel : Node.level (depth + 1) = fun node => node.elements.flatMap (Node.level depth) :=
      rfl
    rw [expanded?, hlevel, ← List.flatMap_assoc, elements_kept?, Node.elements,
      elements_mapChildren, List.flatMap_assoc, reachedAt]
    simp only [ih]
    rfl

/-! ## Documents -/

/-- **The depth limit.** If the expansion of a document comes to no element at the limit, then with
any larger one the document is the same, and so are the views that run, with their order and their
bindings. Whatever it comes to, no view runs for an element at the limit or below, and the elements
at the limit are those of the expanded document at that depth, each as it was. -/
theorem expand_depthLimit (x : Expander) (root : Node) :
    let limit := x.config.classes.maxDepth
    (x.reachedAt limit ⟨root, .none, none⟩ = [] →
      ∀ deeper, limit ≤ deeper → (x.withMaxDepth deeper).expand root = x.expand root) ∧
    x.views.Runs (fun name s bindings => s.path.length ≤ limit ∧
        x.RunsBelow limit ⟨root, .none, none⟩ name s bindings) (x.expand root).events ∧
    (∀ node ∈ x.reachedAt limit ⟨root, .none, none⟩,
      .tooDeep node.name limit ∈ (x.expand root).events) ∧
    (x.expand root).value.toList.flatMap (Node.level limit) =
      x.reachedAt limit ⟨root, .none, none⟩ := by
  refine ⟨fun hfits deeper hle => ?_, ?_, fun node hn => ?_, ?_⟩
  · exact congrArg (Prod.fst <$> ·) (run_expandNode_withMaxDepth deeper ⟨root, .none, none⟩ hle hfits)
  · rw [expand_eq]
    refine (runs_expandIn .none root).mono fun name s bindings h => ⟨?_, h⟩
    obtain ⟨around, target, -, -, -, hlen, hlt, -⟩ := of_runsBelow h
    rwa [hlen]
  · rw [expand_eq]
    exact tooDeep_mem_expandNode hn
  · rw [value_expand, level_expanded?]

/-- A document that fits, and a template with its own tag in it, which is stopped at the limit. -/
theorem expand_depthLimit_card :
    let tree : Node := ⟨"div", ∅, [.element (.leaf "b"), .element (.leaf "yield")]⟩
    let nested : Node := ⟨"div", ∅, [.element (.leaf "card")]⟩
    let config : Config := { classes := { maxDepth := 2 } }
    let x (tree : Node) : Expander := ⟨config, .ofNames "-" ["card"], fun _ _ => pure (.ok tree)⟩
    let root : Node := ⟨"Card", ∅, [.text "a"]⟩
    (∀ deeper, 2 ≤ deeper → ((x tree).withMaxDepth deeper).expand root = (x tree).expand root) ∧
      (∀ node ∈ (x nested).reachedAt 2 ⟨root, .none, none⟩,
        .tooDeep node.name 2 ∈ ((x nested).expand root).events) ∧
      ((x nested).reachedAt 2 ⟨root, .none, none⟩).map (·.name) = ["card"] ∧
      ((x nested).expand root).value.toList.flatMap (Node.level 2) =
        (x nested).reachedAt 2 ⟨root, .none, none⟩ := by
  intro tree nested config x root
  have hfits : (x tree).reachedAt 2 ⟨root, .none, none⟩ = [] :=
    List.isEmpty_iff.1 (by decide +kernel)
  obtain ⟨-, -, htooDeep, hlevel⟩ := expand_depthLimit (x nested) root
  exact ⟨(expand_depthLimit (x tree) root).1 hfits, htooDeep, by decide +kernel, hlevel⟩

end Expander

end ComponentMarkup
