/-
  One element of a tree replaced by children.

  * `Node.HasAt`: an element of a tree, with its depth below the root. `Node.Lacks`: none of them has
    the name; counting agrees with it (`Node.lacks_iff`).
  * `ChildContext`: a list of children with a gap, in it or below one of its elements.
    `ChildContext.fill` puts children into the gap.
  * `Node.splices_of_spliceNamed?`: splicing replaces one element with the name, and all around it
    stays. It fails only where there is no such element (`Node.exists_spliceNamed?`).
  * `NodeContext.countNamed_fill`: how many elements have the name with other children in the gap.
  * `NodeContext.spliceNamed?_fill`: an element in the gap is spliced if it is the only one with the
    name.
  * `fillSlot?_cases`, `of_fillSlot?`: what the tree of a template becomes with children in its slot.
-/
import ComponentMarkup.Expansion.Merge

namespace ComponentMarkup

variable {name : String} {node spliced : Node} {children new : List Child}

/-! ## Elements of a tree -/

/-- An element stands so many levels below the root of a tree. -/
inductive Node.HasAt : Node → Nat → Node → Prop
  | root {node : Node} : HasAt node 0 node
  | step {node child target : Node} {depth : Nat} (hc : .element child ∈ node.children)
      (h : HasAt child depth target) : HasAt node (depth + 1) target

theorem Node.countNamed_eq (node : Node) :
    node.countNamed name = Child.countNamed name node.children := by
  cases node; rfl

theorem Child.countNamed_append (children more : List Child) :
    countNamed name (children ++ more) = countNamed name children + countNamed name more := by
  induction children with
  | nil => rw [List.nil_append, countNamed, Nat.zero_add]
  | cons child rest ih =>
    cases child with
    | text s => exact ih
    | element node =>
      rw [List.cons_append, countNamed, countNamed, ih]
      omega

/-- No element of the tree has the name, at whatever depth. -/
def Node.Lacks (name : String) (node : Node) : Prop :=
  ∀ depth target, node.HasAt depth target → Text.sameName target.name name = false

theorem Node.Lacks.root (h : node.Lacks name) : Text.sameName node.name name = false :=
  h _ _ .root

theorem Node.Lacks.child {child : Node} (h : node.Lacks name) (hc : .element child ∈ node.children) :
    child.Lacks name :=
  fun _ _ ht => h _ _ (.step hc ht)

theorem Node.lacks_of_children (hroot : Text.sameName node.name name = false)
    (h : ∀ child, .element child ∈ node.children → child.Lacks name) : node.Lacks name := by
  intro depth target ht
  cases ht with
  | root => exact hroot
  | step hc ht => exact h _ hc _ _ ht

/-- None is counted exactly if there is none, at whatever depth. -/
theorem Child.countNamed_eq_zero_iff : countNamed name children = 0 ↔
    ∀ node, .element node ∈ children → node.Lacks name := by
  induction children using Child.inductionOn with
  | nil => simp [countNamed]
  | text s rest ih => simpa [countNamed] using ih
  | element node rest ih ih' =>
    simp only [countNamed, Nat.add_eq_zero_iff, ih', Node.countNamed_eq, ih, List.mem_cons,
      Child.element.injEq]
    constructor
    · rintro ⟨⟨hname, hnode⟩, hrest⟩ other (rfl | hmem)
      · exact Node.lacks_of_children (by simpa using hname) hnode
      · exact hrest other hmem
    · intro h
      have hnode := h node (.inl rfl)
      exact ⟨⟨by simp [hnode.root], fun child => hnode.child⟩, fun other hmem => h other (.inr hmem)⟩

theorem Node.lacks_iff : node.Lacks name ↔
    Text.sameName node.name name = false ∧ node.countNamed name = 0 := by
  rw [countNamed_eq, Child.countNamed_eq_zero_iff]
  exact ⟨fun h => ⟨h.root, fun child => h.child⟩, fun h => lacks_of_children h.1 h.2⟩

/-! ## Children with a gap -/

/-- Children with a gap, among themselves or below an element of them. -/
inductive ChildContext where
  | here (before after : List Child)
  | inside (before : List Child) (name : String) (attributes : Attributes) (inner : ChildContext)
      (after : List Child)

namespace ChildContext

/-- The children with others in the gap. -/
def fill (new : List Child) : ChildContext → List Child
  | here before after => before ++ (new ++ after)
  | inside before name attributes inner after =>
    before ++ .element ⟨name, attributes, inner.fill new⟩ :: after

/-- One more child before the others. -/
def cons (child : Child) : ChildContext → ChildContext
  | here before after => here (child :: before) after
  | inside before name attributes inner after => inside (child :: before) name attributes inner after

theorem fill_cons (child : Child) (context : ChildContext) :
    (context.cons child).fill new = child :: context.fill new := by
  cases context <;> rfl

/-- With an element in the gap there is an element among the children. -/
theorem exists_element_fill (node : Node) (context : ChildContext) :
    ∃ child, .element child ∈ context.fill [.element node] := by
  cases context with
  | here before after => exact ⟨node, by simp [fill]⟩
  | inside before name attributes inner after => exact ⟨_, List.mem_append_right _ (List.mem_cons_self ..)⟩

/-- An element in the gap counts with what is in it, besides those that are around the gap. -/
theorem countNamed_fill (name : String) (new : List Child) (context : ChildContext) :
    Child.countNamed name (context.fill new) =
      Child.countNamed name (context.fill []) + Child.countNamed name new := by
  induction context with
  | here before after =>
    simp only [fill, Child.countNamed_append, Child.countNamed]
    omega
  | inside before tag attributes inner after ih =>
    simp only [fill, Child.countNamed_append, Child.countNamed, Node.countNamed, ih]
    omega

end ChildContext

/-- An element with a gap among its children or below one of them. -/
structure NodeContext where
  name : String
  attributes : Attributes
  inner : ChildContext

namespace NodeContext

/-- The element with children in the gap. -/
def fill (new : List Child) (context : NodeContext) : Node :=
  ⟨context.name, context.attributes, context.inner.fill new⟩

theorem countNamed_fill (name : String) (new : List Child) (context : NodeContext) :
    (context.fill new).countNamed name =
      (context.fill []).countNamed name + Child.countNamed name new := by
  rw [fill, fill, Node.countNamed, Node.countNamed, ChildContext.countNamed_fill]

end NodeContext

/-! ## Splicing -/

/-- The second list is the first one with `new` in the place of one element that has the name. -/
def Child.Splices (name : String) (new children spliced : List Child) : Prop :=
  ∃ (context : ChildContext) (found : Node), Text.sameName found.name name = true ∧
    children = context.fill [.element found] ∧ spliced = context.fill new

/-- The second element is the first one with `new` in the place of one below it that has the name. -/
def Node.Splices (name : String) (new : List Child) (node spliced : Node) : Prop :=
  ∃ (context : NodeContext) (found : Node), Text.sameName found.name name = true ∧
    node = context.fill [.element found] ∧ spliced = context.fill new

theorem Child.Splices.cons {spliced : List Child} (child : Child)
    (h : Splices name new children spliced) :
    Splices name new (child :: children) (child :: spliced) := by
  obtain ⟨context, found, hname, rfl, rfl⟩ := h
  exact ⟨context.cons child, found, hname, (context.fill_cons child).symm,
    (context.fill_cons child).symm⟩

theorem Child.splices_of_replaceNamed? {spliced : List Child}
    (h : replaceNamed? name new children = some spliced) : Splices name new children spliced := by
  induction children generalizing spliced with
  | nil => cases h
  | cons child rest ih =>
    rw [replaceNamed?] at h
    split at h
    next hnamed =>
      cases h
      cases child with
      | text => cases hnamed
      | element found => exact ⟨.here [] rest, found, hnamed, rfl, rfl⟩
    next =>
      obtain ⟨more, hmore, rfl⟩ := Option.map_eq_some_iff.1 h
      exact (ih hmore).cons child

theorem Node.splices_of
    (ih : ∀ {within}, Child.spliceWithin? name new node.children = some within →
      Child.Splices name new node.children within)
    (h : node.spliceNamed? name new = some spliced) : Splices name new node spliced := by
  cases node with
  | mk tag attributes children =>
    rw [spliceNamed?] at h
    obtain ⟨changed, hchanged, rfl⟩ := Option.map_eq_some_iff.1 h
    -- the children themselves are looked through first, and then what is below them
    have hsplices : Child.Splices name new children changed := by
      split at hchanged
      next hr => cases hchanged; exact Child.splices_of_replaceNamed? hr
      next => exact ih hchanged
    obtain ⟨context, found, hname, rfl, rfl⟩ := hsplices
    exact ⟨⟨tag, attributes, context⟩, found, hname, rfl, rfl⟩

theorem Child.splices_of_spliceWithin? {within : List Child}
    (h : spliceWithin? name new children = some within) : Splices name new children within := by
  induction children using Child.inductionOn generalizing within with
  | nil => cases h
  | text s rest ih =>
    rw [spliceWithin?] at h
    obtain ⟨more, hmore, rfl⟩ := Option.map_eq_some_iff.1 h
    exact (ih hmore).cons (.text s)
  | element node rest ih ih' =>
    rw [spliceWithin?] at h
    split at h
    next spliced hs =>
      cases h
      obtain ⟨⟨tag, attributes, context⟩, found, hname, rfl, rfl⟩ := Node.splices_of ih hs
      exact ⟨.inside [] tag attributes context rest, found, hname, rfl, rfl⟩
    next =>
      obtain ⟨more, hmore, rfl⟩ := Option.map_eq_some_iff.1 h
      exact (ih' hmore).cons (.element node)

/-- **Splicing replaces one element with the name**, and all around it stays as it is. -/
theorem Node.splices_of_spliceNamed? (h : node.spliceNamed? name new = some spliced) :
    Splices name new node spliced :=
  splices_of Child.splices_of_spliceWithin? h

/-! ## Where nothing is spliced -/

/-- If no child has the name, all elements with the name are further below. -/
theorem Child.replaceNamed?_eq_none_iff : replaceNamed? name new children = none ↔
    ∀ child ∈ children, child.isNamed name = false := by
  induction children with
  | nil => simp [replaceNamed?]
  | cons child rest ih => cases hn : child.isNamed name <;> simp [replaceNamed?, hn, ih]

theorem Node.countNamed_of_spliceNamed?
    (ih : (∀ child ∈ node.children, child.isNamed name = false) →
      Child.spliceWithin? name new node.children = none →
        Child.countNamed name node.children = 0)
    (h : node.spliceNamed? name new = none) : node.countNamed name = 0 := by
  cases node with
  | mk tag attributes children =>
    rw [spliceNamed?, Option.map_eq_none_iff] at h
    rw [countNamed]
    split at h
    next => cases h
    next hr => exact ih (Child.replaceNamed?_eq_none_iff.1 hr) h

/-- Where nothing is replaced, no element has the name. -/
theorem Child.countNamed_of_spliceWithin?
    (hn : ∀ child ∈ children, child.isNamed name = false)
    (h : spliceWithin? name new children = none) : countNamed name children = 0 := by
  induction children using Child.inductionOn with
  | nil => rfl
  | text s rest ih =>
    rw [spliceWithin?, Option.map_eq_none_iff] at h
    rw [countNamed]
    exact ih (fun c hc => hn c (List.mem_cons_of_mem _ hc)) h
  | element node rest ih ih' =>
    rw [spliceWithin?] at h
    split at h
    next => cases h
    next hs =>
      rw [Option.map_eq_none_iff] at h
      have hnode : ¬ Text.sameName node.name name = true :=
        Bool.eq_false_iff.1 (hn (.element node) (List.mem_cons_self ..))
      rw [countNamed, if_neg hnode, Node.countNamed_of_spliceNamed? ih hs,
        ih' (fun c hc => hn c (List.mem_cons_of_mem _ hc)) h]

theorem Node.exists_spliceNamed? (new : List Child) (h : node.countNamed name ≠ 0) :
    ∃ spliced, node.spliceNamed? name new = some spliced := by
  cases hs : node.spliceNamed? name new with
  | some spliced => exact ⟨spliced, rfl⟩
  | none => exact absurd (countNamed_of_spliceNamed? Child.countNamed_of_spliceWithin? hs) h

/-! ## The only element with a name -/

theorem Child.replaceNamed?_append (rest : List Child)
    (h : ∀ child ∈ children, child.isNamed name = false) :
    replaceNamed? name new (children ++ rest) = (replaceNamed? name new rest).map (children ++ ·) := by
  induction children with
  | nil => simp
  | cons child children ih =>
    rw [List.forall_mem_cons] at h
    rw [List.cons_append, replaceNamed?, h.1, if_neg Bool.false_ne_true, ih h.2, Option.map_map]
    rfl

theorem Node.spliceNamed?_of_countNamed (h : node.countNamed name = 0) :
    node.spliceNamed? name new = none := by
  rw [Option.eq_none_iff_forall_ne_some]
  intro spliced hs
  obtain ⟨context, found, hname, rfl, -⟩ := splices_of_spliceNamed? hs
  rw [context.countNamed_fill, Child.countNamed, if_pos hname] at h
  omega

theorem Child.spliceWithin?_append (rest : List Child) (h : countNamed name children = 0) :
    spliceWithin? name new (children ++ rest) = (spliceWithin? name new rest).map (children ++ ·) := by
  induction children with
  | nil => simp
  | cons child children ih =>
    cases child with
    | text s =>
      rw [List.cons_append, spliceWithin?, ih h, Option.map_map]
      rfl
    | element node =>
      rw [countNamed] at h
      rw [List.cons_append, spliceWithin?, Node.spliceNamed?_of_countNamed (by omega), ih (by omega),
        Option.map_map]
      rfl

theorem Child.isNamed_of_countNamed (h : countNamed name children = 0) :
    ∀ child ∈ children, child.isNamed name = false := by
  rintro (node | s) hc
  · exact (countNamed_eq_zero_iff.1 h node hc).root
  · rfl

/-- **What is in the gap is spliced**, if it is the only element with the name. -/
theorem NodeContext.spliceNamed?_fill (context : NodeContext)
    (hname : Text.sameName node.name name = true) (h : (context.fill []).countNamed name = 0) :
    (context.fill [.element node]).spliceNamed? name new = some (context.fill new) := by
  obtain ⟨tag, attributes, inner⟩ := context
  simp only [fill, Node.countNamed] at h ⊢
  induction inner generalizing tag attributes with
  | here before after =>
    rw [ChildContext.fill, Child.countNamed_append] at h
    have hbefore := Child.isNamed_of_countNamed (by omega : Child.countNamed name before = 0)
    have hfound : Child.replaceNamed? name new (.element node :: after) = some (new ++ after) := by
      rw [Child.replaceNamed?, Child.isNamed, if_pos hname]
    rw [Node.spliceNamed?, ChildContext.fill, List.singleton_append,
      Child.replaceNamed?_append _ hbefore, hfound]
    rfl
  | inside before inside attrs inner after ih =>
    rw [ChildContext.fill, Child.countNamed_append, Child.countNamed, Node.countNamed] at h
    have hbefore : Child.countNamed name before = 0 := by omega
    have hafter : Child.countNamed name after = 0 := by omega
    have htag : Text.sameName inside name = false := by
      rw [← Bool.not_eq_true]
      intro hsame
      rw [if_pos hsame] at h
      omega
    have hnone : Child.replaceNamed? name new
        (before ++ .element ⟨inside, attrs, inner.fill [.element node]⟩ :: after) = none := by
      rw [Child.replaceNamed?_eq_none_iff, List.forall_mem_append, List.forall_mem_cons]
      exact ⟨Child.isNamed_of_countNamed hbefore, htag, Child.isNamed_of_countNamed hafter⟩
    rw [Node.spliceNamed?, ChildContext.fill, hnone, Child.spliceWithin?_append _ hbefore,
      Child.spliceWithin?, ih inside attrs (by omega)]
    rfl

/-! ## Filling the slot -/

open Bindings (slotName)

theorem slotCount_eq_zero_iff : slotCount node = 0 ↔ node.Lacks slotName := by
  rw [Node.lacks_iff, slotCount]
  cases Text.sameName node.name slotName <;> simp

theorem NodeContext.slotCount_fill (context : NodeContext) (new : List Child) :
    slotCount (context.fill new) = slotCount (context.fill []) + Child.countNamed slotName new := by
  rw [slotCount, slotCount, countNamed_fill, Nat.add_assoc, fill, fill]

/-- **The slot in a gap is filled**, if there is no other one. -/
theorem NodeContext.fillSlot?_fill (context : NodeContext) (h : slotCount (context.fill []) = 0)
    (new : List Child) :
    fillSlot? new (context.fill [.element (.leaf slotName)]) = some (context.fill new) := by
  obtain ⟨hroot, hcount⟩ := Node.lacks_iff.1 (slotCount_eq_zero_iff.1 h)
  have hslot : Text.sameName (Node.leaf slotName).name slotName = true := Text.sameName_refl _
  have hone : slotCount (context.fill [.element (.leaf slotName)]) = 1 := by
    rw [slotCount_fill, h, Child.countNamed, if_pos hslot]
    rfl
  have hname : Text.sameName (context.fill [.element (.leaf slotName)]).name slotName = false := hroot
  rw [fillSlot?, hone, hname, context.spliceNamed?_fill hslot hcount]
  rfl

/-- **Whether a slot can be filled does not depend on the children.** A tree with several slots, or
that is one itself, cannot be filled; one without slots stays as it is; and in any other one the
children replace the only slot. -/
theorem fillSlot?_cases (root : Node) : (∀ children, fillSlot? children root = none) ∨
    (root.Lacks slotName ∧ ∀ children, fillSlot? children root = some root) ∨
    ∃ (context : NodeContext) (found : Node), root = context.fill [.element found] ∧
      slotCount (context.fill []) = 0 ∧
      ∀ children, fillSlot? children root = some (context.fill children) := by
  by_cases hnone : slotCount root = 0
  · refine .inr (.inl ⟨slotCount_eq_zero_iff.1 hnone, fun children => ?_⟩)
    rw [fillSlot?, if_pos hnone]
  by_cases hone : (slotCount root = 1 && !Text.sameName root.name slotName) = true
  · have hfill (children : List Child) : fillSlot? children root =
        some ((root.spliceNamed? slotName children).getD root) := by
      rw [fillSlot?, if_neg hnone, if_pos hone]
    simp only [Bool.and_eq_true, decide_eq_true_eq, Bool.not_eq_true'] at hone
    obtain ⟨hcount, hroot⟩ := hone
    have hne : root.countNamed slotName ≠ 0 := by
      rwa [slotCount, hroot, if_neg Bool.false_ne_true, Nat.zero_add] at hnone
    obtain ⟨spliced, hs⟩ := Node.exists_spliceNamed? [] hne
    obtain ⟨context, found, hname, rfl, -⟩ := Node.splices_of_spliceNamed? hs
    rw [context.slotCount_fill, Child.countNamed, if_pos hname] at hcount
    have hrest : slotCount (context.fill []) = 0 := by omega
    have hgap := (Node.lacks_iff.1 (slotCount_eq_zero_iff.1 hrest)).2
    refine .inr (.inr ⟨context, found, rfl, hrest, fun children => ?_⟩)
    rw [hfill, context.spliceNamed?_fill hname hgap, Option.getD_some]
  · refine .inl fun children => ?_
    rw [fillSlot?, if_neg hnone, if_neg hone]

/-- **Filling the slot** leaves a tree without slots as it is. In another one it replaces the only
slot, which is not the root. -/
theorem of_fillSlot? {root filled : Node} (h : fillSlot? children root = some filled) :
    (root.Lacks slotName ∧ filled = root) ∨ ∃ (context : NodeContext) (found : Node),
      root = context.fill [.element found] ∧ filled = context.fill children ∧
        slotCount (context.fill []) = 0 := by
  rcases fillSlot?_cases root with hnone | ⟨hlacks, hsame⟩ | ⟨context, found, hroot, hrest, hfill⟩
  · rw [hnone] at h
    cases h
  · rw [hsame] at h
    exact .inl ⟨hlacks, (Option.some_inj.1 h).symm⟩
  · rw [hfill] at h
    exact .inr ⟨context, found, hroot, (Option.some_inj.1 h).symm, hrest⟩

end ComponentMarkup
