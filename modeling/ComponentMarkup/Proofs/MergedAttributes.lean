/-
  The attributes of an element in the place of a component.

  * `Firsts`: of the elements of a list, those that a predicate chooses, each where it comes first.
  * `exists_passed`: passing attributes on adds those that the root lacks and the component has, and
    changes none.
  * `mergedEntries`: the attributes of a root with those that are passed on to it, and with another
    class in the place of its own. Merging gives these (`entries_mergeAttributes`).
  * `Expander.applyTemplate_merges`: the root in the place of a component has the name and the
    children of the tree, apart from those in its slot, and the merged attributes.
-/
import Mathlib.Data.List.Basic
import ComponentMarkup.Proofs.Splicing
import ComponentMarkup.Proofs.TemplateApplication

namespace ComponentMarkup

open Bindings (slotName)

/-! ## First places -/

/-- The elements of `all` that satisfy `P`, each once and in the order in which they come first. -/
structure Firsts {α : Type} [DecidableEq α] (P : α → Prop) (all chosen : List α) : Prop where
  mem_iff : ∀ a, a ∈ chosen ↔ a ∈ all ∧ P a
  ordered : chosen.Pairwise fun a b => all.idxOf a < all.idxOf b

namespace Firsts

variable {α : Type} [DecidableEq α] {P Q : α → Prop} {all chosen : List α} {a : α}

theorem nil : Firsts P [] [] := ⟨by simp, .nil⟩

theorem congr (hpq : ∀ a, P a ↔ Q a) (h : Firsts P all chosen) : Firsts Q all chosen :=
  ⟨fun a => by rw [h.mem_iff, hpq], h.ordered⟩

/-- One more element at the front moves the others on by one place. -/
theorem ordered_cons (h : Firsts P all chosen) (ha : a ∉ chosen) :
    chosen.Pairwise fun b c => (a :: all).idxOf b < (a :: all).idxOf c := by
  refine h.ordered.imp_of_mem fun {b c} hb hc hlt => ?_
  have hne : ∀ d ∈ chosen, a ≠ d := fun d hd he => ha (he ▸ hd)
  rw [List.idxOf_cons_ne _ (hne b hb), List.idxOf_cons_ne _ (hne c hc)]
  exact Nat.succ_lt_succ hlt

theorem skip (ha : ¬ P a) (h : Firsts P all chosen) : Firsts P (a :: all) chosen := by
  refine ⟨fun b => ?_, h.ordered_cons fun hmem => ha ((h.mem_iff a).1 hmem).2⟩
  rw [h.mem_iff, List.mem_cons]
  constructor
  · rintro ⟨hb, hp⟩
    exact ⟨.inr hb, hp⟩
  · rintro ⟨rfl | hb, hp⟩
    · exact absurd hp ha
    · exact ⟨hb, hp⟩

theorem take (ha : P a) (h : Firsts (fun b => P b ∧ b ≠ a) all chosen) :
    Firsts P (a :: all) (a :: chosen) := by
  have hnot : a ∉ chosen := fun hmem => ((h.mem_iff a).1 hmem).2.2 rfl
  refine ⟨fun b => ?_, List.pairwise_cons.2 ⟨fun b hb => ?_, h.ordered_cons hnot⟩⟩
  · rw [List.mem_cons, List.mem_cons, h.mem_iff]
    by_cases hb : b = a
    · simp [hb, ha]
    · simp [hb]
  · have hne : a ≠ b := fun he => hnot (he ▸ hb)
    rw [List.idxOf_cons_self, List.idxOf_cons_ne _ hne]
    exact Nat.succ_pos _

end Firsts

theorem firsts_eraseDups_filter {α : Type} [DecidableEq α] (q : α → Bool) (all : List α) :
    Firsts (fun a => q a = true) all (all.filter q).eraseDups := by
  induction all generalizing q with
  | nil => exact .nil
  | cons a all ih =>
    cases hq : q a with
    | false =>
      rw [List.filter_cons_of_neg (by rw [hq]; exact Bool.false_ne_true)]
      exact (ih q).skip (by rw [hq]; exact Bool.false_ne_true)
    | true =>
      rw [List.filter_cons_of_pos hq, List.eraseDups_cons, List.filter_filter]
      exact .take hq ((ih _).congr fun b => by simp [and_comm])

/-- Erasing duplicates leaves each element where it comes first. -/
theorem firsts_eraseDups {α : Type} [DecidableEq α] (all : List α) :
    Firsts (fun _ => True) all all.eraseDups := by
  have h := firsts_eraseDups_filter (fun _ => true) all
  rw [List.filter_eq_self.2 fun _ _ => rfl] at h
  exact h.congr fun _ => by simp

/-! ## Setting one attribute -/

namespace OrderedMap

variable {α β : Type} [DecidableEq α] {k : α} {b : β}

theorem flatMap_replace_of_not_mem {es : List (α × β)} (new : List (α × β))
    (h : k ∉ es.map Prod.fst) : es.flatMap (fun e => if e.1 = k then new else [e]) = es := by
  have hother : ∀ e ∈ es, (if e.1 = k then new else [e]) = [e] := fun e he =>
    if_neg fun hek => h (List.mem_map.2 ⟨e, he, hek⟩)
  rw [List.flatMap_congr hother, List.flatMap_singleton']

theorem put_eq {es : List (α × β)} (h : (es.map Prod.fst).Nodup) : put k b es =
    es.flatMap (fun e => if e.1 = k then [(k, b)] else [e]) ++
      if k ∈ es.map Prod.fst then [] else [(k, b)] := by
  induction es with
  | nil => rfl
  | cons e es ih =>
    obtain ⟨k', b'⟩ := e
    rw [List.map_cons, List.nodup_cons] at h
    by_cases hk : k' = k
    · subst hk
      simp [put, flatMap_replace_of_not_mem _ h.1]
    · have hk' : ¬ k = k' := Ne.symm hk
      simp only [put, hk, hk', ih h.2, if_false, List.flatMap_cons, List.map_cons,
        List.mem_cons, false_or, List.cons_append, List.nil_append]

/-- A known key keeps its place, and a new one comes last. -/
theorem entries_insert (m : OrderedMap α β) (k : α) (b : β) : (m.insert k b).entries =
    m.entries.flatMap (fun e => if e.1 = k then [(k, b)] else [e]) ++
      if k ∈ m.keys then [] else [(k, b)] :=
  put_eq m.nodup

theorem entries_erase (m : OrderedMap α β) (k : α) : (m.erase k).entries =
    m.entries.flatMap (fun e => if e.1 = k then [] else [e]) := by
  change m.entries.filter (fun e => e.1 ≠ k) = _
  induction m.entries with
  | nil => rfl
  | cons e es ih =>
    rw [List.filter_cons, List.flatMap_cons, ih]
    by_cases hk : e.1 = k <;> simp [hk]

end OrderedMap

/-! ## Passing on -/

/-- An attribute that a component passes on to a root when it is listed: not its class, and one that
the root lacks and the component has. -/
def IsPassed (component root : Node) (key : String) : Prop :=
  Text.sameName key "class" = false ∧ root.attribute? key = none ∧
    (component.attribute? key).isSome = true

theorem isPassed_setAttribute_iff {component root : Node} {key value other : String} :
    IsPassed component (root.setAttribute key value) other ↔
      IsPassed component root other ∧ other ≠ key := by
  have hget : (root.setAttribute key value).attribute? other =
      if key = other then some value else root.attribute? other := OrderedMap.get?_insert
  rw [IsPassed, IsPassed, hget]
  by_cases hk : key = other
  · simp [hk]
  · simp [hk, Ne.symm hk]

/-- **Passing attributes on** adds them after those of the root, in the order of the list. -/
theorem exists_passed (passAttributes : List String) (component root : Node) :
    ∃ passed, (passOn passAttributes component root).attributes.entries =
        root.attributes.entries ++ passed ∧
      (∀ entry ∈ passed, component.attribute? entry.1 = some entry.2) ∧
      Firsts (IsPassed component root) passAttributes (passed.map Prod.fst) := by
  unfold passOn
  induction passAttributes generalizing root with
  | nil => exact ⟨[], by simp, by simp, .nil⟩
  | cons key keys ih =>
    -- what is not passed on leaves the root as it is
    have skip (hnot : ¬ IsPassed component root key) : ∃ passed,
        (keys.foldl _ root).attributes.entries = root.attributes.entries ++ passed ∧
          (∀ entry ∈ passed, component.attribute? entry.1 = some entry.2) ∧
          Firsts (IsPassed component root) (key :: keys) (passed.map Prod.fst) :=
      let ⟨passed, hentries, hvalues, hfirsts⟩ := ih root
      ⟨passed, hentries, hvalues, hfirsts.skip hnot⟩
    rw [List.foldl_cons]
    split
    next hskip =>
      refine skip fun ⟨hclass, hlacks, _⟩ => ?_
      rw [hclass, hlacks] at hskip
      cases hskip
    next htake =>
      simp only [Bool.or_eq_true, not_or, Bool.not_eq_true, Option.isSome_eq_false_iff,
        Option.isNone_iff_eq_none] at htake
      split
      next value hvalue =>
        obtain ⟨passed, hentries, hvalues, hfirsts⟩ := ih (root.setAttribute key value)
        have hnew : key ∉ root.attributes.keys := by
          rw [← OrderedMap.contains_iff, OrderedMap.contains]
          exact Option.not_isSome_iff_eq_none.2 htake.2
        refine ⟨(key, value) :: passed, ?_, List.forall_mem_cons.2 ⟨hvalue, hvalues⟩, ?_⟩
        · rw [hentries, Node.setAttribute, OrderedMap.entries_insert_of_not_mem hnew,
            List.append_assoc, List.singleton_append]
        · refine .take ⟨htake.1, htake.2, by rw [hvalue]; rfl⟩ ?_
          exact hfirsts.congr fun _ => isPassed_setAttribute_iff
      next hnone =>
        refine skip fun ⟨_, _, hhas⟩ => ?_
        rw [hnone] at hhas
        cases hhas

/-! ## Merging classes -/

/-- The class attribute with the given words; none without words. -/
def classEntry (words : List String) : List (String × String) :=
  if words = [] then [] else [("class", " ".intercalate words)]

/-- The words of the three classes of a component and its root, one class after the other. -/
def allClassWords (computed : String) (component root : Node) : List String :=
  Text.blankWords computed ++ Text.blankWords ((root.attribute? "class").getD "") ++
    Text.blankWords ((component.attribute? "class").getD "")

theorem classWords_eq (computed : String) (component root : Node) :
    classWords [some computed, root.attribute? "class", component.attribute? "class"] =
      (allClassWords computed component root).eraseDups := by
  have hwords (value : Option String) :
      (value.map Text.blankWords).getD [] = Text.blankWords (value.getD "") := by
    cases value <;> rfl
  simp [classWords, allClassWords, hwords]

/-- The attributes `own` of a root with the attributes that are passed on to it, and with the class
of the given words in the place of its own. -/
def mergedEntries (own passed : List (String × String)) (words : List String) :
    List (String × String) :=
  own.flatMap (fun e => if e.1 = "class" then classEntry words else [e]) ++ passed ++
    if "class" ∈ own.map Prod.fst then [] else classEntry words

theorem mergedEntries_append {passed : List (String × String)} (own : List (String × String))
    (words : List String) (h : "class" ∉ passed.map Prod.fst) :
    mergedEntries (own ++ passed) [] words = mergedEntries own passed words := by
  have hmem : "class" ∈ (own ++ passed).map Prod.fst ↔ "class" ∈ own.map Prod.fst := by
    rw [List.map_append, List.mem_append]
    exact or_iff_left h
  simp only [mergedEntries, List.flatMap_append, OrderedMap.flatMap_replace_of_not_mem _ h,
    List.append_nil, hmem]

/-- **The class takes the place of the root's class**, or comes last if the root has none. -/
theorem entries_mergeClasses (computed : String) (component root : Node) :
    (mergeClasses computed component root).attributes.entries =
      mergedEntries root.attributes.entries []
        (allClassWords computed component root).eraseDups := by
  unfold mergeClasses mergedEntries
  rw [classWords_eq, List.append_nil]
  split
  next hnone =>
    rw [hnone, classEntry, if_pos rfl, ite_self, List.append_nil, Node.removeAttribute,
      OrderedMap.entries_erase]
  next words hne =>
    rw [Node.setAttribute, OrderedMap.entries_insert, classEntry, if_neg fun he => hne he]
    rfl

/-! ## Applying a template -/

theorem entries_mergeAttributes (markup : MarkupConfig) (computed : String)
    (component root : Node) : ∃ passed,
      (∀ entry ∈ passed, component.attribute? entry.1 = some entry.2) ∧
      Firsts (IsPassed component root) markup.passAttributes (passed.map Prod.fst) ∧
      (mergeAttributes markup computed component root).attributes.entries =
        mergedEntries root.attributes.entries passed
          (allClassWords computed component root).eraseDups := by
  obtain ⟨passed, hentries, hvalues, hfirsts⟩ :=
    exists_passed markup.passAttributes component root
  have hclass : "class" ∉ passed.map Prod.fst := fun hmem => by
    have hsame : Text.sameName "class" "class" = false := ((hfirsts.mem_iff _).1 hmem).2.1
    rw [Text.sameName_refl] at hsame
    cases hsame
  have hsame : (passOn markup.passAttributes component root).attribute? "class" =
      root.attribute? "class" := by
    refine Option.ext fun value => ?_
    rw [Node.attribute?, Node.attribute?, OrderedMap.get?_eq_some_iff, OrderedMap.get?_eq_some_iff,
      hentries, List.mem_append]
    exact or_iff_left fun hmem => hclass (List.mem_map.2 ⟨_, hmem, rfl⟩)
  have hwords : allClassWords computed component (passOn markup.passAttributes component root) =
      allClassWords computed component root := by
    rw [allClassWords, allClassWords, hsame]
  refine ⟨passed, hvalues, hfirsts, ?_⟩
  rw [mergeAttributes, entries_mergeClasses, hentries, hwords, mergedEntries_append _ _ hclass]

theorem Expander.entries_unmarkScope (x : Expander) (root : Node) :
    (x.unmarkScope root).attributes.entries = root.attributes.entries.filter fun e =>
      x.config.classes.scopeAttribute = "" ∨ e.1 ≠ x.config.classes.scopeAttribute := by
  unfold unmarkScope
  split
  next hnone => simp [hnone]
  next hsome => simp [hsome, Node.removeAttribute, OrderedMap.erase]

/-- What stands in the slot is all that filling it changes. -/
theorem exists_fillSlot? {tree : Node} (children : List Child)
    (hroot : Text.sameName tree.name slotName = false) (hslots : tree.countNamed slotName ≤ 1) :
    ∃ filled, fillSlot? children tree = some ⟨tree.name, tree.attributes, filled⟩ ∧
      (tree.countNamed slotName = 0 ∧ filled = tree.children ∨
        Child.Splices slotName children tree.children filled) := by
  have hcount : slotCount tree = tree.countNamed slotName := by
    rw [slotCount, hroot, if_neg Bool.false_ne_true, Nat.zero_add]
  by_cases hnone : tree.countNamed slotName = 0
  · refine ⟨tree.children, ?_, .inl ⟨hnone, rfl⟩⟩
    rw [fillSlot?, if_pos (hcount.trans hnone)]
    cases tree; rfl
  · have hone : slotCount tree = 1 := by omega
    obtain ⟨spliced, hspliced⟩ := Node.exists_spliceNamed? children hnone
    obtain ⟨context, found, hname, htree, rfl⟩ := Node.splices_of_spliceNamed? hspliced
    subst htree
    refine ⟨context.inner.fill children, ?_, .inr ⟨context.inner, found, hname, rfl, rfl⟩⟩
    rw [fillSlot?, if_neg (by rw [hone]; decide), hone, hroot, if_pos (by decide), hspliced]
    rfl

/-- **The attributes of the root** in the place of a component. Those of the tree stay in their order
and with their values, apart from its class. After them come those that are passed on. The class
holds the words of the computed class, of the tree's class and of the component's class, each once.
The mark of a scope is gone. -/
theorem Expander.applyTemplate_merges (x : Expander) (s : Surroundings) (node : Node)
    (names : List String) (scope : Option String) {name : String} {tree : Node}
    (hrun : (x.runFirst node.name s (x.bindingsIn s node scope) names).value = .ok (name, tree))
    (hroot : Text.sameName tree.name slotName = false) (hslots : tree.countNamed slotName ≤ 1) :
    ∃ root inner passed words,
      (x.applyTemplate s node names scope).value = .ok (root, inner) ∧
      root.name = tree.name ∧
      (tree.countNamed slotName = 0 ∧ root.children = tree.children ∨
        Child.Splices slotName node.children tree.children root.children) ∧
      (∀ entry ∈ passed, node.attribute? entry.1 = some entry.2) ∧
      Firsts (IsPassed node tree) x.config.markup.passAttributes (passed.map Prod.fst) ∧
      Firsts (fun _ => True) (allClassWords (x.classesIn s node scope).default node tree) words ∧
      root.attributes.entries = (mergedEntries tree.attributes.entries passed words).filter
        fun e => x.config.classes.scopeAttribute = "" ∨ e.1 ≠ x.config.classes.scopeAttribute := by
  obtain ⟨children, hfill, hchildren⟩ := exists_fillSlot? node.children hroot hslots
  let filled : Node := ⟨tree.name, tree.attributes, children⟩
  obtain ⟨passed, hvalues, hfirsts, hentries⟩ := entries_mergeAttributes x.config.markup
    (x.classesIn s node scope).default node filled
  obtain ⟨attrs, inner, hmerged⟩ := x.merged_eq (x.classesIn s node scope) node filled scope
  refine ⟨⟨tree.name, attrs, children⟩, inner, passed, _, ?_, rfl, hchildren, hvalues, hfirsts,
    firsts_eraseDups _, ?_⟩
  · rw [value_applyTemplate hrun hfill, hmerged]
  · have hroot : (x.merged (x.classesIn s node scope) node scope filled).1 =
        ⟨tree.name, attrs, children⟩ := by rw [hmerged]
    have hattrs : attrs = (x.unmarkScope (mergeAttributes x.config.markup
        (x.classesIn s node scope).default node filled)).attributes :=
      (congrArg Node.attributes hroot).symm
    rw [hattrs, entries_unmarkScope, hentries]
    rfl

/-- The list of attributes to pass on repeats one and has the class in it. -/
theorem Expander.applyTemplate_merges_card :
    let tree : Node := ⟨"div", .ofList [("title", "t"), ("class", " box card"), ("scope", "")],
      [.element (.leaf "yield")]⟩
    let x : Expander := ⟨{ markup := { passAttributes := ["id", "title", "id", "CLASS", "lang"] } },
      .ofNames "-" ["card"], fun _ _ => pure (.ok tree)⟩
    let node : Node := ⟨"Card", .ofList [("id", "1"), ("class", "big card"), ("title", "u")],
      [.text "a"]⟩
    let s : Surroundings := ⟨["Card"], ["card"]⟩
    ∃ root inner passed words, (x.applyTemplate s node ["card"] none).value = .ok (root, inner) ∧
      root.name = "div" ∧ Child.Splices slotName node.children tree.children root.children ∧
      Firsts (IsPassed node tree) ["id", "title", "id", "CLASS", "lang"] (passed.map Prod.fst) ∧
      Firsts (fun _ => True) ["card", "box", "card", "big", "card"] words ∧
      root.attributes.entries =
        (mergedEntries tree.attributes.entries passed words).filter (·.1 ≠ "scope") := by
  intro tree x node s
  have hrun : (x.runFirst node.name s (x.bindingsIn s node none) ["card"]).value =
      .ok ("card", tree) := rfl
  obtain ⟨root, inner, passed, words, hvalue, hname, hchildren, -, hpassed, hwords, hentries⟩ :=
    applyTemplate_merges x s node ["card"] none hrun (by decide) (by decide)
  have hall : allClassWords (x.classesIn s node none).default node tree =
      ["card", "box", "card", "big", "card"] := by decide +kernel
  rw [hall] at hwords
  refine ⟨root, inner, passed, words, hvalue, hname, ?_, hpassed, hwords, ?_⟩
  · exact hchildren.resolve_left fun h => absurd h.1 (by decide)
  · exact hentries.trans (List.filter_congr fun _ _ => by simp [x])

end ComponentMarkup
