/-
  The attributes of a component as values that its view can refer to.

  * `Binds`: an attribute binds its own name, and its name in camel case.
  * `get?_ofNode_of_not_mem`: what a key refers to that is not reserved. Of the attributes that bind
    it, the last one counts.
  * `get?_ofNode_iff`: an attribute is found under its own name, unless a later one has that name in
    camel case and another value; all other keys are names in camel case.
  * `get?_ofNode_ne_of_camelCase`: two such attributes.
-/
import ComponentMarkup.Proofs.ReservedKeys

namespace ComponentMarkup.Bindings

variable {key : String} {node : Node} {parents : List String} {classes : ClassSet} {inner : String}

/-! ## Attributes that bind a key -/

/-- An attribute binds its own name, and its name in camel case if there is anything left of it. -/
def Binds (key : String) (attr : String × String) : Prop :=
  attr.1 = key ∨ (Naming.camelCase attr.1 = key ∧ key ≠ "")

instance (key : String) : DecidablePred (Binds key) :=
  fun _ => inferInstanceAs (Decidable (_ ∨ _))

/-- The name in camel case is bound beside the own one where it is another one. -/
theorem binds_iff {attr : String × String} : Binds key attr ↔ attr.1 = key ∨
    (¬ (Naming.camelCase attr.1 = "" ∨ Naming.camelCase attr.1 = attr.1) ∧
      Naming.camelCase attr.1 = key) := by
  unfold Binds
  by_cases hown : attr.1 = key
  · exact iff_of_true (.inl hown) (.inl hown)
  · rw [or_iff_right hown, or_iff_right hown]
    constructor
    · rintro ⟨rfl, hne⟩
      exact ⟨not_or.2 ⟨hne, Ne.symm hown⟩, rfl⟩
    · rintro ⟨hnot, rfl⟩
      exact ⟨rfl, fun hnil => hnot (.inl hnil)⟩

theorem get?_bindAttribute (bindings : Bindings) (attr : String × String) :
    (bindAttribute bindings attr).get? key =
      if Binds key attr then some (.text attr.2) else bindings.get? key := by
  rw [if_congr binds_iff rfl rfl]
  unfold bindAttribute
  dsimp only
  by_cases hcamel : Naming.camelCase attr.1 = "" ∨ Naming.camelCase attr.1 = attr.1
  · rw [if_pos hcamel, OrderedMap.get?_insert]
    simp only [hcamel, not_true, false_and, or_false]
  · rw [if_neg hcamel, OrderedMap.get?_insert, OrderedMap.get?_insert]
    by_cases hkey : Naming.camelCase attr.1 = key
    · rw [if_pos hkey, if_pos (.inr ⟨hcamel, hkey⟩)]
    · simp only [hkey, and_false, or_false, if_false]

/-- **Of the attributes that bind a key, the last one counts.** -/
theorem get?_foldl_bindAttribute (attrs : List (String × String)) (bindings : Bindings) :
    (attrs.foldl bindAttribute bindings).get? key =
      ((attrs.reverse.find? (Binds key ·)).map fun attr => .text attr.2).or
        (bindings.get? key) := by
  induction attrs generalizing bindings with
  | nil => rfl
  | cons attr attrs ih =>
    rw [List.foldl_cons, ih, get?_bindAttribute, List.reverse_cons, List.find?_append]
    cases attrs.reverse.find? (Binds key ·) with
    | some _ => rfl
    | none =>
      by_cases h : Binds key attr <;> simp [h]

/-! ## Keys that are not reserved -/

/-- The reserved keys, with those of the classes of all lengths. -/
def reservedKeys : List String :=
  ["nodeName", "nodeParents", "yield", "class", "class1", "class2", "class3", "class4", "class5",
    "__proto__"]

theorem map_fst_reserved (h : classes.levels.length = classLevels) :
    (reserved node parents classes inner).map Prod.fst = reservedKeys := by
  obtain ⟨value, levels⟩ := classes
  match levels, h with
  | [_, _, _, _, _], _ => rfl

/-- What a key refers to that is not reserved. -/
theorem get?_ofNode_of_not_mem (hlevels : classes.levels.length = classLevels)
    (hkey : key ∉ reservedKeys) :
    (ofNode node parents classes inner).get? key =
      (node.attributes.entries.reverse.find? (Binds key ·)).map fun attr => .text attr.2 := by
  rw [← map_fst_reserved hlevels] at hkey
  rw [ofNode, OrderedMap.get?_foldl_insert hkey, get?_foldl_bindAttribute, OrderedMap.get?_empty,
    Option.or_none]

/-- An attribute that is found under its own name. No other attribute has that name, but a later one
can have it in camel case. -/
theorem get?_ofNode_own_iff {before after : List (String × String)} {attr : String × String}
    (hlevels : classes.levels.length = classLevels) (hkey : attr.1 ∉ reservedKeys)
    (hentries : node.attributes.entries = before ++ attr :: after) :
    (ofNode node parents classes inner).get? attr.1 = some (.text attr.2) ↔
      ∀ later ∈ after.reverse.find? (Binds attr.1 ·), later.2 = attr.2 := by
  have hreverse : node.attributes.entries.reverse = after.reverse ++ attr :: before.reverse := by
    rw [hentries, List.reverse_append, List.reverse_cons, List.append_assoc]
    rfl
  have hown : (attr :: before.reverse).find? (Binds attr.1 ·) = some attr :=
    List.find?_cons_of_pos (decide_eq_true (.inl rfl))
  rw [get?_ofNode_of_not_mem hlevels hkey, hreverse, List.find?_append, hown]
  cases after.reverse.find? (Binds attr.1 ·) with
  | none => simp
  | some later => simp

/-- **What a view finds under each key.** A reserved key has its reserved value. An attribute is
found under its own name, exactly if no attribute after it has this name in camel case, or the last
such attribute has the same value. All other keys are names of attributes in camel case. -/
theorem get?_ofNode_iff (node : Node) (parents : List String) (inner : String)
    (hlevels : classes.levels.length = classLevels) :
    let bindings := ofNode node parents classes inner
    (reserved node parents classes inner).map Prod.fst = reservedKeys ∧
    (∀ entry ∈ reserved node parents classes inner, bindings.get? entry.1 = some entry.2) ∧
    (∀ before attr after, node.attributes.entries = before ++ attr :: after →
      attr.1 ∉ reservedKeys →
        (bindings.get? attr.1 = some (.text attr.2) ↔
          ∀ later ∈ after.reverse.find? (Binds attr.1 ·), later.2 = attr.2)) ∧
    ∀ key value, bindings.get? key = some value → key ∉ reservedKeys →
      key ∉ node.attributes.keys →
        ∃ attr ∈ node.attributes.entries, Naming.camelCase attr.1 = key ∧ value = .text attr.2 := by
  refine ⟨map_fst_reserved hlevels, fun _ => get?_ofNode, ?_, ?_⟩
  · intro before attr after hentries hkey
    exact get?_ofNode_own_iff hlevels hkey hentries
  · intro key value hvalue hkey hnot
    rw [get?_ofNode_of_not_mem hlevels hkey] at hvalue
    obtain ⟨attr, hfind, rfl⟩ := Option.map_eq_some_iff.1 hvalue
    have hmem := List.mem_reverse.1 (List.mem_of_find?_eq_some hfind)
    have hbinds : Binds key attr := by simpa using List.find?_some hfind
    rcases hbinds with hown | ⟨hcamel, -⟩
    · exact absurd (List.mem_map.2 ⟨attr, hmem, hown⟩) hnot
    · exact ⟨attr, hmem, hcamel, rfl⟩

/-- The same name in both spellings: the second attribute is found under its own name, the first
one is not. -/
theorem get?_ofNode_iff_card :
    let attributes : OrderedMap String String := .ofList [("dataId", "1"), ("data-id", "2")]
    let node : Node := ⟨"card", attributes, []⟩
    let classes : ClassSet := ⟨"card", ["card", "card", "card", "card", "card"]⟩
    let bindings := ofNode node ["page"] classes "text"
    classes.levels.length = classLevels ∧
    bindings.get? "nodeParents" = some (.list ["page"]) ∧
    bindings.get? "data-id" = some (.text "2") ∧
    bindings.get? "dataId" ≠ some (.text "1") := by
  intro attributes node classes bindings
  have hlevels : classes.levels.length = classLevels := rfl
  obtain ⟨-, hreserved, hown, -⟩ := get?_ofNode_iff node ["page"] "text" hlevels
  refine ⟨hlevels, hreserved ("nodeParents", .list ["page"]) (by simp [reserved]), ?_, ?_⟩
  · exact (hown [("dataId", "1")] ("data-id", "2") [] rfl (by decide)).2 (by decide)
  · exact mt (hown [] ("dataId", "1") [("data-id", "2")] rfl (by decide)).1 (by decide +kernel)

/-- An attribute that is not reserved is not found under its own name: a later one has that name in
camel case. -/
theorem get?_ofNode_ne_of_camelCase :
    let node : Node := ⟨"card", .ofList [("dataId", "1"), ("data-id", "2")], []⟩
    ("dataId", "1") ∈ node.attributes.entries ∧ "dataId" ∉ reservedKeys ∧
    ∀ parents inner, (ofNode node parents ⟨"", ["", "", "", "", ""]⟩ inner).get? "dataId" =
      some (.text "2") :=
  ⟨by decide, by decide, fun _ _ => rfl⟩

end ComponentMarkup.Bindings
