/-
  The keys that every view can refer to.

  * `Bindings.nodup_reserved`: the reserved keys are different.
  * `Bindings.get?_ofNode`: each of them has its reserved value, whatever the attributes of the
    component are.
-/
import Mathlib.Data.List.Nodup
import ComponentMarkup.View.Binding

namespace ComponentMarkup.Bindings

variable {key : String} {value : Value}

/-- The keys of the class levels are different. -/
theorem levelKey_injective : Function.Injective fun n : Nat => s!"class{n}" := by
  intro m n h
  have hlists : "class".toList ++ m.repr.toList = "class".toList ++ n.repr.toList := by
    rw [← String.toList_append, ← String.toList_append]
    exact congrArg String.toList h
  have hdigits : Nat.toDigits 10 m = Nat.toDigits 10 n := by
    simpa using List.append_cancel_left hlists
  calc
    m = Nat.ofDigitChars 10 (Nat.toDigits 10 m) 0 := Nat.ofDigitChars_ten_toDigits.symm
    _ = Nat.ofDigitChars 10 (Nat.toDigits 10 n) 0 := by rw [hdigits]
    _ = n := Nat.ofDigitChars_ten_toDigits

/-- None of them is the key of the class, or begins with another letter. -/
theorem levelKey_ne {n : Nat} (h : key.toList.head? ≠ some 'c' ∨ key = "class") :
    s!"class{n}" ≠ key := by
  rintro rfl
  have hlist : (s!"class{n}").toList = "class".toList ++ n.repr.toList := String.toList_append ..
  rcases h with h | h
  · rw [hlist] at h
    exact h rfl
  · rw [h] at hlist
    have hnil := List.append_cancel_left (hlist.symm.trans (List.append_nil _).symm)
    exact Nat.repr_ne_empty (String.toList_eq_nil_iff.1 hnil)

/-- **The reserved keys are different.** -/
theorem nodup_reserved (node : Node) (parents : List String) (classes : ClassSet) (inner : String) :
    ((reserved node parents classes inner).map Prod.fst).Nodup := by
  have hlevels : (classes.levels.zipIdx 1).map (fun e => s!"class{e.2}") =
      (List.range' 1 classes.levels.length).map fun n => s!"class{n}" := by
    rw [← List.zipIdx_map_snd 1 classes.levels, List.map_map]
    rfl
  have hkeys : (reserved node parents classes inner).map Prod.fst =
      ["nodeName", "nodeParents", slotName, "class"] ++
        ((classes.levels.zipIdx 1).map (fun e => s!"class{e.2}") ++ ["__proto__"]) := by
    rw [reserved, List.map_append, List.map_append, List.map_map, List.append_assoc]
    rfl
  have hlevel : ∀ key : String, (key.toList.head? ≠ some 'c' ∨ key = "class") →
      key ∉ (List.range' 1 classes.levels.length).map fun n => s!"class{n}" := by
    intro key h hmem
    obtain ⟨n, -, hn⟩ := List.mem_map.1 hmem
    exact levelKey_ne h hn
  rw [hkeys, hlevels, List.nodup_append, List.nodup_append]
  refine ⟨by decide, ⟨(List.nodup_range' ..).map levelKey_injective, by simp, ?_⟩, ?_⟩
  · rintro key hmem _ hlast rfl
    rw [List.mem_singleton] at hlast
    exact hlevel _ (.inl (by rw [hlast]; decide)) hmem
  · intro key hfirst other hmem he
    rw [← he, List.mem_append, List.mem_singleton] at hmem
    have hfour : (key.toList.head? ≠ some 'c' ∨ key = "class") ∧ key ≠ "__proto__" := by
      simp only [List.mem_cons, List.not_mem_nil, or_false] at hfirst
      rcases hfirst with rfl | rfl | rfl | rfl <;> decide
    exact hmem.elim (hlevel key hfour.1) hfour.2

/-- **A reserved key has its reserved value**, whatever the attributes of the component are. -/
theorem get?_ofNode {node : Node} {parents : List String} {classes : ClassSet} {inner : String}
    (h : (key, value) ∈ reserved node parents classes inner) :
    (ofNode node parents classes inner).get? key = some value :=
  OrderedMap.get?_foldl_insert_of_mem h (fun _ hother => congrArg Prod.snd <|
    List.inj_on_of_nodup_map (nodup_reserved node parents classes inner) hother h rfl) _

end ComponentMarkup.Bindings
