/-
  Expansion keeps trees legal.

  * `Views.GivesLegal`: views that give legal trees; stored ones do (`givesLegal_run`).
  * `isLegal_expanded?`: what is left of a legal tree is legal.
  * `parse_compile`: compiled markup is read as the normal form of the expanded document.
-/
import ComponentMarkup.Compile
import ComponentMarkup.Proofs.LegalEdits
import ComponentMarkup.Proofs.ParsedTree
import ComponentMarkup.Proofs.PlainExpansion
import ComponentMarkup.Proofs.RoundTrip

namespace ComponentMarkup

open Markup (VoidTags)

variable {voids : VoidTags}

/-! ## Views -/

/-- Every tree that the views give is legal. -/
def Views.GivesLegal (voids : VoidTags) (views : Views) : Prop :=
  ∀ name bindings root, (views name bindings).value = .ok root → root.isLegal voids = true

theorem isLegal_of_runSource {name source : String} {bindings : Bindings} {root : Node}
    (hv : voids.AvoidsRaw) (h : (runSource voids name source bindings).value = .ok root) :
    root.isLegal voids = true := by
  unfold runSource at h
  split at h
  next => cases h
  next template =>
    simp only [Logged.value_bind] at h
    split at h
    next => cases h
    next hp => cases h; exact isLegal_bodyOf (Markup.isLegal_of_parse hv hp)

theorem givesLegal_run {views : StoredViews} (hv : views.voids.AvoidsRaw) :
    views.run.GivesLegal views.voids := by
  intro name bindings root h
  unfold StoredViews.run at h
  split at h
  next => cases h
  next => exact isLegal_of_runSource hv h

/-! ## Expansion -/

namespace Expander

variable {x : Expander} {place : Place} {node root : Node} {children : List Child}

theorem isLegal_unmarkScope (h : root.isLegal voids = true) :
    (x.unmarkScope root).isLegal voids = true := by
  unfold unmarkScope
  split
  · exact h
  · exact Node.isLegal_removeAttribute h

theorem isLegal_replaced (hx : x.views.GivesLegal voids) (hn : place.node.isLegal voids = true) :
    (x.replaced place).node.isLegal voids = true := by
  cases h : x.applied? place with
  | none => rwa [replaced_of_none h]
  | some result =>
    obtain ⟨name, tree, filled, -, hview, hfill, rfl⟩ := of_applied? h
    obtain ⟨-, -, -, -, hchildren⟩ := Node.isLegal_iff.1 hn
    rw [replaced_of_some h]
    exact isLegal_unmarkScope
      (isLegal_mergeAttributes hn (isLegal_fillSlot? hchildren (hx _ _ _ hview) hfill))

theorem areLegal_mapChildren {step : Node → Option Node}
    (hs : ∀ node, node.isLegal voids = true → ∀ kept ∈ step node, kept.isLegal voids = true)
    (hc : Child.areLegal voids children = true) :
    Child.areLegal voids (mapChildren step children) = true := by
  induction children with
  | nil => rfl
  | cons child rest ih =>
    cases child with
    | text s => exact ih hc
    | element node =>
      rw [Child.areLegal, Bool.and_eq_true] at hc
      rw [mapChildren]
      split
      next kept hkept =>
        rw [Child.areLegal, hs node hc.1 kept hkept, ih hc.2]
        rfl
      next => exact ih hc.2

/-- The body of a raw element has no elements that could be dropped. -/
theorem isRawContent_mapChildren {name : String} (step : Node → Option Node)
    (h : isRawContent name children = true) :
    isRawContent name (mapChildren step children) = true := by
  unfold isRawContent at h
  split at h
  · rfl
  · exact h
  · cases h

/-- **What is left of a legal tree is legal**, at every depth and in every place. -/
theorem isLegal_expanded? (hx : x.views.GivesLegal voids) (depth : Nat) (place : Place)
    (hn : place.node.isLegal voids = true) :
    ∀ kept ∈ x.expanded? depth place, kept.isLegal voids = true := by
  induction depth generalizing place with
  | zero =>
    rintro _ ⟨⟩
    exact hn
  | succ depth ih =>
    obtain ⟨hname, hkeys, hvoid, hraw, hchildren⟩ := Node.isLegal_iff.1 (isLegal_replaced hx hn)
    rw [expanded?, kept?]
    split
    · rintro _ ⟨⟩
    · rintro _ ⟨⟩
      refine Node.isLegal_iff.2 ⟨hname, hkeys, fun hv => ?_,
        fun hr => isRawContent_mapChildren _ (hraw hr),
        areLegal_mapChildren (fun node hnode => ?_) hchildren⟩
      · rw [hvoid hv]
        rfl
      · exact ih { x.replaced place with node } hnode

theorem isLegal_of_read {source : String} (hv : x.config.markup.voids.AvoidsRaw)
    (h : (x.read source).value = .ok root) : root.isLegal x.config.markup.voids = true := by
  unfold read at h
  simp only [Logged.value_bind] at h
  split at h
  next => cases h
  next hp => cases h; exact Markup.isLegal_of_parse hv hp

theorem isLegal_of_expandDocument {expanded : Node} (hx : x.views.GivesLegal voids)
    (hn : node.isLegal voids = true) (h : (x.expandDocument node).value = some expanded) :
    expanded.isLegal voids = true :=
  isLegal_expanded? hx _ _ hn expanded ((value_expand _).symm.trans h)

/-! ## Compiled documents -/

theorem value_compile (source : String) : (x.compile source).value =
    (x.read source).value.map fun root => ((x.expandDocument root).value.map x.write).getD "" := by
  unfold compile
  simp only [Logged.value_bind]
  cases (x.read source).value <;> rfl

/-- Raw bodies are written and read alike if they are kept and no void tag begins like theirs. -/
theorem keepsRaw_of_not_beginsRaw {w : Markup.Writer} (hbody : w.output.preserveScriptBody = true)
    (hvoid : ∀ tag ∈ w.markup.voidTags, Markup.beginsRaw tag = false) : w.KeepsRaw := by
  refine ⟨hbody, fun tag ht => ?_⟩
  rw [← Bool.not_eq_true]
  intro hraw
  have := Markup.beginsRaw_of_isRawName hraw
  rw [hvoid tag ht] at this
  cases this

/-- **Compiled markup is well formed**: it is empty if the document was dropped as a whole, and else
it is read as the expanded document in normal form. -/
theorem parse_compile {x : Expander} {sources : List (String × String)} {source html : String}
    (hviews : x.views = (StoredViews.ofList x.config.markup.voids sources).run)
    (hf : x.config.output.format = false) (hbody : x.config.output.preserveScriptBody = true)
    (hvoid : ∀ tag ∈ x.config.markup.voidTags, Markup.beginsRaw tag = false)
    (h : (x.compile source).value = .ok html) : ∃ root, (x.read source).value = .ok root ∧
      ((x.expandDocument root).value = none ∧ html = "" ∨
        ∃ expanded, (x.expandDocument root).value = some expanded ∧
          (Markup.parse x.config.markup.voids html).value = .ok expanded.normalize) := by
  have havoid : x.config.markup.voids.AvoidsRaw := Markup.avoidsRaw_ofList hvoid
  have hx : x.views.GivesLegal x.config.markup.voids := hviews ▸ givesLegal_run havoid
  unfold compile at h
  simp only [Logged.value_bind] at h
  split at h
  next => cases h
  next root hread =>
    cases h
    refine ⟨root, hread, ?_⟩
    cases he : (x.expandDocument root).value with
    | none => exact .inl ⟨rfl, rfl⟩
    | some expanded =>
      have hw : Markup.Writer.KeepsRaw ⟨x.config.output, x.config.markup⟩ :=
        keepsRaw_of_not_beginsRaw hbody hvoid
      have hlegal := isLegal_of_expandDocument hx (isLegal_of_read havoid hread) he
      exact .inr ⟨expanded, rfl, hw.parse_render_of_isLegal hf hlegal⟩

theorem parse_compile_card :
    let x : Expander := ⟨{}, .ofNames "-" ["card"], (StoredViews.ofList (MarkupConfig.voids {})
      [("card", "<p>\x7b\x7b name \x7d\x7d<yield/></p>")]).run⟩
    ∃ root, (x.read "<Card name='a'><b>x</b> &amp; y</Card>").value = .ok root ∧
      ((x.expandDocument root).value = none ∧ "<p class=\"a\">a<b>x</b> &amp; y</p>" = "" ∨
        ∃ expanded, (x.expandDocument root).value = some expanded ∧
          (Markup.parse x.config.markup.voids "<p class=\"a\">a<b>x</b> &amp; y</p>").value =
            .ok expanded.normalize) :=
  parse_compile rfl rfl rfl (by decide) (by decide +kernel)

end Expander

end ComponentMarkup
